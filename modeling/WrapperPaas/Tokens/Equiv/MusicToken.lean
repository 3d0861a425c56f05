/-
  The body of the request for the music token, which `harvest_music_user_token` puts together
  without a JSON library.

  With its strings escaped it would be the text of the object that is meant
  (`membersText_request`).  No text of this object is shorter, and an escape makes a text longer, so
  the body is a text of it only where nothing has to be escaped.
-/
import WrapperPaas.Lib.JsonText
import WrapperPaas.Tokens.Harvest

namespace WrapperPaas

namespace Harvest

open Json

variable (guid devToken : String) (nowMs : Int)

/-- The members that the body is meant to have. -/
def requestMembers : List (String × Value) :=
  [("guid", .str guid), ("assertion", .str devToken),
    ("tcc-acceptance-date", .str (toString nowMs))]

/-- The body with the strings as they have to be written. -/
theorem membersText_request : openBrace :: (membersText (requestMembers guid devToken nowMs) ++
    [closeBrace]) = musicTokenBody (escaped (utf8 guid)) (escaped (utf8 devToken)) nowMs := by
  have hguid : utf8 "\x7b\"guid\":\"" = openBrace :: (compactString "guid" ++ [colon, quote]) := by
    decide
  have hassertion : utf8 "\",\"assertion\":\"" =
      quote :: comma :: (compactString "assertion" ++ [colon, quote]) := by
    decide
  have hdate : utf8 "\",\"tcc-acceptance-date\":\"" =
      quote :: comma :: (compactString "tcc-acceptance-date" ++ [colon, quote]) := by
    decide
  have hend : utf8 "\"\x7d" = [quote, closeBrace] := by decide
  unfold requestMembers musicTokenBody
  rw [membersText_cons, membersText_cons, membersText_single, hguid, hassertion, hdate, hend]
  have hnow : compact (.str (toString nowMs)) = quote :: (compactInt nowMs ++ [quote]) := by
    rw [compact, compactString, utf8_toString, escaped_eq_self (raw_compactInt nowMs)]
  have hstr : ∀ s, compact (.str s) = quote :: (escaped (utf8 s) ++ [quote]) := fun _ => rfl
  rw [hnow, hstr, hstr]
  simp only [List.append_assoc, List.cons_append, List.nil_append]

theorem length_musicTokenBody (guid devToken : Bytes) :
    (musicTokenBody guid devToken nowMs).length =
      51 + guid.length + devToken.length + (compactInt nowMs).length := by
  simp only [musicTokenBody, List.length_append]
  have hlen : (utf8 "\x7b\"guid\":\"").length + (utf8 "\",\"assertion\":\"").length +
      (utf8 "\",\"tcc-acceptance-date\":\"").length + (utf8 "\"\x7d").length = 51 := by
    decide
  omega

/-- The members have different keys. -/
theorem assignMembers_request : assignMembers (requestMembers guid devToken nowMs) =
    [("assertion", .str devToken), ("guid", .str guid),
      ("tcc-acceptance-date", .str (toString nowMs))] := by
  have hlast : ∀ m ∈ [("assertion", Value.str devToken), ("guid", .str guid)],
      m.1 < "tcc-acceptance-date" := by
    simp only [List.forall_mem_cons]
    exact ⟨by decide, by decide, List.forall_mem_nil _⟩
  have hlt : "assertion" < "guid" := by decide
  have hfirst : setMember "assertion" (.str devToken) [("guid", .str guid)] =
      [("assertion", .str devToken), ("guid", .str guid)] := if_pos hlt
  show setMember _ _ (setMember "assertion" (.str devToken) [("guid", .str guid)]) = _
  rw [hfirst, setMember_last hlast]
  rfl

theorem membersLength_request : membersLength (assignMembers (requestMembers guid devToken nowMs)) =
    membersLength (requestMembers guid devToken nowMs) := by
  rw [assignMembers_request]
  simp only [requestMembers, membersLength]
  omega

theorem read_musicTokenBody (hguid : ∀ c ∈ utf8 guid, Raw c) (htoken : ∀ c ∈ utf8 devToken, Raw c) :
    read (musicTokenBody (utf8 guid) (utf8 devToken) nowMs) =
      some (.object (requestMembers guid devToken nowMs)) := by
  have htext := membersText_request guid devToken nowMs
  rw [escaped_eq_self hguid, escaped_eq_self htoken] at htext
  rw [← htext]
  exact read_members (List.cons_ne_nil _ _) ⟨trivial, trivial, trivial, trivial⟩

/-- **The body of the request** is read as the object that is meant if and only if no character of
the device's GUID and of the token has to be escaped. -/
theorem music_token_body_iff :
    read (musicTokenBody (utf8 guid) (utf8 devToken) nowMs) =
        some (.object (requestMembers guid devToken nowMs)) ↔
      (∀ c ∈ utf8 guid, Raw c) ∧ ∀ c ∈ utf8 devToken, Raw c := by
  constructor
  · intro h
    have htext := membersText_request guid devToken nowMs
    have hle := length_compact_le h
    have hlen : (compact (.object (requestMembers guid devToken nowMs))).length =
        (musicTokenBody (escaped (utf8 guid)) (escaped (utf8 devToken)) nowMs).length := by
      have hobject : (compact (.object (requestMembers guid devToken nowMs))).length =
          (membersText (assignMembers (requestMembers guid devToken nowMs))).length + 2 := by
        simp [compact, membersText, Value.object]
      rw [hobject, ← htext, length_membersText, membersLength_request, ← length_membersText,
        List.length_cons, List.length_append, List.length_singleton]
    rw [hlen, length_musicTokenBody, length_musicTokenBody] at hle
    have hguid := length_le_escaped (utf8 guid)
    have htoken := length_le_escaped (utf8 devToken)
    exact ⟨raw_of_length_escaped_le (by omega), raw_of_length_escaped_le (by omega)⟩
  · rintro ⟨hguid, htoken⟩
    exact read_musicTokenBody guid devToken nowMs hguid htoken

end Harvest

end WrapperPaas
