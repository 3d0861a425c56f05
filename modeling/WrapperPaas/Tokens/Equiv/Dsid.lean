/-
  The claim that `extract_dsid_from_jwt` finds in a token.

  A token is read up to its second dot, and neither part before it has a dot of its own, so the
  claims that were encoded are what is decoded.  A `dsid` that is a number is converted to a
  `long long` also when it is unsigned: from 2⁶³ on its text is that of a negative number.
-/
import WrapperPaas.Lib.Fields
import WrapperPaas.Lib.JsonText
import WrapperPaas.Tokens.Equiv.Jwt
import WrapperPaas.Tokens.Harvest

namespace WrapperPaas

namespace Harvest

open Json Base64

/-- A token: header and payload in base64url, and a signature. -/
def jwt (header payload signature : Bytes) : Bytes :=
  urlSafe.encodeUnpadded header ++ 46 :: (urlSafe.encodeUnpadded payload ++ 46 :: signature)

/-- The alphabet has no dot. -/
theorem dot_not_mem (x : Bytes) : 46 ∉ urlSafe.encodeUnpadded x := by
  have hchar : ∀ d, urlSafe.char d ≠ 46 := by decide
  intro h
  obtain ⟨d, -, hd⟩ := List.mem_map.mp h
  exact hchar d hd

section Extract

variable (nl : Nlohmann) (header payload signature : Bytes)

theorem extractDsidFromJwt_jwt : extractDsidFromJwt nl (jwt header payload signature) =
    if payload = [] then none else (parse nl payload).bind dsidOfClaims := by
  have hfirst : (jwt header payload signature).idxOf? 46 =
      some (urlSafe.encodeUnpadded header).length := idxOf?_append_cons (dot_not_mem header) _
  have hrest : (jwt header payload signature).drop ((urlSafe.encodeUnpadded header).length + 1) =
      urlSafe.encodeUnpadded payload ++ 46 :: signature := by
    rw [jwt, List.drop_length_add_append]
    rfl
  have hsecond : (urlSafe.encodeUnpadded payload ++ 46 :: signature).idxOf? 46 =
      some (urlSafe.encodeUnpadded payload).length := idxOf?_append_cons (dot_not_mem payload) _
  unfold extractDsidFromJwt
  simp only [hfirst, hrest, hsecond, Option.bind_eq_bind, Option.bind_some, List.take_left,
    Jwt.decode_encodeUnpadded]

end Extract

/-! ### Numbers -/

theorem asLongLong_eq_iff {i : Int} (h : InRange i) : asLongLong i = i ↔ i < (2 ^ 63 : Nat) := by
  obtain ⟨hlow, hhigh⟩ := h
  rw [asLongLong, BitVec.toInt_ofInt, Int.bmod]
  omega

theorem stringAt_eq_some {v : Value} {key s : String} :
    stringAt v key = some s ↔ v.get key = some (.str s) := by
  unfold stringAt
  split
  · next s' hget => rw [hget, Option.some.injEq, Option.some.injEq, Value.str.injEq]
  · next hget => exact ⟨fun h => (nomatch h), fun h => absurd h (hget s)⟩

/-- The claim is a string or an integer, which stay what they are. -/
theorem dsidOfClaims_reread {real : Bytes → Option Bytes} {v w : Value}
    (h : v.reread real = some w) : dsidOfClaims w = dsidOfClaims v := by
  have hstring : ∀ key, stringAt w key = stringAt v key := fun key => Option.ext fun s => by
    rw [stringAt_eq_some, stringAt_eq_some, v.get_str_reread h]
  have hdsid := v.get_reread h "dsid"
  unfold dsidOfClaims
  simp only [hstring]
  generalize v.get "dsid" = x at hdsid
  generalize w.get "dsid" = y at hdsid
  cases hdsid with
  | none => rfl
  | @some x y hxy =>
    cases x with
    | null | bool _ | num _ | str _ =>
      obtain rfl := Option.some.inj hxy
      rfl
    | real _ | arr _ | obj _ =>
      obtain ⟨_, -, rfl⟩ := Option.map_eq_some_iff.mp hxy
      rfl

/-- **The claim of a token.** -/
theorem dsid_of_claims (nl : Nlohmann) (header signature : Bytes)
    (claims : {v : Value // v.Canonical ∧ ∃ w, v.reread nl.real = some w}) :
    extractDsidFromJwt nl (jwt header (compact claims) signature) = dsidOfClaims claims ∧
      ∀ i, claims.val.get "dsid" = some (.num i) →
        (extractDsidFromJwt nl (jwt header (compact claims) signature) = some (toString i) ↔
          i < (2 ^ 63 : Nat)) := by
  obtain ⟨v, hv, w, hw⟩ := claims
  have hne : compact v ≠ [] := List.ne_nil_of_length_pos (length_compact_pos hv)
  have hparse : parse nl (compact v) = some w := by
    rw [parse, (nl.parse_compact hv).mpr ⟨fun _ h => (nomatch h), hw⟩]
    rfl
  have hextract : extractDsidFromJwt nl (jwt header (compact v) signature) = dsidOfClaims v := by
    rw [extractDsidFromJwt_jwt, if_neg hne, hparse, Option.bind_some, dsidOfClaims_reread hw]
  refine ⟨hextract, fun i hi => ?_⟩
  have hrange : InRange i := hv.get hi
  have hdsid : dsidOfClaims v = some (toString (asLongLong i)) := by
    unfold dsidOfClaims
    dsimp only at hi
    rw [hi]
  rw [hextract, hdsid, Option.some.injEq, ← asLongLong_eq_iff hrange]
  exact ⟨toString_inj, congrArg toString⟩

end Harvest

end WrapperPaas
