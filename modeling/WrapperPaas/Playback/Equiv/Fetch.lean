/-
  The references to the playback dictionaries.

  Each one is owned by the slot of the thread or by the guard of a call (`Owns`), whatever Apple
  delivers and whichever way the call is left.  Behind a call only the slot is left
  (`playback_balance`).
-/
import Mathlib.Data.Multiset.AddSub
import WrapperPaas.Playback.Fetch

namespace WrapperPaas

namespace Playback

open WrapperPaas.Runtime (Loader Ptr nullptr)

open Refcount (Event Owned Sound)

/-- What a pointer owns. -/
def refs (p : Ptr) : Multiset Ptr := if p = nullptr then 0 else {p}

/-- The slot of the thread owns its dictionary, and somebody else owns `os`. -/
def Owns (t : Thread) (os : Multiset Ptr) : Prop := Owned t.log (refs t.cfDict + os)

/-- Pending is the dictionary that was delivered last since the capture, if one was. -/
def Pending (t : Thread) : Prop :=
  t.delivered.getLast? = if t.cfDict = nullptr then none else some t.cfDict

/-- Every retain is matched by a release, but for the one of a dictionary that is pending. -/
structure Balanced (t : Thread) : Prop where
  count : t.log.countP Event.isRetain =
    t.log.countP Event.isRelease + if t.cfDict = nullptr then 0 else 1
  pending : Pending t
  sound : Sound t.log

/-! ### References -/

theorem owned_release {t : Thread} {p : Ptr} {os : Multiset Ptr} (h : Owned t.log (refs p + os)) :
    Owned (t.release p).log os := by
  unfold refs at h
  unfold Thread.release
  split
  · next hp =>
    rw [if_neg hp] at h
    exact .release h
  · next hp =>
    rw [if_pos (not_not.mp hp), Multiset.zero_add] at h
    exact h

theorem Thread.release_cfDict (t : Thread) (p : Ptr) : (t.release p).cfDict = t.cfDict := by
  unfold Thread.release
  split
  · rfl
  · rfl

theorem refs_of_ne {p : Ptr} (h : p ≠ nullptr) : refs p = {p} := if_neg h

variable {cf : CoreFoundation} {l : Loader} {t : Thread} {os : Multiset Ptr}

theorem owns_reset (h : Owns t os) : Owns t.reset os := by
  have hreleased := owned_release h
  rw [← Multiset.zero_add os] at hreleased
  exact hreleased

/-- A dictionary that is delivered takes the place of the one before it. -/
theorem owns_preproc (h : Owns t os) (sp : UrlResponse) : Owns (preproc cf l t sp) os := by
  cases sp with
  | none => exact h
  | some dict =>
    unfold preproc
    dsimp only
    split
    · exact h
    · split
      · exact h
      · next hdict =>
        -- the new one is retained before the old one is released
        have hretained : Owned (t.note (.retain dict)).log (refs t.cfDict + dict ::ₘ os) := by
          rw [Multiset.add_cons]
          exact .retain dict h
        have hreleased := owned_release hretained
        rw [← Multiset.singleton_add, ← refs_of_ne hdict] at hreleased
        unfold Owns
        rw [cf.cfRetain_eq, ite_self]
        exact hreleased

theorem owns_deliveries (h : Owns t os) (sps : List UrlResponse) :
    Owns (sps.foldl (preproc cf l) t) os := by
  induction sps generalizing t with
  | nil => exact h
  | cons sp sps ih => exact ih (owns_preproc h sp)

/-- The reference goes from the slot to the guard. -/
theorem owns_take (h : Owns t 0) : Owns t.take (refs t.cfDict) := by
  unfold Owns at h
  rw [Multiset.add_zero, ← Multiset.zero_add (refs t.cfDict)] at h
  exact h

/-- What is read is owned by the guard. -/
theorem owns_respond {dict : Ptr} (h : Owns t (refs dict)) (p : Purchase) :
    Owns (respond cf l p dict t).2 (refs dict) := by
  unfold respond
  dsimp only
  split
  · next hdict =>
    refine .use h (Multiset.mem_add.mpr (.inr ?_))
    rw [refs_of_ne hdict]
    exact Multiset.mem_singleton_self dict
  · exact h

/-- The guard gives its reference up. -/
theorem owns_release {dict : Ptr} (h : Owns t (refs dict)) : Owns (t.release dict) 0 := by
  unfold Owns at h ⊢
  rw [Multiset.add_comm] at h
  rw [Thread.release_cfDict, Multiset.add_zero]
  exact owned_release h

/-- A purchase ends with nothing but the slot. -/
theorem owns_purchase (h : Owns t 0) (p : Purchase) : Owns (runPurchase cf l p t).2 0 :=
  owns_release <| owns_respond
    (owns_deliveries (owns_take (owns_deliveries (owns_deliveries (owns_reset h) _) _)) _) _

/-! ### What is pending -/

theorem pending_take (t : Thread) : Pending t.take := rfl

theorem pending_preproc (h : Pending t) (sp : UrlResponse) : Pending (preproc cf l t sp) := by
  cases sp with
  | none => exact h
  | some dict =>
    unfold preproc
    dsimp only
    split
    · exact h
    · split
      · exact h
      · next hdict =>
        unfold Pending
        rw [cf.cfRetain_eq, ite_self, if_neg hdict]
        exact List.getLast?_concat

theorem pending_deliveries (h : Pending t) (sps : List UrlResponse) :
    Pending (sps.foldl (preproc cf l) t) := by
  induction sps generalizing t with
  | nil => exact h
  | cons sp sps ih => exact ih (pending_preproc h sp)

theorem pending_release (h : Pending t) (p : Ptr) : Pending (t.release p) := by
  unfold Thread.release
  split
  · exact h
  · exact h

theorem pending_respond (h : Pending t) (p : Purchase) (dict : Ptr) :
    Pending (respond cf l p dict t).2 := by
  unfold respond
  dsimp only
  split
  · exact h
  · exact h

/-- Whatever was pending before, a purchase takes its own capture. -/
theorem pending_purchase (p : Purchase) (t : Thread) : Pending (runPurchase cf l p t).2 :=
  pending_release (pending_respond (pending_deliveries (pending_take _) _) _ _) _

/-! ### Bodies -/

mutual

theorem canonical_cfToJson (iso8601 : Int → String) : ∀ p : Plist, (cfToJson iso8601 p).Canonical
  | .null | .string _ | .float none | .boolean _ | .data none | .data (some _) | .date _ | .other =>
    trivial
  | .dictionary entries => Json.canonical_object (canonical_cfMembers iso8601 entries)
  | .array elements => canonical_cfElements iso8601 elements
  | .float (some v) => v.property
  | .int v => by
    have hlow := v.le_toInt
    have hhigh := v.toInt_lt
    exact ⟨by omega, by omega⟩

theorem canonical_cfElements (iso8601 : Int → String) : ∀ elements : List Plist,
    Json.ElementsCanonical (cfElements iso8601 elements)
  | [] => trivial
  | el :: elements => ⟨canonical_cfToJson iso8601 el, canonical_cfElements iso8601 elements⟩

theorem canonical_cfMembers (iso8601 : Int → String) :
    ∀ entries : List (Option CFString × Plist), Json.MembersCanonical (cfMembers iso8601 entries)
  | [] => trivial
  | (none, _) :: entries => by
    rw [cfMembers]
    exact canonical_cfMembers iso8601 entries
  | (some key, v) :: entries => by
    rw [cfMembers]
    split_ifs
    · exact canonical_cfMembers iso8601 entries
    · exact ⟨canonical_cfToJson iso8601 v, canonical_cfMembers iso8601 entries⟩

end

/-- The pointer is one to a dictionary. -/
def CoreFoundation.IsDictionary (cf : CoreFoundation) (d : Ptr) : Prop :=
  ∀ p, cf.plist d = .ok p → ∃ entries, p = .dictionary entries

/-- What is delivered during a purchase are dictionaries. -/
def Purchase.Delivers (cf : CoreFoundation) (p : Purchase) : Prop :=
  ∀ d, some d ∈ p.setup ++ p.run → cf.IsDictionary d

theorem toJson_eq_ok {d : Ptr} {v : Json.Value} :
    cf.toJson d = .ok v ↔ ∃ p, cf.plist d = .ok p ∧ cfToJson cf.iso8601 p = v := by
  unfold CoreFoundation.toJson
  cases cf.plist d with
  | error e => exact ⟨fun h => (nomatch h), fun ⟨_, h, _⟩ => (nomatch h)⟩
  | ok p =>
    constructor
    · intro h
      exact ⟨p, rfl, Except.ok.inj h⟩
    · rintro ⟨p', hp, rfl⟩
      obtain rfl := Except.ok.inj hp
      rfl

/-- The slot is empty or holds what was delivered. -/
theorem dictionary_deliveries {sps : List UrlResponse}
    (hsps : ∀ d, some d ∈ sps → cf.IsDictionary d)
    (h : t.cfDict = nullptr ∨ cf.IsDictionary t.cfDict) :
    (sps.foldl (preproc cf l) t).cfDict = nullptr ∨
      cf.IsDictionary (sps.foldl (preproc cf l) t).cfDict := by
  induction sps generalizing t with
  | nil => exact h
  | cons sp sps ih =>
    refine ih (fun d hd => hsps d (List.mem_cons_of_mem _ hd)) ?_
    cases sp with
    | none => exact h
    | some d =>
      unfold preproc
      dsimp only
      split_ifs
      · exact h
      · exact h
      · refine .inr ?_
        rw [cf.cfRetain_eq]
        exact hsps d List.mem_cons_self
      · exact .inr (hsps d List.mem_cons_self)

theorem canonical_mapM {ds : List Ptr} {vs : List Json.Value} (h : ds.mapM cf.toJson = .ok vs) :
    Json.ElementsCanonical vs := by
  induction ds generalizing vs with
  | nil =>
    obtain rfl := Except.ok.inj h
    trivial
  | cons d ds ih =>
    rw [List.mapM_cons] at h
    obtain ⟨v, hv, h⟩ := bind_eq_ok.mp h
    obtain ⟨ws, hws, h⟩ := bind_eq_ok.mp h
    obtain rfl := Except.ok.inj h
    obtain ⟨p, -, rfl⟩ := toJson_eq_ok.mp hv
    exact ⟨canonical_cfToJson _ p, ih hws⟩

theorem body_fallback {response : Option PurchaseResponse} {r : PlaybackResult}
    (h : fallback cf l response = .ok r) (hok : r.ok = true) :
    r.body.Canonical ∧ ∃ members, r.body = .obj members := by
  unfold fallback at h
  cases response with
  | none =>
    obtain rfl := Except.ok.inj h
    cases hok
  | some response =>
    -- what is made of the list
    have hlist : ∀ {list : List Json.Value} {error : String}, Json.ElementsCanonical list →
        (if list ≠ [] then .ok { ok := true, body := .obj [("songList", .arr list)] }
          else .ok { error } : Except Bytes PlaybackResult) = .ok r →
        r.body.Canonical ∧ ∃ members, r.body = .obj members := by
      intro list error hcanonical h
      split_ifs at h
      · obtain rfl := Except.ok.inj h
        exact ⟨⟨List.pairwise_singleton _ _, hcanonical, trivial⟩, _, rfl⟩
      · obtain rfl := Except.ok.inj h
        cases hok
    dsimp only at h
    by_cases hitems : l.symbols .PurchaseResponse_items = nullptr
    · rw [if_pos hitems] at h
      obtain rfl := Except.ok.inj h
      cases hok
    · rw [if_neg hitems] at h
      obtain ⟨list, hsongs, h⟩ := bind_eq_ok.mp h
      exact hlist (canonical_mapM hsongs) h

/-- The body of a result that is `ok` is an object that has a text. -/
theorem body_fetchPlaybackJson {c : Call} (hc : ∀ req, (c.purchase req).Delivers cf)
    {r : PlaybackResult} (h : (fetchPlaybackJson cf l c t).1 = .ok r) (hok : r.ok = true) :
    r.body.Canonical ∧ ∃ members, r.body = .obj members := by
  have hrefused : ∀ {text : String}, Except.ok (ε := Bytes) { error := text } = .ok r → False := by
    intro text h
    obtain rfl := Except.ok.inj h
    cases hok
  unfold fetchPlaybackJson at h
  split_ifs at h
  · exact (hrefused h).elim
  · exact (hrefused h).elim
  · exact (hrefused h).elim
  · exact (hrefused h).elim
  · exact (hrefused h).elim
  · dsimp only at h
    generalize hreq : c.purchase _ = p at h
    have hdeliver : p.Delivers cf := hreq ▸ hc _
    have hsetup := dictionary_deliveries (l := l) (t := t.reset)
      (fun d hd => hdeliver d (List.mem_append_left _ hd)) (.inl rfl)
    have hdict := dictionary_deliveries (l := l)
      (fun d hd => hdeliver d (List.mem_append_right _ hd)) hsetup
    unfold runPurchase respond at h
    dsimp only at h
    split_ifs at h with hne
    · cases hbody : cf.toJson ((p.run.foldl (preproc cf l)
          (p.setup.foldl (preproc cf l) t.reset)).cfDict) with
      | error e =>
        rw [hbody] at h
        cases h
      | ok v =>
        rw [hbody] at h
        obtain rfl := Except.ok.inj h
        obtain ⟨plist, hplist, rfl⟩ := toJson_eq_ok.mp hbody
        obtain ⟨entries, rfl⟩ := (hdict.resolve_left hne) plist hplist
        exact ⟨canonical_cfToJson _ _, _, rfl⟩
    · have hfallback : fallback cf l none = .ok r := h
      exact body_fallback hfallback hok
    · have hfallback : fallback cf l p.response = .ok r := h
      exact body_fallback hfallback hok

/-! ### The thread -/

/-- A call that is refused leaves the thread as it was. -/
theorem fetch_cases (cf : CoreFoundation) (l : Loader) (c : Call) (t : Thread) :
    (fetchPlaybackJson cf l c t).2 = t ∨
      ∃ p, fetchPlaybackJson cf l c t = runPurchase cf l p t := by
  unfold fetchPlaybackJson
  split_ifs
  · exact .inl rfl
  · exact .inl rfl
  · exact .inl rfl
  · exact .inl rfl
  · exact .inl rfl
  · exact .inr ⟨_, rfl⟩

theorem owns_turn (h : Owns t 0) (turn : Turn) : Owns (t.turn cf l turn) 0 := by
  cases turn with
  | call c =>
    show Owns (fetchPlaybackJson cf l c t).2 0
    rcases fetch_cases cf l c t with heq | ⟨p, heq⟩
    · rw [heq]
      exact h
    · rw [heq]
      exact owns_purchase h p
  | late sp => exact owns_preproc h sp

theorem pending_turn (h : Pending t) (turn : Turn) : Pending (t.turn cf l turn) := by
  cases turn with
  | call c =>
    show Pending (fetchPlaybackJson cf l c t).2
    rcases fetch_cases cf l c t with heq | ⟨p, heq⟩
    · rw [heq]
      exact h
    · rw [heq]
      exact pending_purchase p t
  | late sp => exact pending_preproc h sp

/-- **The balance of a thread**, whatever its calls are and whatever Apple delivers in them and
between them. -/
theorem playback_balance (cf : CoreFoundation) (l : Loader) (turns : List Turn) :
    Balanced (runTurns cf l turns) := by
  have hinv : Owns (runTurns cf l turns) 0 ∧ Pending (runTurns cf l turns) := by
    induction turns using List.reverseRecOn with
    | nil => exact ⟨.nil, rfl⟩
    | append_singleton turns turn ih =>
      unfold runTurns at ih ⊢
      rw [List.foldl_append]
      exact ⟨owns_turn ih.1 turn, pending_turn ih.2 turn⟩
  obtain ⟨howns, hpending⟩ := hinv
  refine ⟨?_, hpending, howns.sound⟩
  rw [howns.card, Multiset.add_zero]
  unfold refs
  split
  · rfl
  · rfl

end Playback

end WrapperPaas
