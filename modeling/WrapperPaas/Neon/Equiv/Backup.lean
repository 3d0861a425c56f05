/-
  Which sessions are backed up.

  The gate of `backup_state` is a search for the word `authenticated` in the whole answer to `GET
  /me`.  The answer has the word as the state of an authenticated account, and wherever a text of
  somebody else has it: the word itself, or the control character U+001A before `uthenticated`,
  which is written with an `a` as its last hexadecimal digit (`mentions_meBody`).  `backup_gate_iff`
  says when the gate is right.
-/
import WrapperPaas.Neon.Backup

namespace WrapperPaas

namespace Neon

open Json Daemon.Report

/-- The word that is searched for. -/
def authenticatedWord : Word := ⟨97, 117, utf8 "thenticated", forall_mem_of_all (by decide)⟩

/-- The text has the word in it, as it is or when it is written as JSON. -/
def Resembles (s : String) : Prop :=
  utf8 "authenticated" <:+: utf8 s ∨ 26 :: utf8 "uthenticated" <:+: utf8 s

instance (s : String) : Decidable (Resembles s) := inferInstanceAs (Decidable (_ ∨ _))

/-- The texts in the answer that the worker is given by others: by its build and its environment, by
the dynamic linker, by the user and by Apple. -/
def reportedTexts (snap : AccountSnapshot) (rt : RuntimeInfo) : List String :=
  [rt.version, snap.appleId] ++ (if rt.loaderOk = false then [rt.loaderError] else []) ++
    (if rt.initialized = true then [rt.baseDir, rt.deviceInfo] else []) ++
    (if snap.state = .failed then [snap.lastError] else [])

/-! ### The word in the answer -/

theorem bytes_authenticatedWord : authenticatedWord.bytes = utf8 "authenticated" := by decide

/-- `\u001a` is the only escape sequence whose last character is an `a`. -/
theorem escape_ends_with_a (c : UInt8) :
    ¬ Raw c ∧ (escapeByte c).getLast? = some authenticatedWord.first ↔ c = 26 := by
  have htable : ∀ n : Fin 256, ¬ Raw (.ofNat n) ∧ (escapeByte (.ofNat n)).getLast? =
      some authenticatedWord.first ↔ UInt8.ofNat n = 26 := by
    decide +kernel
  have hc := htable ⟨c.toNat, c.toNat_lt⟩
  rwa [UInt8.ofNat_toNat] at hc

theorem mentions_escaped (s : String) :
    utf8 "authenticated" <:+: escaped (utf8 s) ↔ Resembles s := by
  rw [← bytes_authenticatedWord, infix_escaped]
  unfold Resembles
  rw [bytes_authenticatedWord]
  apply or_congr_right
  constructor
  · rintro ⟨c, hc, hlast, h⟩
    obtain rfl := (escape_ends_with_a c).mp ⟨hc, hlast⟩
    exact h
  · intro h
    obtain ⟨hc, hlast⟩ := (escape_ends_with_a 26).mpr rfl
    exact ⟨26, hc, hlast, h⟩

theorem mentions_str (s : String) :
    utf8 "authenticated" <:+: compact (.str s) ↔ Resembles s := by
  have h := infix_compactString authenticatedWord s
  rw [bytes_authenticatedWord] at h
  exact h.trans (mentions_escaped s)

theorem not_mentions_num (i : Int) : ¬ utf8 "authenticated" <:+: compact (.num i) := by
  rw [← bytes_authenticatedWord]
  exact not_infix_compactInt authenticatedWord i

theorem not_mentions_bool (b : Bool) : ¬ utf8 "authenticated" <:+: compact (.bool b) := by
  cases b with
  | false => decide
  | true => decide

/-- The word is in a key or a value of a member. -/
def MentionedIn (ms : List (String × Value)) : Prop :=
  ∃ m ∈ ms, Resembles m.1 ∨ utf8 "authenticated" <:+: compact m.2

theorem mentions_object {members : List (String × Value)}
    (hkeys : (members.map Prod.fst).Nodup) :
    utf8 "authenticated" <:+: compact (.object members) ↔ MentionedIn members := by
  have h := infix_compact_obj authenticatedWord (assignMembers members)
  simp only [bytes_authenticatedWord, mentions_escaped, mem_assignMembers hkeys] at h
  exact h

section MentionedIn

variable {ms ms' : List (String × Value)} {key : String} {v : Value} {c : Prop} [Decidable c]

theorem mentionedIn_nil : ¬ MentionedIn [] := by
  rintro ⟨m, hm, -⟩
  cases hm

/-- None of the keys resembles the word. -/
theorem mentionedIn_cons (hkey : ¬ Resembles key) :
    MentionedIn ((key, v) :: ms) ↔ utf8 "authenticated" <:+: compact v ∨ MentionedIn ms := by
  unfold MentionedIn
  rw [List.exists_mem_cons_iff, or_iff_right hkey]

theorem mentionedIn_append : MentionedIn (ms ++ ms') ↔ MentionedIn ms ∨ MentionedIn ms' := by
  unfold MentionedIn
  simp only [List.mem_append, or_and_right, exists_or]

theorem mentionedIn_membersIf : MentionedIn (membersIf c ms) ↔ c ∧ MentionedIn ms := by
  unfold membersIf
  split_ifs with hc
  · rw [and_iff_right hc]
  · exact iff_of_false mentionedIn_nil fun h => hc h.1

theorem membersIf_sublist : (membersIf c ms).Sublist ms := by
  unfold membersIf
  split_ifs
  · exact List.Sublist.refl ms
  · exact List.nil_sublist ms

end MentionedIn

/-- An empty text is left out, but it does not have the word either. -/
theorem resembles_ne_empty {s : String} : (s ≠ "" ∧ Resembles s) ↔ Resembles s := by
  refine and_iff_right_of_imp ?_
  rintro h rfl
  revert h
  decide

theorem mentions_runtimeToJson (rt : RuntimeInfo) :
    utf8 "authenticated" <:+: compact (runtimeToJson rt) ↔
      rt.loaderOk = false ∧ Resembles rt.loaderError ∨
        rt.initialized = true ∧ (Resembles rt.baseDir ∨ Resembles rt.deviceInfo) := by
  unfold runtimeToJson
  rw [mentions_object]
  · rw [mentionedIn_append, mentionedIn_append, mentionedIn_membersIf, mentionedIn_membersIf]
    repeat rw [mentionedIn_cons (by decide)]
    simp only [not_mentions_bool, mentions_str, mentionedIn_nil, false_or, or_false, and_assoc,
      resembles_ne_empty]
  · -- the keys of all members are distinct
    refine List.Nodup.sublist (((List.Sublist.refl _).append membersIf_sublist).append
      membersIf_sublist |>.map Prod.fst) ?_
    simp

theorem resembles_name (state : LoginState) : Resembles state.name ↔ state = .authenticated := by
  cases state
  all_goals decide

theorem mentions_snapshotToJson (iso8601Utc : Nat → String) (snap : AccountSnapshot) :
    utf8 "authenticated" <:+: compact (snapshotToJson iso8601Utc snap) ↔
      snap.state = .authenticated ∨ Resembles snap.appleId ∨
        snap.state = .failed ∧ Resembles snap.lastError := by
  unfold snapshotToJson
  rw [mentions_object]
  · simp only [mentionedIn_append, mentionedIn_membersIf]
    rw [mentionedIn_cons (by decide), mentions_str, resembles_name]
    by_cases hauth : snap.state = .authenticated
    · exact iff_of_true (.inl (.inl (.inl (.inl hauth)))) (.inl hauth)
    · repeat rw [mentionedIn_cons (by decide)]
      simp only [hauth, mentions_str, not_mentions_num, mentionedIn_nil, false_or, or_false,
        false_and, and_false, or_self, resembles_ne_empty]
  · refine List.Nodup.sublist ((((List.Sublist.refl _).append membersIf_sublist).append
      (membersIf_sublist.trans ((((membersIf_sublist.append membersIf_sublist).append
        membersIf_sublist).append membersIf_sublist).append (List.Sublist.refl _)))).append
      (membersIf_sublist.trans (membersIf_sublist.append membersIf_sublist)) |>.map Prod.fst) ?_
    simp

/-- When the answer has the word in it. -/
theorem mentions_meBody (iso8601Utc : Nat → String) (snap : AccountSnapshot) (rt : RuntimeInfo) :
    utf8 "authenticated" <:+: compact (meBody iso8601Utc snap rt) ↔
      snap.state = .authenticated ∨ ∃ s ∈ reportedTexts snap rt, Resembles s := by
  unfold meBody
  rw [mentions_object (by simp)]
  repeat rw [mentionedIn_cons (by decide)]
  rw [mentions_str, mentions_runtimeToJson, mentions_snapshotToJson]
  have hif : ∀ {c : Prop} [Decidable c] (l : List String),
      (∃ s ∈ if c then l else [], Resembles s) ↔ c ∧ ∃ s ∈ l, Resembles s := by
    intro c _ l
    split_ifs with hc
    · rw [and_iff_right hc]
    · simp [hc]
  have happend : ∀ l l' : List String, (∃ s ∈ l ++ l', Resembles s) ↔
      (∃ s ∈ l, Resembles s) ∨ ∃ s ∈ l', Resembles s := by
    intro l l'
    simp only [List.mem_append, or_and_right, exists_or]
  unfold reportedTexts
  simp only [happend, hif, List.exists_mem_cons_iff, mentionedIn_nil, List.not_mem_nil, false_and,
    exists_false, or_false]
  tauto

/-! ### The gate -/

section Gate

variable {env : Env} {iso8601Utc : Nat → String} {dump : Value → Bytes}
  {fromSlice : Bytes → Option Value} {toVec : Value → Option Bytes} {req : Frame}
  {snap : AccountSnapshot} {rt : RuntimeInfo}

/-- The body of the answer is the report of the handler. -/
theorem body_handleMe
    (hread : fromSlice (handleMe iso8601Utc dump req snap rt).payload =
      some (jsonEnvelope 200 (meBody iso8601Utc snap rt) false false))
    (hwrite : ∀ v, toVec v = some (compact v)) :
    (parseWorkerResponse fromSlice toVec (handleMe iso8601Utc dump req snap rt)).map
      WorkerResponse.body = some (compact (meBody iso8601Utc snap rt)) := by
  have hbody : (jsonEnvelope 200 (meBody iso8601Utc snap rt) false false).get "body" =
      some (meBody iso8601Utc snap rt) := by
    simp [jsonEnvelope, Value.object, Value.get, assignMembers, lookup_setMember]
  unfold parseWorkerResponse
  rw [hread, Option.map_some, Option.map_some, hbody]
  simp only [meBody, Value.object, hwrite, Option.getD_some]

/-- With a database configured, the backup goes on as far as to the tarball exactly if the answer
has the word. -/
theorem built_iff (hurl : neonUrl env ≠ none) (resp : WorkerResponse) :
    (backupState env (some resp)).built = true ↔ utf8 "authenticated" <:+: resp.body := by
  obtain ⟨url, hurl⟩ := Option.ne_none_iff_exists'.mp hurl
  unfold backupState mentionsAuthenticated
  simp only [hurl]
  by_cases h : utf8 "authenticated" <:+: resp.body
  · rw [if_pos (decide_eq_true h)]
    refine iff_of_true ?_ h
    cases env.tarball with
    | none => rfl
    | some data =>
      dsimp only
      split_ifs
      · rfl
      · rfl
  · rw [if_neg (by simpa using h)]
    exact iff_of_false Bool.false_ne_true h

/-- No row is written without a tarball. -/
theorem built_of_row {resp : Option WorkerResponse} (h : (backupState env resp).row ≠ none) :
    (backupState env resp).built = true := by
  unfold backupState at h ⊢
  cases hurl : neonUrl env with
  | none =>
    rw [hurl] at h
    exact absurd rfl h
  | some url =>
    rw [hurl] at h
    cases resp with
    | none => exact absurd rfl h
    | some resp =>
      dsimp only at h ⊢
      split_ifs at h ⊢
      · cases htarball : env.tarball with
        | none => rfl
        | some data =>
          dsimp only
          split_ifs
          · rfl
          · rfl
      · exact absurd rfl h

end Gate

/-- The backup while the worker reports this account and this runtime. -/
def backupOf (env : Env) (iso8601Utc : Nat → String) (dump : Value → Bytes)
    (fromSlice : Bytes → Option Value) (toVec : Value → Option Bytes) (req : Frame)
    (snap : AccountSnapshot) (rt : RuntimeInfo) : Backup :=
  backupState env (parseWorkerResponse fromSlice toVec (handleMe iso8601Utc dump req snap rt))

/-- The backup goes on to the tarball exactly for an authenticated account, and so no other session
overwrites the row. -/
def Gated (backup : Backup) (snap : AccountSnapshot) : Prop :=
  (backup.built = true ↔ snap.state = .authenticated) ∧
    (backup.row ≠ none → snap.state = .authenticated)

section Gate

variable {env : Env} {iso8601Utc : Nat → String} {dump : Value → Bytes}
  {fromSlice : Bytes → Option Value} {toVec : Value → Option Bytes} {req : Frame}
  {snap : AccountSnapshot} {rt : RuntimeInfo}

/-- When the backup goes on to the tarball. -/
theorem built_backupOf (hurl : neonUrl env ≠ none)
    (hread : fromSlice (handleMe iso8601Utc dump req snap rt).payload =
      some (jsonEnvelope 200 (meBody iso8601Utc snap rt) false false))
    (hwrite : ∀ v, toVec v = some (compact v)) :
    (backupOf env iso8601Utc dump fromSlice toVec req snap rt).built = true ↔
      snap.state = .authenticated ∨ ∃ s ∈ reportedTexts snap rt, Resembles s := by
  obtain ⟨resp, hresp, hbody⟩ := Option.map_eq_some_iff.mp (body_handleMe hread hwrite)
  unfold backupOf
  rw [hresp, built_iff hurl, hbody, mentions_meBody]

/-- **The gate of the backup.**  With a database configured, a serialiser that is read back and a
compact writer, the gate is right if and only if the account is authenticated or none of the texts
that others give the worker resembles the word. -/
theorem backup_gate_iff (hurl : neonUrl env ≠ none)
    (hread : fromSlice (handleMe iso8601Utc dump req snap rt).payload =
      some (jsonEnvelope 200 (meBody iso8601Utc snap rt) false false))
    (hwrite : ∀ v, toVec v = some (compact v)) :
    Gated (backupOf env iso8601Utc dump fromSlice toVec req snap rt) snap ↔
      snap.state = .authenticated ∨ ∀ s ∈ reportedTexts snap rt, ¬ Resembles s := by
  have hbuilt : (backupOf env iso8601Utc dump fromSlice toVec req snap rt).built = true ↔ _ :=
    built_backupOf hurl hread hwrite
  have hrow : (backupOf env iso8601Utc dump fromSlice toVec req snap rt).row ≠ none →
      (backupOf env iso8601Utc dump fromSlice toVec req snap rt).built = true := built_of_row
  unfold Gated
  rw [hbuilt] at hrow ⊢
  by_cases hauth : snap.state = .authenticated
  · exact iff_of_true ⟨iff_of_true (.inl hauth) hauth, fun _ => hauth⟩ (.inl hauth)
  · simp only [hauth, false_or, iff_false, not_exists, not_and] at hrow ⊢
    exact and_iff_left_of_imp fun hnone h => absurd (hrow h) (by simpa using hnone)

end Gate

/-- A database is configured, and every call succeeds. -/
def configuredEnv : Env where
  var := fun name => if name = "NEON_DATABASE_URL" then some "postgres://db" else none
  tarball := some [31, 139]
  hash := fun data => .ofNat data.length
  lastHash := 0
  database := true

/-- A login with another user name has failed. -/
def failedLogin (user : String) : AccountSnapshot where
  state := .failed
  appleId := user
  lastError := "Apple returned response type 3"

/-- The runtime that the login ran on. -/
def initializedRuntime : RuntimeInfo where
  loaderOk := true
  initialized := true
  baseDir := "/data/data/com.apple.android.music/files"
  deviceInfo := "Music/4.9/Android/10/Samsung S9/7663313/en-US/en-US/dc28071e981c439e"

/-- The answer about it. -/
def answerOf (snap : AccountSnapshot) : Value :=
  jsonEnvelope 200 (meBody (fun _ => "") snap initializedRuntime) false false

/-- The backup then. -/
def backupAfter (snap : AccountSnapshot) : Backup :=
  backupOf configuredEnv (fun _ => "") compact (fun _ => some (answerOf snap))
    (fun v => some (compact v)) ⟨1, 1, 2, 0, []⟩ snap initializedRuntime

/-- An ordinary user's name does not open the gate. -/
theorem backup_gate_iff_failedLogin :
    Gated (backupAfter (failedLogin "me@example.com")) (failedLogin "me@example.com") :=
  (backup_gate_iff (by decide) rfl (fun _ => rfl)).mpr (.inr (by decide +kernel))

/-- A user name with the word in it does, and the row is overwritten. -/
theorem backup_gate_fails : ¬ ∀ (env : Env) (iso8601Utc : Nat → String) (dump : Value → Bytes)
    (fromSlice : Bytes → Option Value) (toVec : Value → Option Bytes) (req : Frame)
    (snap : AccountSnapshot) (rt : RuntimeInfo), neonUrl env ≠ none →
    fromSlice (handleMe iso8601Utc dump req snap rt).payload =
      some (jsonEnvelope 200 (meBody iso8601Utc snap rt) false false) →
    (∀ v, toVec v = some (compact v)) →
    Gated (backupOf env iso8601Utc dump fromSlice toVec req snap rt) snap := by
  intro hall
  have hgated : Gated (backupAfter (failedLogin "authenticated@example.com")) _ :=
    hall _ _ _ _ _ _ _ _ (by decide) rfl (fun _ => rfl)
  have hbuilt : (backupAfter (failedLogin "authenticated@example.com")).built = true :=
    (built_backupOf (by decide) rfl (fun _ => rfl)).mpr
      (.inr ⟨"authenticated@example.com", by decide, by decide⟩)
  cases hgated.1.mp hbuilt

end Neon

end WrapperPaas
