/-
  What a deployment has saved.

  In every run (`backup_recovers`) a restart on an empty disk gives back the files that the last
  backup in the database was made of, and a backup that nothing hinders is in the database
  afterwards, but for one case: another tarball is there, and the new one has the hash of the last
  acknowledged upload of this process, or zero if there is none.
-/
import WrapperPaas.Neon.Store

namespace WrapperPaas

namespace Neon

variable {Files : Type}

/-! ### One backup -/

/-- `backup_state` writes this tarball. -/
structure Uploads (env : Env) (resp : Option WorkerResponse) (data : Bytes) : Prop where
  configured : neonUrl env ≠ none
  authenticated : ∃ r, resp = some r ∧ mentionsAuthenticated r.body = true
  tarball : env.tarball = some data
  nonempty : data ≠ []
  changed : env.hash data ≠ env.lastHash
  database : env.database = true

theorem row_eq_some {env : Env} {resp : Option WorkerResponse} {row : String × Bytes} :
    (backupState env resp).row = some row ↔ Uploads env resp row.2 ∧ row.1 = stateKey env := by
  constructor
  · intro h
    unfold backupState at h
    cases hurl : neonUrl env with
    | none =>
      rw [hurl] at h
      cases h
    | some url =>
      rw [hurl] at h
      cases resp with
      | none => cases h
      | some r =>
        dsimp only at h
        split_ifs at h with hauth
        cases htarball : env.tarball with
        | none =>
          rw [htarball] at h
          cases h
        | some data =>
          rw [htarball] at h
          dsimp only at h
          split_ifs at h with hskip
          obtain ⟨hne, hskip⟩ := not_or.mp hskip
          obtain ⟨hhash, hdatabase⟩ := not_or.mp hskip
          obtain rfl := Option.some.inj h
          refine ⟨⟨?_, ⟨r, rfl, hauth⟩, htarball, hne, hhash, ?_⟩, rfl⟩
          · rw [hurl]
            exact Option.some_ne_none url
          · simpa using hdatabase
  · rintro ⟨h, hkey⟩
    obtain ⟨url, hurl⟩ := Option.ne_none_iff_exists'.mp h.configured
    obtain ⟨r, rfl, hauth⟩ := h.authenticated
    unfold backupState
    rw [hurl]
    dsimp only
    rw [if_pos hauth, h.tarball]
    dsimp only
    rw [if_neg, ← hkey]
    rintro (hnil | hhash | hdatabase)
    · exact h.nonempty hnil
    · exact h.changed hhash
    · rw [h.database] at hdatabase
      cases hdatabase

section Service

variable (v : Service Files) {s : Deployment Files} {d : Diary Files} {t : Tick}

/-- A tick uploads a tarball or does nothing. -/
theorem Service.tick_cases (s : Deployment Files) (d : Diary Files) (t : Tick) :
    ((∀ data, ¬ Uploads (v.env s t) t.resp data) ∧ v.backup s t = s ∧ v.note d s (.tick t) = d) ∨
    ∃ data, Uploads (v.env s t) t.resp data ∧
      v.backup s t = { s with
        row := some data, lastHash := if t.upload = .done then v.hash data else s.lastHash } ∧
      v.note d s (.tick t) =
        let source := if t.reading = .whole then some s.files else none
        if t.upload = .done then ⟨some data, true, source⟩
        else { d with alone := false, source := source } := by
  simp only [Service.backup, Service.note]
  cases hrow : (backupState (v.env s t) t.resp).row with
  | none =>
    refine .inl ⟨fun data hup => ?_, rfl, rfl⟩
    have hsome := (@row_eq_some _ _ (stateKey (v.env s t), data)).mpr ⟨hup, rfl⟩
    rw [hrow] at hsome
    cases hsome
  | some row => exact .inr ⟨row.2, (row_eq_some.mp hrow).1, rfl, rfl⟩

/-! ### The diary -/

/-- What the diary says about a deployment. -/
structure Diary.Faithful (v : Service Files) (s : Deployment Files) (d : Diary Files) : Prop where
  lastHash : s.lastHash = (d.acknowledged.map v.hash).getD 0
  alone : d.alone = true → ∀ data, d.acknowledged = some data → s.row = some data
  source : ∀ files, d.source = some files → s.row = some (v.tar.build files)

theorem Uploads.data_eq {data : Bytes} (h : Uploads (v.env s t) t.resp data)
    (hwhole : t.reading = .whole) : data = v.tar.build s.files := by
  have htarball := h.tarball
  simp only [Service.env, Service.tarball, hwhole] at htarball
  exact (Option.some.inj htarball).symm

theorem Diary.Faithful.tick (h : d.Faithful v s) (t : Tick) :
    (v.note d s (.tick t)).Faithful v (v.backup s t) := by
  rcases v.tick_cases s d t with ⟨_, hs, hd⟩ | ⟨data, hup, hs, hd⟩
  · rw [hs, hd]
    exact h
  · rw [hs, hd]
    have hsource : ∀ files, (if t.reading = .whole then some s.files else none) = some files →
        some data = some (v.tar.build files) := by
      intro files hfiles
      split_ifs at hfiles with hwhole
      rw [hup.data_eq v hwhole, Option.some.inj hfiles]
    by_cases hdone : t.upload = .done
    · simp only [if_pos hdone]
      exact ⟨rfl, fun _ data' hdata' => hdata', hsource⟩
    · simp only [if_neg hdone]
      exact ⟨h.lastHash, fun halone => absurd halone Bool.false_ne_true, hsource⟩

/-- Every event keeps the diary faithful. -/
theorem Diary.Faithful.step (h : d.Faithful v s) (event : Event Files) :
    (v.note d s event).Faithful v (v.step s event) := by
  cases event with
  | write files => exact ⟨h.lastHash, h.alone, h.source⟩
  | tick t => exact h.tick v t
  | foreign data =>
    refine ⟨h.lastHash, fun halone => absurd halone Bool.false_ne_true, fun files hfiles => ?_⟩
    cases hfiles
  | restart files r =>
    refine ⟨rfl, fun _ data hdata => ?_, h.source⟩
    cases hdata

theorem Service.faithful_run (events : List (Event Files)) :
    (v.run events).2.Faithful v (v.run events).1 := by
  induction events using List.reverseRecOn with
  | nil =>
    refine ⟨rfl, fun _ data hdata => ?_, fun files hfiles => ?_⟩
    · cases hdata
    · cases hfiles
  | append_singleton events event ih =>
    have hrun : v.run (events ++ [event]) =
        (v.step (v.run events).1 event, v.note (v.run events).2 (v.run events).1 event) := by
      rw [Service.run, List.foldl_append]
      rfl
    rw [hrun]
    exact ih.step v event

/-! ### The main result -/

/-- Nothing hinders the backup. -/
structure Service.Unhindered (v : Service Files) (t : Tick) : Prop where
  configured : (v.var "NEON_DATABASE_URL").filter (· ≠ "") ≠ none
  authenticated : ∃ r, t.resp = some r ∧ mentionsAuthenticated r.body = true
  reading : t.reading = .whole
  upload : t.upload = .done

/-- Nothing hinders the restoration. -/
structure Restoration.Unhindered (r : Restoration Files) : Prop where
  database : r.database = true
  directory : r.directory = true
  broken : r.broken = none

/-- What an unhindered backup does to the row. -/
theorem Service.Unhindered.row (h : v.Unhindered t) :
    (v.backup s t).row = some (v.tar.build s.files) ↔
      s.row = some (v.tar.build s.files) ∨ v.hash (v.tar.build s.files) ≠ s.lastHash := by
  have htarball : (v.env s t).tarball = some (v.tar.build s.files) := by
    simp only [Service.env, Service.tarball, h.reading]
  rcases v.tick_cases s {} t with ⟨hnone, hs, _⟩ | ⟨data, hup, hs, _⟩
  · rw [hs]
    refine ⟨.inl, fun hor => hor.resolve_right fun hhash => ?_⟩
    refine hnone _ ⟨h.configured, h.authenticated, htarball, v.tar.build_ne_nil _, hhash, ?_⟩
    simp [Service.env, h.upload]
  · obtain rfl := hup.data_eq v h.reading
    rw [hs]
    exact ⟨fun _ => .inr hup.changed, fun _ => rfl⟩

theorem Service.restart_of_row (hconfigured : (v.var "NEON_DATABASE_URL").filter (· ≠ "") ≠ none)
    {r : Restoration Files} (hr : r.Unhindered) {files : Files}
    (hrow : s.row = some (v.tar.build files)) : (v.restart s v.tar.fresh r).files = files := by
  simp only [Service.restart, Service.restoreState]
  rw [if_neg hconfigured, hr.database, hr.directory, hr.broken, hrow]
  simp only [Bool.not_true, Bool.false_eq_true, if_false, if_neg (v.tar.build_ne_nil files)]
  exact v.tar.unpack_build files

/-- **Backups and restarts.**  In every run, with a database configured: a restart on an empty disk
that nothing hinders gives back the files of the last backup in the database; after a backup that
nothing hinders its tarball is there, unless it has the hash of the last acknowledged upload of this
process, or zero if there is none, and another tarball is there. -/
theorem backup_recovers (v : Service Files) (events : List (Event Files)) :
    let (s, d) := v.run events
    (∀ r : Restoration Files, r.Unhindered →
      (v.var "NEON_DATABASE_URL").filter (· ≠ "") ≠ none →
      ∀ files, d.source = some files → (v.restart s v.tar.fresh r).files = files) ∧
    (∀ t, v.Unhindered t →
      ((v.backup s t).row = some (v.tar.build s.files) ↔
        s.row = some (v.tar.build s.files) ∨
          v.hash (v.tar.build s.files) ≠ (d.acknowledged.map v.hash).getD 0) ∧
      ∀ r : Restoration Files, r.Unhindered →
        (v.backup s t).row = some (v.tar.build s.files) →
          (v.restart (v.backup s t) v.tar.fresh r).files = s.files) ∧
    (d.alone = true → ∀ data, d.acknowledged = some data → s.row = some data) := by
  have h := v.faithful_run events
  generalize v.run events = p at h
  obtain ⟨s, d⟩ := p
  refine ⟨fun r hr hconfigured files hfiles => ?_, fun t ht => ⟨?_, fun r hr hrow => ?_⟩, h.alone⟩
  · exact v.restart_of_row hconfigured hr (h.source files hfiles)
  · rw [ht.row, h.lastHash]
  · exact v.restart_of_row ht.configured hr hrow

end Service

/-- Archives of a single file, behind a header of one byte. -/
def headedTar : Tar Bytes where
  fresh := []
  build files := 0 :: files
  unpack data _ := data.tail
  build_ne_nil _ := List.cons_ne_nil _ _
  unpack_build _ := rfl

def headedService : Service Bytes where
  var name := if name = "NEON_DATABASE_URL" then some "postgres://localhost/wrapper" else none
  hash data := .ofNat data.length
  tar := headedTar

/-- A backup after a login. -/
def wholeTick : Tick where
  resp := some ⟨200, "application/json", utf8 "\x7b\"state\":\"authenticated\"\x7d", false⟩
  reading := .whole
  upload := .done

theorem unhindered_wholeTick : headedService.Unhindered wholeTick :=
  ⟨by decide, ⟨_, rfl, by decide⟩, rfl, rfl⟩

/-- The files are saved, changed and lost; what the backup has of them comes back, and so does what
the next one has. -/
theorem backup_recovers_lostChange :
    let s := (headedService.run [.write [1, 2], .tick wholeTick, .write [4]]).1
    (headedService.restart s [] ⟨true, true, none⟩).files = [1, 2] ∧
      (headedService.restart (headedService.backup s wholeTick) [] ⟨true, true, none⟩).files =
        [4] := by
  intro s
  obtain ⟨hsource, hbackup, -⟩ :=
    backup_recovers headedService [.write [1, 2], .tick wholeTick, .write [4]]
  have hr : (⟨true, true, none⟩ : Restoration Bytes).Unhindered := ⟨rfl, rfl, rfl⟩
  obtain ⟨hrow, hfiles⟩ := hbackup wholeTick unhindered_wholeTick
  refine ⟨hsource _ hr unhindered_wholeTick.configured [1, 2] (by decide), ?_⟩
  exact hfiles _ hr (hrow.mpr (.inr (by decide)))

end Neon

end WrapperPaas
