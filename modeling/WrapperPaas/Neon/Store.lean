/-
  The life of a deployment: the session files under `mpl_db`, the row of the database and
  `LAST_HASH`, over the changes that the worker makes, backups and restarts (`restore_state`,
  `build_tarball` and `backup_state` of `src/rust/neon_state.rs`, which `run` of `src/rust/main.rs`
  and the loop of `spawn_backup_loop` call).

  The tarball is outside the repository (`Tar`), and so is the database: a statement may have been
  executed although the call reports an error, and another deployment with the same key may write
  the row.
-/
import WrapperPaas.Neon.Backup

namespace WrapperPaas

namespace Neon

variable {Files : Type}

/-- The tarball of the files under `mpl_db`, and what unpacking one over files makes of them. -/
structure Tar (Files : Type) where
  /-- there is no `mpl_db` -/
  fresh : Files
  build : Files → Bytes
  unpack : Bytes → Files → Files
  /-- there is a header -/
  build_ne_nil : ∀ files, build files ≠ []
  unpack_build : ∀ files, unpack (build files) fresh = files

/-! ### Backups -/

/-- What `build_tarball` reads, while the worker may be writing. -/
inductive Reading where
  | failed
  | torn (data : Bytes)
  | whole
  deriving DecidableEq, Repr

/-- What becomes of the statements. -/
inductive Upload where
  | refused
  /-- the row is written, but an error is reported -/
  | unacknowledged
  | done
  deriving DecidableEq, Repr

/-- What a call of `backup_state` meets. -/
structure Tick where
  resp : Option WorkerResponse
  reading : Reading
  upload : Upload
  deriving DecidableEq, Repr

structure Deployment (Files : Type) where
  files : Files
  /-- `data` of the row with the key -/
  row : Option Bytes := none
  lastHash : UInt64 := 0

/-- What a deployment is configured with. -/
structure Service (Files : Type) where
  var : String → Option String
  hash : Bytes → UInt64
  tar : Tar Files

section Service

variable (v : Service Files)

/-- `build_tarball` -/
def Service.tarball (s : Deployment Files) : Reading → Option Bytes
  | .failed => none
  | .torn data => some data
  | .whole => some (v.tar.build s.files)

def Service.env (s : Deployment Files) (t : Tick) : Env where
  var := v.var
  tarball := v.tarball s t.reading
  hash := v.hash
  lastHash := s.lastHash
  database := t.upload ≠ .refused

/-- `backup_state` with what it leaves in the database and in `LAST_HASH`. -/
def Service.backup (s : Deployment Files) (t : Tick) : Deployment Files :=
  match (backupState (v.env s t) t.resp).row with
  | none => s
  | some (_, data) =>
    { s with
      row := some data
      lastHash := if t.upload = .done then v.hash data else s.lastHash }

/-! ### Restarts -/

/-- What `restore_state` meets. -/
structure Restoration (Files : Type) where
  /-- the connection is made, and both statements are executed -/
  database : Bool
  /-- `create_dir_all` -/
  directory : Bool
  /-- what `unpack` leaves if it fails -/
  broken : Option Files

/-- `restore_state`: the files, and whether there is no error. -/
def Service.restoreState (row : Option Bytes) (files : Files) (r : Restoration Files) :
    Files × Bool :=
  if (v.var "NEON_DATABASE_URL").filter (· ≠ "") = none then (files, true)
  else if !r.database then (files, false)
  else
    match row with
    | none => (files, true)
    | some data =>
      if data = [] then (files, true)
      else if !r.directory then (files, false)
      else
        match r.broken with
        | some files => (files, false)
        | none => (v.tar.unpack data files, true)

/-- A restart of `run` on a disk with these files; an error of `restore_state` is only reported. -/
def Service.restart (s : Deployment Files) (files : Files) (r : Restoration Files) :
    Deployment Files :=
  { files := (v.restoreState s.row files r).1, row := s.row }

/-! ### Runs -/

/-- What can happen. -/
inductive Event (Files : Type) where
  /-- the worker changes the files -/
  | write (files : Files)
  | tick (t : Tick)
  /-- another deployment writes the row -/
  | foreign (data : Bytes)
  | restart (files : Files) (r : Restoration Files)

def Service.step (s : Deployment Files) : Event Files → Deployment Files
  | .write files => { s with files := files }
  | .tick t => v.backup s t
  | .foreign data => { s with row := some data }
  | .restart files r => v.restart s files r

/-- What an observer writes down. -/
structure Diary (Files : Type) where
  /-- the last upload that was acknowledged since the restart -/
  acknowledged : Option Bytes := none
  /-- whether the row has not been written again since -/
  alone : Bool := true
  /-- the files that the row is the tarball of, if they were not changed meanwhile -/
  source : Option Files := none

def Service.note (d : Diary Files) (s : Deployment Files) : Event Files → Diary Files
  | .write _ => d
  | .tick t =>
    match (backupState (v.env s t) t.resp).row with
    | none => d
    | some (_, data) =>
      let source := if t.reading = .whole then some s.files else none
      if t.upload = .done then ⟨some data, true, source⟩
      else { d with alone := false, source := source }
  | .foreign _ => { d with alone := false, source := none }
  | .restart _ _ => { d with acknowledged := none, alone := true }

/-- From an empty database and an empty disk. -/
def Service.run (events : List (Event Files)) : Deployment Files × Diary Files :=
  events.foldl (fun p event => (v.step p.1 event, v.note p.2 p.1 event))
    ({ files := v.tar.fresh }, {})

end Service

end Neon

end WrapperPaas
