/-
  What `Loader::open` leaves behind.

  It is all or nothing only up to the libraries: a library that is missing closes the loader, but a
  core symbol that is missing leaves the handles, and the symbols before it, in place
  (`all_or_nothing_iff`).
-/
import Mathlib.Data.List.TakeWhile
import Mathlib.Tactic.Common
import WrapperPaas.Runtime.Loader

namespace WrapperPaas

namespace Runtime

structure Handles.Closed (h : Handles) : Prop where
  hLibstoreservicescore : h.hLibstoreservicescore = nullptr
  hLibmediaplatform : h.hLibmediaplatform = nullptr
  hLibandroidappmusic : h.hLibandroidappmusic = nullptr
  hLibcorefp : h.hLibcorefp = nullptr
  hLibcorelskd : h.hLibcorelskd = nullptr

structure Loader.Closed (l : Loader) : Prop where
  ok : l.ok = false
  fpsDecryptAvailable : l.fpsDecryptAvailable = false
  handles : l.handles.Closed
  symbols : ∀ f, l.symbols f = nullptr

theorem Loader.closed_close (l : Loader) : l.close.Closed :=
  ⟨rfl, rfl, ⟨rfl, rfl, rfl, rfl, rfl⟩, fun _ => rfl⟩

abbrev ClosedLoader := { l : Loader // l.Closed }

/-- `dlsym` finds the symbol in this handle. -/
def Linker.Found (ld : Linker) (h : Ptr) (name : String) : Prop :=
  (ld.dlsym h name).1 ≠ nullptr ∧ (ld.dlsym h name).2 = none

/-- The symbol is in one of the required libraries, or `RTLD_DEFAULT` has it. -/
def Linker.Finds (ld : Linker) (h : Handles) (name : String) : Prop :=
  ∃ g ∈ [h.hLibandroidappmusic, h.hLibmediaplatform, h.hLibstoreservicescore, rtldDefault],
    ld.Found g name

def Linker.FindsFps (ld : Linker) (h : Handles) : Prop :=
  (∀ f ∈ fpsSymbols, ld.Finds h f.name) ∧
    (ld.Finds h svFootHillSessionCtrlGetPersistentKey8str ∨
      ld.Finds h svFootHillSessionCtrlGetPersistentKey7str)

/-- The FPS part of a loader is there as a whole, or not at all. -/
structure Loader.FpsOpened (ld : Linker) (l : Loader) : Prop where
  available_iff : l.fpsDecryptAvailable = true ↔ ld.FindsFps l.handles
  present : l.fpsDecryptAvailable = true →
    (∀ f ∈ fpsSymbols, l.symbols f ≠ nullptr) ∧ l.footHillPersistentKeyFn ≠ nullptr
  absent : l.fpsDecryptAvailable = false →
    (∀ f ∈ fpsSymbols, l.symbols f = nullptr) ∧ l.footHillPersistentKeyFn = nullptr

structure Loader.Opened (ld : Linker) (l : Loader) : Prop where
  ok : l.ok = true
  core : ∀ f, f ∉ fpsSymbols → f ≠ .vector_PurchaseItem_dtor → l.symbols f ≠ nullptr
  fps : l.FpsOpened ld

/-- `open` succeeds as a whole, or leaves the loader closed. -/
structure AllOrNothing (ld : Linker) (libsDir : String) (l : Loader) : Prop where
  all : (l.open ld libsDir).1 = true → (l.open ld libsDir).2.Opened ld
  nothing : (l.open ld libsDir).1 = false → (l.open ld libsDir).2.Closed

def requiredLibs : List String :=
  ["/libandroidappmusic.so", "/libstoreservicescore.so", "/libmediaplatform.so"]

def Linker.HasLibs (ld : Linker) (libsDir : String) : Prop :=
  ∀ lib ∈ requiredLibs, (ld.dlopen (libsDir ++ lib)).1 ≠ nullptr

def Linker.HasCore (ld : Linker) : Prop := ∀ f ∈ coreSymbols, ld.Found rtldDefault f.name

/-! ### Libraries -/

/-- The required libraries are open. -/
def Handles.LibsOpen (h : Handles) : Prop :=
  h.hLibandroidappmusic ≠ nullptr ∧ h.hLibmediaplatform ≠ nullptr ∧
    h.hLibstoreservicescore ≠ nullptr

theorem load_of_eq {ld : Linker} {path : String} (h : (ld.dlopen path).1 = nullptr)
    (store : Ptr → Handles) : load ld path store =
      .error ("dlopen(" ++ path ++ "): " ++ (ld.dlopen path).2.getD "unknown error",
        store nullptr) := by
  unfold load openLib
  rw [if_pos h]

theorem load_of_ne {ld : Linker} {path : String} (h : (ld.dlopen path).1 ≠ nullptr)
    (store : Ptr → Handles) : load ld path store = .ok (store (ld.dlopen path).1) := by
  unfold load openLib
  rw [if_neg h]

theorem openLibs_cases (ld : Linker) (libsDir : String) (h : Handles) :
    (ld.HasLibs libsDir ∧ ∃ h', openLibs ld libsDir h = .ok h' ∧ h'.LibsOpen) ∨
      (¬ ld.HasLibs libsDir ∧ ∃ e, openLibs ld libsDir h = .error e) := by
  unfold openLibs Linker.HasLibs requiredLibs
  dsimp only [bind, Except.bind]
  by_cases hmusic : (ld.dlopen (libsDir ++ "/libandroidappmusic.so")).1 = nullptr
  · rw [load_of_eq hmusic]
    exact .inr ⟨fun hall => hall _ (by simp) hmusic, _, rfl⟩
  rw [load_of_ne hmusic]
  dsimp only
  by_cases hstore : (ld.dlopen (libsDir ++ "/libstoreservicescore.so")).1 = nullptr
  · rw [load_of_eq hstore]
    exact .inr ⟨fun hall => hall _ (by simp) hstore, _, rfl⟩
  rw [load_of_ne hstore]
  dsimp only
  by_cases hmedia : (ld.dlopen (libsDir ++ "/libmediaplatform.so")).1 = nullptr
  · rw [load_of_eq hmedia]
    exact .inr ⟨fun hall => hall _ (by simp) hmedia, _, rfl⟩
  rw [load_of_ne hmedia]
  refine .inl ⟨?_, _, rfl, hmusic, hmedia, hstore⟩
  simp only [List.forall_mem_cons]
  exact ⟨hmusic, hstore, hmedia, fun lib hlib => absurd hlib List.not_mem_nil⟩

/-! ### Looking up -/

theorem resolve_of_found {ld : Linker} {h : Ptr} {name : String} (hfound : ld.Found h name) :
    resolve ld h name = .ok (ld.dlsym h name).1 :=
  if_neg <| not_or.mpr ⟨not_not.mpr hfound.2, hfound.1⟩

theorem resolve_of_not_found {ld : Linker} {h : Ptr} {name : String} (hfound : ¬ ld.Found h name) :
    ∃ msg, resolve ld h name = .error msg := by
  refine ⟨_, if_pos ?_⟩
  by_contra hnot
  obtain ⟨hmsg, hsym⟩ := not_or.mp hnot
  exact hfound ⟨hsym, not_not.mp hmsg⟩

theorem found_of_resolve {ld : Linker} {h sym : Ptr} {name : String}
    (hsym : resolve ld h name = .ok sym) : ld.Found h name ∧ sym ≠ nullptr := by
  by_cases hfound : ld.Found h name
  · have heq := Except.ok.inj ((resolve_of_found hfound).symm.trans hsym)
    exact ⟨hfound, heq ▸ hfound.1⟩
  · obtain ⟨msg, hmsg⟩ := resolve_of_not_found hfound
    cases hmsg.symm.trans hsym

theorem resolveVtable_eq (ld : Linker) : resolveVtable ld = resolve ld rtldDefault := by
  funext name
  unfold resolveVtable resolve
  simp only [or_comm]

/-! ### Core symbols -/

theorem resolveEach_append (look : String → Except String Ptr) (fs gs : List Symbol) (s : Symbols) :
    resolveEach look (fs ++ gs) s = resolveEach look fs s >>= resolveEach look gs := by
  induction fs generalizing s with
  | nil => rfl
  | cons f fs ih =>
    rw [List.cons_append, resolveEach, resolveEach]
    cases look f.name with
    | ok sym => exact ih _
    | error msg => rfl

theorem resolveCore_eq (ld : Linker) (s : Symbols) :
    resolveCore ld s = resolveEach (resolve ld rtldDefault) coreSymbols s := by
  unfold resolveCore
  rw [resolveVtable_eq]
  refine Eq.trans ?_ (resolveEach_append _ [_] (vtables ++ _) s).symm
  refine bind_congr (m := Except _) fun s => ?_
  rw [resolveEach_append]
  exact bind_congr (m := Except _) fun s => (resolveEach_append _ _ _ s).symm

theorem resolveEach_cases (ld : Linker) (h : Ptr) (fs : List Symbol) (s : Symbols) :
    ((∀ f ∈ fs, ld.Found h f.name) ∧ ∃ s', resolveEach (resolve ld h) fs s = .ok s' ∧
      (∀ f ∈ fs, s' f ≠ nullptr) ∧ ∀ f ∉ fs, s' f = s f) ∨
      ((¬ ∀ f ∈ fs, ld.Found h f.name) ∧ ∃ e, resolveEach (resolve ld h) fs s = .error e) := by
  induction fs generalizing s with
  | nil =>
    exact .inl ⟨fun f hf => absurd hf List.not_mem_nil, s, rfl,
      fun f hf => absurd hf List.not_mem_nil, fun f _ => rfl⟩
  | cons g fs ih =>
    rw [List.forall_mem_cons, resolveEach]
    cases hg : resolve ld h g.name with
    | error msg =>
      refine .inr ⟨fun hall => ?_, _, rfl⟩
      cases (resolve_of_found hall.1).symm.trans hg
    | ok sym =>
      obtain ⟨hfound, hsym⟩ := found_of_resolve hg
      obtain ⟨hall, s', hs', hset, hrest⟩ | ⟨hnot, he⟩ := ih (Function.update s g sym)
      · refine .inl ⟨⟨hfound, hall⟩, s', hs', fun f hf => ?_, fun f hf => ?_⟩
        · by_cases hfs : f ∈ fs
          · exact hset f hfs
          · obtain rfl := (List.mem_cons.mp hf).resolve_right hfs
            rw [hrest f hfs, Function.update_self]
            exact hsym
        · rw [hrest f (List.not_mem_of_not_mem_cons hf)]
          exact Function.update_of_ne (List.ne_of_not_mem_cons hf) _ _
      · exact .inr ⟨fun hall => hnot hall.2, he⟩

/-! ### Optional symbols -/

theorem resolveIn_ne_nullptr {ld : Linker} {handles : List Ptr} {name : String} {sym : Ptr}
    (h : resolveIn ld handles name = some sym) : sym ≠ nullptr := by
  obtain ⟨g, -, hg⟩ := List.exists_of_findSome?_eq_some h
  cases hres : resolve ld g name with
  | error msg =>
    rw [hres] at hg
    cases hg
  | ok sym' =>
    rw [hres] at hg
    exact Option.some.inj hg ▸ (found_of_resolve hres).2

theorem resolveFps_isSome {ld : Linker} {h : Handles} (hlibs : h.LibsOpen) (name : String) :
    (resolveFps ld h name).isSome = true ↔ ld.Finds h name := by
  obtain ⟨hmusic, hmedia, hstore⟩ := hlibs
  unfold resolveFps resolveIn
  rw [List.takeWhile_eq_self_iff.mpr (by simp [hmusic, hmedia, hstore]), List.findSome?_isSome_iff]
  refine exists_congr fun g => and_congr_right fun _ => ?_
  constructor
  · intro hsome
    cases hres : resolve ld g name with
    | error msg =>
      rw [hres] at hsome
      cases hsome
    | ok sym => exact (found_of_resolve hres).1
  · intro hfound
    rw [resolve_of_found hfound]
    rfl

theorem resolveFpsEach_fst (ld : Linker) (h : Handles) (fs : List Symbol) (s : Symbols) :
    (resolveFpsEach ld h fs s).1 = true ↔ ∀ f ∈ fs, (resolveFps ld h f.name).isSome = true := by
  induction fs generalizing s with
  | nil => exact iff_of_true rfl fun f hf => absurd hf List.not_mem_nil
  | cons g fs ih =>
    rw [List.forall_mem_cons, resolveFpsEach]
    cases resolveFps ld h g.name with
    | none => exact iff_of_false Bool.false_ne_true fun hall => Bool.false_ne_true hall.1
    | some sym => exact (ih _).trans (and_iff_right rfl).symm

theorem resolveFpsEach_of_not_mem (ld : Linker) (h : Handles) {fs : List Symbol} {f : Symbol}
    (hf : f ∉ fs) (s : Symbols) : (resolveFpsEach ld h fs s).2 f = s f := by
  induction fs generalizing s with
  | nil => rfl
  | cons g fs ih =>
    have hfs := List.not_mem_of_not_mem_cons hf
    rw [resolveFpsEach]
    cases resolveFps ld h g.name with
    | none => exact ih hfs s
    | some sym => exact (ih hfs _).trans (Function.update_of_ne (List.ne_of_not_mem_cons hf) _ _)

theorem resolveFpsEach_of_mem {ld : Linker} {h : Handles} {fs : List Symbol} {f : Symbol}
    (hf : f ∈ fs) (hsome : (resolveFps ld h f.name).isSome = true) (s : Symbols) :
    (resolveFpsEach ld h fs s).2 f ≠ nullptr := by
  induction fs generalizing s with
  | nil => exact absurd hf List.not_mem_nil
  | cons g fs ih =>
    rw [resolveFpsEach]
    by_cases hfs : f ∈ fs
    · cases resolveFps ld h g.name with
      | none => exact ih hfs s
      | some sym => exact ih hfs _
    · obtain rfl := (List.mem_cons.mp hf).resolve_right hfs
      cases hg : resolveFps ld h f.name with
      | none =>
        rw [hg] at hsome
        cases hsome
      | some sym =>
        dsimp only
        rw [resolveFpsEach_of_not_mem ld h hfs, Function.update_self]
        exact resolveIn_ne_nullptr hg

theorem resolvePersistentKey_isSome (ld : Linker) (h : Handles) :
    (resolvePersistentKey ld h).isSome = true ↔
      (resolveFps ld h svFootHillSessionCtrlGetPersistentKey8str).isSome = true ∨
        (resolveFps ld h svFootHillSessionCtrlGetPersistentKey7str).isSome = true := by
  unfold resolvePersistentKey
  cases resolveFps ld h svFootHillSessionCtrlGetPersistentKey8str with
  | some pk8 => exact iff_of_true rfl (.inl rfl)
  | none => cases resolveFps ld h svFootHillSessionCtrlGetPersistentKey7str <;> simp

theorem resolvePersistentKey_ne_nullptr {ld : Linker} {h : Handles} {key : Ptr × Bool}
    (hkey : resolvePersistentKey ld h = some key) : key.1 ≠ nullptr := by
  unfold resolvePersistentKey at hkey
  split at hkey
  · next pk8 h8 => exact Option.some.inj hkey ▸ resolveIn_ne_nullptr h8
  · split at hkey
    · next pk7 h7 => exact Option.some.inj hkey ▸ resolveIn_ne_nullptr h7
    · cases hkey

theorem fpsOpened (ld : Linker) {l : Loader} (hlibs : l.handles.LibsOpen) :
    (l.resolveFpsSymbols ld).FpsOpened ld := by
  have hfinds : ((resolveFpsEach ld l.handles leaseSymbols (clearFpsSymbols l.symbols)).1 &&
      (resolvePersistentKey ld l.handles).isSome && (resolveFpsEach ld l.handles footHillSymbols
        (resolveFpsEach ld l.handles leaseSymbols (clearFpsSymbols l.symbols)).2).1) = true ↔
      ld.FindsFps l.handles := by
    unfold Linker.FindsFps fpsSymbols
    simp only [Bool.and_eq_true, resolveFpsEach_fst, resolvePersistentKey_isSome,
      resolveFps_isSome hlibs, List.forall_mem_append]
    tauto
  unfold Loader.resolveFpsSymbols
  dsimp only
  split
  · next h =>
    have hall := hfinds.mp h
    refine ⟨iff_of_true rfl hall, fun _ => ⟨fun f hf => ?_, ?_⟩, fun h => absurd h Bool.noConfusion⟩
    · have hsome := (resolveFps_isSome hlibs f.name).mpr (hall.1 f hf)
      -- set by the second run, or by the first one and kept by the second
      by_cases hfoot : f ∈ footHillSymbols
      · exact resolveFpsEach_of_mem hfoot hsome _
      · dsimp only
        rw [resolveFpsEach_of_not_mem ld _ hfoot]
        exact resolveFpsEach_of_mem ((List.mem_append.mp hf).resolve_right hfoot) hsome _
    · obtain ⟨key, hkey⟩ := Option.isSome_iff_exists.mp
        ((resolvePersistentKey_isSome ld l.handles).mpr
          (hall.2.imp (resolveFps_isSome hlibs _).mpr (resolveFps_isSome hlibs _).mpr))
      dsimp only
      rw [hkey]
      exact resolvePersistentKey_ne_nullptr hkey
  · next h =>
    exact ⟨iff_of_false Bool.false_ne_true (mt hfinds.mpr h), fun h => absurd h Bool.false_ne_true,
      fun _ => ⟨fun f hf => if_pos hf, rfl⟩⟩

/-- The core symbols stay. -/
theorem resolveFpsSymbols_of_not_mem (ld : Linker) (l : Loader) {f : Symbol} (hf : f ∉ fpsSymbols) :
    (l.resolveFpsSymbols ld).symbols f = l.symbols f := by
  obtain ⟨hlease, hfoot⟩ := not_or.mp (mt List.mem_append.mpr hf)
  have hkeep : (resolveFpsEach ld l.handles footHillSymbols
      (resolveFpsEach ld l.handles leaseSymbols (clearFpsSymbols l.symbols)).2).2 f =
        l.symbols f := by
    rw [resolveFpsEach_of_not_mem ld _ hfoot, resolveFpsEach_of_not_mem ld _ hlease]
    exact if_neg hf
  unfold Loader.resolveFpsSymbols
  dsimp only
  split
  · exact hkeep
  · exact (if_neg hf).trans hkeep

theorem resolveDtor_of_ne (ld : Linker) (l : Loader) {f : Symbol}
    (hf : f ≠ .vector_PurchaseItem_dtor) : (l.resolveDtor ld).symbols f = l.symbols f := by
  unfold Loader.resolveDtor
  split
  · exact Function.update_of_ne hf _ _
  · rfl

/-! ### The loader -/

theorem resolveDtor_fpsOpened {ld : Linker} {l : Loader} (h : l.FpsOpened ld) :
    (l.resolveDtor ld).FpsOpened ld := by
  have hdtor : Symbol.vector_PurchaseItem_dtor ∉ fpsSymbols := by decide
  unfold Loader.resolveDtor
  split
  · refine ⟨h.available_iff, fun havail => ⟨fun f hf => ?_, (h.present havail).2⟩,
      fun havail => ⟨fun f hf => ?_, (h.absent havail).2⟩⟩
    · dsimp only
      rw [Function.update_of_ne (ne_of_mem_of_not_mem hf hdtor)]
      exact (h.present havail).1 f hf
    · dsimp only
      rw [Function.update_of_ne (ne_of_mem_of_not_mem hf hdtor)]
      exact (h.absent havail).1 f hf
  · exact h

section Open

variable {ld : Linker} {libsDir : String} {l : Loader} (hok : l.ok = false)

include hok

theorem open_of_not_hasLibs (hlibs : ¬ ld.HasLibs libsDir) :
    ∃ l' : Loader, l.open ld libsDir = (false, l'.close) := by
  obtain ⟨-, e, he⟩ := (openLibs_cases ld libsDir l.handles).resolve_left fun h => hlibs h.1
  unfold Loader.open
  rw [if_neg (Bool.eq_false_iff.mp hok), he]
  exact ⟨_, rfl⟩

/-- The libraries stay open. -/
theorem open_of_not_hasCore (hlibs : ld.HasLibs libsDir) (hcore : ¬ ld.HasCore) :
    ∃ l', l.open ld libsDir = (false, l') ∧ l'.handles.LibsOpen := by
  obtain ⟨-, h, hh, hopen⟩ := (openLibs_cases ld libsDir l.handles).resolve_right fun h => h.1 hlibs
  obtain ⟨-, e, he⟩ := (resolveEach_cases ld rtldDefault coreSymbols l.symbols).resolve_left
    fun h => hcore h.1
  unfold Loader.open
  rw [if_neg (Bool.eq_false_iff.mp hok), hh]
  dsimp only
  rw [resolveCore_eq, he]
  exact ⟨_, rfl, hopen⟩

theorem open_of_hasCore (hlibs : ld.HasLibs libsDir) (hcore : ld.HasCore) :
    ∃ l', l.open ld libsDir = (true, l') ∧ l'.Opened ld := by
  obtain ⟨-, h, hh, hopen⟩ := (openLibs_cases ld libsDir l.handles).resolve_right fun h => h.1 hlibs
  obtain ⟨-, s, hs, hset, -⟩ :=
    (resolveEach_cases ld rtldDefault coreSymbols l.symbols).resolve_right fun h => h.1 hcore
  have hfps := resolveDtor_fpsOpened
    (fpsOpened (l := { l with handles := h, symbols := s }) ld hopen)
  unfold Loader.open
  rw [if_neg (Bool.eq_false_iff.mp hok), hh]
  dsimp only
  rw [resolveCore_eq, hs]
  refine ⟨_, rfl, rfl, fun f hf hdtor => ?_,
    hfps.available_iff, hfps.present, hfps.absent⟩
  -- the later parts of `open` leave the core symbols alone
  dsimp only
  rw [resolveDtor_of_ne ld _ hdtor, resolveFpsSymbols_of_not_mem ld _ hf]
  exact hset f ((mem_coreSymbols f).mpr ⟨hf, hdtor⟩)

end Open

/-- **`Loader::open` is all or nothing, unless a core symbol is missing in libraries that are
there.** -/
theorem all_or_nothing_iff (ld : Linker) (libsDir : String) (l : ClosedLoader) :
    AllOrNothing ld libsDir l ↔ (ld.HasLibs libsDir → ld.HasCore) := by
  obtain ⟨l, hclosed⟩ := l
  by_cases hlibs : ld.HasLibs libsDir
  · by_cases hcore : ld.HasCore
    · obtain ⟨l', hopen, hopened⟩ := open_of_hasCore hclosed.ok hlibs hcore
      refine iff_of_true ⟨fun _ => ?_, fun hfalse => ?_⟩ fun _ => hcore
      · rw [hopen]
        exact hopened
      · rw [hopen] at hfalse
        cases hfalse
    · -- a handle that is not null is not closed
      obtain ⟨l', hopen, hlibsOpen⟩ := open_of_not_hasCore hclosed.ok hlibs hcore
      refine iff_of_false (fun hall => ?_) fun h => hcore (h hlibs)
      have hnothing := hall.nothing (congrArg Prod.fst hopen)
      rw [hopen] at hnothing
      exact hlibsOpen.1 hnothing.handles.hLibandroidappmusic
  · obtain ⟨l', hopen⟩ := open_of_not_hasLibs hclosed.ok hlibs
    refine iff_of_true ⟨fun htrue => ?_, fun _ => ?_⟩ fun h => absurd h hlibs
    · rw [hopen] at htrue
      cases htrue
    · rw [hopen]
      exact l'.closed_close

/-- Every library is there, and no symbol. -/
def emptyLibs : Linker where
  dlopen _ := (1, none)
  dlsym _ _ := (nullptr, some "undefined symbol")

/-- The libraries stay open where a core symbol is missing. -/
theorem all_or_nothing_fails :
    ¬ ∀ (ld : Linker) (libsDir : String) (l : ClosedLoader), AllOrNothing ld libsDir l := by
  intro hall
  have hlibs : emptyLibs.HasLibs "/system/lib64" := fun _ _ => show (1 : Ptr) ≠ nullptr by decide
  have hcore : ¬ emptyLibs.HasCore := fun hcore => (hcore _ List.mem_cons_self).1 rfl
  obtain ⟨l', hopen, hlibsOpen⟩ := open_of_not_hasCore (l := {}) rfl hlibs hcore
  have hnothing := (hall emptyLibs "/system/lib64" ⟨{}, Loader.closed_close {}⟩).nothing
    (congrArg Prod.fst hopen)
  dsimp only at hnothing
  rw [hopen] at hnothing
  exact hlibsOpen.1 hnothing.handles.hLibandroidappmusic

end Runtime

end WrapperPaas
