/-
  `Loader` of `src/daemon/apple/loader.hpp` and `src/daemon/apple/loader.cpp`: Apple's libraries
  are opened, and the symbols are looked up.
-/
import WrapperPaas.Runtime.Symbols

namespace WrapperPaas

namespace Runtime

/-- The dynamic linker, with what `dlerror` says behind each call. -/
structure Linker where
  dlopen : String → Ptr × Option String
  dlsym : Ptr → String → Ptr × Option String

structure Handles where
  hLibstoreservicescore : Ptr := nullptr
  hLibmediaplatform : Ptr := nullptr
  hLibandroidappmusic : Ptr := nullptr
  hLibcorefp : Ptr := nullptr
  hLibcorelskd : Ptr := nullptr

structure Loader where
  handles : Handles := {}
  symbols : Symbols := fun _ => nullptr
  ok : Bool := false
  fpsDecryptAvailable : Bool := false
  lastError : String := ""
  footHillPersistentKeyFn : Ptr := nullptr
  footHillPersistentKeyAbi8 : Bool := false

/-- The last error stays. -/
def Loader.close (l : Loader) : Loader := { lastError := l.lastError }

/-! ### Libraries -/

def openLib (ld : Linker) (path : String) : Except String Ptr :=
  if (ld.dlopen path).1 = nullptr then
    .error ("dlopen(" ++ path ++ "): " ++ (ld.dlopen path).2.getD "unknown error")
  else .ok (ld.dlopen path).1

def openLibOptional (ld : Linker) (path : String) : Ptr := (ld.dlopen path).1

/-- The lambda `load`; an error comes with the handles at that time. -/
def load (ld : Linker) (path : String) (store : Ptr → Handles) :
    Except (String × Handles) Handles :=
  match openLib ld path with
  | .ok h => .ok (store h)
  -- `*dest` is written before it is tested
  | .error msg => .error (msg, store nullptr)

def openLibs (ld : Linker) (libsDir : String) (h : Handles) :
    Except (String × Handles) Handles := do
  let h := { h with hLibcorefp := openLibOptional ld (libsDir ++ "/libCoreFP.so") }
  let h := { h with hLibcorelskd := openLibOptional ld (libsDir ++ "/libCoreLSKD.so") }
  let h ← load ld (libsDir ++ "/libandroidappmusic.so") ({ h with hLibandroidappmusic := · })
  let h ← load ld (libsDir ++ "/libstoreservicescore.so") ({ h with hLibstoreservicescore := · })
  load ld (libsDir ++ "/libmediaplatform.so") ({ h with hLibmediaplatform := · })

/-! ### Core symbols -/

def resolve (ld : Linker) (h : Ptr) (name : String) : Except String Ptr :=
  if (ld.dlsym h name).2 ≠ none ∨ (ld.dlsym h name).1 = nullptr then
    .error ("dlsym(" ++ name ++ "): " ++ (ld.dlsym h name).2.getD "not found")
  else .ok (ld.dlsym h name).1

def resolveVtable (ld : Linker) (name : String) : Except String Ptr :=
  if (ld.dlsym rtldDefault name).1 = nullptr ∨ (ld.dlsym rtldDefault name).2 ≠ none then
    .error ("dlsym(" ++ name ++ "): " ++ (ld.dlsym rtldDefault name).2.getD "not found")
  else .ok (ld.dlsym rtldDefault name).1

/-- One symbol behind the other, up to the first that is missing. -/
def resolveEach (resolve : String → Except String Ptr) :
    List Symbol → Symbols → Except (String × Symbols) Symbols
  | [], s => .ok s
  | f :: fs, s =>
    match resolve f.name with
    | .ok sym => resolveEach resolve fs (Function.update s f sym)
    | .error msg => .error (msg, s)

def resolveCore (ld : Linker) (s : Symbols) : Except (String × Symbols) Symbols := do
  let s ← resolveEach (resolve ld rtldDefault) [.resolv_set_nameservers_for_net] s
  let s ← resolveEach (resolveVtable ld) vtables s
  let s ← resolveEach (resolve ld rtldDefault) mangledSymbols s
  resolveEach (resolve ld rtldDefault) coreFoundationSymbols s

/-! ### Optional symbols -/

/-- The handles up to the first null one are tried, and `RTLD_DEFAULT` behind them. -/
def resolveIn (ld : Linker) (handles : List Ptr) (name : String) : Option Ptr :=
  (handles.takeWhile (· ≠ nullptr) ++ [rtldDefault]).findSome? fun h =>
    (resolve ld h name).toOption

/-- The lambda `resolve_fps`. -/
def resolveFps (ld : Linker) (h : Handles) (name : String) : Option Ptr :=
  resolveIn ld [h.hLibandroidappmusic, h.hLibmediaplatform, h.hLibstoreservicescore] name

/-- The lambda `resolve_opt`. -/
def resolveOpt (ld : Linker) (h : Handles) (name : String) : Option Ptr :=
  resolveIn ld [h.hLibstoreservicescore, h.hLibmediaplatform, h.hLibandroidappmusic] name

def clearFpsSymbols (s : Symbols) : Symbols := fun f => if f ∈ fpsSymbols then nullptr else s f

/-- The lines `RESOLVE_FPS`, with what they make of `fps_ok`. -/
def resolveFpsEach (ld : Linker) (h : Handles) : List Symbol → Symbols → Bool × Symbols
  | [], s => (true, s)
  | f :: fs, s =>
    match resolveFps ld h f.name with
    | some sym => resolveFpsEach ld h fs (Function.update s f sym)
    -- the other symbols are looked up all the same
    | none => (false, (resolveFpsEach ld h fs s).2)

/-- The two forms of `getPersistentKey`; the flag is the one of the form with eight strings. -/
def resolvePersistentKey (ld : Linker) (h : Handles) : Option (Ptr × Bool) :=
  match resolveFps ld h svFootHillSessionCtrlGetPersistentKey8str with
  | some pk8 => some (pk8, true)
  | none =>
    match resolveFps ld h svFootHillSessionCtrlGetPersistentKey7str with
    | some pk7 => some (pk7, false)
    | none => none

def Loader.resolveFpsSymbols (ld : Linker) (l : Loader) : Loader :=
  let lease := resolveFpsEach ld l.handles leaseSymbols (clearFpsSymbols l.symbols)
  let key := resolvePersistentKey ld l.handles
  let footHill := resolveFpsEach ld l.handles footHillSymbols lease.2
  if lease.1 && key.isSome && footHill.1 then
    { l with
      symbols := footHill.2
      footHillPersistentKeyFn := (key.getD (nullptr, false)).1
      footHillPersistentKeyAbi8 := (key.getD (nullptr, false)).2
      fpsDecryptAvailable := true }
  else
    -- all of it goes, also what was found
    { l with
      symbols := clearFpsSymbols footHill.2
      footHillPersistentKeyFn := nullptr
      footHillPersistentKeyAbi8 := false
      fpsDecryptAvailable := false }

/-- The slot of the destructor stays as it is where nothing is found. -/
def Loader.resolveDtor (ld : Linker) (l : Loader) : Loader :=
  match resolveOpt ld l.handles Symbol.vector_PurchaseItem_dtor.name with
  | some sym => { l with symbols := Function.update l.symbols .vector_PurchaseItem_dtor sym }
  | none => l

def Loader.open (ld : Linker) (libsDir : String) (l : Loader) : Bool × Loader :=
  if l.ok then (true, l)
  else
    match openLibs ld libsDir l.handles with
    | .error (msg, h) => (false, { l with handles := h, lastError := msg }.close)
    | .ok h =>
      match resolveCore ld l.symbols with
      -- nothing is closed here
      | .error (msg, s) => (false, { l with handles := h, symbols := s, lastError := msg })
      | .ok s =>
        let l := { l with handles := h, symbols := s }
        (true, { (l.resolveFpsSymbols ld).resolveDtor ld with ok := true, lastError := "" })

end Runtime

end WrapperPaas
