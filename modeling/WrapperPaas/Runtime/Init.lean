/-
  `Runtime` of `src/daemon/apple/runtime.hpp` and `src/daemon/apple/runtime.cpp`: `initialize` with
  the functions that it is made of, step by step, and the accessors that other threads and Apple's
  callbacks use meanwhile.

  A call of Apple's library is logged with the arguments that are not constants; its answer is a
  pointer, or nothing that is looked at.
-/
import WrapperPaas.Account.State
import WrapperPaas.Lib.Monitor
import WrapperPaas.Runtime.DeviceInfo
import WrapperPaas.Runtime.Loader

namespace WrapperPaas

namespace Runtime

structure RuntimeConfig where
  baseDir : Bytes := utf8 "/data/data/com.apple.android.music/files"
  deviceInfo : Bytes :=
    utf8 "Music/4.9/Android/10/Samsung S9/7663313/en-US/en-US/dc28071e981c439e"
  deriving DecidableEq, Repr

/-- The data members of `Runtime`; of a `shared_ptr` it is the object. -/
structure Members where
  initialized : Bool := false
  loader : Option Handle := none
  requestCtx : Ptr := nullptr
  deviceGuid : Ptr := nullptr
  presentationInterface : Ptr := nullptr
  baseDir : Bytes := []
  deviceInfo : Bytes := []
  foothill : Ptr := nullptr
  playbackReady : Bool := false
  deriving DecidableEq, Repr

inductive Arg where
  | pointer (p : Ptr)
  | text (b : Bytes)
  deriving DecidableEq, Repr

/-- A call of Apple's library. -/
structure AppleCall where
  symbol : Symbol
  args : List Arg := []
  deriving DecidableEq, Repr

/-- Code that runs with `mu_`. -/
abbrev Locked (α : Type) := Prog Members AppleCall Ptr α

open Prog

/-- A call of which nothing is looked at. -/
def apple (symbol : Symbol) (args : List Arg) : Locked Unit := do
  let _ ← ask ⟨symbol, args⟩

/-! ### The parts of `initialize` -/

def initDnsAndFoothill (parts : List Bytes) : Locked Bool := do
  apple .resolv_set_nameservers_for_net [.text (utf8 "223.5.5.5"), .text (utf8 "223.6.6.6")]
  let androidId := Arg.text (cString (parts.getD 8 []))
  apple .FootHillConfig_config [androidId]
  let guid ← ask ⟨.DeviceGUID_instance, []⟩
  modify ({ · with deviceGuid := guid })
  if guid = nullptr then return false
  apple .DeviceGUID_configure [.pointer guid, androidId]
  return true

/-- The setters of the config, each with the index of its part. -/
def configSetters : List (Symbol × Nat) :=
  [(.RCC_setClientIdentifier, 0), (.RCC_setVersionIdentifier, 1), (.RCC_setPlatformIdentifier, 2),
    (.RCC_setProductVersion, 3), (.RCC_setDeviceModel, 4), (.RCC_setBuildVersion, 5),
    (.RCC_setLocaleIdentifier, 6), (.RCC_setLanguageIdentifier, 7)]

def setConfig (parts : List Bytes) : List (Symbol × Nat) → Locked Unit
  | [] => return
  | (setter, i) :: setters => do
    apple setter [.text (cString (parts.getD i []))]
    setConfig parts setters

def initRequestContext (cfg : RuntimeConfig) (parts : List Bytes) : Locked Bool := do
  let mplDb := Arg.text (cString (cfg.baseDir ++ utf8 "/mpl_db"))
  let ctx ← ask ⟨.make_shared_RequestContext, [mplDb]⟩
  modify ({ · with requestCtx := ctx })
  if ctx = nullptr then return false
  apple .RequestContextConfig_ctor []
  apple .RCC_setBaseDirectoryPath [mplDb]
  setConfig parts configSetters
  apple .RequestContextManager_configure [.pointer ctx]
  apple .RequestContext_init [.pointer ctx]
  apple .RequestContext_setFairPlayDirectoryPath [.pointer ctx, .text (cString cfg.baseDir)]
  return true

def initPresentationInterface : Locked Bool := do
  let apInf ← ask ⟨.make_shared_AndroidPresentationInterface, []⟩
  modify ({ · with presentationInterface := apInf })
  if apInf = nullptr then return false
  apple .API_setDialogHandler [.pointer apInf]
  apple .API_setCredentialsHandler [.pointer apInf]
  let r ← get
  apple .RequestContext_setPresentationInterface [.pointer r.requestCtx, .pointer apInf]
  return true

def initPlaybackSession : Locked Bool := do
  apple .SVPlaybackLeaseManager_ctor []
  apple .SVPlaybackLeaseManager_refreshLeaseAutomatically []
  apple .SVPlaybackLeaseManager_requestLease []
  let foothill ← ask ⟨.SVFootHillSessionCtrl_instance, []⟩
  modify ({ · with foothill := foothill })
  return foothill ≠ nullptr

section Libs

-- the loaders that the handles point to
variable (libs : Handle → Loader)

/-- What `initialize` makes of `playback_ready_`. -/
def initPlayback (l : Handle) : Locked Unit := do
  if (libs l).fpsDecryptAvailable then
    let ready ← initPlaybackSession
    modify ({ · with playbackReady := ready })
  else modify ({ · with playbackReady := false })

/-- `initialize` behind the lock of `mu_`. -/
def initializeRuntime (l : Handle) (cfg : RuntimeConfig) : Locked Bool := do
  let r ← get
  if r.initialized then return true
  if !(libs l).ok then return false
  let parts := splitDeviceInfo cfg.deviceInfo
  if parts = [] then return false
  if !(← initDnsAndFoothill parts) then return false
  if !(← initRequestContext cfg parts) then return false
  if !(← initPresentationInterface) then return false
  modify ({ · with baseDir := cfg.baseDir })
  modify ({ · with deviceInfo := cfg.deviceInfo })
  modify ({ · with loader := some l })
  initPlayback libs l
  modify ({ · with initialized := true })
  return true

/-! ### The methods -/

/-- The calls of the public member functions; `refresh_playback_lease` is called by nothing. -/
inductive Method where
  | initializeRuntime (l : Handle) (cfg : RuntimeConfig)
  | initialized
  | baseDir
  | deviceInfo
  | requestCtxCopy
  | deviceGuidCopy
  | presentationInterfaceCopy
  | loader
  | playbackReady
  | foothillSession
  deriving DecidableEq, Repr

inductive Value where
  | flag (b : Bool)
  | text (b : Bytes)
  | pointer (p : Ptr)
  | loader (l : Option Handle)
  deriving DecidableEq, Repr

/-- What a method returns before it locks `mu_`. -/
def peek (m : Method) (r : Members) : Option Value :=
  match m with
  | .initializeRuntime _ _ => none
  | .initialized => some (.flag r.initialized)
  | .baseDir | .deviceInfo => if r.initialized then none else some (.text [])
  | .requestCtxCopy | .deviceGuidCopy | .presentationInterfaceCopy =>
    if r.initialized then none else some (.pointer nullptr)
  | .loader => some (.loader r.loader)
  | .playbackReady => some (.flag r.playbackReady)
  | .foothillSession => some (.pointer r.foothill)

/-- What an accessor reads. -/
def Method.read (m : Method) (r : Members) : Value :=
  match m with
  | .initializeRuntime _ _ | .initialized => .flag r.initialized
  | .baseDir => .text r.baseDir
  | .deviceInfo => .text r.deviceInfo
  | .requestCtxCopy => .pointer r.requestCtx
  | .deviceGuidCopy => .pointer r.deviceGuid
  | .presentationInterfaceCopy => .pointer r.presentationInterface
  | .loader => .loader r.loader
  | .playbackReady => .flag r.playbackReady
  | .foothillSession => .pointer r.foothill

def body : Method → Locked Value
  | .initializeRuntime l cfg => do
    let ok ← initializeRuntime libs l cfg
    return .flag ok
  | m => do
    let r ← get
    return m.read r

/-- The runtime of the process; `wrapper_dialog_handler` and `wrapper_credential_handler`, which
Apple calls back, use two of its methods. -/
def runtime : Monitor Members AppleCall Ptr Value Method where
  init := {}
  peek := peek
  body := body libs
  callback m := m = .loader ∨ m = .presentationInterfaceCopy

end Libs

end Runtime

end WrapperPaas
