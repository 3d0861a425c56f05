/-
  `fetch_playback_json` of `src/daemon/apple/playback.cpp`, with a log of what it does to the
  dictionaries that Apple's preprocessor delivers, and `cf_to_json`, which makes JSON of them.

  What Core Foundation shows of an object is a `Plist`.  Its texts are asked for in UTF-8.
-/
import WrapperPaas.Lib.JsonReader
import WrapperPaas.Lib.Refcount
import WrapperPaas.Playback.Base64
import WrapperPaas.Runtime.Loader

namespace WrapperPaas

namespace Playback

open WrapperPaas.Runtime (Loader Ptr nullptr)

open Refcount (Event)

/-! ### Property lists -/

/-- What `read_cf_string` asks of a string. -/
structure CFString where
  /-- `CFStringGetCStringPtr`, which may not have the text at hand -/
  fast : Option String
  /-- `CFStringGetLength` -/
  length : Int
  /-- what `CFStringGetCString` copies, if it can -/
  copy : Option String
  deriving DecidableEq, Repr

def readCfString (str : CFString) : String :=
  match str.fast with
  | some text => text
  | none => if str.length ≤ 0 then "" else str.copy.getD ""

/-- An object with what it is made of. -/
inductive Plist where
  /-- a null pointer -/
  | null
  /-- a key that is null or no string is `none` -/
  | dictionary (entries : List (Option CFString × Plist))
  | array (elements : List Plist)
  | string (str : CFString)
  /-- a number of a float type, as `dump` writes it; it is none if it is infinite or no number -/
  | float (v : Option { text : Bytes // Json.IsReal text })
  | int (v : Int64)
  | boolean (v : Bool)
  /-- the bytes, unless `CFDataGetBytePtr` is null -/
  | data (bytes : Option Bytes)
  /-- a date in seconds since 1970 -/
  | date (unixSecs : Int)
  /-- `kCFNull`, or an object of another type -/
  | other

/-- A string of ASCII characters. -/
def ofAscii (b : Bytes) : String := .ofList (b.map fun c => .ofNat c.toNat)

section CfToJson

variable (iso8601 : Int → String)

mutual

/-- `cf_to_json`; `iso8601` is what `gmtime_r` and `strftime` make of a date. -/
def cfToJson : Plist → Json.Value
  | .null => .null
  | .dictionary entries => .object (cfMembers entries)
  | .array elements => .arr (cfElements elements)
  | .string str => .str (readCfString str)
  | .float none => .null
  | .float (some v) => .real v.val
  | .int v => .num v.toInt
  | .boolean v => .bool v
  | .data none => .str ""
  | .data (some bytes) => .str (if bytes = [] then "" else ofAscii (base64Encode bytes))
  | .date unixSecs => .str (iso8601 unixSecs)
  | .other => .null

/-- The loop over the elements of an array. -/
def cfElements : List Plist → List Json.Value
  | [] => []
  | el :: elements => cfToJson el :: cfElements elements

/-- The loop over the entries of a dictionary; those without a key are left out. -/
def cfMembers : List (Option CFString × Plist) → List (String × Json.Value)
  | [] => []
  | (none, _) :: entries => cfMembers entries
  | (some key, v) :: entries =>
    if readCfString key = "" then cfMembers entries
    else (readCfString key, cfToJson v) :: cfMembers entries

end

end CfToJson

structure CoreFoundation where
  cfRetain : Ptr → Ptr
  cfRetain_eq : ∀ d, cfRetain d = d
  cfGetTypeID : Ptr → UInt64
  cfDictionaryGetTypeID : UInt64
  iso8601 : Int → String
  /-- the object at a pointer; an error is the text of an exception while it is read -/
  plist : Ptr → Except Bytes Plist

/-- `cf_to_json` from a pointer on; it only reads. -/
def CoreFoundation.toJson (cf : CoreFoundation) (p : Ptr) : Except Bytes Json.Value :=
  (cf.plist p).map (cfToJson cf.iso8601)

/-! ### The dictionaries -/

/-- What the calls of a thread share, and two histories. -/
structure Thread where
  /-- the slot of `static thread_local Capture cap` -/
  cfDict : Ptr := nullptr
  log : List (Event Ptr) := []
  /-- the dictionaries that were delivered since a call took its capture -/
  delivered : List Ptr := []

def Thread.note (t : Thread) (e : Event Ptr) : Thread := { t with log := t.log ++ [e] }

/-- `if (p != nullptr) s.CFRelease(p)`. -/
def Thread.release (t : Thread) (p : Ptr) : Thread :=
  if p ≠ nullptr then t.note (.release p) else t

/-- What the preprocessor is called with: a null response, or one of which
`URLResponse_protocolDictionary` is this, which may be null. -/
abbrev UrlResponse := Option Ptr

/-- The lambda `preproc`. -/
def preproc (cf : CoreFoundation) (l : Loader) (t : Thread) (sp : UrlResponse) : Thread :=
  match sp with
  | none => t
  | some dict =>
    if l.symbols .URLResponse_protocolDictionary = nullptr then t
    else if dict = nullptr then t
    else
      -- the response may drop its dictionary as soon as the preprocessor returns
      let retained := cf.cfRetain dict
      let t := (t.note (.retain dict)).release t.cfDict
      { t with
        cfDict := if retained ≠ nullptr then retained else dict
        delivered := t.delivered ++ [dict] }

/-- The reset at the beginning of a call. -/
def Thread.reset (t : Thread) : Thread := { t.release t.cfDict with cfDict := nullptr }

/-- The capture behind `PurchaseRequest_run`. -/
def Thread.take (t : Thread) : Thread := { t with cfDict := nullptr, delivered := [] }

/-! ### A request -/

structure PurchaseRequest where
  processDialogActions : UInt8
  urlBagKey : Bytes
  buyParameters : Bytes

structure StoreErrorCondition where
  errorCode : Int
  what : Option String

structure PurchaseItem where
  obj : Ptr
  /-- what is at the beginning of the object -/
  fromMember : Ptr
  /-- what `PurchaseItem_dictionary` returns -/
  dictionary : Ptr

/-- A pointer of Apple's that is null, or points to a null pointer, is `none`. -/
structure PurchaseResponse where
  error : Option StoreErrorCondition
  items : List PurchaseItem

/-- What Apple makes of a request: its answer, and when it calls the preprocessor. -/
structure Purchase where
  /-- before `PurchaseRequest_run`, which only older requests can do -/
  setup : List UrlResponse
  run : List UrlResponse
  /-- while the answer is looked at -/
  later : List UrlResponse
  response : Option PurchaseResponse

structure PlaybackResult where
  ok : Bool := false
  body : Json.Value := .null
  error : String := ""

/-- The arguments of a call, and what the runtime and Apple do in it. -/
structure Call where
  initialized : Bool
  adamId : Bytes
  requestCtx : Ptr
  purchase : PurchaseRequest → Purchase

def makeBuyParameters (adamId : Bytes) : Bytes :=
  utf8 "salableAdamId=" ++ adamId ++ utf8 "&price=0&pricingParameters=SUBS&productType=S"

def purchaseItemCfdictionary (cf : CoreFoundation) (l : Loader) (item : PurchaseItem) : Ptr :=
  if item.obj = nullptr then nullptr
  else if l.symbols .PurchaseItem_dictionary ≠ nullptr ∧ item.dictionary ≠ nullptr ∧
      item.dictionary ≠ item.obj ∧ cf.cfGetTypeID item.dictionary = cf.cfDictionaryGetTypeID then
    item.dictionary
  else item.fromMember

/-- What `apple_err` becomes. -/
def appleErr (l : Loader) (response : Option PurchaseResponse) : String :=
  if l.symbols .PurchaseResponse_error = nullptr then ""
  else
    match response.bind PurchaseResponse.error with
    | none => ""
    | some err =>
      let code := if l.symbols .SEC_errorCode = nullptr then 0 else err.errorCode
      let what := if l.symbols .SEC_what = nullptr then none else err.what
      "Apple store error code=" ++ toString code ++
        if what.getD "" = "" then "" else ": " ++ what.getD ""

/-- The loop over the items; their dictionaries are their own. -/
def songList (cf : CoreFoundation) (l : Loader) (items : List PurchaseItem) :
    Except Bytes (List Json.Value) :=
  ((items.map (purchaseItemCfdictionary cf l)).filter (· ≠ nullptr)).mapM cf.toJson

/-- The fallback, and the errors behind it. -/
def fallback (cf : CoreFoundation) (l : Loader) (response : Option PurchaseResponse) :
    Except Bytes PlaybackResult := do
  let err := appleErr l response
  match response with
  | none =>
    return { error := if err ≠ "" then err
      else "PurchaseRequest produced no response object " ++
        "(likely an HTTP error before parsing)" }
  | some r =>
    let list ← if l.symbols .PurchaseResponse_items = nullptr then pure []
      else songList cf l r.items
    if list ≠ [] then return { ok := true, body := .obj [("songList", .arr list)] }
    else
      return { error := if err ≠ "" then err
        else "PurchaseResponse has no items and no error " ++
          "(Apple returned an empty subDownload payload)" }

/-- What stands behind `dict_guard`. -/
def respond (cf : CoreFoundation) (l : Loader) (p : Purchase) (dict : Ptr) (t : Thread) :
    Except Bytes PlaybackResult × Thread :=
  let response := if l.symbols .PurchaseRequest_response = nullptr then none else p.response
  if dict ≠ nullptr then
    ((cf.toJson dict).map ({ ok := true, body := · }), t.note (.use dict))
  else (fallback cf l response, t)

/-- What a call does once its arguments are checked. -/
def runPurchase (cf : CoreFoundation) (l : Loader) (p : Purchase) (t : Thread) :
    Except Bytes PlaybackResult × Thread :=
  let t := p.setup.foldl (preproc cf l) t.reset
  let t := p.run.foldl (preproc cf l) t
  -- the dictionary goes from the slot to `dict_guard`
  let dict := t.cfDict
  let t := p.later.foldl (preproc cf l) t.take
  let r := respond cf l p dict t
  -- whichever way the call is left, also by an exception
  (r.1, r.2.release dict)

def fetchPlaybackJson (cf : CoreFoundation) (l : Loader) (c : Call) (t : Thread) :
    Except Bytes PlaybackResult × Thread :=
  if !l.ok then (.ok { error := "Apple libs not loaded" }, t)
  else if !c.initialized then (.ok { error := "Apple runtime not initialized" }, t)
  else if c.adamId = [] then (.ok { error := "adam_id is required" }, t)
  else if c.adamId.any (fun ch => ch < 48 ∨ ch > 57) then
    (.ok { error := "adam_id must be a numeric string" }, t)
  else if c.requestCtx = nullptr then (.ok { error := "RequestContext unavailable" }, t)
  else
    let p := c.purchase
      { processDialogActions := 1
        urlBagKey := utf8 "subDownload"
        buyParameters := makeBuyParameters c.adamId }
    runPurchase cf l p t

/-! ### The thread -/

/-- A call, or the preprocessor of an earlier one between calls. -/
inductive Turn where
  | call (c : Call)
  | late (sp : UrlResponse)

def Thread.turn (cf : CoreFoundation) (l : Loader) (t : Thread) : Turn → Thread
  | .call c => (fetchPlaybackJson cf l c t).2
  | .late sp => preproc cf l t sp

def runTurns (cf : CoreFoundation) (l : Loader) (turns : List Turn) : Thread :=
  turns.foldl (Thread.turn cf l) {}

end Playback

end WrapperPaas
