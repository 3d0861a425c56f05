/-
  `harvest_all` of `src/daemon/apple/tokens.cpp` and the requests that it makes through Apple's
  library.

  What the library answers is an argument (`Apple`).  A `std::string` is its bytes, or the string of
  which they are the UTF-8 encoding when it comes out of a JSON value; `none` is undefined
  behaviour.
-/
import WrapperPaas.Account.State
import WrapperPaas.Lib.JsonCodec
import WrapperPaas.Tokens.Jwt
import WrapperPaas.Tokens.Response

namespace WrapperPaas

namespace Harvest

open Json AppleResponse

/-! ### Strings of Apple's library -/

/-- An `abi::std_string`: the bytes of the union, and what its data pointer leads to. -/
structure StdString where
  object : Bytes
  size24 : object.length = 24
  /-- `none` is a null pointer -/
  data : Option Bytes

/-- A little-endian number. -/
def ofLE : Bytes → Nat
  | [] => 0
  | c :: rest => c.toNat + 256 * ofLE rest

def readStdString (s : StdString) : Option Bytes :=
  let mark := ofLE (s.object.take 1)
  let isLong := mark % 2 ≠ 0
  if isLong then
    let size := ofLE ((s.object.drop 8).take 8)
    match s.data with
    | none => some []
    | some data =>
      if size = 0 then some []
      else if size ≤ data.length then some (data.take size)
      else none
  else
    let len := mark / 2
    -- `str` is an array of 23 characters
    if len ≤ 23 then some ((s.object.drop 1).take len) else none

/-! ### Apple's answers -/

/-- An `HTTPMessage` with the parameters that its `URLRequest` is given. -/
structure HttpMessage where
  url : String
  method : String
  headers : List (String × String) := []
  body : Option Bytes := none
  params : List (String × String) := []
  deriving DecidableEq, Repr

/-- How `URLRequest::run` ends, and which of the pointers to the body is null. -/
inductive UrlAnswer where
  /-- there is no memory for the `URLRequest` -/
  | notAllocated
  | error (code : Int) (what : Option Bytes)
  | noResponse
  | noUnderlyingResponse
  | noData
  | noBytes
  | bytes (b : Bytes)
  deriving DecidableEq, Repr

/-- What `DeviceGUID::guid` leads to. -/
inductive GuidAnswer where
  | noObject
  | noData
  | noBytes
  | bytes (b : Bytes)
  deriving DecidableEq, Repr

structure Apple where
  storeFrontIdentifier : StdString
  guid : GuidAnswer
  run : HttpMessage → UrlAnswer

/-! ### Requests -/

structure UrlRequestResult where
  body : Bytes := []
  errorCode : Int := 0
  errorWhat : Bytes := []
  ok : Bool := false
  deriving DecidableEq, Repr

/-- Code that runs requests; they are logged. -/
abbrev Requests (α : Type) := StateT (List HttpMessage) Option α

section Requests

variable (nl : Nlohmann) (apple : Apple)

def runRequest (msg : HttpMessage) (params : List (String × String)) :
    Requests UrlRequestResult := do
  let msg := { msg with params }
  modify (· ++ [msg])
  match apple.run msg with
  | .notAllocated => return {}
  | .error code what => return { errorCode := code, errorWhat := what.elim [] cString }
  | .noResponse | .noUnderlyingResponse | .noData | .noBytes => return {}
  | .bytes b => return { body := cString b, ok := true }

def postJson (msg : HttpMessage) (bodyJson : Bytes) : Requests Bytes := do
  let msg := if bodyJson ≠ [] then { msg with body := some bodyJson } else msg
  let r ← runRequest apple msg []
  if !r.ok then return []
  return r.body

/-- `nlohmann::json::parse`, which returns a value or throws. -/
def parse (b : Bytes) : Option Value := (nl.parse b).toOption

/-- A member that is a string. -/
def stringAt (j : Value) (key : String) : Option String :=
  match j.get key with
  | some (.str s) => some s
  | _ => none

/-- The string at a key of the object in a response, empty if there is none. -/
def stringInResponse (body : Bytes) (key : String) : Option String :=
  (parseAppleResponseJson (parse nl) body).map fun j => (j.bind (stringAt · key)).getD ""

def harvestStorefront : Option Bytes := readStdString apple.storeFrontIdentifier

def deviceGuidString : Bytes :=
  match apple.guid with
  | .noObject | .noData | .noBytes => []
  | .bytes b => cString b

def devTokenMessage : HttpMessage where
  url := "https://sf-api-token-service.itunes.apple.com/apiToken"
  method := "GET"

def devTokenParams : List (String × String) := [("clientId", "musicAndroid"), ("version", "1")]

def harvestDevToken : Requests String := do
  let r ← runRequest apple devTokenMessage devTokenParams
  if !r.ok ∨ r.body = [] then return ""
  stringInResponse nl r.body "token"

def musicTokenMessage : HttpMessage where
  url := "https://play.itunes.apple.com/WebObjects/MZPlay.woa/wa/createMusicToken"
  method := "POST"
  headers := [("Content-Type", "application/json; charset=UTF-8"), ("Expect", ""),
    ("X-Apple-Requesting-Bundle-Id", "com.apple.android.music"),
    ("X-Apple-Requesting-Bundle-Version",
      "Music/4.9 Android/10 model/Samsung S9 build/7663313 (dt:66)")]

/-- The body of the request; `nowMs` is the time. -/
def musicTokenBody (guid devToken : Bytes) (nowMs : Int) : Bytes :=
  utf8 "\x7b\"guid\":\"" ++ guid ++ utf8 "\",\"assertion\":\"" ++ devToken ++
    utf8 "\",\"tcc-acceptance-date\":\"" ++ compactInt nowMs ++ utf8 "\"\x7d"

def harvestMusicUserToken (guid devToken : Bytes) (nowMs : Int) : Requests String := do
  let respBody ← postJson apple musicTokenMessage (musicTokenBody guid devToken nowMs)
  if respBody = [] then return ""
  stringInResponse nl respBody "music_token"

end Requests

/-! ### The claim of the token -/

/-- `get<long long>()`, which wraps. -/
def asLongLong (i : Int) : Int := (BitVec.ofInt 64 i).toInt

def numeric (cand : Bytes) : Bool := cand ≠ [] && cand.all fun c => decide (IsDigit c)

/-- The claim in the payload.  `is_number_integer()` holds of unsigned numbers too, so the branch
for these is not reached. -/
def dsidOfClaims (j : Value) : Option String :=
  match j.get "dsid" with
  | some (.str s) => some s
  | some (.num i) => some (toString (asLongLong i))
  | _ => ["sub", "iss"].findSome? fun k =>
      (stringAt j k).bind fun cand => if numeric (utf8 cand) then some cand else none

def extractDsidFromJwt (nl : Nlohmann) (jwt : Bytes) : Option String := do
  let dot1 ← jwt.idxOf? 46
  let rest := jwt.drop (dot1 + 1)
  let n ← rest.idxOf? 46
  let payload := Jwt.base64urlDecode (rest.take n)
  if payload = [] then none
  else
    let j ← parse nl payload
    dsidOfClaims j

/-! ### The harvest -/

/-- The fields of `Tokens` that are filled. -/
structure Harvested where
  storefront : Bytes := []
  devToken : String := ""
  musicUserToken : String := ""
  dsid : String := ""
  deriving DecidableEq, Repr

def harvestAll (nl : Nlohmann) (apple : Apple) (nowMs : Int) (out : Harvested) :
    Requests (Bool × Harvested) := do
  let storefront ← harvestStorefront apple
  let out := { out with storefront }
  if storefront = [] then return (false, out)
  let devToken ← harvestDevToken nl apple
  let out := { out with devToken }
  if devToken = "" then return (false, out)
  let guid := deviceGuidString apple
  if guid = [] then return (false, out)
  let musicUserToken ← harvestMusicUserToken nl apple guid (utf8 devToken) nowMs
  let out := { out with musicUserToken }
  if musicUserToken = "" then return (false, out)
  match extractDsidFromJwt nl (utf8 devToken) with
  | some dsid => return (true, { out with dsid })
  | none => return (true, out)

end Harvest

end WrapperPaas
