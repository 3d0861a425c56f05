/-
  Reading an HTTP request: `handle_http_connection` of `src/rust/main.rs` up to the dispatch on the
  route.

  The parser of request heads is the crate `httparse`, which is outside the repository.  The content
  type is not modelled: the handler reads it but does not use it.
-/
import WrapperPaas.Http.Query
import WrapperPaas.Lib.BufReader
import WrapperPaas.Lib.JsonValue
import WrapperPaas.Protocol.Routes

namespace WrapperPaas

namespace Http

open Json Supervisor

/-! ### The head -/

abbrev Reader := BufReader UInt8 Failure

def lineFeed : UInt8 := 10
def carriageReturn : UInt8 := 13

/-- The test for the end of the head. -/
def endsHead (head : Bytes) : Bool :=
  [carriageReturn, lineFeed, carriageReturn, lineFeed].isSuffixOf head ||
    [lineFeed, lineFeed].isSuffixOf head

/-- What reading the head comes to. -/
inductive HeadResult where
  /-- the client has closed the connection -/
  | closed
  | tooLarge
  | complete (head : Bytes) (rest : Reader)

/-- The loop that reads the head line by line. -/
def readHead (head : Bytes) (r : Reader) : Outcome HeadResult :=
  match _h : r.readUntil lineFeed with
  | .error e => .error e
  | .ok (line, rest) =>
    if line = [] then .ok .closed
    else if endsHead (head ++ line) then .ok (.complete (head ++ line) rest)
    else if (head ++ line).length > 64 * 1024 then .ok .tooLarge
    else readHead (head ++ line) rest
termination_by r.pending.length
decreasing_by
  next hne _ _ =>
  have hpos := List.length_pos_of_ne_nil hne
  rw [BufReader.pending_readUntil _h, List.length_append]
  omega

/-! ### The headers -/

structure Header where
  name : String
  value : Bytes
  deriving DecidableEq, Repr

/-- What the handler reads of `httparse::Request`. -/
structure Request where
  method : Option String
  path : Option String
  headers : List Header
  deriving DecidableEq, Repr

def asciiLowercase (c : UInt8) : UInt8 := if 65 ≤ c ∧ c ≤ 90 then c + 32 else c

/-- `eq_ignore_ascii_case`. -/
def eqIgnoreAsciiCase (a b : String) : Bool :=
  (utf8 a).map asciiLowercase = (utf8 b).map asciiLowercase

/-- `char::is_whitespace`. -/
def isWhitespace (c : Char) : Bool :=
  (9 ≤ c.toNat && c.toNat ≤ 13) || c.toNat = 32 || c.toNat = 0x85 || c.toNat = 0xA0 ||
    c.toNat = 0x1680 || (0x2000 ≤ c.toNat && c.toNat ≤ 0x200A) || c.toNat = 0x2028 ||
    c.toNat = 0x2029 || c.toNat = 0x202F || c.toNat = 0x205F || c.toNat = 0x3000

/-- `str::trim`. -/
def trim (s : List Char) : List Char :=
  ((s.dropWhile isWhitespace).reverse.dropWhile isWhitespace).reverse

/-- The number that decimal digits write, if it is a `usize`. -/
def parseDigits (s : List Char) : Option Nat :=
  if s ≠ [] ∧ s.all Char.isDigit then
    let n := s.foldl (fun n c => n * 10 + (c.toNat - 48)) 0
    if n < usizeSize then some n else none
  else none

/-- `str::parse::<usize>`. -/
def parseUsize : List Char → Option Nat
  | '+' :: s => parseDigits s
  | s => parseDigits s

/-- The value of a Content-Length header, 0 if it cannot be read. -/
def lengthValue (value : Bytes) : Nat :=
  ((ofUtf8 value).bind fun s => parseUsize (trim s.toList)).getD 0

/-- The last Content-Length header counts. -/
def contentLength (headers : List Header) : Nat :=
  headers.foldl (fun n h =>
    if eqIgnoreAsciiCase h.name "content-length" then lengthValue h.value else n) 0

/-- A header has the key as its bearer token. -/
def bears (key : String) (h : Header) : Bool :=
  eqIgnoreAsciiCase h.name "authorization" && h.value.length = 7 + (utf8 key).length &&
    (utf8 "Bearer ").isPrefixOf h.value && h.value.drop 7 = utf8 key

/-- The check of WRAPPER_API_KEY. -/
def authorized (apiKey : Option String) (headers : List Header) : Bool :=
  match apiKey with
  | none => true
  | some key => headers.any (bears key)

/-! ### The connection -/

/-- What the routes are given. -/
structure Dispatch where
  method : String
  path : Bytes
  query : Bytes
  body : Bytes
  deriving DecidableEq, Repr

inductive Handled where
  | closed
  /-- a response of the handler itself -/
  | refused (status : Nat) (body : Value)
  | dispatched (d : Dispatch) (rest : Reader)

section Handler

variable (httparse : Bytes → Except String (Option Request)) (apiKey : Option String)

/-- What follows on a parsed head. -/
def readBody (req : Request) (r : Reader) : Outcome Handled :=
  if !authorized apiKey req.headers then
    .ok (.refused 401 (.object [("error", .str "unauthorized"),
      ("detail", .str "missing or invalid WRAPPER_API_KEY")]))
  else
    let method := req.method.getD ""
    let target := utf8 (req.path.getD "/")
    let length := contentLength req.headers
    if length > maxHttpBody then
      .ok (.refused 413 (.object [("error", .str "payload_too_large"),
        ("limit", .num maxHttpBody)]))
    else
      match r.readExact (.err .unexpectedEof "failed to fill whole buffer") length with
      | .error e => .error e
      | .ok (body, rest) =>
        let (path, query) := splitTarget target
        .ok (.dispatched ⟨method, path, query, body⟩ rest)

def handleHttpConnection (r : Reader) : Outcome Handled :=
  match readHead [] r with
  | .error e => .error e
  | .ok .closed => .ok .closed
  | .ok .tooLarge => .ok (.refused 431 (.object [("error", .str "headers_too_large")]))
  | .ok (.complete head rest) =>
    match httparse head with
    | .error e => .error (.err .invalidData e)
    | .ok none => .ok (.refused 400 (.object [("error", .str "bad_request")]))
    | .ok (some req) => readBody apiKey req rest

end Handler

end Http

end WrapperPaas
