/-
  Reading the bodies of Apple's responses (`src/daemon/apple/tokens.cpp`): the prefixes are taken
  off, and the first balanced object is parsed.
-/
import Mathlib.Data.List.Basic
import WrapperPaas.Lib.Bytes

namespace WrapperPaas

namespace AppleResponse

/-- The byte order mark. -/
def utf8Bom : Bytes := [0xEF, 0xBB, 0xBF]

/-- The guard `)]}'`. -/
def xssiGuard : Bytes := [41, 93, 125, 39]

def normalizeAppleJsonBody (raw : Bytes) : Bytes :=
  let s := if utf8Bom.isPrefixOf raw then raw.drop 3 else raw
  if xssiGuard.isPrefixOf s then
    match s.idxOf? 10 with
    | some nl => s.drop (nl + 1)
    | none => s.drop 4
  else s

/-- The largest `int`. -/
def intMax : Nat := 2 ^ 31 - 1

/-- The variables of the loop of `first_json_object`. -/
structure Scan where
  depth : Nat := 0
  inStr : Bool := false
  esc : Bool := false
  deriving DecidableEq, Repr

/-- The loop from index `j` on: where the object ends, 0 if it does not, `none` if `depth`
overflows, which is undefined. -/
def scan (st : Scan) (j : Nat) : Bytes → Option Nat
  | [] => some 0
  | c :: rest =>
    if st.inStr then
      if st.esc then scan { st with esc := false } (j + 1) rest
      else if c = 92 then scan { st with esc := true } (j + 1) rest
      else if c = 34 then scan { st with inStr := false } (j + 1) rest
      else scan st (j + 1) rest
    else if c = 34 then scan { st with inStr := true } (j + 1) rest
    else if c = 123 then
      if st.depth < intMax then scan { st with depth := st.depth + 1 } (j + 1) rest else none
    else if c = 125 then
      -- the first character is a brace, so `depth` is positive here
      if st.depth - 1 = 0 then some (j + 1)
      else scan { st with depth := st.depth - 1 } (j + 1) rest
    else scan st (j + 1) rest

/-- The empty view if there is no balanced object; `none` is undefined behaviour. -/
def firstJsonObject (s : Bytes) : Option Bytes :=
  match s.idxOf? 123 with
  | none => some []
  | some start => (scan {} 0 (s.drop start)).map fun n => (s.drop start).take n

/-- What is stored, `none` if the call returns false; `parse` is `nlohmann::json::parse`, which
returns a value or throws. -/
def parseAppleResponseJson {α : Type} (parse : Bytes → Option α) (body : Bytes) :
    Option (Option α) :=
  (firstJsonObject (normalizeAppleJsonBody body)).map fun obj =>
    if obj = [] then none else parse obj

end AppleResponse

end WrapperPaas
