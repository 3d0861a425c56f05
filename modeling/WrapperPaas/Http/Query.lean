/-
  Reading the query of a request target (`split_target`, `parse_query` and `percent_decode` of
  `src/rust/main.rs`).
-/
import Mathlib.Logic.Function.Basic
import WrapperPaas.Lib.Utf8

namespace WrapperPaas

namespace Http

def percent : UInt8 := 37
def ampersand : UInt8 := 38
def plus : UInt8 := 43
def equals : UInt8 := 61
def questionMark : UInt8 := 63
def space : UInt8 := 32

/-- `split_once`. -/
def splitOnce (delim : UInt8) (s : Bytes) : Option (Bytes × Bytes) :=
  (s.idxOf? delim).map fun n => (s.take n, s.drop (n + 1))

/-- The path and the query. -/
def splitTarget (target : Bytes) : Bytes × Bytes :=
  (splitOnce questionMark target).getD (target, [])

def hex (b : UInt8) : Option UInt8 :=
  if 48 ≤ b ∧ b ≤ 57 then some (b - 48)
  else if 97 ≤ b ∧ b ≤ 102 then some (b - 97 + 10)
  else if 65 ≤ b ∧ b ≤ 70 then some (b - 65 + 10)
  else none

/-- A byte that is not part of an escape. -/
def decodeByte (b : UInt8) : UInt8 := if b = plus then space else b

/-- The loop of `percent_decode`. -/
def percentDecodeBytes : Bytes → Bytes
  | c :: a :: b :: rest =>
    if c = percent then
      match hex a, hex b with
      | some x, some y => ((x <<< 4) ||| y) :: percentDecodeBytes rest
      | _, _ => decodeByte c :: percentDecodeBytes (a :: b :: rest)
    else decodeByte c :: percentDecodeBytes (a :: b :: rest)
  | c :: rest => decodeByte c :: percentDecodeBytes rest
  | [] => []

def percentDecode (s : Bytes) : String := fromUtf8Lossy (percentDecodeBytes s)

/-- The parameters of a query. -/
abbrev Params := String → Option String

/-- One iteration of the loop of `parse_query`. -/
def insertPair (out : Params) (pair : Bytes) : Params :=
  let (k, v) := (splitOnce equals pair).getD (pair, [])
  Function.update out (percentDecode k) (some (percentDecode v))

def parseQuery (query : Bytes) : Params :=
  ((query.splitOn ampersand).filter fun p => p ≠ []).foldl insertPair fun _ => none

end Http

end WrapperPaas
