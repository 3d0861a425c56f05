/-
  The cache of key contexts of the decrypt path (`src/daemon/apple/decrypt.cpp`): a map from a
  flattened (adam_id, key_uri) pair to a `kd` pointer, bounded by a queue of the regular tracks in
  insertion order.
-/
import Mathlib.Data.List.Basic
import WrapperPaas.Lib.Bytes

namespace WrapperPaas

/-- A non-null `kd` pointer. -/
abbrev Kd := Nat

/-- The adam_id and key URI of a track; both are `std::string`s, which hold any bytes. -/
abbrev TrackKey := Bytes × Bytes

def newline : UInt8 := 10

/-- `kPrefetchAdam`, the string "0". -/
def kPrefetchAdam : Bytes := [48]

def kKdCacheMaxEntries : Nat := 128

def kdCacheKey (adamId keyUri : Bytes) : Bytes := adamId ++ newline :: keyUri

/-- `g_kd_cache` and `g_kd_cache_order`. -/
structure KdCache where
  entries : Bytes → Option Kd := fun _ => none
  order : List Bytes := []

namespace KdCache

/-- The eviction loop of `store_cached_kd`. -/
def evict (entries : Bytes → Option Kd) : List Bytes → KdCache
  | [] => ⟨entries, []⟩
  | oldest :: rest =>
    if (oldest :: rest).length > kKdCacheMaxEntries then
      evict (Function.update entries oldest none) rest
    else ⟨entries, oldest :: rest⟩

/-- `find_cached_kd`; `none` is the null pointer. -/
def findCachedKd (c : KdCache) (adamId keyUri : Bytes) : Option Kd :=
  c.entries (kdCacheKey adamId keyUri)

def storeCachedKd (c : KdCache) (adamId keyUri : Bytes) (kd : Kd) : KdCache :=
  let key := kdCacheKey adamId keyUri
  let inserted := (c.entries key).isNone
  let entries := Function.update c.entries key (some kd)
  if !inserted || adamId = kPrefetchAdam then
    -- a re-store of an existing entry, or the pinned prefetch context
    ⟨entries, c.order⟩
  else evict entries (c.order ++ [key])

def eraseCachedKd (c : KdCache) (adamId keyUri : Bytes) : KdCache :=
  let key := kdCacheKey adamId keyUri
  if (c.entries key).isNone then c
  else ⟨Function.update c.entries key none, c.order.erase key⟩

end KdCache

/-- One call of a function of the cache. -/
inductive KdCall where
  | store (p : TrackKey) (kd : Kd)
  | erase (p : TrackKey)
  | find (p : TrackKey)
  deriving DecidableEq, Repr

/-- The pair a call is about. -/
def KdCall.track : KdCall → TrackKey
  | .store p _ => p
  | .erase p => p
  | .find p => p

/-- The cache after a call. -/
def KdCache.call (c : KdCache) : KdCall → KdCache
  | .store p kd => c.storeCachedKd p.1 p.2 kd
  | .erase p => c.eraseCachedKd p.1 p.2
  | .find _ => c

/-- The cache after a sequence of calls. -/
def KdCache.run (c : KdCache) (calls : List KdCall) : KdCache := calls.foldl call c

/-! ### What the cache stands for -/

/-- The contexts that were stored for each pair and not erased since. -/
def KdStored := TrackKey → Option Kd

/-- A call acts on its own pair only. -/
def KdStored.call (m : KdStored) : KdCall → KdStored
  | .store p kd => Function.update m p (some kd)
  | .erase p => Function.update m p none
  | .find _ => m

def KdStored.run (m : KdStored) (calls : List KdCall) : KdStored := calls.foldl call m

/-- After the calls, `find_cached_kd` returns null for the pair or the context stored for it. -/
def KdSound (calls : List KdCall) (p : TrackKey) : Prop :=
  ∀ kd, (KdCache.run {} calls).findCachedKd p.1 p.2 = some kd →
    KdStored.run (fun _ => none) calls p = some kd

end WrapperPaas
