import Mathlib.Data.List.Basic

namespace Phantom.Lib

/-- A cache of a bounded size as its callers know it: a lookup finds only what was inserted. What each
    insertion drops, `dropped` by its number, is left open. -/
structure LruCache (K V : Type) where
  held : K → Option V
  dropped : ℕ → K → Bool
  insertions : ℕ

namespace LruCache

variable {K V : Type} [DecidableEq K] {cache : LruCache K V} {key other : K} {value found : V}

def empty (dropped : ℕ → K → Bool) : LruCache K V := ⟨fun _ => none, dropped, 0⟩

def insert (key : K) (value : V) (cache : LruCache K V) : LruCache K V :=
  { cache with
    held := fun other =>
      if cache.dropped cache.insertions other then none else Function.update cache.held key (some value) other
    insertions := cache.insertions + 1 }

def clear (cache : LruCache K V) : LruCache K V := { cache with held := fun _ => none }

theorem held_insert (looked : (cache.insert key value).held other = some found) :
    (other = key ∧ found = value) ∨ cache.held other = some found := by
  grind [insert]

end LruCache

end Phantom.Lib
