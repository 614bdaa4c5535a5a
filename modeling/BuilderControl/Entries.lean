/-! # Entries of a map in key order

A map is the list of its entries in strictly increasing key order, so two maps with the same
content are the same list.  `insert`, `erase`, `union` and `ofList` keep that order; `get?` is
the view every law is stated through. -/

namespace BuilderControl

/-- The entries of a map from `κ` to `α`. -/
abbrev Entries (κ α : Type) := List (κ × α)

namespace Entries

variable {κ α : Type} [DecidableEq κ] [LT κ] [DecidableLT κ]

/-- The value stored under a key. -/
def get? : Entries κ α → κ → Option α
  | [], _ => none
  | (k', v) :: es, k => if k = k' then some v else get? es k

/-- Whether a key is present. -/
def contains (es : Entries κ α) (k : κ) : Bool := (get? es k).isSome

/-- Stores a value under a key, replacing the value it had. -/
def insert : Entries κ α → κ → α → Entries κ α
  | [], k, v => [(k, v)]
  | (k', v') :: es, k, v =>
    if k = k' then (k, v) :: es
    else if k < k' then (k, v) :: (k', v') :: es
    else (k', v') :: insert es k v

/-- Drops the entry of a key, if there is one. -/
def erase : Entries κ α → κ → Entries κ α
  | [], _ => []
  | (k', v) :: es, k => if k = k' then es else (k', v) :: erase es k

/-- All entries of `xs`, and those of `es` whose key `xs` does not have. -/
def union (xs es : Entries κ α) : Entries κ α :=
  xs.foldr (fun (k, v) m => insert m k v) es

/-- The map of a list of bindings; of two bindings of one key the later one counts. -/
def ofList (bindings : List (κ × α)) : Entries κ α :=
  bindings.foldl (fun m (k, v) => insert m k v) []

/-- The keys, in increasing order. -/
def keys (es : Entries κ α) : List κ := es.map Prod.fst

/-- Keys strictly increase, so each key has one entry. -/
def Sorted (es : Entries κ α) : Prop := es.Pairwise (fun a b => a.1 < b.1)

end Entries

end BuilderControl
