/-!
# Entries in order

A finite map kept as a list of pairs. The list shows the order in which the
keys first appeared; writing a key again replaces its value and leaves its
place.
-/

namespace ApiSnippets

/-- Keys and values in the order of the keys' first appearance. -/
abbrev Entries (α β : Type) := List (α × β)

namespace Entries

variable {α β : Type} [BEq α]

/-- The value under a key. -/
def get? (es : Entries α β) (key : α) : Option β :=
  List.lookup key es

/-- Whether a key is present. -/
def has (es : Entries α β) (key : α) : Bool :=
  (es.get? key).isSome

/-- The entries with a value under a key: in the key's place when it is
present, at the end when it is new. -/
def put (key : α) (value : β) : Entries α β → Entries α β
  | [] => [(key, value)]
  | (k, v) :: es => if key == k then (k, value) :: es else (k, v) :: put key value es

/-- Every pair of a list put in turn. -/
def putAll (es : Entries α β) (pairs : List (α × β)) : Entries α β :=
  pairs.foldl (fun es p => put p.1 p.2 es) es

/-- The entries of a list of pairs in which a key may repeat. -/
def ofPairs (pairs : List (α × β)) : Entries α β :=
  putAll [] pairs

/-- The entries without a key. -/
def erase (es : Entries α β) (key : α) : Entries α β :=
  es.filter fun e => !(key == e.1)

/-- The keys in order. -/
def keys (es : Entries α β) : List α :=
  es.map Prod.fst

/-- The values in order. -/
def values (es : Entries α β) : List β :=
  es.map Prod.snd

end Entries

end ApiSnippets
