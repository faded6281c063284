/-!
# Members in key order

Maps are kept as lists of members with strictly increasing keys, so that a map has exactly
one list and printing a map needs no sorting. Reading is the standard `List.lookup`; this
file adds insertion and removal, which keep the order, and the sortedness predicate
`ObjectEngine.Members.Sorted` that every map of the library satisfies.

Keys are compared by code points.
-/

namespace ObjectEngine

/-- A map from names to `α`, as its list of members in key order. -/
abbrev Members (α : Type) := List (String × α)

namespace Members

variable {α β : Type}

/-- Binds `key` to `value`, replacing the binding that was there. -/
def insert (key : String) (value : α) : Members α → Members α
  | [] => [(key, value)]
  | (k, v) :: rest =>
    if key < k then (key, value) :: (k, v) :: rest
    else if key = k then (key, value) :: rest
    else (k, v) :: insert key value rest

/-- Removes the binding of `key`, if there is one. -/
def erase (key : String) (members : Members α) : Members α :=
  members.filter fun m => m.1 ≠ key

/-- The members of `news` on top of those of `members`: of two bindings of one key the
later wins. -/
def insertAll (members news : Members α) : Members α :=
  news.foldl (fun acc m => insert m.1 m.2 acc) members

/-- The map of a list of bindings: of two bindings of one key the later wins. -/
def ofList (bindings : List (String × α)) : Members α :=
  insertAll [] bindings

/-- The keys, in order. -/
def keys (members : Members α) : List String :=
  members.map Prod.fst

/-- The values, in the order of their keys. -/
def values (members : Members α) : List α :=
  members.map Prod.snd

/-- Whether `key` is bound. -/
def contains (key : String) (members : Members α) : Bool :=
  members.any fun m => m.1 = key

/-- Changes the value under `key`, if there is one. -/
def adjust (key : String) (f : α → α) (members : Members α) : Members α :=
  members.map fun m => if m.1 = key then (m.1, f m.2) else m

/-- Applies a function to every value. -/
def mapValues (f : α → β) (members : Members α) : Members β :=
  members.map fun m => (m.1, f m.2)

/-- Keys increase strictly from left to right. -/
def Sorted (members : Members α) : Prop :=
  members.Pairwise fun a b => a.1 < b.1

end Members

/-- A set of names: its elements in increasing order. -/
abbrev NameSet := List String

namespace NameSet

/-- Adds a name, unless it is there. -/
def insert (name : String) : NameSet → NameSet
  | [] => [name]
  | n :: rest =>
    if name < n then name :: n :: rest
    else if name = n then n :: rest
    else n :: insert name rest

/-- The set of the names of a list. -/
def ofList (names : List String) : NameSet :=
  names.foldl (fun acc n => insert n acc) []

end NameSet

end ObjectEngine
