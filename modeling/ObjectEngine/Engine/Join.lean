import ObjectEngine.Plan.Edit
import ObjectEngine.Engine.Program

/-!
# Join collections

The relation field `f` of class `C` is stored in the collection `_Join:f:C`, one record per
edge with the ids of the owner and of the related object. To add an edge that is there changes
nothing.
-/

namespace ObjectEngine

namespace Join

open Plan (RelationEdit)

/-- The key of an edge's owner. -/
def owningKey : String := "owningId"

/-- The key of an edge's related object. -/
def relatedKey : String := "relatedId"

/-- The collection that stores a relation field. -/
def collection (field className : String) : String := s!"_Join:{field}:{className}"

/-- One of some ids. -/
def anyOf (ids : List String) : Condition := .isIn (ids.map .string)

/-- Adds and removes edges of one owner. -/
def apply (className ownerId : String) (e : RelationEdit) (session : Option SessionId) :
    StoreAction Unit := do
  let name := collection e.field className
  let owner : Predicate := .field owningKey (.eq (.string ownerId))
  for related in e.add do
    let _ ← Program.call
      (.upsert name (owner.both (.field relatedKey (.eq (.string related)))) {} session)
  if !e.remove.isEmpty then
    let _ ← Program.call
      (.delete name (owner.both (.field relatedKey (anyOf e.remove))) session)

/-- The related ids of each owner that has any, in the order of the edges. -/
def linksOf (edges : List Record) : Members (List String) :=
  edges.foldl (fun out edge =>
    match edge.string? owningKey, edge.string? relatedKey with
    | some owner, some related =>
      Members.insert owner ((out.lookup owner).getD [] ++ [related]) out
    | _, _ => out) []

/-- The related ids of some owners, in one query. -/
def relatedIds (className field : String) (ownerIds : List String) :
    StoreAction (Members (List String)) := do
  let edges ← Program.call (.find (collection field className)
    { filter := .field owningKey (anyOf ownerIds), sort := [(Record.idKey, 1)] } none)
  return linksOf edges

/-- The owners whose relation holds an object. -/
def ownersOf (className field relatedId : String) : StoreAction (List String) := do
  let edges ← Program.call (.find (collection field className)
    { filter := .field relatedKey (.eq (.string relatedId)) } none)
  return (edges : List Record).filterMap fun edge => edge.string? owningKey

/-- Removes the edges of some owners and answers how many there were. -/
def removeOwners (className field : String) (ownerIds : List String)
    (session : Option SessionId) : StoreAction Nat := do
  if ownerIds.isEmpty then return 0
  Program.call (.delete (collection field className) (.field owningKey (anyOf ownerIds)) session)

/-- Drops the edges of a relation field and answers whether there were any. -/
def drop (className field : String) : StoreAction Bool :=
  Program.call (.drop (collection field className))

end Join

end ObjectEngine
