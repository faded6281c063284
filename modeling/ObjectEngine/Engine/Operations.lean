import ObjectEngine.Plan.Selection
import ObjectEngine.Engine.Batch
import ObjectEngine.Engine.Includes
import ObjectEngine.Engine.Indexing
import ObjectEngine.Uri

/-!
# The engine

The operations callers use. Each reads the schema of the class through the cache, plans the
request, calls the store and reads the results; errors leave in the form that callers may see.

Relation constraints of a filter are reduced to sets of object ids before it is planned, and
what a caller may not read or write is left out by a permission predicate beside the
filter.
-/

namespace ObjectEngine

open Plan (Policy)

/-- A write as callers state it. -/
inductive WriteOp
  | create (className : String) (document : Document)
  | update (className objectId : String) (ops : UpdateMap)
  | updateMany (className : String) (filter : Filter) (ops : UpdateMap)
  | upsert (className : String) (filter : Filter) (ops : UpdateMap)
  | delete (className : String) (filter : Filter)
  deriving Inhabited

namespace Engine

/-! ### What callers see -/

/-- A document without the fields that are hidden from the caller. -/
def visible (caller : Caller) (d : Document) : Document :=
  if caller.privileged then d
  else { d with fields := d.fields.filter fun f =>
    !isInternalField f.1 && !caller.isProtected f.1 }

/-- Reads a stored document for a caller. -/
def readDocument (schema : ClassSchema) (caller : Caller) (r : Record) : Outcome Document := do
  return visible caller (← Stored.decodeDocument schema r)

/-- What a caller's filters may hold under a configuration. -/
def policy (config : Config) (caller : Caller) : Policy where
  caller
  allowScripts := config.allowSandboxedExpressions
  maxTimeMs := config.maxTimeMs

/-- Work whose errors leave in the form callers may see. -/
def guarded {α : Type} (config : Config) (work : Action α) : Action α :=
  tryCatch work fun e => throw (e.sanitized config.sanitizeErrors)

/-! ### Relation constraints -/

/-- A look-up in a join collection. -/
inductive RelationLookup
  /-- The owners whose relation holds an object. -/
  | containing (field relatedId : String)
  /-- The members of a relation of an object. -/
  | members (owner : Pointer) (key : String)
  deriving DecidableEq, Inhabited

/-- The look-up that replaces a constraint, if it is a relation constraint. -/
def lookupOf? : Filter → Option RelationLookup
  | .field path (.relationContains p) => some (.containing path p.objectId)
  | .relatedTo owner key => some (.members owner key)
  | _ => none

/-- Whether a relation constraint can be looked up: its field must be a relation. -/
def canLookUp (schema : ClassSchema) : RelationLookup → Bool
  | .containing field _ => Indexing.isRelationField schema field
  | .members .. => true

mutual

/-- The look-ups that a filter needs. -/
def lookups (schema : ClassSchema) : Filter → List RelationLookup
  | .and parts => lookupsOf schema parts
  | .or parts => lookupsOf schema parts
  | f => (lookupOf? f).toList.filter (canLookUp schema)

/-- The look-ups that some filters need. -/
def lookupsOf (schema : ClassSchema) : List Filter → List RelationLookup
  | [] => []
  | f :: rest => lookups schema f ++ lookupsOf schema rest

end

mutual

/-- A filter with sets of object ids in place of the relation constraints looked up. -/
def substitute (found : List (RelationLookup × List String)) : Filter → Filter
  | .and parts => .and (substituteAll found parts)
  | .or parts => .or (substituteAll found parts)
  | f =>
    match (lookupOf? f).bind fun l => found.lookup l with
    | some ids => .field "objectId" (.isIn (ids.map .string))
    | none => f

/-- Filters with sets of object ids in place of the relation constraints looked up. -/
def substituteAll (found : List (RelationLookup × List String)) : List Filter → List Filter
  | [] => []
  | f :: rest => substitute found f :: substituteAll found rest

end

/-- The object ids that a look-up finds. -/
def lookUp (className : String) : RelationLookup → StoreAction (List String)
  | .containing field relatedId => Join.ownersOf className field relatedId
  | .members owner key => do
    let links ← Join.relatedIds owner.className key [owner.objectId]
    return (links.lookup owner.objectId).getD []

/-- Replaces the relation constraints of a filter, with one look-up for each. -/
def reduceRelations (schema : ClassSchema) (f : Filter) : StoreAction Filter := do
  let found ← (lookups schema f).eraseDups.mapM fun l => do
    return (l, ← lookUp schema.className l)
  return substitute found f

/-- The predicate of a filter for a call that takes no collation, within a permission. -/
def scopedFilter (config : Config) (caller : Caller) (schema : ClassSchema) (permKey : String)
    (f : Filter) : StoreAction Predicate := do
  let reduced ← reduceRelations schema f
  let planned ← (Plan.filter { schema with indexes := [] } (policy config caller) reduced :
    Outcome Plan.FilterPlan)
  return planned.filter.both (Plan.permission permKey caller)

/-! ### Connection -/

/-- Connects to the configured database. -/
def connect (config : Config) : Action Unit :=
  guarded config (Program.call (.connect (Uri.escape config.databaseUri)))

/-- Disconnects. -/
def close (config : Config) : Action Unit := guarded config (Program.call .close)

/-! ### Classes -/

/-- Adds a class. -/
def createClass (config : Config) (schema : ClassSchema) : Action ClassSchema :=
  guarded config do
    (Catalog.createClass schema : StoreAction Unit)
    Action.publish (.ofClass schema.className)
    return schema

/-- Declares a field. -/
def addField (config : Config) (className name : String) (ty : FieldType) : Action ClassSchema :=
  guarded config do
    let schema ← (Catalog.addField className name ty : StoreAction ClassSchema)
    Action.publish (.ofClass className)
    return schema

/-- The schema of a class. -/
def getClass (config : Config) (className : String) : Action ClassSchema :=
  guarded config (Action.schema className)

/-- The schemas of all classes. -/
def allClasses (config : Config) : Action (List ClassSchema) := guarded config Catalog.loadAll

/-- Removes a class without objects, with its relations. -/
def deleteClass (config : Config) (className : String) : Action Bool :=
  guarded config do
    let schema ← Action.schema className
    let objects : Nat ← Program.call (.count className .all none none)
    if 0 < objects then
      throw (.schemaViolation
        s!"Class {className} is not empty, contains {objects} objects, cannot drop schema.")
    for (field, _) in schema.relationFields do
      let _ ← (Join.drop className field : StoreAction Bool)
    let _ ← Program.call (.drop className)
    let existed ← (Catalog.deleteClass className : StoreAction Bool)
    Action.publish (.ofClass className)
    return existed

/-! ### Reading -/

/-- Fetches included objects for a caller. -/
def fetcher (config : Config) (caller : Caller) :
    Fetcher (ExceptT EngineError (StateT SchemaCache Program)) where
  objects className ids := do
    let schema ← Action.schema className
    let selection : Selection :=
      { filter := (Predicate.byIds ids).both (Plan.permission Stored.readPermKey caller)
        maxTimeMs := config.maxTimeMs }
    let records : List Record ← Program.call (.find className selection none)
    (records.mapM (readDocument schema caller) : Outcome (List Document))
  links className field ownerIds := Action.ofStore (Join.relatedIds className field ownerIds)

/-- Expands include paths over documents. -/
def resolve (config : Config) (caller : Caller) (results : List Document) (paths : List String) :
    Action (List Document) :=
  Includes.resolve (fetcher config caller) config.includeBatchSize results paths

/-- The objects of a class that satisfy a filter. -/
def find (config : Config) (caller : Caller) (className : String) (f : Filter)
    (options : FindOptions) : Action (List Document) :=
  guarded config do
    let schema ← Action.schema className
    let reduced ← (reduceRelations schema f : StoreAction Filter)
    let selection ← (Plan.selection schema (policy config caller) reduced options :
      Outcome Selection)
    let records : List Record ← Program.call (.find className selection none)
    let results ← (records.mapM (readDocument schema caller) : Outcome (List Document))
    if options.includes.isEmpty then return results
    resolve config caller results options.includes

/-- The number of objects of a class that satisfy a filter. -/
def count (config : Config) (caller : Caller) (className : String) (f : Filter) : Action Nat :=
  guarded config do
    let schema ← Action.schema className
    let p ← (scopedFilter config caller schema Stored.readPermKey f : StoreAction Predicate)
    Program.call (.count className p config.maxTimeMs none)

/-- Expands include paths over documents that are at hand. -/
def resolveIncludes (config : Config) (caller : Caller) (results : List Document)
    (paths : List String) : Action (List Document) :=
  guarded config (resolve config caller results paths)

/-! ### Preparing writes -/

/-- The write that creates an object, and the object as it will be. -/
def prepareCreate (caller : Caller) (className : String) (d : Document) :
    Action (Write × Document) := do
  let schema ← Action.schema className
  if !caller.privileged then
    match d.fields.find? fun f => isInternalField f.1 with
    | some (name, _) => throw (.invalidKeyName name)
    | none => pure ()
  let objectId ← if d.objectId.isEmpty then Action.newId else pure d.objectId
  let t ← Action.now
  let d : Document :=
    { d with className, objectId, createdAt := d.createdAt <|> some t,
             updatedAt := d.updatedAt <|> some t }
  let record ← (Stored.encodeDocument schema d : Outcome Record)
  return (.insert className record, d)

/-- The write that updates the records of a predicate. -/
def prepareUpdate (caller : Caller) (className : String) (p : Predicate) (ops : UpdateMap)
    (many : Bool) : Action Write := do
  let schema ← Action.schema className
  let u ← (Plan.update schema caller ops : Outcome Plan.UpdatePlan)
  let t ← Action.now
  let edit := { u.edit with set := Members.insert Stored.updatedAtKey (.date t) u.edit.set }
  return .update className p { u with edit } many

/-- The write that updates the first match of a filter or inserts an object. -/
def prepareUpsert (config : Config) (caller : Caller) (className : String) (f : Filter)
    (ops : UpdateMap) : Action Write := do
  let schema ← Action.schema className
  let u ← (Plan.update schema caller ops : Outcome Plan.UpdatePlan)
  if !u.relations.isEmpty then
    throw (.invalidQuery "relation operations cannot be part of an upsert")
  let p ← (scopedFilter config caller schema Stored.writePermKey f : StoreAction Predicate)
  let t ← Action.now
  let onInsert := Members.insert Stored.createdAtKey (.date t) u.edit.setOnInsert
  let onInsert ← if (p.seed.lookup Record.idKey).isSome then pure onInsert
    else do
      let id ← Action.newId
      pure (Members.insert Record.idKey (.string id) onInsert)
  return .upsert className p
    { u.edit with set := Members.insert Stored.updatedAtKey (.date t) u.edit.set
                  setOnInsert := onInsert }

/-- The plan of a write. -/
def prepare (config : Config) (caller : Caller) : WriteOp → Action Write
  | .create className d => do return (← prepareCreate caller className d).1
  | .update className objectId ops =>
    let p := (Predicate.byId objectId).both (Plan.permission Stored.writePermKey caller)
    prepareUpdate caller className p ops false
  | .updateMany className f ops => do
    let schema ← Action.schema className
    let p ← (scopedFilter config caller schema Stored.writePermKey f : StoreAction Predicate)
    prepareUpdate caller className p ops true
  | .upsert className f ops => prepareUpsert config caller className f ops
  | .delete className f => do
    let schema ← Action.schema className
    let p ← (scopedFilter config caller schema Stored.writePermKey f : StoreAction Predicate)
    return .delete className p (schema.relationFields.map Prod.fst)

/-! ### Writing -/

/-- Creates an object. Its id and times are made up where they are not given. -/
def create (config : Config) (caller : Caller) (className : String) (d : Document) :
    Action Document :=
  guarded config do
    let (write, d) ← prepareCreate caller className d
    let _ ← (write.run none : StoreAction WriteResult)
    return visible caller d

/-- Updates an object and answers it as it is afterwards. -/
def update (config : Config) (caller : Caller) (className objectId : String) (ops : UpdateMap) :
    Action Document :=
  guarded config do
    let write ← prepare config caller (.update className objectId ops)
    match ← (write.run none : StoreAction WriteResult) with
    | .updated _ (some record) =>
      let schema ← Action.schema className
      (readDocument schema caller record : Outcome Document)
    | _ => throw .objectNotFound

/-- Updates the objects that satisfy a filter and answers how many there were. -/
def updateMany (config : Config) (caller : Caller) (className : String) (f : Filter)
    (ops : UpdateMap) : Action Nat :=
  guarded config do
    let write ← prepare config caller (.updateMany className f ops)
    match ← (write.run none : StoreAction WriteResult) with
    | .updated matched _ => return matched
    | _ => return 0

/-- Updates the first object that satisfies a filter or creates one. -/
def upsert (config : Config) (caller : Caller) (className : String) (f : Filter)
    (ops : UpdateMap) : Action Document :=
  guarded config do
    let write ← prepareUpsert config caller className f ops
    match ← (write.run none : StoreAction WriteResult) with
    | .upserted _ _ record =>
      let schema ← Action.schema className
      (readDocument schema caller record : Outcome Document)
    | _ => throw .objectNotFound

/-- Deletes the objects that satisfy a filter and answers how many there were, at least
one. -/
def delete (config : Config) (caller : Caller) (className : String) (f : Filter) : Action Nat :=
  guarded config do
    let write ← prepare config caller (.delete className f)
    match ← (write.run none : StoreAction WriteResult) with
    | .deleted count => if 0 < count then return count else throw .objectNotFound
    | _ => throw .objectNotFound

/-! ### Batches -/

/-- Plans the writes of a batch one after another, each with its own outcome. -/
def prepareAll (config : Config) (caller : Caller) (writes : List WriteOp) :
    Action (List (Outcome Write)) :=
  writes.mapM fun w => ExceptT.lift (prepare config caller w).run

/-- The outcomes of the writes that were planned in the places of these writes; a write that did
not keeps its error. -/
def fillIn : List (Outcome Write) → List (Outcome WriteResult) → List (Outcome WriteResult)
  | [], _ => []
  | .error e :: rest, executed => .error e :: fillIn rest executed
  | .ok _ :: rest, r :: executed => r :: fillIn rest executed
  | .ok _ :: rest, [] => .error (.store 1 "batch result missing") :: fillIn rest []

/-- Runs a batch in a world. All writes are planned before the first runs; a write that does
not plan fails a transaction before it starts, and otherwise only itself. -/
def executeBatch (config : Config) (caller : Caller) (writes : List WriteOp)
    (transactional : Bool) (cache : SchemaCache) (w : World) :
    (Outcome (List (Outcome WriteResult)) × SchemaCache) × World :=
  let shown (e : EngineError) : EngineError := e.sanitized config.sanitizeErrors
  let ((prepared, cache), w) := (prepareAll config caller writes).runIn cache w
  match prepared with
  | .error e => ((.error (shown e), cache), w)
  | .ok prepared =>
    if transactional then
      match (prepared.mapM id : Outcome (List Write)) with
      | .error e => ((.error (shown e), cache), w)
      | .ok ready =>
        let (outcome, w) := Batch.execute config.transactionRetryLimit ready true w
        (((outcome.mapError shown), cache), w)
    else
      let ready := prepared.filterMap Except.toOption
      let (outcomes, w) := Batch.independent ready w
      ((.ok ((fillIn prepared outcomes).map (Except.mapError shown)), cache), w)

/-! ### Indexes and fields -/

/-- Makes sure that a class has an index. -/
def ensureIndex (config : Config) (className : String) (index : IndexDescriptor) :
    Action IndexOutcome :=
  guarded config (Indexing.ensureIndex className index)

/-- Drops an index. -/
def dropIndex (config : Config) (className name : String) : Action Bool :=
  guarded config (Indexing.dropIndex className name)

/-- Makes sure that the default indexes exist. -/
def ensureDefaultIndexes (config : Config) : Action (List (IndexPurpose × IndexOutcome)) :=
  guarded config (Indexing.ensureDefaults config.indexes)

/-- Deletes fields of a class. -/
def deleteFields (config : Config) (className : String) (names : List String) :
    Action ClassSchema :=
  guarded config (Indexing.deleteFields className names)

end Engine

end ObjectEngine
