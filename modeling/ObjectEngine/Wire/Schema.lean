import ObjectEngine.Schema.TypeText
import ObjectEngine.Store.Predicate
import ObjectEngine.Wire

/-!
# Schemas in wire form

A field type is its stored text. A schema is read from its class, which must be a valid name,
with further fields and indexes put in as they are given; it is written with its indexes by
name.
-/

namespace ObjectEngine

open Wire

instance : ToWire FieldType := ⟨fun ty => .str ty.storedText⟩

instance : FromWire FieldType where
  ofWire j := do checked (FieldType.ofStoredText (← FromWire.ofWire j))

namespace Wire

/-- The fields or paths of an index or a sort with their directions. -/
def directions (j : Json) : Reader (List (String × Int32)) :=
  items (pair FromWire.ofWire FromWire.ofWire) j

/-- The wire form of fields or paths with their directions. -/
def ofDirections (fields : List (String × Int32)) : Json :=
  .arr (fields.map fun f => .arr [.str f.1, wire f.2])

end Wire

instance : ToWire IndexDescriptor where
  wire index := .object [("name", .str index.name), ("fields", ofDirections index.fields),
    ("unique", .bool index.unique), ("ci", .bool index.caseInsensitive)]

instance : FromWire IndexDescriptor where
  ofWire j := do
    return { name := ← field j "name", fields := ← directions (member j "fields"),
             unique := ← field j "unique", caseInsensitive := ← field j "ci" }

instance : ToWire Collation := ⟨fun c => .arr [.str c.locale, wire c.strength]⟩

instance : FromWire Collation where
  ofWire j := do
    let (locale, strength) ← pair FromWire.ofWire FromWire.ofWire j
    return ⟨locale, strength⟩

instance : ToWire StoreIndex where
  wire index := .object [("name", .str index.name), ("keys", ofDirections index.keys),
    ("unique", .bool index.unique), ("sparse", .bool index.sparse),
    ("collation", wire index.collation)]

instance : FromWire StoreIndex where
  ofWire j := do
    return { name := ← field j "name", keys := ← directions (member j "keys"),
             unique := ← field j "unique", sparse := ← field j "sparse",
             collation := ← field j "collation" }

instance : ToWire ClassSchema where
  wire schema := .object [("class", .str schema.className), ("fields", ofMembers schema.fields),
    ("indexes", ofMembers schema.indexes)]

instance : FromWire ClassSchema where
  ofWire j := do
    let start ← checked (ClassSchema.create (← field j "class"))
    let fields ← members FromWire.ofWire (member j "fields")
    let indexes : List IndexDescriptor ← field j "indexes"
    return { start with
      fields := Members.insertAll start.fields fields
      indexes := Members.ofList (indexes.map fun index => (index.name, index)) }

end ObjectEngine
