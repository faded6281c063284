import ObjectEngine.Engine.Operations
import ObjectEngine.Wire.Filter
import ObjectEngine.Wire.Predicate

/-!
# Writes and their results in wire form

Writes as callers state them, planned writes, and what they did.
-/

namespace ObjectEngine

open Wire

instance : ToWire Plan.RelationEdit where
  wire e := .object [("field", .str e.field), ("target", .str e.target), ("add", wire e.add),
    ("remove", wire e.remove)]

instance : FromWire Plan.RelationEdit where
  ofWire j := do
    return { field := ← field j "field", target := ← field j "target", add := ← field j "add",
             remove := ← field j "remove" }

namespace Wire

/-- Reads a planned write of a kind. -/
def taggedWrite (tag : String) (j : Json) : Reader Write := do
  let collection : String ← field j "coll"
  match tag with
  | "insert" => return .insert collection (← field j "doc")
  | "update" =>
    return .update collection (← field j "filter")
      { edit := ← field j "update", relations := ← field j "relations" } (← field j "many")
  | "upsert" => return .upsert collection (← field j "filter") (← field j "update")
  | "delete" => return .delete collection (← field j "filter") (← field j "relationFields")
  | _ => malformed

/-- Reads a write of a kind. -/
def taggedWriteOp (tag : String) (j : Json) : Reader WriteOp := do
  let className : String ← field j "class"
  match tag with
  | "create" => return .create className (← field j "doc")
  | "update" => return .update className (← field j "id") (← field j "ops")
  | "updateMany" => return .updateMany className (← field j "filter") (← field j "ops")
  | "upsert" => return .upsert className (← field j "filter") (← field j "ops")
  | "delete" => return .delete className (← field j "filter")
  | _ => malformed

end Wire

instance : FromWire Write := ⟨choice taggedWrite⟩

instance : FromWire WriteOp := ⟨choice taggedWriteOp⟩

instance : ToWire WriteResult where
  wire
    | .created objectId => .obj [("created", .str objectId)]
    | .updated matched record => .object [("updated", wire matched), ("document", wire record)]
    | .upserted matched objectId record =>
      .object [("upserted", wire matched), ("id", wire objectId), ("document", wire record)]
    | .deleted count => .obj [("deleted", wire count)]

instance : ToWire Store.Upserted where
  wire u := .object [("matched", wire u.matched), ("id", wire u.id), ("document", wire u.record)]

instance : ToWire SessionId := ⟨fun id => .str id.text⟩

/-- The wire form of what a call to the store answers. -/
def Wire.ofAnswer : (call : Store.Call) → call.Answer → Json
  | .find .. => fun records : List Record => wire records
  | .count .. | .update .. | .delete .. => fun n : Nat => wire n
  | .findAndUpdate .. => fun record : Option Record => wire record
  | .upsert .. => fun u : Store.Upserted => wire u
  | .drop _ => fun existed : Bool => wire existed
  | .listIndexes _ => fun indexes : List StoreIndex => wire indexes
  | .startSession => fun id : SessionId => wire id
  | .connect _ | .close | .insert .. | .createIndex .. | .dropIndex .. | .startTransaction _
  | .commit _ | .abort _ | .endSession _ => fun _ => wire ()

instance {call : Store.Call} : ToWire call.Answer := ⟨Wire.ofAnswer call⟩

instance : ToWire IndexOutcome where
  wire
    | .created => .str "Created"
    | .unchanged => .str "Unchanged"

instance : ToWire IndexPurpose where
  wire
    | .username => .str "Username"
    | .usernameCaseInsensitive => .str "UsernameCaseInsensitive"
    | .email => .str "Email"
    | .emailCaseInsensitive => .str "EmailCaseInsensitive"
    | .emailVerifyToken => .str "EmailVerifyToken"
    | .passwordResetToken => .str "PasswordResetToken"
    | .roleName => .str "RoleName"

end ObjectEngine
