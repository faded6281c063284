import ObjectEngine.Schema
import ObjectEngine.Text.Split

/-!
# Field types as stored texts

A pointer is stored as `*` and its class, a relation as its class between `relation<` and
`>`, and every other type as its name in lower case.
-/

namespace ObjectEngine

namespace FieldType

/-- The stored text of a type. -/
def storedText : FieldType → String
  | .pointer target => "*" ++ target
  | .relation target => "relation<" ++ target ++ ">"
  | .string => "string"
  | .number => "number"
  | .boolean => "boolean"
  | .date => "date"
  | .object => "object"
  | .array => "array"
  | .geoPoint => "geopoint"
  | .polygon => "polygon"
  | .bytes => "bytes"
  | .file => "file"
  | .acl => "acl"

/-- The type without a target class that a text stores. -/
def ofPlainText? : String → Option FieldType
  | "string" => some .string
  | "number" => some .number
  | "boolean" => some .boolean
  | "date" => some .date
  | "object" => some .object
  | "array" => some .array
  | "geopoint" => some .geoPoint
  | "polygon" => some .polygon
  | "bytes" => some .bytes
  | "file" => some .file
  | "acl" => some .acl
  | _ => none

/-- The type that a text stores. -/
def ofStoredText (text : String) : Outcome FieldType :=
  match Text.afterStart? "*" text with
  | some target => .ok (.pointer target)
  | none =>
    match (Text.afterStart? "relation<" text).bind (Text.beforeEnding? ">") with
    | some target => .ok (.relation target)
    | none =>
      .ofOption (.dataCorruption s!"unknown stored field type '{text}'") (ofPlainText? text)

end FieldType

end ObjectEngine
