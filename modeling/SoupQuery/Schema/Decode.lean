import SoupQuery.Json
import SoupQuery.Schema

/-!
# Reading object metadata

The JSON form of a schema. The schema and the two maps of a type are objects, and everything in
them is a record, so it may be written by names or by places. Members that are not known are
ignored; a missing or mistyped one makes the whole schema unreadable, and only the two maps of a
type may be missing.

* `Schema.ofJson?` — a schema from its JSON form.
-/

namespace SoupQuery

/-- A data type: its name, or an object whose only member has that name and is empty. -/
def DataType.ofJson? : Json → Option DataType
  | .string name => DataType.ofName? name
  | .object [(name, .null)] => DataType.ofName? name
  | .object [(name, .object [])] => DataType.ofName? name
  | _ => none

/-- A field: `fieldType` says which of the two shapes it has. -/
def FieldInfo.ofJson? (json : Json) : Option FieldInfo := do
  let (shape, body) ← json.shaped? "fieldType"
  if shape = "Scalar" then
    let record ← body.record? ["apiName", "dataType"]
    let apiName ← record.stringMember? "apiName"
    let dataType ← (record.member? "dataType").bind DataType.ofJson?
    some (.scalar apiName dataType)
  else if shape = "Reference" then
    let record ← body.record? ["apiName", "relationshipName", "referenceToApiName"]
    let apiName ← record.stringMember? "apiName"
    let relationshipName ← record.stringMember? "relationshipName"
    let target ← record.stringMember? "referenceToApiName"
    some (.reference ⟨apiName, relationshipName, target⟩)
  else none

def ChildRelationship.ofJson? (json : Json) : Option ChildRelationship := do
  let record ← json.record? ["fieldName", "childObjectApiName", "relationshipName"]
  let fieldName ← record.stringMember? "fieldName"
  let child ← record.stringMember? "childObjectApiName"
  let relationshipName ← record.stringMember? "relationshipName"
  some ⟨fieldName, child, relationshipName⟩

def ObjectInfo.ofJson? (json : Json) : Option ObjectInfo := do
  let record ← json.record? ["apiName", "fields", "childRelationships"]
  let apiName ← record.stringMember? "apiName"
  let fields ← record.optionalMembers? "fields" FieldInfo.ofJson?
  let children ← record.optionalMembers? "childRelationships" ChildRelationship.ofJson?
  some ⟨apiName, fields, children⟩

/-- A schema: an object with one member for each type. -/
def Schema.ofJson? (json : Json) : Option Schema :=
  json.members?.bind (Json.decodeMembers ObjectInfo.ofJson?)

end SoupQuery
