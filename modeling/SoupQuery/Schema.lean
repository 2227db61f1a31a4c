/-!
# Object metadata

A schema describes the types of the stored records: the fields of each type, and the one-to-many
relationships that lead from it to other types.

* `DataType`, `FilterKind` — the type of a field, and how a filter treats it.
* `Reference`, `FieldInfo`, `ChildRelationship`, `ObjectInfo`, `Schema` — the metadata.
* `Schema.field?`, `Schema.child?` — look-up by name; the first match counts.
* `Member`, `Schema.member?` — what a name means on a record: a value, or another record.
* `Leaf`, `fieldPath` — where a field lies in a stored record.
-/

namespace SoupQuery

inductive DataType where
  | boolean
  | string
  | double
  | int
  | id
  | time
  | date
  | dateTime
  | currency
  | percent
  | picklist
  | email
  | phone
  | url
  | textArea
  deriving DecidableEq, Repr, Inhabited

def DataType.name : DataType → String
  | .boolean => "Boolean"
  | .string => "String"
  | .double => "Double"
  | .int => "Int"
  | .id => "Id"
  | .time => "Time"
  | .date => "Date"
  | .dateTime => "DateTime"
  | .currency => "Currency"
  | .percent => "Percent"
  | .picklist => "Picklist"
  | .email => "Email"
  | .phone => "Phone"
  | .url => "Url"
  | .textArea => "TextArea"

def DataType.all : List DataType :=
  [.boolean, .string, .double, .int, .id, .time, .date, .dateTime, .currency, .percent, .picklist,
   .email, .phone, .url, .textArea]

/-- The data type of a name, which is case-sensitive. -/
def DataType.ofName? (name : String) : Option DataType :=
  DataType.all.find? fun type => type.name = name

/-- How a filter treats a field: which operators it has and which values they take. -/
inductive FilterKind where
  | boolean
  | text
  | id
  | reference
  | int
  | double
  | time
  | date
  | dateTime
  deriving DecidableEq, Repr, Inhabited

def FilterKind.name : FilterKind → String
  | .boolean => "Boolean"
  | .text => "String"
  | .id => "Id"
  | .reference => "Reference"
  | .int => "Int"
  | .double => "Double"
  | .time => "Time"
  | .date => "Date"
  | .dateTime => "DateTime"

def DataType.filterKind : DataType → FilterKind
  | .boolean => .boolean
  | .string | .picklist | .email | .phone | .url | .textArea => .text
  | .id => .id
  | .int => .int
  | .double | .currency | .percent => .double
  | .time => .time
  | .date => .date
  | .dateTime => .dateTime

/-- A field that holds the identifier of another record. -/
structure Reference where
  /-- The field itself. -/
  apiName : String
  /-- The name that leads on to the other record. -/
  relationshipName : String
  /-- The type of the other record. -/
  target : String
  deriving DecidableEq, Repr, Inhabited

/-- A field of an object type. -/
inductive FieldInfo where
  | scalar (apiName : String) (dataType : DataType)
  | reference (ref : Reference)
  deriving DecidableEq, Repr, Inhabited

def FieldInfo.apiName : FieldInfo → String
  | .scalar apiName _ => apiName
  | .reference ref => ref.apiName

def FieldInfo.filterKind : FieldInfo → FilterKind
  | .scalar _ dataType => dataType.filterKind
  | .reference _ => .reference

/-- Whether a name means this field; a reference answers to two names. -/
def FieldInfo.answersTo (name : String) : FieldInfo → Bool
  | .scalar apiName _ => apiName = name
  | .reference ref => ref.apiName = name || ref.relationshipName = name

/-- The reference that a name leads along, if the field is one and the name its relationship. -/
def FieldInfo.spanning? (name : String) : FieldInfo → Option Reference
  | .scalar _ _ => none
  | .reference ref => if ref.relationshipName = name then some ref else none

/-- A one-to-many relationship: a field of the child type refers to the parent. -/
structure ChildRelationship where
  /-- The field of the child type that refers to the parent. -/
  fieldName : String
  /-- The child type. -/
  child : String
  /-- The name that leads from the parent to its children. -/
  relationshipName : String
  deriving DecidableEq, Repr, Inhabited

/-- The metadata of an object type, in written order. -/
structure ObjectInfo where
  apiName : String
  fields : List (String × FieldInfo)
  children : List (String × ChildRelationship)
  deriving DecidableEq, Repr, Inhabited

/-- The object types by name, in written order. -/
abbrev Schema := List (String × ObjectInfo)

/-- The identifier, which every record has outside its fields. -/
def idField : String := "Id"

/-- The type name, which every record has outside its fields. -/
def apiNameField : String := "ApiName"

/-- Whether a field is one that every record has. -/
def isIntrinsic (name : String) : Bool := name = idField || name = apiNameField

/-- The metadata of the two fields that every record has. -/
def intrinsic? (name : String) : Option FieldInfo :=
  if name = idField then some (.scalar idField .id)
  else if name = apiNameField then some (.scalar apiNameField .string)
  else none

/-- What a name means on a record: the value of a field, or the record that a reference names. -/
inductive Member where
  | value (field : FieldInfo)
  | record (reference : Reference)
  deriving DecidableEq, Repr, Inhabited

namespace Schema

def object? (schema : Schema) (type : String) : Option ObjectInfo := schema.lookup type

def knows (schema : Schema) (type : String) : Bool := (schema.object? type).isSome

/-- The field that a name means on a type. A known type has the two intrinsic fields even if it
does not declare them. -/
def field? (schema : Schema) (type name : String) : Option FieldInfo :=
  (schema.object? type).bind fun info =>
    ((info.fields.map (·.2)).find? (·.answersTo name)).or (intrinsic? name)

/-- The child relationship that a name means on a type. -/
def child? (schema : Schema) (type name : String) : Option ChildRelationship :=
  (schema.object? type).bind fun info =>
    (info.children.map (·.2)).find? (·.relationshipName = name)

/-- What a name means on a record of a type. -/
def member? (schema : Schema) (type name : String) : Option Member :=
  (schema.field? type name).map fun field =>
    match field.spanning? name with
    | some reference => .record reference
    | none => .value field

end Schema

/-- The two leaves of a field in a stored record. -/
inductive Leaf where
  | value
  | displayValue
  deriving DecidableEq, Repr, Inhabited

def Leaf.name : Leaf → String
  | .value => "value"
  | .displayValue => "displayValue"

def Leaf.ofName? (name : String) : Option Leaf :=
  if name = "value" then some .value
  else if name = "displayValue" then some .displayValue
  else none

/-- The path of a leaf in a stored record. The two intrinsic fields have no leaves. -/
def fieldPath (name : String) (leaf : Leaf) : String :=
  if name = idField then "data.id"
  else if name = apiNameField then "data.apiName"
  else "data.fields." ++ name ++ "." ++ leaf.name

end SoupQuery
