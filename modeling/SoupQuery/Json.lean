/-!
# JSON values

A JSON value as it was written: the members of an object keep their order, and a number is kept
as its text.

* `Json` — the values.
* `Json.member?`, `Json.members?`, `Json.string?` — what a reader of a document asks for.
* `Json.record?`, `Json.shaped?` — a record, whose members are known either by their names or by
  their places.
* `Json.decodeMembers` — the members of an object, each one decoded.
-/

namespace SoupQuery

inductive Json where
  | null
  | boolean (value : Bool)
  | number (text : String)
  | string (text : String)
  | array (items : List Json)
  | object (members : List (String × Json))
  deriving Repr, Inhabited

namespace Json

def members? : Json → Option (List (String × Json))
  | .object members => some members
  | _ => none

def items? : Json → Option (List Json)
  | .array items => some items
  | _ => none

def string? : Json → Option String
  | .string text => some text
  | _ => none

def member? (json : Json) (name : String) : Option Json :=
  json.members?.bind (·.lookup name)

/-- A member that must be there and be a string. -/
def stringMember? (json : Json) (name : String) : Option String :=
  (json.member? name).bind string?

/-- A member that may be missing, but must be a string if it is there. -/
def stringMemberD? (json : Json) (name default : String) : Option String :=
  match json.member? name with
  | none => some default
  | some value => value.string?

/-- The object form of a record with the given members. A record is written as an object, or as
an array of its members in the order of their names; the array may end early, but has no other
items. -/
def record? (names : List String) : Json → Option Json
  | .object members => some (.object members)
  | .array items =>
    if items.length ≤ names.length then some (.object (names.zip items)) else none
  | _ => none

/-- A record that has one of several shapes: the name of its shape, and the record to be read in
that shape. An object names its shape in the given member, an array in its first item. -/
def shaped? (name : String) : Json → Option (String × Json)
  | .object members =>
    ((members.lookup name).bind string?).map fun shape => (shape, .object members)
  | .array (.string shape :: items) => some (shape, .array items)
  | _ => none

def decodeMembers {α : Type} (decode : Json → Option α) (members : List (String × Json)) :
    Option (List (String × α)) :=
  members.mapM fun member => (decode member.2).map fun value => (member.1, value)

/-- The decoded members of an object, none if the object itself is missing. -/
def optionalMembers? {α : Type} (json : Json) (name : String) (decode : Json → Option α) :
    Option (List (String × α)) :=
  match json.member? name with
  | none => some []
  | some value => value.members?.bind (decodeMembers decode)

end Json

end SoupQuery
