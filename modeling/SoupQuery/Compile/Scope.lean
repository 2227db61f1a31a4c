import SoupQuery.Compile.Filter

/-!
# Scopes

Compiles the `scope` argument of a connection, which restricts the records to those of the user.

* `ownedBy` — the records that the user owns.
* `assignedTo` — the service appointments that are assigned to the user.
* `scopeArgument` — the `scope` argument.
-/

namespace SoupQuery.Compile

open SoupQuery.GraphQL

def ownerField : String := "OwnerId"

/-- The type of the records that can be assigned. -/
def appointmentType : String := "ServiceAppointment"

/-- The record of the row belongs to the user. -/
def ownedBy (row : Row) (userId : String) : Predicate :=
  .comparison (fieldValue row ownerField) .eq (.string userId)

/-- The record of the row is assigned to a resource that stands for the user. -/
def assignedTo (row : Row) (userId : String) : Predicate :=
  let assigned := row.along "AssignedResource" "AssignedResource"
  let resource := row.along "ServiceResource" "ServiceResource"
  .existsRow assigned.name [resource.name] (.combine .and
    [.refersTo assigned.name resource.name "ServiceResourceId",
     .refersTo assigned.name row.name "ServiceAppointmentId",
     .comparison (fieldValue resource "RelatedRecordId") .eq (.string userId),
     .hasType assigned.name assigned.type,
     .hasType resource.name resource.type])

def scopeArgument (schema : Schema) (row : Row) (userId : String) :
    Option Value → Compiled (Option Predicate)
  | none => .ok none
  | some (.enum name) =>
    if name = "MINE" then
      if (schema.field? row.type ownerField).isSome then .ok (some (ownedBy row userId))
      else Checked.fail (.scopeWithoutOwner row.type)
    else if name = "ASSIGNEDTOME" then
      if row.type = appointmentType then .ok (some (assignedTo row userId))
      else Checked.fail (.scopeNotAppointment row.type)
    else Checked.fail (.unknownScope name row.type)
  | some _ => Checked.fail (.scopeNotEnum row.type)

end SoupQuery.Compile
