import SoupQuery.Compile.OrderBy
import SoupQuery.Compile.Scope

/-!
# Connections

Compiles a connection: its arguments, and the fields selected under `edges { node { … } }`. A
reference is followed by a join, a child relationship by a nested query.

* `Context` — the schema, and the user for whom a query is compiled.
* `Selected` — the fields and joins that selections contribute.
* `assemble` — the record query of a connection, given what its node selects.
* `selection`, `selections`, `underEdges`, `underNode` — the selections of a record.
* `recordQuery` — the query of a connection.
-/

namespace SoupQuery.Compile

open SoupQuery.GraphQL

structure Context where
  schema : Schema
  userId : String
  deriving Repr, Inhabited

/-- What selections contribute to a record query: fields, and the joins that they read
through. -/
structure Selected where
  fields : List (QueryField RecordQuery)
  joins : List Join
  deriving Repr, Inhabited

def Selected.merge (parts : List Selected) : Selected :=
  ⟨parts.flatMap (·.fields), parts.flatMap (·.joins)⟩

/-- The contribution of selections on a joined row. -/
def Selected.through (join : Join) (selected : Selected) : Selected :=
  ⟨selected.fields, join :: selected.joins⟩

/-- The name that asks for the type of a record; it has no effect. -/
def typeNameField : String := "__typename"

/-! ## The query of a connection -/

def firstArgument (type : String) : Option Value → Compiled (Option Nat)
  | none => .ok none
  | some (.int value) =>
    if 0 ≤ value then .ok (some value.toNat) else Checked.fail (.firstNotNatural type)
  | some _ => Checked.fail (.firstNotNatural type)

structure Parts where
  filter? : Option RowFilter
  scope? : Option Predicate
  orders : List RowOrder
  first? : Option Nat
  selected : Selected
  deriving Repr, Inhabited

/-- The joins of a connection, in the order in which its parts ask for them. -/
def Parts.joins (parts : Parts) : List Join :=
  (parts.filter?.map (·.joins)).getD [] ++ parts.orders.flatMap (·.joins) ++ parts.selected.joins

/-- The condition of a filter, unless it restricts nothing. -/
def RowFilter.condition (filter : RowFilter) : List Predicate :=
  if filter.predicate.isEmpty then [] else [filter.predicate]

/-- The conditions of a connection besides its anchors. -/
def Parts.conditions (parts : Parts) : List Predicate :=
  (parts.filter?.map fun filter => joinConditions filter.joins ++ filter.condition).getD [] ++
    parts.scope?.toList ++ parts.orders.flatMap (fun order => joinConditions order.joins) ++
    joinConditions parts.selected.joins

/-- The record query of a row. The anchors bind the row to its type and to the row above. -/
def Parts.toQuery (parts : Parts) (row : Row) (anchors : List Predicate) : RecordQuery where
  predicate? := (some (Predicate.combine .and (anchors ++ parts.conditions))).filter (!·.isEmpty)
  fields := parts.selected.fields
  row := row
  first? := parts.first?
  joinNames := SoupQuery.joinNames parts.joins
  orderBy := parts.orders.map (·.key)

/-- Compiles the arguments of a connection and puts them together with what its node selects, if
it has a node. All that is wrong is reported, in the order of the parts. -/
def assemble (context : Context) (row : Row) (anchors : List Predicate) (field : Field)
    (selected? : Option (Compiled Selected)) : Compiled RecordQuery :=
  let filter := whereArgument context.schema row (field.argument? "where")
  let scope := scopeArgument context.schema row context.userId (field.argument? "scope")
  let orders := orderByArgument context.schema row (field.argument? "orderBy")
  let first := firstArgument row.type (field.argument? "first")
  let selected := selected?.getD (Checked.fail (.noNode field.responseKey row.type))
  (Checked.zip filter (Checked.zip scope (Checked.zip orders (Checked.zip first selected)))).map
    fun (filter, scope, orders, first, selected) =>
      Parts.toQuery ⟨filter, scope, orders, first, selected⟩ row anchors

/-! ## Values of a record -/

/-- The result of one leaf of a field. -/
def leaf? (row : Row) (path apiName : String) :
    Selection → Option (Compiled (QueryField RecordQuery))
  | .field head _ =>
    if head.name = typeNameField then none
    else some <|
      match Leaf.ofName? head.name with
      | some leaf =>
        .ok (.scalar (path ++ "." ++ head.responseKey)
          (.extract row.name (fieldPath apiName leaf)))
      | none => Checked.fail (.unknownLeaf apiName row.type head.name)
  | _ => some (Checked.fail (.fragmentOnField apiName row.type))

/-- The selection of a field that holds a value. An intrinsic field is read as it stands, every
other one by its leaves. -/
def valueSelection (row : Row) (path name apiName : String) (below : List Selection) :
    Compiled Selected :=
  if isIntrinsic apiName then
    if below.isEmpty then .ok ⟨[.scalar path (fieldValue row apiName)], []⟩
    else Checked.fail (.intrinsicWithSelection name row.type)
  else if below.isEmpty then Checked.fail (.noLeaves apiName row.type)
  else
    (Checked.partition (below.filterMap (leaf? row path apiName))).map fun fields => ⟨fields, []⟩

/-! ## Selections of a record -/

/-- The anchors of a child row: it refers to its parent, and it has the type of a child. -/
def childAnchors (row : Row) (relationship : ChildRelationship) : List Predicate :=
  [.refersTo (row.children relationship).name row.name relationship.fieldName,
   .hasType (row.children relationship).name relationship.child]

def gatherSelected (parts : List (Compiled Selected)) : Compiled Selected :=
  (Checked.partition parts).map Selected.merge

mutual

/-- One selection on a record, whose result stands at `path`. -/
def selection (context : Context) (row : Row) (path : String) :
    Selection → Option (Compiled Selected)
  | .field head below =>
    if head.name = typeNameField then none
    else some <|
      match context.schema.member? row.type head.name with
      | some (.record reference) =>
        if ¬ context.schema.knows reference.target then
          Checked.fail (.missingObjectInfo reference.target)
        else if below.isEmpty then Checked.fail (.noSubfields head.name row.type)
        else
          (gatherSelected (selections context (row.join reference).row
            (path ++ "." ++ head.responseKey) below)).map (Selected.through (row.join reference))
      | some (.value field) =>
        valueSelection row (path ++ "." ++ head.responseKey) head.name field.apiName below
      | none =>
        match context.schema.child? row.type head.name with
        | some relationship =>
          if context.schema.knows relationship.child then
            (assemble context (row.children relationship) (childAnchors row relationship) head
              (underEdges context (row.children relationship) below)).map fun connection =>
                ⟨[.child (path ++ "." ++ head.responseKey ++ ".edges") connection], []⟩
          else Checked.fail (.missingObjectInfo relationship.child)
        | none => Checked.fail (.unknownField head.name row.type)
  | _ => some (Checked.fail (.fragmentInSelections row.type))

def selections (context : Context) (row : Row) (path : String) :
    List Selection → List (Compiled Selected)
  | [] => []
  | first :: rest =>
    (selection context row path first).toList ++ selections context row path rest

/-- What a connection selects under its first field `edges`. -/
def underEdges (context : Context) (row : Row) : List Selection → Option (Compiled Selected)
  | [] => none
  | .field head below :: rest =>
    if head.name = "edges" then underNode context row below else underEdges context row rest
  | _ :: rest => underEdges context row rest

/-- What an edge selects under its first field `node`. -/
def underNode (context : Context) (row : Row) : List Selection → Option (Compiled Selected)
  | [] => none
  | .field head below :: rest =>
    if head.name = "node" then some (gatherSelected (selections context row "node" below))
    else underNode context row rest
  | _ :: rest => underNode context row rest

end

/-- The query of a connection that reads records through `row`, bound by the anchors. -/
def recordQuery (context : Context) (row : Row) (anchors : List Predicate) (field : Field)
    (below : List Selection) : Compiled RecordQuery :=
  assemble context row anchors field (underEdges context row below)

end SoupQuery.Compile
