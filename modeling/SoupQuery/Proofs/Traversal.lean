import SoupQuery.Proofs.RelationshipPaths

/-!
# Selections are flattened in order

A query returns a flat list of fields for the nested selections on its records. Three names run in
parallel down the selections: response keys make the path of a result, names of relationships make
the name of the row that it is read from, and names of fields make the path in the stored record.

* `Stop`, `stopsOf?` — the traversal of the selections on a record, in order, along references; it
  goes past nothing but requests for the type name.
* `Gives` — the field that a stop stands for.
* `Selects.gives` — what selections compile to are the fields of their stops, one by one.
* `transform_fields` — **the fields of every query are those of the stops of its node**, at any
  depth.
-/

namespace SoupQuery.Compile

open SoupQuery.GraphQL

/-! ## Traversals -/

/-- What a path of selections ends at. -/
inductive Landing where
  /-- A leaf of a field. -/
  | leaf (head : Field) (info : FieldInfo) (leafHead : Field) (leaf : Leaf)
  /-- A field that is read as it stands. -/
  | bare (head : Field) (info : FieldInfo)
  /-- A connection to the children of a record. -/
  | connection (head : Field) (below : List Selection) (relationship : ChildRelationship)

/-- A stop of a traversal: the fields that lead there, with the references that they follow, and
what the path ends at. -/
structure Stop where
  spanned : List (Field × Reference)
  landing : Landing

/-- The stop seen from the record that a field with a reference stands on. -/
def Stop.along (head : Field) (reference : Reference) (stop : Stop) : Stop :=
  ⟨(head, reference) :: stop.spanned, stop.landing⟩

/-- The leaves of a field, in order; nothing else may stand there but requests for the type name. -/
def leavesOf? : List Selection → Option (List (Field × Leaf))
  | [] => some []
  | .field head _ :: rest =>
    if head.name = typeNameField then leavesOf? rest
    else (Leaf.ofName? head.name).bind fun leaf => (leavesOf? rest).map ((head, leaf) :: ·)
  | _ :: _ => none

/-- The stops at a field that holds a value: the field as it stands, or its leaves. -/
def valueStops? (head : Field) (info : FieldInfo) (below : List Selection) : Option (List Stop) :=
  if isIntrinsic info.apiName then if below.isEmpty then some [⟨[], .bare head info⟩] else none
  else (leavesOf? below).map fun leaves =>
    leaves.map fun entry => ⟨[], .leaf head info entry.1 entry.2⟩

mutual

/-- The stops at one selection on a record of a type, in order. -/
def stopsAt? (schema : Schema) (type : String) : Selection → Option (List Stop)
  | .field head below =>
    if head.name = typeNameField then some []
    else match schema.member? type head.name with
      | some (.record reference) =>
        (stopsOf? schema reference.target below).map fun stops =>
          stops.map (Stop.along head reference)
      | some (.value info) => valueStops? head info below
      | none =>
        (schema.child? type head.name).map fun relationship =>
          [⟨[], .connection head below relationship⟩]
  | _ => none

/-- The stops of a traversal of the selections on a record of a type, in order. -/
def stopsOf? (schema : Schema) (type : String) : List Selection → Option (List Stop)
  | [] => some []
  | first :: rest =>
    (stopsAt? schema type first).bind fun stops =>
      (stopsOf? schema type rest).map fun others => stops ++ others

end

/-! ## The field of a stop -/

namespace Stop

/-- The response keys of the fields that lead to a stop. -/
def keys (stop : Stop) : List String := stop.spanned.map fun step => step.1.responseKey

/-- The names of the relationships that lead to a stop. -/
def names (stop : Stop) : List String := stop.spanned.map fun step => step.2.relationshipName

/-- The row of the record that a stop is on, seen from a row. -/
def row (stop : Stop) (start : Row) : Row :=
  stop.spanned.foldl (fun row step => (row.join step.2).row) start

end Stop

/-- The field that a stop stands for, in a query that reads records through `row` and puts results
under `path`. A value is put where the response keys lead and read from the row that the
relationships lead to; a connection is compiled for a row of its own, one relationship further. -/
inductive Gives (context : Context) (row : Row) (path : String) :
    Stop → QueryField RecordQuery → Prop
  | leaf {stop head info leafHead leaf} : stop.landing = .leaf head info leafHead leaf →
      Gives context row path stop
        (.scalar (dotted path (stop.keys ++ [head.responseKey, leafHead.responseKey]))
          (.extract (dotted row.name stop.names) (fieldPath info.apiName leaf)))
  | bare {stop head info} : stop.landing = .bare head info →
      Gives context row path stop
        (.scalar (dotted path (stop.keys ++ [head.responseKey]))
          (.extract (dotted row.name stop.names) (fieldPath info.apiName .value)))
  | connection {stop head below relationship connection} :
      stop.landing = .connection head below relationship →
      connection.row.name = dotted row.name (stop.names ++ [relationship.relationshipName]) →
      recordQuery context connection.row (childAnchors (stop.row row) relationship) head below =
        .ok connection →
      Gives context row path stop
        (.child (dotted path (stop.keys ++ [head.responseKey, "edges"])) connection)

variable {context : Context} {document : Document} {row : Row} {path : String}

/-- What a stop gives on the record of a joined row, it gives on the record that refers to it. -/
theorem Gives.along {head : Field} {reference : Reference} {stop : Stop}
    {field : QueryField RecordQuery}
    (h : Gives context (row.join reference).row (path ++ "." ++ head.responseKey) stop field) :
    Gives context row path (stop.along head reference) field := by
  cases h with
  | leaf hlanding => exact .leaf hlanding
  | bare hlanding => exact .bare hlanding
  | connection hlanding hrow hquery => exact .connection hlanding hrow hquery

/-! ## Values -/

/-- The fields of leaves. -/
theorem leavesOf?_of_leaf? {apiName : String} : ∀ {below : List Selection}
    {fields : List (QueryField RecordQuery)},
    below.filterMap (leaf? row path apiName) = fields.map .ok →
      ∃ leaves, leavesOf? below = some leaves ∧ fields = leaves.map fun entry =>
        .scalar (path ++ "." ++ entry.1.responseKey) (.extract row.name (fieldPath apiName entry.2))
  | [], fields, h => ⟨[], rfl, List.map_eq_nil_iff.1 h.symm⟩
  | .field head _ :: rest, fields, h => by
    by_cases hname : head.name = typeNameField
    · rw [List.filterMap_cons_none (by rw [leaf?, if_pos hname])] at h
      obtain ⟨leaves, hleaves, hfields⟩ := leavesOf?_of_leaf? h
      exact ⟨leaves, by rw [leavesOf?, if_pos hname, hleaves], hfields⟩
    · rw [List.filterMap_cons_some (by rw [leaf?, if_neg hname])] at h
      cases fields with
      | nil => cases h
      | cons field fields =>
        obtain ⟨hfield, htail⟩ := List.cons.inj h
        obtain ⟨leaves, hleaves, rfl⟩ := leavesOf?_of_leaf? htail
        split at hfield
        · rename_i leaf hleaf
          cases hfield
          refine ⟨(head, leaf) :: leaves, ?_, rfl⟩
          rw [leavesOf?, if_neg hname, hleaf, hleaves]
          rfl
        · cases hfield
  | .fragmentSpread _ :: _, fields, h => by cases fields <;> cases h
  | .inlineFragment _ _ :: _, fields, h => by cases fields <;> cases h

/-- The fields of a value. -/
theorem valueSelection_gives {head : Field} {info : FieldInfo} {below : List Selection}
    {selected : Selected}
    (h : valueSelection row (path ++ "." ++ head.responseKey) head.name info.apiName below =
      .ok selected) :
    ∃ stops, valueStops? head info below = some stops ∧
      List.Forall₂ (Gives context row path) stops selected.fields := by
  rcases valueSelection_cases h with ⟨hintrinsic, rfl, rfl⟩ | ⟨hintrinsic, fields, hfields, rfl⟩
  · refine ⟨[⟨[], .bare head info⟩], ?_, .cons (.bare rfl) .nil⟩
    rw [valueStops?, if_pos hintrinsic]
    rfl
  · obtain ⟨leaves, hleaves, rfl⟩ := leavesOf?_of_leaf? hfields
    refine ⟨leaves.map fun entry => ⟨[], .leaf head info entry.1 entry.2⟩, ?_, ?_⟩
    · rw [valueStops?, hintrinsic, hleaves]
      rfl
    · rw [List.forall₂_map_left_iff, List.forall₂_map_right_iff]
      exact List.forall₂_same.2 fun entry _ => .leaf rfl

/-! ## Selections -/

/-- **What selections compile to are the fields of their stops**, one by one and in order. -/
theorem Selects.gives {below : List Selection} {selected : Selected}
    (h : Selects context row path below selected) :
    ∃ stops, stopsOf? context.schema row.type below = some stops ∧
      List.Forall₂ (Gives context row path) stops selected.fields := by
  induction h with
  | nil => exact ⟨[], rfl, .nil⟩
  | typeName hname _ ih =>
    obtain ⟨stops, hstops, hgives⟩ := ih
    refine ⟨stops, ?_, hgives⟩
    rw [stopsOf?, stopsAt?, if_pos hname, hstops]
    rfl
  | value hname hmember hvalue _ ih =>
    obtain ⟨others, hothers, hgives⟩ := ih
    obtain ⟨stops, hstops, hfirst⟩ := valueSelection_gives hvalue
    refine ⟨stops ++ others, ?_, List.rel_append hfirst hgives⟩
    simp only [stopsOf?, stopsAt?, if_neg hname, hmember, hstops, hothers]
    rfl
  | @record row path head below rest reference inner selected hname hmember _ _ _ ihinner ih =>
    obtain ⟨others, hothers, hgives⟩ := ih
    obtain ⟨stops, hstops, hinner⟩ := ihinner
    -- the type of the joined row is the target of the reference
    have hstops : stopsOf? context.schema reference.target below = some stops := hstops
    refine ⟨stops.map (Stop.along head reference) ++ others, ?_, List.rel_append ?_ hgives⟩
    · simp only [stopsOf?, stopsAt?, if_neg hname, hmember, hstops, hothers]
      rfl
    · rw [List.forall₂_map_left_iff]
      exact hinner.imp fun _ _ => Gives.along
  | @child row path head below rest relationship connection selected hname hmember hchild hquery _
      ih =>
    obtain ⟨others, hothers, hgives⟩ := ih
    refine ⟨⟨[], .connection head below relationship⟩ :: others, ?_, .cons ?_ hgives⟩
    · simp only [stopsOf?, stopsAt?, if_neg hname, hmember, hchild, hothers]
      rfl
    · obtain ⟨parts, -, rfl⟩ := recordQuery_ok hquery
      rw [append_edges]
      exact .connection rfl rfl hquery

/-- **The fields of every query are those of the stops of its node**, at any depth. -/
theorem transform_fields {queries enclosing : List RecordQuery} {query : RecordQuery}
    (h : transform context document = .ok queries) (hquery : Occurs queries enclosing query) :
    ∃ origin head below node stops,
      Connection context.schema document origin head below ∧
      recordQuery context (origin.row head) (origin.anchors head) head below = .ok query ∧
      nodeOf? below = some node ∧ stopsOf? context.schema query.row.type node = some stops ∧
      List.Forall₂ (Gives context query.row "node") stops query.fields := by
  obtain ⟨origin, head, below, hconnection, hok, -⟩ := connection_of_occurs h hquery
  obtain ⟨parts, hparts, rfl⟩ := recordQuery_ok hok
  obtain ⟨node, hnode, hselects⟩ := hparts.selected
  obtain ⟨stops, hstops, hgives⟩ := hselects.gives
  exact ⟨origin, head, below, node, stops, hconnection, hok, hnode, hstops, hgives⟩

/-! ## A document with other response keys

The appointments with the names of their owners, and the visits to those. Every field but the leaf
`value` has a response key of its own. -/

/-- The connection to the visits of an owner. -/
def seenField : Field := ⟨some "seen", "Visits", []⟩

/-- The selections on an appointment. -/
def mineNode : List Selection :=
  [.field ⟨none, "__typename", []⟩ [],
   .field ⟨some "key", "Id", []⟩ [],
   .field ⟨some "by", "Owner", []⟩
    [.field ⟨some "who", "Name", []⟩
      [.field ⟨some "shown", "displayValue", []⟩ [],
       .field ⟨none, "__typename", []⟩ [],
       .field ⟨none, "value", []⟩ []],
     .field seenField (edgesNode [.field ⟨none, "Id", []⟩ []])]]

def mineDocument : Document :=
  [.operation .query [.field ⟨none, "uiapi", []⟩ [.field ⟨none, "query", []⟩
    [.field ⟨some "mine", "ServiceAppointment", []⟩ (edgesNode mineNode)]]]]

def seenQuery : RecordQuery where
  predicate? := some (.compound .and
    [.refersTo "mine.Owner.Visits" "mine.Owner" "VisitorId", .hasType "mine.Owner.Visits" "Visit"])
  fields := [.scalar "node.Id" (.extract "mine.Owner.Visits" "data.id")]
  row := ⟨"mine.Owner.Visits", "Visit"⟩
  first? := none
  joinNames := []
  orderBy := []

def mineQuery : RecordQuery where
  predicate? := some (.compound .and
    [.hasType "mine" "ServiceAppointment", .refersTo "mine" "mine.Owner" "OwnerId",
     .hasType "mine.Owner" "User"])
  fields :=
    [.scalar "node.key" (.extract "mine" "data.id"),
     .scalar "node.by.who.shown" (.extract "mine.Owner" "data.fields.Name.displayValue"),
     .scalar "node.by.who.value" (.extract "mine.Owner" "data.fields.Name.value"),
     .child "node.by.seen.edges" seenQuery]
  row := ⟨"mine", "ServiceAppointment"⟩
  first? := none
  joinNames := ["mine.Owner"]
  orderBy := []

/-- The fields of the appointments. -/
theorem mineQuery_fields :
    transform jobsContext mineDocument = .ok [mineQuery] ∧
    ∃ origin head below node stops,
      Connection jobsContext.schema mineDocument origin head below ∧
      recordQuery jobsContext (origin.row head) (origin.anchors head) head below =
        .ok mineQuery ∧
      nodeOf? below = some node ∧
      stopsOf? jobsContext.schema "ServiceAppointment" node = some stops ∧
      List.Forall₂ (Gives jobsContext ⟨"mine", "ServiceAppointment"⟩ "node") stops
        mineQuery.fields :=
  ⟨rfl, transform_fields rfl (.root (List.mem_singleton.2 rfl))⟩

end SoupQuery.Compile
