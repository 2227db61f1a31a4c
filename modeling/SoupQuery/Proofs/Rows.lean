import SoupQuery.Proofs.Joins
import SoupQuery.Proofs.Names

/-!
# A name stands for one row of one type

Inside a connection, rows are named by the dotted path that leads to them. References and child
relationships share these paths, and filters, orders, selections and child connections all extend
them. But what a name leads to on a record of a type depends on the two alone, so a path determines
how many child connections it enters and which type it ends at.

* `Schema.step?`, `Schema.trail?` — what a name and a list of names lead to.
* `Row.At` — a row is reached by a trail, which its name spells out.
* `Row.At.unique` — **the name of a row determines its depth and its type.**
* `Layered` — the rows of nested queries lie at different depths.
* `IsRow` — the rows of a connection.
* `AssertsType` — the type of a row is asserted, in a connection or in one inside it.
* `transform_rows` — nested queries share no name of a row, and each name has one type.
-/

namespace SoupQuery

/-! ## Trails -/

/-- What a name leads to on a record of a type: a reference stays at the same depth, and a child
relationship goes one connection deeper. -/
def Schema.step? (schema : Schema) (place : Nat × String) (name : String) : Option (Nat × String) :=
  match schema.member? place.2 name with
  | some (.record reference) => some (place.1, reference.target)
  | some (.value _) => none
  | none => (schema.child? place.2 name).map fun relationship => (place.1 + 1, relationship.child)

/-- The depth and the type that names lead to from a record of a type. -/
def Schema.trail? (schema : Schema) (type : String) (names : List String) : Option (Nat × String) :=
  names.foldlM schema.step? (0, type)

/-- The row is reached from the root by a trail that its name spells out. -/
def Row.At (schema : Schema) (root : Row) (depth : Nat) (row : Row) : Prop :=
  ∃ names : List String, segments row.name = segments root.name ++ names.map String.toList ∧
    schema.trail? root.type names = some (depth, row.type)

variable {schema : Schema} {root row : Row} {depth : Nat}

theorem Schema.trail?_snoc (schema : Schema) (type : String) (names : List String)
    (name : String) : schema.trail? type (names ++ [name]) =
      (schema.trail? type names).bind fun place => schema.step? place name := by
  simp [Schema.trail?, List.foldlM_append]

theorem Row.at_self (schema : Schema) (root : Row) : Row.At schema root 0 root :=
  ⟨[], (List.append_nil _).symm, rfl⟩

theorem Row.At.along {depth' : Nat} {name type : String} (h : Row.At schema root depth row)
    (hstep : schema.step? (depth, row.type) name = some (depth', type)) (hname : Dotless name) :
    Row.At schema root depth' (row.along name type) := by
  obtain ⟨names, hsegments, htrail⟩ := h
  refine ⟨names ++ [name], ?_, ?_⟩
  · rw [Row.along, segments_key hname, hsegments, List.map_append, List.append_assoc]
    rfl
  · rw [Schema.trail?_snoc, htrail]
    exact hstep

/-- A reference leads to a row at the same depth. -/
theorem Row.At.join {name : String} {reference : Reference} (h : Row.At schema root depth row)
    (hmember : schema.member? row.type name = some (.record reference)) (hname : Dotless name) :
    Row.At schema root depth (row.join reference).row := by
  rw [Row.join, Compile.relationshipName_of_member? hmember]
  exact h.along (by rw [Schema.step?, hmember]) hname

theorem relationshipName_of_child? {type name : String} {relationship : ChildRelationship}
    (h : schema.child? type name = some relationship) : relationship.relationshipName = name := by
  obtain ⟨info, -, hfind⟩ := Option.bind_eq_some_iff.1 h
  simpa using List.find?_some hfind

/-- A child relationship leads to a row one connection deeper. -/
theorem Row.At.children {name : String} {relationship : ChildRelationship}
    (h : Row.At schema root depth row) (hmember : schema.member? row.type name = none)
    (hchild : schema.child? row.type name = some relationship) (hname : Dotless name) :
    Row.At schema root (depth + 1) (row.children relationship) := by
  rw [Row.children, relationshipName_of_child? hchild]
  exact h.along (by rw [Schema.step?, hmember, hchild]; rfl) hname

/-- **The name of a row determines its depth and its type.** -/
theorem Row.At.unique {row' : Row} {depth' : Nat} (h : Row.At schema root depth row)
    (h' : Row.At schema root depth' row') (hname : row.name = row'.name) :
    depth = depth' ∧ row.type = row'.type := by
  obtain ⟨names, hsegments, htrail⟩ := h
  obtain ⟨names', hsegments', htrail'⟩ := h'
  -- both names start with that of the root, so the rest is the same trail
  have hnames : names = names' := by
    rw [hname, hsegments'] at hsegments
    exact List.map_injective_iff.2 (fun _ _ => String.toList_inj.1)
      (List.append_cancel_left hsegments).symm
  rw [hnames, htrail'] at htrail
  simpa [eq_comm] using htrail

/-! ## Nested queries -/

/-- The rows of each query lie as deep as there are queries around it. -/
def Layered (schema : Schema) (root : Row) : List RecordQuery → Prop
  | [] => True
  | query :: enclosing =>
    (∀ name ∈ query.rowNames, ∃ type, Row.At schema root enclosing.length ⟨name, type⟩) ∧
      Layered schema root enclosing

theorem Layered.exists_depth {outer : RecordQuery} : ∀ {queries : List RecordQuery},
    Layered schema root queries → outer ∈ queries → ∃ depth < queries.length,
      ∀ name ∈ outer.rowNames, ∃ type, Row.At schema root depth ⟨name, type⟩
  | query :: enclosing, h, hmem => by
    rcases List.mem_cons.1 hmem with rfl | hmem
    · exact ⟨enclosing.length, Nat.lt_succ_self _, h.1⟩
    · obtain ⟨depth, hdepth, hrows⟩ := h.2.exists_depth hmem
      exact ⟨depth, Nat.lt_succ_of_lt hdepth, hrows⟩

/-- Queries whose rows lie at different depths share no name of a row. -/
theorem Layered.pairwise_disjoint : ∀ {queries : List RecordQuery}, Layered schema root queries →
    queries.Pairwise fun inner outer => inner.rowNames.Disjoint outer.rowNames
  | [], _ => .nil
  | query :: enclosing, h => by
    refine .cons (fun outer houter name hname hname' => ?_) h.2.pairwise_disjoint
    obtain ⟨depth, hdepth, hrows⟩ := h.2.exists_depth houter
    obtain ⟨type, hat⟩ := h.1 name hname
    obtain ⟨type', hat'⟩ := hrows name hname'
    have hsame := (hat.unique hat' rfl).1
    omega

end SoupQuery

namespace SoupQuery.Compile

open SoupQuery.GraphQL

variable {schema : Schema} {context : Context} {document : Document} {root row : Row} {depth : Nat}

/-! ## Rows that are joined -/

theorem EntrySpans.at_join {key : String} {value : Value} {parent : Row} {reference : Reference}
    (h : EntrySpans schema row key value parent reference) :
    Row.At schema root depth row → (∀ name ∈ key :: value.keys, Dotless name) →
      Row.At schema root depth (parent.join reference).row := by
  induction h with
  | here _ hmember =>
    intro hat hnames
    exact hat.join hmember (hnames _ (List.mem_cons_self ..))
  | along _ hmember hentry _ ih =>
    intro hat hnames
    refine ih (hat.join hmember (hnames _ (List.mem_cons_self ..))) fun name hname => ?_
    exact hnames name (List.mem_cons_of_mem _ (entry_keys_subset hentry hname))
  | connective _ hitem hentry _ ih =>
    intro hat hnames
    refine ih hat fun name hname => ?_
    have hinside := keys_subset_of_mem hitem (entry_keys_subset hentry hname)
    exact hnames name (List.mem_cons_of_mem _ hinside)
  | negation _ hentry _ ih =>
    intro hat hnames
    refine ih hat fun name hname => ?_
    exact hnames name (List.mem_cons_of_mem _ (entry_keys_subset hentry hname))

theorem OrderSpans.at_join {entries : List (String × Value)} {parent : Row}
    {reference : Reference} (h : OrderSpans schema row entries parent reference) :
    Row.At schema root depth row → (∀ name ∈ entryKeys entries, Dotless name) →
      Row.At schema root depth (parent.join reference).row := by
  induction h with
  | here hmember =>
    intro hat hnames
    exact hat.join hmember (hnames _ (List.mem_cons_self ..))
  | @along row name inside reference parent next hmember _ ih =>
    intro hat hnames
    have hentry : name :: (Value.object inside).keys ⊆ entryKeys [(name, .object inside)] :=
      entry_keys_subset (List.mem_singleton_self (name, Value.object inside))
    refine ih (hat.join hmember (hnames _ (List.mem_cons_self ..))) fun name hname => ?_
    exact hnames name (hentry (List.mem_cons_of_mem _ hname))

/-- The keys of the objects of an order are keys of the argument. -/
theorem entryKeys_subset_of_orderObjects {value? : Option Value}
    {entries : List (String × Value)} (h : entries ∈ orderObjects value?) :
    ∃ value, value? = some value ∧ entryKeys entries ⊆ value.keys := by
  unfold orderObjects at h
  split at h
  · rw [List.mem_singleton.1 h]
    exact ⟨_, rfl, fun _ hkey => hkey⟩
  · obtain ⟨item, hitem, hentries⟩ := List.mem_filterMap.1 h
    split at hentries
    · cases hentries
      exact ⟨_, rfl, fun _ hkey => keys_subset_of_mem hitem hkey⟩
    · cases hentries
  · cases h

theorem Reaches.at_parent {below : List Selection} {parent : Row} {s : Selection}
    (hnames : ∀ name ∈ document.names, Dotless name) (h : Reaches schema row below parent s) :
    Row.At schema root depth row → below ∈ document.selectionSets →
      Row.At schema root depth parent := by
  induction h with
  | here _ => intro hat _; exact hat
  | along hmem _ hmember _ ih =>
    intro hat hbelow
    have hholds : document.Holds _ _ := ⟨_, hbelow, hmem⟩
    exact ih (hat.join hmember (hnames _ hholds.name_mem)) hholds.below_mem

/-- **A connection joins rows at its own depth.** -/
theorem Spans.at_join {field : Field} {below : List Selection} {parent : Row}
    {reference : Reference} (hnames : ∀ name ∈ document.names, Dotless name)
    (hholds : document.Holds field below) (hat : Row.At schema root depth row)
    (h : Spans schema row field below parent reference) :
    Row.At schema root depth (parent.join reference).row := by
  cases h with
  | filter hvalue hspans =>
    obtain ⟨entry, hentry, hspans⟩ := hspans
    refine hspans.at_join hat fun name hname => hnames name ?_
    exact hholds.keys_subset hvalue (entry_keys_subset hentry hname)
  | order hentries hspans =>
    obtain ⟨value, hvalue, hsubset⟩ := entryKeys_subset_of_orderObjects hentries
    exact hspans.at_join hat fun name hname =>
      hnames name (hholds.keys_subset hvalue (hsubset hname))
  | selection hnode hspans =>
    obtain ⟨head, inside, hreach, -, hmember⟩ := hspans
    have hsets := nodeOf?_mem hnode hholds.below_mem
    have hhead : document.Holds head inside := hreach.holds rfl hsets
    exact (hreach.at_parent hnames hat hsets).join hmember (hnames _ hhead.name_mem)

/-! ## Connections -/

theorem Nested.at_row {origin origin' : Origin} {outer head : Field}
    {around below : List Selection} (hnames : ∀ name ∈ document.names, Dotless name)
    (houter : Connection schema document origin outer around)
    (h : Nested schema origin outer around depth origin' head below) :
    Row.At schema (origin.row outer) depth (origin'.row head) := by
  induction h with
  | self => exact Row.at_self schema _
  | child hnested hnode hreach hchild ih =>
    have hsets := nodeOf?_mem hnode (hnested.connection houter).holds.below_mem
    have hhead : document.Holds _ _ := hreach.holds rfl hsets
    exact (hreach.at_parent hnames ih hsets).children hchild.not_member hchild.child
      (hnames _ hhead.name_mem)

/-- The rows of a connection: the one through which it reads its records, and those that its filter,
its order and the selections of its node lead to. -/
inductive IsRow (schema : Schema) (origin : Origin) (head : Field) (below : List Selection) :
    Row → Prop
  | own : IsRow schema origin head below (origin.row head)
  | joined {parent reference} : Spans schema (origin.row head) head below parent reference →
      IsRow schema origin head below (parent.join reference).row

variable {origin origin' : Origin} {outer head : Field} {around below : List Selection}
  {query : RecordQuery}

/-- The rows of a connection lie at its own depth. -/
theorem IsRow.at_depth (hnames : ∀ name ∈ document.names, Dotless name)
    (houter : Connection schema document origin outer around)
    (hnested : Nested schema origin outer around depth origin' head below)
    (h : IsRow schema origin' head below row) : Row.At schema (origin.row outer) depth row := by
  have hat := hnested.at_row hnames houter
  cases h with
  | own => exact hat
  | joined hspans => exact hspans.at_join hnames (hnested.connection houter).holds hat

theorem exists_isRow_of_mem_rowNames
    (h : recordQuery context (origin.row head) (origin.anchors head) head below = .ok query)
    {name : String} (hname : name ∈ query.rowNames) :
    ∃ type, IsRow context.schema origin head below ⟨name, type⟩ := by
  rcases List.mem_cons.1 hname with rfl | hname
  · rw [(recordQuery_anchored h).1]
    exact ⟨_, .own⟩
  · obtain ⟨parent, reference, hspans, rfl⟩ := ((recordQuery_joinClosed h).mem_iff name).1 hname
    exact ⟨_, .joined hspans⟩

/-- Each row of a connection is named by its query, which asserts the type at the top. -/
theorem IsRow.asserted
    (h : recordQuery context (origin.row head) (origin.anchors head) head below = .ok query)
    (hrow : IsRow context.schema origin head below row) : row.name ∈ query.rowNames ∧
      ∃ predicate, query.predicate? = some predicate ∧
        predicate.HasConjunct (.hasType row.name row.type) := by
  obtain ⟨hown, predicate, hpredicate, hanchors⟩ := recordQuery_anchored h
  have hclosed := recordQuery_joinClosed h
  cases hrow with
  | own =>
    rw [← hown]
    exact ⟨List.mem_cons_self .., predicate, hpredicate, hanchors _ .type⟩
  | joined hspans =>
    obtain ⟨operands, hcompound, -, htype⟩ := hclosed.bound _ _ hspans
    exact ⟨List.mem_cons_of_mem _ ((hclosed.mem_iff _).2 ⟨_, _, hspans, rfl⟩),
      _, hcompound, .inr ⟨operands, rfl, htype⟩⟩

/-! ## The types that are asserted -/

theorem hasType_mem_anchors_iff :
    .hasType row.name row.type ∈ origin.anchors head ↔ row = origin.row head := by
  obtain ⟨name, type⟩ := row
  cases origin <;> simp [Origin.anchors, Origin.row, childAnchors, Predicate.hasType,
    Predicate.refersTo, Row.children, Row.along]

theorem hasType_mem_conditions_iff {join : Join} :
    .hasType row.name row.type ∈ join.conditions ↔ row = join.row := by
  obtain ⟨name, type⟩ := row
  obtain ⟨source, foreignKey, target, targetType⟩ := join
  simp [Join.mem_conditions, Predicate.hasType, Predicate.refersTo]

/-- The type of the row is asserted in the connection or in one inside it: by an anchor, or by a
join of its filter, of its order or of its selections. -/
def AssertsType (context : Context) (origin : Origin) (outer : Field) (around : List Selection)
    (row : Row) : Prop :=
  ∃ depth origin' head below parts,
    Nested context.schema origin outer around depth origin' head below ∧
    Parts.Of context (origin'.row head) head below parts ∧
    .hasType row.name row.type ∈ origin'.anchors head ++ parts.joins.flatMap Join.conditions

/-- **The types that are asserted are those of the rows.** -/
theorem mem_asserted_iff {parts : Parts} (h : parts.Of context (origin.row head) head below) :
    .hasType row.name row.type ∈ origin.anchors head ++ parts.joins.flatMap Join.conditions ↔
      IsRow context.schema origin head below row := by
  rw [List.mem_append, hasType_mem_anchors_iff, List.mem_flatMap]
  constructor
  · rintro (hown | ⟨join, hjoin, htype⟩)
    · exact hown ▸ .own
    · obtain ⟨parent, reference, hspans, rfl⟩ := (h.joinsAlong join).1 hjoin
      rw [hasType_mem_conditions_iff.1 htype]
      exact .joined hspans
  · intro hrow
    cases hrow with
    | own => exact .inl rfl
    | joined hspans =>
      exact .inr ⟨_, (h.joinsAlong _).2 ⟨_, _, hspans, rfl⟩, hasType_mem_conditions_iff.2 rfl⟩

theorem assertsType_of_isRow
    (hnested : Nested context.schema origin outer around depth origin' head below)
    (h : recordQuery context (origin'.row head) (origin'.anchors head) head below = .ok query)
    (hrow : IsRow context.schema origin' head below row) :
    AssertsType context origin outer around row := by
  obtain ⟨parts, hparts, -⟩ := recordQuery_ok h
  exact ⟨depth, origin', head, below, parts, hnested, hparts, (mem_asserted_iff hparts).2 hrow⟩

/-- What is promised of the rows of a connection and of those inside it, which the queries in `root`
stand for. -/
structure OneType (context : Context) (origin : Origin) (outer : Field) (around : List Selection)
    (root : RecordQuery) : Prop where
  /-- Every name of a row has a type. -/
  exists_type : ∀ enclosing query, Occurs [root] enclosing query → ∀ name ∈ query.rowNames,
    ∃ type, AssertsType context origin outer around ⟨name, type⟩
  /-- Every type that is asserted stands at the top of the condition of a query with that row. -/
  stands : ∀ row, AssertsType context origin outer around row →
    ∃ enclosing query predicate, Occurs [root] enclosing query ∧ row.name ∈ query.rowNames ∧
      query.predicate? = some predicate ∧ predicate.HasConjunct (.hasType row.name row.type)
  /-- No name has two types. -/
  unique : ∀ row row', AssertsType context origin outer around row →
    AssertsType context origin outer around row' → row.name = row'.name → row.type = row'.type

/-- **The names of rows in a connection have one type each.** -/
theorem oneType_of_connection {root : RecordQuery}
    (hnames : ∀ name ∈ document.names, Dotless name)
    (houter : Connection context.schema document origin outer around)
    (hroot : recordQuery context (origin.row outer) (origin.anchors outer) outer around =
      .ok root) : OneType context origin outer around root where
  exists_type enclosing query hoccurs name hname := by
    obtain ⟨origin', head, below, hnested, hok, -⟩ := nested_of_occurs hroot hoccurs
    obtain ⟨type, hrow⟩ := exists_isRow_of_mem_rowNames hok hname
    exact ⟨type, assertsType_of_isRow hnested hok hrow⟩
  stands row hasserts := by
    obtain ⟨depth, origin', head, below, parts, hnested, hparts, htype⟩ := hasserts
    obtain ⟨enclosing, query, hoccurs, hok⟩ := occurs_of_nested hroot hnested
    obtain ⟨hname, predicate, hpredicate, hconjunct⟩ :=
      ((mem_asserted_iff hparts).1 htype).asserted hok
    exact ⟨enclosing, query, predicate, hoccurs, hname, hpredicate, hconjunct⟩
  unique row row' hasserts hasserts' hname := by
    obtain ⟨_, _, _, _, _, hnested, hparts, htype⟩ := hasserts
    obtain ⟨_, _, _, _, _, hnested', hparts', htype'⟩ := hasserts'
    have hat := ((mem_asserted_iff hparts).1 htype).at_depth hnames houter hnested
    have hat' := ((mem_asserted_iff hparts').1 htype').at_depth hnames houter hnested'
    exact (hat.unique hat' hname).2

/-- The rows of a query in the query of a connection lie as deep as the query. -/
theorem layered_of_occurs {root : RecordQuery} (hnames : ∀ name ∈ document.names, Dotless name)
    (houter : Connection context.schema document origin outer around)
    (hroot : recordQuery context (origin.row outer) (origin.anchors outer) outer around = .ok root)
    {enclosing : List RecordQuery} (h : Occurs [root] enclosing query) :
    Layered context.schema (origin.row outer) (query :: enclosing) := by
  have hrows : ∀ {enclosing query}, Occurs [root] enclosing query → ∀ name ∈ query.rowNames,
      ∃ type, Row.At context.schema (origin.row outer) enclosing.length ⟨name, type⟩ := by
    intro enclosing query hoccurs name hname
    obtain ⟨origin', head, below, hnested, hok, -⟩ := nested_of_occurs hroot hoccurs
    obtain ⟨type, hrow⟩ := exists_isRow_of_mem_rowNames hok hname
    exact ⟨type, hrow.at_depth hnames houter hnested⟩
  induction h with
  | root hmem => exact ⟨hrows (.root hmem), trivial⟩
  | child hoccurs hfield ih => exact ⟨hrows (.child hoccurs hfield), ih⟩

/-- **A name stands for one row of one type.** Along every chain of nested queries, no two share a
name of a row. In each connection under `uiapi { query { … } }`, with the connections inside it,
every name of a row has one type. -/
theorem transform_rows {queries : List RecordQuery} (h : transform context document = .ok queries)
    (hnames : ∀ name ∈ document.names, Dotless name) :
    (∀ enclosing query, Occurs queries enclosing query →
      (query :: enclosing).Pairwise fun inner outer => inner.rowNames.Disjoint outer.rowNames) ∧
    (∀ root ∈ queries, ∃ head below, Connection context.schema document .document head below ∧
      recordQuery context (Origin.document.row head) (Origin.document.anchors head) head below =
        .ok root ∧ OneType context .document head below root) ∧
    (∀ head below, Connection context.schema document .document head below → ∃ root ∈ queries,
      recordQuery context (Origin.document.row head) (Origin.document.anchors head) head below =
        .ok root ∧ OneType context .document head below root) := by
  refine ⟨fun enclosing query hoccurs => ?_, fun root hroot => ?_, fun head below hhead => ?_⟩
  · obtain ⟨root, hroot, hinside⟩ := exists_root_of_occurs hoccurs
    obtain ⟨head, below, hhead, hok⟩ := root_of_mem h hroot
    exact (layered_of_occurs hnames hhead hok hinside).pairwise_disjoint
  · obtain ⟨head, below, hhead, hok⟩ := root_of_mem h hroot
    exact ⟨head, below, hhead, hok, oneType_of_connection hnames hhead hok⟩
  · obtain ⟨root, hroot, hok⟩ := root_of_connection h hhead
    exact ⟨root, hroot, hok, oneType_of_connection hnames hhead hok⟩

/-- The visits to an owner hang from a joined row of the appointments; the name of their row is
none of the names around it. -/
theorem visits_rows : transform jobsContext jobsDocument = .ok [jobsQuery] ∧
    (∀ name ∈ jobsDocument.names, Dotless name) ∧
    visitsQuery.rowNames.Disjoint jobsQuery.rowNames := by
  have hnames : ∀ name ∈ jobsDocument.names, Dotless name := by decide
  have hrows := (transform_rows transform_jobs hnames).1 _ _ occurs_visits
  exact ⟨transform_jobs, hnames, List.rel_of_pairwise_cons hrows (List.mem_singleton.2 rfl)⟩

end SoupQuery.Compile
