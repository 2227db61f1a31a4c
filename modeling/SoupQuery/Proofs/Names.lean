import SoupQuery.Proofs.Connection

/-!
# Names and dotted texts

The names of a document become the segments of dotted texts: the names of rows, and the paths of
results. A name has no dot, so a dotted text can be taken apart again.

* `segments` — the parts between the dots of a text; `Dotless` — a text of one part.
* `Document.selectionSets` — every selection set of a document, `Document.Holds` — every field.
* `Document.names` — the names of fields, their aliases, and the keys of the objects in their
  arguments.
* `Connection.holds` — a connection of a document is one of its fields, and so is all that it
  selects.
-/

namespace SoupQuery

/-! ## Segments -/

/-- The parts between the dots of a text. -/
def segments (text : String) : List (List Char) := text.toList.splitOn '.'

/-- The text has no dot. -/
def Dotless (text : String) : Prop := '.' ∉ text.toList

instance (text : String) : Decidable (Dotless text) := inferInstanceAs (Decidable (_ ∉ _))

theorem segments_append (first second : String) :
    segments (first ++ "." ++ second) = segments first ++ segments second := by
  have htext : (first ++ "." ++ second).toList = first.toList ++ '.' :: second.toList := by
    simp [String.toList_append]
  rw [segments, htext, List.splitOn_eq_splitOnP]
  exact List.splitOnP_append_cons _ _ (beq_self_eq_true '.')

theorem Dotless.segments_eq {text : String} (h : Dotless text) : segments text = [text.toList] :=
  List.splitOn_eq_singleton h

/-- A name adds one segment to a dotted text. -/
theorem segments_key {text name : String} (h : Dotless name) :
    segments (text ++ "." ++ name) = segments text ++ [name.toList] := by
  rw [segments_append, h.segments_eq]

end SoupQuery

namespace SoupQuery.GraphQL

/-! ## Keys of a value -/

mutual

/-- The keys of the objects in a value, at any depth. -/
def Value.keys : Value → List String
  | .list items => itemKeys items
  | .object entries => entryKeys entries
  | _ => []

/-- The keys of the objects in the items of a list. -/
def itemKeys : List Value → List String
  | [] => []
  | item :: rest => item.keys ++ itemKeys rest

/-- The keys of an object, and of the objects in its values. -/
def entryKeys : List (String × Value) → List String
  | [] => []
  | (key, value) :: rest => key :: value.keys ++ entryKeys rest

end

theorem keys_subset_of_mem {items : List Value} {item : Value} (h : item ∈ items) :
    item.keys ⊆ itemKeys items := by
  induction items with
  | nil => cases h
  | cons first rest ih =>
    intro key hkey
    rw [itemKeys, List.mem_append]
    rcases List.mem_cons.1 h with rfl | h
    · exact .inl hkey
    · exact .inr (ih h hkey)

theorem entry_keys_subset {entries : List (String × Value)} {entry : String × Value}
    (h : entry ∈ entries) : entry.1 :: entry.2.keys ⊆ entryKeys entries := by
  induction entries with
  | nil => cases h
  | cons first rest ih =>
    intro key hkey
    rw [entryKeys, List.mem_append]
    rcases List.mem_cons.1 h with rfl | h
    · exact .inl hkey
    · exact .inr (ih h hkey)

/-! ## Fields of a document -/

/-- The names at a field: its alias, its own name, and the keys of the objects in its arguments. -/
def Field.names (field : Field) : List String :=
  field.alias?.toList ++ field.name :: field.arguments.flatMap (·.2.keys)

/-- The field of a selection, unless it is a fragment. -/
def Selection.head? : Selection → Option Field
  | .field head _ => some head
  | _ => none

/-- The response keys of a selection set. -/
def responseKeys (selections : List Selection) : List String :=
  selections.filterMap fun selection => selection.head?.map Field.responseKey

mutual

/-- The selection sets in a selection, at any depth. -/
def Selection.sets : Selection → List (List Selection)
  | .field _ below => below :: setsWithin below
  | .fragmentSpread _ => []
  | .inlineFragment _ below => below :: setsWithin below

/-- The selection sets in the selections of a list. -/
def setsWithin : List Selection → List (List Selection)
  | [] => []
  | selection :: rest => selection.sets ++ setsWithin rest

end

/-- The selections of a definition. -/
def Definition.selections : Definition → List Selection
  | .operation _ selections => selections
  | .fragment _ _ selections => selections

/-- The selection sets of a document, at any depth. -/
def Document.selectionSets (document : Document) : List (List Selection) :=
  document.flatMap fun definition => definition.selections :: setsWithin definition.selections

/-- The names of the fields of a document, as far as they say what is selected. -/
def Document.names (document : Document) : List String :=
  document.selectionSets.flatMap fun set => (set.filterMap Selection.head?).flatMap Field.names

/-- The field stands in the document, with the selections below it. -/
def Document.Holds (document : Document) (head : Field) (below : List Selection) : Prop :=
  ∃ set ∈ document.selectionSets, .field head below ∈ set

theorem sets_subset_of_mem {selections : List Selection} {s : Selection} (h : s ∈ selections) :
    s.sets ⊆ setsWithin selections := by
  induction selections with
  | nil => cases h
  | cons first rest ih =>
    intro set hset
    rw [setsWithin, List.mem_append]
    rcases List.mem_cons.1 h with rfl | h
    · exact .inl hset
    · exact .inr (ih h hset)

mutual

/-- What is selected below a field of a selection set is a selection set. -/
theorem sets_closed {head : Field} {below : List Selection} : ∀ (s : Selection)
    (set : List Selection), set ∈ s.sets → .field head below ∈ set → below ∈ s.sets
  | .field _ inside, set, hset, hfield => by
    rcases List.mem_cons.1 hset with rfl | hset
    · exact List.mem_cons_of_mem _ (sets_subset_of_mem hfield (List.mem_cons_self ..))
    · exact List.mem_cons_of_mem _ (setsWithin_closed inside set hset hfield)
  | .fragmentSpread _, _, hset, _ => by cases hset
  | .inlineFragment _ inside, set, hset, hfield => by
    rcases List.mem_cons.1 hset with rfl | hset
    · exact List.mem_cons_of_mem _ (sets_subset_of_mem hfield (List.mem_cons_self ..))
    · exact List.mem_cons_of_mem _ (setsWithin_closed inside set hset hfield)

theorem setsWithin_closed {head : Field} {below : List Selection} : ∀ (selections : List Selection)
    (set : List Selection), set ∈ setsWithin selections → .field head below ∈ set →
      below ∈ setsWithin selections
  | [], _, hset, _ => by cases hset
  | s :: rest, set, hset, hfield => by
    rw [setsWithin, List.mem_append] at hset ⊢
    exact hset.imp (fun hset => sets_closed s set hset hfield)
      (fun hset => setsWithin_closed rest set hset hfield)

end

variable {document : Document} {head : Field} {below : List Selection}

theorem Document.definition_mem {definition : Definition} (h : definition ∈ document) :
    definition.selections ∈ document.selectionSets :=
  List.mem_flatMap.2 ⟨definition, h, List.mem_cons_self ..⟩

/-- What is selected below a field of a document is a selection set of the document. -/
theorem Document.Holds.below_mem (h : document.Holds head below) :
    below ∈ document.selectionSets := by
  obtain ⟨set, hset, hfield⟩ := h
  obtain ⟨definition, hdefinition, hset⟩ := List.mem_flatMap.1 hset
  refine List.mem_flatMap.2 ⟨definition, hdefinition, List.mem_cons_of_mem _ ?_⟩
  rcases List.mem_cons.1 hset with rfl | hset
  · exact sets_subset_of_mem hfield (List.mem_cons_self ..)
  · exact setsWithin_closed _ set hset hfield

theorem Document.Holds.names_subset (h : document.Holds head below) :
    head.names ⊆ document.names := by
  obtain ⟨set, hset, hfield⟩ := h
  intro name hname
  refine List.mem_flatMap.2 ⟨set, hset, List.mem_flatMap.2 ⟨head, ?_, hname⟩⟩
  exact List.mem_filterMap.2 ⟨_, hfield, rfl⟩

theorem Document.Holds.name_mem (h : document.Holds head below) : head.name ∈ document.names :=
  h.names_subset (List.mem_append_right _ (List.mem_cons_self ..))

theorem Document.Holds.responseKey_mem (h : document.Holds head below) :
    head.responseKey ∈ document.names := by
  cases halias : head.alias? with
  | none =>
    rw [Field.responseKey, halias]
    exact h.name_mem
  | some key =>
    refine h.names_subset (List.mem_append_left _ ?_)
    rw [Field.responseKey, halias]
    exact List.mem_singleton.2 rfl

/-- The response keys below a field of a document are names of the document. -/
theorem Document.Holds.responseKeys_subset (h : document.Holds head below) :
    responseKeys below ⊆ document.names := by
  intro key hkey
  obtain ⟨s, hs, hkey⟩ := List.mem_filterMap.1 hkey
  cases s with
  | field head inside =>
    cases hkey
    exact Document.Holds.responseKey_mem ⟨below, h.below_mem, hs⟩
  | _ => cases hkey

/-- The keys of an argument are names of the document. -/
theorem Document.Holds.keys_subset (h : document.Holds head below) {name : String} {value : Value}
    (hvalue : head.argument? name = some value) : value.keys ⊆ document.names := by
  obtain ⟨before, after, hsplit, -⟩ := List.lookup_eq_some_iff.1 hvalue
  intro key hkey
  refine h.names_subset (List.mem_append_right _ (List.mem_cons_of_mem _ ?_))
  refine List.mem_flatMap.2 ⟨(name, value), ?_, hkey⟩
  rw [hsplit]
  exact List.mem_append_right _ (List.mem_cons_self ..)

/-- The selections below the first field of a name are those of a field of the document. -/
theorem below?_mem {name : String} {set inner : List Selection}
    (hset : set ∈ document.selectionSets) (h : Selection.below? name set = some inner) :
    inner ∈ document.selectionSets := by
  have hfield : ∃ head, .field head inner ∈ set := by
    clear hset
    induction set with
    | nil => cases h
    | cons s rest ih =>
      cases s with
      | field head inside =>
        rw [Selection.below?] at h
        split at h
        · cases h
          exact ⟨head, List.mem_cons_self ..⟩
        · obtain ⟨other, hother⟩ := ih h
          exact ⟨other, List.mem_cons_of_mem _ hother⟩
      | _ =>
        obtain ⟨other, hother⟩ := ih h
        exact ⟨other, List.mem_cons_of_mem _ hother⟩
  obtain ⟨head, hhead⟩ := hfield
  exact Document.Holds.below_mem ⟨set, hset, hhead⟩

end SoupQuery.GraphQL

namespace SoupQuery.Compile

open SoupQuery.GraphQL

variable {schema : Schema} {document : Document} {row : Row}

/-! ## Connections of a document -/

theorem nodeOf?_mem {below node : List Selection} (h : nodeOf? below = some node)
    (hbelow : below ∈ document.selectionSets) : node ∈ document.selectionSets := by
  obtain ⟨edges, hedges, hnode⟩ := Option.bind_eq_some_iff.1 h
  exact below?_mem (below?_mem hbelow hedges) hnode

/-- The fields that selections of a document lead to stand in the document. -/
theorem Reaches.holds {below : List Selection} {parent : Row} {s : Selection}
    (h : Reaches schema row below parent s) : ∀ {head : Field} {inside : List Selection},
      s = .field head inside → below ∈ document.selectionSets → document.Holds head inside := by
  induction h with
  | here hmem =>
    rintro head inside rfl hbelow
    exact ⟨_, hbelow, hmem⟩
  | along hmem _ _ _ ih =>
    rintro head inside rfl hbelow
    exact ih rfl (Document.Holds.below_mem ⟨_, hbelow, hmem⟩)

/-- **A connection of a document is one of its fields.** -/
theorem Connection.holds {origin : Origin} {head : Field} {below : List Selection}
    (h : Connection schema document origin head below) : document.Holds head below := by
  induction h with
  | root hdefinition hconnections hfield _ =>
    obtain ⟨inside, huiapi, hquery⟩ := Option.bind_eq_some_iff.1 hconnections
    have hselections := Document.definition_mem hdefinition
    exact ⟨_, below?_mem (below?_mem hselections huiapi) hquery, hfield⟩
  | child _ hnode hreach _ ih => exact hreach.holds rfl (nodeOf?_mem hnode ih.below_mem)

end SoupQuery.Compile
