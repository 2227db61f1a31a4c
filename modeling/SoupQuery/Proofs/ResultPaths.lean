import SoupQuery.Proofs.Names

/-!
# Results of a record do not overlap

The fields of a query say where its results stand in the object of a record: a value, the leaves of
a value, what is selected on a referenced record, and the edges of a nested query. They are set one
after the other, so none may stand where another one is, or inside it.

* `Separate` — two paths such that neither leads into the other.
* `Placed` — fields with separate paths, each under a key of its own record.
* `Selects.placed` — **what selections compile to stands under their response keys.**
* `transform_paths_separate` — the fields of every query have separate paths, at any depth.
-/

namespace SoupQuery

/-! ## Paths -/

/-- Neither path is the other one, or leads into it. -/
def Separate (first second : List (List Char)) : Prop := ¬ first <+: second ∧ ¬ second <+: first

theorem key_eq_of_under {base path : List (List Char)} {key key' : List Char}
    (h : base ++ [key] <+: path) (h' : base ++ [key'] <+: path) : key = key' := by
  have hunder := List.prefix_of_prefix_length_le h h' (by simp)
  simpa using hunder.eq_of_length (by simp)

/-- Paths under different keys are separate. -/
theorem separate_of_ne {base first second : List (List Char)} {key key' : List Char}
    (hne : key ≠ key') (h : base ++ [key] <+: first) (h' : base ++ [key'] <+: second) :
    Separate first second :=
  ⟨fun hunder => hne (key_eq_of_under (h.trans hunder) h'),
    fun hunder => hne (key_eq_of_under h (h'.trans hunder))⟩

/-- Where the result of a field stands. -/
def QueryField.path {Query : Type} : QueryField Query → String
  | .scalar path _ => path
  | .child path _ => path

/-- The fields have separate paths, each under one of the keys of the object at `base`. -/
structure Placed (base : List (List Char)) (keys : List String)
    (fields : List (QueryField RecordQuery)) : Prop where
  under : ∀ field ∈ fields, ∃ key ∈ keys, base ++ [key.toList] <+: segments field.path
  separate : fields.Pairwise fun first second =>
    Separate (segments first.path) (segments second.path)

namespace Placed

variable {base : List (List Char)} {key : String} {keys : List String}
  {fields rest : List (QueryField RecordQuery)}

theorem nil : Placed base keys [] := ⟨by simp, .nil⟩

theorem singleton {field : QueryField RecordQuery}
    (h : base ++ [key.toList] <+: segments field.path) : Placed base [key] [field] :=
  ⟨fun _ hfield => ⟨key, List.mem_singleton.2 rfl, List.mem_singleton.1 hfield ▸ h⟩,
    List.pairwise_singleton _ _⟩

theorem mono {keys' : List String} (h : Placed base keys fields) (hsub : keys ⊆ keys') :
    Placed base keys' fields := by
  refine ⟨fun field hfield => ?_, h.separate⟩
  obtain ⟨key, hkey, hunder⟩ := h.under field hfield
  exact ⟨key, hsub hkey, hunder⟩

/-- Fields of an object inside stand under its key. -/
theorem inside (h : Placed (base ++ [key.toList]) keys fields) : Placed base [key] fields := by
  refine ⟨fun field hfield => ⟨key, List.mem_singleton.2 rfl, ?_⟩, h.separate⟩
  obtain ⟨_, _, hunder⟩ := h.under field hfield
  exact (List.prefix_append ..).trans hunder

/-- Fields under a key, and fields under other keys. -/
theorem append (h : Placed base [key] fields) (hrest : Placed base keys rest)
    (hkey : key ∉ keys) : Placed base (key :: keys) (fields ++ rest) := by
  refine ⟨fun field hfield => ?_, List.pairwise_append.2 ⟨h.separate, hrest.separate, ?_⟩⟩
  · rcases List.mem_append.1 hfield with hfield | hfield
    · exact (h.mono (by simp)).under field hfield
    · exact (hrest.mono (List.subset_cons_self _ _)).under field hfield
  · intro first hfirst second hsecond
    obtain ⟨key', hkey', hunder⟩ := h.under first hfirst
    obtain ⟨other, hother, hunder'⟩ := hrest.under second hsecond
    rw [List.mem_singleton.1 hkey'] at hunder
    refine separate_of_ne (fun heq => hkey ?_) hunder hunder'
    rw [String.toList_inj.1 heq]
    exact hother

end Placed

end SoupQuery

namespace SoupQuery.Compile

open SoupQuery.GraphQL

variable {context : Context} {document : Document} {row : Row}

/-! ## Values and their leaves -/

theorem scalar_placed {path key : String} {extract : Expression} (hkey : Dotless key) :
    Placed (segments path) [key] [.scalar (path ++ "." ++ key) extract] :=
  .singleton ⟨[], by rw [List.append_nil, QueryField.path, segments_key hkey]⟩

/-- Each leaf of a value stands under its response key. -/
theorem leaves_placed {path apiName : String} : ∀ {below : List Selection}
    {fields : List (QueryField RecordQuery)},
    below.filterMap (leaf? row path apiName) = fields.map .ok → (responseKeys below).Nodup →
      (∀ key ∈ responseKeys below, Dotless key) →
      Placed (segments path) (responseKeys below) fields
  | [], fields, h, _, _ => by
    rw [List.map_eq_nil_iff.1 h.symm]
    exact .nil
  | .field head _ :: rest, fields, h, hkeys, hnames => by
    obtain ⟨hkey, hkeys⟩ := List.nodup_cons.1 hkeys
    have hrest : ∀ {fields}, rest.filterMap (leaf? row path apiName) = fields.map .ok →
        Placed (segments path) (responseKeys rest) fields :=
      fun h => leaves_placed h hkeys fun key hkey => hnames key (List.mem_cons_of_mem _ hkey)
    by_cases hname : head.name = typeNameField
    · rw [List.filterMap_cons_none (by rw [leaf?, if_pos hname])] at h
      exact (hrest h).mono (List.subset_cons_self _ _)
    · rw [List.filterMap_cons_some (by rw [leaf?, if_neg hname])] at h
      cases fields with
      | nil => cases h
      | cons field fields =>
        obtain ⟨hfield, htail⟩ := List.cons.inj h
        split at hfield
        · cases hfield
          exact (scalar_placed (hnames _ (List.mem_cons_self ..))).append (hrest htail) hkey
        · cases hfield
  | .fragmentSpread _ :: _, fields, h, _, _ => by cases fields <;> cases h
  | .inlineFragment _ _ :: _, fields, h, _, _ => by cases fields <;> cases h

/-- The results of a value stand under its response key. -/
theorem valueSelection_placed {path key name apiName : String} {below : List Selection}
    {selected : Selected} (hkey : Dotless key)
    (h : valueSelection row (path ++ "." ++ key) name apiName below = .ok selected)
    (hkeys : (responseKeys below).Nodup) (hnames : ∀ key ∈ responseKeys below, Dotless key) :
    Placed (segments path) [key] selected.fields := by
  rcases valueSelection_cases h with ⟨-, -, rfl⟩ | ⟨-, fields, hfields, rfl⟩
  · exact scalar_placed hkey
  · have hleaves := leaves_placed hfields hkeys hnames
    rw [segments_key hkey] at hleaves
    exact hleaves.inside

/-! ## Selections -/

theorem segments_edges (path : String) :
    segments (path ++ ".edges") = segments path ++ ["edges".toList] := by
  rw [append_edges, segments_key (by decide)]

/-- Selections of the document, no two of which have the same response key. -/
structure Distinct (document : Document) (below : List Selection) : Prop where
  holds : ∀ head inside, .field head inside ∈ below → document.Holds head inside
  nodup : (responseKeys below).Nodup

theorem Distinct.of_cons {head : Field} {inside rest : List Selection}
    (h : Distinct document (.field head inside :: rest)) :
    document.Holds head inside ∧ head.responseKey ∉ responseKeys rest ∧ Distinct document rest := by
  obtain ⟨hkey, hnodup⟩ := List.nodup_cons.1 h.nodup
  refine ⟨h.holds head inside (List.mem_cons_self ..), hkey, fun other below hmem => ?_, hnodup⟩
  exact h.holds other below (List.mem_cons_of_mem _ hmem)

section Document

variable (hnames : ∀ name ∈ document.names, Dotless name)
  (hkeys : ∀ set ∈ document.selectionSets, (responseKeys set).Nodup)

include hkeys in
theorem distinct_of_mem {set : List Selection} (hset : set ∈ document.selectionSets) :
    Distinct document set :=
  ⟨fun _ _ hmem => ⟨set, hset, hmem⟩, hkeys set hset⟩

include hnames hkeys

/-- **What selections compile to stands under their response keys**, and nothing of it stands inside
another one. -/
theorem Selects.placed {path : String} {below : List Selection} {selected : Selected}
    (h : Selects context row path below selected) : Distinct document below →
      Placed (segments path) (responseKeys below) selected.fields := by
  induction h with
  | nil =>
    intro _
    exact .nil
  | typeName _ _ ih =>
    intro hdistinct
    obtain ⟨-, -, hrest⟩ := hdistinct.of_cons
    exact (ih hrest).mono (List.subset_cons_self _ _)
  | value _ _ hvalue _ ih =>
    intro hdistinct
    obtain ⟨hfield, hkey, hrest⟩ := hdistinct.of_cons
    have hplaced := valueSelection_placed (hnames _ hfield.responseKey_mem) hvalue
      (hkeys _ hfield.below_mem) fun key hkey => hnames key (hfield.responseKeys_subset hkey)
    exact hplaced.append (ih hrest) hkey
  | record _ _ _ _ _ ihinner ih =>
    intro hdistinct
    obtain ⟨hfield, hkey, hrest⟩ := hdistinct.of_cons
    have hinner := ihinner (distinct_of_mem hkeys hfield.below_mem)
    rw [segments_key (hnames _ hfield.responseKey_mem)] at hinner
    exact hinner.inside.append (ih hrest) hkey
  | child _ _ _ _ _ ih =>
    intro hdistinct
    obtain ⟨hfield, hkey, hrest⟩ := hdistinct.of_cons
    refine Placed.append (.singleton ?_) (ih hrest) hkey
    rw [QueryField.path, segments_edges, segments_key (hnames _ hfield.responseKey_mem)]
    exact List.prefix_append ..

end Document

/-- **The results of a record do not overlap.** In a document without dots in its names, and whose
selection sets have no response key twice, the fields of every query have separate paths, at any
depth. -/
theorem transform_paths_separate {queries : List RecordQuery}
    (h : transform context document = .ok queries) (hnames : ∀ name ∈ document.names, Dotless name)
    (hkeys : ∀ set ∈ document.selectionSets, (responseKeys set).Nodup)
    {enclosing : List RecordQuery} {query : RecordQuery} (hquery : Occurs queries enclosing query) :
    query.fields.Pairwise fun first second =>
      Separate (segments first.path) (segments second.path) := by
  obtain ⟨origin, head, below, hconnection, hok, -⟩ := connection_of_occurs h hquery
  obtain ⟨parts, hparts, rfl⟩ := recordQuery_ok hok
  obtain ⟨node, hnode, hselects⟩ := hparts.selected
  have hset : node ∈ document.selectionSets := nodeOf?_mem hnode hconnection.holds.below_mem
  exact (hselects.placed hnames hkeys (distinct_of_mem hkeys hset)).separate

theorem jobs_paths_separate : transform jobsContext jobsDocument = .ok [jobsQuery] ∧
    (∀ name ∈ jobsDocument.names, Dotless name) ∧
    (∀ set ∈ jobsDocument.selectionSets, (responseKeys set).Nodup) ∧
    jobsQuery.fields.map (·.path) = ["node.Id", "node.Owner.Visits.edges"] ∧
    jobsQuery.fields.Pairwise fun first second =>
      Separate (segments first.path) (segments second.path) := by
  have hnames : ∀ name ∈ jobsDocument.names, Dotless name := by decide
  have hkeys : ∀ set ∈ jobsDocument.selectionSets, (responseKeys set).Nodup := by decide
  exact ⟨transform_jobs, hnames, hkeys, rfl,
    transform_paths_separate transform_jobs hnames hkeys (.root (List.mem_singleton.2 rfl))⟩

end SoupQuery.Compile
