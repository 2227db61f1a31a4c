import Mathlib.Data.List.Basic
import SoupQuery.Sql.Index

/-!
# When the names of the indices collide

Each of the three statements creates an index unless one of its name exists, and says nothing if it
does not. The name is put together from the table, a word and an ending, and for the index by key
the word is the name of the key column, so it can be one of the two fixed words.

* `createdName?` — the name of the index in a statement.
* `create`, `createAll` — what statements do to the names of the indices that exist.
* `createAll_eq_append_iff` — a run of statements skips none exactly if their names differ from one
  another and from those that exist.
* `indexStatements_names` — **the names of the three indices differ exactly if the key column is
  called neither `id` nor `api_name`**; with another spelling of these words in capitals the names
  differ, but one index is skipped all the same.
* `idKey_skipped` — if the key column is `id`, there is no index by identifier.
-/

namespace SoupQuery

/-! ## Names -/

/-- The name of an index that is distinguished by a word. -/
def indexName (mapping : TableMapping) (word : String) : String :=
  mapping.table ++ "_" ++ word ++ "_idx"

/-- The words by which the indices are distinguished, in the order of the statements. -/
def indexWords (mapping : TableMapping) : List String := [mapping.key, "api_name", "id"]

/-- The names of the three indices. -/
def indexNames (mapping : TableMapping) : List String :=
  (indexWords mapping).map (indexName mapping)

/-- SQL does not distinguish capitals from small letters in names, in the range of ASCII. -/
def SameName (name name' : String) : Prop :=
  name.toList.map Char.toLower = name'.toList.map Char.toLower

instance (name name' : String) : Decidable (SameName name name') := by
  unfold SameName; infer_instance

variable {mapping : TableMapping} {word word' : String}

theorem indices_names (mapping : TableMapping) :
    (indices mapping).map Index.name = indexNames mapping := by
  have happend : ∀ a b c : String, "_" ++ a ++ "_idx" = b → c ++ "_" ++ a ++ "_idx" = c ++ b := by
    rintro a _ c rfl
    simp only [String.append_assoc]
  simp only [indices, indexNames, indexWords, indexName, List.map_cons, List.map_nil,
    happend "api_name" "_api_name_idx" _ rfl, happend "id" "_id_idx" _ rfl]

theorem toList_indexName (mapping : TableMapping) (word : String) :
    (indexName mapping word).toList =
      mapping.table.toList ++ ('_' :: (word.toList ++ "_idx".toList)) := by
  simp [indexName, String.toList_append]

theorem indexName_inj : indexName mapping word = indexName mapping word' ↔ word = word' := by
  rw [← String.toList_inj, toList_indexName, toList_indexName, List.append_cancel_left_eq,
    List.cons.injEq, List.append_cancel_right_eq, String.toList_inj]
  exact and_iff_right rfl

theorem sameName_indexName :
    SameName (indexName mapping word) (indexName mapping word') ↔ SameName word word' := by
  simp only [SameName, toList_indexName, List.map_append, List.map_cons,
    List.append_cancel_left_eq, List.cons.injEq, List.append_cancel_right_eq, true_and]

/-! ## Statements -/

/-- What the statements start with. -/
def creation : String := "CREATE INDEX IF NOT EXISTS "

/-- The name of the index that a statement creates. -/
def createdName? (statement : String) : Option String :=
  if creation.toList <+: statement.toList then
    some (String.ofList ((statement.toList.drop creation.toList.length).takeWhile (· ≠ ' ')))
  else none

/-- What a statement does to the names of the indices that exist: it adds its own, unless an index
of that name exists. -/
def create (names : List String) (statement : String) : List String :=
  match createdName? statement with
  | none => names
  | some name => if names.any fun other => SameName name other then names else names ++ [name]

/-- The names of the indices that exist after several statements. -/
def createAll (names statements : List String) : List String := statements.foldl create names

theorem createdName?_statement {index : Index} (h : ' ' ∉ index.name.toList) :
    createdName? (index.statement mapping) = some index.name := by
  have htext : index.statement mapping = creation ++
      (index.name ++ (" ON " ++ (mapping.table ++ (" (" ++ (index.expression ++ ")"))))) := by
    unfold Index.statement creation
    simp only [String.append_assoc]
  have hblank : " ON ".toList = ' ' :: "ON ".toList := by decide
  have hname : ∀ c ∈ index.name.toList, decide (c ≠ ' ') = true := by
    rintro c hc
    exact decide_eq_true fun heq => h (heq ▸ hc)
  rw [createdName?, htext, String.toList_append, if_pos (List.prefix_append _ _), List.drop_left,
    String.toList_append, List.takeWhile_append_of_pos hname, String.toList_append, hblank,
    List.cons_append, List.takeWhile_cons_of_neg (by decide), List.append_nil,
    String.ofList_toList]

/-- The names in the three statements, if neither the table nor the key column has a blank in its
name. -/
theorem createdNames (htable : ' ' ∉ mapping.table.toList) (hkey : ' ' ∉ mapping.key.toList) :
    (indexStatements mapping).map createdName? = (indexNames mapping).map some := by
  rw [← indices_names, indexStatements, List.map_map, List.map_map]
  refine List.map_congr_left fun index hindex => ?_
  simp only [Function.comp_apply]
  apply createdName?_statement
  have hmem : index.name ∈ indexNames mapping := indices_names mapping ▸ List.mem_map_of_mem hindex
  obtain ⟨word, hword, heq⟩ := List.mem_map.1 hmem
  have hblank : ' ' ∉ word.toList := by
    simp only [indexWords, List.mem_cons, List.not_mem_nil, or_false] at hword
    rcases hword with rfl | rfl | rfl
    · exact hkey
    · decide
    · decide
  rw [← heq, toList_indexName]
  simp [htable, hblank]

/-! ## Runs -/

theorem length_create_le (names : List String) (statement : String) :
    (create names statement).length ≤ names.length + 1 := by
  unfold create
  split
  · omega
  · split
    · omega
    · simp

theorem length_createAll_le (statements : List String) :
    ∀ names, (createAll names statements).length ≤ names.length + statements.length := by
  induction statements with
  | nil =>
    intro names
    exact Nat.le_refl _
  | cons statement statements ih =>
    intro names
    have hone := length_create_le names statement
    have hrest := ih (create names statement)
    simp only [createAll, List.foldl_cons, List.length_cons] at hrest ⊢
    omega

/-- **A run of statements skips none exactly if their names differ** from one another and from those
of the indices that exist. -/
theorem createAll_eq_append_iff : ∀ {statements created names : List String},
    statements.map createdName? = created.map some →
    (createAll names statements = names ++ created ↔
      created.Pairwise (fun name name' => ¬ SameName name' name) ∧
        ∀ name ∈ created, ∀ other ∈ names, ¬ SameName name other)
  | [], [], names, _ => by simp [createAll]
  | [], _ :: _, _, h => by simp at h
  | _ :: _, [], _, h => by simp at h
  | statement :: statements, name :: created, names, h => by
    obtain ⟨hname, hrest⟩ := List.cons.inj h
    have hstep : create names statement =
        if names.any fun other => SameName name other then names else names ++ [name] := by
      rw [create, hname]
    rw [createAll, List.foldl_cons, hstep]
    by_cases hexists : (names.any fun other => SameName name other) = true
    · -- a skipped name is not made up for later
      rw [if_pos hexists]
      refine iff_of_false (fun heq => ?_) fun hdiffer => ?_
      · have hlength := length_createAll_le statements names
        have hcount := congrArg List.length hrest
        rw [createAll, heq] at hlength
        simp only [List.length_append, List.length_cons, List.length_map] at hlength hcount
        omega
      · obtain ⟨other, hother, hsame⟩ := List.any_eq_true.1 hexists
        exact hdiffer.2 name (List.mem_cons_self ..) other hother (of_decide_eq_true hsame)
    · rw [if_neg hexists]
      have hnew : ∀ other ∈ names, ¬ SameName name other := fun other hother hsame =>
        hexists (List.any_eq_true.2 ⟨other, hother, decide_eq_true hsame⟩)
      have ih : createAll (names ++ [name]) statements = names ++ [name] ++ created ↔ _ :=
        createAll_eq_append_iff hrest
      rw [createAll, List.append_assoc, List.singleton_append] at ih
      rw [ih, List.pairwise_cons, List.forall_mem_cons]
      simp only [List.mem_append, List.mem_singleton]
      constructor
      · rintro ⟨hpairwise, hdiffer⟩
        exact ⟨⟨fun other hother => hdiffer other hother name (.inr rfl), hpairwise⟩, hnew,
          fun other hother old hold => hdiffer other hother old (.inl hold)⟩
      · rintro ⟨⟨hfirst, hpairwise⟩, -, hdiffer⟩
        refine ⟨hpairwise, fun other hother old hold => ?_⟩
        rcases hold with hold | rfl
        · exact hdiffer other hother old hold
        · exact hfirst other hother

/-! ## The three indices -/

/-- **The three statements name three indices, which are different exactly if the key column is
called neither `id` nor `api_name`.** Where none of these indices exists yet, none is skipped
because of another one exactly if that holds in any spelling of the two words. -/
theorem indexStatements_names (mapping : TableMapping) (htable : ' ' ∉ mapping.table.toList)
    (hkey : ' ' ∉ mapping.key.toList) :
    (indexStatements mapping).map createdName? = (indexNames mapping).map some ∧
    ((indexNames mapping).Nodup ↔ mapping.key ∉ ["api_name", "id"]) ∧
    ∀ names, (∀ name ∈ indexNames mapping, ∀ other ∈ names, ¬ SameName name other) →
      (createAll names (indexStatements mapping) = names ++ indexNames mapping ↔
        ∀ word ∈ ["api_name", "id"], ¬ SameName word mapping.key) := by
  have hfixed : ¬ SameName "id" "api_name" := by decide
  refine ⟨createdNames htable hkey, ?_, fun names hnew => ?_⟩
  · simp [indexNames, indexWords, indexName_inj]
  · rw [createAll_eq_append_iff (createdNames htable hkey), and_iff_left hnew, indexNames,
      List.pairwise_map]
    simp [indexWords, sameName_indexName, hfixed]

theorem soupIndices_names : ' ' ∉ "soup".toList ∧ ' ' ∉ "key".toList ∧
    (indexStatements {}).map createdName? = (indexNames {}).map some ∧ (indexNames {}).Nodup ∧
    createAll ["other_id_idx"] (indexStatements {}) = "other_id_idx" :: indexNames {} := by
  have htable : ' ' ∉ "soup".toList := by decide
  have hkey : ' ' ∉ "key".toList := by decide
  obtain ⟨hnames, hdistinct, hcreated⟩ := indexStatements_names {} htable hkey
  have hother : ∀ name ∈ indexNames {}, ∀ other ∈ ["other_id_idx"], ¬ SameName name other := by
    decide
  exact ⟨htable, hkey, hnames, hdistinct.2 (by decide), (hcreated _ hother).2 (by decide)⟩

/-- If the key column is `id`, the index by identifier has the name of the index by key, and is not
created. -/
theorem idKey_skipped : ¬ (indexNames { key := "id" }).Nodup ∧
    createAll [] (indexStatements { key := "id" }) = ["soup_id_idx", "soup_api_name_idx"] := by
  decide +kernel

end SoupQuery
