import SoupQuery.Proofs.EmptyFilters
import SoupQuery.Proofs.Evaluation

/-!
# Disjunctions over joined rows

A filter matches a record if rows can be chosen for its joins such that all join conditions and its
own condition hold. The joins of a disjunction are those of all its objects, and all of them are
required, whichever object is true. So one more object lets a disjunction match more records, but
no longer those from which a reference that only this object follows leads nowhere.

* `JoinsHold`, `RowFilter.Matches` — chosen rows are joined, and a filter matches a record.
* `Resolves` — a choice of rows goes on along more joins.
* `matches_iff_of_or` — what a filter matches that is the disjunction of two others.
* `whereArgument_widened` — **one more object in a disjunction adds what it matches, and keeps what
  was matched if its references resolve.**
* `or_loses_orphans` — a visit without owner is no longer matched by its name once the owner's name
  is asked for as an alternative.
-/

namespace SoupQuery

variable {soup : Soup} {row : Row} {rows rows' : Rows}

/-! ## Joined rows -/

/-- All conditions of the joins hold. -/
def JoinsHold (soup : Soup) (rows : Rows) (joins : List Join) : Prop :=
  ∀ condition ∈ joinConditions joins, condition.eval soup rows = .holds

/-- The record of the row is known, nothing else is. -/
def Row.bound (row : Row) (record : Record) : Rows :=
  Function.update (fun _ _ => .null) row.name record

/-- The names of joined rows that other joins do not name. -/
def newNames (joins added : List Join) : List String :=
  (joinNames added).filter fun name => name ∉ joinNames joins

/-- The choice goes on along more joins: it gives records to the rows that are not joined yet, and
the conditions of the joins hold. -/
def Resolves (soup : Soup) (joins added : List Join) (rows rows' : Rows) : Prop :=
  rows' ∈ soup.assignments (newNames joins added) rows ∧ JoinsHold soup rows' added

instance (joins : List Join) : Decidable (JoinsHold soup rows joins) :=
  inferInstanceAs
    (Decidable (∀ condition ∈ joinConditions joins, condition.eval soup rows = .holds))

theorem joinsHold_iff {joins : List Join} : JoinsHold soup rows joins ↔
    ∀ join ∈ joins, ∀ condition ∈ join.conditions, condition.eval soup rows = .holds := by
  constructor
  · intro h join hjoin condition hcondition
    exact h condition (Compile.mem_joinConditions hjoin hcondition)
  · intro h condition hcondition
    obtain ⟨join, hjoin, hmem⟩ := List.mem_flatMap.1 (mem_of_mem_eraseDups hcondition)
    exact h join hjoin condition hmem

theorem joinsHold_append {joins joins' : List Join} :
    JoinsHold soup rows (joins ++ joins') ↔
      JoinsHold soup rows joins ∧ JoinsHold soup rows joins' := by
  simp only [joinsHold_iff, List.mem_append]
  constructor
  · intro h
    exact ⟨fun join hjoin => h join (.inl hjoin), fun join hjoin => h join (.inr hjoin)⟩
  · rintro ⟨h, h'⟩ join (hjoin | hjoin)
    · exact h join hjoin
    · exact h' join hjoin

/-- The joins that start at a row hold for rows that agree on the rows that they name. -/
theorem JoinsHold.congr {joins : List Join} (h : JoinsHold soup rows joins)
    (hchained : Chained [row.name] joins)
    (hagree : ∀ name ∈ row.namesWith joins, rows name = rows' name) :
    JoinsHold soup rows' joins := by
  rw [joinsHold_iff] at h ⊢
  intro join hjoin condition hcondition
  rw [← Predicate.eval_congr (hchained.readsWithin hjoin hcondition) hagree]
  exact h join hjoin condition hcondition

theorem mem_joinNames {joins : List Join} {name : String} :
    name ∈ joinNames joins ↔ ∃ join ∈ joins, join.row.name = name := by
  rw [joinNames, List.mem_eraseDups, List.mem_map]

theorem mem_newNames {joins added : List Join} {name : String} :
    name ∈ newNames joins added ↔ name ∈ joinNames added ∧ name ∉ joinNames joins := by
  simp [newNames]

theorem joinNames_append {joins added : List Join} {name : String} :
    name ∈ joinNames (joins ++ added) ↔ name ∈ joinNames joins ∨ name ∈ newNames joins added := by
  rw [mem_newNames]
  simp only [mem_joinNames, List.mem_append]
  grind

/-- Rows are chosen for all joins by choosing those of some joins first. -/
theorem Soup.exists_assignment_between {joins added : List Join}
    (h : rows' ∈ soup.assignments (joinNames (joins ++ added)) rows) :
    ∃ between ∈ soup.assignments (joinNames joins) rows,
      rows' ∈ soup.assignments (newNames joins added) between := by
  obtain ⟨hchosen, hkept⟩ := mem_assignments.1 h
  refine ⟨fun name => if name ∈ joinNames joins then rows' name else rows name,
    mem_assignments.2 ⟨fun name hname => ?_, fun name hname => ?_⟩,
    mem_assignments.2 ⟨fun name hname => ?_, fun name hname => ?_⟩⟩
  · simpa only [hname, if_true] using hchosen name (joinNames_append.2 (.inl hname))
  · simp only [hname, if_false]
  · exact hchosen name (joinNames_append.2 (.inr hname))
  · by_cases hjoins : name ∈ joinNames joins
    · simp only [hjoins, if_true]
    · simp only [hjoins, if_false]
      exact hkept name fun happend => (joinNames_append.1 happend).elim hjoins hname

theorem Soup.assignment_trans {joins added : List Join} {between : Rows}
    (h : between ∈ soup.assignments (joinNames joins) rows)
    (h' : rows' ∈ soup.assignments (newNames joins added) between) :
    rows' ∈ soup.assignments (joinNames (joins ++ added)) rows := by
  rw [mem_assignments] at h h' ⊢
  refine ⟨fun name hname => ?_, fun name hname => ?_⟩
  · by_cases hnew : name ∈ newNames joins added
    · exact h'.1 name hnew
    · rw [h'.2 name hnew]
      exact h.1 name ((joinNames_append.1 hname).resolve_right hnew)
  · obtain ⟨hjoins, hnew⟩ := not_or.1 (mt joinNames_append.2 hname)
    rw [h'.2 name hnew, h.2 name hjoins]

end SoupQuery

namespace SoupQuery.Compile

open SoupQuery.GraphQL

variable {schema : Schema} {soup : Soup} {row : Row} {record : Record}

/-! ## Filters that match -/

/-- A filter matches a record: rows can be chosen for its joins, so that they are joined and the
condition holds. -/
def RowFilter.Matches (filter : RowFilter) (soup : Soup) (row : Row) (record : Record) : Prop :=
  ∃ rows ∈ soup.assignments (joinNames filter.joins) (row.bound record),
    JoinsHold soup rows filter.joins ∧ filter.predicate.eval soup rows = .holds

instance (filter : RowFilter) : Decidable (filter.Matches soup row record) :=
  inferInstanceAs (Decidable (∃ rows ∈ soup.assignments (joinNames filter.joins) (row.bound record),
    JoinsHold soup rows filter.joins ∧ filter.predicate.eval soup rows = .holds))

/-- References lead to rows of longer names, so never back to the row of the filter. -/
theorem RowFilter.name_not_mem_joinNames {entries : List (String × Value)} {filter : RowFilter}
    (h : filterObject schema row entries = .ok filter) : row.name ∉ joinNames filter.joins := by
  intro hname
  obtain ⟨join, hjoin, heq⟩ := mem_joinNames.1 hname
  have hscoped := (filterInvariant_scoped schema).filterObject h
  have hjoins := (filterInvariant_joinsAlong schema).filterObject h
  have hlonger : row.name.length < join.row.name.length := by
    refine hscoped.joins.length_lt (by simp) (fun other hother => ?_) join hjoin
    obtain ⟨parent, reference, -, rfl⟩ := (hjoins other).1 hother
    exact parent.length_join reference
  rw [heq] at hlonger
  exact Nat.lt_irrefl _ hlonger

/-- **What the disjunction of two filters matches**: the rows of the first filter's joins are
chosen, the choice goes on along the second one's, and one of the two conditions holds. -/
theorem matches_iff_of_or {filter added widened : RowFilter} (hscoped : filter.Scoped row)
    (hjoins : widened.joins = filter.joins ++ added.joins)
    (hrow : row.name ∉ joinNames widened.joins)
    (heval : ∀ rows, widened.predicate.eval soup rows = .holds ↔
      filter.predicate.eval soup rows = .holds ∨ added.predicate.eval soup rows = .holds) :
    widened.Matches soup row record ↔
      ∃ rows ∈ soup.assignments (joinNames filter.joins) (row.bound record),
        JoinsHold soup rows filter.joins ∧
        ∃ rows', Resolves soup filter.joins added.joins rows rows' ∧
          (filter.predicate.eval soup rows = .holds ∨
            added.predicate.eval soup rows' = .holds) := by
  -- what is chosen later does not touch the rows that the first filter reads
  have hagree : ∀ {rows rows' : Rows},
      rows' ∈ soup.assignments (newNames filter.joins added.joins) rows →
      ∀ name ∈ row.namesWith filter.joins, rows name = rows' name := by
    intro rows rows' hrows' name hname
    refine ((Soup.mem_assignments.1 hrows').2 name fun hnew => ?_).symm
    rcases List.mem_cons.1 hname with rfl | hname
    · rw [hjoins] at hrow
      exact hrow (joinNames_append.2 (.inr hnew))
    · exact (mem_newNames.1 hnew).2 (List.mem_eraseDups.2 hname)
  unfold RowFilter.Matches
  rw [hjoins]
  constructor
  · rintro ⟨rows', hrows', hhold, htrue⟩
    obtain ⟨rows, hrows, hnext⟩ := Soup.exists_assignment_between hrows'
    obtain ⟨hfilter, hadded⟩ := joinsHold_append.1 hhold
    have hsame := fun name hname => (hagree hnext name hname).symm
    refine ⟨rows, hrows, hfilter.congr hscoped.joins hsame, rows', ⟨hnext, hadded⟩, ?_⟩
    rw [Predicate.eval_congr hscoped.predicate (hagree hnext)]
    exact (heval rows').1 htrue
  · rintro ⟨rows, hrows, hfilter, rows', ⟨hnext, hadded⟩, htrue⟩
    refine ⟨rows', Soup.assignment_trans hrows hnext,
      joinsHold_append.2 ⟨hfilter.congr hscoped.joins (hagree hnext), hadded⟩, ?_⟩
    rw [Predicate.eval_congr hscoped.predicate (hagree hnext)] at htrue
    exact (heval rows').2 htrue

/-- If the added joins are joined already, nothing is to be chosen. -/
theorem resolves_self {joins added : List Join} {rows : Rows} (hsub : added ⊆ joins)
    (h : JoinsHold soup rows joins) : Resolves soup joins added rows rows := by
  refine ⟨Soup.mem_assignments.2 ⟨fun name hname => ?_, fun _ _ => rfl⟩,
    joinsHold_iff.2 fun join hjoin => joinsHold_iff.1 h join (hsub hjoin)⟩
  obtain ⟨hadded, hjoins⟩ := mem_newNames.1 hname
  obtain ⟨join, hjoin, heq⟩ := mem_joinNames.1 hadded
  exact absurd (mem_joinNames.2 ⟨join, hsub hjoin, heq⟩) hjoins

/-! ## Disjunctions -/

theorem joins_disjunction (filters : List RowFilter) :
    (RowFilter.combine .and [RowFilter.combine .or filters]).joins = filters.flatMap (·.joins) := by
  simp [RowFilter.combine]

/-- **One more object in a disjunction adds what it matches, and keeps what was matched if its
references resolve**: a record is matched if rows can be chosen for the joins of the disjunction,
the choice goes on along the joins of the added object, and one of the two is true. So nothing is
lost if the added object follows no other references. -/
theorem whereArgument_widened {objects : List (List (String × Value))}
    {object : List (String × Value)} {widened : RowFilter}
    (h : whereArgument schema row (some (disjunction (objects ++ [object]))) = .ok (some widened)) :
    ∃ filter added,
      whereArgument schema row (some (disjunction objects)) = .ok (some filter) ∧
      whereArgument schema row (some (.object object)) = .ok (some added) ∧
      ∀ soup record,
        (widened.Matches soup row record ↔
          ∃ rows ∈ soup.assignments (joinNames filter.joins) (row.bound record),
            JoinsHold soup rows filter.joins ∧
            ∃ rows', Resolves soup filter.joins added.joins rows rows' ∧
              (filter.predicate.eval soup rows = .holds ∨
                added.predicate.eval soup rows' = .holds)) ∧
        (added.joins ⊆ filter.joins → filter.Matches soup row record →
          widened.Matches soup row record) := by
  obtain ⟨all, hall, rfl⟩ := whereArgument_disjunction.1 h
  rw [List.map_append] at hall
  obtain ⟨filters, last, rfl, hfilters, hlast⟩ := List.map_eq_append_iff.1 hall.symm
  obtain ⟨added, rfl, hadded⟩ := List.map_eq_singleton_iff.1 hlast
  have hfilter := whereArgument_disjunction.2 ⟨filters, hfilters.symm, rfl⟩
  have hrow : row.name ∉ joinNames
      (RowFilter.combine .and [RowFilter.combine .or (filters ++ [added])]).joins := by
    obtain ⟨_, _, heq, heq', hobject⟩ := whereArgument_eq_ok.1 h
    cases heq
    cases heq'
    exact RowFilter.name_not_mem_joinNames hobject
  refine ⟨_, added, hfilter, whereArgument_eq_ok.2 ⟨object, added, rfl, rfl, hadded.symm⟩,
    fun soup record => ?_⟩
  have heval : ∀ rows,
      (RowFilter.combine .and [RowFilter.combine .or (filters ++ [added])]).predicate.eval
          soup rows = .holds ↔
        (RowFilter.combine .and [RowFilter.combine .or filters]).predicate.eval soup rows = .holds ∨
          added.predicate.eval soup rows = .holds := by
    intro rows
    simp only [RowFilter.eval_disjunction, Truth.joined_or_eq_holds, List.map_append,
      List.mem_append, List.map_cons, List.map_nil, List.mem_singleton]
    exact or_congr_right eq_comm
  have hiff := @matches_iff_of_or soup row record _ added _ (whereArgument_scoped hfilter)
    (by simp [joins_disjunction]) hrow heval
  refine ⟨hiff, fun hsub hmatches => ?_⟩
  obtain ⟨rows, hrows, hhold, htrue⟩ := hmatches
  exact hiff.2 ⟨rows, hrows, hhold, rows, resolves_self hsub hhold, .inl htrue⟩

/-- Visits of the name `a`. -/
def calledA : List (String × Value) := [("Name", .object [("eq", .string "a")])]

/-- Visits whose owner has the name `x`. -/
def ownedByX : List (String × Value) :=
  [("Owner", .object [("Name", .object [("eq", .string "x")])])]

def calledAFilter : RowFilter :=
  ⟨.comparison (.extract "v" "data.fields.Name.value") .eq (.string "a"), []⟩

def ownedByXFilter : RowFilter :=
  ⟨.comparison (.extract "v.Owner" "data.fields.Name.value") .eq (.string "x"),
    [⟨"v", "OwnerId", ⟨"v.Owner", "User"⟩⟩]⟩

/-- A visit of the name `a` with a given owner. -/
def visitOf (owner : Cell) : Record := .ofPaths
  [("data.apiName", .text "Visit"), ("data.fields.Name.value", .text "a"),
   ("data.fields.OwnerId.value", owner)]

/-- A user of the name `y`. -/
def userY : Record := .ofPaths
  [("data.apiName", .text "User"), ("data.id", .text "u1"), ("data.fields.Name.value", .text "y")]

/-- A visit whose owner is stored is still matched by its own name. -/
theorem calledA_widened :
    whereArgument visitSchema ⟨"v", "Visit"⟩ (some (disjunction ([calledA] ++ [ownedByX]))) =
      .ok (some (.combine .or [calledAFilter, ownedByXFilter])) ∧
    (RowFilter.combine .or [calledAFilter, ownedByXFilter]).Matches
      ⟨[visitOf (.text "u1"), userY], fun _ _ => .unknown⟩ ⟨"v", "Visit"⟩
      (visitOf (.text "u1")) := by
  have hok : whereArgument visitSchema ⟨"v", "Visit"⟩
      (some (disjunction ([calledA] ++ [ownedByX]))) =
        .ok (some (.combine .or [calledAFilter, ownedByXFilter])) := rfl
  obtain ⟨filter, added, hfilter, hadded, hmatches⟩ := whereArgument_widened hok
  obtain rfl : calledAFilter = filter := by cases hfilter; rfl
  obtain rfl : ownedByXFilter = added := by cases hadded; rfl
  refine ⟨hok, (hmatches _ _).1.2 ⟨_, List.mem_singleton.2 rfl, by decide,
    Function.update (Row.bound ⟨"v", "Visit"⟩ (visitOf (.text "u1"))) "v.Owner" userY,
    ⟨?_, by decide⟩, .inl (by decide)⟩⟩
  exact List.mem_flatMap.2 ⟨userY, by simp, List.mem_singleton.2 rfl⟩

/-- **A disjunction can lose records by one more object**: a visit without owner is matched by its
name, and no longer once the owner's name is asked for as an alternative. -/
theorem or_loses_orphans :
    whereArgument visitSchema ⟨"v", "Visit"⟩ (some (disjunction [calledA])) =
      .ok (some calledAFilter) ∧
    whereArgument visitSchema ⟨"v", "Visit"⟩ (some (disjunction [calledA, ownedByX])) =
      .ok (some (.combine .or [calledAFilter, ownedByXFilter])) ∧
    comparesEntries visitSchema "Visit" ownedByX = true ∧
    calledAFilter.Matches ⟨[visitOf .null, userY], fun _ _ => .unknown⟩ ⟨"v", "Visit"⟩
      (visitOf .null) ∧
    ¬ (RowFilter.combine .or [calledAFilter, ownedByXFilter]).Matches
      ⟨[visitOf .null, userY], fun _ _ => .unknown⟩ ⟨"v", "Visit"⟩ (visitOf .null) :=
  ⟨rfl, rfl, rfl, by decide, by decide⟩

end SoupQuery.Compile
