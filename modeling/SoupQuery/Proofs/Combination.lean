import SoupQuery.Proofs.NormalForm
import SoupQuery.Proofs.Truth

/-!
# Laws of joining predicates

Joining flattens one level, drops what equals an earlier operand and unwraps a single one. Equality
of predicates is symmetric and transitive, but a predicate with `nan` in it differs from itself, and
predicates that differ in the sign of a zero are equal. The laws say what this leaves of conjunction
and disjunction.

* `Predicate.kleene` — the truth value of a predicate, given any value for each atom.
* `kleene_combine_iff` — **joining joins the truth values, exactly if equal atoms have the same.**
* `PartialEquivBEq` — equality of doubles, operands and predicates is a partial equivalence.
* `eraseDups_append`, `eraseDups_flatMap` — dropping repetitions group by group.
* `Predicate.NaNFree`, `Predicate.same_self_iff` — the predicates that equal themselves.
* `operandsUnder_combine` — a join of normal predicates contributes its operands.
* `combine_regroup` — **grouping does not matter to a join, and repetition only if there is `nan`.**
-/

namespace SoupQuery

open SoupQuery.Decimal

/-! ## Truth values of joins -/

/-- A truth value is another one if it is both the lesser and the greater of the two. -/
theorem Truth.eq_of_joined {a b : Truth} (h : ∀ op, Truth.joined op [a, b] = a) : a = b := by
  have hand := h .and
  have hor := h .or
  revert hand hor
  cases a <;> cases b <;> decide

namespace Predicate

mutual

/-- The truth value of a predicate in three-valued logic, given one for each atom. -/
def kleene (value : Predicate → Truth) : Predicate → Truth
  | .compound op operands => .joined op (kleeneAll value operands)
  | .negation operand => (kleene value operand).not
  | .comparison left op right => value (.comparison left op right)
  | .isNull operand => value (.isNull operand)
  | .isNotNull operand => value (.isNotNull operand)
  | .between operand start stop => value (.between operand start stop)
  | .existsRow rowName joinNames body => value (.existsRow rowName joinNames body)

/-- The truth values of a list of predicates. -/
def kleeneAll (value : Predicate → Truth) : List Predicate → List Truth
  | [] => []
  | operand :: operands => kleene value operand :: kleeneAll value operands

end

variable {value : Predicate → Truth}

theorem kleeneAll_eq_map (value : Predicate → Truth) (ps : List Predicate) :
    kleeneAll value ps = ps.map (kleene value) := by
  induction ps with
  | nil => rfl
  | cons p ps ih => rw [kleeneAll, ih, List.map_cons]

theorem kleene_of_isAtom {p : Predicate} (h : p.IsAtom) : p.kleene value = value p := by
  cases p with
  | compound _ _ => exact h.elim
  | negation _ => exact h.elim
  | _ => rfl

/-- Where equal atoms have the same value, this is the truth value of a valuation. -/
theorem truth_eq_kleene (v : Valuation) (p : Predicate) : p.truth v = p.kleene v.value := by
  refine interpret_eq v.logic (fun op operands => ?_) (fun _ => rfl) (fun _ => kleene_of_isAtom) p
  rw [kleene, kleeneAll_eq_map, v.logic_joined]

theorem operandsUnder_of_isAtom {p : Predicate} (op : Connective) (h : p.IsAtom) :
    operandsUnder op p = [p] := by
  cases p with
  | compound _ _ => exact h.elim
  | _ => rfl

/-- Of two atoms that are equal, a join keeps the first. -/
theorem combine_pair {p q : Predicate} (op : Connective) (hp : p.IsAtom) (h : (p == q) = true) :
    combine op [p, q] = p := by
  have hflat : [p, q].flatMap (operandsUnder op) = [p, q] := by
    simp [operandsUnder_of_isAtom op hp, operandsUnder_of_isAtom op (isAtom_of_same hp h)]
  have hkept : [p, q].eraseDups = [p] := by
    rw [beq_comm] at h
    simp [List.eraseDups_cons, h]
  rw [combine, hflat, hkept]

/-- **Joining predicates joins their truth values**, whatever the predicates are: for both
connectives and all lists, exactly if the truth value of an atom is also that of the atoms that
equal it. -/
theorem kleene_combine_iff (value : Predicate → Truth) :
    (∀ op ps, (combine op ps).kleene value = .joined op (ps.map (kleene value))) ↔
      ∀ p q : Predicate, p.IsAtom → (p == q) = true → value p = value q := by
  constructor
  · intro h p q hp hsame
    -- both joins of the two are the first
    refine Truth.eq_of_joined fun op => ?_
    have hpair := h op [p, q]
    rw [combine_pair op hp hsame, List.map_cons, List.map_singleton, kleene_of_isAtom hp,
      kleene_of_isAtom (isAtom_of_same hp hsame)] at hpair
    exact hpair.symm
  · intro h op ps
    have htruth := truth_combine ⟨value, fun {p q} => h p q⟩ op ps
    rw [truth_eq_kleene] at htruth
    rw [htruth]
    exact congrArg _ (List.map_congr_left fun p _ => truth_eq_kleene _ p)

end Predicate

/-! ## Lists without repetitions

What follows assumes of equality that it is symmetric and transitive, and no more. -/

section EraseDups

variable {α : Type} [BEq α]

/-- Dropping repetitions commutes with a filter that treats equal items alike. -/
theorem eraseDups_filter {keep : α → Bool} (hkeep : ∀ {a b}, (a == b) = true → keep a = keep b) :
    ∀ l : List α, (l.filter keep).eraseDups = l.eraseDups.filter keep
  | [] => by simp
  | a :: l => by
    rw [List.eraseDups_cons]
    by_cases ha : keep a = true
    · rw [List.filter_cons_of_pos ha, List.filter_cons_of_pos ha, List.eraseDups_cons,
        ← eraseDups_filter hkeep, List.filter_comm]
    · -- what equals `a` is not kept either
      have hsame : (l.filter fun b => !b == a).filter keep = l.filter keep := by
        rw [List.filter_filter]
        refine List.filter_congr fun b _ => ?_
        by_cases hb : (b == a) = true
        · simp [hkeep hb, ha]
        · simp [hb]
      rw [List.filter_cons_of_neg ha, List.filter_cons_of_neg ha, ← eraseDups_filter hkeep, hsame]
termination_by l => l.length
decreasing_by all_goals exact Nat.lt_succ_of_le (List.length_filter_le _ _)

/-- Whether an item equals none of a list. -/
def isNew (seen : List α) (a : α) : Bool := seen.all fun b => !a == b

theorem isNew_eq_false {seen : List α} {a : α} :
    isNew seen a = false ↔ ∃ b ∈ seen, (a == b) = true := by
  simp [isNew]

theorem eraseDups_ne_nil {l : List α} (h : l ≠ []) : l.eraseDups ≠ [] := by
  cases l with
  | nil => exact absurd rfl h
  | cons a l => simp [List.eraseDups_cons]

theorem eraseDups_idem (l : List α) : l.eraseDups.eraseDups = l.eraseDups :=
  eraseDups_eq_self (pairwise_eraseDups l)

variable [PartialEquivBEq α]

theorem isNew_congr (seen : List α) {a b : α} (h : (a == b) = true) :
    isNew seen a = isNew seen b := by
  simp only [isNew, BEq.congr_left h]

/-- An item equals one of a list, or one of those that are kept of it. -/
theorem isNew_eraseDups (l : List α) : isNew l.eraseDups = isNew (α := α) l := by
  funext a
  rw [Bool.eq_iff_iff, ← not_iff_not, Bool.not_eq_true, Bool.not_eq_true, isNew_eq_false,
    isNew_eq_false]
  constructor
  · rintro ⟨b, hb, hab⟩
    exact ⟨b, mem_of_mem_eraseDups hb, hab⟩
  · rintro ⟨b, hb, hab⟩
    obtain ⟨c, hc, rfl | hbc⟩ := exists_mem_eraseDups hb
    · exact ⟨b, hc, hab⟩
    · exact ⟨c, hc, BEq.trans hab hbc⟩

/-- Of two lists one after the other, the second keeps what is new after the first. -/
theorem eraseDups_append (xs ys : List α) :
    (xs ++ ys).eraseDups = xs.eraseDups ++ (ys.filter (isNew xs)).eraseDups := by
  induction xs with
  | nil =>
    have hall : ys.filter (isNew []) = ys := List.filter_eq_self.2 fun _ _ => rfl
    rw [hall]
    rfl
  | cons a xs ih =>
    have hkeep : ∀ {b c : α}, (b == c) = true → (!b == a) = !c == a := fun h => by
      rw [BEq.congr_left h]
    have hnew : ((ys.filter (isNew xs)).filter fun b => !b == a) = ys.filter (isNew (a :: xs)) := by
      rw [List.filter_filter]
      rfl
    rw [List.cons_append, List.eraseDups_cons, List.eraseDups_cons, eraseDups_filter hkeep, ih,
      List.filter_append, ← eraseDups_filter hkeep, ← eraseDups_filter hkeep, hnew,
      List.cons_append]

/-- Repetitions may be dropped from the first of two lists beforehand. -/
theorem eraseDups_append_left (xs ys : List α) :
    (xs.eraseDups ++ ys).eraseDups = (xs ++ ys).eraseDups := by
  rw [eraseDups_append, eraseDups_append, eraseDups_idem, isNew_eraseDups]

/-- Repetitions may be dropped from the second of two lists beforehand. -/
theorem eraseDups_append_right (xs ys : List α) :
    (xs ++ ys.eraseDups).eraseDups = (xs ++ ys).eraseDups := by
  rw [eraseDups_append, eraseDups_append, ← eraseDups_filter (isNew_congr xs), eraseDups_idem]

/-- **Repetitions may be dropped group by group beforehand.** -/
theorem eraseDups_flatMap (groups : List (List α)) :
    (groups.flatMap List.eraseDups).eraseDups = groups.flatten.eraseDups := by
  induction groups with
  | nil => rfl
  | cons group groups ih =>
    rw [List.flatMap_cons, List.flatten_cons, eraseDups_append_left, ← eraseDups_append_right, ih,
      eraseDups_append_right]

/-- A list after itself has nothing new, except for the items that differ from themselves. -/
theorem filter_isNew_self (l : List α) : l.filter (isNew l) = l.filter fun a => !a == a := by
  refine List.filter_congr fun a ha => ?_
  rw [Bool.eq_iff_iff, ← not_iff_not, Bool.not_eq_true, Bool.not_eq_true, isNew_eq_false]
  constructor
  · rintro ⟨b, -, hab⟩
    simpa using BEq.trans hab (BEq.symm hab)
  · intro hself
    exact ⟨a, ha, by simpa using hself⟩

end EraseDups

/-! ## Equality is a partial equivalence -/

theorem list_beq_trans {α : Type} [BEq α] [PartialEquivBEq α] : ∀ {xs ys zs : List α},
    (xs == ys) = true → (ys == zs) = true → (xs == zs) = true
  | [], [], _, _, h => h
  | [], _ :: _, _, h, _ => by cases h
  | _ :: _, [], _, h, _ => by cases h
  | _ :: _, _ :: _, [], _, h => by cases h
  | x :: xs, y :: ys, z :: zs, h, h' => by
    rw [List.cons_beq_cons, Bool.and_eq_true] at h h' ⊢
    exact ⟨BEq.trans h.1 h'.1, list_beq_trans h.2 h'.2⟩

instance : PartialEquivBEq Binary64 where
  symm h := by rwa [Binary64.beq_comm]
  trans {a b c} h h' := by
    change a.same b = true at h
    change b.same c = true at h'
    change a.same c = true
    cases a <;> cases b <;> cases c <;> grind [Binary64.same]

instance : PartialEquivBEq Expression where
  symm h := by rwa [Expression.beq_comm]
  trans {a b c} h h' := by
    change a.same b = true at h
    change b.same c = true at h'
    change a.same c = true
    cases a with
    | double value =>
      cases b <;> simp only [Expression.same, Bool.false_eq_true] at h
      cases c <;> simp only [Expression.same, Bool.false_eq_true] at h' ⊢
      exact BEq.trans h h'
    | numbers values =>
      cases b <;> simp only [Expression.same, Bool.false_eq_true] at h
      cases c <;> simp only [Expression.same, Bool.false_eq_true] at h' ⊢
      exact list_beq_trans h h'
    | _ =>
      -- what equals another operand is that operand
      obtain rfl := Expression.eq_of_same (by trivial) h
      exact h'

namespace Predicate

/-- What equals a predicate equals those that the predicate equals. -/
theorem congruent_beq :
    Congruent fun p q => ∀ r : Predicate, same q r = true → same p r = true where
  comparison op hleft hright r h := by
    cases r <;> simp only [same, Bool.and_eq_true, Bool.false_eq_true] at h ⊢
    exact ⟨⟨BEq.trans hleft h.1.1, h.1.2⟩, BEq.trans hright h.2⟩
  compound op hall r h := by
    cases r <;> simp only [same, Bool.and_eq_true, Bool.false_eq_true] at h ⊢
    refine ⟨h.1, ?_⟩
    obtain ⟨-, h⟩ := h
    rename_i operands''
    induction hall generalizing operands'' with
    | nil => exact h
    | cons hpq _ ih =>
      cases operands'' with
      | nil => simp [sameAll] at h
      | cons r rs =>
        simp only [sameAll, Bool.and_eq_true] at h ⊢
        exact ⟨hpq r h.1, ih rs h.2⟩
  negation hoperand r h := by
    cases r <;> simp only [same, Bool.false_eq_true] at h ⊢
    exact hoperand _ h
  isNull hoperand r h := by
    cases r <;> simp only [same, Bool.false_eq_true] at h ⊢
    exact BEq.trans hoperand h
  isNotNull hoperand r h := by
    cases r <;> simp only [same, Bool.false_eq_true] at h ⊢
    exact BEq.trans hoperand h
  between hoperand hstart hstop r h := by
    cases r <;> simp only [same, Bool.and_eq_true, Bool.false_eq_true] at h ⊢
    exact ⟨⟨BEq.trans hoperand h.1.1, BEq.trans hstart h.1.2⟩, BEq.trans hstop h.2⟩
  existsRow rowName joinNames hbody r h := by
    cases r <;> simp only [same, Bool.and_eq_true, Bool.false_eq_true] at h ⊢
    exact ⟨h.1, hbody _ h.2⟩

instance : PartialEquivBEq Predicate where
  symm h := by rwa [beq_comm]
  trans h h' := congruent_beq.of_same h _ h'

end Predicate

/-! ## Predicates that equal themselves -/

theorem list_beq_self_iff {α : Type} [BEq α] : ∀ {xs : List α},
    (xs == xs) = true ↔ ∀ x ∈ xs, (x == x) = true
  | [] => by simp
  | x :: xs => by
    rw [List.cons_beq_cons, Bool.and_eq_true, list_beq_self_iff, List.forall_mem_cons]

theorem Decimal.Binary64.beq_self_iff {a : Binary64} : (a == a) = true ↔ a ≠ .nan := by
  change a.same a = true ↔ _
  cases a <;> simp [Binary64.same]

/-- An operand without `nan`. -/
def Expression.NaNFree : Expression → Prop
  | .double value => value ≠ .nan
  | .numbers values => ∀ value ∈ values, value ≠ .nan
  | _ => True

theorem Expression.beq_self_iff {e : Expression} : (e == e) = true ↔ e.NaNFree := by
  change e.same e = true ↔ _
  cases e with
  | double value => exact Binary64.beq_self_iff
  | numbers values =>
    rw [Expression.same, list_beq_self_iff]
    exact forall₂_congr fun _ _ => Binary64.beq_self_iff
  | _ => simp [Expression.same, Expression.NaNFree]

namespace Predicate

/-- A predicate without `nan`. -/
inductive NaNFree : Predicate → Prop
  | comparison {left op right} : left.NaNFree → right.NaNFree → NaNFree (.comparison left op right)
  | compound {op operands} : (∀ p ∈ operands, NaNFree p) → NaNFree (.compound op operands)
  | negation {operand} : NaNFree operand → NaNFree (.negation operand)
  | isNull {operand} : operand.NaNFree → NaNFree (.isNull operand)
  | isNotNull {operand} : operand.NaNFree → NaNFree (.isNotNull operand)
  | between {operand start stop} : operand.NaNFree → start.NaNFree → stop.NaNFree →
      NaNFree (.between operand start stop)
  | existsRow {rowName joinNames body} : NaNFree body → NaNFree (.existsRow rowName joinNames body)

theorem naNFree_compound {op : Connective} {operands : List Predicate} :
    NaNFree (.compound op operands) ↔ ∀ p ∈ operands, NaNFree p :=
  ⟨fun | .compound h => h, .compound⟩

mutual

/-- **A predicate equals itself exactly if there is no `nan` in it.** -/
theorem same_self_iff : ∀ p : Predicate, same p p = true ↔ p.NaNFree
  | .comparison left op right => by
    simp only [same, Bool.and_eq_true, beq_self_eq_true, and_true, Expression.beq_self_iff]
    exact ⟨fun h => .comparison h.1 h.2, fun | .comparison hl hr => ⟨hl, hr⟩⟩
  | .compound op operands => by
    simp only [same, beq_self_eq_true, Bool.true_and, sameAll_self_iff operands, naNFree_compound]
  | .negation operand => by
    rw [same, same_self_iff operand]
    exact ⟨.negation, fun | .negation h => h⟩
  | .isNull operand => by
    rw [same, Expression.beq_self_iff]
    exact ⟨.isNull, fun | .isNull h => h⟩
  | .isNotNull operand => by
    rw [same, Expression.beq_self_iff]
    exact ⟨.isNotNull, fun | .isNotNull h => h⟩
  | .between operand start stop => by
    simp only [same, Bool.and_eq_true, Expression.beq_self_iff]
    exact ⟨fun h => .between h.1.1 h.1.2 h.2, fun | .between ho hs ht => ⟨⟨ho, hs⟩, ht⟩⟩
  | .existsRow rowName joinNames body => by
    simp only [same, beq_self_eq_true, Bool.true_and, same_self_iff body]
    exact ⟨.existsRow, fun | .existsRow h => h⟩

theorem sameAll_self_iff : ∀ ps : List Predicate, sameAll ps ps = true ↔ ∀ p ∈ ps, p.NaNFree
  | [] => by simp [sameAll]
  | p :: ps => by
    rw [sameAll, Bool.and_eq_true, same_self_iff p, sameAll_self_iff ps, List.forall_mem_cons]

end

/-! ## Grouping and repetition -/

variable {op : Connective} {ps qs : List Predicate}

theorem flattened_append (op : Connective) (ps qs : List Predicate) :
    flattened op (ps ++ qs) = flattened op ps ++ flattened op qs := List.flatMap_append

/-- A join depends on nothing but the operands that are kept. -/
theorem combine_congr (h : (flattened op ps).eraseDups = (flattened op qs).eraseDups) :
    combine op ps = combine op qs := by
  unfold flattened at h
  rw [combine, combine, h]

theorem operandsUnder_eq_singleton {p : Predicate} (h : ∀ inner, p ≠ .compound op inner) :
    operandsUnder op p = [p] := by
  unfold operandsUnder
  split
  · rename_i op' operands
    split
    · rename_i heq
      exact absurd (by rw [heq]) (h operands)
    · rfl
  · rfl

/-- **A join of normal predicates contributes its operands** to a join of the same connective: one
that is unwrapped is no compound of the connective, so it is not taken apart. -/
theorem operandsUnder_combine (h : ∀ p ∈ ps, p.Normal) :
    operandsUnder op (combine op ps) = (flattened op ps).eraseDups := by
  rcases combine_cases op ps with hone | hmany
  · have hmem : combine op ps ∈ flattened op ps :=
      mem_of_mem_eraseDups (hone ▸ List.mem_singleton.2 rfl)
    obtain ⟨q, hq, hmem⟩ := List.mem_flatMap.1 hmem
    rw [hone, operandsUnder_eq_singleton ((h q hq).operandsUnder hmem).2]
  · rw [hmany, operandsUnder, if_pos rfl]

theorem flattened_map_combine {groups : List (List Predicate)}
    (h : ∀ group ∈ groups, ∀ p ∈ group, p.Normal) :
    flattened op (groups.map (combine op)) =
      (groups.map (flattened op)).flatMap List.eraseDups := by
  rw [flattened, List.flatMap_map, List.flatMap_map]
  exact List.flatMap_congr fun group hgroup => operandsUnder_combine (h group hgroup)

theorem flattened_flatten (op : Connective) (groups : List (List Predicate)) :
    flattened op groups.flatten = (groups.map (flattened op)).flatten := by
  induction groups with
  | nil => rfl
  | cons group groups ih => rw [List.flatten_cons, flattened_append, ih, List.map_cons,
      List.flatten_cons]

/-- **Grouping does not matter**: joining what groups of normal predicates are joined to is joining
all of them. -/
theorem combine_map_combine {groups : List (List Predicate)}
    (h : ∀ group ∈ groups, ∀ p ∈ group, p.Normal) :
    combine op (groups.map (combine op)) = combine op groups.flatten := by
  refine combine_congr ?_
  rw [flattened_map_combine h, eraseDups_flatMap, flattened_flatten]

/-- A join that keeps the same operands and others after them is another one. -/
theorem combine_ne_of_append {more : List Predicate} (hkept : (flattened op ps).eraseDups ≠ [])
    (hmore : more ≠ []) (h : (flattened op qs).eraseDups = (flattened op ps).eraseDups ++ more) :
    combine op qs ≠ combine op ps := by
  intro heq
  rcases combine_cases op qs with hone | hmany
  · -- there are at least two operands, so none is unwrapped
    rw [h, List.append_eq_singleton_iff] at hone
    rcases hone with ⟨hnil, -⟩ | ⟨-, hnil⟩
    · exact hkept hnil
    · exact hmore hnil
  · rw [h, heq] at hmany
    rcases combine_cases op ps with hone | hsame
    · -- the only operand would be a compound of itself and the others
      rw [hone] at hmany
      have hsize := congrArg sizeOf hmany
      simp only [List.singleton_append, compound.sizeOf_spec, List.cons.sizeOf_spec] at hsize
      omega
    · rw [hsame] at hmany
      exact hmore (List.append_right_eq_self.1 (compound.inj hmany).2.symm)

/-- **Repetition matters only to `nan`**: joining a list with itself is joining the list, exactly if
there is no `nan` in it. -/
theorem combine_append_self : combine op (ps ++ ps) = combine op ps ↔ ∀ p ∈ ps, p.NaNFree := by
  have hkept : (flattened op (ps ++ ps)).eraseDups = (flattened op ps).eraseDups ++
      ((flattened op ps).filter fun p => !p == p).eraseDups := by
    rw [flattened_append, eraseDups_append, filter_isNew_self]
  have hfree : (∀ p ∈ flattened op ps, p.NaNFree) ↔ ∀ p ∈ ps, p.NaNFree :=
    forall_mem_flattened fun _ _ => naNFree_compound
  rw [← hfree]
  constructor
  · intro heq p hp
    by_contra hnan
    have hmem : p ∈ (flattened op ps).filter fun p => !p == p := by
      rw [List.mem_filter, Bool.not_eq_true', Bool.eq_false_iff]
      exact ⟨hp, fun hself => hnan ((same_self_iff p).1 hself)⟩
    exact combine_ne_of_append (eraseDups_ne_nil (List.ne_nil_of_mem hp))
      (eraseDups_ne_nil (List.ne_nil_of_mem hmem)) hkept heq
  · intro hall
    have hnone : ((flattened op ps).filter fun p => !p == p) = [] := by
      refine List.filter_eq_nil_iff.2 fun p hp => ?_
      rw [show (p == p) = true from (same_self_iff p).2 (hall p hp)]
      decide
    refine combine_congr ?_
    rw [hkept, hnone, List.eraseDups_nil, List.append_nil]

/-- **Grouping and repetition do not matter to a join.** Normal predicates may be joined group by
group beforehand, and the result is the very same predicate. A list may be joined with itself,
exactly if there is no `nan` in it. -/
theorem combine_regroup (op : Connective) :
    (∀ groups : List (List Predicate), (∀ group ∈ groups, ∀ p ∈ group, p.Normal) →
      combine op (groups.map (combine op)) = combine op groups.flatten) ∧
    ∀ ps : List Predicate, combine op (ps ++ ps) = combine op ps ↔ ∀ p ∈ ps, p.NaNFree :=
  ⟨fun _ => combine_map_combine, fun _ => combine_append_self⟩

/-- The zero of a sign. -/
def zeroPrice (negative : Bool) : Binary64 := .finite negative ⟨0, by decide⟩

/-- The price of a product is the given number. -/
def priceIs (price : Binary64) : Predicate :=
  .comparison (.extract "p" "data.fields.Price.value") .eq (.double price)

/-- The two zeros in one group, which are equal, then `nan`, then a disjunction. -/
def priceGroups : List (List Predicate) :=
  [[priceIs (zeroPrice false), priceIs (zeroPrice true)], [priceIs .nan], [],
   [.compound .or [priceIs .nan, priceIs .nan]]]

theorem priceGroups_regroup :
    (∀ group ∈ priceGroups, ∀ p ∈ group, p.Normal) ∧
    combine .and (priceGroups.map (combine .and)) = combine .and priceGroups.flatten ∧
    combine .and priceGroups.flatten = .compound .and
      [priceIs (zeroPrice false), priceIs .nan, .compound .or [priceIs .nan, priceIs .nan]] ∧
    (∀ p ∈ [priceIs (zeroPrice true)], p.NaNFree) ∧
    combine .and ([priceIs (zeroPrice true)] ++ [priceIs (zeroPrice true)]) =
      combine .and [priceIs (zeroPrice true)] := by
  have hprice : ∀ price, (priceIs price).Normal := fun _ => .comparison
  have hnormal : ∀ group ∈ priceGroups, ∀ p ∈ group, p.Normal := by
    simp only [priceGroups, List.forall_mem_cons, List.not_mem_nil, false_implies, implies_true,
      and_true, true_and]
    refine ⟨⟨hprice _, hprice _⟩, hprice _, .compound (by decide) ?_ (by simp [priceIs]) ?_⟩
    · simpa using hprice .nan
    · exact List.pairwise_pair.2 ⟨rfl, rfl⟩
  have hfree : ∀ p ∈ [priceIs (zeroPrice true)], p.NaNFree := by
    rw [List.forall_mem_singleton]
    exact .comparison trivial Binary64.noConfusion
  exact ⟨hnormal, (combine_regroup .and).1 _ hnormal, rfl, hfree,
    ((combine_regroup .and).2 _).2 hfree⟩

end Predicate

end SoupQuery
