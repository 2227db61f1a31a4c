import SoupQuery.Proofs.Predicate

/-!
# Interpretations of predicates

What a predicate means, once its atoms have a meaning, and that joining predicates by a connective
joins what they mean.

* `Interpretation` — a meaning for atoms, negation and the two connectives; both connectives are
  associative, commutative and idempotent, and atoms that are equal mean the same.
* `Predicate.interpret` — the meaning of a predicate.
* `interpret_eq_of_same` — predicates that are equal mean the same.
* `interpret_eq` — a reading that follows connectives and negations is the meaning.
* `interpret_combine` — **a join means the join of the meanings**: flattening, dropping repetitions
  and unwrapping a single operand change nothing.
* `Truth`, `Valuation`, `Predicate.truth` — three-valued logic.
* `Predicate.hasAtom` — whether a predicate has an atom at all.
-/

namespace SoupQuery

/-- A predicate that is not made of others by connectives and negation. -/
def Predicate.IsAtom : Predicate → Prop
  | .compound _ _ | .negation _ => False
  | _ => True

/-- A meaning for atoms, negation and connectives. -/
structure Interpretation (β : Type) where
  atom : Predicate → β
  negate : β → β
  join : Connective → β → β → β
  unit : Connective → β
  join_assoc : ∀ op a b c, join op (join op a b) c = join op a (join op b c)
  join_comm : ∀ op a b, join op a b = join op b a
  join_self : ∀ op a, join op a a = a
  unit_join : ∀ op a, join op (unit op) a = a
  atom_eq : ∀ {p q : Predicate}, p.IsAtom → (p == q) = true → atom p = atom q

namespace Interpretation

variable {β : Type} (i : Interpretation β) {op : Connective} {xs ys : List β} {b : β}

/-- The join of a list of meanings. -/
def joined (op : Connective) (xs : List β) : β := xs.foldr (i.join op) (i.unit op)

@[simp] theorem joined_nil : i.joined op [] = i.unit op := rfl

@[simp] theorem joined_cons : i.joined op (b :: xs) = i.join op b (i.joined op xs) := rfl

theorem joined_append : i.joined op (xs ++ ys) = i.join op (i.joined op xs) (i.joined op ys) := by
  induction xs with
  | nil => simp [i.unit_join]
  | cons x xs ih => simp [ih, i.join_assoc]

theorem joined_singleton : i.joined op [b] = b := by
  rw [joined_cons, joined_nil, i.join_comm, i.unit_join]

end Interpretation

namespace Predicate

variable {β : Type} (i : Interpretation β)

mutual

/-- The meaning of a predicate. -/
def interpret : Predicate → β
  | .compound op operands => i.joined op (interpretAll operands)
  | .negation operand => i.negate (interpret operand)
  | .comparison left op right => i.atom (.comparison left op right)
  | .isNull operand => i.atom (.isNull operand)
  | .isNotNull operand => i.atom (.isNotNull operand)
  | .between operand start stop => i.atom (.between operand start stop)
  | .existsRow rowName joinNames body => i.atom (.existsRow rowName joinNames body)

def interpretAll : List Predicate → List β
  | [] => []
  | operand :: operands => interpret operand :: interpretAll operands

end

theorem interpretAll_eq_map (ps : List Predicate) : interpretAll i ps = ps.map (interpret i) := by
  induction ps with
  | nil => rfl
  | cons p ps ih => rw [interpretAll, ih, List.map_cons]

theorem interpret_compound (op : Connective) (operands : List Predicate) :
    interpret i (.compound op operands) = i.joined op (operands.map (interpret i)) := by
  rw [interpret, interpretAll_eq_map]

theorem interpret_of_isAtom {p : Predicate} (h : p.IsAtom) : interpret i p = i.atom p := by
  cases p with
  | compound _ _ => exact h.elim
  | negation _ => exact h.elim
  | _ => rfl

theorem isAtom_of_same {p q : Predicate} (hp : p.IsAtom) (h : same p q = true) : q.IsAtom := by
  cases q with
  | compound _ _ => cases p <;> simp_all [same, IsAtom]
  | negation _ => cases p <;> simp_all [same, IsAtom]
  | _ => trivial

theorem interpret_eq_of_isAtom {p q : Predicate} (hp : p.IsAtom) (h : same p q = true) :
    interpret i p = interpret i q := by
  rw [interpret_of_isAtom i hp, interpret_of_isAtom i (isAtom_of_same hp h)]
  exact i.atom_eq hp h

mutual

theorem interpret_eq_of_same : ∀ {p q : Predicate}, same p q = true → interpret i p = interpret i q
  | p, q, h => by
    cases p with
    | compound op operands =>
      cases q <;> simp only [same, Bool.and_eq_true, Bool.false_eq_true] at h
      rw [interpret, interpret, interpretAll_eq_of_sameAll h.2, beq_iff_eq.1 h.1]
    | negation operand =>
      cases q <;> simp only [same, Bool.false_eq_true] at h
      rw [interpret, interpret, interpret_eq_of_same h]
    | _ => exact interpret_eq_of_isAtom i trivial h

theorem interpretAll_eq_of_sameAll : ∀ {ps qs : List Predicate}, sameAll ps qs = true →
    interpretAll i ps = interpretAll i qs
  | [], [], _ => rfl
  | [], _ :: _, h => by simp [sameAll] at h
  | _ :: _, [], h => by simp [sameAll] at h
  | p :: ps, q :: qs, h => by
    simp only [sameAll, Bool.and_eq_true] at h
    rw [interpretAll, interpretAll, interpret_eq_of_same h.1, interpretAll_eq_of_sameAll h.2]

end

mutual

/-- A reading of predicates that follows connectives and negations is their meaning. -/
theorem interpret_eq {f : Predicate → β}
    (hcompound : ∀ op operands, f (.compound op operands) = i.joined op (operands.map f))
    (hnegation : ∀ operand, f (.negation operand) = i.negate (f operand))
    (hatom : ∀ p : Predicate, p.IsAtom → f p = i.atom p) : ∀ p : Predicate, interpret i p = f p
  | .compound op operands => by
    rw [interpret, interpretAll_eq hcompound hnegation hatom operands, hcompound]
  | .negation operand => by
    rw [interpret, interpret_eq hcompound hnegation hatom operand, hnegation]
  | .comparison _ _ _ | .isNull _ | .isNotNull _ | .between _ _ _ | .existsRow _ _ _ =>
    (hatom _ (by trivial)).symm

theorem interpretAll_eq {f : Predicate → β}
    (hcompound : ∀ op operands, f (.compound op operands) = i.joined op (operands.map f))
    (hnegation : ∀ operand, f (.negation operand) = i.negate (f operand))
    (hatom : ∀ p : Predicate, p.IsAtom → f p = i.atom p) :
    ∀ ps : List Predicate, interpretAll i ps = ps.map f
  | [] => rfl
  | p :: ps => by
    rw [interpretAll, interpret_eq hcompound hnegation hatom p,
      interpretAll_eq hcompound hnegation hatom ps, List.map_cons]

end

/-! ## Joins -/

variable (op : Connective)

/-- What a predicate contributes to a compound means what the predicate means. -/
theorem joined_operandsUnder (p : Predicate) :
    i.joined op ((operandsUnder op p).map (interpret i)) = interpret i p := by
  unfold operandsUnder
  split
  · rename_i op' operands
    split
    · rename_i heq
      rw [heq, interpret_compound]
    · exact i.joined_singleton
  · exact i.joined_singleton

theorem joined_flattened (ps : List Predicate) :
    i.joined op ((flattened op ps).map (interpret i)) = i.joined op (ps.map (interpret i)) := by
  induction ps with
  | nil => rfl
  | cons p ps ih =>
    have hsplit : flattened op (p :: ps) = operandsUnder op p ++ flattened op ps :=
      List.flatMap_cons
    rw [hsplit, List.map_append, i.joined_append, joined_operandsUnder, ih, List.map_cons,
      i.joined_cons]

/-- Beside a predicate, those that equal it can be dropped. -/
theorem join_joined_filter (p : Predicate) (ps : List Predicate) :
    i.join op (interpret i p) (i.joined op ((ps.filter fun q => !q == p).map (interpret i))) =
      i.join op (interpret i p) (i.joined op (ps.map (interpret i))) := by
  induction ps with
  | nil => rfl
  | cons q ps ih =>
    by_cases hq : (q == p) = true
    · have hdrop : ((q :: ps).filter fun q => !q == p) = ps.filter fun q => !q == p := by
        simp [hq]
      rw [hdrop, ih, List.map_cons, i.joined_cons, interpret_eq_of_same i hq, ← i.join_assoc,
        i.join_self]
    · have hkeep : ((q :: ps).filter fun q => !q == p) = q :: ps.filter fun q => !q == p := by
        simp [hq]
      -- `q` is moved out of the way, so that `p` stands before the rest
      rw [hkeep, List.map_cons, List.map_cons, i.joined_cons, i.joined_cons, ← i.join_assoc,
        i.join_comm op _ (interpret i q), i.join_assoc, ih, ← i.join_assoc,
        i.join_comm op (interpret i q), i.join_assoc]

theorem joined_eraseDups : ∀ ps : List Predicate,
    i.joined op (ps.eraseDups.map (interpret i)) = i.joined op (ps.map (interpret i))
  | [] => by simp
  | p :: ps => by
    rw [List.eraseDups_cons, List.map_cons, i.joined_cons, joined_eraseDups, join_joined_filter,
      List.map_cons, i.joined_cons]
termination_by ps => ps.length
decreasing_by exact Nat.lt_succ_of_le (List.length_filter_le _ _)

/-- **A join means the join of the meanings.** -/
theorem interpret_combine (ps : List Predicate) :
    interpret i (combine op ps) = i.joined op (ps.map (interpret i)) := by
  rw [← joined_flattened, ← joined_eraseDups]
  rcases combine_cases op ps with hone | hmany
  · rw [hone]
    exact i.joined_singleton.symm
  · rw [hmany, interpret_compound]

end Predicate

/-! ## Three-valued logic -/

/-- The truth values of three-valued logic, in ascending order. -/
inductive Truth where
  | fails
  | unknown
  | holds
  deriving DecidableEq, Repr, Inhabited

namespace Truth

def not : Truth → Truth
  | .fails => .holds
  | .unknown => .unknown
  | .holds => .fails

/-- Conjunction: the lesser of two values. -/
def and : Truth → Truth → Truth
  | .fails, _ | _, .fails => .fails
  | .unknown, _ | _, .unknown => .unknown
  | .holds, .holds => .holds

/-- Disjunction: the greater of two values. -/
def or : Truth → Truth → Truth
  | .holds, _ | _, .holds => .holds
  | .unknown, _ | _, .unknown => .unknown
  | .fails, .fails => .fails

/-- The conjunction or the disjunction of a list; that of no values is true or false. -/
def joined : Connective → List Truth → Truth
  | .and, values => values.foldr and .holds
  | .or, values => values.foldr or .fails

end Truth

/-- A truth value for each atom, the same for atoms that are equal. -/
structure Valuation where
  value : Predicate → Truth
  value_eq : ∀ {p q : Predicate}, p.IsAtom → (p == q) = true → value p = value q

/-- The same truth value for all atoms. -/
def Valuation.constant (truth : Truth) : Valuation where
  value _ := truth
  value_eq _ _ := rfl

/-- Three-valued logic over a valuation. -/
def Valuation.logic (v : Valuation) : Interpretation Truth where
  atom := v.value
  negate := Truth.not
  join
    | .and => Truth.and
    | .or => Truth.or
  unit
    | .and => .holds
    | .or => .fails
  join_assoc op a b c := by cases op <;> cases a <;> cases b <;> cases c <;> rfl
  join_comm op a b := by cases op <;> cases a <;> cases b <;> rfl
  join_self op a := by cases op <;> cases a <;> rfl
  unit_join op a := by cases op <;> cases a <;> rfl
  atom_eq := v.value_eq

theorem Valuation.logic_joined (v : Valuation) (op : Connective) (values : List Truth) :
    v.logic.joined op values = Truth.joined op values := by
  cases op <;> rfl

/-- The truth value of a predicate. -/
def Predicate.truth (v : Valuation) (p : Predicate) : Truth := p.interpret v.logic

theorem Predicate.truth_combine (v : Valuation) (op : Connective) (ps : List Predicate) :
    (combine op ps).truth v = Truth.joined op (ps.map (truth v)) := by
  rw [← v.logic_joined]
  exact interpret_combine v.logic op ps

/-! ## Presence of atoms -/

/-- Whether there is an atom, whatever it says. -/
def Interpretation.presence : Interpretation Bool where
  atom _ := true
  negate b := b
  join _ := Bool.or
  unit _ := false
  join_assoc _ := Bool.or_assoc
  join_comm _ := Bool.or_comm
  join_self _ := Bool.or_self
  unit_join _ := Bool.false_or
  atom_eq _ _ := rfl

theorem Interpretation.presence_joined (op : Connective) (values : List Bool) :
    presence.joined op values = values.any id := by
  induction values with
  | nil => rfl
  | cons value values ih =>
    rw [joined_cons, ih]
    rfl

/-- Whether a predicate has an atom. -/
def Predicate.hasAtom (p : Predicate) : Bool := p.interpret .presence

theorem Predicate.hasAtom_combine (op : Connective) (ps : List Predicate) :
    (combine op ps).hasAtom = (ps.map hasAtom).any id := by
  rw [← Interpretation.presence_joined op]
  exact interpret_combine .presence op ps

/-- A compound of nothing has no atom. -/
theorem Predicate.hasAtom_of_isEmpty {p : Predicate} (h : p.isEmpty = true) :
    p.hasAtom = false := by
  obtain ⟨op, rfl⟩ := isEmpty_iff.1 h
  rfl

end SoupQuery
