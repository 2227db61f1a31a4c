import Mathlib.Data.List.Forall2
import SoupQuery.Predicate

/-!
# The algebra of predicates

What joining predicates by a connective keeps: flattening, dropping repetitions and unwrapping a
single operand lose no condition and make up none.

* `combine_cases` — a join is its only operand, or a compound of its distinct operands.
* `combine_closed` — a property that compounds share with their operands passes to a join.
* `combine_exists` — a join has what one of its operands has.
* `isEmpty_combine` — a join of compounds of nothing is a compound of nothing.
* `Predicate.Exact` — a predicate that equals no other one; only doubles can differ and be equal.
* `Predicate.HasConjunct` — a condition that a predicate is, or has at the top of a conjunction.
* `hasConjunct_combine` — joining keeps every exact condition at the top.
* `Congruent` — a relation that passes from the parts of predicates to the whole; it holds between
  predicates that are equal.
-/

namespace SoupQuery

/-! ## Lists without repetitions

Equality of predicates is neither reflexive nor does it imply identity, so what follows assumes no
law of it. -/

section EraseDups

variable {α : Type} [BEq α]

theorem mem_of_mem_eraseDups : ∀ {l : List α} {a : α}, a ∈ l.eraseDups → a ∈ l
  | [], _, h => by simp at h
  | b :: l, a, h => by
    rw [List.eraseDups_cons, List.mem_cons] at h
    rcases h with rfl | h
    · exact List.mem_cons_self ..
    · exact List.mem_cons_of_mem _ (List.mem_filter.1 (mem_of_mem_eraseDups h)).1
termination_by l => l.length
decreasing_by exact Nat.lt_succ_of_le (List.length_filter_le _ _)

/-- No item that is kept equals an earlier one. -/
theorem pairwise_eraseDups : ∀ l : List α, l.eraseDups.Pairwise fun a b => (b == a) = false
  | [] => by simp
  | a :: l => by
    rw [List.eraseDups_cons]
    refine .cons (fun b hb => ?_) (pairwise_eraseDups _)
    simpa using (List.mem_filter.1 (mem_of_mem_eraseDups hb)).2
termination_by l => l.length
decreasing_by exact Nat.lt_succ_of_le (List.length_filter_le _ _)

/-- Nothing is dropped if no item equals an earlier one. -/
theorem eraseDups_eq_self : ∀ {l : List α}, (l.Pairwise fun a b => (b == a) = false) →
    l.eraseDups = l
  | [], _ => rfl
  | a :: l, h => by
    obtain ⟨hfirst, hrest⟩ := List.pairwise_cons.1 h
    have hkept : (l.filter fun b => !b == a) = l :=
      List.filter_eq_self.2 fun b hb => by rw [hfirst b hb]; rfl
    rw [List.eraseDups_cons, hkept, eraseDups_eq_self hrest]

/-- Each item is kept, or equal to one that is kept. -/
theorem exists_mem_eraseDups : ∀ {l : List α} {a : α}, a ∈ l →
    ∃ b ∈ l.eraseDups, a = b ∨ (a == b) = true
  | [], _, h => by simp at h
  | b :: l, a, h => by
    rw [List.eraseDups_cons]
    by_cases hb : a = b ∨ (a == b) = true
    · exact ⟨b, List.mem_cons_self .., hb⟩
    · have hl : a ∈ l := by
        rcases List.mem_cons.1 h with rfl | hl
        · exact absurd (.inl rfl) hb
        · exact hl
      have hmem : a ∈ l.filter fun c => !c == b := by
        rw [List.mem_filter]
        exact ⟨hl, by simpa using fun he => hb (.inr he)⟩
      obtain ⟨c, hc, hac⟩ := exists_mem_eraseDups hmem
      exact ⟨c, List.mem_cons_of_mem _ hc, hac⟩
termination_by l => l.length
decreasing_by exact Nat.lt_succ_of_le (List.length_filter_le _ _)

/-- Of items that are all the same, one is kept. -/
theorem eraseDups_eq_singleton {a : α} {l : List α} (hself : (a == a) = true) (hne : l ≠ [])
    (h : ∀ b ∈ l, b = a) : l.eraseDups = [a] := by
  cases l with
  | nil => exact absurd rfl hne
  | cons b l =>
    obtain ⟨rfl, hrest⟩ := List.forall_mem_cons.1 h
    have hnone : (l.filter fun c => !c == b) = [] := by
      refine List.filter_eq_nil_iff.2 fun c hc => ?_
      rw [hrest c hc, hself]
      decide
    rw [List.eraseDups_cons, hnone]
    rfl

end EraseDups

/-- The other connective. -/
def Connective.dual : Connective → Connective
  | .and => .or
  | .or => .and

theorem Connective.eq_or_eq_dual (op op' : Connective) : op' = op ∨ op' = op.dual := by
  cases op <;> cases op' <;> decide

namespace Predicate

variable {op : Connective} {predicates : List Predicate} {p q : Predicate}

/-! ## Joins -/

/-- What the predicates contribute to a compound, with repetitions. -/
def flattened (op : Connective) (predicates : List Predicate) : List Predicate :=
  predicates.flatMap (operandsUnder op)

theorem combine_cases (op : Connective) (predicates : List Predicate) :
    (flattened op predicates).eraseDups = [combine op predicates] ∨
      combine op predicates = .compound op (flattened op predicates).eraseDups := by
  unfold combine flattened
  split
  · rename_i only h
    exact .inl h
  · exact .inr rfl

theorem mem_operandsUnder (h : p ∈ operandsUnder op q) :
    p = q ∨ ∃ operands, q = .compound op operands ∧ p ∈ operands := by
  unfold operandsUnder at h
  split at h
  · rename_i op' operands
    split at h
    · rename_i heq
      exact .inr ⟨operands, by rw [heq], h⟩
    · exact .inl (List.mem_singleton.1 h)
  · exact .inl (List.mem_singleton.1 h)

/-- A property that a compound has exactly if its operands have it is shared by predicates and what
they contribute. -/
theorem forall_mem_flattened {P : Predicate → Prop}
    (hP : ∀ op operands, P (.compound op operands) ↔ ∀ p ∈ operands, P p) :
    (∀ p ∈ flattened op predicates, P p) ↔ ∀ p ∈ predicates, P p := by
  have hone : ∀ q, (∀ p ∈ operandsUnder op q, P p) ↔ P q := by
    intro q
    unfold operandsUnder
    split
    · split
      · exact (hP _ _).symm
      · exact List.forall_mem_singleton
    · exact List.forall_mem_singleton
  simp only [flattened, List.forall_mem_flatMap, hone]

/-- A property that a compound has exactly if its operands have it passes to a join. -/
theorem combine_closed {P : Predicate → Prop}
    (hP : ∀ op operands, P (.compound op operands) ↔ ∀ p ∈ operands, P p)
    (h : ∀ p ∈ predicates, P p) : P (combine op predicates) := by
  have hkept : ∀ p ∈ (flattened op predicates).eraseDups, P p := fun p hp =>
    (forall_mem_flattened hP).2 h p (mem_of_mem_eraseDups hp)
  rcases combine_cases op predicates with hone | hmany
  · exact hkept _ (hone ▸ List.mem_singleton.2 rfl)
  · rw [hmany]
    exact (hP op _).2 hkept

/-- A property that a compound has exactly if one of its operands has it, and that predicates share
with their equals, passes to a join from one of its operands. -/
theorem combine_exists {P : Predicate → Prop}
    (hP : ∀ op operands, P (.compound op operands) ↔ ∃ p ∈ operands, P p)
    (hsame : ∀ {p q}, (p == q) = true → (P p ↔ P q)) :
    P (combine op predicates) ↔ ∃ p ∈ predicates, P p := by
  have hkept : P (combine op predicates) ↔ ∃ p ∈ (flattened op predicates).eraseDups, P p := by
    rcases combine_cases op predicates with hone | hmany
    · simp [hone]
    · rw [hmany]
      exact hP op _
  rw [hkept]
  constructor
  · rintro ⟨p, hp, hPp⟩
    obtain ⟨q, hq, hpq⟩ := List.mem_flatMap.1 (mem_of_mem_eraseDups hp)
    rcases mem_operandsUnder hpq with rfl | ⟨operands, rfl, hmem⟩
    · exact ⟨p, hq, hPp⟩
    · exact ⟨_, hq, (hP op operands).2 ⟨p, hmem, hPp⟩⟩
  · rintro ⟨q, hq, hPq⟩
    obtain ⟨p, hp, hPp⟩ : ∃ p ∈ operandsUnder op q, P p := by
      unfold operandsUnder
      split
      · split
        · exact (hP _ _).1 hPq
        · exact ⟨_, List.mem_singleton.2 rfl, hPq⟩
      · exact ⟨_, List.mem_singleton.2 rfl, hPq⟩
    obtain ⟨kept, hkept, heq⟩ := exists_mem_eraseDups (List.mem_flatMap.2 ⟨q, hq, hp⟩)
    refine ⟨kept, hkept, ?_⟩
    rcases heq with rfl | hequal
    · exact hPp
    · exact (hsame hequal).1 hPp

/-! ## Compounds of nothing -/

theorem isEmpty_iff : p.isEmpty = true ↔ ∃ op, p = .compound op [] := by
  unfold isEmpty
  split
  · simp
  · rename_i hne
    simp only [Bool.false_eq_true, false_iff]
    rintro ⟨op, rfl⟩
    exact hne op rfl

/-- A join of compounds of nothing, all of the same connective, is one. -/
theorem combine_of_same (h : ∀ p ∈ predicates, p = .compound op []) :
    combine op predicates = .compound op [] := by
  have hnil : predicates.flatMap (operandsUnder op) = [] := by
    rw [List.flatMap_eq_nil_iff]
    intro p hp
    rw [h p hp, operandsUnder, if_pos rfl]
  unfold combine
  rw [hnil]
  rfl

/-- A join of compounds of nothing is the one of the other connective, if that is among them: the
others are flattened away, and it is unwrapped. -/
theorem combine_of_dual (hmem : .compound op.dual [] ∈ predicates)
    (h : ∀ p ∈ predicates, p.isEmpty = true) :
    combine op predicates = .compound op.dual [] := by
  have hne : op.dual ≠ op := by cases op <;> decide
  have hkept : ∀ p ∈ flattened op predicates, p = .compound op.dual [] := by
    intro p hp
    obtain ⟨q, hq, hpq⟩ := List.mem_flatMap.1 hp
    obtain ⟨op', rfl⟩ := isEmpty_iff.1 (h q hq)
    rcases op.eq_or_eq_dual op' with rfl | rfl
    · simp [operandsUnder] at hpq
    · simpa [operandsUnder, hne] using hpq
  have hsome : .compound op.dual [] ∈ flattened op predicates := by
    refine List.mem_flatMap.2 ⟨_, hmem, ?_⟩
    rw [operandsUnder, if_neg hne]
    exact List.mem_singleton.2 rfl
  have hself : (Predicate.compound op.dual [] == .compound op.dual []) = true := by cases op <;> rfl
  have hone : (flattened op predicates).eraseDups = [.compound op.dual []] :=
    eraseDups_eq_singleton hself (List.ne_nil_of_mem hsome) hkept
  unfold combine
  rw [show (predicates.flatMap (operandsUnder op)).eraseDups = _ from hone]

/-- **A join of compounds of nothing is a compound of nothing.** -/
theorem isEmpty_combine (h : ∀ p ∈ predicates, p.isEmpty = true) :
    (combine op predicates).isEmpty = true := by
  by_cases hdual : .compound op.dual [] ∈ predicates
  · rw [combine_of_dual hdual h]
    rfl
  · have hsame : ∀ p ∈ predicates, p = .compound op [] := by
      intro p hp
      obtain ⟨op', rfl⟩ := isEmpty_iff.1 (h p hp)
      rcases op.eq_or_eq_dual op' with rfl | rfl
      · rfl
      · exact absurd hp hdual
    rw [combine_of_same hsame]
    rfl

end Predicate

/-! ## Exact predicates -/

/-- An operand without doubles. -/
def Expression.Exact : Expression → Prop
  | .double _ | .numbers _ => False
  | _ => True

theorem Expression.eq_of_same {e e' : Expression} (he : e.Exact) (h : (e == e') = true) :
    e' = e := by
  have hsame : e.same e' = true := h
  cases e <;> cases e' <;> simp_all [Expression.same, Expression.Exact]

namespace Predicate

/-- A predicate without doubles. -/
inductive Exact : Predicate → Prop
  | comparison {left op right} : left.Exact → right.Exact → Exact (.comparison left op right)
  | compound {op operands} : (∀ p ∈ operands, Exact p) → Exact (.compound op operands)
  | negation {operand} : Exact operand → Exact (.negation operand)
  | isNull {operand} : operand.Exact → Exact (.isNull operand)
  | isNotNull {operand} : operand.Exact → Exact (.isNotNull operand)
  | between {operand start stop} : operand.Exact → start.Exact → stop.Exact →
      Exact (.between operand start stop)
  | existsRow {rowName joinNames body} : Exact body → Exact (.existsRow rowName joinNames body)

theorem exact_compound {op : Connective} {operands : List Predicate} :
    Exact (.compound op operands) ↔ ∀ p ∈ operands, Exact p := by
  constructor
  · rintro ⟨h⟩
    assumption
  · exact .compound

mutual

/-- An exact predicate equals only itself. -/
theorem eq_of_same : ∀ {p q : Predicate}, p.Exact → same p q = true → q = p
  | .comparison left op right, q, hp, h => by
    cases hp with | comparison hl hr =>
    cases q <;> simp only [same, Bool.and_eq_true, Bool.false_eq_true] at h
    obtain ⟨⟨h₁, h₂⟩, h₃⟩ := h
    rw [Expression.eq_of_same hl h₁, Expression.eq_of_same hr h₃, beq_iff_eq.1 h₂]
  | .compound op operands, q, hp, h => by
    cases hp with | compound hall =>
    cases q <;> simp only [same, Bool.and_eq_true, Bool.false_eq_true] at h
    rw [eq_of_sameAll hall h.2, beq_iff_eq.1 h.1]
  | .negation operand, q, hp, h => by
    cases hp with | negation ho =>
    cases q <;> simp only [same, Bool.false_eq_true] at h
    rw [eq_of_same ho h]
  | .isNull operand, q, hp, h => by
    cases hp with | isNull ho =>
    cases q <;> simp only [same, Bool.false_eq_true] at h
    rw [Expression.eq_of_same ho h]
  | .isNotNull operand, q, hp, h => by
    cases hp with | isNotNull ho =>
    cases q <;> simp only [same, Bool.false_eq_true] at h
    rw [Expression.eq_of_same ho h]
  | .between operand start stop, q, hp, h => by
    cases hp with | between ho hs ht =>
    cases q <;> simp only [same, Bool.and_eq_true, Bool.false_eq_true] at h
    obtain ⟨⟨h₁, h₂⟩, h₃⟩ := h
    rw [Expression.eq_of_same ho h₁, Expression.eq_of_same hs h₂, Expression.eq_of_same ht h₃]
  | .existsRow rowName joinNames body, q, hp, h => by
    cases hp with | existsRow hb =>
    cases q <;> simp only [same, Bool.and_eq_true, Bool.false_eq_true] at h
    obtain ⟨⟨h₁, h₂⟩, h₃⟩ := h
    rw [eq_of_same hb h₃, beq_iff_eq.1 h₁, beq_iff_eq.1 h₂]

theorem eq_of_sameAll : ∀ {ps qs : List Predicate}, (∀ p ∈ ps, p.Exact) →
    sameAll ps qs = true → qs = ps
  | [], [], _, _ => rfl
  | [], _ :: _, _, h => by simp [sameAll] at h
  | _ :: _, [], _, h => by simp [sameAll] at h
  | p :: ps, q :: qs, hall, h => by
    simp only [sameAll, Bool.and_eq_true] at h
    rw [eq_of_same (hall p (List.mem_cons_self ..)) h.1,
      eq_of_sameAll (fun r hr => hall r (List.mem_cons_of_mem _ hr)) h.2]

end

theorem exact_refersTo (source target foreignKey : String) :
    (refersTo source target foreignKey).Exact := .comparison trivial trivial

theorem exact_hasType (rowName type : String) : (hasType rowName type).Exact :=
  .comparison trivial trivial

/-! ## Conditions at the top of a conjunction -/

/-- The predicate is the condition, or a conjunction with the condition among its operands. -/
def HasConjunct (p condition : Predicate) : Prop :=
  p = condition ∨ ∃ operands, p = .compound .and operands ∧ condition ∈ operands

/-- **Joining keeps an exact condition at the top**, whatever it is joined with. -/
theorem hasConjunct_combine {condition : Predicate} {predicates : List Predicate}
    (hmem : condition ∈ predicates) (hexact : condition.Exact)
    (hflat : operandsUnder .and condition = [condition]) :
    (combine .and predicates).HasConjunct condition := by
  have hkept : condition ∈ (flattened .and predicates).eraseDups := by
    have hin : condition ∈ flattened .and predicates :=
      List.mem_flatMap.2 ⟨condition, hmem, by rw [hflat]; exact List.mem_singleton.2 rfl⟩
    obtain ⟨b, hb, hsame⟩ := exists_mem_eraseDups hin
    rcases hsame with rfl | hsame
    · exact hb
    · rw [← eq_of_same hexact hsame]
      exact hb
  rcases combine_cases .and predicates with hone | hmany
  · rw [hone] at hkept
    exact .inl (List.mem_singleton.1 hkept).symm
  · exact .inr ⟨_, hmany, hkept⟩

/-! ## Equal predicates -/

/-- A relation that holds between predicates of the same form whose operands are equal and whose
parts are related. -/
structure Congruent (R : Predicate → Predicate → Prop) : Prop where
  comparison : ∀ {left left' right right' : Expression} (op : ComparisonOperator),
    (left == left') = true → (right == right') = true →
      R (.comparison left op right) (.comparison left' op right')
  compound : ∀ {operands operands' : List Predicate} (op : Connective),
    List.Forall₂ R operands operands' → R (.compound op operands) (.compound op operands')
  negation : ∀ {operand operand' : Predicate}, R operand operand' →
    R (.negation operand) (.negation operand')
  isNull : ∀ {operand operand' : Expression}, (operand == operand') = true →
    R (.isNull operand) (.isNull operand')
  isNotNull : ∀ {operand operand' : Expression}, (operand == operand') = true →
    R (.isNotNull operand) (.isNotNull operand')
  between : ∀ {operand operand' start start' stop stop' : Expression},
    (operand == operand') = true → (start == start') = true → (stop == stop') = true →
      R (.between operand start stop) (.between operand' start' stop')
  existsRow : ∀ {body body' : Predicate} (rowName : String) (joinNames : List String),
    R body body' → R (.existsRow rowName joinNames body) (.existsRow rowName joinNames body')

namespace Congruent

variable {R : Predicate → Predicate → Prop}

mutual

/-- **Predicates that are equal are related.** -/
theorem of_same (hR : Congruent R) : ∀ {p q : Predicate}, same p q = true → R p q
  | .comparison left op right, q, h => by
    cases q <;> simp only [same, Bool.and_eq_true, Bool.false_eq_true] at h
    obtain ⟨⟨hleft, hop⟩, hright⟩ := h
    rw [← beq_iff_eq.1 hop]
    exact hR.comparison op hleft hright
  | .compound op operands, q, h => by
    cases q <;> simp only [same, Bool.and_eq_true, Bool.false_eq_true] at h
    rw [← beq_iff_eq.1 h.1]
    exact hR.compound op (of_sameAll hR h.2)
  | .negation operand, q, h => by
    cases q <;> simp only [same, Bool.false_eq_true] at h
    exact hR.negation (of_same hR h)
  | .isNull operand, q, h => by
    cases q <;> simp only [same, Bool.false_eq_true] at h
    exact hR.isNull h
  | .isNotNull operand, q, h => by
    cases q <;> simp only [same, Bool.false_eq_true] at h
    exact hR.isNotNull h
  | .between operand start stop, q, h => by
    cases q <;> simp only [same, Bool.and_eq_true, Bool.false_eq_true] at h
    exact hR.between h.1.1 h.1.2 h.2
  | .existsRow rowName joinNames body, q, h => by
    cases q <;> simp only [same, Bool.and_eq_true, Bool.false_eq_true] at h
    obtain ⟨⟨hname, hnames⟩, hbody⟩ := h
    rw [← beq_iff_eq.1 hname, ← beq_iff_eq.1 hnames]
    exact hR.existsRow rowName joinNames (of_same hR hbody)

theorem of_sameAll (hR : Congruent R) : ∀ {ps qs : List Predicate}, sameAll ps qs = true →
    List.Forall₂ R ps qs
  | [], [], _ => .nil
  | [], _ :: _, h => by simp [sameAll] at h
  | _ :: _, [], h => by simp [sameAll] at h
  | p :: ps, q :: qs, h => by
    simp only [sameAll, Bool.and_eq_true] at h
    exact .cons (of_same hR h.1) (of_sameAll hR h.2)

end

end Congruent

end Predicate

end SoupQuery
