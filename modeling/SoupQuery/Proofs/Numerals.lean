import Mathlib.Data.List.DropRight
import Mathlib.Data.Nat.Digits.Defs
import SoupQuery.Proofs.Equality
import SoupQuery.Sql.Render

/-!
# Integers keep their value in every form

A filter takes an integer as a number or as a text, and SQL writes it as a numeral again. The three
conversions agree: on the digits, whatever their count, on the signs, and at both ends of the range
of a word.

* `IsNumeral` — an optional sign and digits, with their place value; `StandsFor` — a numeral between
  white space.
* `IsCanonical` — the numeral without a needless sign or zero; `isCanonical_iff` — there is one for
  each integer, the one that is written.
* `integer?_eq_some`, `integer?_trim_eq_some` — exactly the numerals are read, and with their value.
* `whereArgument_integer` — **on an integer field a text is taken exactly if it stands for an
  integer of the range, and compiles to what that integer compiles to; and what SQL writes for an
  integer stands for it.**
-/

namespace SoupQuery

/-! ## White space at the ends -/

namespace Text

/-- A text is what trimming leaves of it, between white space. -/
theorem exists_eq_append_trim (text : List Char) : ∃ before after,
    text = before ++ trim text ++ after ∧ ∀ c ∈ before ++ after, isWhiteSpace c = true := by
  have hsplit : text.dropWhile isWhiteSpace = trim text ++
      ((text.dropWhile isWhiteSpace).reverse.takeWhile isWhiteSpace).reverse := by
    rw [trim, ← List.reverse_append, List.takeWhile_append_dropWhile, List.reverse_reverse]
  refine ⟨text.takeWhile isWhiteSpace,
    ((text.dropWhile isWhiteSpace).reverse.takeWhile isWhiteSpace).reverse, ?_, fun c hc => ?_⟩
  · rw [List.append_assoc, ← hsplit, List.takeWhile_append_dropWhile]
  · rcases List.mem_append.1 hc with hc | hc
    · exact List.mem_takeWhile_imp hc
    · exact List.mem_takeWhile_imp (List.mem_reverse.1 hc)

theorem dropWhile_append {before core : List Char} (after : List Char)
    (hbefore : ∀ c ∈ before, isWhiteSpace c = true) (hne : core ≠ [])
    (hcore : ∀ c ∈ core, isWhiteSpace c = false) :
    (before ++ (core ++ after)).dropWhile isWhiteSpace = core ++ after := by
  rw [List.dropWhile_append_of_pos hbefore]
  cases core with
  | nil => exact absurd rfl hne
  | cons c rest =>
    rw [List.cons_append, List.dropWhile_cons_of_neg (by simp [hcore c (List.mem_cons_self ..)])]

/-- Trimming takes away the white space around a text that has none. -/
theorem trim_append {before core after : List Char}
    (hspace : ∀ c ∈ before ++ after, isWhiteSpace c = true) (hne : core ≠ [])
    (hcore : ∀ c ∈ core, isWhiteSpace c = false) : trim (before ++ core ++ after) = core := by
  have hbefore : (before ++ (core ++ after)).dropWhile isWhiteSpace = core ++ after :=
    dropWhile_append after (fun c hc => hspace c (List.mem_append_left _ hc)) hne hcore
  have hafter : (after.reverse ++ (core.reverse ++ [])).dropWhile isWhiteSpace =
      core.reverse ++ [] :=
    dropWhile_append [] (fun c hc => hspace c (List.mem_append_right _ (List.mem_reverse.1 hc)))
      (by simpa using hne) (fun c hc => hcore c (List.mem_reverse.1 hc))
  rw [List.append_nil] at hafter
  rw [trim, List.append_assoc, hbefore, List.reverse_append, hafter, List.reverse_reverse]

end Text

/-! ## Numerals -/

namespace Decimal

/-- The number that digits stand for by their places, the last of which counts ones. -/
def placeValue (ds : List Char) : Nat :=
  Nat.ofDigits 10 (ds.reverse.map fun d => d.toNat - '0'.toNat)

/-- The text is an optional sign and one or more digits, which stand for the integer. -/
inductive IsNumeral : List Char → Int → Prop
  | plain {ds} : ds ≠ [] → (∀ d ∈ ds, d.isDigit = true) → IsNumeral ds (placeValue ds)
  | plus {ds} : ds ≠ [] → (∀ d ∈ ds, d.isDigit = true) → IsNumeral ('+' :: ds) (placeValue ds)
  | minus {ds} : ds ≠ [] → (∀ d ∈ ds, d.isDigit = true) → IsNumeral ('-' :: ds) (-placeValue ds)

/-- The text is a numeral without a plus, without a zero before another digit, and without a minus
before a zero. -/
structure IsCanonical (text : List Char) (n : Int) : Prop where
  numeral : IsNumeral text n
  no_plus : text.head? ≠ some '+'
  no_leading_zero : ∀ rest, text = '0' :: rest → rest = []
  no_zero_after_minus : ∀ rest, text ≠ '-' :: '0' :: rest

/-- The text is a numeral of the integer, perhaps with white space around it. -/
def StandsFor (text : String) (n : Int) : Prop :=
  ∃ before numeral after, text.toList = before ++ numeral ++ after ∧
    (∀ c ∈ before ++ after, Text.isWhiteSpace c = true) ∧ IsNumeral numeral n

variable {text ds : List Char} {n m : Int}

/-! ### Digits -/

theorem placeValue_snoc (ds : List Char) (d : Char) :
    placeValue (ds ++ [d]) = 10 * placeValue ds + (d.toNat - '0'.toNat) := by
  simp only [placeValue, List.reverse_append, List.reverse_singleton, List.singleton_append,
    List.map_cons, Nat.ofDigits_cons]
  omega

theorem ofDigitChars_eq_placeValue (ds : List Char) :
    Nat.ofDigitChars 10 ds 0 = placeValue ds := by
  induction ds using List.reverseRecOn with
  | nil => rfl
  | append_singleton ds d ih =>
    rw [Nat.ofDigitChars_append, placeValue_snoc, ih, Nat.ofDigitChars_cons, Nat.ofDigitChars_nil]

theorem placeValue_digits (m : Nat) : placeValue (digits m) = m := by
  rw [← ofDigitChars_eq_placeValue, digits, Nat.ofDigitChars_toDigits (by decide) (by decide)]

theorem digits_eq_singleton {m : Nat} (h : m < 10) : digits m = [m.digitChar] :=
  Nat.toDigits_of_lt_base h

theorem digits_snoc {m k : Nat} (hm : 0 < m) (hk : k < 10) :
    digits (10 * m + k) = digits m ++ [k.digitChar] := by
  rw [digits, ← Nat.toDigits_append_toDigits (by decide) hm hk, Nat.toDigits_of_lt_base hk]
  rfl

/-- The digits of a number that is not zero do not start with a zero. -/
theorem head?_digits_ne_zero (m : Nat) : 0 < m → (digits m).head? ≠ some '0' := by
  induction m using Nat.strong_induction_on with
  | _ m ih =>
    intro hpos
    by_cases hm : m < 10
    · have hchar : ∀ k < 10, 0 < k → ¬ some (Nat.digitChar k) = some '0' := by decide
      rw [digits_eq_singleton hm]
      exact hchar m hm hpos
    · have hrest : 0 < m / 10 := by omega
      have hsplit : digits m = digits (m / 10) ++ [(m % 10).digitChar] := by
        rw [← digits_snoc hrest (by omega)]
        congr 1
        omega
      have hne : digits (m / 10) ≠ [] := Nat.toDigits_ne_nil
      rw [hsplit, List.head?_append_of_ne_nil _ hne]
      exact ih _ (by omega) hrest

theorem digitChar_toNat_sub {d : Char} (h : d.isDigit = true) :
    (d.toNat - '0'.toNat).digitChar = d ∧ d.toNat - '0'.toNat < 10 := by
  have hrange : 48 ≤ d.toNat ∧ d.toNat ≤ 57 := Char.isDigit_iff_toNat.1 h
  have hlt : d.toNat - '0'.toNat < 10 := by
    rw [show '0'.toNat = 48 from rfl]
    omega
  refine ⟨Char.toNat_inj.1 ?_, hlt⟩
  rw [Nat.toNat_digitChar_of_lt_ten hlt]
  rw [show '0'.toNat = 48 from rfl]
  omega

theorem placeValue_pos (hwritten : digits (placeValue ds) = ds)
    (hlead : ∀ rest, ds ≠ '0' :: rest) : 0 < placeValue ds := by
  refine Nat.pos_of_ne_zero fun hvalue => hlead [] ?_
  rw [← hwritten, hvalue]
  rfl

/-- **Digits without a needless zero are the digits of their value.** -/
theorem digits_placeValue (hne : ds ≠ []) (hdigits : ∀ d ∈ ds, d.isDigit = true)
    (hzero : ∀ rest, ds = '0' :: rest → rest = []) : digits (placeValue ds) = ds := by
  induction ds using List.reverseRecOn with
  | nil => exact absurd rfl hne
  | append_singleton ds d ih =>
    obtain ⟨hchar, hlt⟩ := digitChar_toNat_sub (hdigits d (by simp))
    rw [placeValue_snoc]
    by_cases hnil : ds = []
    · subst hnil
      rw [show placeValue [] = 0 from rfl, Nat.mul_zero, Nat.zero_add, digits_eq_singleton hlt,
        hchar]
      rfl
    · -- the digits before the last one do not start with a zero at all
      have hlead : ∀ rest, ds ≠ '0' :: rest := by
        rintro rest rfl
        have hrest := hzero (rest ++ [d]) rfl
        simp at hrest
      have hinit := ih hnil (fun c hc => hdigits c (List.mem_append_left _ hc))
        fun rest hrest => absurd hrest (hlead rest)
      rw [digits_snoc (placeValue_pos hinit hlead) hlt, hinit, hchar]

/-! ### What is read -/

theorem natural?_eq_some {m : Nat} : natural? ds = some m ↔
    ds ≠ [] ∧ (∀ d ∈ ds, d.isDigit = true) ∧ placeValue ds = m := by
  unfold natural?
  rw [Option.ite_none_right_eq_some, List.all_eq_true, ofDigitChars_eq_placeValue,
    Option.some.injEq, and_assoc]

theorem splitSign_of_digits (hdigits : ∀ d ∈ ds, d.isDigit = true) :
    splitSign ds = (false, ds) := by
  unfold splitSign
  split
  · exact absurd (hdigits '-' (List.mem_cons_self ..)) (by decide)
  · exact absurd (hdigits '+' (List.mem_cons_self ..)) (by decide)
  · rfl

theorem splitSign_cases (text : List Char) :
    (∃ ds, text = '-' :: ds ∧ splitSign text = (true, ds)) ∨
      (∃ ds, text = '+' :: ds ∧ splitSign text = (false, ds)) ∨
      splitSign text = (false, text) := by
  unfold splitSign
  split
  · exact .inl ⟨_, rfl, rfl⟩
  · exact .inr (.inl ⟨_, rfl, rfl⟩)
  · exact .inr (.inr rfl)

/-- **Exactly the numerals are read, and with their value.** -/
theorem integer?_eq_some : integer? text = some n ↔ IsNumeral text n := by
  constructor
  · intro h
    obtain ⟨_, hcast, hn⟩ := Option.map_eq_some_iff.1 h
    obtain ⟨m, hm, heq⟩ := Option.bind_eq_some_iff.1 hcast
    cases heq
    obtain ⟨hne, hdigits, rfl⟩ := natural?_eq_some.1 hm
    subst hn
    rcases splitSign_cases text with ⟨ds, rfl, hsplit⟩ | ⟨ds, rfl, hsplit⟩ | hsplit
    all_goals rw [hsplit] at hne hdigits ⊢
    · exact .minus hne hdigits
    · exact .plus hne hdigits
    · exact .plain hne hdigits
  · intro h
    cases h with
    | plain hne hdigits =>
      rw [integer?, splitSign_of_digits hdigits, natural?_eq_some.2 ⟨hne, hdigits, rfl⟩]
      rfl
    | plus hne hdigits =>
      rw [integer?, splitSign, natural?_eq_some.2 ⟨hne, hdigits, rfl⟩]
      rfl
    | minus hne hdigits =>
      rw [integer?, splitSign, natural?_eq_some.2 ⟨hne, hdigits, rfl⟩]
      rfl

theorem isWhiteSpace_of_isDigit {d : Char} (h : d.isDigit = true) :
    Text.isWhiteSpace d = false := by
  have hrange : 48 ≤ d.toNat ∧ d.toNat ≤ 57 := Char.isDigit_iff_toNat.1 h
  refine Bool.eq_false_iff.2 fun hspace => ?_
  simp only [Text.isWhiteSpace, Text.Ranges.contains, Text.whiteSpace, List.any_cons, List.any_nil,
    Bool.or_eq_true, Bool.and_eq_true, decide_eq_true_iff, Bool.false_eq_true, or_false] at hspace
  omega

/-- There is no white space in a numeral. -/
theorem IsNumeral.isWhiteSpace (h : IsNumeral text n) :
    text ≠ [] ∧ ∀ c ∈ text, Text.isWhiteSpace c = false := by
  cases h with
  | plain hne hdigits => exact ⟨hne, fun c hc => isWhiteSpace_of_isDigit (hdigits c hc)⟩
  | plus _ hdigits =>
    exact ⟨List.cons_ne_nil _ _, List.forall_mem_cons.2
      ⟨by decide, fun c hc => isWhiteSpace_of_isDigit (hdigits c hc)⟩⟩
  | minus _ hdigits =>
    exact ⟨List.cons_ne_nil _ _, List.forall_mem_cons.2
      ⟨by decide, fun c hc => isWhiteSpace_of_isDigit (hdigits c hc)⟩⟩

/-- A trimmed text is read as what it stands for. -/
theorem integer?_trim_eq_some {text : String} :
    integer? (Text.trim text.toList) = some n ↔ StandsFor text n := by
  rw [integer?_eq_some]
  constructor
  · intro h
    obtain ⟨before, after, htext, hspace⟩ := Text.exists_eq_append_trim text.toList
    exact ⟨before, _, after, htext, hspace, h⟩
  · rintro ⟨before, numeral, after, htext, hspace, h⟩
    rw [htext, Text.trim_append hspace h.isWhiteSpace.1 h.isWhiteSpace.2]
    exact h

/-! ### What is written -/

theorem toList_ofInt (n : Int) : (ofInt n).toList =
    if n < 0 then '-' :: digits n.natAbs else digits n.natAbs := by
  rw [ofInt, String.toList_ofList]

/-- The numeral that is written for an integer is canonical. -/
theorem isCanonical_ofInt (n : Int) : IsCanonical (ofInt n).toList n := by
  have hne : digits n.natAbs ≠ [] := Nat.toDigits_ne_nil
  have hdigits : ∀ d ∈ digits n.natAbs, d.isDigit = true := fun _ => isDigit_of_mem_digits
  have hvalue := placeValue_digits n.natAbs
  rw [toList_ofInt]
  by_cases hneg : n < 0
  · have hnumeral := IsNumeral.minus hne hdigits
    rw [hvalue, show -(n.natAbs : Int) = n by omega] at hnumeral
    rw [if_pos hneg]
    refine ⟨hnumeral, by simp, fun rest heq => by simp at heq, fun rest heq => ?_⟩
    refine head?_digits_ne_zero n.natAbs (by omega) ?_
    rw [(List.cons.inj heq).2]
    rfl
  · have hnumeral := IsNumeral.plain hne hdigits
    rw [hvalue, show (n.natAbs : Int) = n by omega] at hnumeral
    rw [if_neg hneg]
    refine ⟨hnumeral, fun heq => ?_, fun rest heq => ?_, fun rest heq => ?_⟩
    · exact absurd (hdigits _ (List.mem_of_mem_head? heq)) (by decide)
    · -- only zero itself starts with a zero
      have hzero : n.natAbs = 0 := by
        by_contra hne
        exact head?_digits_ne_zero n.natAbs (by omega) (by rw [heq]; rfl)
      rw [hzero] at heq
      exact (List.cons.inj heq).2.symm
    · exact absurd (hdigits '-' (by rw [heq]; exact List.mem_cons_self ..)) (by decide)

theorem standsFor_ofInt (n : Int) : StandsFor (ofInt n) n :=
  ⟨[], _, [], by simp, by simp, (isCanonical_ofInt n).numeral⟩

/-- **An integer has one canonical numeral**, the one that is written for it. -/
theorem isCanonical_iff : IsCanonical text n ↔ text = (ofInt n).toList := by
  constructor
  · rintro ⟨hnumeral, hplus, hzero, hminus⟩
    rw [toList_ofInt]
    cases hnumeral with
    | plain hne hdigits =>
      rw [if_neg (by omega), Int.natAbs_natCast, digits_placeValue hne hdigits hzero]
    | plus => exact absurd rfl hplus
    | @minus ds hne hdigits =>
      have hlead : ∀ rest, ds ≠ '0' :: rest := fun rest heq => hminus rest (by rw [heq])
      have hwritten := digits_placeValue hne hdigits fun rest heq => absurd heq (hlead rest)
      have hpos := placeValue_pos hwritten hlead
      rw [if_pos (by omega), Int.natAbs_neg, Int.natAbs_natCast, hwritten]
  · rintro rfl
    exact isCanonical_ofInt n

end Decimal

theorem Expression.text_sql_int (n : Int) : (Expression.int n).sql.text = Decimal.ofInt n := by
  simp [Expression.sql, Sql.text, Sql.code, Sql.Piece.text]

end SoupQuery

namespace SoupQuery.Compile

open SoupQuery.Decimal SoupQuery.GraphQL

variable {schema : Schema} {row : Row} {key : String} {field : FieldInfo}
  {op : ComparisonOperator}

/-! ## Filters of integer fields -/

/-- A text is taken for an integer of the range that it stands for. -/
theorem intValue?_string {text : String} {n : Int} :
    intValue? (.string text) = some n ↔ StandsFor text n ∧ InInt64 n := by
  rw [intValue?, int64?, Option.filter_eq_some_iff, integer?_trim_eq_some, decide_eq_true_iff]

/-- The operators that compare with a single number compare with the integer that a value stands
for. -/
theorem comparison_int {name : String} {left : Expression} {value : Value} {p : Predicate}
    (hop : op ∉ [.like, .oneOf, .noneOf]) (hnull : value ≠ .null)
    (hlist : ∀ items, value ≠ .list items) :
    comparison name .int left (op.name, value) = .ok p ↔
      ∃ n, intValue? value = some n ∧ .comparison left op (.int n) = p := by
  have hset : op.isSet = false := by cases op <;> first | rfl | exact absurd (by simp) hop
  have hallowed : isAllowed op .int = true := by
    cases op <;> first | rfl | exact absurd (by simp) hop
  have hoperand : operandLiteral? .int op value = (intValue? value).map .int := by
    unfold operandLiteral?
    split
    · rename_i items
      exact absurd rfl (hlist items)
    · rw [hset]
      rfl
  rw [comparison_eq_ok hnull hallowed, hoperand]
  simp only [Option.map_eq_some_iff, exists_exists_and_eq_and]
  rfl

/-- **Integers keep their value in every form.** On an integer field and for the operators that
compare with a single number, a text is taken exactly if it stands for an integer that a word holds,
and compiles to what that integer compiles to. What SQL writes for an integer is its canonical
numeral, and stands for it. -/
theorem whereArgument_integer (hkey : key ∉ ["and", "or", "not"])
    (hmember : schema.member? row.type key = some (.value field)) (hkind : field.filterKind = .int)
    (hop : op ∉ [.like, .oneOf, .noneOf]) :
    (∀ text, Accepts schema row (.object (comparing key op (.string text))) ↔
      ∃ n, StandsFor text n ∧ InInt64 n) ∧
    (∀ text n, StandsFor text n → InInt64 n →
      whereArgument schema row (some (.object (comparing key op (.string text)))) =
          whereArgument schema row (some (.object (comparing key op (.int n)))) ∧
        whereArgument schema row (some (.object (comparing key op (.int n)))) =
          .ok (some (.single (.comparison (fieldValue row field.apiName) op (.int n))))) ∧
    ∀ n, (∀ numeral, IsCanonical numeral n ↔ numeral = (Expression.int n).sql.text.toList) ∧
      ∀ m, StandsFor (Expression.int n).sql.text m ↔ m = n := by
  have hcomparison : ∀ value p, value ≠ .null → (∀ items, value ≠ .list items) →
      (comparison key field.filterKind (fieldValue row field.apiName) (op.name, value) = .ok p ↔
        ∃ n, intValue? value = some n ∧
          .comparison (fieldValue row field.apiName) op (.int n) = p) := by
    intro value p hnull hlist
    rw [hkind]
    exact comparison_int hop hnull hlist
  have hfilter : ∀ value n, value ≠ .null → (∀ items, value ≠ .list items) →
      intValue? value = some n →
      whereArgument schema row (some (.object (comparing key op value))) =
        .ok (some (.single (.comparison (fieldValue row field.apiName) op (.int n)))) :=
    fun value n hnull hlist hvalue => (whereArgument_comparing hkey hmember).2
      ⟨_, (hcomparison value _ hnull hlist).2 ⟨n, hvalue, rfl⟩, rfl⟩
  refine ⟨fun text => ?_, fun text n hstands hrange => ?_,
    fun n => ⟨fun numeral => ?_, fun m => ?_⟩⟩
  · rw [accepts_comparing hkey hmember]
    constructor
    · rintro ⟨p, hp⟩
      obtain ⟨n, hn, -⟩ := (hcomparison (.string text) p (by simp) (by simp)).1 hp
      exact ⟨n, intValue?_string.1 hn⟩
    · rintro ⟨n, hn⟩
      exact ⟨_, (hcomparison (.string text) _ (by simp) (by simp)).2
        ⟨n, intValue?_string.2 hn, rfl⟩⟩
  · have hnumber := hfilter (.int n) n (by simp) (by simp) rfl
    have htext := hfilter (.string text) n (by simp) (by simp)
      (intValue?_string.2 ⟨hstands, hrange⟩)
    exact ⟨htext.trans hnumber.symm, hnumber⟩
  · rw [Expression.text_sql_int, isCanonical_iff]
  · rw [Expression.text_sql_int, ← integer?_trim_eq_some,
      integer?_trim_eq_some.2 (standsFor_ofInt n), Option.some.injEq]
    exact eq_comm

/-- Teams have a size. -/
def teamsSchema : Schema := [("Team", ⟨"Team", [("Size", .scalar "Size" .int)], []⟩)]

/-- The least integer of the range, with leading zeros and white space of three kinds. -/
theorem leastSize_integer :
    StandsFor "\u3000\t-0009223372036854775808 " (-9223372036854775808) ∧
    InInt64 (-9223372036854775808) ∧
    Accepts teamsSchema ⟨"Team", "Team"⟩
      (.object (comparing "Size" .gte (.string "\u3000\t-0009223372036854775808 "))) ∧
    whereArgument teamsSchema ⟨"Team", "Team"⟩
        (some (.object (comparing "Size" .gte (.string "\u3000\t-0009223372036854775808 ")))) =
      whereArgument teamsSchema ⟨"Team", "Team"⟩
        (some (.object (comparing "Size" .gte (.int (-9223372036854775808))))) := by
  have hstands : StandsFor "\u3000\t-0009223372036854775808 " (-9223372036854775808) :=
    integer?_trim_eq_some.1 (by decide +kernel)
  have hrange : InInt64 (-9223372036854775808) := by decide
  have hmember : teamsSchema.member? (Row.type ⟨"Team", "Team"⟩) "Size" =
      some (.value (.scalar "Size" .int)) := rfl
  have hop : ComparisonOperator.gte ∉ [.like, .oneOf, .noneOf] := by decide
  obtain ⟨haccepts, hsame, -⟩ := whereArgument_integer (by decide) hmember rfl hop
  exact ⟨hstands, hrange, (haccepts _).2 ⟨_, hstands, hrange⟩, (hsame _ _ hstands hrange).1⟩

end SoupQuery.Compile
