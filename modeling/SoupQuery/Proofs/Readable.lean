import SoupQuery.Proofs.Spacing
import SoupQuery.Proofs.Written

/-!
# Reading operands off SQL

The lexemes of SQL text determine what was written, provided that what follows cannot be taken for
a part of it. Nothing has to be read for this: two things whose lexemes, each with something after
it, are the same list of lexemes keep the same and have the same after them.

* `Readable` — a thing that no other one of its kind can be taken for.
* `Apart` — texts neither of which starts with the other.
* `Readable.repeated`, `Readable.separated` — lists of readable things.
* `readable_ofInt`, `Expression.readable` — **numerals and operands are readable.**
-/

namespace SoupQuery

open SoupQuery.Decimal SoupQuery.Sql

/-! ## Lexemes of pieces -/

/-- The lexemes of code. -/
def Sql.plain (text : String) : List Lexeme := text.toList.map .plain

/-- The lexemes of pieces. -/
def Sql.lexemes (sql : Sql) : List Lexeme := sql.flatMap Piece.lexemes

section Lexemes

variable {t : String} {a b : Sql}

@[simp] theorem lexemes_nil : Sql.lexemes [] = [] := rfl

@[simp] theorem lexemes_append : Sql.lexemes (a ++ b) = Sql.lexemes a ++ Sql.lexemes b :=
  List.flatMap_append

@[simp] theorem lexemes_code : Sql.lexemes (.code t :: b) = plain t ++ Sql.lexemes b := rfl

@[simp] theorem lexemes_identifier :
    Sql.lexemes (.identifier t :: b) = .quoted ⟨'"', t⟩ :: Sql.lexemes b := rfl

@[simp] theorem lexemes_string :
    Sql.lexemes (.string t :: b) = .quoted ⟨'\'', t⟩ :: Sql.lexemes b := rfl

end Lexemes

/-! ## Texts that differ from the start -/

/-- Neither text starts with the other. -/
def Apart (s t : String) : Prop := ¬ s.toList <+: t.toList ∧ ¬ t.toList <+: s.toList

instance (s t : String) : Decidable (Apart s t) := inferInstanceAs (Decidable (_ ∧ _))

theorem Apart.symm {s t : String} (h : Apart s t) : Apart t s := ⟨h.2, h.1⟩

theorem map_plain_isPrefix {cs ds : List Char}
    (h : cs.map Lexeme.plain <+: ds.map Lexeme.plain) : cs <+: ds := by
  obtain ⟨rest, hrest⟩ := h
  obtain ⟨cs', rest', rfl, hcs, -⟩ := List.append_eq_map_iff.1 hrest
  rw [(List.map_inj_right fun _ _ => Lexeme.plain.inj).1 hcs]
  exact List.prefix_append cs rest'

/-- Texts that are apart start different lexemes. -/
theorem Apart.plain_ne {s t : String} (h : Apart s t) (r r' : List Lexeme) :
    plain s ++ r ≠ plain t ++ r' := by
  intro heq
  rcases List.append_eq_append_iff.1 heq with ⟨rest, ht, -⟩ | ⟨rest, hs, -⟩
  · exact h.1 (map_plain_isPrefix ⟨rest, ht.symm⟩)
  · exact h.2 (map_plain_isPrefix ⟨rest, hs.symm⟩)

/-! ## Readable things -/

section Readable

variable {α β : Type}

/-- Whatever is written like `x`, with something after each that may follow, keeps the same as `x`
and has the same after it. -/
def Readable (write : α → List Lexeme) (keep : α → β) (Legible : α → Prop)
    (Ends : List Lexeme → Prop) (x : α) : Prop :=
  ∀ y, Legible y → ∀ r s, Ends r → Ends s → write x ++ r = write y ++ s → keep x = keep y ∧ r = s

variable {write : α → List Lexeme} {keep : α → β} {Legible : α → Prop}
  {Ends : List Lexeme → Prop} {separator : String}

/-- Readable things, each after a separator, are readable up to where no separator follows. -/
theorem Readable.repeated (hseparator : ∀ r, Ends (plain separator ++ r)) {r s : List Lexeme}
    (hr : Ends r) (hs : Ends s) (hr' : ∀ t, r ≠ plain separator ++ t)
    (hs' : ∀ t, s ≠ plain separator ++ t) :
    ∀ {xs ys : List α}, (∀ x ∈ xs, Readable write keep Legible Ends x) → (∀ y ∈ ys, Legible y) →
      xs.flatMap (fun x => plain separator ++ write x) ++ r =
        ys.flatMap (fun y => plain separator ++ write y) ++ s →
      xs.map keep = ys.map keep ∧ r = s := by
  -- what stands after an item may follow it
  have hends : ∀ (zs : List α) {t : List Lexeme}, Ends t →
      Ends (zs.flatMap (fun z => plain separator ++ write z) ++ t) := by
    intro zs t ht
    cases zs with
    | nil => exact ht
    | cons z zs =>
      rw [List.flatMap_cons, List.append_assoc, List.append_assoc]
      exact hseparator _
  intro xs
  induction xs with
  | nil =>
    intro ys _ _ heq
    cases ys with
    | nil => exact ⟨rfl, heq⟩
    | cons y ys =>
      rw [List.flatMap_cons, List.append_assoc, List.append_assoc] at heq
      exact absurd heq (hr' _)
  | cons x xs ih =>
    intro ys hxs hys heq
    cases ys with
    | nil =>
      rw [List.flatMap_cons, List.append_assoc, List.append_assoc] at heq
      exact absurd heq.symm (hs' _)
    | cons y ys =>
      simp only [List.flatMap_cons, List.append_assoc] at heq
      obtain ⟨hkeep, hrest⟩ := hxs x (List.mem_cons_self ..) y (hys y (List.mem_cons_self ..)) _ _
        (hends xs hr) (hends ys hs) (List.append_cancel_left heq)
      obtain ⟨hmap, hrs⟩ := ih (fun z hz => hxs z (List.mem_cons_of_mem _ hz))
        (fun z hz => hys z (List.mem_cons_of_mem _ hz)) hrest
      exact ⟨by rw [List.map_cons, List.map_cons, hkeep, hmap], hrs⟩

theorem lexemes_separated_cons (separator : String) (f : α → Sql) (x : α) (xs : List α) :
    (separated separator ((x :: xs).map f)).lexemes =
      (f x).lexemes ++ xs.flatMap fun y => plain separator ++ (f y).lexemes := by
  induction xs generalizing x with
  | nil => simp [separated_singleton]
  | cons y ys ih =>
    have hrest := ih y
    rw [List.map_cons, List.map_cons, separated_cons_cons, ← List.map_cons, lexemes_append,
      lexemes_code, hrest]
    simp

/-- Readable things with separators between them are readable. -/
theorem Readable.separated {f : α → Sql} (hseparator : ∀ r, Ends (plain separator ++ r))
    {r s : List Lexeme} (hr : Ends r) (hs : Ends s) (hr' : ∀ t, r ≠ plain separator ++ t)
    (hs' : ∀ t, s ≠ plain separator ++ t) {x y : α} {xs ys : List α}
    (hxs : ∀ z ∈ x :: xs, Readable (fun z => (f z).lexemes) keep Legible Ends z)
    (hys : ∀ z ∈ y :: ys, Legible z)
    (heq : (Sql.separated separator ((x :: xs).map f)).lexemes ++ r =
      (Sql.separated separator ((y :: ys).map f)).lexemes ++ s) :
    (x :: xs).map keep = (y :: ys).map keep ∧ r = s := by
  -- a leading separator makes all items alike
  have hled : (x :: xs).flatMap (fun z => plain separator ++ (f z).lexemes) ++ r =
      (y :: ys).flatMap (fun z => plain separator ++ (f z).lexemes) ++ s := by
    rw [lexemes_separated_cons, lexemes_separated_cons] at heq
    simp only [List.flatMap_cons, List.append_assoc] at heq ⊢
    rw [heq]
  exact Readable.repeated hseparator hr hs hr' hs' hxs hys hled

end Readable

/-! ## Numerals -/

/-- What follows cannot extend a numeral. -/
def Stops (r : List Lexeme) : Prop := ∀ c, r.head? = some (.plain c) → c.isDigit = false

theorem stops_plain {c : Char} {t : String} {cs : List Char} (hc : c.isDigit = false := by decide)
    (h : t.toList = c :: cs := by rfl) (r : List Lexeme) : Stops (plain t ++ r) := by
  intro d hd
  rw [plain, h] at hd
  cases hd
  exact hc

theorem digits_ne_nil (n : Nat) : digits n ≠ [] := by
  intro h
  have hread := natural?_digits n
  rw [h] at hread
  cases hread

theorem digits_injective {n m : Nat} (h : digits n = digits m) : n = m := by
  have hread := natural?_digits n
  rw [h, natural?_digits m] at hread
  exact (Option.some.inj hread).symm

/-- Characters up to where no digit follows are determined, if all of them are digits. -/
theorem append_digits_inj : ∀ {cs ds : List Char} {r s : List Lexeme},
    (∀ c ∈ cs, c.isDigit = true) → (∀ d ∈ ds, d.isDigit = true) → Stops r → Stops s →
    cs.map Lexeme.plain ++ r = ds.map Lexeme.plain ++ s → cs = ds ∧ r = s
  | [], [], _, _, _, _, _, _, heq => ⟨rfl, heq⟩
  | [], d :: ds, r, s, _, hds, hr, _, heq => by
    have hd := hr d (by rw [List.map_nil, List.nil_append] at heq; rw [heq]; rfl)
    rw [hds d (List.mem_cons_self ..)] at hd
    cases hd
  | c :: cs, [], r, s, hcs, _, _, hs, heq => by
    have hc := hs c (by rw [List.map_nil, List.nil_append] at heq; rw [← heq]; rfl)
    rw [hcs c (List.mem_cons_self ..)] at hc
    cases hc
  | c :: cs, d :: ds, r, s, hcs, hds, hr, hs, heq => by
    simp only [List.map_cons, List.cons_append, List.cons.injEq, Lexeme.plain.injEq] at heq
    obtain ⟨hrest, hrs⟩ := append_digits_inj (fun x hx => hcs x (List.mem_cons_of_mem _ hx))
      (fun x hx => hds x (List.mem_cons_of_mem _ hx)) hr hs heq.2
    exact ⟨by rw [heq.1, hrest], hrs⟩

theorem readable_digits (n : Nat) :
    Readable (fun n => (digits n).map .plain) id (fun _ => True) Stops n := by
  intro m _ r s hr hs heq
  obtain ⟨hdigits, hrs⟩ := append_digits_inj (fun _ => isDigit_of_mem_digits)
    (fun _ => isDigit_of_mem_digits) hr hs heq
  exact ⟨digits_injective hdigits, hrs⟩

theorem head?_digits (n : Nat) (r : List Lexeme) :
    ∃ c, ((digits n).map Lexeme.plain ++ r).head? = some (.plain c) ∧ c.isDigit = true := by
  cases hdigits : digits n with
  | nil => exact absurd hdigits (digits_ne_nil n)
  | cons c cs => exact ⟨c, rfl, isDigit_of_mem_digits (hdigits ▸ List.mem_cons_self ..)⟩

/-- A minus is no digit, so the sign of a numeral is seen at its start. -/
theorem minus_ne_digits (n : Nat) (r s : List Lexeme) :
    Lexeme.plain '-' :: r ≠ (digits n).map .plain ++ s := by
  intro heq
  obtain ⟨c, hc, hdigit⟩ := head?_digits n s
  rw [← heq] at hc
  cases hc
  revert hdigit
  decide

theorem plain_ofInt (n : Int) : plain (Decimal.ofInt n) =
    if n < 0 then .plain '-' :: (digits n.natAbs).map .plain else (digits n.natAbs).map .plain := by
  unfold plain Decimal.ofInt
  split <;> simp [String.toList_ofList]

/-- **Numerals are readable.** -/
theorem readable_ofInt (n : Int) :
    Readable (fun n => plain (Decimal.ofInt n)) id (fun _ => True) Stops n := by
  intro m _ r s hr hs heq
  simp only [plain_ofInt] at heq
  split at heq
  · split at heq
    · obtain ⟨habs, hrs⟩ := readable_digits _ _ trivial _ _ hr hs (List.cons.inj heq).2
      simp only [id] at habs ⊢
      exact ⟨by omega, hrs⟩
    · exact absurd heq (minus_ne_digits _ _ _)
  · split at heq
    · exact absurd heq.symm (minus_ne_digits _ _ _)
    · obtain ⟨habs, hrs⟩ := readable_digits _ _ trivial _ _ hr hs heq
      simp only [id] at habs ⊢
      exact ⟨by omega, hrs⟩

/-! ## Operands -/

/-- The kinds of operands, as they can be told apart in SQL. -/
inductive Opening where
  | extract
  | quoted
  | number
  | boolean
  | tuple
  | null
  deriving DecidableEq, Repr

/-- The kind of an operand that starts with the lexeme. -/
def Sql.Lexeme.opening? : Lexeme → Option Opening
  | .quoted _ => some .quoted
  | .plain c =>
    if c.isDigit ∨ c = '-' then some .number
    else if c = 'j' then some .extract
    else if c = 't' ∨ c = 'f' then some .boolean
    else if c = '(' then some .tuple
    else if c = 'N' then some .null
    else none

/-- The kind of an operand. -/
def Expression.opening : Expression → Opening
  | .extract _ _ => .extract
  | .string _ | .date _ | .dateTime _ => .quoted
  | .int _ | .double _ => .number
  | .boolean _ => .boolean
  | .strings _ | .numbers _ => .tuple
  | .null => .null

theorem opening?_ofInt (n : Int) (r : List Lexeme) :
    (plain (Decimal.ofInt n) ++ r).head?.bind Lexeme.opening? = some .number := by
  rw [plain_ofInt]
  split
  · rfl
  · obtain ⟨c, hc, hdigit⟩ := head?_digits n.natAbs r
    rw [hc, Option.bind_some, Lexeme.opening?, if_pos (.inl hdigit)]

/-- An operand is seen to be of its kind at its first lexeme. -/
theorem Expression.head?_opening? {e : Expression} (he : e.Exact) (r : List Lexeme) :
    (e.sql.lexemes ++ r).head?.bind Lexeme.opening? = some e.opening := by
  cases e with
  | double value => exact he.elim
  | numbers values => exact he.elim
  | int value =>
    rw [Expression.sql, Sql.code, lexemes_code, lexemes_nil, List.append_nil]
    exact opening?_ofInt value r
  | boolean value => cases value <;> rfl
  | _ => rfl

theorem lexemes_strings (texts : List String) (r : List Lexeme) :
    (Expression.strings texts).sql.lexemes ++ r = plain "(" ++
      ((separated ", " (texts.map fun text => [.string text])).lexemes ++ (plain ")" ++ r)) := by
  simp [Expression.sql, tuple, Sql.code]

theorem readable_string (text : String) : Readable (fun text => Sql.lexemes [.string text]) id
    (fun _ => True) (fun _ => True) text := by
  intro text' _ r s _ _ heq
  simp only [lexemes_string, lexemes_nil, List.cons_append, List.nil_append, List.cons.injEq,
    Lexeme.quoted.injEq, Token.mk.injEq, true_and] at heq
  exact heq

/-- The texts between parentheses are determined. -/
theorem strings_inj {texts texts' : List String} {r s : List Lexeme}
    (heq : (Expression.strings texts).sql.lexemes ++ r =
      (Expression.strings texts').sql.lexemes ++ s) : texts = texts' ∧ r = s := by
  rw [lexemes_strings, lexemes_strings] at heq
  have hinside := List.append_cancel_left heq
  have hclose : ∀ r t : List Lexeme, plain ")" ++ r ≠ plain ", " ++ t :=
    fun r t => Apart.plain_ne (by decide) r t
  cases texts with
  | nil =>
    cases texts' with
    | nil => exact ⟨rfl, List.append_cancel_left hinside⟩
    | cons text' texts' =>
      rw [lexemes_separated_cons] at hinside
      cases hinside
  | cons text texts =>
    cases texts' with
    | nil =>
      rw [lexemes_separated_cons] at hinside
      cases hinside
    | cons text' texts' =>
      obtain ⟨hmap, hrest⟩ := Readable.separated (fun _ => trivial) trivial trivial (hclose r)
        (hclose s) (fun z _ => readable_string z) (fun _ _ => trivial) hinside
      rw [List.map_id, List.map_id] at hmap
      exact ⟨hmap, List.append_cancel_left hrest⟩

theorem extract_inj {rowName path rowName' path' : String} {r s : List Lexeme}
    (heq : (Expression.extract rowName path).sql.lexemes ++ r =
      (Expression.extract rowName' path').sql.lexemes ++ s) :
    rowName = rowName' ∧ path = path' ∧ r = s := by
  simp only [Expression.sql, jsonColumn, jsonPath, lexemes_code, lexemes_identifier,
    lexemes_string, lexemes_nil, List.append_nil, List.append_assoc, List.cons_append,
    List.append_cancel_left_eq, List.cons.injEq, Lexeme.quoted.injEq, Token.mk.injEq, true_and]
    at heq
  obtain ⟨hrow, hpath, hrs⟩ := heq
  exact ⟨(String.append_left_inj _).1 hrow, (String.append_right_inj _).1 hpath, hrs⟩

/-- Which of two texts stands for a truth value is seen, if they are apart. -/
theorem bool_inj (yes no : String) {value value' : Bool} {r s : List Lexeme}
    (hapart : Apart yes no) (heq : plain (if value then yes else no) ++ r =
      plain (if value' then yes else no) ++ s) : value = value' ∧ r = s := by
  cases value <;> cases value'
  · exact ⟨rfl, List.append_cancel_left heq⟩
  · exact absurd heq (hapart.symm.plain_ne r s)
  · exact absurd heq (hapart.plain_ne r s)
  · exact ⟨rfl, List.append_cancel_left heq⟩

/-- The operands that are written as a text. -/
theorem Expression.eq_string_of_opening {e : Expression} (h : e.opening = .quoted) :
    ∃ text, e.sql = [.string text] ∧ e.written = .string text := by
  cases e with
  | string text | date text | dateTime text => exact ⟨text, rfl, rfl⟩
  | _ => cases h

theorem Expression.eq_strings_of_opening {e : Expression} (he : e.Exact)
    (h : e.opening = .tuple) : ∃ texts, e = .strings texts := by
  cases e with
  | strings texts => exact ⟨texts, rfl⟩
  | numbers values => exact he.elim
  | _ => cases h

theorem Expression.eq_null_of_opening {e : Expression} (h : e.opening = .null) : e = .null := by
  cases e with
  | null => rfl
  | _ => cases h

/-- **Operands are readable.** -/
theorem Expression.readable {e : Expression} (he : e.Exact) :
    Readable (fun e => e.sql.lexemes) Expression.written Expression.Exact Stops e := by
  intro e' he' r s hr hs (heq : e.sql.lexemes ++ r = e'.sql.lexemes ++ s)
  have hopening : e.opening = e'.opening := by
    have hhead := congrArg (fun lexemes => lexemes.head?.bind Lexeme.opening?) heq
    simp only [head?_opening? he, head?_opening? he', Option.some.injEq] at hhead
    exact hhead
  cases e with
  | double value => exact he.elim
  | numbers values => exact he.elim
  | extract rowName path =>
    cases e' with
    | extract rowName' path' =>
      obtain ⟨rfl, rfl, hrs⟩ := extract_inj heq
      exact ⟨rfl, hrs⟩
    | _ => cases hopening
  | int value =>
    cases e' with
    | int value' =>
      obtain ⟨hvalue, hrs⟩ := readable_ofInt value value' trivial r s hr hs (by
        simpa [Expression.sql, Sql.code] using heq)
      exact ⟨by rw [show value = value' from hvalue], hrs⟩
    | double value' => exact he'.elim
    | _ => cases hopening
  | boolean value =>
    cases e' with
    | boolean value' =>
      obtain ⟨rfl, hrs⟩ := bool_inj "true" "false" (by decide) (by
        simpa [Expression.sql, Sql.code] using heq)
      exact ⟨rfl, hrs⟩
    | _ => cases hopening
  | strings texts =>
    cases e' with
    | strings texts' =>
      obtain ⟨rfl, hrs⟩ := strings_inj heq
      exact ⟨rfl, hrs⟩
    | numbers values' => exact he'.elim
    | _ => cases hopening
  | null =>
    cases e' with
    | null => exact ⟨rfl, List.append_cancel_left heq⟩
    | _ => cases hopening
  | string text | date text | dateTime text =>
    obtain ⟨text', hsql, hwritten⟩ := eq_string_of_opening hopening.symm
    rw [hsql] at heq
    obtain ⟨htext, hrs⟩ := readable_string text text' trivial r s trivial trivial heq
    rw [hwritten, ← show text = text' from htext]
    exact ⟨rfl, hrs⟩

end SoupQuery
