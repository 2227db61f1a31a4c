import SoupQuery.Proofs.Equality

/-!
# A day covers its times

On a date-time, `eq` with a calendar day asks for the times of the day. It does so by the order of
texts alone, in which two times of the form `hh:mm:ss.mmm` compare as their numbers do.

* `fixedDigits_not_lt` — numbers in a fixed count of digits are ordered like their texts.
* `Clock`, `Clock.text_not_lt_text` — times of the day, and the order of their texts.
* `Clock.stamp`, `stamp_between_iff` — a time on a day lies between the two ends of a day
  exactly if it is the same day.
* `filterField?` — the field that a key of a filter means.
* `whereArgument_eq_day` — **equality with a day asks for exactly the times of the day**, and with
  any other text for that text.
-/

namespace SoupQuery

/-! ## Digits -/

/-- A number in a fixed count of digits, the most significant one first, if they are enough. -/
def fixedDigits : Nat → Nat → List Char
  | 0, _ => []
  | count + 1, n => Nat.digitChar (n / 10 ^ count) :: fixedDigits count (n % 10 ^ count)

theorem length_fixedDigits (count n : Nat) : (fixedDigits count n).length = count := by
  induction count generalizing n with
  | zero => rfl
  | succ count ih => rw [fixedDigits, List.length_cons, ih]

theorem digitChar_lt_digitChar : ∀ b < 10, ∀ a < b, Nat.digitChar a < Nat.digitChar b := by decide

/-- **Numbers in a fixed count of digits are ordered like their texts.** -/
theorem fixedDigits_not_lt {count m n : Nat} (hle : m ≤ n) (hn : n < 10 ^ count) :
    ¬ fixedDigits count n < fixedDigits count m := by
  induction count generalizing m n with
  | zero => exact List.lt_irrefl []
  | succ count ih =>
    have hpos : 0 < 10 ^ count := Nat.pow_pos (by decide)
    rw [fixedDigits, fixedDigits, List.cons_lt_cons_iff]
    rcases Nat.lt_or_eq_of_le (Nat.div_le_div_right hle (c := 10 ^ count)) with hlt | heq
    · have hdigit : n / 10 ^ count < 10 := by
        rw [Nat.div_lt_iff_lt_mul hpos, ← Nat.pow_succ']
        exact hn
      have hfirst := digitChar_lt_digitChar _ hdigit _ hlt
      rintro (hbefore | ⟨hsame, -⟩)
      · exact Char.lt_asymm hfirst hbefore
      · exact Char.ne_of_lt hfirst hsame.symm
    · -- the first digits agree, so the order is that of the rest
      have hrest : m % 10 ^ count ≤ n % 10 ^ count := by
        have hm := Nat.div_add_mod m (10 ^ count)
        have hn := Nat.div_add_mod n (10 ^ count)
        rw [heq] at hm
        omega
      rw [heq]
      rintro (hbefore | ⟨-, hafter⟩)
      · exact Char.lt_irrefl _ hbefore
      · exact ih hrest (Nat.mod_lt _ hpos) hafter

/-- Texts are ordered block by block, if the blocks have the same lengths. -/
theorem append_not_lt_append {rest rest' : List Char} (hrest : ¬ rest' < rest) :
    ∀ {left right : List Char}, left.length = right.length → ¬ right < left →
      ¬ right ++ rest' < left ++ rest
  | [], [], _, _ => hrest
  | c :: left, d :: right, hlength, hle => by
    simp only [List.cons_append, List.cons_lt_cons_iff, not_or, not_and] at hle ⊢
    refine ⟨hle.1, fun hfirst => ?_⟩
    exact append_not_lt_append hrest (Nat.succ.inj hlength) (hle.2 hfirst)
  | [], _ :: _, hlength, _ => by cases hlength
  | _ :: _, [], hlength, _ => by cases hlength

theorem cons_not_lt_cons (c : Char) {rest rest' : List Char} (h : ¬ rest' < rest) :
    ¬ c :: rest' < c :: rest :=
  append_not_lt_append h rfl (List.lt_irrefl [c])

/-- Numbers at the start of texts, in the same count of digits and before the same separator. -/
theorem digits_append_not_lt {count m n : Nat} (hle : m ≤ n) (hn : n < 10 ^ count)
    (separator : Char) {rest rest' : List Char} (hrest : ¬ rest' < rest) :
    ¬ fixedDigits count n ++ separator :: rest' < fixedDigits count m ++ separator :: rest := by
  refine append_not_lt_append (cons_not_lt_cons separator hrest) ?_ (fixedDigits_not_lt hle hn)
  rw [length_fixedDigits, length_fixedDigits]

/-! ## Times -/

/-- A time of the day, in milliseconds. -/
structure Clock where
  hour : Fin 24
  minute : Fin 60
  second : Fin 60
  milli : Fin 1000
  deriving DecidableEq, Repr

namespace Clock

def first : Clock := ⟨0, 0, 0, 0⟩

def last : Clock := ⟨23, 59, 59, 999⟩

/-- The text `hh:mm:ss.mmm` of a time. -/
def text (clock : Clock) : List Char :=
  fixedDigits 2 clock.hour ++ ':' :: (fixedDigits 2 clock.minute ++
    ':' :: (fixedDigits 2 clock.second ++ '.' :: fixedDigits 3 clock.milli))

theorem length_text (clock : Clock) : clock.text.length = 12 := by
  simp [text, length_fixedDigits]

/-- A time that is not later in any of its parts has no later text. -/
theorem text_not_lt_text {clock clock' : Clock} (hhour : clock.hour ≤ clock'.hour)
    (hminute : clock.minute ≤ clock'.minute) (hsecond : clock.second ≤ clock'.second)
    (hmilli : clock.milli ≤ clock'.milli) : ¬ clock'.text < clock.text := by
  refine digits_append_not_lt hhour (by omega) ':' ?_
  refine digits_append_not_lt hminute (by omega) ':' ?_
  refine digits_append_not_lt hsecond (by omega) '.' ?_
  exact fixedDigits_not_lt hmilli (by omega)

theorem not_lt_first_text (clock : Clock) : ¬ clock.text < first.text :=
  text_not_lt_text (Fin.zero_le _) (Fin.zero_le _) (Fin.zero_le _) (Fin.zero_le _)

theorem not_last_text_lt (clock : Clock) : ¬ last.text < clock.text :=
  text_not_lt_text (Fin.le_last _) (Fin.le_last _) (Fin.le_last _) (Fin.le_last _)

/-- The text of a time on a day. -/
def stamp (clock : Clock) (day : String) : String :=
  day ++ "T" ++ String.ofList clock.text ++ "Z"

theorem toList_stamp (clock : Clock) (day : String) :
    (clock.stamp day).toList = day.toList ++ 'T' :: (clock.text ++ ['Z']) := by
  simp [stamp]

example : stamp ⟨9, 5, 0, 70⟩ "2024-01-01" = "2024-01-01T09:05:00.070Z" := by decide

theorem stamp_first (day : String) : first.stamp day = day ++ "T00:00:00.000Z" := by
  rw [stamp, String.append_assoc, String.append_assoc]
  rfl

theorem stamp_last (day : String) : last.stamp day = day ++ "T23:59:59.999Z" := by
  rw [stamp, String.append_assoc, String.append_assoc]
  rfl

/-- Times on one day are ordered like their texts. -/
theorem stamp_le_stamp {clock clock' : Clock} (h : ¬ clock'.text < clock.text) (day : String) :
    clock.stamp day ≤ clock'.stamp day := by
  rw [← String.not_lt, String.lt_iff, toList_stamp, toList_stamp]
  have hzone : ¬ clock'.text ++ ['Z'] < clock.text ++ ['Z'] := by
    refine append_not_lt_append (List.lt_irrefl _) ?_ h
    rw [length_text, length_text]
  exact append_not_lt_append (cons_not_lt_cons 'T' hzone) rfl (List.lt_irrefl _)

end Clock

end SoupQuery

namespace SoupQuery.Compile

open SoupQuery.GraphQL

/-! ## Days -/

/-- **The times between the two ends of a day are those of the day.** -/
theorem stamp_between_iff {day day' : String} (hday : isDateOnly day = true)
    (hday' : isDateOnly day' = true) (clock : Clock) :
    Clock.first.stamp day ≤ clock.stamp day' ∧ clock.stamp day' ≤ Clock.last.stamp day ↔
      day' = day := by
  constructor
  · rintro ⟨hlow, hhigh⟩
    rw [← String.not_lt, String.lt_iff, Clock.toList_stamp, Clock.toList_stamp] at hlow hhigh
    have hlength : day'.toList.length = day.toList.length := by
      rw [length_of_isDateOnly hday, length_of_isDateOnly hday']
    exact String.toList_inj.1 (eq_of_between_continuations hlength hlow hhigh)
  · rintro rfl
    exact ⟨Clock.stamp_le_stamp clock.not_lt_first_text _,
      Clock.stamp_le_stamp clock.not_last_text_lt _⟩

/-! ## Equality with a day -/

/-- The field that a key of a filter means; the words of the filter language mean none. -/
def filterField? (schema : Schema) (type key : String) : Option FieldInfo :=
  match FilterKey.ofName key, schema.member? type key with
  | .member, some (.value field) => some field
  | _, _ => none

variable {schema : Schema} {row : Row} {type key : String} {field : FieldInfo}

theorem filterField?_eq_some :
    filterField? schema type key = some field ↔
      key ∉ ["and", "or", "not"] ∧ schema.member? type key = some (.value field) := by
  rw [← ofName_eq_member, filterField?]
  split <;> simp_all

/-- The filter of a comparison with a text, on a date-time. -/
theorem whereArgument_eq_text (hfield : filterField? schema row.type key = some field)
    (hkind : field.filterKind = .dateTime) (text : String) :
    whereArgument schema row (some (.object (comparing key .eq (.string text)))) =
      .ok (some (.single (literalCondition (fieldValue row field.apiName) .eq
        (.dateTime text)))) := by
  obtain ⟨hkey, hmember⟩ := filterField?_eq_some.1 hfield
  refine (whereArgument_comparing hkey hmember).2 ⟨_, ?_, rfl⟩
  rw [hkind]
  exact (comparison_scalar (.inl rfl) Value.noConfusion).2 ⟨.dateTime text, rfl, rfl⟩

/-- **Equality of a date-time with a day asks for exactly the times of the day**, in the order of
texts; equality with any other text asks for that text. -/
theorem whereArgument_eq_day (hfield : filterField? schema row.type key = some field)
    (hkind : field.filterKind = .dateTime) :
    (∀ day, isDateOnly day = true → ∃ start stop,
      whereArgument schema row (some (.object (comparing key .eq (.string day)))) =
        .ok (some ⟨.between (fieldValue row field.apiName) (.dateTime start) (.dateTime stop),
          []⟩) ∧
      ∀ day' (clock : Clock), isDateOnly day' = true →
        (start ≤ clock.stamp day' ∧ clock.stamp day' ≤ stop ↔ day' = day)) ∧
    ∀ text, isDateOnly text = false →
      whereArgument schema row (some (.object (comparing key .eq (.string text)))) =
        .ok (some ⟨.comparison (fieldValue row field.apiName) .eq (.dateTime text), []⟩) := by
  refine ⟨fun day hday => ⟨Clock.first.stamp day, Clock.last.stamp day, ?_,
    fun day' clock hday' => stamp_between_iff hday hday' clock⟩, fun text htext => ?_⟩
  · rw [whereArgument_eq_text hfield hkind, literalCondition, if_pos ⟨rfl, hday⟩, timeOfDay,
      Clock.stamp_first, Clock.stamp_last]
    rfl
  · rw [whereArgument_eq_text hfield hkind, literalCondition, if_neg (by simp [htext])]
    rfl

/-- A day in other digits than those of its times, and a text that is no day. -/
theorem newYear_eq_day :
    filterField? guestSchema "Visit" "Start" = some (.scalar "Start" .dateTime) ∧
    isDateOnly "२०२४-०१-०१" = true ∧
    (∃ start stop,
      whereArgument guestSchema ⟨"v", "Visit"⟩
          (some (.object (comparing "Start" .eq (.string "२०२४-०१-०१")))) =
        .ok (some ⟨.between (.extract "v" "data.fields.Start.value") (.dateTime start)
          (.dateTime stop), []⟩) ∧
      ∀ day' (clock : Clock), isDateOnly day' = true →
        (start ≤ clock.stamp day' ∧ clock.stamp day' ≤ stop ↔ day' = "२०२४-०१-०१")) ∧
    isDateOnly "2024-1-1" = false ∧
    whereArgument guestSchema ⟨"v", "Visit"⟩
        (some (.object (comparing "Start" .eq (.string "2024-1-1")))) =
      .ok (some ⟨.comparison (.extract "v" "data.fields.Start.value") .eq (.dateTime "2024-1-1"),
        []⟩) := by
  have hfield : filterField? guestSchema (Row.mk "v" "Visit").type "Start" =
      some (.scalar "Start" .dateTime) := rfl
  have hdays := whereArgument_eq_day hfield rfl
  exact ⟨rfl, by decide, hdays.1 _ (by decide), by decide, hdays.2 _ (by decide)⟩

end SoupQuery.Compile
