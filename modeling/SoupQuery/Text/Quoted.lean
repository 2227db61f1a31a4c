/-!
# Quoted texts

A quoted text stands between two equal marks, and the mark inside it is written twice.

* `double` — every mark of a text written twice.
* `quote` — a text between marks.
* `undouble?` — reads what stands between two marks, and what follows them.
* `undouble?_double` — reading gives back what was quoted, provided that no mark follows.
-/

namespace SoupQuery.Text

/-- The text with every `mark` written twice. -/
def double (mark : Char) : List Char → List Char
  | [] => []
  | c :: rest => if c = mark then c :: c :: double mark rest else c :: double mark rest

/-- The text between two marks, the marks inside it doubled. -/
def quote (mark : Char) (text : List Char) : List Char :=
  mark :: (double mark text ++ [mark])

/-- Reads the inside of a quoted text up to the mark that ends it: a doubled mark stands for
one, a single mark ends the text. -/
def undouble? (mark : Char) : List Char → Option (List Char × List Char)
  | [] => none
  | [c] => if c = mark then some ([], []) else none
  | c :: d :: rest =>
    if c = mark then
      if d = mark then (undouble? mark rest).map fun read => (mark :: read.1, read.2)
      else some ([], d :: rest)
    else (undouble? mark (d :: rest)).map fun read => (c :: read.1, read.2)

/-- Reading gives back the text that was quoted, whatever it holds. -/
theorem undouble?_double (mark : Char) (text rest : List Char) (h : rest.head? ≠ some mark) :
    undouble? mark (double mark text ++ mark :: rest) = some (text, rest) := by
  induction text with
  | nil => cases rest <;> simp_all [double, undouble?]
  | cons c text ih =>
    by_cases hc : c = mark
    · simp [double, undouble?, hc, ih]
    · cases htext : double mark text ++ mark :: rest with
      | nil => simp at htext
      | cons d tail => simp_all [double, undouble?]

end SoupQuery.Text
