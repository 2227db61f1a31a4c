/-!
# Checked results

A checked result is a value, or the list of everything that is wrong.

* `Checked.fail` — one error.
* `Checked.errors` — the errors of a result, none for a value.
* `Checked.partition` — all values of a list of results, or all errors of the list in order.
* `Checked.zip` — two values, or the errors of both.
-/

namespace SoupQuery

/-- A value, or a list of errors. -/
abbrev Checked (ε α : Type) := Except (List ε) α

namespace Checked

variable {ε α β : Type}

/-- A result with one error. -/
def fail (error : ε) : Checked ε α := .error [error]

def errors : Checked ε α → List ε
  | .ok _ => []
  | .error errors => errors

def value? : Checked ε α → Option α
  | .ok value => some value
  | .error _ => none

/-- All values, or all errors in order. A result without value and without error counts for
nothing. -/
def partition (results : List (Checked ε α)) : Checked ε (List α) :=
  match results.flatMap errors with
  | [] => .ok (results.filterMap value?)
  | errors => .error errors

/-- Both values, or the errors of both, the first result's before the second's. -/
def zip (first : Checked ε α) (second : Checked ε β) : Checked ε (α × β) :=
  match first, second with
  | .ok a, .ok b => .ok (a, b)
  | first, second => .error (errors first ++ errors second)

end Checked

end SoupQuery
