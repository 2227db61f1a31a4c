import SoupQuery.Decimal.Binary64
import SoupQuery.GraphQL.StringValue

/-!
# Tokens

The words of a GraphQL document. White space, commas, byte order marks and comments stand
between tokens and are skipped.

* `Mark`, `Token` — the punctuation marks and the tokens.
* `number?` — the token of a run of characters that starts like a number.
* `Token.next?` — reads one token; what is left is shorter.
* `Token.all?` — the tokens of a whole text.
* `nestsWithin` — whether brackets are open at most to a given depth.
-/

namespace SoupQuery.GraphQL

open SoupQuery.Decimal

inductive Mark where
  | bang
  | dollar
  | colon
  | equals
  | atSign
  | bar
  | ampersand
  | spread
  | openParen
  | closeParen
  | openBracket
  | closeBracket
  | openBrace
  | closeBrace
  deriving DecidableEq, Repr, Inhabited

/-- A token of a document; numbers and strings carry their values. -/
inductive Token where
  | mark (m : Mark)
  | name (text : String)
  | int (value : Int)
  | float (value : Binary64)
  | string (text : String)
  deriving Repr, Inhabited

/-- The marks of one character. -/
def Mark.ofChar? (c : Char) : Option Mark :=
  match c with
  | '!' => some .bang
  | '$' => some .dollar
  | ':' => some .colon
  | '=' => some .equals
  | '@' => some .atSign
  | '|' => some .bar
  | '&' => some .ampersand
  | '(' => some .openParen
  | ')' => some .closeParen
  | '[' => some .openBracket
  | ']' => some .closeBracket
  | '\x7b' => some .openBrace
  | '\x7d' => some .closeBrace
  | _ => none

/-! ## Names and numbers -/

def isNameStart (c : Char) : Bool := c = '_' || c.isAlpha

def isNamePart (c : Char) : Bool := isNameStart c || c.isDigit

def endsNumber (c : Char) : Bool :=
  c = ' ' || c = '\n' || c = '\r' || c = '\t' || c = ',' || c = '#' || (Mark.ofChar? c).isSome

/-- What follows the whole part of a number: an optional minus and digits, of which the first is
zero only if it is the last. -/
def afterWhole? (text : List Char) : Option (List Char) :=
  let unsigned := match text with
    | '-' :: rest => rest
    | _ => text
  let whole := unsigned.takeWhile Char.isDigit
  if whole = [] ∨ whole.head? = some '0' ∧ whole ≠ ['0'] then none
  else some (unsigned.dropWhile Char.isDigit)

def areDigits (text : List Char) : Bool := text ≠ [] && text.all Char.isDigit

/-- An exponent is a signed numeral, or an unsigned one that starts with a digit from 1 to 8. -/
def isExponent : List Char → Bool
  | [] => false
  | letter :: rest =>
    (letter = 'e' || letter = 'E') &&
      match rest with
      | [] => false
      | first :: more =>
        if first = '+' ∨ first = '-' then areDigits more
        else '1' ≤ first && first ≤ '8' && areDigits rest

/-- What follows the whole part of a float: a fraction, an exponent, or one after the other. -/
def isFloatEnd : List Char → Bool
  | '.' :: rest =>
    let after := rest.dropWhile Char.isDigit
    rest.takeWhile Char.isDigit ≠ [] && (after = [] || isExponent after)
  | text => isExponent text

/-- The token of a number. An integer must fit a signed 64-bit word. -/
def number? (text : List Char) : Option Token :=
  match afterWhole? text with
  | none => none
  | some [] => (int64? text).map .int
  | some rest => if isFloatEnd rest then (Binary64.read? text).map .float else none

/-! ## Between tokens -/

def isIgnored (c : Char) : Bool :=
  c = ' ' || c = '\t' || c = '\n' || c = '\r' || c = ',' || c = '\uFEFF'

def endsLine (c : Char) : Bool := c = '\n' || c = '\r'

/-- The text from its next token on; `comment` says whether the text starts inside a comment. -/
def skipIgnored (comment : Bool) : List Char → List Char
  | [] => []
  | c :: rest =>
    if comment then skipIgnored (!endsLine c) rest
    else if c = '#' then skipIgnored true rest
    else if isIgnored c then skipIgnored false rest
    else c :: rest

theorem skipIgnored_length (comment : Bool) (text : List Char) :
    (skipIgnored comment text).length ≤ text.length := by
  fun_induction skipIgnored comment text <;> simp_all <;> omega

/-! ## Reading -/

/-- A token and the text after it, which is shorter than the text before. -/
abbrev Token.Read (text : List Char) := Token × { rest : List Char // rest.length < text.length }

/-- Reads the token at the front of a text. -/
def Token.next? (c : Char) (rest : List Char) : Option (Token.Read (c :: rest)) :=
  if isNameStart c then
    some (.name (String.ofList (c :: rest.takeWhile isNamePart)),
      ⟨rest.dropWhile isNamePart, by
        have := (List.dropWhile_sublist isNamePart (l := rest)).length_le
        simp only [List.length_cons]; omega⟩)
  else if c = '-' ∨ c.isDigit then
    (number? (c :: rest.takeWhile (!endsNumber ·))).map fun token =>
      (token, ⟨rest.dropWhile (!endsNumber ·), by
        have := (List.dropWhile_sublist (!endsNumber ·) (l := rest)).length_le
        simp only [List.length_cons]; omega⟩)
  else
    match Mark.ofChar? c with
    | some m => some (.mark m, ⟨rest, by simp⟩)
    | none =>
      match c, rest with
      | '.', '.' :: '.' :: after =>
        some (.mark .spread, ⟨after, by simp only [List.length_cons]; omega⟩)
      | '"', '"' :: '"' :: inside =>
        match h : block? inside with
        | some (text, after) => some (.string (String.ofList text), ⟨after, by
            have := block?_length h
            simp only [List.length_cons]; omega⟩)
        | none => none
      | '"', inside =>
        match h : quoted? inside with
        | some (text, after) => some (.string (String.ofList text), ⟨after, by
            have := quoted?_length h
            simp only [List.length_cons]; omega⟩)
        | none => none
      | _, _ => none

/-- The tokens of a text, or nothing if some part of it is no token. -/
def Token.all? (text : List Char) : Option (List Token) :=
  match h : skipIgnored false text with
  | [] => some []
  | c :: rest =>
    have hskip : (c :: rest).length ≤ text.length := h ▸ skipIgnored_length false text
    match Token.next? c rest with
    | none => none
    | some (token, ⟨after, hafter⟩) =>
      have : after.length < text.length := Nat.lt_of_lt_of_le hafter hskip
      (Token.all? after).map (token :: ·)
termination_by text.length

/-- Whether at most `limit` brackets are open at any place, `depth` being open at the start. -/
def nestsWithin (limit depth : Nat) : List Token → Bool
  | [] => true
  | token :: rest =>
    match token with
    | .mark .openParen | .mark .openBracket | .mark .openBrace =>
      depth < limit && nestsWithin limit (depth + 1) rest
    | .mark .closeParen | .mark .closeBracket | .mark .closeBrace =>
      nestsWithin limit (depth - 1) rest
    | _ => nestsWithin limit depth rest

end SoupQuery.GraphQL
