import SoupQuery.Text.CodePoint

/-!
# String values

The two ways of writing a string: `"…"` with escapes on one line, and `"""…"""` over several
lines, whose common indentation and blank ends are not part of the value.

* `quoted?` — reads the rest of a quoted string after its opening mark.
* `block?` — reads the rest of a block string after its three opening marks.
* `blockValue` — the value of the raw content of a block string.
-/

namespace SoupQuery.GraphQL

open SoupQuery.Text

/-! ## Quoted strings -/

def hexDigit? (c : Char) : Option Nat :=
  if c.isDigit then some (c.toNat - '0'.toNat)
  else if 'a' ≤ c ∧ c ≤ 'f' then some (c.toNat - 'a'.toNat + 10)
  else if 'A' ≤ c ∧ c ≤ 'F' then some (c.toNat - 'A'.toNat + 10)
  else none

/-- The number that hexadecimal digits stand for; the first place may hold a plus. -/
def hexNumber? (text : List Char) : Option Nat :=
  let unsigned := match text with
    | '+' :: rest => rest
    | _ => text
  unsigned.foldlM (fun value c => (hexDigit? c).map (16 * value + ·)) 0

/-- The character of a code point; a surrogate is no character. -/
def character? (code : Nat) : Option Char :=
  if code.isValidChar then some (Char.ofNat code) else none

def escape? (c : Char) : Option Char :=
  match c with
  | '"' => some '"'
  | '\\' => some '\\'
  | '/' => some '/'
  | 'b' => some '\x10'
  | 'f' => some '\x0c'
  | 'n' => some '\n'
  | 'r' => some '\r'
  | 't' => some '\t'
  | _ => none

/-- Reads a quoted string after its opening mark: the value, and what follows the closing mark.
A line feed inside is an error, as is an unknown escape. -/
def quoted? : List Char → Option (List Char × List Char)
  | [] => none
  | '"' :: rest => some ([], rest)
  | '\n' :: _ => none
  | '\\' :: 'u' :: a :: b :: c :: d :: rest => do
    let char ← (hexNumber? [a, b, c, d]).bind character?
    let (text, after) ← quoted? rest
    some (char :: text, after)
  | '\\' :: letter :: rest => do
    let char ← escape? letter
    let (text, after) ← quoted? rest
    some (char :: text, after)
  | char :: rest => do
    let (text, after) ← quoted? rest
    some (char :: text, after)

theorem quoted?_length {input text after : List Char} (h : quoted? input = some (text, after)) :
    after.length < input.length := by
  fun_induction quoted? input generalizing text with
  | case1 => simp at h
  | case2 rest => simp_all
  | case3 => simp at h
  | case4 a b c d rest ih =>
    simp only [bind, Option.bind_eq_some_iff, Option.some.injEq, Prod.mk.injEq] at h
    obtain ⟨_, _, ⟨text', after'⟩, hrest, _, rfl⟩ := h
    have hlt := ih hrest
    simp only [List.length_cons] at hlt ⊢; omega
  | case5 letter rest _ ih =>
    simp only [bind, Option.bind_eq_some_iff, Option.some.injEq, Prod.mk.injEq] at h
    obtain ⟨_, _, ⟨text', after'⟩, hrest, _, rfl⟩ := h
    have hlt := ih hrest
    simp only [List.length_cons] at hlt ⊢; omega
  | case6 char rest _ _ _ _ ih =>
    simp only [bind, Option.bind_eq_some_iff, Option.some.injEq, Prod.mk.injEq] at h
    obtain ⟨⟨text', after'⟩, hrest, _, rfl⟩ := h
    have hlt := ih hrest
    simp only [List.length_cons] at hlt ⊢; omega

/-! ## Block strings -/

/-- Reads the raw content of a block string up to the first three marks that no backslash
stands before; `escaped` says whether the character just read was a backslash. -/
def blockContent? (escaped : Bool) : List Char → Option (List Char × List Char)
  | [] => none
  | '"' :: '"' :: '"' :: rest =>
    if escaped then (blockContent? false rest).map fun read => ('"' :: '"' :: '"' :: read.1, read.2)
    else some ([], rest)
  | c :: rest => (blockContent? (c = '\\') rest).map fun read => (c :: read.1, read.2)

theorem blockContent?_length {escaped : Bool} {input text after : List Char}
    (h : blockContent? escaped input = some (text, after)) : after.length < input.length := by
  fun_induction blockContent? escaped input generalizing text with
  | case1 => simp at h
  | case2 rest ih =>
    obtain ⟨read, hread, heq⟩ := Option.map_eq_some_iff.1 h
    obtain ⟨_, rfl⟩ := Prod.mk.inj heq
    have := ih hread
    simp only [List.length_cons]; omega
  | case3 escaped rest =>
    simp only [Option.some.injEq, Prod.mk.injEq] at h
    obtain ⟨_, rfl⟩ := h
    simp only [List.length_cons]; omega
  | case4 escaped c rest _ ih =>
    obtain ⟨read, hread, heq⟩ := Option.map_eq_some_iff.1 h
    obtain ⟨_, rfl⟩ := Prod.mk.inj heq
    have := ih hread
    simp only [List.length_cons]; omega

/-- The lines of a text; a line ends at a line feed, and a carriage return just before it
belongs to the end of the line. -/
def lines : List Char → List (List Char)
  | [] => [[]]
  | '\r' :: '\n' :: rest => [] :: lines rest
  | '\n' :: rest => [] :: lines rest
  | c :: rest =>
    match lines rest with
    | [] => [[c]]
    | line :: others => (c :: line) :: others

def isBlank (line : List Char) : Bool := line.all isWhiteSpace

def byteSize (text : List Char) : Nat := text.foldl (fun total c => total + c.utf8Size) 0

/-- The text without as many leading characters as fit into the given number of bytes. -/
def dropBytes (count : Nat) : List Char → List Char
  | [] => []
  | c :: rest => if c.utf8Size ≤ count then dropBytes (count - c.utf8Size) rest else c :: rest

/-- The least indentation, in bytes, of the lines that are not blank. -/
def commonIndent? (others : List (List Char)) : Option Nat :=
  ((others.filter (!isBlank ·)).map fun line => byteSize (line.takeWhile isWhiteSpace)).min?

/-- A line with the common indentation cut off, if it is long enough to have it. -/
def cutIndent (indent? : Option Nat) (line : List Char) : List Char :=
  match indent? with
  | some indent => if indent ≤ byteSize line then dropBytes indent line else line
  | none => line

/-- Three marks after a backslash stand for the three marks. -/
def unescapeMarks : List Char → List Char
  | [] => []
  | '\\' :: '"' :: '"' :: '"' :: rest => '"' :: '"' :: '"' :: unescapeMarks rest
  | c :: rest => c :: unescapeMarks rest

def trimBlank (text : List (List Char)) : List (List Char) :=
  ((text.dropWhile isBlank).reverse.dropWhile isBlank).reverse

/-- The value of the raw content of a block string. The first line has no indentation of its
own, so it neither counts for the common one nor loses it. -/
def blockValue (content : List Char) : List Char :=
  match lines content with
  | [] => []
  | first :: others =>
    let cut := first :: others.map (cutIndent (commonIndent? others))
    ['\n'].intercalate ((trimBlank cut).map unescapeMarks)

/-- Reads a block string after its three opening marks. -/
def block? (input : List Char) : Option (List Char × List Char) :=
  (blockContent? false input).map fun read => (blockValue read.1, read.2)

theorem block?_length {input text after : List Char} (h : block? input = some (text, after)) :
    after.length < input.length := by
  obtain ⟨read, hread, heq⟩ := Option.map_eq_some_iff.1 h
  obtain ⟨_, rfl⟩ := Prod.mk.inj heq
  exact blockContent?_length hread

end SoupQuery.GraphQL
