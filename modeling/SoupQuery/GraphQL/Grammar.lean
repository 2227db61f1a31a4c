import SoupQuery.GraphQL.Document
import SoupQuery.GraphQL.Token

/-!
# The grammar of documents

Each rule reads its part off the front of a list of tokens and hands on the rest. The rest of a
rule that reads something is shorter, which is why the recursion ends.

* `Read`, `Skim` — what a rule returns if it must read something, and if it may read nothing.
* `value?`, `arguments?`, `directives?` — values, argument lists, directives.
* `selectionSet?`, `definition?` — selections and definitions.
* `Document.parse?` — the document of a source text.
-/

namespace SoupQuery.GraphQL

/-- The result of a rule that reads at least one token. -/
abbrev Read (α : Type) (tokens : List Token) :=
  Option (α × { rest : List Token // rest.length < tokens.length })

/-- The result of a rule that may read nothing. -/
abbrev Skim (α : Type) (tokens : List Token) :=
  Option (α × { rest : List Token // rest.length ≤ tokens.length })

def nonempty? {α : Type} {tokens : List Token} (read : Read (List α) tokens) :
    Read (List α) tokens :=
  read.filter fun found => !found.1.isEmpty

def startsWith (m : Mark) : List Token → Bool
  | .mark first :: _ => first = m
  | _ => false

/-! ## Values -/

mutual

/-- A value; a constant one is no variable and holds none. -/
def value? (constant : Bool) (tokens : List Token) : Read Value tokens :=
  match tokens with
  | .name text :: rest => some (Value.ofName text, ⟨rest, by simp⟩)
  | .int value :: rest => some (.int value, ⟨rest, by simp⟩)
  | .float value :: rest => some (.float value, ⟨rest, by simp⟩)
  | .string text :: rest => some (.string text, ⟨rest, by simp⟩)
  | .mark .dollar :: .name text :: rest =>
    if constant then none
    else some (.variable text, ⟨rest, by simp only [List.length_cons]; omega⟩)
  | .mark .openBracket :: inside =>
    match items? constant inside with
    | some (items, ⟨rest, hrest⟩) =>
      some (.list items, ⟨rest, by simp only [List.length_cons]; omega⟩)
    | none => none
  | .mark .openBrace :: inside =>
    match entries? constant .closeBrace inside with
    | some (entries, ⟨rest, hrest⟩) =>
      some (Value.ofEntries entries, ⟨rest, by simp only [List.length_cons]; omega⟩)
    | none => none
  | _ => none
termination_by 4 * tokens.length + 0

def items? (constant : Bool) (tokens : List Token) : Read (List Value) tokens :=
  match tokens with
  | .mark .closeBracket :: rest => some ([], ⟨rest, by simp⟩)
  | tokens =>
    match value? constant tokens with
    | none => none
    | some (item, ⟨after, _⟩) =>
      match items? constant after with
      | none => none
      | some (items, ⟨rest, _⟩) => some (item :: items, ⟨rest, by omega⟩)
termination_by 4 * tokens.length + 1

/-- The named values up to the closing mark, in written order. -/
def entries? (constant : Bool) (close : Mark) (tokens : List Token) :
    Read (List (String × Value)) tokens :=
  match tokens with
  | .mark m :: rest => if m = close then some ([], ⟨rest, by simp⟩) else none
  | .name key :: .mark .colon :: inside =>
    match value? constant inside with
    | none => none
    | some (value, ⟨after, _⟩) =>
      match entries? constant close after with
      | none => none
      | some (entries, ⟨rest, _⟩) =>
        some ((key, value) :: entries, ⟨rest, by simp only [List.length_cons]; omega⟩)
  | _ => none
termination_by 4 * tokens.length + 1

end

/-- An optional list of arguments, which is not empty if it is there. -/
def arguments? (tokens : List Token) : Skim (List (String × Value)) tokens :=
  match tokens with
  | .mark .openParen :: inside =>
    match nonempty? (entries? false .closeParen inside) with
    | some (arguments, ⟨rest, _⟩) =>
      some (arguments, ⟨rest, by simp only [List.length_cons]; omega⟩)
    | none => none
  | tokens => some ([], ⟨tokens, Nat.le_refl _⟩)

/-- Any number of directives, which are checked and dropped. -/
def directives? (tokens : List Token) : Skim Unit tokens :=
  match tokens with
  | .mark .atSign :: .name _ :: inside =>
    match arguments? inside with
    | none => none
    | some (_, ⟨after, _⟩) =>
      match directives? after with
      | none => none
      | some (_, ⟨rest, _⟩) => some ((), ⟨rest, by simp only [List.length_cons]; omega⟩)
  | .mark .atSign :: _ => none
  | tokens => some ((), ⟨tokens, Nat.le_refl _⟩)
termination_by tokens.length

/-! ## Selections -/

mutual

/-- Selections between braces, at least one. -/
def selectionSet? (tokens : List Token) : Read (List Selection) tokens :=
  match tokens with
  | .mark .openBrace :: inside =>
    match nonempty? (selections? inside) with
    | some (selections, ⟨rest, _⟩) =>
      some (selections, ⟨rest, by simp only [List.length_cons]; omega⟩)
    | none => none
  | _ => none
termination_by 4 * tokens.length + 0

/-- The selections up to a closing brace. -/
def selections? (tokens : List Token) : Read (List Selection) tokens :=
  match tokens with
  | .mark .closeBrace :: rest => some ([], ⟨rest, by simp⟩)
  | tokens =>
    match selection? tokens with
    | none => none
    | some (selection, ⟨after, _⟩) =>
      match selections? after with
      | none => none
      | some (selections, ⟨rest, _⟩) => some (selection :: selections, ⟨rest, by omega⟩)
termination_by 4 * tokens.length + 3

/-- One selection. After the three points the word `on` is never the name of a fragment. -/
def selection? (tokens : List Token) : Read Selection tokens :=
  match tokens with
  | .mark .spread :: .name text :: inside =>
    if text = "on" then
      match inside with
      | .name onType :: body =>
        match fragmentBody? body with
        | some (selections, ⟨rest, _⟩) =>
          some (.inlineFragment (some onType) selections,
            ⟨rest, by simp only [List.length_cons]; omega⟩)
        | none => none
      | _ => none
    else
      match directives? inside with
      | some (_, ⟨rest, _⟩) =>
        some (.fragmentSpread text, ⟨rest, by simp only [List.length_cons]; omega⟩)
      | none => none
  | .mark .spread :: body =>
    match fragmentBody? body with
    | some (selections, ⟨rest, _⟩) =>
      some (.inlineFragment none selections, ⟨rest, by simp only [List.length_cons]; omega⟩)
    | none => none
  | .name key :: .mark .colon :: .name name :: body =>
    match fieldBody? body with
    | some ((arguments, selections), ⟨rest, _⟩) =>
      some (.field ⟨some key, name, arguments⟩ selections,
        ⟨rest, by simp only [List.length_cons]; omega⟩)
    | none => none
  | .name name :: body =>
    match fieldBody? body with
    | some ((arguments, selections), ⟨rest, _⟩) =>
      some (.field ⟨none, name, arguments⟩ selections,
        ⟨rest, by simp only [List.length_cons]; omega⟩)
    | none => none
  | _ => none
termination_by 4 * tokens.length + 2

/-- The directives and selections of a fragment. -/
def fragmentBody? (tokens : List Token) : Read (List Selection) tokens :=
  match directives? tokens with
  | none => none
  | some (_, ⟨after, _⟩) =>
    match selectionSet? after with
    | none => none
    | some (selections, ⟨rest, _⟩) => some (selections, ⟨rest, by omega⟩)
termination_by 4 * tokens.length + 1

/-- What follows the name of a field: arguments, directives and selections, all optional. -/
def fieldBody? (tokens : List Token) :
    Skim (List (String × Value) × List Selection) tokens :=
  match arguments? tokens with
  | none => none
  | some (arguments, ⟨afterArguments, _⟩) =>
    match directives? afterArguments with
    | none => none
    | some (_, ⟨after, _⟩) =>
      if startsWith .openBrace after then
        match selectionSet? after with
        | none => none
        | some (selections, ⟨rest, _⟩) => some ((arguments, selections), ⟨rest, by omega⟩)
      else some ((arguments, []), ⟨after, by omega⟩)
termination_by 4 * tokens.length + 1

end

/-! ## Definitions -/

def afterBang (tokens : List Token) : { rest : List Token // rest.length ≤ tokens.length } :=
  match tokens with
  | .mark .bang :: rest => ⟨rest, by simp⟩
  | tokens => ⟨tokens, Nat.le_refl _⟩

/-- A type: a name or a list type, either of them perhaps with a bang. -/
def type? (tokens : List Token) : Read Unit tokens :=
  match tokens with
  | .name _ :: after =>
    let ⟨rest, _⟩ := afterBang after
    some ((), ⟨rest, by simp only [List.length_cons]; omega⟩)
  | .mark .openBracket :: inside =>
    match type? inside with
    | some (_, ⟨.mark .closeBracket :: after, _⟩) =>
      let ⟨rest, _⟩ := afterBang after
      some ((), ⟨rest, by simp only [List.length_cons] at *; omega⟩)
    | _ => none
  | _ => none
termination_by tokens.length

/-- An optional default value, which is a constant. -/
def default? (tokens : List Token) : Skim Unit tokens :=
  match tokens with
  | .mark .equals :: inside =>
    match value? true inside with
    | some (_, ⟨rest, _⟩) => some ((), ⟨rest, by simp only [List.length_cons]; omega⟩)
    | none => none
  | tokens => some ((), ⟨tokens, Nat.le_refl _⟩)

/-- The names of the variables defined up to a closing parenthesis. -/
def variables? (tokens : List Token) : Read (List String) tokens :=
  match tokens with
  | .mark .closeParen :: rest => some ([], ⟨rest, by simp⟩)
  | .mark .dollar :: .name name :: .mark .colon :: inside =>
    match type? inside with
    | none => none
    | some (_, ⟨afterType, _⟩) =>
      match default? afterType with
      | none => none
      | some (_, ⟨after, _⟩) =>
        match variables? after with
        | none => none
        | some (names, ⟨rest, _⟩) =>
          some (name :: names, ⟨rest, by simp only [List.length_cons]; omega⟩)
  | _ => none
termination_by tokens.length

/-- Optional variable definitions, at least one if they are there. -/
def variableDefinitions? (tokens : List Token) : Skim Unit tokens :=
  match tokens with
  | .mark .openParen :: inside =>
    match nonempty? (variables? inside) with
    | some (_, ⟨rest, _⟩) => some ((), ⟨rest, by simp only [List.length_cons]; omega⟩)
    | none => none
  | tokens => some ((), ⟨tokens, Nat.le_refl _⟩)

def afterName (tokens : List Token) : { rest : List Token // rest.length ≤ tokens.length } :=
  match tokens with
  | .name _ :: rest => ⟨rest, by simp⟩
  | tokens => ⟨tokens, Nat.le_refl _⟩

def OperationKind.ofKeyword? (keyword : String) : Option OperationKind :=
  if keyword = "query" then some .query
  else if keyword = "mutation" then some .mutation
  else if keyword = "subscription" then some .subscription
  else none

/-- What follows the keyword of an operation. -/
def operationBody? (tokens : List Token) : Read (List Selection) tokens :=
  match afterName tokens with
  | ⟨afterName, _⟩ =>
    match variableDefinitions? afterName with
    | none => none
    | some (_, ⟨afterVariables, _⟩) =>
      match fragmentBody? afterVariables with
      | none => none
      | some (selections, ⟨rest, _⟩) => some (selections, ⟨rest, by omega⟩)

def definition? (tokens : List Token) : Read Definition tokens :=
  match tokens with
  | .mark .openBrace :: inside =>
    match selectionSet? (.mark .openBrace :: inside) with
    | some (selections, rest) => some (.operation .query selections, rest)
    | none => none
  | .name "fragment" :: .name name :: .name "on" :: .name onType :: body =>
    match fragmentBody? body with
    | some (selections, ⟨rest, _⟩) =>
      some (.fragment name onType selections, ⟨rest, by simp only [List.length_cons]; omega⟩)
    | none => none
  | .name keyword :: body =>
    match OperationKind.ofKeyword? keyword, operationBody? body with
    | some kind, some (selections, ⟨rest, _⟩) =>
      some (.operation kind selections, ⟨rest, by simp only [List.length_cons]; omega⟩)
    | _, _ => none
  | _ => none

def definitions? (tokens : List Token) : Option (List Definition) :=
  match tokens with
  | [] => some []
  | tokens =>
    match definition? tokens with
    | none => none
    | some (definition, ⟨rest, _⟩) => (definitions? rest).map (definition :: ·)
termination_by tokens.length

/-- How deep the brackets of a document may be nested. -/
def maxNesting : Nat := 50

/-- The document that a source text writes. It has at least one definition. -/
def Document.parse? (source : String) : Option Document :=
  ((Token.all? source.toList).filter (nestsWithin maxNesting 0)).bind fun tokens =>
    (definitions? tokens).filter fun document => !document.isEmpty

end SoupQuery.GraphQL
