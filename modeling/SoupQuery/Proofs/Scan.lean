import SoupQuery.Sql.Piece

/-!
# Scanning SQL text

SQL text is read from left to right. A single or a double quote opens a token, which the same quote
closes; a doubled quote inside a token stands for one.

* `scan?` — the lexemes of a text, if it does not end inside a token.
* `tokens`, `outside` — the tokens, and what stands outside them.
* `Spaced` — pieces whose code has no quotes, with code after every quoted piece.
* `Follows` — spaced pieces that may follow a quoted one.
* `scan?_text` — **the text of spaced pieces scans to the pieces themselves.**
-/

namespace SoupQuery.Sql

open SoupQuery.Text

/-- A quoted token: the mark around it, and the text that it stands for. -/
structure Token where
  mark : Char
  text : String
  deriving DecidableEq, Repr, Inhabited

/-- A character outside tokens, or a token. -/
inductive Lexeme where
  | plain (c : Char)
  | quoted (token : Token)
  deriving DecidableEq, Repr, Inhabited

/-- The two characters that open a token. -/
def IsQuote (c : Char) : Prop := c = '\'' ∨ c = '"'

instance (c : Char) : Decidable (IsQuote c) := inferInstanceAs (Decidable (_ ∨ _))

theorem undouble?_length {mark : Char} {cs text rest : List Char}
    (h : undouble? mark cs = some (text, rest)) : rest.length < cs.length := by
  fun_induction undouble? mark cs generalizing text with
  | case1 => cases h
  | case2 => cases h; simp
  | case3 => cases h
  | case4 cs ih =>
    obtain ⟨⟨_, _⟩, hread, heq⟩ := Option.map_eq_some_iff.1 h
    cases heq
    have := ih hread
    simp only [List.length_cons] at this ⊢
    omega
  | case5 d cs =>
    cases h
    simp
  | case6 c d cs _ ih =>
    obtain ⟨⟨_, _⟩, hread, heq⟩ := Option.map_eq_some_iff.1 h
    cases heq
    have := ih hread
    simp only [List.length_cons] at this ⊢
    omega

/-- The lexemes of a text; there are none if it ends inside a token. -/
def scan? : List Char → Option (List Lexeme)
  | [] => some []
  | c :: cs =>
    if IsQuote c then
      match _ : undouble? c cs with
      | none => none
      | some (text, rest) => (scan? rest).map (.quoted ⟨c, String.ofList text⟩ :: ·)
    else (scan? cs).map (.plain c :: ·)
termination_by cs => cs.length
decreasing_by
  · exact Nat.lt_succ_of_lt (undouble?_length ‹_›)
  · exact Nat.lt_succ_self _

/-- The token that a lexeme is. -/
def Lexeme.token? : Lexeme → Option Token
  | .plain _ => none
  | .quoted token => some token

/-- The tokens among the lexemes. -/
def tokens (lexemes : List Lexeme) : List Token := lexemes.filterMap Lexeme.token?

/-- The lexeme without the text of its token. -/
def Lexeme.emptied : Lexeme → Lexeme
  | .plain c => .plain c
  | .quoted token => .quoted ⟨token.mark, ""⟩

/-- What stands outside the tokens, and where the tokens stand. -/
def outside (lexemes : List Lexeme) : List Lexeme := lexemes.map Lexeme.emptied

theorem scan?_plain {c : Char} (h : ¬ IsQuote c) (cs : List Char) :
    scan? (c :: cs) = (scan? cs).map (.plain c :: ·) := by
  rw [scan?, if_neg h]

theorem scan?_quote {mark : Char} (hmark : IsQuote mark) (text : String) {rest : List Char}
    (hrest : rest.head? ≠ some mark) :
    scan? (quote mark text.toList ++ rest) = (scan? rest).map (.quoted ⟨mark, text⟩ :: ·) := by
  have hread : undouble? mark (double mark text.toList ++ [mark] ++ rest) =
      some (text.toList, rest) := by
    rw [List.append_assoc]
    exact undouble?_double mark text.toList rest hrest
  rw [quote, List.cons_append, scan?, if_pos hmark]
  split
  · rename_i hnone
    rw [hread] at hnone
    cases hnone
  · rename_i text' rest' hsome
    rw [hread] at hsome
    cases hsome
    rw [String.ofList_toList]

example : scan? "a'b''c'".toList = some [.plain 'a', .quoted ⟨'\'', "b'c"⟩] := by cbv

example : scan? "a'b''".toList = none := by cbv

/-! ## Pieces -/

/-- Characters without quotes. -/
def Plain (cs : List Char) : Prop := ∀ c ∈ cs, ¬ IsQuote c

/-- A text without quotes. -/
def QuoteFree (text : String) : Prop := Plain text.toList

instance (text : String) : Decidable (QuoteFree text) :=
  List.decidableBAll (fun c => ¬ IsQuote c) text.toList

theorem plain_nil : Plain [] := by
  intro c hc
  cases hc

theorem Plain.append {cs ds : List Char} (hc : Plain cs) (hd : Plain ds) : Plain (cs ++ ds) := by
  intro c h
  rcases List.mem_append.1 h with h | h
  · exact hc c h
  · exact hd c h

theorem Plain.cons {c : Char} {cs : List Char} (hc : ¬ IsQuote c) (hcs : Plain cs) :
    Plain (c :: cs) := by
  intro d h
  rcases List.mem_cons.1 h with rfl | h
  · exact hc
  · exact hcs d h

theorem QuoteFree.append {s t : String} (hs : QuoteFree s) (ht : QuoteFree t) :
    QuoteFree (s ++ t) := by
  unfold QuoteFree
  rw [String.toList_append]
  exact Plain.append hs ht

/-- The lexemes of a piece. -/
def Piece.lexemes : Piece → List Lexeme
  | .code text => text.toList.map .plain
  | .identifier text => [.quoted ⟨'"', text⟩]
  | .string text => [.quoted ⟨'\'', text⟩]

/-- Nothing, or code that is not empty. -/
def StartsWithCode : Sql → Prop
  | [] => True
  | .code text :: _ => text ≠ ""
  | _ => False

/-- Code has no quotes, and what follows a quoted piece starts with code. -/
def Spaced : Sql → Prop
  | [] => True
  | .code text :: rest => QuoteFree text ∧ Spaced rest
  | .identifier _ :: rest => StartsWithCode rest ∧ Spaced rest
  | .string _ :: rest => StartsWithCode rest ∧ Spaced rest

/-- Spaced pieces that may follow a quoted one. -/
structure Follows (sql : Sql) : Prop where
  spaced : Spaced sql
  code : StartsWithCode sql

section Spaced

variable {a b : Sql} {t : String}

theorem follows_nil : Follows [] := ⟨trivial, trivial⟩

/-- Code that is known as it stands is checked by evaluation. -/
theorem follows_code (hb : Spaced b) (hfree : QuoteFree t := by decide)
    (hne : t ≠ "" := by decide) : Follows (.code t :: b) := ⟨⟨hfree, hb⟩, hne⟩

theorem spaced_code (hb : Spaced b) (hfree : QuoteFree t := by decide) :
    Spaced (.code t :: b) := ⟨hfree, hb⟩

theorem spaced_identifier (hb : Follows b) : Spaced (.identifier t :: b) :=
  ⟨hb.code, hb.spaced⟩

theorem spaced_string (hb : Follows b) : Spaced (.string t :: b) := ⟨hb.code, hb.spaced⟩

/-- **Spaced pieces stay spaced before pieces that may follow a quoted one.** -/
theorem Spaced.append (ha : Spaced a) (hb : Follows b) : Spaced (a ++ b) := by
  have hstart : ∀ rest : Sql, StartsWithCode rest → StartsWithCode (rest ++ b) := by
    intro rest hrest
    cases rest with
    | nil => exact hb.code
    | cons piece rest => cases piece <;> exact hrest
  induction a with
  | nil => exact hb.spaced
  | cons piece rest ih =>
    cases piece with
    | code text => exact ⟨ha.1, ih ha.2⟩
    | identifier text => exact ⟨hstart rest ha.1, ih ha.2⟩
    | string text => exact ⟨hstart rest ha.1, ih ha.2⟩

theorem Follows.append (ha : Follows a) (hb : Follows b) : Follows (a ++ b) := by
  refine ⟨ha.spaced.append hb, ?_⟩
  cases a with
  | nil => exact hb.code
  | cons piece rest => cases piece <;> exact ha.code

end Spaced

/-! ## Text -/

theorem text_cons (piece : Piece) (rest : Sql) :
    (text (piece :: rest)).toList = piece.text.toList ++ (text rest).toList := by
  simp [text]

/-- The text after a quoted piece does not start with a quote. -/
theorem head?_text {sql : Sql} (h : Follows sql) {mark : Char} (hmark : IsQuote mark) :
    (text sql).toList.head? ≠ some mark := by
  cases sql with
  | nil => simp [text]
  | cons piece rest =>
    cases piece with
    | code code =>
      rw [text_cons, Piece.text]
      cases hlist : code.toList with
      | nil => exact absurd (String.toList_eq_nil_iff.1 hlist) h.code
      | cons c cs =>
        have hc : ¬ IsQuote c := h.spaced.1 c (hlist ▸ List.mem_cons_self ..)
        rintro heq
        cases heq
        exact hc hmark
    | identifier text => exact h.code.elim
    | string text => exact h.code.elim

theorem scan?_code {code : List Char} (h : Plain code) (rest : List Char) :
    scan? (code ++ rest) = (scan? rest).map (code.map .plain ++ ·) := by
  induction code with
  | nil => simp
  | cons c cs ih =>
    have hcs : Plain cs := fun d hd => h d (List.mem_cons_of_mem _ hd)
    rw [List.cons_append, scan?_plain (h c (List.mem_cons_self ..)), ih hcs, Option.map_map]
    rfl

/-- **The text of spaced pieces scans to the pieces themselves.** -/
theorem scan?_text {sql : Sql} (h : Spaced sql) :
    scan? (text sql).toList = some (sql.flatMap Piece.lexemes) := by
  induction sql with
  | nil => simp [text, scan?]
  | cons piece rest ih =>
    rw [text_cons, List.flatMap_cons]
    cases piece with
    | code code =>
      rw [Piece.text, scan?_code h.1, ih h.2]
      rfl
    | identifier name =>
      rw [Piece.text, String.toList_ofList,
        scan?_quote (.inr rfl) name (head?_text ⟨h.2, h.1⟩ (.inr rfl)), ih h.2]
      rfl
    | string literal =>
      rw [Piece.text, String.toList_ofList,
        scan?_quote (.inl rfl) literal (head?_text ⟨h.2, h.1⟩ (.inl rfl)), ih h.2]
      rfl

end SoupQuery.Sql
