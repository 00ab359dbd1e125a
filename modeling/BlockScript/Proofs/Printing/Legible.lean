import BlockScript.Proofs.Lexical.Inscription
import BlockScript.Proofs.Printing.Pieces

/-!
# Printed pieces are found again

Pieces are spaced if no two lexemes that could cling to each other stand side by side
(`Piece.Spaced`). A lexeme that is not sticky clings to nothing, and wherever two spaced lists meet
in a printed tree, a piece that is not sticky stands between them. Spaced pieces are legible if each
of their lexemes is spelled by what is written for it (`Piece.Legible`).

The text of legible pieces is a gap with inscriptions behind it, and so the lexer finds the
lexemes of the pieces in it, whichever form the text is printed in (`tokenize_of_legible`).
-/

namespace BlockScript

/-- Whether the lexeme can cling to another one, or another one to it. -/
def Lexeme.isSticky (lexeme : Lexeme) : Bool :=
  lexeme.isWord || lexeme.kind == .number || lexeme.takesEquals || lexeme.givesEquals

theorem Lexeme.isSticky_of_clings {left right : Lexeme} (clings : left.clings right) :
    left.isSticky ∧ right.isSticky := by
  simp only [Lexeme.clings, Bool.or_eq_true, Bool.and_eq_true] at clings
  simp only [Lexeme.isSticky, Bool.or_eq_true]
  rcases clings with (words | numbers) | symbols
  · exact ⟨.inl (.inl (.inl words.1)), .inl (.inl (.inl words.2))⟩
  · exact ⟨.inl (.inl (.inr numbers.1)), .inl (.inl (.inr numbers.2))⟩
  · exact ⟨.inl (.inr symbols.1), .inr symbols.2⟩

namespace Piece

/-- Whether the piece is a lexeme that can cling to another one. -/
def isSticky : Piece → Bool
  | .lexeme item => item.isSticky
  | .blank | .newline _ => false

/-- What is written for the piece spells it. -/
def IsSpelled : Piece → Prop
  | .lexeme item => item.SpelledBy item.written
  | .blank | .newline _ => True

/-- All pieces are as asked, and no two of them that could cling to each other stand side by
side. -/
structure Spaced (holds : Piece → Prop) (pieces : List Piece) : Prop where
  each : ∀ piece ∈ pieces, holds piece
  apart : pieces.IsChain fun left right => left.isSticky → right.isSticky = false

/-- The pieces can be told apart when they are written one behind the other. -/
abbrev Legible : List Piece → Prop := Spaced IsSpelled

namespace Spaced

variable {holds : Piece → Prop}

theorem nil : Spaced holds [] := ⟨fun _ mem => by contradiction, .nil⟩

theorem single {piece : Piece} (valid : holds piece) : Spaced holds [piece] :=
  ⟨by simpa using valid, .singleton piece⟩

/-- A piece that is not sticky can stand between any others. -/
theorem between {first second : List Piece} {piece : Piece} (valid : holds piece)
    (quiet : piece.isSticky = false) (before : Spaced holds first) (behind : Spaced holds second) :
    Spaced holds (first ++ piece :: second) where
  each := by
    intro other mem
    rw [List.mem_append, List.mem_cons] at mem
    obtain mem | rfl | mem := mem
    · exact before.each other mem
    · exact valid
    · exact behind.each other mem
  apart := by
    rw [List.isChain_split]
    constructor
    · refine List.isChain_append.mpr ⟨before.apart, .singleton piece, ?_⟩
      intro left _ right mem _
      cases mem
      exact quiet
    · refine List.isChain_cons.mpr ⟨fun right _ sticky => ?_, behind.apart⟩
      rw [quiet] at sticky
      contradiction

theorem cons {pieces : List Piece} {piece : Piece} (valid : holds piece)
    (quiet : piece.isSticky = false) (behind : Spaced holds pieces) :
    Spaced holds (piece :: pieces) :=
  between valid quiet nil behind

theorem cons_between {pieces : List Piece} {piece separator : Piece} (valid : holds piece)
    (separates : holds separator) (quiet : separator.isSticky = false)
    (behind : Spaced holds pieces) : Spaced holds (piece :: separator :: pieces) :=
  between separates quiet (single valid) behind

theorem concat {pieces : List Piece} {piece : Piece} (valid : holds piece)
    (quiet : piece.isSticky = false) (before : Spaced holds pieces) :
    Spaced holds (pieces ++ [piece]) :=
  between valid quiet before nil

end Spaced

/-! ## The text of pieces -/

theorem gap_replicate_append {rest : List Char} (behind : Gap rest) :
    ∀ count : Nat, Gap (List.replicate count ' ' ++ rest)
  | 0 => behind
  | count + 1 => .blank rfl (gap_replicate_append behind count)

/-- A piece that is no lexeme makes a gap longer. -/
theorem gap_write_append (form : PrintForm) {piece : Piece} (between : piece.lexeme? = none)
    {rest : List Char} (behind : Gap rest) :
    Gap (piece.write form ++ rest) ∧ piece.write form ++ rest ≠ [] := by
  cases piece with
  | lexeme item => contradiction
  | blank => exact ⟨.blank rfl behind, List.cons_ne_nil _ _⟩
  | newline depth =>
    cases form with
    | pretty => exact ⟨.blank rfl (gap_replicate_append behind _), List.cons_ne_nil _ _⟩
    | compact => exact ⟨.blank rfl behind, List.cons_ne_nil _ _⟩

/-- What the text of pieces consists of. -/
structure Inscribed (form : PrintForm) (pieces : List Piece) (gap : List Char)
    (items : List Inscription) : Prop where
  separates : Gap gap
  apart : Inscription.Apart items
  text : writeAll form pieces = gap ++ Inscription.source items
  lexemes : items.map Inscription.lexeme = words pieces
  /-- Without a gap, the text starts with a lexeme. -/
  front : gap = [] → ∀ item ∈ items.head?, pieces.head? = some (.lexeme item.lexeme)

theorem Inscribed.between {form : PrintForm} {piece : Piece} {pieces : List Piece}
    {gap : List Char} {items : List Inscription} (inscribed : Inscribed form pieces gap items)
    (between : piece.lexeme? = none) :
    Inscribed form (piece :: pieces) (piece.write form ++ gap) items where
  separates := (gap_write_append form between inscribed.separates).1
  apart := inscribed.apart
  text := by
    rw [List.append_assoc, ← inscribed.text]
    rfl
  lexemes := by rw [inscribed.lexemes, words, words, List.filterMap_cons_none between]
  front empty := absurd empty (gap_write_append form between inscribed.separates).2

theorem Inscribed.lexeme {form : PrintForm} {item : Lexeme} {pieces : List Piece}
    {gap : List Char} {items : List Inscription} (inscribed : Inscribed form pieces gap items)
    (spelled : item.SpelledBy item.written)
    (apart : ∀ next ∈ pieces.head?, item.isSticky → next.isSticky = false) :
    Inscribed form (.lexeme item :: pieces) []
      (⟨item, item.written, spelled, gap, inscribed.separates⟩ :: items) where
  separates := .nil
  apart := by
    refine List.isChain_cons.mpr ⟨fun next mem empty clings => ?_, inscribed.apart⟩
    obtain ⟨left, right⟩ := Lexeme.isSticky_of_clings clings
    have quiet := apart _ (inscribed.front empty next mem) left
    rw [isSticky, right] at quiet
    contradiction
  text := by
    have split : writeAll form (.lexeme item :: pieces) = item.written ++ writeAll form pieces := rfl
    rw [split, inscribed.text]
    exact (List.append_assoc _ _ _).symm
  lexemes := congrArg (item :: ·) inscribed.lexemes
  front := by
    rintro - _ ⟨⟩
    rfl

/-- The text of legible pieces is a gap and then inscriptions of their lexemes. -/
theorem exists_inscribed (form : PrintForm) {pieces : List Piece} (legible : Legible pieces) :
    ∃ gap items, Inscribed form pieces gap items := by
  induction pieces with
  | nil => exact ⟨[], [], .nil, .nil, rfl, rfl, fun _ _ mem => by contradiction⟩
  | cons piece pieces ih =>
    obtain ⟨spelled, others⟩ := List.forall_mem_cons.mp legible.each
    obtain ⟨apart, chain⟩ := List.isChain_cons.mp legible.apart
    obtain ⟨gap, items, inscribed⟩ := ih ⟨others, chain⟩
    cases piece with
    | lexeme item => exact ⟨_, _, inscribed.lexeme spelled apart⟩
    | blank | newline => exact ⟨_, _, inscribed.between rfl⟩

end Piece

theorem Inscription.exists_of_tokens (offset : Nat) (items : List Inscription) :
    ∃ body finish, tokens offset items = body ++ [finish] ∧ finish.kind = .finish ∧
      (∀ token ∈ body, token.kind ≠ .finish) ∧
      body.map Token.toLexeme = items.map Inscription.lexeme := by
  induction items generalizing offset with
  | nil => exact ⟨[], .finish offset, rfl, rfl, fun _ mem => by contradiction, rfl⟩
  | cons item items ih =>
    obtain ⟨body, finish, split, last, inner, lexemes⟩ :=
      ih (offset + utf8Size item.text + utf8Size item.gap)
    refine ⟨⟨item.lexeme, item.span offset⟩ :: body, finish, ?_, last, ?_, ?_⟩
    · rw [tokens, split, List.cons_append]
    · exact List.forall_mem_cons.mpr ⟨Lexeme.kind_ne_finish_of_spelledBy item.spelled, inner⟩
    · rw [List.map_cons, List.map_cons, lexemes]

/-- In the text of legible pieces, the lexer finds their lexemes. -/
theorem tokenize_of_legible (form : PrintForm) {pieces : List Piece}
    (legible : Piece.Legible pieces) :
    ∃ body finish, tokenize (String.ofList (Piece.writeAll form pieces)) = .ok (body ++ [finish]) ∧
      finish.kind = .finish ∧ (∀ token ∈ body, token.kind ≠ .finish) ∧
      body.map Token.toLexeme = Piece.words pieces := by
  obtain ⟨gap, items, inscribed⟩ := Piece.exists_inscribed form legible
  have found := Inscription.tokens_of_apart inscribed.apart inscribed.separates 0
  obtain ⟨body, finish, split, last, inner, lexemes⟩ :=
    Inscription.exists_of_tokens (0 + utf8Size gap) items
  refine ⟨body, finish, ?_, last, inner, lexemes.trans inscribed.lexemes⟩
  rw [tokenize, Cursor.ofSource, String.toList_ofList, inscribed.text, found, split]

end BlockScript
