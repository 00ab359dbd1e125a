import BlockScript.Proofs.Lexical.Layout
import BlockScript.Proofs.Printing.RoundTrip

/-!
# Both forms are the same lexemes

The two forms of a printed program differ in their line breaks only, and a line break is a gap in
either form. So the lexer finds the same lexemes in both, whatever tree is printed, as long as the
texts of its leaves can be lexed at all (`tokenize_printProgram`). The tree need not be one that the
parser could make.

Such a tree may hold leaves that are not read as the lexemes that they are printed for: a negative
number is read as a minus and a number, and a name may be a reserved word or be printed for a value
that is no number. What a lexeme is read as is said by `Lexeme.ReadsAs`. With its lexemes replaced by
those that they are read as, a spaced list of pieces is legible and has the same text
(`Piece.exists_legible`).
-/

namespace BlockScript

/-! ## What a lexeme is read as -/

/-- Lexemes with texts that can be lexed, though perhaps not as the lexemes that they are. -/
inductive Lexeme.IsLexable : Lexeme → Prop
  | keyword (word : Keyword) : IsLexable (.keyword word)
  | symbol (mark : Symbol) : IsLexable (.symbol mark)
  /-- Any number, also a negative one, an infinity, or a value that is no number. -/
  | number (x : Binary64) : IsLexable (.ofNumber x)
  /-- A word, also a reserved one. -/
  | word {name : String} (present : name.toList ≠ []) (letter : ∀ c ∈ name.toList, isWordChar c) :
      IsLexable (.identifier name)
  | text {content : String} (quotable : IsQuotable content.toList) : IsLexable (.text content)
  | selector {target : String} (valid : IsTarget target.toList) : IsLexable (.selector target)

namespace Lexeme

/-- What is written for `item` is written for `words` as well, and is read as them. -/
structure ReadsAs (item : Lexeme) (words : List Lexeme) : Prop where
  spelled : ∀ word ∈ words, word.IsWritten
  written : words.flatMap Lexeme.written = item.written
  apart : words.IsChain fun left right => left.isSticky → right.isSticky = false
  present : words ≠ []
  /-- What clings to nothing is not read as something that does. -/
  quiet : item.isSticky = false → ∀ word ∈ words, word.isSticky = false

theorem ReadsAs.single {item word : Lexeme} (spelled : word.IsWritten)
    (written : word.written = item.written) (quiet : item.isSticky = false → word.isSticky = false) :
    item.ReadsAs [word] where
  spelled := by simpa using spelled
  written := by simpa using written
  apart := .singleton word
  present := List.cons_ne_nil _ _
  quiet := by simpa using quiet

theorem isWritten_ofWord {word : List Char} (present : word ≠ [])
    (letter : ∀ c ∈ word, isWordChar c) :
    (ofWord word).IsWritten ∧ (ofWord word).written = word := by
  unfold ofWord
  cases known : Keyword.ofLetters? word with
  | some reserved =>
    refine ⟨spelledBy_keyword reserved, ?_⟩
    rw [← Keyword.letters_of_ofLetters? known]
    exact String.toList_ofList
  | none =>
    have named : IsName (String.ofList word).toList := by
      rw [String.toList_ofList]
      exact ⟨present, letter, known⟩
    exact ⟨spelledBy_identifier named, String.toList_ofList⟩

/-- A number without its sign is read as one lexeme: a numeral, or a name for what has none. -/
theorem exists_unsigned {x : Binary64} (positive : x.negative = false) :
    ∃ word : Lexeme, word.IsWritten ∧ word.written = Layout.program.write x := by
  by_cases finite : x.isFinite
  · exact ⟨.ofNumber x, spelledBy_number ⟨finite, positive⟩, String.toList_ofList⟩
  · have letters : Layout.program.write x = ['N', 'a', 'N'] ∨
        Layout.program.write x = ['i', 'n', 'f'] := by
      by_cases number : x.isNaN
      · exact .inl (by rw [Layout.write, if_pos number])
      · right
        simp only [Layout.write, number, finite, positive, Bool.false_eq_true, if_false]
    obtain same | same := letters <;> rw [same] <;>
      exact ⟨_, isWritten_ofWord (by decide) (List.all_eq_true.mp rfl)⟩

/-- A negative number is read as a minus and what its magnitude is read as. -/
theorem exists_readsAs_ofNumber (x : Binary64) : ∃ words, (ofNumber x).ReadsAs words := by
  have sticky : (ofNumber x).isSticky = true := rfl
  have whole : (ofNumber x).written = Layout.program.write x := String.toList_ofList
  have none : (ofNumber x).isSticky = false → ∀ word ∈ [ofNumber x], word.isSticky = false := by
    intro quiet
    rw [sticky] at quiet
    contradiction
  have signless (magnitude : Binary64) (positive : magnitude.negative = false)
      (same : Layout.program.write magnitude = Layout.program.write x) :
      ∃ words, (ofNumber x).ReadsAs words := by
    obtain ⟨word, spelled, written⟩ := exists_unsigned positive
    exact ⟨[word], .single spelled (by rw [written, same, whole]) (by simp [sticky])⟩
  by_cases number : x.isNaN
  · refine signless .notANumber rfl ?_
    rw [Layout.write, Layout.write, if_pos number]
    rfl
  cases sign : x.negative with
  | false => exact signless x sign rfl
  | true =>
    obtain ⟨word, spelled, written⟩ := exists_unsigned (x := { x with negative := false }) rfl
    have split : Layout.program.write x = '-' :: word.written := by
      have notNaN : x.isNaN = false := by simpa using number
      have same : Binary64.isNaN { x with negative := false } = false := notNaN
      have fin : Binary64.isFinite { x with negative := false } = x.isFinite := rfl
      rw [written, Layout.write, Layout.write]
      simp only [notNaN, same, fin, sign, if_true, Bool.false_eq_true, if_false]
    refine ⟨[.symbol .minus, word], ?_⟩
    exact {
      spelled := by simpa using ⟨spelledBy_symbol .minus, spelled⟩
      written := by
        rw [whole, split, List.flatMap_cons, List.flatMap_singleton]
        rfl
      apart := by
        rw [List.isChain_pair]
        intro left
        contradiction
      present := List.cons_ne_nil _ _
      quiet := by simp [sticky] }

/-- A lexeme with a text that can be lexed is read as something. -/
theorem IsLexable.exists_readsAs {item : Lexeme} (lexable : item.IsLexable) :
    ∃ words, item.ReadsAs words := by
  cases lexable with
  | keyword word => exact ⟨_, .single (spelledBy_keyword word) rfl id⟩
  | symbol mark => exact ⟨_, .single (spelledBy_symbol mark) rfl id⟩
  | number x => exact exists_readsAs_ofNumber x
  | @word name present letter =>
    obtain ⟨spelled, written⟩ := isWritten_ofWord present letter
    exact ⟨_, .single spelled written nofun⟩
  | text quotable => exact ⟨_, .single (spelledBy_text quotable) rfl id⟩
  | selector valid => exact ⟨_, .single (spelledBy_selector valid) rfl id⟩

end Lexeme

/-! ## Pieces -/

namespace Piece

/-- The piece is a gap, or has a text that can be lexed. -/
def IsLexable : Piece → Prop
  | .lexeme item => item.IsLexable
  | .blank | .newline _ => True

theorem admits_isLexable : Admits IsLexable where
  blank := trivial
  newline _ := trivial
  mark := .symbol
  word := .keyword

/-- What the pieces are written as is also written for pieces that are legible. -/
structure Rewritten (pieces others : List Piece) : Prop where
  legible : Legible others
  text : ∀ form, writeAll form others = writeAll form pieces
  /-- The first piece is sticky only if it was before. -/
  front : (∀ piece ∈ pieces.head?, piece.isSticky = false) →
    ∀ piece ∈ others.head?, piece.isSticky = false

theorem writeAll_append (form : PrintForm) (first second : List Piece) :
    writeAll form (first ++ second) = writeAll form first ++ writeAll form second :=
  List.flatMap_append

theorem writeAll_map_lexeme (form : PrintForm) (words : List Lexeme) :
    writeAll form (words.map .lexeme) = words.flatMap Lexeme.written := by
  rw [writeAll, List.flatMap_map]
  rfl

theorem Rewritten.between {piece : Piece} {pieces others : List Piece}
    (rewritten : Rewritten pieces others) (between : piece.lexeme? = none) :
    Rewritten (piece :: pieces) (piece :: others) where
  legible := by
    cases piece with
    | lexeme item => contradiction
    | blank | newline => exact .cons trivial rfl rewritten.legible
  text form := by
    have same := rewritten.text form
    simp only [writeAll, List.flatMap_cons] at same ⊢
    rw [same]
  front quiet := quiet

/-- In place of a lexeme stand those that it is read as. -/
theorem Rewritten.lexeme {item : Lexeme} {words : List Lexeme} {pieces others : List Piece}
    (rewritten : Rewritten pieces others) (reads : item.ReadsAs words)
    (apart : item.isSticky → ∀ next ∈ pieces.head?, next.isSticky = false) :
    Rewritten (.lexeme item :: pieces) (words.map .lexeme ++ others) where
  legible := by
    constructor
    · intro piece mem
      rw [List.mem_append, List.mem_map] at mem
      obtain ⟨word, mem, rfl⟩ | mem := mem
      · exact reads.spelled word mem
      · exact rewritten.legible.each piece mem
    · refine List.isChain_append.mpr ⟨?_, rewritten.legible.apart, ?_⟩
      · rw [List.isChain_map]
        exact reads.apart
      · -- The last word is sticky only if the lexeme was, and then the next piece is not.
        intro last ends next starts sticky
        obtain ⟨word, mem, rfl⟩ := List.mem_map.mp (List.mem_of_mem_getLast? ends)
        have clings : item.isSticky := by
          by_contra quiet
          have still := reads.quiet (by simpa using quiet) word mem
          rw [isSticky, still] at sticky
          contradiction
        exact rewritten.front (apart clings) next starts
  text form := by
    have same := rewritten.text form
    rw [writeAll_append, writeAll_map_lexeme, reads.written, same, writeAll, writeAll,
      List.flatMap_cons]
    rfl
  front quiet := by
    obtain ⟨first, others, rfl⟩ := List.exists_cons_of_ne_nil reads.present
    rintro _ ⟨⟩
    exact reads.quiet (quiet (.lexeme item) rfl) first List.mem_cons_self

/-- Spaced pieces that can be lexed have the text of pieces that are legible. -/
theorem exists_legible {pieces : List Piece} (spaced : Spaced IsLexable pieces) :
    ∃ others, Rewritten pieces others := by
  induction pieces with
  | nil => exact ⟨[], .nil, fun _ => rfl, fun quiet => quiet⟩
  | cons piece pieces ih =>
    obtain ⟨lexable, others⟩ := List.forall_mem_cons.mp spaced.each
    obtain ⟨apart, chain⟩ := List.isChain_cons.mp spaced.apart
    obtain ⟨rewritten, whole⟩ := ih ⟨others, chain⟩
    cases piece with
    | lexeme item =>
      obtain ⟨words, reads⟩ := Lexeme.IsLexable.exists_readsAs lexable
      exact ⟨_, whole.lexeme reads fun sticky next mem => apart next mem sticky⟩
    | blank | newline => exact ⟨_, whole.between rfl⟩

/-- The text of spaced pieces that can be lexed is split into the same lexemes in either form. -/
theorem tokenize_of_spaced {pieces : List Piece} (spaced : Spaced IsLexable pieces) :
    ∃ lexemes, ∀ form, ∃ tokens,
      tokenize (String.ofList (writeAll form pieces)) = .ok tokens ∧
        tokens.map Token.toLexeme = lexemes ++ [(Token.finish 0).toLexeme] := by
  obtain ⟨others, rewritten⟩ := exists_legible spaced
  refine ⟨words others, fun form => ?_⟩
  obtain ⟨gap, items, inscribed⟩ := exists_inscribed form rewritten.legible
  have found := Inscription.tokens_of_apart inscribed.apart inscribed.separates 0
  rw [← inscribed.text, rewritten.text] at found
  refine ⟨_, ?_, Inscription.map_toLexeme_tokens (0 + utf8Size gap) items |>.trans ?_⟩
  · rw [tokenize, Cursor.ofSource, String.toList_ofList, found]
  · rw [inscribed.lexemes]

end Piece

/-! ## Programs -/

/-- If the texts of its leaves can be lexed, both forms of a printed program are split into the same
lexemes. -/
theorem tokenize_printProgram {program : Program}
    (lexable : Statement.AllLeavesOfAll Lexeme.IsLexable program) :
    ∃ pretty compact, tokenize (printProgram .pretty program) = .ok pretty ∧
      tokenize (printProgram .compact program) = .ok compact ∧
      pretty.map Token.toLexeme = compact.map Token.toLexeme := by
  have spaced := Statement.spaced_all Piece.admits_isLexable program 0 lexable
  obtain ⟨lexemes, found⟩ := Piece.tokenize_of_spaced spaced
  obtain ⟨pretty, prettyFound, prettySame⟩ := found .pretty
  obtain ⟨compact, compactFound, compactSame⟩ := found .compact
  exact ⟨pretty, compact, prettyFound, compactFound, prettySame.trans compactSame.symm⟩

/-- `function if(x) { -0.5[<@s>] = '\n"' * (NaN + x); };`, which is no program: a reserved word stands
for a name, and a number for an access. -/
def unparsable : Program :=
  [.function "if" ["x"]
    [.assignment ⟨.member (.number (.ofCode true 0x3FE0000000000000)) (.selector "@s"), .assign,
      .binary .multiply (.text "\n\"") (.binary .add (.number .notANumber) (.name "x"))⟩]]

theorem tokenize_unparsable :
    Statement.AllLeavesOfAll Lexeme.IsLexable unparsable ∧
      ∃ pretty compact, tokenize (printProgram .pretty unparsable) = .ok pretty ∧
        tokenize (printProgram .compact unparsable) = .ok compact ∧
        pretty.map Token.toLexeme = compact.map Token.toLexeme := by
  have word : ∀ name ∈ ["if", "x"], (Lexeme.identifier name).IsLexable := by
    simp only [List.forall_mem_cons]
    refine ⟨?_, ?_, List.forall_mem_nil _⟩ <;>
      exact .word (by decide) (List.all_eq_true.mp rfl)
  have lexable : Statement.AllLeavesOfAll Lexeme.IsLexable unparsable := by
    refine ⟨⟨word _ (by simp), ?_, ⟨⟨⟨.number _, .selector ⟨rfl, by decide⟩⟩, ?_⟩, trivial⟩⟩, trivial⟩
    · simpa using word "x" (by simp)
    · exact ⟨.text (.inr (by decide)), .number _, word _ (by simp)⟩
  exact ⟨lexable, tokenize_printProgram lexable⟩

end BlockScript
