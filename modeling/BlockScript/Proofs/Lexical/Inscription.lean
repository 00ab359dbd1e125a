import BlockScript.Proofs.Lexical.Spelling
import Mathlib.Data.List.Chain

/-!
# The lexer undoes inscription

An `Inscription` is a lexeme with one of its spellings and with the gap behind it. Inscriptions
that stand one behind the other make up a source, and each of them knows the span of its token.
`tokenize_inscriptions` says that the lexer finds exactly these tokens again, as long as no
lexeme clings to the next one.

The proof follows the cursor. A gap is passed over (`Cursor.pastGap_append`), a spelling is read
(`Cursor.scan_spelling`), and what remains are the inscriptions behind it.
-/

namespace BlockScript

/-! ## The first character of a spelling -/

/-- What the first character of a spelling tells about its lexeme. -/
structure Lexeme.StartsWith (lexeme : Lexeme) (c : Char) : Prop where
  word : isWordChar c → lexeme.isWord
  number : c.isDigit → lexeme.kind = .number
  equals : c = '=' → lexeme.givesEquals
  other : ¬ isBlank c ∧ c ≠ '#' ∧ c ≠ '@' ∧ c ≠ '.'

theorem Lexeme.startsWith_word {lexeme : Lexeme} (word : lexeme.isWord) {c : Char}
    (letter : isWordChar c) : lexeme.StartsWith c where
  word _ := word
  number digit := absurd digit (not_isDigit_of_isWordChar letter)
  equals same := absurd (same ▸ letter) (by decide)
  other := by
    refine ⟨?_, ?_, ?_, ?_⟩
    · simp only [isBlank, Bool.or_eq_true, beq_iff_eq]
      rintro (((rfl | rfl) | rfl) | rfl) <;> revert letter <;> decide
    all_goals
      rintro rfl
      revert letter
      decide

theorem Lexeme.startsWith_number {lexeme : Lexeme} (number : lexeme.kind = .number) {c : Char}
    (digit : c.isDigit) : lexeme.StartsWith c where
  word letter := absurd digit (not_isDigit_of_isWordChar letter)
  number _ := number
  equals same := absurd (same ▸ digit) (by decide)
  other := by
    refine ⟨?_, ?_, ?_, ?_⟩
    · simp only [isBlank, Bool.or_eq_true, beq_iff_eq]
      rintro (((rfl | rfl) | rfl) | rfl) <;> revert digit <;> decide
    all_goals
      rintro rfl
      revert digit
      decide

theorem Lexeme.startsWith_of_spelledBy {lexeme : Lexeme} {text : List Char}
    (spelled : lexeme.SpelledBy text) : ∃ c rest, text = c :: rest ∧ lexeme.StartsWith c := by
  cases spelled with
  | keyword word =>
    obtain ⟨c, rest, equal⟩ := List.exists_cons_of_ne_nil word.letters_ne_nil
    exact ⟨c, rest, equal,
      startsWith_word rfl (word.isWordChar_of_mem_letters c (by simp [equal]))⟩
  | symbol mark =>
    obtain ⟨c, rest, equal⟩ : ∃ c rest, mark.letters = c :: rest := by
      cases mark <;> exact ⟨_, _, rfl⟩
    obtain ⟨noLetter, noDigit, -, noBlank, noHash, noAt, noDot⟩ :=
      mark.letters_head c (by rw [equal]; rfl)
    refine ⟨c, rest, equal, ?_⟩
    exact {
      word := fun letter => absurd letter noLetter
      number := fun digit => absurd digit noDigit
      equals := by
        rintro rfl
        have front : mark.letters.head? = some '=' := congrArg List.head? equal
        clear equal
        revert front
        cases mark <;> decide
      other := ⟨noBlank, noHash, noAt, noDot⟩ }
  | number valid =>
    obtain ⟨c, rest, rfl, digit⟩ := valid.exists_digit
    exact ⟨c, rest, rfl, startsWith_number rfl digit⟩
  | identifier valid =>
    obtain ⟨c, rest, rfl⟩ := List.exists_cons_of_ne_nil valid.ne_nil
    exact ⟨c, rest, rfl, startsWith_word rfl (valid.letter c List.mem_cons_self)⟩
  | text valid =>
    rename_i quote content _
    refine ⟨quote, _, rfl, ?_⟩
    rcases valid with rfl | rfl <;>
      exact ⟨fun letter => absurd letter (by decide), fun digit => absurd digit (by decide),
        fun same => absurd same (by decide), by decide⟩
  | selector valid =>
    exact ⟨'<', _, rfl, fun letter => absurd letter (by decide),
      fun digit => absurd digit (by decide), fun same => absurd same (by decide), by decide⟩

/-! ## Where a lexeme ends -/

namespace Lexeme

theorem endsBefore_none (lexeme : Lexeme) : lexeme.endsBefore none := by
  intro c next
  contradiction

/-- Every lexeme ends before a gap. -/
theorem endsBefore_gap (lexeme : Lexeme) {gap : List Char} (separates : Gap gap)
    (present : gap ≠ []) (after : List Char) : lexeme.endsBefore (gap ++ after).head? := by
  have all : ∀ c, isBlank c ∨ c = '#' → lexeme.endsBefore (some c) := by
    rintro c separator _ ⟨⟩
    have cases : (((c = ' ' ∨ c = '\t') ∨ c = '\n') ∨ c = '\r') ∨ c = '#' := by
      simpa only [isBlank, Bool.or_eq_true, beq_iff_eq] using separator
    rcases cases with (((rfl | rfl) | rfl) | rfl) | rfl <;>
      exact ⟨fun _ => by decide, fun _ => by decide, fun _ => by decide, fun _ => by decide⟩
  cases separates with
  | nil => contradiction
  | blank separator => exact all _ (.inl separator)
  | comment => exact all '#' (.inr rfl)

/-- A lexeme that does not cling to the next one ends before it. -/
theorem endsBefore_spelling {left right : Lexeme} {text : List Char}
    (spelled : right.SpelledBy text) (apart : ¬ left.clings right) (after : List Char) :
    left.endsBefore (text ++ after).head? := by
  obtain ⟨c, rest, rfl, starts⟩ := startsWith_of_spelledBy spelled
  obtain ⟨-, -, noAt, noDot⟩ := starts.other
  rintro _ ⟨⟩
  simp only [clings, Bool.or_eq_true, Bool.and_eq_true, beq_iff_eq, not_or, not_and] at apart
  obtain ⟨⟨words, numbers⟩, symbols⟩ := apart
  refine ⟨?_, ?_, ?_, fun _ => noAt⟩
  · intro word letter
    exact words word (starts.word letter)
  · intro number
    exact ⟨fun digit => numbers number (starts.number digit), noDot⟩
  · intro takes equals
    exact symbols takes (starts.equals equals)

/-- All spellings of a lexeme are equally wide. -/
theorem utf8Size_of_spelledBy {lexeme : Lexeme} {text : List Char}
    (spelled : lexeme.SpelledBy text) : utf8Size text = lexeme.width := by
  cases spelled with
  | keyword word =>
    simp [width, written, content, Lexeme.keyword, Kind.spelling?, Kind.letters?]
  | symbol mark =>
    simp [width, written, content, Lexeme.symbol, Kind.spelling?, Kind.letters?]
  | number valid => simp [width, written, content, Lexeme.number]
  | identifier valid => simp [width, written, content, Lexeme.identifier]
  | text valid =>
    rename_i quote content _
    have one : ∀ c, IsQuote c → c.utf8Size = 1 := by
      rintro c (rfl | rfl) <;> decide
    have chosen : IsQuote (quoteFor content) := by
      unfold quoteFor
      split
      · exact .inr rfl
      · exact .inl rfl
    simp [width, written, Lexeme.content, Lexeme.text, one _ valid, one _ chosen]
  | selector valid => simp [width, written, content, Lexeme.selector]

theorem kind_ne_finish_of_spelledBy {lexeme : Lexeme} {text : List Char}
    (spelled : lexeme.SpelledBy text) : lexeme.kind ≠ .finish := by
  cases spelled <;> exact Kind.noConfusion

end Lexeme

/-! ## The cursor -/

namespace Cursor

theorem pastGap_comment (start : Nat) {body : List Char} (closed : '#' ∉ body)
    (rest : List Char) (offset : Nat) :
    pastGap (some start) (body ++ '#' :: rest) offset =
      pastGap none rest (offset + utf8Size (body ++ ['#'])) := by
  induction body generalizing offset with
  | nil => rfl
  | cons c body ih =>
    rw [List.mem_cons, not_or] at closed
    rw [List.cons_append, pastGap, if_neg (Ne.symm closed.1), ih closed.2, List.cons_append,
      utf8Size_cons, Nat.add_assoc]

/-- A gap is passed over as a whole. -/
theorem pastGap_append {gap : List Char} (separates : Gap gap) (rest : List Char) (offset : Nat) :
    pastGap none (gap ++ rest) offset = pastGap none rest (offset + utf8Size gap) := by
  induction separates generalizing offset with
  | nil => rfl
  | blank separates others ih =>
    rw [List.cons_append, pastGap]
    simp only [separates, if_true]
    rw [ih, utf8Size_cons, Nat.add_assoc]
  | @comment body others closed _ ih =>
    have opens : pastGap none ('#' :: body ++ '#' :: others ++ rest) offset =
        pastGap (some offset) (body ++ '#' :: (others ++ rest)) (offset + '#'.utf8Size) := by
      rw [List.append_assoc, List.cons_append, pastGap]
      simp only [show isBlank '#' = false from rfl, Bool.false_eq_true, if_false, if_true,
        List.cons_append]
    rw [opens, pastGap_comment offset closed, ih]
    congr 1
    simp only [utf8Size_append, utf8Size_cons, utf8Size_nil]
    omega

theorem pastGap_of_not_gap {c : Char} (noBlank : ¬ isBlank c) (noHash : c ≠ '#')
    (rest : List Char) (offset : Nat) :
    pastGap none (c :: rest) offset = .ok ⟨c :: rest, offset⟩ := by
  rw [pastGap]
  simp only [noBlank, noHash, if_false, Bool.false_eq_true]

/-- Behind a gap, the token of a spelling is scanned. -/
theorem scan_spelling {gap text after : List Char} {lexeme : Lexeme} (separates : Gap gap)
    (spelled : lexeme.SpelledBy text) (ends : lexeme.endsBefore after.head?) (offset : Nat) :
    scan ⟨gap ++ (text ++ after), offset⟩ =
      (.ok ⟨lexeme, lexeme.spanAt (offset + utf8Size gap)⟩,
        ⟨after, offset + utf8Size gap + utf8Size text⟩) := by
  obtain ⟨c, rest, equal, read⟩ := readLexeme_of_spelledBy spelled ends
  obtain ⟨d, others, same, starts⟩ := Lexeme.startsWith_of_spelledBy spelled
  obtain ⟨rfl, rfl⟩ : d = c ∧ others = rest := by
    rw [equal] at same
    simpa [eq_comm] using same
  have past : pastGap none (gap ++ (text ++ after)) offset =
      .ok ⟨d :: (others ++ after), offset + utf8Size gap⟩ := by
    rw [pastGap_append separates, equal, List.cons_append]
    exact pastGap_of_not_gap starts.other.1 starts.other.2.1 _ _
  rw [scan]
  simp only [past]
  rw [read, afterReading, Lexeme.utf8Size_of_spelledBy spelled]

theorem scan_gap {gap : List Char} (separates : Gap gap) (offset : Nat) :
    scan ⟨gap, offset⟩ =
      (.ok (.finish (offset + utf8Size gap)), ⟨[], offset + utf8Size gap⟩) := by
  have past := pastGap_append separates [] offset
  rw [List.append_nil] at past
  rw [scan]
  simp only [past]
  rfl

section
variable {cursor place : Cursor} {token : Token}

theorem tokens_of_scan (scanned : cursor.scan = (.ok token, place))
    (inner : token.kind ≠ .finish) : cursor.tokens = place.tokens.map (token :: ·) := by
  rw [tokens]
  split
  · rename_i other
    rw [scanned] at other
    simp at other
  · rename_i other
    rw [scanned] at other
    cases other
    rw [dif_neg inner]

theorem tokens_of_scan_finish (scanned : cursor.scan = (.ok token, place))
    (last : token.kind = .finish) : cursor.tokens = .ok [token] := by
  rw [tokens]
  split
  · rename_i other
    rw [scanned] at other
    simp at other
  · rename_i other
    rw [scanned] at other
    cases other
    rw [dif_pos last]

end

end Cursor

/-! ## Inscriptions -/

/-- A lexeme as it stands in a source, and the gap behind it. -/
structure Inscription where
  lexeme : Lexeme
  /-- The lexeme's spelling. -/
  text : List Char
  spelled : lexeme.SpelledBy text
  /-- What separates the lexeme from the next one. -/
  gap : List Char
  separates : Gap gap

namespace Inscription

/-- The source that the inscriptions make up, one behind the other. -/
def source (items : List Inscription) : List Char :=
  items.flatMap fun item => item.text ++ item.gap

/-- The span of the token of an inscription at `offset`. It leaves out the quotes of a text
literal. -/
def span (item : Inscription) (offset : Nat) : Span :=
  ⟨offset + item.lexeme.margin, offset + utf8Size item.text - item.lexeme.margin⟩

/-- The tokens of inscriptions from `offset` on, with the end of the input behind them. -/
def tokens (offset : Nat) : List Inscription → List Token
  | [] => [.finish offset]
  | item :: rest =>
      ⟨item.lexeme, item.span offset⟩ ::
        tokens (offset + utf8Size item.text + utf8Size item.gap) rest

/-- No lexeme clings to the next one without a gap between them. -/
def Apart (items : List Inscription) : Prop :=
  items.IsChain fun left right => left.gap = [] → ¬ left.lexeme.clings right.lexeme

theorem span_eq_spanAt (item : Inscription) (offset : Nat) :
    item.span offset = item.lexeme.spanAt offset := by
  rw [span, Lexeme.spanAt, Lexeme.utf8Size_of_spelledBy item.spelled]

/-- The lexeme of the first inscription ends where its spelling does. -/
theorem Apart.endsBefore {item : Inscription} {rest : List Inscription}
    (apart : Apart (item :: rest)) :
    item.lexeme.endsBefore (item.gap ++ source rest).head? := by
  by_cases present : item.gap = []
  · rw [present, List.nil_append]
    cases rest with
    | nil => exact item.lexeme.endsBefore_none
    | cons next rest =>
      obtain ⟨front, -⟩ := List.isChain_cons_cons.mp apart
      rw [source, List.flatMap_cons, List.append_assoc]
      exact Lexeme.endsBefore_spelling next.spelled (front present) _
  · exact item.lexeme.endsBefore_gap item.separates present _

/-- The cursor finds the tokens of the inscriptions that are left, behind any gap. -/
theorem tokens_of_apart {items : List Inscription} (apart : Apart items) {gap : List Char}
    (separates : Gap gap) (offset : Nat) :
    Cursor.tokens ⟨gap ++ source items, offset⟩ = .ok (tokens (offset + utf8Size gap) items) := by
  induction items generalizing gap offset with
  | nil =>
    rw [source, List.flatMap_nil, List.append_nil]
    exact Cursor.tokens_of_scan_finish (Cursor.scan_gap separates offset) rfl
  | cons item rest ih =>
    have scanned := Cursor.scan_spelling separates item.spelled apart.endsBefore offset
    have inner := Lexeme.kind_ne_finish_of_spelledBy item.spelled
    have others := ih (List.IsChain.of_cons apart) item.separates
      (offset + utf8Size gap + utf8Size item.text)
    have split : source (item :: rest) = item.text ++ (item.gap ++ source rest) := by
      rw [source, List.flatMap_cons, List.append_assoc, ← source]
    rw [split, Cursor.tokens_of_scan scanned inner, others, tokens, span_eq_spanAt]
    rfl

end Inscription

/-- The lexer undoes inscription: from a gap and inscriptions that are apart it gets exactly
their tokens, at the spans that the widths of the pieces give. -/
theorem tokenize_inscriptions {gap : List Char} (separates : Gap gap) {items : List Inscription}
    (apart : Inscription.Apart items) :
    tokenize (String.ofList (gap ++ Inscription.source items)) =
      .ok (Inscription.tokens (utf8Size gap) items) := by
  have found := Inscription.tokens_of_apart apart separates 0
  rw [Nat.zero_add] at found
  rw [tokenize, Cursor.ofSource, String.toList_ofList, found]

/-- `é<<@s>= =='"'2.5`, where everything that can touch does. -/
def Inscription.touching : List Inscription :=
  [⟨.identifier "é", ['é'], .identifier ⟨by decide, List.all_eq_true.mp rfl, rfl⟩, [], .nil⟩,
    ⟨.symbol .lessThan, ['<'], .symbol .lessThan, [], .nil⟩,
    ⟨.selector "@s", ['<', '@', 's', '>'], @Lexeme.SpelledBy.selector ['@', 's'] ⟨rfl, by decide⟩,
      [], .nil⟩,
    ⟨.symbol .equals, ['='], .symbol .equals, [' '], .blank rfl .nil⟩,
    ⟨.symbol .equalsEquals, ['=', '='], .symbol .equalsEquals, [], .nil⟩,
    ⟨.text "\"", ['\'', '"', '\''], @Lexeme.SpelledBy.text _ ['"'] (.inr rfl) (by decide),
      [], .nil⟩,
    ⟨.number "2.5", ['2', '.', '5'], .number (@IsNumeral.fraction ['2'] ['5']
      ⟨by decide, List.all_eq_true.mp rfl⟩ ⟨by decide, List.all_eq_true.mp rfl⟩), [], .nil⟩]

theorem tokenize_touching :
    Gap ['#', '→', '#'] ∧ Inscription.Apart Inscription.touching ∧
      tokenize (String.ofList (['#', '→', '#'] ++ Inscription.source Inscription.touching)) =
        .ok [⟨.identifier "é", ⟨5, 7⟩⟩, ⟨.symbol .lessThan, ⟨7, 8⟩⟩, ⟨.selector "@s", ⟨8, 12⟩⟩,
          ⟨.symbol .equals, ⟨12, 13⟩⟩, ⟨.symbol .equalsEquals, ⟨14, 16⟩⟩, ⟨.text "\"", ⟨17, 18⟩⟩,
          ⟨.number "2.5", ⟨19, 22⟩⟩, .finish 22] := by
  have separates : Gap ['#', '→', '#'] := @Gap.comment ['→'] [] (by decide) .nil
  have apart : Inscription.Apart Inscription.touching := by
    simp only [Inscription.Apart, Inscription.touching, List.isChain_cons_cons,
      List.isChain_singleton]
    decide
  exact ⟨separates, apart, tokenize_inscriptions separates apart⟩

end BlockScript
