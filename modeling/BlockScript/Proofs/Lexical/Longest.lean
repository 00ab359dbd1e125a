import BlockScript.Proofs.Lexical.Lexemes

/-!
# The lexer takes as much as it can

A reading ends where its lexeme does: the character behind it could not have been taken as well
(`endsBefore_of_readLexeme`). So two lexemes that are read one behind the other without a gap do
not cling to each other, and whatever the lexer accepts is a gap with inscriptions behind it that
are apart (`Inscription.exists_of_tokenize`). Together with the statement about inscriptions this
says that gaps and inscriptions are exactly the sources that the lexer accepts.
-/

namespace BlockScript

/-! ## Readings are as long as they can be -/

theorem not_of_head?_dropWhile {class? : Char → Bool} {text : List Char} {c : Char}
    (front : (text.dropWhile class?).head? = some c) : ¬ class? c := by
  have fails := List.head?_dropWhile_not class? text
  rw [front] at fails
  simpa using fails

namespace Lexeme

/-- Only words, numbers and the beginnings of longer symbols look at the next character. -/
theorem endsBefore_of_not {lexeme : Lexeme} (word : ¬ lexeme.isWord)
    (number : lexeme.kind ≠ .number) (takes : ¬ lexeme.takesEquals) (next : Option Char) :
    lexeme.endsBefore next := by
  intro c _
  refine ⟨fun is => absurd is word, fun is => absurd is number, fun is => absurd is takes, ?_⟩
  intro lessThan
  simp [takesEquals, lessThan] at takes

theorem isWord_ofWord (word : List Char) : (ofWord word).isWord := by
  unfold ofWord
  split <;> rfl

theorem endsBefore_of_isWord {lexeme : Lexeme} (word : lexeme.isWord) {next : Option Char}
    (outside : ∀ c, next = some c → ¬ isWordChar c) : lexeme.endsBefore next := by
  intro c same
  refine ⟨fun _ => outside c same, ?_, ?_, ?_⟩
  · intro number
    simp [isWord, number] at word
  · intro takes
    simp only [takesEquals, Bool.or_eq_true, beq_iff_eq] at takes
    rcases takes with (symbol | symbol) | symbol <;> simp [isWord, symbol] at word
  · intro lessThan
    simp [isWord, lessThan] at word

theorem endsBefore_number {digits : String} {next : Option Char}
    (outside : ∀ c, next = some c → ¬ c.isDigit ∧ c ≠ '.') : (number digits).endsBefore next :=
  fun c same => ⟨fun word => absurd word (by simp [isWord, number]), fun _ => outside c same,
    fun takes => absurd takes (by simp [takesEquals, number]), Kind.noConfusion⟩

/-- The end of a text literal or a selector does not depend on what follows. -/
theorem endsBefore_of_closed {lexeme : Lexeme}
    (closed : lexeme.kind = .text ∨ lexeme.kind = .selector) (next : Option Char) :
    lexeme.endsBefore next := by
  apply endsBefore_of_not <;> rcases closed with kind | kind <;> simp [isWord, takesEquals, kind]

end Lexeme

/-- No symbol of two characters is the beginning of another one. -/
theorem Symbol.not_takesEquals_of_pair? {c d : Char} {mark : Symbol}
    (known : Symbol.pair? c d = some mark) : ¬ (Lexeme.symbol mark).takesEquals := by
  have spelled := Symbol.letters_of_ofLetters? known
  revert spelled
  cases mark <;> simp [Symbol.letters, Lexeme.takesEquals, Lexeme.symbol]

/-- Symbols that a `=` behind them would make longer. -/
theorem Symbol.pair?_equals_isSome {c : Char} {mark : Symbol}
    (known : Symbol.single? c = some mark) (takes : (Lexeme.symbol mark).takesEquals) :
    (Symbol.pair? c '=').isSome := by
  have spelled : mark.letters = [c] := Symbol.letters_of_ofLetters? known
  simp only [Lexeme.takesEquals, Lexeme.symbol, Bool.or_eq_true, beq_iff_eq,
    Kind.symbol.injEq] at takes
  rcases takes with (rfl | rfl) | rfl <;> cases spelled <;> decide

section
variable {c : Char} {rest after : List Char} {lexeme : Lexeme}

theorem endsBefore_of_readNumber (read : readNumber rest = .lexeme lexeme after) :
    lexeme.endsBefore after.head? := by
  unfold readNumber at read
  dsimp only at read
  split at read
  · rename_i tail equal
    -- Behind the dot there are digits, or the reading would be malformed, and then no second dot.
    split at read
    · contradiction
    · split at read
      · contradiction
      · rename_i behind noDot
        injection read with same left
        subst same left
        refine Lexeme.endsBefore_number fun d front => ⟨not_of_head?_dropWhile front, ?_⟩
        rintro rfl
        obtain ⟨others, split⟩ := List.head?_eq_some_iff.mp front
        exact noDot others split
  · rename_i behind noDot
    injection read with same left
    subst same left
    refine Lexeme.endsBefore_number fun d front => ⟨not_of_head?_dropWhile front, ?_⟩
    rintro rfl
    obtain ⟨others, split⟩ := List.head?_eq_some_iff.mp front
    exact noDot others split

/-- A symbol of one character is read only where no longer one begins. -/
theorem endsBefore_of_single? {mark : Symbol}
    (noSelector : ¬ (c = '<' ∧ rest.head? = some '@')) (noPair : pairAhead? c rest = none)
    (known : Symbol.single? c = some mark) : (Lexeme.symbol mark).endsBefore rest.head? := by
  intro d front
  obtain ⟨others, rfl⟩ := List.head?_eq_some_iff.mp front
  refine ⟨fun word => absurd word (by simp [Lexeme.isWord, Lexeme.symbol]),
    fun number => absurd number (by simp [Lexeme.symbol]), ?_, ?_⟩
  · rintro takes rfl
    have some := Symbol.pair?_equals_isSome known takes
    rw [pairAhead?, Option.map_eq_none_iff] at noPair
    simp [noPair] at some
  · rintro lessThan rfl
    have spelled := Symbol.letters_of_ofLetters? known
    have same : mark = .lessThan := by simpa [Lexeme.symbol] using lessThan
    subst same
    exact noSelector ⟨by simpa [Symbol.letters] using spelled.symm, rfl⟩

/-- A reading stops only where its lexeme ends. -/
theorem endsBefore_of_readLexeme (read : readLexeme c rest = .lexeme lexeme after) :
    lexeme.endsBefore after.head? := by
  unfold readLexeme at read
  split at read
  · exact endsBefore_of_readNumber read
  split at read
  · unfold readText at read
    split at read
    · injection read with same _
      subst same
      exact Lexeme.endsBefore_of_closed (.inl rfl) _
    · contradiction
  split at read
  · unfold readSelector at read
    split at read
    · injection read with same _
      subst same
      exact Lexeme.endsBefore_of_closed (.inr rfl) _
    · contradiction
  -- For a `<` it matters that no selector starts here, and for each symbol that no pair does.
  rename_i noSelector
  split at read
  · rename_i mark behind ahead
    injection read with same _
    subst same
    cases rest with
    | nil => contradiction
    | cons d rest =>
      obtain ⟨_, known, equal⟩ := Option.map_eq_some_iff.mp ahead
      cases equal
      exact Lexeme.endsBefore_of_not (by simp [Lexeme.isWord, Lexeme.symbol])
        (by simp [Lexeme.symbol]) (Symbol.not_takesEquals_of_pair? known) _
  rename_i noPair
  split at read
  · injection read with same left
    subst same left
    exact Lexeme.endsBefore_of_isWord (Lexeme.isWord_ofWord _) fun d => not_of_head?_dropWhile
  split at read
  · rename_i mark known
    injection read with same left
    subst same left
    exact endsBefore_of_single? noSelector noPair known
  · contradiction

end

/-! ## Lexemes that end do not cling -/

/-- What a lexeme tells about the first character of its spellings. -/
theorem Lexeme.head_of_spelledBy {lexeme : Lexeme} {text : List Char}
    (spelled : lexeme.SpelledBy text) : ∃ c rest, text = c :: rest ∧
      (lexeme.isWord → isWordChar c) ∧ (lexeme.kind = .number → c.isDigit) ∧
      (lexeme.givesEquals → c = '=') := by
  cases spelled with
  | keyword word =>
    obtain ⟨c, rest, equal⟩ := List.exists_cons_of_ne_nil word.letters_ne_nil
    exact ⟨c, rest, equal, fun _ => word.isWordChar_of_mem_letters c (by simp [equal]),
      fun number => absurd number (by simp [Lexeme.keyword]),
      fun gives => absurd gives (by simp [givesEquals, Lexeme.keyword])⟩
  | symbol mark =>
    cases mark <;> exact ⟨_, _, rfl, by decide, by decide, by decide⟩
  | number valid =>
    obtain ⟨c, rest, rfl, digit⟩ := valid.exists_digit
    exact ⟨c, rest, rfl, fun word => absurd word (by simp [isWord, Lexeme.number]),
      fun _ => digit, fun gives => absurd gives (by simp [givesEquals, Lexeme.number])⟩
  | identifier valid =>
    obtain ⟨c, rest, rfl⟩ := List.exists_cons_of_ne_nil valid.ne_nil
    exact ⟨c, rest, rfl, fun _ => valid.letter c List.mem_cons_self,
      fun number => absurd number (by simp [Lexeme.identifier]),
      fun gives => absurd gives (by simp [givesEquals, Lexeme.identifier])⟩
  | text valid =>
    exact ⟨_, _, rfl, fun word => absurd word (by simp [isWord, Lexeme.text]),
      fun number => absurd number (by simp [Lexeme.text]),
      fun gives => absurd gives (by simp [givesEquals, Lexeme.text])⟩
  | selector valid =>
    exact ⟨_, _, rfl, fun word => absurd word (by simp [isWord, Lexeme.selector]),
      fun number => absurd number (by simp [Lexeme.selector]),
      fun gives => absurd gives (by simp [givesEquals, Lexeme.selector])⟩

/-- A lexeme that ends in front of another one does not cling to it. -/
theorem Lexeme.not_clings_of_endsBefore {left right : Lexeme} {text after : List Char}
    (spelled : right.SpelledBy text) (ends : left.endsBefore (text ++ after).head?) :
    ¬ left.clings right := by
  obtain ⟨c, rest, rfl, letter, digit, equals⟩ := head_of_spelledBy spelled
  obtain ⟨noLetter, noDigit, noEquals, -⟩ := ends c rfl
  simp only [clings, Bool.or_eq_true, Bool.and_eq_true, beq_iff_eq]
  rintro ((⟨word, follows⟩ | ⟨number, follows⟩) | ⟨takes, gives⟩)
  · exact noLetter word (letter follows)
  · exact (noDigit number).1 (digit follows)
  · exact noEquals takes (equals gives)

/-! ## The cursor -/

namespace Cursor

variable {cursor place : Cursor} {token : Token}

/-- What is passed over in front of a token is a gap, or the rest of an open comment and then a
gap. -/
theorem exists_gap_of_pastGap {opened? : Option Nat} {text : List Char} {offset : Nat}
    (past : pastGap opened? text offset = .ok place) :
    match opened? with
    | none => ∃ gap, Gap gap ∧ text = gap ++ place.rest ∧ place.offset = offset + utf8Size gap
    | some _ => ∃ body gap, '#' ∉ body ∧ Gap gap ∧ text = body ++ '#' :: (gap ++ place.rest) ∧
        place.offset = offset + utf8Size (body ++ '#' :: gap) := by
  -- A comment that is opened in the text is closed in what is left of it, so the induction is over
  -- both states of the scan at once.
  induction text generalizing opened? offset with
  | nil =>
    cases opened? with
    | none =>
      cases past
      exact ⟨[], .nil, rfl, rfl⟩
    | some start => contradiction
  | cons c text ih =>
    cases opened? with
    | none =>
      rw [pastGap] at past
      split at past
      · rename_i blank
        obtain ⟨gap, separates, rfl, reached⟩ := ih past
        refine ⟨c :: gap, .blank blank separates, rfl, ?_⟩
        rw [reached, utf8Size_cons, Nat.add_assoc]
      · split at past
        · rename_i hash
          subst hash
          obtain ⟨body, gap, closed, separates, rfl, reached⟩ := ih past
          refine ⟨'#' :: body ++ '#' :: gap, .comment closed separates, by simp, ?_⟩
          rw [reached, List.cons_append, utf8Size_cons, Nat.add_assoc]
        · cases past
          exact ⟨[], .nil, rfl, rfl⟩
    | some start =>
      rw [pastGap] at past
      split at past
      · rename_i hash
        subst hash
        obtain ⟨gap, separates, rfl, reached⟩ := ih past
        refine ⟨[], gap, by simp, separates, rfl, ?_⟩
        rw [reached, List.nil_append, utf8Size_cons, Nat.add_assoc]
      · rename_i other
        obtain ⟨body, gap, closed, separates, rfl, reached⟩ := ih past
        refine ⟨c :: body, gap, ?_, separates, rfl, ?_⟩
        · rw [List.mem_cons, not_or]
          exact ⟨Ne.symm other, closed⟩
        · rw [reached, List.cons_append, utf8Size_cons, Nat.add_assoc]

/-- A comment that is never closed stands behind a gap, or behind the rest of an open comment and
then a gap, unless it is the open comment itself. -/
theorem exists_comment_of_pastGap {opened? : Option Nat} {text : List Char} {offset : Nat}
    {span : Span} (failed : pastGap opened? text offset = .error span) :
    match opened? with
    | none => ∃ gap body, Gap gap ∧ '#' ∉ body ∧ text = gap ++ '#' :: body ∧
        span = ⟨offset + utf8Size gap, offset + utf8Size text⟩
    | some start => ('#' ∉ text ∧ span = ⟨start, offset + utf8Size text⟩) ∨
        ∃ front gap body, '#' ∉ front ∧ Gap gap ∧ '#' ∉ body ∧
          text = front ++ '#' :: (gap ++ '#' :: body) ∧
          span = ⟨offset + utf8Size (front ++ '#' :: gap), offset + utf8Size text⟩ := by
  induction text generalizing opened? offset with
  | nil =>
    cases opened? with
    | none => contradiction
    | some start =>
      cases failed
      exact .inl ⟨List.not_mem_nil, rfl⟩
  | cons c text ih =>
    have sizes (size : Nat) : offset + c.utf8Size + size = offset + (c.utf8Size + size) :=
      Nat.add_assoc _ _ _
    cases opened? with
    | none =>
      rw [pastGap] at failed
      split at failed
      · rename_i blank
        obtain ⟨gap, body, separates, closed, split, rfl⟩ := ih failed
        refine ⟨c :: gap, body, .blank blank separates, closed, by rw [split]; rfl, ?_⟩
        rw [sizes, sizes, utf8Size_cons, utf8Size_cons]
      · split at failed
        · rename_i hash
          subst hash
          obtain ⟨closed, rfl⟩ | ⟨front, gap, body, before, separates, closed, split, rfl⟩ := ih failed
          · exact ⟨[], text, .nil, closed, rfl, by rw [sizes]; rfl⟩
          · refine ⟨'#' :: front ++ '#' :: gap, body, .comment before separates, closed,
              by rw [split]; simp, ?_⟩
            rw [sizes, sizes, List.cons_append, utf8Size_cons, utf8Size_cons]
        · contradiction
    | some start =>
      rw [pastGap] at failed
      split at failed
      · rename_i hash
        subst hash
        obtain ⟨gap, body, separates, closed, split, rfl⟩ := ih failed
        refine .inr ⟨[], gap, body, List.not_mem_nil, separates, closed, by rw [split]; rfl, ?_⟩
        rw [sizes, sizes, List.nil_append, utf8Size_cons, utf8Size_cons]
      · rename_i other
        have noHash {run : List Char} (closed : '#' ∉ run) : '#' ∉ c :: run := by
          rw [List.mem_cons, not_or]
          exact ⟨Ne.symm other, closed⟩
        obtain ⟨closed, rfl⟩ | ⟨front, gap, body, before, separates, closed, split, rfl⟩ := ih failed
        · exact .inl ⟨noHash closed, by rw [sizes]; rfl⟩
        · refine .inr ⟨c :: front, gap, body, noHash before, separates, closed,
            by rw [split]; rfl, ?_⟩
          rw [sizes, sizes, List.cons_append, utf8Size_cons, utf8Size_cons]

/-- Behind a gap there is none to pass over. -/
theorem pastGap_again {opened? : Option Nat} {text : List Char} {offset : Nat}
    (past : pastGap opened? text offset = .ok place) :
    pastGap none place.rest place.offset = .ok place := by
  induction text generalizing opened? offset with
  | nil =>
    cases opened? with
    | none =>
      cases past
      rfl
    | some start => contradiction
  | cons c text ih =>
    cases opened? with
    | none =>
      rw [pastGap] at past
      split at past
      · exact ih past
      · split at past
        · exact ih past
        · cases past
          exact pastGap_of_not_gap ‹_› ‹_› _ _
    | some start =>
      rw [pastGap] at past
      exact ih past

/-- A scanned token stands behind a gap, is spelled where its span says, and ends at the place
that is reached. -/
theorem exists_of_scan (scanned : cursor.scan = (.ok token, place))
    (inner : token.kind ≠ .finish) : ∃ gap text, Gap gap ∧ token.toLexeme.SpelledBy text ∧
      cursor.rest = gap ++ (text ++ place.rest) ∧
      token.span = token.toLexeme.spanAt (cursor.offset + utf8Size gap) ∧
      place.offset = cursor.offset + utf8Size gap + utf8Size text ∧
      token.toLexeme.endsBefore place.rest.head? := by
  unfold scan at scanned
  split at scanned
  · simp at scanned
  · simp only [Prod.mk.injEq, Except.ok.injEq] at scanned
    rw [← scanned.1] at inner
    contradiction
  · rename_i past
    obtain ⟨gap, separates, split, reached⟩ := exists_gap_of_pastGap past
    dsimp only at split reached
    unfold afterReading at scanned
    split at scanned
    · rename_i read
      cases scanned
      obtain ⟨text, spelled, equal⟩ := spelledBy_of_readLexeme read
      refine ⟨gap, text, separates, spelled, ?_, by rw [reached], ?_,
        endsBefore_of_readLexeme read⟩
      · rw [split, equal]
      · rw [reached, Lexeme.utf8Size_of_spelledBy spelled]
    · simp at scanned
    · simp at scanned

/-- Before the end of the input there is only a gap. -/
theorem gap_of_scan_finish (scanned : cursor.scan = (.ok token, place))
    (last : token.kind = .finish) :
    Gap cursor.rest ∧ token = .finish (cursor.offset + utf8Size cursor.rest) := by
  unfold scan at scanned
  split at scanned
  · simp at scanned
  · rename_i past
    obtain ⟨gap, separates, split, reached⟩ := exists_gap_of_pastGap past
    dsimp only at split reached
    rw [List.append_nil] at split
    simp only [Prod.mk.injEq, Except.ok.injEq] at scanned
    subst split
    exact ⟨separates, by rw [← scanned.1, reached]⟩
  · unfold afterReading at scanned
    split at scanned
    · rename_i read
      obtain ⟨text, spelled, -⟩ := spelledBy_of_readLexeme read
      cases scanned
      exact absurd last (Lexeme.kind_ne_finish_of_spelledBy spelled)
    · simp at scanned
    · simp at scanned

end Cursor

/-! ## Whatever is accepted is inscribed -/

/-- From a place at which the cursor finds tokens on, the source is a gap and inscriptions that
are apart, and the tokens are those of the inscriptions. -/
theorem Inscription.exists_of_cursor {cursor : Cursor} {tokens : List Token}
    (found : cursor.tokens = .ok tokens) : ∃ gap items, Gap gap ∧ Apart items ∧
      cursor.rest = gap ++ source items ∧
      tokens = Inscription.tokens (cursor.offset + utf8Size gap) items := by
  fun_induction Cursor.tokens cursor generalizing tokens with
  | case1 cursor fault place scanned => contradiction
  | case2 cursor token place scanned last =>
    obtain ⟨separates, rfl⟩ := Cursor.gap_of_scan_finish scanned last
    cases found
    exact ⟨cursor.rest, [], separates, .nil, by simp [source], rfl⟩
  | case3 cursor token place scanned inner ih =>
    cases others : place.tokens with
    | error fault =>
      rw [others] at found
      contradiction
    | ok rest =>
      rw [others] at found
      cases found
      obtain ⟨behind, items, between, apart, left, rfl⟩ := ih others
      obtain ⟨gap, text, separates, spelled, split, span, reached, ends⟩ :=
        Cursor.exists_of_scan scanned inner
      refine ⟨gap, ⟨token.toLexeme, text, spelled, behind, between⟩ :: items, separates, ?_, ?_, ?_⟩
      · refine List.isChain_cons.mpr ⟨?_, apart⟩
        -- The next lexeme starts where this one ends, as there is no gap between them.
        intro next first touching
        obtain ⟨others, rfl⟩ := List.head?_eq_some_iff.mp first
        dsimp only at touching
        rw [left, touching, List.nil_append, source, List.flatMap_cons, List.append_assoc] at ends
        exact Lexeme.not_clings_of_endsBefore next.spelled ends
      · rw [split, left, source, source, List.flatMap_cons, List.append_assoc]
      · rw [Inscription.tokens, span_eq_spanAt, ← span, reached]

/-- A source that the lexer accepts is a gap and inscriptions that are apart, and its tokens are
those of the inscriptions. -/
theorem Inscription.exists_of_tokenize {source : String} {tokens : List Token}
    (found : tokenize source = .ok tokens) : ∃ gap items, Gap gap ∧ Apart items ∧
      source.toList = gap ++ Inscription.source items ∧
      tokens = Inscription.tokens (utf8Size gap) items := by
  have inscribed := exists_of_cursor found
  simpa only [Cursor.ofSource, Nat.zero_add] using inscribed

end BlockScript
