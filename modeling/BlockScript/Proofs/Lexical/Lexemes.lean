import BlockScript.Proofs.Lexical.Inscription

/-!
# Lexemes of a source

The reader loses nothing: what it takes off the front of a text is a spelling of the lexeme
that it gives, and the rest is what follows (`spelledBy_of_readLexeme`). So the tokens of a
source end with the one that marks the end of the input, and all others have lexemes that can
stand in a source (`exists_of_tokenize`).
-/

namespace BlockScript

section
variable {text before after : List Char}

theorem mem_takeWhile {class? : Char → Bool} {c : Char} (member : c ∈ text.takeWhile class?) :
    class? c :=
  List.all_eq_true.mp List.all_takeWhile c member

theorem cut?_eq_some {stop : Char} (found : cut? stop text = some (before, after)) :
    text = before ++ stop :: after ∧ stop ∉ before := by
  have whole := List.takeWhile_append_dropWhile (p := (· != stop)) (l := text)
  unfold cut? at found
  split at found
  · contradiction
  · rename_i c tail equal
    obtain ⟨rfl, rfl⟩ : text.takeWhile (· != stop) = before ∧ tail = after := by
      simpa using found
    have front : (text.dropWhile (· != stop)).head? = some c := by rw [equal]; rfl
    have same : c = stop := by
      have fails := List.head?_dropWhile_not (· != stop) text
      rw [front] at fails
      simpa using fails
    subst same
    constructor
    · rw [← equal, whole]
    · intro member
      simpa using mem_takeWhile member

theorem isDigits_takeWhile (present : text.takeWhile Char.isDigit ≠ []) :
    IsDigits (text.takeWhile Char.isDigit) :=
  ⟨present, fun _ => mem_takeWhile⟩

theorem takeWhile_cons_ne_nil {class? : Char → Bool} {c : Char} (member : class? c)
    (rest : List Char) : (c :: rest).takeWhile class? ≠ [] := by
  rw [List.takeWhile_cons_of_pos member]
  exact List.cons_ne_nil _ _

end

/-! ## Readings are spellings -/

section
variable {c : Char} {rest after : List Char} {lexeme : Lexeme}

theorem spelledBy_of_readNumber (digit : c.isDigit)
    (read : readNumber (c :: rest) = .lexeme lexeme after) :
    ∃ text, lexeme.SpelledBy text ∧ c :: rest = text ++ after := by
  have digits := isDigits_takeWhile (takeWhile_cons_ne_nil digit rest)
  have whole := List.takeWhile_append_dropWhile (p := Char.isDigit) (l := c :: rest)
  unfold readNumber at read
  dsimp only at read
  split at read
  · rename_i tail equal
    have places := List.takeWhile_append_dropWhile (p := Char.isDigit) (l := tail)
    split at read
    · contradiction
    · rename_i present
      split at read
      · contradiction
      · injection read with same behind
        subst same behind
        refine ⟨_, .number (.fraction digits (isDigits_takeWhile ?_)), ?_⟩
        · simpa using present
        · rw [List.append_assoc, List.cons_append, places, ← equal, whole]
  · injection read with same behind
    subst same behind
    exact ⟨_, .number (.whole digits), whole.symm⟩

theorem spelledBy_of_readWord (letter : isWordChar c)
    (read : readWord (c :: rest) = .lexeme lexeme after) :
    ∃ text, lexeme.SpelledBy text ∧ c :: rest = text ++ after := by
  injection read with same behind
  refine ⟨(c :: rest).takeWhile isWordChar, ?_, ?_⟩
  · rw [← same, Lexeme.ofWord]
    cases known : Keyword.ofLetters? ((c :: rest).takeWhile isWordChar) with
    | some word =>
      rw [← Keyword.letters_of_ofLetters? known]
      exact .keyword word
    | none =>
      exact .identifier ⟨takeWhile_cons_ne_nil letter rest, fun _ => mem_takeWhile, known⟩
  · rw [← behind, List.takeWhile_append_dropWhile]

theorem spelledBy_of_pairAhead? {mark : Symbol} (ahead : pairAhead? c rest = some (mark, after)) :
    ∃ text, (Lexeme.symbol mark).SpelledBy text ∧ c :: rest = text ++ after := by
  cases rest with
  | nil => contradiction
  | cons d rest =>
    obtain ⟨_, known, equal⟩ := Option.map_eq_some_iff.mp ahead
    cases equal
    refine ⟨mark.letters, .symbol mark, ?_⟩
    rw [Symbol.letters_of_ofLetters? known]
    rfl

/-- The reader takes a spelling of a lexeme off the front of a text, and leaves the rest. -/
theorem spelledBy_of_readLexeme (read : readLexeme c rest = .lexeme lexeme after) :
    ∃ text, lexeme.SpelledBy text ∧ c :: rest = text ++ after := by
  unfold readLexeme at read
  split at read
  · rename_i digit
    exact spelledBy_of_readNumber digit read
  split at read
  · rename_i quote
    unfold readText at read
    split at read
    · rename_i content _ found
      obtain ⟨rfl, closed⟩ := cut?_eq_some found
      injection read with same behind
      subst same behind
      exact ⟨_, .text quote closed, by simp⟩
    · contradiction
  split at read
  · rename_i opens
    obtain ⟨rfl, opens⟩ := opens
    unfold readSelector at read
    split at read
    · rename_i target _ found
      obtain ⟨rfl, closed⟩ := cut?_eq_some found
      injection read with same behind
      have front : target.head? = some '@' := by
        cases target with
        | nil => simp at opens
        | cons d target => exact opens
      subst same behind
      exact ⟨_, .selector ⟨front, closed⟩, by simp⟩
    · contradiction
  split at read
  · rename_i ahead
    injection read with same behind
    rw [← same, ← behind]
    exact spelledBy_of_pairAhead? ahead
  split at read
  · rename_i letter
    exact spelledBy_of_readWord letter read
  split at read
  · rename_i mark known
    injection read with same behind
    subst same behind
    refine ⟨mark.letters, .symbol mark, ?_⟩
    rw [Symbol.letters_of_ofLetters? known]
    rfl
  · contradiction

end

/-! ## Tokens of a source -/

/-- A lexeme that can stand in a source. -/
def Lexeme.IsLexical (lexeme : Lexeme) : Prop := ∃ text, lexeme.SpelledBy text

namespace Cursor

variable {cursor place : Cursor} {token : Token}

theorem isLexical_of_scan (scanned : cursor.scan = (.ok token, place))
    (inner : token.kind ≠ .finish) : token.toLexeme.IsLexical := by
  unfold scan at scanned
  split at scanned
  · simp at scanned
  · simp only [Prod.mk.injEq, Except.ok.injEq] at scanned
    rw [← scanned.1] at inner
    contradiction
  · unfold afterReading at scanned
    split at scanned
    · rename_i read
      simp only [Prod.mk.injEq, Except.ok.injEq] at scanned
      obtain ⟨text, spelled, -⟩ := spelledBy_of_readLexeme read
      rw [← scanned.1]
      exact ⟨text, spelled⟩
    · simp at scanned
    · simp at scanned

/-- The tokens from a place on: lexemes that can stand in a source, and then the end. -/
theorem exists_of_tokens {tokens : List Token} (found : cursor.tokens = .ok tokens) :
    ∃ inner finish, tokens = inner ++ [finish] ∧ finish.kind = .finish ∧
      ∀ token ∈ inner, token.toLexeme.IsLexical := by
  fun_induction Cursor.tokens cursor generalizing tokens with
  | case1 cursor fault place scanned => contradiction
  | case2 cursor token place scanned last =>
    cases found
    exact ⟨[], token, rfl, last, by simp⟩
  | case3 cursor token place scanned inner ih =>
    cases others : place.tokens with
    | error fault =>
      rw [others] at found
      contradiction
    | ok rest =>
      rw [others] at found
      cases found
      obtain ⟨front, finish, rfl, last, lexical⟩ := ih others
      refine ⟨token :: front, finish, rfl, last, ?_⟩
      intro other member
      rcases List.mem_cons.mp member with rfl | member
      · exact isLexical_of_scan scanned inner
      · exact lexical other member

end Cursor

/-- The tokens of a source are lexemes that can stand in one, and then the end of the input. -/
theorem exists_of_tokenize {source : String} {tokens : List Token}
    (found : tokenize source = .ok tokens) :
    ∃ inner finish, tokens = inner ++ [finish] ∧ finish.kind = .finish ∧
      ∀ token ∈ inner, token.toLexeme.IsLexical :=
  Cursor.exists_of_tokens found

theorem Lexeme.IsLexical.kind_ne_finish {lexeme : Lexeme} (lexical : lexeme.IsLexical) :
    lexeme.kind ≠ .finish := by
  obtain ⟨text, spelled⟩ := lexical
  exact kind_ne_finish_of_spelledBy spelled

end BlockScript
