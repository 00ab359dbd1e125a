import BlockScript.Text.Alphabetic
import BlockScript.Fault

/-!
# Reading one lexeme

`readLexeme` reads the lexeme at the front of a text that starts with no gap. Each kind of
lexeme has a reader of its own that cuts the text with `takeWhile` and `dropWhile`, so that
nothing of the text is lost: what a reader takes and what it leaves make up what it was given.
-/

namespace BlockScript

/-- What stands at the front of a text. -/
inductive Reading
  /-- A lexeme, and the text after it. -/
  | lexeme (lexeme : Lexeme) (rest : List Char)
  /-- A malformed lexeme made of `covered`, and the text after it. -/
  | malformed (cause : Cause) (covered rest : List Char)
  /-- No lexeme starts with the first character. It is not passed over. -/
  | stray
  deriving Repr

/-- The text before the first `stop` and the text after it, if `stop` occurs. -/
def cut? (stop : Char) (text : List Char) : Option (List Char × List Char) :=
  match text.dropWhile (· != stop) with
  | [] => none
  | _ :: after => some (text.takeWhile (· != stop), after)

/-- Reads a number: digits, and optionally one dot with digits on both sides. -/
def readNumber (text : List Char) : Reading :=
  let whole := text.takeWhile Char.isDigit
  match text.dropWhile Char.isDigit with
  | '.' :: tail =>
      let fraction := tail.takeWhile Char.isDigit
      if fraction.isEmpty then .malformed .trailingDot (whole ++ ['.']) tail
      else match tail.dropWhile Char.isDigit with
        | '.' :: after => .malformed .secondDot (whole ++ '.' :: fraction ++ ['.']) after
        | after => .lexeme (.number (String.ofList (whole ++ '.' :: fraction))) after
  | after => .lexeme (.number (String.ofList whole)) after

/-- Reads a text literal whose opening `quote` stands before `text`. -/
def readText (quote : Char) (text : List Char) : Reading :=
  match cut? quote text with
  | some (content, after) => .lexeme (.text (String.ofList content)) after
  | none => .malformed .unclosedText (quote :: text) []

/-- Reads a selector whose opening `<` stands before `text`. -/
def readSelector (text : List Char) : Reading :=
  match cut? '>' text with
  | some (target, after) => .lexeme (.selector (String.ofList target)) after
  | none => .malformed .unclosedSelector ('<' :: text) []

/-- The lexeme that a word is: a reserved word or a name. -/
def Lexeme.ofWord (word : List Char) : Lexeme :=
  match Keyword.ofLetters? word with
  | some reserved => .keyword reserved
  | none => .identifier (String.ofList word)

/-- Reads a word: the longest run of word characters. -/
def readWord (text : List Char) : Reading :=
  .lexeme (.ofWord (text.takeWhile isWordChar)) (text.dropWhile isWordChar)

/-- The symbol of two characters at the front of a text, and the text after it. -/
def pairAhead? (c : Char) : List Char → Option (Symbol × List Char)
  | [] => none
  | d :: after => (Symbol.pair? c d).map (·, after)

/-- Reads the lexeme that starts with `c`. A `<` opens a selector only in front of `@`, and a
symbol of two characters goes before one of a single character. -/
def readLexeme (c : Char) (rest : List Char) : Reading :=
  if c.isDigit then readNumber (c :: rest)
  else if c = '"' ∨ c = '\'' then readText c rest
  else if c = '<' ∧ rest.head? = some '@' then readSelector rest
  else match pairAhead? c rest with
    | some (mark, after) => .lexeme (.symbol mark) after
    | none =>
        if isWordChar c then readWord (c :: rest)
        else match Symbol.single? c with
          | some mark => .lexeme (.symbol mark) rest
          | none => .stray

/-! ## Every lexeme takes at least one character -/

theorem length_dropWhile_le (p : Char → Bool) (text : List Char) :
    (text.dropWhile p).length ≤ text.length := by
  have whole := congrArg List.length (List.takeWhile_append_dropWhile (p := p) (l := text))
  simp only [List.length_append] at whole
  omega

theorem length_dropWhile_cons_lt {p : Char → Bool} {c : Char} (holds : p c)
    (rest : List Char) : ((c :: rest).dropWhile p).length < (c :: rest).length := by
  have shorter := length_dropWhile_le p rest
  simp only [List.dropWhile_cons, holds, if_true, List.length_cons]
  omega

theorem cut?_length_lt {stop : Char} {text before after : List Char}
    (found : cut? stop text = some (before, after)) : after.length < text.length := by
  have shorter := length_dropWhile_le (· != stop) text
  unfold cut? at found
  split at found
  · contradiction
  · rename_i c tail equal
    simp only [Option.some.injEq, Prod.mk.injEq] at found
    rw [equal, List.length_cons, found.2] at shorter
    omega

theorem readNumber_length_lt {c : Char} {rest after : List Char} {lexeme : Lexeme}
    (digit : c.isDigit) (read : readNumber (c :: rest) = .lexeme lexeme after) :
    after.length < (c :: rest).length := by
  have whole := length_dropWhile_cons_lt digit rest
  unfold readNumber at read
  dsimp only at read
  split at read
  · rename_i tail equal
    have fraction := length_dropWhile_le Char.isDigit tail
    rw [equal, List.length_cons] at whole
    split at read
    · contradiction
    · split at read
      · contradiction
      · injection read with _ same
        subst same
        omega
  · injection read with _ same
    subst same
    exact whole

theorem pairAhead?_length_lt {c : Char} {rest after : List Char} {mark : Symbol}
    (ahead : pairAhead? c rest = some (mark, after)) : after.length < rest.length := by
  cases rest with
  | nil => contradiction
  | cons d tail =>
    obtain ⟨_, _, equal⟩ := Option.map_eq_some_iff.1 ahead
    have same : tail = after := congrArg Prod.snd equal
    simp [same]

theorem readLexeme_length_lt {c : Char} {rest after : List Char} {lexeme : Lexeme}
    (read : readLexeme c rest = .lexeme lexeme after) :
    after.length < (c :: rest).length := by
  unfold readLexeme at read
  split at read
  · rename_i digit
    exact readNumber_length_lt digit read
  split at read
  · unfold readText at read
    split at read
    · rename_i found
      injection read with _ same
      subst same
      exact Nat.lt_succ_of_lt (cut?_length_lt found)
    · contradiction
  split at read
  · unfold readSelector at read
    split at read
    · rename_i found
      injection read with _ same
      subst same
      exact Nat.lt_succ_of_lt (cut?_length_lt found)
    · contradiction
  split at read
  · rename_i ahead
    injection read with _ same
    subst same
    exact Nat.lt_succ_of_lt (pairAhead?_length_lt ahead)
  split at read
  · rename_i letter
    injection read with _ same
    subst same
    exact length_dropWhile_cons_lt letter rest
  split at read
  · injection read with _ same
    subst same
    exact Nat.lt_succ_self _
  · contradiction

end BlockScript
