import BlockScript.Token.Reading

/-!
# The lexer

A `Cursor` is a place in a source: the text from there on, and the number of bytes before it.
`Cursor.scan` passes over the gap at the cursor and reads the token behind it; it answers at
every place, also behind an error and at the end. A `Lexer` adds to the cursor whether its
stream of tokens has ended, which it does for good after the end of the input and after the
first error. `tokenize` is the whole stream.
-/

namespace BlockScript

/-- A place in a source. -/
structure Cursor where
  rest : List Char
  offset : Nat
  deriving Repr, DecidableEq, Inhabited

/-- Characters that do nothing but separate tokens. -/
def isBlank (c : Char) : Bool := c == ' ' || c == '\t' || c == '\n' || c == '\r'

namespace Cursor

/-- The start of a source. -/
def ofSource (source : String) : Cursor := ⟨source.toList, 0⟩

/-- Passes over blanks and comments, which run from one `#` to the next. In a comment,
`opened?` is the offset of its first `#`. A comment that is never closed gives the span from
there to the end of the source. -/
def pastGap (opened? : Option Nat) : List Char → Nat → Except Span Cursor
  | [], offset =>
      match opened? with
      | none => .ok ⟨[], offset⟩
      | some start => .error ⟨start, offset⟩
  | c :: rest, offset =>
      match opened? with
      | some start =>
          pastGap (if c = '#' then none else some start) rest (offset + c.utf8Size)
      | none =>
          if isBlank c then pastGap none rest (offset + c.utf8Size)
          else if c = '#' then pastGap (some offset) rest (offset + c.utf8Size)
          else .ok ⟨c :: rest, offset⟩

/-- The token that a reading at `offset` makes, and the place behind it. -/
def afterReading (c : Char) (rest : List Char) (offset : Nat) :
    Reading → Except Fault Token × Cursor
  | .lexeme lexeme after =>
      (.ok ⟨lexeme, lexeme.spanAt offset⟩, ⟨after, offset + lexeme.width⟩)
  | .malformed cause covered after =>
      let stop := offset + utf8Size covered
      (.error ⟨cause, ⟨offset, stop⟩⟩, ⟨after, stop⟩)
  | .stray =>
      (.error ⟨.strayCharacter, ⟨offset, offset + c.utf8Size⟩⟩, ⟨c :: rest, offset⟩)

/-- Reads the next token, and moves to the place behind it. -/
def scan (cursor : Cursor) : Except Fault Token × Cursor :=
  match pastGap none cursor.rest cursor.offset with
  | .error span => (.error ⟨.unclosedComment, span⟩, ⟨[], span.stop⟩)
  | .ok ⟨[], offset⟩ => (.ok (.finish offset), ⟨[], offset⟩)
  | .ok ⟨c :: rest, offset⟩ => afterReading c rest offset (readLexeme c rest)

theorem pastGap_length_le {opened? : Option Nat} {text : List Char} {offset : Nat}
    {place : Cursor} (past : pastGap opened? text offset = .ok place) :
    place.rest.length ≤ text.length := by
  induction text generalizing opened? offset with
  | nil => cases opened? <;> cases past; simp
  | cons c rest ih =>
    unfold pastGap at past
    split at past
    · exact Nat.le_succ_of_le (ih past)
    · split at past
      · exact Nat.le_succ_of_le (ih past)
      · split at past
        · exact Nat.le_succ_of_le (ih past)
        · cases past
          simp

/-- A token other than the end leaves less text behind it. -/
theorem scan_length_lt {cursor place : Cursor} {token : Token}
    (scanned : cursor.scan = (.ok token, place)) (inner : token.kind ≠ .finish) :
    place.rest.length < cursor.rest.length := by
  unfold scan at scanned
  split at scanned
  · simp at scanned
  · simp only [Prod.mk.injEq, Except.ok.injEq] at scanned
    exact absurd (congrArg (·.kind) scanned.1.symm) inner
  · rename_i c rest offset past
    have shorter := pastGap_length_le past
    unfold afterReading at scanned
    split at scanned
    · rename_i read
      have less := readLexeme_length_lt read
      simp only [Prod.mk.injEq] at scanned
      rw [← scanned.2]
      exact Nat.lt_of_lt_of_le less shorter
    · simp at scanned
    · simp at scanned

/-- The tokens from a place to the end of the input, or the first error. -/
def tokens (cursor : Cursor) : Except Fault (List Token) :=
  match _ : cursor.scan with
  | (.error fault, _) => .error fault
  | (.ok token, place) =>
      if _ : token.kind = .finish then .ok [token]
      else (place.tokens).map (token :: ·)
termination_by cursor.rest.length
decreasing_by exact scan_length_lt ‹_› ‹_›

end Cursor

/-- The tokens of a source; the last one, and no other, is the end of the input. -/
def tokenize (source : String) : Except Fault (List Token) := (Cursor.ofSource source).tokens

/-- A stream of tokens over a source. -/
structure Lexer where
  cursor : Cursor
  ended : Bool
  deriving Repr, DecidableEq, Inhabited

namespace Lexer

/-- The stream at the start of a source. -/
def ofSource (source : String) : Lexer := ⟨.ofSource source, false⟩

/-- Reads the next token whether or not the stream has ended, and without ending it. -/
def read (lexer : Lexer) : Except Fault Token × Lexer :=
  let (result, place) := lexer.cursor.scan
  (result, { lexer with cursor := place })

/-- Whether a result is the last one of a stream. -/
def isLast : Except Fault Token → Bool
  | .ok token => token.kind == .finish
  | .error _ => true

/-- Reads the next token of the stream, if it has not ended. -/
def next (lexer : Lexer) : Option (Except Fault Token) × Lexer :=
  if lexer.ended then (none, lexer)
  else
    let (result, place) := lexer.cursor.scan
    (some result, ⟨place, isLast result⟩)

/-- The stream without its first `count` results. -/
def drop (lexer : Lexer) : Nat → Lexer
  | 0 => lexer
  | count + 1 => (lexer.next.2).drop count

/-- The tokens that the stream still has, or the error that ends it. -/
def collect (lexer : Lexer) : Except Fault (List Token) :=
  if lexer.ended then .ok [] else lexer.cursor.tokens

end Lexer

end BlockScript
