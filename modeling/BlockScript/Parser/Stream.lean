import BlockScript.Fault

/-!
# Token streams and parsers

A `Stream` is what is left of a token list: the tokens before the end of the input, where that
end is, and the span of the token that was taken last. Tokens behind the first end of input
never matter. A `Parser` takes tokens off the front and gives a result or a fault; in both
cases the stream that it leaves is known, and a failed parser leaves the stream where it
failed.
-/

namespace BlockScript

/-- The tokens that are still to be parsed. -/
structure Stream where
  /-- The tokens before the end of the input. -/
  rest : List Token
  /-- The span of the end of the input. -/
  finish : Span
  /-- The span of the token taken last. -/
  last : Span
  deriving Repr, DecidableEq, Inhabited

namespace Stream

/-- Whether a token stands before the end of the input. -/
def isInner (token : Token) : Bool := token.kind != .finish

/-- Where the input ends: at its first token that says so, or else behind its last token. -/
def finishOf (tokens : List Token) : Span :=
  match tokens.find? (fun token => !isInner token) with
  | some token => token.span
  | none => .point ((tokens.getLast?.map (·.span.stop)).getD 0)

/-- The stream over a token list. -/
def ofTokens (tokens : List Token) : Stream :=
  ⟨tokens.takeWhile isInner, finishOf tokens, .point 0⟩

/-- The category of the next token. -/
def kind (stream : Stream) : Kind :=
  match stream.rest with
  | [] => .finish
  | token :: _ => token.kind

/-- The span of the next token. -/
def span (stream : Stream) : Span :=
  match stream.rest with
  | [] => stream.finish
  | token :: _ => token.span

/-- The next token as messages name it. -/
def found (stream : Stream) : Found :=
  match stream.rest with
  | [] => .finish
  | token :: _ => token.found

/-- The stream behind the next token; the end of the input is never passed. -/
def tail (stream : Stream) : Stream :=
  match stream.rest with
  | [] => stream
  | token :: rest => { stream with rest, last := token.span }

end Stream

/-- A parser of an `α`: it changes the stream, and may fail. -/
abbrev Parser := EStateM Fault Stream

namespace Parser

variable {α : Type}

/-- The category of the next token. -/
def peek : Parser Kind := fun stream => .ok stream.kind stream

/-- The span of the next token. -/
def here : Parser Span := fun stream => .ok stream.span stream

/-- A bound on the number of tokens that can still be taken. -/
def remaining : Parser Nat := fun stream => .ok stream.rest.length stream

/-- Fails with `cause` at `span`. -/
def fail (cause : Cause) (span : Span) : Parser α := fun stream => .error ⟨cause, span⟩ stream

/-- Fails at the next token, for a cause that names it. -/
def blame (cause : Found → Cause) : Parser α := fun stream =>
  .error ⟨cause stream.found, stream.span⟩ stream

/-- Takes the next token, unless the input has ended. -/
def take? : Parser (Option Token) := fun stream => .ok stream.rest.head? stream.tail

/-- Passes over the next token. -/
def skip : Parser Unit := fun stream => .ok () stream.tail

/-- Takes the next token if it is of category `kind`. -/
def accept? (kind : Kind) : Parser (Option Token) := fun stream =>
  if stream.kind = kind then .ok stream.rest.head? stream.tail else .ok none stream

/-- Takes the token that `slot` calls for, and fails at any other. -/
def expect (slot : Slot) : Parser Token := fun stream =>
  match stream.rest with
  | [] => .error ⟨.expected slot .finish, stream.finish⟩ stream
  | token :: _ =>
      if token.kind = slot.kind then .ok token stream.tail
      else .error ⟨.expected slot token.found, token.span⟩ stream

/-- Items with commas between them up to the closing token, which may follow a comma. The
first argument bounds the number of items. -/
def itemsUpTo (item : Parser α) (comma close : Slot) : Nat → Parser (List α)
  | 0 => pure []
  | bound + 1 => do
      if (← peek) = close.kind then
        pure []
      else
        let first ← item
        if (← peek) = close.kind then
          pure [first]
        else
          let _ ← expect comma
          let others ← itemsUpTo item comma close bound
          pure (first :: others)

/-- Items with commas between them, and the closing token. -/
def items (item : Parser α) (comma close : Slot) : Parser (List α) := do
  let bound ← remaining
  let found ← itemsUpTo item comma close (bound + 1)
  let _ ← expect close
  pure found

/-- At least one item, and one more behind every comma. The first argument bounds the number
of commas. -/
def someItems (item : Parser α) : Nat → Parser (List α)
  | 0 => do
      let first ← item
      pure [first]
  | bound + 1 => do
      let first ← item
      match ← accept? Symbol.comma with
      | none => pure [first]
      | some _ =>
          let others ← someItems item bound
          pure (first :: others)

/-- Items that each end with a semicolon, up to a token at which `stops` holds. The first
argument bounds the number of items. -/
def statementsUpTo (item : Parser α) (stops : Kind → Bool) : Nat → Parser (List α)
  | 0 => pure []
  | bound + 1 => do
      if stops (← peek) then
        pure []
      else
        let first ← item
        let _ ← expect .afterStatement
        let others ← statementsUpTo item stops bound
        pure (first :: others)

end Parser

end BlockScript
