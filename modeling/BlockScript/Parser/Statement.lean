import BlockScript.Parser.Expression

/-!
# Parsing statements

The keyword at its front tells what a statement is. Without one it is an assignment or an
expression, and `assignmentAhead` tells which before anything is taken. The bodies of blocks,
the links of a chain of conditions and the step of a loop are parsed at the level inside.
-/

namespace BlockScript

/-- Whether a `=` stands ahead in the statement. The statement ends at its semicolon, or at a
block or a `while` outside all parentheses and brackets; `depth` of them are open. -/
def assignmentAhead (depth : Nat) : List Token → Bool
  | [] => false
  | token :: rest =>
      match token.kind with
      | .symbol .equals => true
      | .symbol .semicolon | .finish => false
      | .symbol .openParen | .symbol .openBracket => assignmentAhead (depth + 1) rest
      | .symbol .closeParen | .symbol .closeBracket => assignmentAhead (depth - 1) rest
      | .symbol .openCurly | .keyword .while_ =>
          if depth = 0 then false else assignmentAhead depth rest
      | _ => assignmentAhead depth rest

namespace Parser

/-- Whether a block ends here, closed or not. -/
def endsBlock (kind : Kind) : Bool := kind == Symbol.closeCurly || kind == .finish

/-- Whether a `return` has no values here. -/
def endsReturn (kind : Kind) : Bool := kind == Symbol.semicolon || endsBlock kind

/-- The statements of a block and its closing brace. -/
def blockBody (level : Level) : Parser Block := do
  let body ← statementsUpTo level.statement endsBlock (← remaining)
  let _ ← expect .closeBlock
  pure body

/-- A block. -/
def block (nesting : Nesting) : Parser Block := do
  let opening ← expect .openBlock
  nesting.enter opening.span blockBody

/-- An assignment operator. -/
def assignOperator : Parser AssignOperator := do
  match ← accept? Symbol.equals with
  | some _ => pure .assign
  | none =>
      match AssignOperator.ofKind? (← peek) with
      | none => blame .expectedAssignment
      | some operator =>
          if (← get).tail.kind = Symbol.equals then
            skip
            skip
            pure operator
          else
            blame .expectedAssignment

/-- An assignment. A target that is no place is blamed as a whole. -/
def assignment (nesting : Nesting) : Parser Assignment := do
  let first ← here
  let target ← value nesting
  if target.isPlace then
    let operator ← assignOperator
    let value ← expression nesting 0
    pure ⟨target, operator, value⟩
  else
    fail .notAssignable (first.merge (← get).last)

/-- A declaration, from its keyword on. The keyword is blamed for a wrong shape. -/
def declaration (nesting : Nesting) (scope : Scope) : Parser Statement := do
  let keyword ← here
  skip
  match ← value nesting with
  | .name name =>
      if (← peek) = Symbol.equals then
        if scope.needsValue then
          skip
          let value ← expression nesting 0
          pure (.declaration scope name (some value))
        else
          fail .localWithValue keyword
      else if scope.needsValue then
        fail (.missingValue scope) keyword
      else
        pure (.declaration scope name none)
  | _ => fail .declaredNoName keyword

/-- A parameter of a function. -/
def parameter : Parser String := do
  let token ← expect .parameter
  pure token.content

/-- A function, from its keyword on. -/
def function (nesting : Nesting) : Parser Statement := do
  skip
  let name ← expect .functionName
  let _ ← expect .openParameters
  let parameters ← items parameter .betweenParameters .closeParameters
  let body ← block nesting
  pure (.function name.content parameters body)

/-- A `return`, from its keyword on. -/
def returning (nesting : Nesting) : Parser Statement := do
  skip
  if endsReturn (← peek) then
    pure (.returning [])
  else
    let values ← someItems (expression nesting 0) (← remaining)
    pure (.returning values)

/-- A chain of conditions, from its `if` or `elif` on. -/
def conditional (nesting : Nesting) : Parser Conditional := do
  skip
  let condition ← expression nesting 0
  let body ← block nesting
  match ← peek with
  | .keyword .elif =>
      let next ← nesting.enter (← here) Level.conditional
      pure (.elif condition body next)
  | .keyword .else_ =>
      skip
      let other ← block nesting
      pure (.otherwise condition body other)
  | _ => pure (.only condition body)

/-- A loop over the items of a value, from its variable on. -/
def each (nesting : Nesting) (name : String) : Parser Statement := do
  skip
  skip
  let collection ← expression nesting 0
  let body ← block nesting
  pure (.each name collection body)

/-- A loop with a condition, from its start on. -/
def loop (nesting : Nesting) : Parser Statement := do
  let start ← assignment nesting
  let _ ← expect .afterLoopStart
  let step ← nesting.enter (← here) Level.statement
  let _ ← expect .afterLoopStep
  let condition ← expression nesting 0
  let body ← block nesting
  pure (.loop start step condition body)

/-- The variable of a loop over items: a name in front of `in`. -/
def eachVariable? (stream : Stream) : Option String :=
  match stream.rest with
  | token :: _ =>
      if token.kind = .identifier ∧ stream.tail.kind = Keyword.in_ then some token.content
      else none
  | [] => none

/-- A loop of either form, from its keyword on. -/
def loopOrEach (nesting : Nesting) : Parser Statement := do
  skip
  match eachVariable? (← get) with
  | some name => each nesting name
  | none => loop nesting

/-- One end of a fixed range. -/
def rangeBound (bound : Bound) : Parser Binary64 := do
  match ← accept? .number with
  | some token => finiteNumber token
  | none => blame (.boundNotNumber bound)

/-- A loop over a fixed range, from its keyword on. -/
def range (nesting : Nesting) : Parser Statement := do
  skip
  let start ← rangeBound .start
  let _ ← expect .afterRangeStart
  let stop ← rangeBound .stop
  let _ ← expect .afterRangeStop
  let name ← expect .rangeVariable
  let body ← block nesting
  pure (.range start stop name.content body)

/-- An assignment or an expression. -/
def assignmentOrExpression (nesting : Nesting) : Parser Statement := do
  if assignmentAhead 0 (← get).rest then
    let assignment ← assignment nesting
    pure (.assignment assignment)
  else
    let expr ← expression nesting 0
    pure (.expression expr)

/-- A statement, without the semicolon behind it. -/
def statement (nesting : Nesting) : Parser Statement := do
  match ← peek with
  | .keyword .function => function nesting
  | .keyword .return_ => returning nesting
  | .keyword .if_ => do
      let chain ← conditional nesting
      pure (.conditional chain)
  | .keyword .global => declaration nesting .global
  | .keyword .local_ => declaration nesting .local_
  | .keyword .var => declaration nesting .var
  | .keyword .for_ => loopOrEach nesting
  | .keyword .hardcode => range nesting
  | _ => assignmentOrExpression nesting

end Parser

end BlockScript
