import BlockScript.Parser.Program

/-!
# Parsing sessions on a token buffer

The parsers work on a `Stream`, from which tokens behind the first end of the input, the index of
the next token and the number of open levels have been abstracted away. A `Session` keeps all three:
its buffer is any list of tokens, its `position` is an index into it, and `depth` counts the levels
that are open. A `Machine` reads tokens only by index and counts levels only by stepping `depth` up
and down, so that it can go wrong where a parser cannot: an index may be out of range, and a call or
a loop may go on for longer than the fuel that it was given.

The functions of this module follow those of the parser one by one. A function that opens a level or
that starts over for a right operand uses the `Calls` that it was given, which have less fuel.
-/

namespace BlockScript

/-- A buffer of tokens, and how far its parsing has come. -/
structure Session where
  buffer : List Token
  /-- The index of the next token. -/
  position : Nat
  /-- How many levels are open. -/
  depth : Nat
  deriving DecidableEq, Repr, Inhabited

namespace Session

/-- Whether a token list ends with an end of the input. -/
def isClosed (tokens : List Token) : Bool := tokens.getLast?.any (·.kind == .finish)

/-- The session over a token list. A missing end of the input is put behind the last token. -/
def ofTokens (tokens : List Token) : Session where
  buffer :=
    if isClosed tokens then tokens
    else tokens ++ [.finish ((tokens.getLast?.map (·.span.stop)).getD 0)]
  position := 0
  depth := 0

end Session

/-- What ends a machine before it has a result. -/
inductive Halt
  /-- The input is faulty. -/
  | fault (fault : Fault)
  /-- No token of the buffer has the index that was asked for. -/
  | outOfRange
  /-- A call or a loop took longer than it may. -/
  | outOfFuel
  deriving DecidableEq, Repr

/-- A parser of an `α` on a token buffer. A machine that halts keeps its session. -/
abbrev Machine := EStateM Halt Session

namespace Machine

variable {α : Type}

/-! ## Primitives -/

/-- Ends the session's current request. -/
def halt (reason : Halt) : Machine α := fun session => .error reason session

/-- The token with this index. -/
def tokenAt (index : Nat) : Machine Token := fun session =>
  match session.buffer[index]? with
  | some token => .ok token session
  | none => .error .outOfRange session

/-- The token `distance` places ahead, or else the last one of the buffer. -/
def ahead (distance : Nat) : Machine Token := fun session =>
  tokenAt (min (session.position + distance) (session.buffer.length - 1)) session

/-- The next token. -/
def current : Machine Token := ahead 0

/-- The category of the next token. -/
def peek : Machine Kind := do
  let token ← current
  pure token.kind

/-- The span of the next token. -/
def here : Machine Span := do
  let token ← current
  pure token.span

/-- Goes on to the next index. -/
def moveOn : Machine Unit := fun session =>
  .ok () { session with position := session.position + 1 }

/-- Takes the next token; an end of the input is not passed. -/
def take : Machine Token := do
  let token ← current
  if token.kind = .finish then
    pure token
  else
    moveOn
    pure token

/-- Passes over the next token. -/
def skip : Machine Unit := do
  let _ ← take
  pure ()

/-- The span of the token taken last. -/
def last : Machine Span := fun session =>
  match session.position with
  | 0 => .ok (.point 0) session
  | index + 1 => (do let token ← tokenAt index; pure token.span : Machine Span) session

/-- Fails with `cause` at `span`. -/
def fail (cause : Cause) (span : Span) : Machine α := halt (.fault ⟨cause, span⟩)

/-- Fails at the next token, for a cause that names it. -/
def blame (cause : Found → Cause) : Machine α := do
  let token ← current
  fail (cause token.found) token.span

/-- Takes the next token if it is of category `kind`. -/
def accept? (kind : Kind) : Machine (Option Token) := do
  let token ← current
  if token.kind = kind then
    let token ← take
    pure (some token)
  else
    pure none

/-- Takes the token that `slot` calls for, and fails at any other. -/
def expect (slot : Slot) : Machine Token := do
  let token ← current
  if token.kind = slot.kind then take else blame (.expected slot)

/-- Whether a `=` stands ahead in the statement. The scan starts at the next token, which must be
one of the buffer or the place behind it. -/
def equalsAhead : Machine Bool := fun session =>
  if session.position ≤ session.buffer.length then
    .ok (assignmentAhead 0 (session.buffer.drop session.position)) session
  else
    .error .outOfRange session

/-- Opens a level for `inside` and closes it again, whether `inside` succeeds or halts. -/
def nested (span : Span) (inside : Machine α) : Machine α := fun session =>
  if nestingLimit ≤ session.depth then
    .error (.fault ⟨.tooDeep nestingLimit, span⟩) session
  else
    match inside { session with depth := session.depth + 1 } with
    | .ok value left => .ok value { left with depth := left.depth - 1 }
    | .error reason left => .error reason { left with depth := left.depth - 1 }

/-! ## Loops -/

/-- Items with commas between them up to the closing token, which may follow a comma. -/
def itemsUpTo (item : Machine α) (comma close : Slot) : Nat → Machine (List α)
  | 0 => halt .outOfFuel
  | rounds + 1 => do
      if (← peek) = close.kind then
        pure []
      else
        let first ← item
        if (← peek) = close.kind then
          pure [first]
        else
          let _ ← expect comma
          let others ← itemsUpTo item comma close rounds
          pure (first :: others)

/-- Items with commas between them, and the closing token. -/
def items (item : Machine α) (comma close : Slot) (rounds : Nat) : Machine (List α) := do
  let found ← itemsUpTo item comma close rounds
  let _ ← expect close
  pure found

/-- At least one item, and one more behind every comma. -/
def someItems (item : Machine α) : Nat → Machine (List α)
  | 0 => halt .outOfFuel
  | rounds + 1 => do
      let first ← item
      match ← accept? Symbol.comma with
      | none => pure [first]
      | some _ =>
          let others ← someItems item rounds
          pure (first :: others)

/-- Items that each end with a semicolon, up to a token at which `stops` holds. -/
def statementsUpTo (item : Machine α) (stops : Kind → Bool) : Nat → Machine (List α)
  | 0 => halt .outOfFuel
  | rounds + 1 => do
      if stops (← peek) then
        pure []
      else
        let first ← item
        let _ ← expect .afterStatement
        let others ← statementsUpTo item stops rounds
        pure (first :: others)

/-! ## Expressions -/

/-- What a machine can call, with the fuel that it has left. -/
structure Calls where
  expression : Nat → Machine Expr
  conditional : Machine Conditional
  statement : Machine Statement
  /-- How often a loop may go round. -/
  rounds : Nat

/-- The finite number that a number token stands for. -/
def finiteNumber (token : Token) : Machine Binary64 :=
  match Binary64.ofText? token.content.toList with
  | none => fail (.numberUnreadable token.found) token.span
  | some x => if x.isFinite then pure x else fail .numberTooLarge token.span

section
variable (calls : Calls)

/-- One entry of an object literal. -/
def entry : Machine (Entry Expr) := do
  let key ← calls.expression 0
  let _ ← expect .afterKey
  let value ← calls.expression 0
  pure ⟨key, value⟩

/-- The index of a member access and its closing bracket. -/
def memberIndex : Machine Expr := do
  let index ← calls.expression 0
  let _ ← expect .closeMember
  pure index

/-- A group up to its closing parenthesis. -/
def group : Machine Expr := do
  let expr ← calls.expression 0
  let _ ← expect .closeGroup
  pure expr

/-- The member accesses and selectors behind a value. Only a place can carry a selector. -/
def suffixes : Nat → Expr → Machine Expr
  | 0, _ => halt .outOfFuel
  | rounds + 1, value => do
      match ← accept? Symbol.openBracket with
      | some opening =>
          let index ← nested opening.span (memberIndex calls)
          suffixes rounds (.member value index)
      | none =>
          if value.isPlace then
            match ← accept? .selector with
            | some token => suffixes rounds (.selected value token.content)
            | none => pure value
          else
            pure value

/-- A name or a call of it, and the suffixes behind. -/
def access (name : String) : Machine Expr := do
  match ← accept? Symbol.openParen with
  | some opening =>
      let arguments ← nested opening.span
        (items (calls.expression 0) .betweenArguments .closeArguments calls.rounds)
      suffixes calls calls.rounds (.call name arguments)
  | none => suffixes calls calls.rounds (.name name)

/-- The value that starts with this token. -/
def valueAfter (token : Token) : Machine Expr :=
  match token.kind with
  | .number => do
      let x ← finiteNumber token
      pure (.number x)
  | .text => pure (.text token.content)
  | .selector => pure (.selector token.content)
  | .identifier => access calls token.content
  | .symbol .openBracket => do
      let elements ← nested token.span
        (items (calls.expression 0) .betweenElements .closeArray calls.rounds)
      pure (.array elements)
  | .symbol .openCurly => do
      let entries ← nested token.span
        (items (entry calls) .betweenEntries .closeObject calls.rounds)
      pure (.object entries)
  | kind =>
      if kind.isPending then fail (.pending token.content) token.span
      else fail (.unexpected token.found) token.span

/-- A literal, an access, an array or an object. -/
def value : Machine Expr := do
  let token ← take
  valueAfter calls token

/-- An operand of a binary operator: a group or a value. -/
def operand : Machine Expr := do
  match ← accept? Symbol.openParen with
  | some opening => nested opening.span (group calls)
  | none => value calls

/-- Folds the operators of precedence `least` or higher onto the operand on their left. -/
def climb (least : Nat) : Nat → Expr → Machine Expr
  | 0, _ => halt .outOfFuel
  | rounds + 1, left => do
      match Operator.ofKind? (← peek) with
      | none => pure left
      | some operator =>
          if operator.precedence < least then
            pure left
          else
            skip
            let right ← calls.expression (operator.precedence + 1)
            climb least rounds (.binary operator left right)

/-- An expression whose outermost operators have precedence `least` or higher. -/
def expression (least : Nat) : Machine Expr := do
  let first ← operand calls
  climb calls least calls.rounds first

/-! ## Statements -/

/-- The statements of a block and its closing brace. -/
def blockBody : Machine Block := do
  let body ← statementsUpTo calls.statement Parser.endsBlock calls.rounds
  let _ ← expect .closeBlock
  pure body

/-- A block. -/
def block : Machine Block := do
  let opening ← expect .openBlock
  nested opening.span (blockBody calls)

/-- An assignment operator. -/
def assignOperator : Machine AssignOperator := do
  match ← accept? Symbol.equals with
  | some _ => pure .assign
  | none =>
      match AssignOperator.ofKind? (← peek) with
      | none => blame .expectedAssignment
      | some operator =>
          let second ← ahead 1
          if second.kind = Symbol.equals then
            skip
            skip
            pure operator
          else
            blame .expectedAssignment

/-- An assignment. A target that is no place is blamed as a whole. -/
def assignment : Machine Assignment := do
  let first ← here
  let target ← value calls
  if target.isPlace then
    let operator ← assignOperator
    let value ← expression calls 0
    pure ⟨target, operator, value⟩
  else
    let final ← last
    fail .notAssignable (first.merge final)

/-- A declaration, from its keyword on. The keyword is blamed for a wrong shape. -/
def declaration (scope : Scope) : Machine Statement := do
  let keyword ← here
  skip
  match ← value calls with
  | .name name =>
      if (← peek) = Symbol.equals then
        if scope.needsValue then
          skip
          let value ← expression calls 0
          pure (.declaration scope name (some value))
        else
          fail .localWithValue keyword
      else if scope.needsValue then
        fail (.missingValue scope) keyword
      else
        pure (.declaration scope name none)
  | _ => fail .declaredNoName keyword

/-- A parameter of a function. -/
def parameter : Machine String := do
  let token ← expect .parameter
  pure token.content

/-- A function, from its keyword on. -/
def function : Machine Statement := do
  skip
  let name ← expect .functionName
  let _ ← expect .openParameters
  let parameters ← items parameter .betweenParameters .closeParameters calls.rounds
  let body ← block calls
  pure (.function name.content parameters body)

/-- A `return`, from its keyword on. -/
def returning : Machine Statement := do
  skip
  if Parser.endsReturn (← peek) then
    pure (.returning [])
  else
    let values ← someItems (expression calls 0) calls.rounds
    pure (.returning values)

/-- A chain of conditions, from its `if` or `elif` on. -/
def conditional : Machine Conditional := do
  skip
  let condition ← expression calls 0
  let body ← block calls
  match ← peek with
  | .keyword .elif =>
      let next ← nested (← here) calls.conditional
      pure (.elif condition body next)
  | .keyword .else_ =>
      skip
      let other ← block calls
      pure (.otherwise condition body other)
  | _ => pure (.only condition body)

/-- The variable of a loop over items: a name in front of `in`. -/
def eachVariable? : Machine (Option String) := do
  let token ← current
  if token.kind = .identifier then
    let second ← ahead 1
    if second.kind = Keyword.in_ then
      pure (some token.content)
    else
      pure none
  else
    pure none

/-- A loop over the items of a value, from its variable on. -/
def each (name : String) : Machine Statement := do
  skip
  skip
  let collection ← expression calls 0
  let body ← block calls
  pure (.each name collection body)

/-- A loop with a condition, from its start on. -/
def loop : Machine Statement := do
  let start ← assignment calls
  let _ ← expect .afterLoopStart
  let step ← nested (← here) calls.statement
  let _ ← expect .afterLoopStep
  let condition ← expression calls 0
  let body ← block calls
  pure (.loop start step condition body)

/-- A loop of either form, from its keyword on. -/
def loopOrEach : Machine Statement := do
  skip
  match ← eachVariable? with
  | some name => each calls name
  | none => loop calls

/-- One end of a fixed range. -/
def rangeBound (bound : Bound) : Machine Binary64 := do
  match ← accept? .number with
  | some token => finiteNumber token
  | none => blame (.boundNotNumber bound)

/-- A loop over a fixed range, from its keyword on. -/
def range : Machine Statement := do
  skip
  let start ← rangeBound .start
  let _ ← expect .afterRangeStart
  let stop ← rangeBound .stop
  let _ ← expect .afterRangeStop
  let name ← expect .rangeVariable
  let body ← block calls
  pure (.range start stop name.content body)

/-- An assignment or an expression. -/
def assignmentOrExpression : Machine Statement := do
  if ← equalsAhead then
    let assignment ← assignment calls
    pure (.assignment assignment)
  else
    let expr ← expression calls 0
    pure (.expression expr)

/-- A statement, without the semicolon behind it. -/
def statement : Machine Statement := do
  match ← peek with
  | .keyword .function => function calls
  | .keyword .return_ => returning calls
  | .keyword .if_ => do
      let chain ← conditional calls
      pure (.conditional chain)
  | .keyword .global => declaration calls .global
  | .keyword .local_ => declaration calls .local_
  | .keyword .var => declaration calls .var
  | .keyword .for_ => loopOrEach calls
  | .keyword .hardcode => range calls
  | _ => assignmentOrExpression calls

/-- Statements up to the end of the input. -/
def program : Machine Program :=
  statementsUpTo (statement calls) (· == .finish) calls.rounds

end

/-- The calls that `fuel` allows. -/
def Calls.ofFuel : Nat → Calls
  | 0 =>
      { expression := fun _ => halt .outOfFuel
        conditional := halt .outOfFuel
        statement := halt .outOfFuel
        rounds := 0 }
  | fuel + 1 =>
      { expression := Machine.expression (ofFuel fuel)
        conditional := Machine.conditional (ofFuel fuel)
        statement := Machine.statement (ofFuel fuel)
        rounds := fuel + 1 }

/-- The result of a machine, and the session that it leaves. -/
def runOn (machine : Machine α) (session : Session) : Except Halt α × Session :=
  match machine session with
  | .ok value left => (.ok value, left)
  | .error reason left => (.error reason, left)

end Machine

/-- The machine that answers a request. -/
def Request.machine (calls : Machine.Calls) : Request → Machine Parsed
  | .program => Parsed.program <$> Machine.program calls
  | .statement => Parsed.statement <$> Machine.statement calls
  | .expression least => Parsed.expression <$> Machine.expression calls least

namespace Session

/-- Answers one request, with calls and loops that end after `fuel` steps. -/
def step (fuel : Nat) (request : Request) (session : Session) : Except Halt Parsed × Session :=
  Machine.runOn (request.machine (.ofFuel fuel)) session

/-- The session behind a list of requests, some of which may have failed. -/
def after (fuel : Nat) (requests : List Request) (session : Session) : Session :=
  requests.foldl (fun session request => (session.step fuel request).2) session

/-- The answers to requests, one after the other on one session. -/
def answers (fuel : Nat) : List Request → Session → List (Except Halt Parsed)
  | [], _ => []
  | request :: others, session =>
      let (answer, left) := session.step fuel request
      answer :: answers fuel others left

end Session

end BlockScript
