import BlockScript.Parser.Statement
import BlockScript.Token.Lexer

/-!
# Parsing programs

`Level.ofRoom` ties the parsers of all levels together, one inside the other. `parseTokens`
parses a token list as a program, `parse` a source. A list of requests can also be put to one
stream, each going on where the one before it stopped, whether it succeeded or failed.
-/

namespace BlockScript

namespace Level

/-- The level with these levels inside it. -/
def ofNesting (nesting : Nesting) : Level where
  expression := Parser.expression nesting
  conditional := Parser.conditional nesting
  statement := Parser.statement nesting

/-- The level in which `room` more levels can be opened, of `limit` in all. -/
def ofRoom (limit : Nat) : Nat → Level
  | 0 => ofNesting ⟨limit, none⟩
  | room + 1 => ofNesting ⟨limit, some (ofRoom limit room)⟩

/-- The level of a program, in which no level is open. -/
def outermost (limit : Nat) : Level := ofRoom limit limit

end Level

/-- How many brackets, blocks, `elif` links and loop steps may enclose each other. -/
def nestingLimit : Nat := 64

/-- Statements up to the end of the input. -/
def Parser.program (level : Level) : Parser Program := do
  statementsUpTo level.statement (· == .finish) (← remaining)

/-- What can be asked of a stream. -/
inductive Request
  | program
  | statement
  /-- An expression whose outermost operators have at least this precedence. -/
  | expression (least : Nat)
  deriving DecidableEq, Repr, Inhabited

/-- What a stream gives to a request. -/
inductive Parsed
  | program (program : Program)
  | statement (statement : Statement)
  | expression (expr : Expr)
  deriving Inhabited

/-- The parser that answers a request. -/
def Request.parser (level : Level) : Request → Parser Parsed
  | .program => Parsed.program <$> Parser.program level
  | .statement => Parsed.statement <$> level.statement
  | .expression least => Parsed.expression <$> level.expression least

namespace Parser

/-- The result of a parser, and the stream that it leaves. -/
def runOn {α : Type} (parser : Parser α) (stream : Stream) : Except Fault α × Stream :=
  match parser stream with
  | .ok value left => (.ok value, left)
  | .error fault left => (.error fault, left)

/-- Answers requests one after the other on one stream. -/
def answers (level : Level) : List Request → Stream → List (Except Fault Parsed)
  | [], _ => []
  | request :: others, stream =>
      let (answer, left) := runOn (request.parser level) stream
      answer :: answers level others left

end Parser

/-- Parses a token list as a program, with at most `limit` levels open at once. -/
def parseTokensWithin (limit : Nat) (tokens : List Token) : Except Fault Program :=
  (Parser.runOn (.program (.outermost limit)) (.ofTokens tokens)).1

/-- Parses a token list as a program. -/
def parseTokens (tokens : List Token) : Except Fault Program :=
  parseTokensWithin nestingLimit tokens

/-- Parses a source as a program. The first fault, lexical or grammatical, ends it. -/
def parse (source : String) : Except Fault Program := do
  parseTokens (← tokenize source)

end BlockScript
