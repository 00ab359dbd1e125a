import BlockScript.Token.Basic
import BlockScript.Tree.Scope

/-!
# Faults

A `Fault` is the first thing that is wrong with a program, at the span that it blames. What
went wrong is a `Cause`: a value and not a sentence, so that statements about faults never
look at texts. `Cause.message` is the only place where the sentences are written. A
`Diagnostic` is a fault ready to be shown; it may also be built by hand with any text.
-/

namespace BlockScript

/-- What a fault is about. -/
inductive Category
  /-- The text is malformed, lexically or grammatically. -/
  | syntaxError
  /-- The construct is known and cannot be parsed yet. -/
  | notYetSupported
  deriving DecidableEq, Repr, Inhabited

/-- The category's name in reports. -/
def Category.name : Category → String
  | syntaxError => "SyntaxError"
  | notYetSupported => "NotYetSupported"

/-- The token that was met where something else was needed. -/
inductive Found
  | token (text : String)
  | finish
  deriving DecidableEq, Repr, Inhabited

/-- The token's text in quotes, or the end of the input in words. -/
def Found.describe : Found → String
  | token text => "\"" ++ text ++ "\""
  | finish => "end of input"

/-- What was met, when it was this token. -/
def Token.found (token : Token) : Found :=
  if token.kind = .finish then .finish else .token token.content

/-- The places of the grammar where exactly one category of token may stand. -/
inductive Slot
  | afterStatement
  | openBlock | closeBlock
  | functionName | openParameters | parameter | betweenParameters | closeParameters
  | afterLoopStart | afterLoopStep
  | afterRangeStart | afterRangeStop | rangeVariable
  | closeGroup
  | closeMember
  | betweenArguments | closeArguments
  | betweenElements | closeArray
  | afterKey | betweenEntries | closeObject
  deriving DecidableEq, Repr, Inhabited

namespace Slot

/-- The category that the place calls for. -/
def kind : Slot → Kind
  | afterStatement => Symbol.semicolon
  | openBlock => Symbol.openCurly
  | closeBlock => Symbol.closeCurly
  | functionName => .identifier
  | openParameters => Symbol.openParen
  | parameter => .identifier
  | betweenParameters => Symbol.comma
  | closeParameters => Symbol.closeParen
  | afterLoopStart => Keyword.with_
  | afterLoopStep => Keyword.while_
  | afterRangeStart => Keyword.to_
  | afterRangeStop => Keyword.as
  | rangeVariable => .identifier
  | closeGroup => Symbol.closeParen
  | closeMember => Symbol.closeBracket
  | betweenArguments => Symbol.comma
  | closeArguments => Symbol.closeParen
  | betweenElements => Symbol.comma
  | closeArray => Symbol.closeBracket
  | afterKey => Symbol.colon
  | betweenEntries => Symbol.comma
  | closeObject => Symbol.closeCurly

/-- Where the place is, as the end of a sentence. -/
def phrase : Slot → String
  | afterStatement => "after statement"
  | openBlock => "to open a block"
  | closeBlock => "to close the block"
  | functionName => "for the function name"
  | openParameters => "after the function name"
  | parameter => "for a parameter name"
  | betweenParameters => "between parameters"
  | closeParameters => "after the parameters"
  | afterLoopStart => "after the loop initializer"
  | afterLoopStep => "before the loop condition"
  | afterRangeStart => "after the hardcode start"
  | afterRangeStop => "after the hardcode stop"
  | rangeVariable => "for the loop variable"
  | closeGroup => "to close the parenthesis"
  | closeMember => "to close the member access"
  | betweenArguments => "between arguments"
  | closeArguments => "to close the argument list"
  | betweenElements => "between array elements"
  | closeArray => "to close the array"
  | afterKey => "after object key"
  | betweenEntries => "between object properties"
  | closeObject => "to close the object"

/-- What the place calls for, as a noun phrase. -/
def describe (slot : Slot) : String := slot.kind.describe ++ " " ++ slot.phrase

end Slot

/-- The two ends of a loop over a fixed range. -/
inductive Bound
  | start | stop
  deriving DecidableEq, Repr, Inhabited

/-- The end's name in messages. -/
def Bound.name : Bound → String
  | start => "start"
  | stop => "stop"

/-- Everything that can be wrong with a program. -/
inductive Cause
  /-- A `#` has no partner. -/
  | unclosedComment
  /-- An opening quote has no partner. -/
  | unclosedText
  /-- A selector has no `>`. -/
  | unclosedSelector
  /-- A number ends with its dot. -/
  | trailingDot
  /-- A number has two dots. -/
  | secondDot
  /-- No lexeme starts with this character. -/
  | strayCharacter
  /-- The place calls for something else. -/
  | expected (slot : Slot) (found : Found)
  /-- The target of an assignment is followed by no assignment operator. -/
  | expectedAssignment (found : Found)
  /-- No value starts with this token. -/
  | unexpected (found : Found)
  /-- A declaration names something that is no identifier. -/
  | declaredNoName
  /-- A `local` declaration has an initial value. -/
  | localWithValue
  /-- A declaration lacks its initial value. -/
  | missingValue (scope : Scope)
  /-- The left side of an assignment is no place. -/
  | notAssignable
  /-- An end of a fixed range is no number. -/
  | boundNotNumber (bound : Bound) (found : Found)
  /-- A number is beyond the largest finite double. -/
  | numberTooLarge
  /-- The text of a number token reads as no number. -/
  | numberUnreadable (found : Found)
  /-- More than `limit` levels would be open. -/
  | tooDeep (limit : Nat)
  /-- A reserved word that cannot be parsed yet. -/
  | pending (text : String)
  deriving DecidableEq, Repr, Inhabited

namespace Cause

/-- The category of a cause: only a pending word is not an error of the program. -/
def category : Cause → Category
  | pending _ => .notYetSupported
  | _ => .syntaxError

/-- The sentence that describes a cause. -/
def message : Cause → String
  | unclosedComment => "Unterminated comment"
  | unclosedText => "Unterminated string literal"
  | unclosedSelector => "Unterminated selector, expected '>'"
  | trailingDot => "Numbers can't end with a dot"
  | secondDot => "Numbers can only contain one dot"
  | strayCharacter => "Unparsable character"
  | expected slot found => "Expected " ++ slot.describe ++ ", found " ++ found.describe
  | expectedAssignment found =>
      "Expected '=' or a compound assignment, found " ++ found.describe
  | unexpected found => "Unexpected token found: " ++ found.describe
  | declaredNoName => "Only identifiers are supported during declaration"
  | localWithValue => "Local variables do not support init values"
  | missingValue scope => scope.title ++ " variables must have an init value"
  | notAssignable => "Only identifiers, member and selector expressions can be assigned to"
  | boundNotNumber bound found =>
      "Hardcode loops need a numeric literal as " ++ bound.name ++ ", found " ++ found.describe
  | numberTooLarge => "Number literal is too large"
  | numberUnreadable found => "Invalid number " ++ found.describe
  | tooDeep limit => "Nesting is too deep (maximum " ++ toString limit ++ " levels)"
  | pending text => "'" ++ text ++ "' is not supported yet"

end Cause

/-- What is wrong, and the span to blame. -/
structure Fault where
  cause : Cause
  span : Span
  deriving DecidableEq, Repr, Inhabited

/-- A fault as it is shown: any text at any span. -/
structure Diagnostic where
  category : Category
  message : String
  span : Span
  deriving DecidableEq, Repr, Inhabited

/-- The diagnostic that shows a fault. -/
def Fault.diagnostic (fault : Fault) : Diagnostic :=
  ⟨fault.cause.category, fault.cause.message, fault.span⟩

/-- The diagnostic on one line, with its span in bytes. -/
def Diagnostic.oneLine (diagnostic : Diagnostic) : String :=
  diagnostic.category.name ++ ": " ++ diagnostic.message ++ " (at " ++
    toString diagnostic.span.start ++ ".." ++ toString diagnostic.span.stop ++ ")"

end BlockScript
