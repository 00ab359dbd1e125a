import BlockScript.Json.Basic
import BlockScript.Token.Basic
import BlockScript.Tree.Statement

/-!
# Tokens and trees as JSON

Every node of a tree becomes an object with a `type`. A statement that is an expression is
encoded as that expression, an assignment as a node of its own, and parts that are absent as
`null`. The fields of each object are listed in the order of their keys.
-/

namespace BlockScript

/-- A token with its category, text and span. -/
def Token.toJson (token : Token) : Json :=
  .object [
    ("start", .natural token.span.start),
    ("stop", .natural token.span.stop),
    ("type", .text token.kind.tag),
    ("value", .text? token.text?)]

/-- A token list. -/
def tokensToJson (tokens : List Token) : Json := .array (tokens.map Token.toJson)

namespace Json

/-- A node that is a type and a value. -/
def leaf (type : String) (value : Json) : Json := .object [("type", .text type), ("value", value)]

/-- A name. -/
def identifier (name : String) : Json := leaf "Identifier" (.text name)

/-- A selector. -/
def selector (target : String) : Json := leaf "Selector" (.text target)

/-- A number. -/
def numeral (x : Binary64) : Json := leaf "Number" (.double x)

/-- A block with these encoded statements. -/
def block (body : List Json) : Json :=
  .object [("body", .array body), ("type", .text "BlockStatement")]

end Json

namespace Expr

mutual

/-- An expression as JSON. -/
def toJson : Expr → Json
  | number x => .numeral x
  | text content => .leaf "Literal" (.text content)
  | name word => .identifier word
  | selector target => .selector target
  | member value index =>
      .object [
        ("member", toJson index),
        ("type", .text "MemberExpression"),
        ("value", toJson value)]
  | selected value target =>
      .object [
        ("selector", .selector target),
        ("type", .text "SelectorExpression"),
        ("value", toJson value)]
  | binary operator left right =>
      .object [
        ("left", toJson left),
        ("operator", .text operator.spelling),
        ("right", toJson right),
        ("type", .text "BinaryExpression")]
  | call callee arguments =>
      .object [
        ("arguments", .array (allToJson arguments)),
        ("callee", .identifier callee),
        ("type", .text "CallExpression")]
  | array elements =>
      .object [
        ("elements", .array (allToJson elements)),
        ("type", .text "ArrayExpression")]
  | object entries =>
      .object [
        ("properties", .array (entriesToJson entries)),
        ("type", .text "ObjectExpression")]

/-- A list of expressions as JSON. -/
def allToJson : List Expr → List Json
  | [] => []
  | expr :: rest => toJson expr :: allToJson rest

/-- The entries of an object literal as JSON. -/
def entriesToJson : List (Entry Expr) → List Json
  | [] => []
  | ⟨key, value⟩ :: rest =>
      .object [("key", toJson key), ("value", toJson value)] :: entriesToJson rest

end

end Expr

/-- An assignment as JSON. -/
def Assignment.toJson (assignment : Assignment) : Json :=
  .object [
    ("left", assignment.target.toJson),
    ("operator", .text assignment.operator.spelling),
    ("right", assignment.value.toJson),
    ("type", .text "AssignmentExpression")]

mutual

/-- A statement as JSON. -/
def Statement.toJson : Statement → Json
  | .declaration scope name value? =>
      .object [
        ("init", match value? with
          | none => .null
          | some value => value.toJson),
        ("left", .identifier name),
        ("scope", .text scope.name),
        ("type", .text "VariableDeclaration")]
  | .function name parameters body =>
      .object [
        ("body", .block (Statement.allToJson body)),
        ("left", .identifier name),
        ("params", .array (parameters.map .text)),
        ("type", .text "FunctionDeclaration")]
  | .returning values =>
      .object [
        ("type", .text "ReturnStatement"),
        ("values", .array (Expr.allToJson values))]
  | .conditional chain => chain.toJson
  | .loop start step condition body =>
      .object [
        ("body", .block (Statement.allToJson body)),
        ("checkExpr", condition.toJson),
        ("runningExpr", step.toJson),
        ("startExpr", start.toJson),
        ("type", .text "ForLoop")]
  | .each name collection body =>
      .object [
        ("body", .block (Statement.allToJson body)),
        ("object", collection.toJson),
        ("type", .text "ForInLoop"),
        ("valueName", .identifier name)]
  | .range start stop name body =>
      .object [
        ("body", .block (Statement.allToJson body)),
        ("start", .numeral start),
        ("stop", .numeral stop),
        ("type", .text "HardcodeLoop"),
        ("variableName", .identifier name)]
  | .assignment assignment => assignment.toJson
  | .expression expr => expr.toJson

/-- A chain of conditions as JSON; its next link is nested in it. -/
def Conditional.toJson : Conditional → Json
  | .only condition body =>
      .object [
        ("condition", condition.toJson),
        ("elif", .null),
        ("elseBlock", .null),
        ("thenBlock", .block (Statement.allToJson body)),
        ("type", .text "IfStatement")]
  | .otherwise condition body other =>
      .object [
        ("condition", condition.toJson),
        ("elif", .null),
        ("elseBlock", .block (Statement.allToJson other)),
        ("thenBlock", .block (Statement.allToJson body)),
        ("type", .text "IfStatement")]
  | .elif condition body next =>
      .object [
        ("condition", condition.toJson),
        ("elif", next.toJson),
        ("elseBlock", .null),
        ("thenBlock", .block (Statement.allToJson body)),
        ("type", .text "IfStatement")]

/-- The statements of a block as JSON. -/
def Statement.allToJson : Block → List Json
  | [] => []
  | statement :: rest => statement.toJson :: Statement.allToJson rest

end

/-- A program as JSON. -/
def programToJson (program : Program) : Json := .block (Statement.allToJson program)

end BlockScript
