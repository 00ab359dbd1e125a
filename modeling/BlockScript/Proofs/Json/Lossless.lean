import BlockScript.Json.Tree
import BlockScript.Proofs.Json.Alike
import BlockScript.Proofs.Tree.Paths

/-!
# Nothing is lost in JSON

Two programs whose JSON is alike are the same program, and two token lists whose JSON is alike are
the same tokens (`toJson_injective`). Nothing is assumed of how a program was built, only that its
numbers are finite: all others are written as `null`.

The type of an encoded node names the form of the expression or statement, and a statement that is
an expression has a type that no other statement has. So two alike nodes have one form, and the
parts of this form are alike as well.
-/

namespace BlockScript

/-! ## Tags and spellings -/

theorem Kind.ofTag?_tag (kind : Kind) : ofTag? kind.tag = some kind := by
  have known : ∀ kind ∈ all, ofTag? kind.tag = some kind := by decide +kernel
  exact known kind kind.mem_all

theorem Kind.tag_injective : Function.Injective Kind.tag := by
  intro kind other same
  have found := Kind.ofTag?_tag kind
  rw [same, Kind.ofTag?_tag other] at found
  exact (Option.some.inj found).symm

theorem Operator.spelling_injective : Function.Injective Operator.spelling := by
  have find (operator : Operator) :
      Operator.all.find? (·.spelling == operator.spelling) = some operator := by
    cases operator <;> rfl
  intro operator other same
  have found := find operator
  rw [same, find other] at found
  exact (Option.some.inj found).symm

theorem AssignOperator.spelling_injective : Function.Injective AssignOperator.spelling := by
  intro operator other same
  have symbols := String.ofList_injective same
  cases operator <;> cases other <;> first | rfl | contradiction

theorem Scope.name_injective : Function.Injective Scope.name := by
  intro scope other same
  have letters := String.ofList_injective same
  cases scope <;> cases other <;> first | rfl | contradiction

/-! ## Finite numbers -/

namespace TreeNode

/-- The numbers that a node holds itself. -/
def numbers : TreeNode → List Binary64
  | expression (.number x) => [x]
  | statement (.range start stop _ _) => [start, stop]
  | _ => []

/-- All numbers at the node and below it are finite. -/
def Finite (root : TreeNode) : Prop :=
  ∀ edges node, root.Path edges node → ∀ x ∈ node.numbers, x.isFinite

namespace Finite

variable {root : TreeNode}

theorem here (finite : root.Finite) : ∀ x ∈ root.numbers, x.isFinite := finite [] root (.here root)

theorem branches (finite : root.Finite) : ∀ branch ∈ root.branches, branch.2.Finite :=
  fun _ mem _ node path => finite _ node (.down mem path)

theorem intro (here : ∀ x ∈ root.numbers, x.isFinite)
    (branches : ∀ branch ∈ root.branches, branch.2.Finite) : root.Finite := by
  intro edges node path
  cases path with
  | here => exact here
  | down branch path => exact branches _ branch _ node path

end Finite

/-- The numbers of a derived tree are finite. -/
theorem Derived.finite {root : TreeNode} {room rank : Nat} (derived : root.Derived room rank) :
    root.Finite := by
  intro edges node path x mem
  have formed := (path.bounds derived).1
  cases node with
  | statement statement =>
    cases statement with
    | range start stop =>
      obtain rfl | rfl : x = start ∨ x = stop := by simpa [numbers] using mem
      · exact formed.1
      · exact formed.2
    | _ => contradiction
  | conditional chain => contradiction
  | expression expr =>
    cases expr with
    | number y =>
      obtain rfl := List.mem_singleton.mp mem
      exact formed
    | _ => contradiction

end TreeNode

/-! ## Parts of nodes -/

namespace Json

variable {type other : String}

theorem Alike.leaf_value {value value' : Json}
    (alike : Alike (.leaf type value) (.leaf other value')) : Alike value value' :=
  alike.field "value" rfl rfl

theorem Alike.block_items {items others : List Json}
    (alike : Alike (.block items) (.block others)) : List.Forall₂ Alike items others :=
  (alike.field "body" rfl rfl).items

end Json

/-! ## Expressions -/

namespace Expr

open TreeNode Json

/-- The type of the node that encodes the expression. -/
def nodeType : Expr → String
  | number _ => "Number"
  | text _ => "Literal"
  | name _ => "Identifier"
  | selector _ => "Selector"
  | member .. => "MemberExpression"
  | selected .. => "SelectorExpression"
  | binary .. => "BinaryExpression"
  | call .. => "CallExpression"
  | array _ => "ArrayExpression"
  | object _ => "ObjectExpression"

theorem exists_fields (expr : Expr) :
    ∃ fields, expr.toJson = .object fields ∧ fields.lookup "type" = some (.text expr.nodeType) := by
  cases expr <;> exact ⟨_, rfl, rfl⟩

theorem nodeType_eq {expr other : Expr} (alike : Alike expr.toJson other.toJson) :
    expr.nodeType = other.nodeType := by
  obtain ⟨fields, encoded, found⟩ := expr.exists_fields
  obtain ⟨fields', encoded', found'⟩ := other.exists_fields
  rw [encoded, encoded'] at alike
  exact (alike.field "type" found found').text_eq

mutual

theorem eq_of_alike : ∀ expr : Expr, (expression expr).Finite → ∀ other : Expr,
    Alike expr.toJson other.toJson → expr = other
  | number x, finite, other, alike => by
      have types := nodeType_eq alike
      cases other with
      | number y => rw [alike.leaf_value.double_eq (finite.here x List.mem_cons_self)]
      | _ => simp [nodeType] at types
  | text content, _, other, alike => by
      have types := nodeType_eq alike
      cases other with
      | text content' => rw [alike.leaf_value.text_eq]
      | _ => simp [nodeType] at types
  | name word, _, other, alike => by
      have types := nodeType_eq alike
      cases other with
      | name word' => rw [alike.leaf_value.text_eq]
      | _ => simp [nodeType] at types
  | selector target, _, other, alike => by
      have types := nodeType_eq alike
      cases other with
      | selector target' => rw [alike.leaf_value.text_eq]
      | _ => simp [nodeType] at types
  | member value index, finite, other, alike => by
      have types := nodeType_eq alike
      have parts := finite.branches
      rw [branches, List.forall_mem_cons, List.forall_mem_singleton] at parts
      cases other with
      | member value' index' =>
        have values : Alike value.toJson value'.toJson := alike.field "value" rfl rfl
        have indices : Alike index.toJson index'.toJson := alike.field "member" rfl rfl
        rw [eq_of_alike value parts.1 value' values, eq_of_alike index parts.2 index' indices]
      | _ => simp [nodeType] at types
  | selected value target, finite, other, alike => by
      have types := nodeType_eq alike
      have parts := finite.branches
      rw [branches, List.forall_mem_singleton] at parts
      cases other with
      | selected value' target' =>
        have values : Alike value.toJson value'.toJson := alike.field "value" rfl rfl
        have selectors : Alike (.selector target) (.selector target') :=
          alike.field "selector" rfl rfl
        rw [eq_of_alike value parts value' values, selectors.leaf_value.text_eq]
      | _ => simp [nodeType] at types
  | binary operator left right, finite, other, alike => by
      have types := nodeType_eq alike
      have parts := finite.branches
      rw [branches, List.forall_mem_cons, List.forall_mem_singleton] at parts
      cases other with
      | binary operator' left' right' =>
        have operators : Alike (.text operator.spelling) (.text operator'.spelling) :=
          alike.field "operator" rfl rfl
        have lefts : Alike left.toJson left'.toJson := alike.field "left" rfl rfl
        have rights : Alike right.toJson right'.toJson := alike.field "right" rfl rfl
        rw [Operator.spelling_injective operators.text_eq,
          eq_of_alike left parts.1 left' lefts, eq_of_alike right parts.2 right' rights]
      | _ => simp [nodeType] at types
  | call callee arguments, finite, other, alike => by
      have types := nodeType_eq alike
      have parts := finite.branches
      rw [branches, forall_mem_expressions] at parts
      cases other with
      | call callee' arguments' =>
        have names : Alike (.identifier callee) (.identifier callee') :=
          alike.field "callee" rfl rfl
        have lists : Alike (.array (allToJson arguments)) (.array (allToJson arguments')) :=
          alike.field "arguments" rfl rfl
        rw [names.leaf_value.text_eq, all_eq_of_alike arguments parts arguments' lists.items]
      | _ => simp [nodeType] at types
  | array elements, finite, other, alike => by
      have types := nodeType_eq alike
      have parts := finite.branches
      rw [branches, forall_mem_expressions] at parts
      cases other with
      | array elements' =>
        have lists : Alike (.array (allToJson elements)) (.array (allToJson elements')) :=
          alike.field "elements" rfl rfl
        rw [all_eq_of_alike elements parts elements' lists.items]
      | _ => simp [nodeType] at types
  | object entries, finite, other, alike => by
      have types := nodeType_eq alike
      have parts := finite.branches
      rw [branches, List.forall_mem_append, forall_mem_expressions, forall_mem_expressions,
        List.forall_mem_map, List.forall_mem_map] at parts
      cases other with
      | object entries' =>
        have lists : Alike (.array (entriesToJson entries)) (.array (entriesToJson entries')) :=
          alike.field "properties" rfl rfl
        rw [entries_eq_of_alike entries parts.1 parts.2 entries' lists.items]
      | _ => simp [nodeType] at types

theorem all_eq_of_alike : ∀ exprs : List Expr, (∀ expr ∈ exprs, (expression expr).Finite) →
    ∀ others : List Expr, List.Forall₂ Alike (allToJson exprs) (allToJson others) → exprs = others
  | [], _, [], _ => rfl
  | expr :: exprs, finite, other :: others, .cons alike rest => by
      rw [List.forall_mem_cons] at finite
      rw [eq_of_alike expr finite.1 other alike, all_eq_of_alike exprs finite.2 others rest]

theorem entries_eq_of_alike : ∀ entries : List (Entry Expr),
    (∀ entry ∈ entries, (expression entry.key).Finite) →
    (∀ entry ∈ entries, (expression entry.value).Finite) →
    ∀ others : List (Entry Expr),
      List.Forall₂ Alike (entriesToJson entries) (entriesToJson others) → entries = others
  | [], _, _, [], _ => rfl
  | ⟨key, value⟩ :: entries, keys, values, ⟨key', value'⟩ :: others, .cons alike rest => by
      rw [List.forall_mem_cons] at keys values
      have sameKeys : Alike key.toJson key'.toJson := alike.field "key" rfl rfl
      have sameValues : Alike value.toJson value'.toJson := alike.field "value" rfl rfl
      rw [eq_of_alike key keys.1 key' sameKeys, eq_of_alike value values.1 value' sameValues,
        entries_eq_of_alike entries keys.2 values.2 others rest]

end

theorem toJson_ne_null (expr : Expr) : expr.toJson ≠ .null := by
  cases expr <;> exact Json.noConfusion

end Expr

/-! ## Statements -/

open TreeNode Json

theorem Assignment.eq_of_alike {assignment other : Assignment}
    (target : (expression assignment.target).Finite) (value : (expression assignment.value).Finite)
    (alike : Alike assignment.toJson other.toJson) : assignment = other := by
  obtain ⟨left, operator, right⟩ := assignment
  obtain ⟨left', operator', right'⟩ := other
  have lefts : Alike left.toJson left'.toJson := alike.field "left" rfl rfl
  have operators : Alike (.text operator.spelling) (.text operator'.spelling) :=
    alike.field "operator" rfl rfl
  have rights : Alike right.toJson right'.toJson := alike.field "right" rfl rfl
  rw [left.eq_of_alike target left' lefts, right.eq_of_alike value right' rights,
    AssignOperator.spelling_injective operators.text_eq]

theorem Conditional.toJson_ne_null (chain : Conditional) : chain.toJson ≠ .null := by
  cases chain <;> exact Json.noConfusion

namespace Statement

/-- The type of the node that encodes the statement. -/
def nodeType : Statement → String
  | declaration .. => "VariableDeclaration"
  | function .. => "FunctionDeclaration"
  | returning _ => "ReturnStatement"
  | conditional _ => "IfStatement"
  | loop .. => "ForLoop"
  | each .. => "ForInLoop"
  | range .. => "HardcodeLoop"
  | assignment _ => "AssignmentExpression"
  | expression expr => expr.nodeType

theorem exists_fields (statement : Statement) :
    ∃ fields, statement.toJson = .object fields ∧
      fields.lookup "type" = some (.text statement.nodeType) := by
  cases statement with
  | conditional chain => cases chain <;> exact ⟨_, rfl, rfl⟩
  | expression expr => exact expr.exists_fields
  | _ => exact ⟨_, rfl, rfl⟩

theorem nodeType_eq {statement other : Statement} (alike : Alike statement.toJson other.toJson) :
    statement.nodeType = other.nodeType := by
  obtain ⟨fields, encoded, found⟩ := statement.exists_fields
  obtain ⟨fields', encoded', found'⟩ := other.exists_fields
  rw [encoded, encoded'] at alike
  exact (alike.field "type" found found').text_eq

/-- Only a statement that is an expression has the type of an expression. -/
theorem exists_expression {statement : Statement} {expr : Expr}
    (types : statement.nodeType = expr.nodeType) : ∃ other, statement = expression other := by
  cases statement with
  | expression other => exact ⟨other, rfl⟩
  | _ => cases expr <;> simp [nodeType, Expr.nodeType] at types

end Statement

mutual

theorem Statement.eq_of_alike : ∀ part : Statement, (statement part).Finite →
    ∀ other : Statement, Alike part.toJson other.toJson → part = other
  | .declaration scope name value?, finite, other, alike => by
      have types := Statement.nodeType_eq alike
      have parts := finite.branches
      rw [branches, forall_mem_expressions] at parts
      cases other with
      | declaration scope' name' other? =>
        have scopes : Alike (.text scope.name) (.text scope'.name) := alike.field "scope" rfl rfl
        have names : Alike (.identifier name) (.identifier name') := alike.field "left" rfl rfl
        have same : value? = other? := by
          cases value? with
          | none =>
            cases other? with
            | none => rfl
            | some other =>
              have values : Alike .null other.toJson := alike.field "init" rfl rfl
              exact absurd values.null_eq other.toJson_ne_null
          | some value =>
            cases other? with
            | none =>
              have values : Alike value.toJson .null := alike.field "init" rfl rfl
              exact absurd values.eq_null value.toJson_ne_null
            | some other =>
              have values : Alike value.toJson other.toJson := alike.field "init" rfl rfl
              rw [value.eq_of_alike (parts value List.mem_cons_self) other values]
        rw [Scope.name_injective scopes.text_eq, names.leaf_value.text_eq, same]
      | expression => obtain ⟨_, ⟨⟩⟩ := Statement.exists_expression types
      | _ => simp [Statement.nodeType] at types
  | .function name parameters body, finite, other, alike => by
      have types := Statement.nodeType_eq alike
      have parts := finite.branches
      rw [branches, forall_mem_statements] at parts
      cases other with
      | function name' parameters' body' =>
        have names : Alike (.identifier name) (.identifier name') := alike.field "left" rfl rfl
        have lists : Alike (.array (parameters.map .text)) (.array (parameters'.map .text)) :=
          alike.field "params" rfl rfl
        have bodies :
            Alike (.block (Statement.allToJson body)) (.block (Statement.allToJson body')) :=
          alike.field "body" rfl rfl
        rw [names.leaf_value.text_eq, lists.map_eq fun _ _ same => same.text_eq,
          Statement.all_eq_of_alike body parts body' bodies.block_items]
      | expression => obtain ⟨_, ⟨⟩⟩ := Statement.exists_expression types
      | _ => simp [Statement.nodeType] at types
  | .returning values, finite, other, alike => by
      have types := Statement.nodeType_eq alike
      have parts := finite.branches
      rw [branches, forall_mem_expressions] at parts
      cases other with
      | returning values' =>
        have lists : Alike (.array (Expr.allToJson values)) (.array (Expr.allToJson values')) :=
          alike.field "values" rfl rfl
        rw [Expr.all_eq_of_alike values parts values' lists.items]
      | expression => obtain ⟨_, ⟨⟩⟩ := Statement.exists_expression types
      | _ => simp [Statement.nodeType] at types
  | .conditional chain, finite, other, alike => by
      have types := Statement.nodeType_eq alike
      have parts := finite.branches
      rw [branches, List.forall_mem_singleton] at parts
      cases other with
      | conditional chain' => rw [Conditional.eq_of_alike chain parts chain' alike]
      | expression => obtain ⟨_, ⟨⟩⟩ := Statement.exists_expression types
      | _ => simp [Statement.nodeType] at types
  | .loop start step condition body, finite, other, alike => by
      have types := Statement.nodeType_eq alike
      have parts := finite.branches
      rw [branches, List.forall_mem_append, forall_mem_expressions, List.forall_mem_cons,
        List.forall_mem_cons, List.forall_mem_singleton, List.forall_mem_cons,
        forall_mem_statements] at parts
      obtain ⟨⟨target, value, test⟩, inner, block⟩ := parts
      cases other with
      | loop start' step' condition' body' =>
        have starts : Alike start.toJson start'.toJson := alike.field "startExpr" rfl rfl
        have steps : Alike step.toJson step'.toJson := alike.field "runningExpr" rfl rfl
        have tests : Alike condition.toJson condition'.toJson := alike.field "checkExpr" rfl rfl
        have bodies :
            Alike (.block (Statement.allToJson body)) (.block (Statement.allToJson body')) :=
          alike.field "body" rfl rfl
        rw [Assignment.eq_of_alike target value starts,
          Statement.eq_of_alike step inner step' steps,
          condition.eq_of_alike test condition' tests,
          Statement.all_eq_of_alike body block body' bodies.block_items]
      | expression => obtain ⟨_, ⟨⟩⟩ := Statement.exists_expression types
      | _ => simp [Statement.nodeType] at types
  | .each name collection body, finite, other, alike => by
      have types := Statement.nodeType_eq alike
      have parts := finite.branches
      rw [branches, List.forall_mem_cons, forall_mem_statements] at parts
      cases other with
      | each name' collection' body' =>
        have names : Alike (.identifier name) (.identifier name') :=
          alike.field "valueName" rfl rfl
        have collections : Alike collection.toJson collection'.toJson :=
          alike.field "object" rfl rfl
        have bodies :
            Alike (.block (Statement.allToJson body)) (.block (Statement.allToJson body')) :=
          alike.field "body" rfl rfl
        rw [names.leaf_value.text_eq, collection.eq_of_alike parts.1 collection' collections,
          Statement.all_eq_of_alike body parts.2 body' bodies.block_items]
      | expression => obtain ⟨_, ⟨⟩⟩ := Statement.exists_expression types
      | _ => simp [Statement.nodeType] at types
  | .range start stop name body, finite, other, alike => by
      have types := Statement.nodeType_eq alike
      have parts := finite.branches
      rw [branches, forall_mem_statements] at parts
      have bounds := finite.here
      rw [numbers, List.forall_mem_cons, List.forall_mem_singleton] at bounds
      cases other with
      | range start' stop' name' body' =>
        have starts : Alike (.numeral start) (.numeral start') := alike.field "start" rfl rfl
        have stops : Alike (.numeral stop) (.numeral stop') := alike.field "stop" rfl rfl
        have names : Alike (.identifier name) (.identifier name') :=
          alike.field "variableName" rfl rfl
        have bodies :
            Alike (.block (Statement.allToJson body)) (.block (Statement.allToJson body')) :=
          alike.field "body" rfl rfl
        rw [starts.leaf_value.double_eq bounds.1, stops.leaf_value.double_eq bounds.2,
          names.leaf_value.text_eq, Statement.all_eq_of_alike body parts body' bodies.block_items]
      | expression => obtain ⟨_, ⟨⟩⟩ := Statement.exists_expression types
      | _ => simp [Statement.nodeType] at types
  | .assignment assignment, finite, other, alike => by
      have types := Statement.nodeType_eq alike
      have parts := finite.branches
      rw [branches, forall_mem_expressions, List.forall_mem_cons, List.forall_mem_singleton]
        at parts
      cases other with
      | assignment assignment' => rw [Assignment.eq_of_alike parts.1 parts.2 alike]
      | expression => obtain ⟨_, ⟨⟩⟩ := Statement.exists_expression types
      | _ => simp [Statement.nodeType] at types
  | .expression expr, finite, other, alike => by
      obtain ⟨expr', rfl⟩ := Statement.exists_expression (Statement.nodeType_eq alike).symm
      have parts := finite.branches
      rw [branches, List.forall_mem_singleton] at parts
      rw [expr.eq_of_alike parts expr' alike]

/-- The links of chains have one type; what follows the first block tells them apart. -/
theorem Conditional.eq_of_alike : ∀ chain : Conditional, (conditional chain).Finite →
    ∀ other : Conditional, Alike chain.toJson other.toJson → chain = other
  | .only condition body, finite, other, alike => by
      have parts := finite.branches
      rw [branches, List.forall_mem_cons, forall_mem_statements] at parts
      cases other with
      | only condition' body' =>
        have tests : Alike condition.toJson condition'.toJson := alike.field "condition" rfl rfl
        have bodies :
            Alike (.block (Statement.allToJson body)) (.block (Statement.allToJson body')) :=
          alike.field "thenBlock" rfl rfl
        rw [condition.eq_of_alike parts.1 condition' tests,
          Statement.all_eq_of_alike body parts.2 body' bodies.block_items]
      | otherwise condition' body' other' =>
        have ends : Alike .null (.block (Statement.allToJson other')) :=
          alike.field "elseBlock" rfl rfl
        exact Json.noConfusion ends.null_eq
      | elif condition' body' next' =>
        have ends : Alike .null next'.toJson := alike.field "elif" rfl rfl
        exact absurd ends.null_eq next'.toJson_ne_null
  | .otherwise condition body other, finite, chain, alike => by
      have parts := finite.branches
      rw [branches, List.forall_mem_append, List.forall_mem_cons, forall_mem_statements,
        forall_mem_statements] at parts
      cases chain with
      | only condition' body' =>
        have ends : Alike (.block (Statement.allToJson other)) .null :=
          alike.field "elseBlock" rfl rfl
        exact Json.noConfusion ends.eq_null
      | otherwise condition' body' other' =>
        have tests : Alike condition.toJson condition'.toJson := alike.field "condition" rfl rfl
        have bodies :
            Alike (.block (Statement.allToJson body)) (.block (Statement.allToJson body')) :=
          alike.field "thenBlock" rfl rfl
        have others :
            Alike (.block (Statement.allToJson other)) (.block (Statement.allToJson other')) :=
          alike.field "elseBlock" rfl rfl
        rw [condition.eq_of_alike parts.1.1 condition' tests,
          Statement.all_eq_of_alike body parts.1.2 body' bodies.block_items,
          Statement.all_eq_of_alike other parts.2 other' others.block_items]
      | elif condition' body' next' =>
        have ends : Alike .null next'.toJson := alike.field "elif" rfl rfl
        exact absurd ends.null_eq next'.toJson_ne_null
  | .elif condition body next, finite, chain, alike => by
      have parts := finite.branches
      rw [branches, List.forall_mem_cons, List.forall_mem_cons, forall_mem_statements]
        at parts
      cases chain with
      | only condition' body' =>
        have ends : Alike next.toJson .null := alike.field "elif" rfl rfl
        exact absurd ends.eq_null next.toJson_ne_null
      | otherwise condition' body' other' =>
        have ends : Alike next.toJson .null := alike.field "elif" rfl rfl
        exact absurd ends.eq_null next.toJson_ne_null
      | elif condition' body' next' =>
        have tests : Alike condition.toJson condition'.toJson := alike.field "condition" rfl rfl
        have bodies :
            Alike (.block (Statement.allToJson body)) (.block (Statement.allToJson body')) :=
          alike.field "thenBlock" rfl rfl
        have nexts : Alike next.toJson next'.toJson := alike.field "elif" rfl rfl
        rw [condition.eq_of_alike parts.1 condition' tests,
          Statement.all_eq_of_alike body parts.2.2 body' bodies.block_items,
          Conditional.eq_of_alike next parts.2.1 next' nexts]

theorem Statement.all_eq_of_alike : ∀ body : Block, (∀ part ∈ body, (statement part).Finite) →
    ∀ others : Block, List.Forall₂ Alike (Statement.allToJson body) (Statement.allToJson others) →
      body = others
  | [], _, [], _ => rfl
  | part :: body, finite, other :: others, .cons alike rest => by
      rw [List.forall_mem_cons] at finite
      rw [Statement.eq_of_alike part finite.1 other alike,
        Statement.all_eq_of_alike body finite.2 others rest]

end

/-! ## Programs and tokens -/

theorem Token.eq_of_alike {token other : Token} (alike : Alike token.toJson other.toJson) :
    token = other := by
  obtain ⟨⟨kind, text?⟩, start, stop⟩ := token
  obtain ⟨⟨kind', text?'⟩, start', stop'⟩ := other
  have starts : Alike (.natural start) (.natural start') := alike.field "start" rfl rfl
  have stops : Alike (.natural stop) (.natural stop') := alike.field "stop" rfl rfl
  have kinds : Alike (.text kind.tag) (.text kind'.tag) := alike.field "type" rfl rfl
  have texts : Alike (.text? text?) (.text? text?') := alike.field "value" rfl rfl
  rw [starts.natural_eq, stops.natural_eq, Kind.tag_injective kinds.text_eq, texts.text?_eq]

/-- A program whose numbers are finite has the JSON of no other program, and a token list that of
no other token list. -/
theorem toJson_injective :
    (∀ program : Program, (∀ part ∈ program, (statement part).Finite) → ∀ other : Program,
      Alike (programToJson program) (programToJson other) ↔ program = other) ∧
    ∀ tokens others : List Token,
      Alike (tokensToJson tokens) (tokensToJson others) ↔ tokens = others := by
  constructor
  · intro program finite other
    constructor
    · intro alike
      exact Statement.all_eq_of_alike program finite other alike.block_items
    · rintro rfl
      exact .refl _
  · intro tokens others
    constructor
    · intro alike
      exact Alike.map_eq alike fun _ _ same => Token.eq_of_alike same
    · rintro rfl
      exact .refl _

/-- A program that is nothing but a zero, with or without a sign. -/
def zeroProgram (negative : Bool) : Program := [.expression (.number (.ofCode negative 0))]

/-- Both zeros are kept apart, and so are a missing text and one that reads `null`. -/
theorem toJson_injective_zeros :
    (∀ part ∈ zeroProgram false, (statement part).Finite) ∧
      ¬ Alike (programToJson (zeroProgram false)) (programToJson (zeroProgram true)) ∧
      ¬ Alike (tokensToJson [⟨⟨.number, none⟩, ⟨7, 2⟩⟩])
        (tokensToJson [⟨⟨.number, some "null"⟩, ⟨7, 2⟩⟩]) := by
  have zero : (expression (.number (.ofCode false 0))).Finite :=
    .intro (List.forall_mem_singleton.mpr (by decide)) (List.forall_mem_nil _)
  have finite : ∀ part ∈ zeroProgram false, (statement part).Finite :=
    List.forall_mem_singleton.mpr
      (.intro (List.forall_mem_nil _) (List.forall_mem_singleton.mpr zero))
  refine ⟨finite, ?_, ?_⟩
  · rw [toJson_injective.1 _ finite, zeroProgram, zeroProgram]
    simp [Binary64.ofCode]
  · rw [toJson_injective.2]
    simp

/-- Numbers that are not finite are lost. -/
example : programToJson [.expression (.number .infinity)] =
    programToJson [.expression (.number .notANumber)] := rfl

end BlockScript
