import BlockScript.Parser.Program

/-!
# The grammar

The grammar of the language as a relation between lists of lexemes and trees, with one rule for
each form. A `Phrase` is a category of the grammar together with the tree that a phrase of this
category stands for, and `Derives room phrase words` says that `words` is such a phrase in which
at most `room` levels are open at once. Positions play no role, so neither do tokens.

Precedence is a matter of six levels, which are listed here (`Operator.AtLevel`): an operator takes
on its left an expression whose outermost operators are at its own level or a tighter one, and on
its right one whose outermost operators are at tighter levels. Nothing is said about which rule to
try first; where two rules could compete, as for assignments and expressions, the grammar allows
both.
-/

namespace BlockScript

/-- What can stand between the commas of a list. -/
inductive Item
  | expression (expr : Expr)
  | entry (entry : Entry Expr)
  | parameter (name : String)

/-- A category of the grammar, and the tree that a phrase of it stands for. -/
inductive Phrase
  /-- A name or a call, and the member accesses and selectors behind it. -/
  | access (expr : Expr)
  /-- A literal, an access, an array or an object. -/
  | value (expr : Expr)
  /-- An operand of a binary operator. -/
  | operand (expr : Expr)
  /-- An expression whose outermost operators are at this level or a tighter one. -/
  | expression (least : Nat) (expr : Expr)
  | item (item : Item)
  /-- Any number of items with commas between them, and perhaps one behind the last. -/
  | items (items : List Item)
  /-- At least one expression, with commas between them only. -/
  | values (exprs : List Expr)
  | assignment (assignment : Assignment)
  | statement (statement : Statement)
  /-- A chain of conditions without the `if` or `elif` in front of it. -/
  | conditional (chain : Conditional)
  /-- Statements that each end with a semicolon. -/
  | statements (body : Block)
  | block (body : Block)
  /-- Statements up to the end of the input. -/
  | program (program : Program)

/-- The six levels of the binary operators, from the loosest to the tightest. -/
inductive Operator.AtLevel : Operator → Nat → Prop
  | or : AtLevel .or 1
  | and : AtLevel .and 2
  | equality {operator : Operator} (mem : operator ∈ [.equal, .notEqual]) : AtLevel operator 3
  | comparison {operator : Operator}
      (mem : operator ∈ [.lessThan, .lessEqual, .greaterThan, .greaterEqual, .within]) :
      AtLevel operator 4
  | sum {operator : Operator} (mem : operator ∈ [.add, .subtract]) : AtLevel operator 5
  | product {operator : Operator} (mem : operator ∈ [.multiply, .divide, .modulo]) :
      AtLevel operator 6

theorem Operator.atLevel_precedence (operator : Operator) : operator.AtLevel operator.precedence := by
  cases operator with
  | or => exact .or
  | and => exact .and
  | equal | notEqual => exact .equality (by decide)
  | lessThan | lessEqual | greaterThan | greaterEqual | within => exact .comparison (by decide)
  | add | subtract => exact .sum (by decide)
  | multiply | divide | modulo => exact .product (by decide)

/-- The parser's binding strengths are the levels. -/
theorem Operator.AtLevel.eq_precedence {operator : Operator} {level : Nat}
    (stands : operator.AtLevel level) : level = operator.precedence := by
  cases stands with
  | or | and => rfl
  | equality mem | comparison mem | sum mem | product mem =>
    revert operator
    decide

/-- The words that open a declaration with an initial value, and the class of the variable. -/
inductive Scope.Initialised : Scope → Kind → Prop
  | global : Initialised .global Keyword.global
  | var : Initialised .var Keyword.var

theorem Scope.initialised_iff {scope : Scope} {kind : Kind} :
    scope.Initialised kind ↔ kind = scope.keyword ∧ scope.needsValue := by
  constructor
  · rintro (_ | _) <;> exact ⟨rfl, rfl⟩
  · rintro ⟨rfl, needs⟩
    cases scope with
    | global => exact .global
    | var => exact .var
    | local_ => contradiction

/-- A `local` variable has no initial value; a `global` or `var` one has one. -/
def Scope.Takes (scope : Scope) (value? : Option Expr) : Prop :=
  match scope with
  | .local_ => value? = none
  | .global | .var => value?.isSome

theorem Scope.Initialised.takes {scope : Scope} {kind : Kind} (opens : scope.Initialised kind)
    (value : Expr) : scope.Takes (some value) := by
  cases opens <;> rfl

theorem Scope.Takes.initialised {scope : Scope} {value : Expr} (takes : scope.Takes (some value)) :
    scope.Initialised scope.keyword := by
  cases scope with
  | local_ => contradiction
  | global => exact .global
  | var => exact .var

theorem Scope.eq_local_of_not_needsValue {scope : Scope} (needless : ¬ scope.needsValue) :
    scope = .local_ := by
  cases scope with
  | local_ => rfl
  | global | var => exact absurd rfl needless

/-- The lexeme is a number, and reads as the finite double `x`. -/
structure Lexeme.Numbers (word : Lexeme) (x : Binary64) : Prop where
  kind : word.kind = .number
  reads : Binary64.ofText? word.content.toList = some x
  finite : x.isFinite

/-- The lexemes are those of an assignment operator. -/
def AssignOperator.WrittenAs (operator : AssignOperator) (words : List Lexeme) : Prop :=
  words.map Lexeme.kind = operator.symbols.map Kind.symbol

theorem AssignOperator.kinds_of_ofKind? {kind : Kind} {operator : AssignOperator}
    (known : ofKind? kind = some operator) :
    operator.symbols.map Kind.symbol = [kind, Symbol.equals] := by
  have same : operator.operation?.map Kind.symbol = some kind := by
    simpa using List.find?_some known
  obtain ⟨symbol, equal, rfl⟩ := Option.map_eq_some_iff.mp same
  rw [symbols, equal]
  rfl

/-- An assignment operator is `=`, or the symbol of an operator and then `=`. -/
theorem AssignOperator.WrittenAs.cases {operator : AssignOperator} {words : List Lexeme}
    (written : operator.WrittenAs words) :
    (operator = .assign ∧ ∃ sign : Lexeme, words = [sign] ∧ sign.kind = Symbol.equals) ∨
      ∃ first sign : Lexeme, words = [first, sign] ∧ sign.kind = Symbol.equals ∧
        ofKind? first.kind = some operator := by
  have two : ∀ symbol : Symbol, operator.symbols = [symbol, .equals] →
      ∃ first sign : Lexeme, words = [first, sign] ∧ first.kind = symbol ∧
        sign.kind = Symbol.equals := by
    intro symbol equal
    rw [WrittenAs, equal] at written
    obtain ⟨first, others, rfl, kind, written⟩ := List.map_eq_cons_iff.mp written
    obtain ⟨sign, others, rfl, equals, written⟩ := List.map_eq_cons_iff.mp written
    cases List.map_eq_nil_iff.mp written
    exact ⟨first, sign, rfl, kind, equals⟩
  cases operator with
  | assign =>
    obtain ⟨sign, others, rfl, equals, written⟩ := List.map_eq_cons_iff.mp written
    cases List.map_eq_nil_iff.mp written
    exact .inl ⟨rfl, sign, rfl, equals⟩
  | add | subtract | multiply | divide | modulo =>
    obtain ⟨first, sign, split, kind, equals⟩ := two _ rfl
    exact .inr ⟨first, sign, split, equals, by rw [kind]; decide⟩

/-- The rules of the grammar. Each opened level costs one unit of room inside. -/
inductive Derives : Nat → Phrase → List Lexeme → Prop
  | name {room : Nat} {word : Lexeme} (kind : word.kind = .identifier) :
      Derives room (.access (.name word.content)) [word]
  | call {room : Nat} {word opening closing : Lexeme} {arguments : List Expr}
      {words : List Lexeme} (kind : word.kind = .identifier)
      (opens : opening.kind = Symbol.openParen)
      (inside : Derives room (.items (arguments.map .expression)) words)
      (closes : closing.kind = Symbol.closeParen) :
      Derives (room + 1) (.access (.call word.content arguments))
        (word :: opening :: words ++ [closing])
  | member {room : Nat} {value index : Expr} {front words : List Lexeme}
      {opening closing : Lexeme} (accessed : Derives (room + 1) (.access value) front)
      (opens : opening.kind = Symbol.openBracket)
      (inside : Derives room (.expression 0 index) words)
      (closes : closing.kind = Symbol.closeBracket) :
      Derives (room + 1) (.access (.member value index)) (front ++ opening :: words ++ [closing])
  | selected {room : Nat} {value : Expr} {front : List Lexeme} {word : Lexeme}
      (accessed : Derives room (.access value) front) (place : value.isPlace)
      (kind : word.kind = .selector) :
      Derives room (.access (.selected value word.content)) (front ++ [word])
  | number {room : Nat} {word : Lexeme} {x : Binary64} (numbers : word.Numbers x) :
      Derives room (.value (.number x)) [word]
  | text {room : Nat} {word : Lexeme} (kind : word.kind = .text) :
      Derives room (.value (.text word.content)) [word]
  | selector {room : Nat} {word : Lexeme} (kind : word.kind = .selector) :
      Derives room (.value (.selector word.content)) [word]
  | accessed {room : Nat} {expr : Expr} {words : List Lexeme}
      (access : Derives room (.access expr) words) : Derives room (.value expr) words
  | array {room : Nat} {elements : List Expr} {words : List Lexeme} {opening closing : Lexeme}
      (opens : opening.kind = Symbol.openBracket)
      (inside : Derives room (.items (elements.map .expression)) words)
      (closes : closing.kind = Symbol.closeBracket) :
      Derives (room + 1) (.value (.array elements)) (opening :: words ++ [closing])
  | object {room : Nat} {entries : List (Entry Expr)} {words : List Lexeme}
      {opening closing : Lexeme} (opens : opening.kind = Symbol.openCurly)
      (inside : Derives room (.items (entries.map .entry)) words)
      (closes : closing.kind = Symbol.closeCurly) :
      Derives (room + 1) (.value (.object entries)) (opening :: words ++ [closing])
  | single {room : Nat} {expr : Expr} {words : List Lexeme}
      (value : Derives room (.value expr) words) : Derives room (.operand expr) words
  | group {room : Nat} {expr : Expr} {words : List Lexeme} {opening closing : Lexeme}
      (opens : opening.kind = Symbol.openParen)
      (inside : Derives room (.expression 0 expr) words)
      (closes : closing.kind = Symbol.closeParen) :
      Derives (room + 1) (.operand expr) (opening :: words ++ [closing])
  | operand {room least : Nat} {expr : Expr} {words : List Lexeme}
      (operand : Derives room (.operand expr) words) :
      Derives room (.expression least expr) words
  | binary {room least level : Nat} {operator : Operator} {left right : Expr}
      {front back : List Lexeme} {sign : Lexeme} (stands : operator.AtLevel level)
      (binds : least ≤ level) (onLeft : Derives room (.expression level left) front)
      (kind : sign.kind = operator.kind)
      (onRight : Derives room (.expression (level + 1) right) back) :
      Derives room (.expression least (.binary operator left right)) (front ++ sign :: back)
  | element {room : Nat} {expr : Expr} {words : List Lexeme}
      (expression : Derives room (.expression 0 expr) words) :
      Derives room (.item (.expression expr)) words
  | entry {room : Nat} {key value : Expr} {front back : List Lexeme} {colon : Lexeme}
      (before : Derives room (.expression 0 key) front) (kind : colon.kind = Symbol.colon)
      (behind : Derives room (.expression 0 value) back) :
      Derives room (.item (.entry ⟨key, value⟩)) (front ++ colon :: back)
  | parameter {room : Nat} {word : Lexeme} (kind : word.kind = .identifier) :
      Derives room (.item (.parameter word.content)) [word]
  | noItem {room : Nat} : Derives room (.items []) []
  | lastItem {room : Nat} {item : Item} {words : List Lexeme}
      (only : Derives room (.item item) words) : Derives room (.items [item]) words
  | moreItems {room : Nat} {item : Item} {items : List Item} {front back : List Lexeme}
      {comma : Lexeme} (first : Derives room (.item item) front)
      (kind : comma.kind = Symbol.comma) (others : Derives room (.items items) back) :
      Derives room (.items (item :: items)) (front ++ comma :: back)
  | lastValue {room : Nat} {expr : Expr} {words : List Lexeme}
      (only : Derives room (.expression 0 expr) words) : Derives room (.values [expr]) words
  | moreValues {room : Nat} {expr : Expr} {exprs : List Expr} {front back : List Lexeme}
      {comma : Lexeme} (first : Derives room (.expression 0 expr) front)
      (kind : comma.kind = Symbol.comma) (others : Derives room (.values exprs) back) :
      Derives room (.values (expr :: exprs)) (front ++ comma :: back)
  | assign {room : Nat} {target value : Expr} {operator : AssignOperator}
      {front signs back : List Lexeme} (onLeft : Derives room (.access target) front)
      (place : target.isPlace) (sign : operator.WrittenAs signs)
      (onRight : Derives room (.expression 0 value) back) :
      Derives room (.assignment ⟨target, operator, value⟩) (front ++ signs ++ back)
  | declarationWithValue {room : Nat} {scope : Scope} {value : Expr}
      {keyword word equals : Lexeme} {words : List Lexeme} (opens : scope.Initialised keyword.kind)
      (kind : word.kind = .identifier) (sign : equals.kind = Symbol.equals)
      (initial : Derives room (.expression 0 value) words) :
      Derives room (.statement (.declaration scope word.content (some value)))
        (keyword :: word :: equals :: words)
  | declaration {room : Nat} {keyword word : Lexeme} (opens : keyword.kind = Keyword.local_)
      (kind : word.kind = .identifier) :
      Derives room (.statement (.declaration .local_ word.content none)) [keyword, word]
  | function {room : Nat} {parameters : List String} {body : Block}
      {keyword word opening closing : Lexeme} {words back : List Lexeme}
      (opens : keyword.kind = Keyword.function) (kind : word.kind = .identifier)
      (before : opening.kind = Symbol.openParen)
      (inside : Derives room (.items (parameters.map .parameter)) words)
      (behind : closing.kind = Symbol.closeParen) (block : Derives room (.block body) back) :
      Derives room (.statement (.function word.content parameters body))
        (keyword :: word :: opening :: words ++ closing :: back)
  | returningNothing {room : Nat} {keyword : Lexeme} (opens : keyword.kind = Keyword.return_) :
      Derives room (.statement (.returning [])) [keyword]
  | returning {room : Nat} {exprs : List Expr} {keyword : Lexeme} {words : List Lexeme}
      (opens : keyword.kind = Keyword.return_) (values : Derives room (.values exprs) words) :
      Derives room (.statement (.returning exprs)) (keyword :: words)
  | conditional {room : Nat} {chain : Conditional} {keyword : Lexeme} {words : List Lexeme}
      (opens : keyword.kind = Keyword.if_) (chained : Derives room (.conditional chain) words) :
      Derives room (.statement (.conditional chain)) (keyword :: words)
  | only {room : Nat} {condition : Expr} {body : Block} {front back : List Lexeme}
      (test : Derives room (.expression 0 condition) front)
      (block : Derives room (.block body) back) :
      Derives room (.conditional (.only condition body)) (front ++ back)
  | otherwise {room : Nat} {condition : Expr} {body other : Block}
      {front middle back : List Lexeme} {keyword : Lexeme}
      (test : Derives room (.expression 0 condition) front)
      (block : Derives room (.block body) middle) (kind : keyword.kind = Keyword.else_)
      (last : Derives room (.block other) back) :
      Derives room (.conditional (.otherwise condition body other))
        (front ++ middle ++ keyword :: back)
  | elif {room : Nat} {condition : Expr} {body : Block} {next : Conditional}
      {front middle back : List Lexeme} {keyword : Lexeme}
      (test : Derives (room + 1) (.expression 0 condition) front)
      (block : Derives (room + 1) (.block body) middle) (kind : keyword.kind = Keyword.elif)
      (chained : Derives room (.conditional next) back) :
      Derives (room + 1) (.conditional (.elif condition body next))
        (front ++ middle ++ keyword :: back)
  | each {room : Nat} {collection : Expr} {body : Block} {keyword word within : Lexeme}
      {front back : List Lexeme} (opens : keyword.kind = Keyword.for_)
      (kind : word.kind = .identifier) (among : within.kind = Keyword.in_)
      (items : Derives room (.expression 0 collection) front)
      (block : Derives room (.block body) back) :
      Derives room (.statement (.each word.content collection body))
        (keyword :: word :: within :: front ++ back)
  /-- A `return` without values is no step of a loop. -/
  | loop {room : Nat} {start : Assignment} {step : Statement} {condition : Expr} {body : Block}
      {keyword with_ while_ : Lexeme} {first second third back : List Lexeme}
      (opens : keyword.kind = Keyword.for_)
      (starts : Derives (room + 1) (.assignment start) first)
      (before : with_.kind = Keyword.with_) (steps : Derives room (.statement step) second)
      (returns : step ≠ .returning []) (behind : while_.kind = Keyword.while_)
      (test : Derives (room + 1) (.expression 0 condition) third)
      (block : Derives (room + 1) (.block body) back) :
      Derives (room + 1) (.statement (.loop start step condition body))
        (keyword :: first ++ with_ :: second ++ while_ :: third ++ back)
  | range {room : Nat} {start stop : Binary64} {body : Block}
      {keyword first to_ second as word : Lexeme} {back : List Lexeme}
      (opens : keyword.kind = Keyword.hardcode) (from_ : first.Numbers start)
      (between : to_.kind = Keyword.to_) (upTo : second.Numbers stop)
      (before : as.kind = Keyword.as) (kind : word.kind = .identifier)
      (block : Derives room (.block body) back) :
      Derives room (.statement (.range start stop word.content body))
        (keyword :: first :: to_ :: second :: as :: word :: back)
  | assignment {room : Nat} {assignment : Assignment} {words : List Lexeme}
      (assigns : Derives room (.assignment assignment) words) :
      Derives room (.statement (.assignment assignment)) words
  | expression {room : Nat} {expr : Expr} {words : List Lexeme}
      (evaluates : Derives room (.expression 0 expr) words) :
      Derives room (.statement (.expression expr)) words
  | noStatement {room : Nat} : Derives room (.statements []) []
  | moreStatements {room : Nat} {statement : Statement} {body : Block}
      {front back : List Lexeme} {semicolon : Lexeme}
      (first : Derives room (.statement statement) front)
      (kind : semicolon.kind = Symbol.semicolon) (others : Derives room (.statements body) back) :
      Derives room (.statements (statement :: body)) (front ++ semicolon :: back)
  | block {room : Nat} {body : Block} {words : List Lexeme} {opening closing : Lexeme}
      (opens : opening.kind = Symbol.openCurly) (inside : Derives room (.statements body) words)
      (closes : closing.kind = Symbol.closeCurly) :
      Derives (room + 1) (.block body) (opening :: words ++ [closing])
  | program {room : Nat} {program : Program} {words : List Lexeme} {finish : Lexeme}
      (body : Derives room (.statements program) words) (kind : finish.kind = .finish) :
      Derives room (.program program) (words ++ [finish])

namespace Derives

variable {room : Nat} {words : List Lexeme}

theorem access_of_isPlace {expr : Expr} (derived : Derives room (.value expr) words)
    (place : expr.isPlace) : Derives room (.access expr) words := by
  cases derived with
  | accessed access => exact access
  | number | text | selector | array | object => contradiction

theorem eq_of_name {name : String} (derived : Derives room (.access (.name name)) words) :
    ∃ word : Lexeme, words = [word] ∧ word.kind = .identifier ∧ word.content = name := by
  cases derived with
  | name kind => exact ⟨_, rfl, kind, rfl⟩

theorem exprs_ne_nil {exprs : List Expr} (derived : Derives room (.values exprs) words) :
    exprs ≠ [] := by
  cases derived <;> exact List.cons_ne_nil _ _

theorem eq_of_returning_nil (derived : Derives room (.statement (.returning [])) words) :
    ∃ keyword : Lexeme, words = [keyword] ∧ keyword.kind = Keyword.return_ := by
  cases derived with
  | returningNothing opens => exact ⟨_, rfl, opens⟩
  | returning opens values => exact absurd rfl values.exprs_ne_nil

end Derives

end BlockScript
