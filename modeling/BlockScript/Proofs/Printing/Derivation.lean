import BlockScript.Proofs.Number.ReadBack
import BlockScript.Proofs.Printing.Pieces
import BlockScript.Proofs.Printing.Producible
import BlockScript.Proofs.Syntax.Grammar

/-!
# What is printed is derived

The lexemes of a printed tree are a phrase of the grammar for this tree, with as many levels open
as the tree is deep (`Statement.derives_all`). The induction is on the tree. An operand that binds
too loosely is derived as a group, one level further inside, and the printer has put parentheses
around exactly these operands.
-/

namespace BlockScript

open Piece

theorem Lexeme.numbers_ofNumber {x : Binary64} (literal : x.IsLiteral) :
    (Lexeme.ofNumber x).Numbers x where
  kind := rfl
  reads := by
    have reads := ofText?_write .program literal.finite
    simpa [Lexeme.ofNumber, Lexeme.content, Lexeme.number] using reads
  finite := literal.finite

namespace Expr

/-- The operators of the expression, if it has any on the outside, bind at least this tightly. -/
def BindsAtLeast (expr : Expr) (least : Nat) : Prop :=
  ∀ operator, expr.operator? = some operator → least ≤ operator.precedence

/-- What the printed expression is derived as. -/
structure Printed (room : Nat) (expr : Expr) : Prop where
  access : expr.isAccess → Derives room (.access expr) (words expr.pieces)
  expression : ∀ least, expr.BindsAtLeast least →
    Derives room (.expression least expr) (words expr.pieces)

theorem Printed.of_value {room : Nat} {expr : Expr} (single : expr.isAccess = false)
    (derived : Derives room (.value expr) (words expr.pieces)) : expr.Printed room where
  access access := by simp [single] at access
  expression _ _ := .operand (.single derived)

theorem Printed.of_access {room : Nat} {expr : Expr}
    (derived : Derives room (.access expr) (words expr.pieces)) : expr.Printed room where
  access _ := derived
  expression _ _ := .operand (.single (.accessed derived))

theorem Printed.whole {room : Nat} {expr : Expr} (printed : expr.Printed room) :
    Derives room (.expression 0 expr) (words expr.pieces) :=
  printed.expression 0 fun _ _ => Nat.zero_le _

theorem exists_inner {deep room : Nat} (fits : deep + 1 ≤ room) :
    ∃ inner, room = inner + 1 ∧ deep ≤ inner := by
  cases room with
  | zero => contradiction
  | succ inner => exact ⟨inner, rfl, Nat.le_of_succ_le_succ fits⟩

/-- An operand is derived with the parentheses that it needs, or else without them. -/
theorem derives_grouped {room least : Nat} {expr : Expr} {needed : Bool}
    (printed : ∀ room, expr.depth ≤ room → expr.Printed room)
    (deep : expr.depth + needed.toNat ≤ room) (binds : needed = false → expr.BindsAtLeast least) :
    Derives room (.expression least expr) (words (grouped needed expr.pieces)) := by
  cases needed with
  | false => exact (printed room deep).expression least (binds rfl)
  | true =>
    obtain ⟨inner, rfl, shallow⟩ := exists_inner deep
    have inside := (printed inner shallow).whole
    have group : Derives (inner + 1) (.operand expr)
        (.symbol .openParen :: words expr.pieces ++ [.symbol .closeParen]) := .group rfl inside rfl
    rw [grouped, if_pos rfl, words_append, words_mark]
    exact .operand group

theorem bindsAtLeast_of_not_needsGroupLeftOf {operator : Operator} {expr : Expr}
    (free : expr.needsGroupLeftOf operator = false) : expr.BindsAtLeast operator.precedence := by
  intro other known
  rw [needsGroupLeftOf, known, Option.any_some, decide_eq_false_iff_not] at free
  exact Nat.le_of_not_lt free

theorem bindsAtLeast_of_not_needsGroupRightOf {operator : Operator} {expr : Expr}
    (free : expr.needsGroupRightOf operator = false) :
    expr.BindsAtLeast (operator.precedence + 1) := by
  intro other known
  rw [needsGroupRightOf, known, Option.any_some, decide_eq_false_iff_not] at free
  exact Nat.lt_of_not_le free

theorem looser_of_needsGroupLeftOf {operator : Operator} {expr : Expr}
    (needed : expr.needsGroupLeftOf operator) :
    ∃ inner, expr.operator? = some inner ∧ inner.precedence < operator.precedence := by
  obtain ⟨inner, known, looser⟩ := (Option.any_eq_true _ _).mp needed
  exact ⟨inner, known, of_decide_eq_true looser⟩

theorem looser_of_needsGroupRightOf {operator : Operator} {expr : Expr}
    (needed : expr.needsGroupRightOf operator) :
    ∃ inner, expr.operator? = some inner ∧ inner.precedence < operator.precedence + 1 := by
  obtain ⟨inner, known, looser⟩ := (Option.any_eq_true _ _).mp needed
  exact ⟨inner, known, Nat.lt_succ_of_le (of_decide_eq_true looser)⟩

mutual

theorem printed : ∀ (expr : Expr) (room : Nat), expr.Producible → expr.depth ≤ room →
    expr.Printed room
  | .number x, room, literal, _ => .of_value rfl (.number (Lexeme.numbers_ofNumber literal))
  | .text content, room, _, _ => .of_value rfl (@Derives.text room (.text content) rfl)
  | .name word, room, _, _ => .of_access (@Derives.name room (.identifier word) rfl)
  | .selector target, room, _, _ => .of_value rfl (@Derives.selector room (.selector target) rfl)
  | .member value index, room, ⟨access, valueOk, indexOk⟩, deep => by
    rw [depth, Nat.max_le] at deep
    obtain ⟨inner, rfl, shallow⟩ := exists_inner deep.2
    have onto := (printed value (inner + 1) valueOk deep.1).access access
    have inside := (printed index inner indexOk shallow).whole
    have whole : Derives (inner + 1) (.access (.member value index)) (words value.pieces ++
        .symbol .openBracket :: words index.pieces ++ [.symbol .closeBracket]) :=
      .member onto rfl inside rfl
    refine .of_access ?_
    simpa only [pieces_member, words_append, words_mark, words_nil, List.append_assoc,
      List.cons_append] using whole
  | .selected value target, room, ⟨place, valueOk, _⟩, deep => by
    have onto := (printed value room valueOk deep).access (isAccess_of_isPlace place)
    have whole : Derives room (.access (.selected value target))
        (words value.pieces ++ [.selector target]) :=
      @Derives.selected _ _ _ (.selector target) onto place rfl
    refine .of_access ?_
    rw [pieces_selected, words_append]
    exact whole
  | .binary operator left right, room, ⟨leftOk, rightOk⟩, deep => by
    rw [depth, Nat.max_le] at deep
    have onLeft := derives_grouped (fun room => printed left room leftOk) deep.1
      bindsAtLeast_of_not_needsGroupLeftOf
    have onRight := derives_grouped (fun room => printed right room rightOk) deep.2
      bindsAtLeast_of_not_needsGroupRightOf
    refine ⟨fun access => by contradiction, fun least binds => ?_⟩
    rw [pieces_binary, words_append]
    exact .binary operator.atLevel_precedence (binds operator rfl) onLeft rfl onRight
  | .call callee arguments, room, ⟨_, argumentsOk⟩, deep => by
    obtain ⟨inner, rfl, shallow⟩ := exists_inner deep
    have inside := derives_items arguments inner argumentsOk shallow
    have whole : Derives (inner + 1) (.access (.call callee arguments))
        (.identifier callee :: .symbol .openParen :: words (listPieces arguments) ++
          [.symbol .closeParen]) :=
      @Derives.call _ (.identifier callee) _ _ _ _ rfl rfl inside rfl
    refine .of_access ?_
    rw [pieces_call, words_name, words_mark, words_append]
    exact whole
  | .array elements, room, elementsOk, deep => by
    obtain ⟨inner, rfl, shallow⟩ := exists_inner deep
    have inside := derives_items elements inner elementsOk shallow
    have whole : Derives (inner + 1) (.value (.array elements))
        (.symbol .openBracket :: words (listPieces elements) ++ [.symbol .closeBracket]) :=
      .array rfl inside rfl
    refine .of_value rfl ?_
    rw [pieces_array, words_mark, words_append]
    exact whole
  | .object entries, room, entriesOk, deep => by
    obtain ⟨inner, rfl, shallow⟩ := exists_inner deep
    have inside := derives_entries entries inner entriesOk shallow
    have whole : Derives (inner + 1) (.value (.object entries))
        (.symbol .openCurly :: words (entryPieces entries) ++ [.symbol .closeCurly]) :=
      .object rfl inside rfl
    refine .of_value rfl ?_
    rw [pieces_object, words_mark, words_append]
    exact whole

theorem derives_items : ∀ (exprs : List Expr) (room : Nat), AllProducible exprs →
    depthOfAll exprs ≤ room →
    Derives room (.items (exprs.map .expression)) (words (listPieces exprs))
  | [], room, _, _ => .noItem
  | [expr], room, ⟨exprOk, _⟩, deep => by
    rw [listPieces_single]
    exact .lastItem (.element (printed expr room exprOk (Nat.le_trans (Nat.le_max_left _ _) deep)).whole)
  | expr :: second :: others, room, ⟨exprOk, othersOk⟩, deep => by
    rw [depthOfAll, Nat.max_le] at deep
    have first := (printed expr room exprOk deep.1).whole
    have behind := derives_items (second :: others) room othersOk deep.2
    rw [listPieces_cons, words_append, words_mark, words_blank]
    exact .moreItems (.element first) rfl behind

theorem derives_entries : ∀ (entries : List (Entry Expr)) (room : Nat), EntriesProducible entries →
    depthOfEntries entries ≤ room →
    Derives room (.items (entries.map .entry)) (words (entryPieces entries))
  | [], room, _, _ => .noItem
  | [⟨key, value⟩], room, ⟨keyOk, valueOk, _⟩, deep => by
    rw [depthOfEntries, Nat.max_le, Nat.max_le] at deep
    have before := (printed key room keyOk deep.1.1).whole
    have behind := (printed value room valueOk deep.1.2).whole
    rw [entryPieces_single, words_append, words_mark, words_blank]
    exact .lastItem (.entry before rfl behind)
  | ⟨key, value⟩ :: second :: others, room, ⟨keyOk, valueOk, othersOk⟩, deep => by
    rw [depthOfEntries, Nat.max_le, Nat.max_le] at deep
    have before := (printed key room keyOk deep.1.1).whole
    have behind := (printed value room valueOk deep.1.2).whole
    have rest := derives_entries (second :: others) room othersOk deep.2
    have whole : Derives room (.items (.entry ⟨key, value⟩ :: (second :: others).map .entry))
        (words key.pieces ++ .symbol .colon :: words value.pieces ++ .symbol .comma ::
          words (entryPieces (second :: others))) := .moreItems (.entry before rfl behind) rfl rest
    simpa only [entryPieces_cons, words_append, words_mark, words_blank, List.append_assoc,
      List.cons_append, List.map_cons] using whole

end

theorem derives_values {room : Nat} : ∀ exprs : List Expr, exprs ≠ [] → AllProducible exprs →
    depthOfAll exprs ≤ room → Derives room (.values exprs) (words (listPieces exprs))
  | [], present, _, _ => absurd rfl present
  | [expr], _, ⟨exprOk, _⟩, deep => by
    have only := (printed expr room exprOk (Nat.le_trans (Nat.le_max_left _ _) deep)).whole
    rw [listPieces_single]
    exact .lastValue only
  | expr :: second :: others, _, ⟨exprOk, othersOk⟩, deep => by
    rw [depthOfAll, Nat.max_le] at deep
    have first := (printed expr room exprOk deep.1).whole
    have behind := derives_values (second :: others) (List.cons_ne_nil _ _) othersOk deep.2
    rw [listPieces_cons, words_append, words_mark, words_blank]
    exact .moreValues first rfl behind

theorem derives {room : Nat} {expr : Expr} (producible : expr.Producible)
    (deep : expr.depth ≤ room) : Derives room (.expression 0 expr) (words expr.pieces) :=
  (printed expr room producible deep).whole

theorem derives_place {room : Nat} {expr : Expr} (producible : expr.Producible)
    (place : expr.isPlace) (deep : expr.depth ≤ room) :
    Derives room (.access expr) (words expr.pieces) :=
  (printed expr room producible deep).access (isAccess_of_isPlace place)

end Expr

/-! ## Statements -/

theorem AssignOperator.writtenAs_symbols (operator : AssignOperator) :
    operator.WrittenAs (operator.symbols.map Lexeme.symbol) := by
  rw [WrittenAs, List.map_map]
  rfl

theorem Piece.words_map_mark (symbols : List Symbol) :
    words (symbols.map Piece.mark) = symbols.map Lexeme.symbol := by
  induction symbols with
  | nil => rfl
  | cons symbol others ih => exact congrArg (Lexeme.symbol symbol :: ·) ih

theorem Assignment.derives {room : Nat} {assignment : Assignment}
    (producible : assignment.Producible) (deep : assignment.depth ≤ room) :
    Derives room (.assignment assignment) (words assignment.pieces) := by
  rw [depth, Nat.max_le] at deep
  have onLeft := Expr.derives_place producible.target producible.place deep.1
  have onRight := Expr.derives producible.value deep.2
  have whole := Derives.assign onLeft producible.place assignment.operator.writtenAs_symbols onRight
  simpa only [Assignment.pieces, words_append, words_blank, words_nil, words_map_mark,
    List.append_nil] using whole

/-- The names of parameters, with commas between them. -/
theorem derives_parameters {room : Nat} : ∀ parameters : List String,
    Derives room (.items (parameters.map .parameter))
      (words (separated (parameters.map fun parameter => [.name parameter])))
  | [] => .noItem
  | [parameter] => .lastItem (@Derives.parameter _ (.identifier parameter) rfl)
  | parameter :: second :: others =>
    .moreItems (@Derives.parameter _ (.identifier parameter) rfl) rfl
      (derives_parameters (second :: others))

theorem derives_braced {room : Nat} (depth : Nat) {body : Block}
    (inside : Derives room (.statements body) (words (Statement.piecesOfAll (depth + 1) body))) :
    Derives (room + 1) (.block body)
      (words (braced depth (Statement.piecesOfAll (depth + 1) body))) := by
  rw [words_braced]
  exact .block rfl inside rfl

mutual

/-- What a statement is printed as is derived for it, however deep its lines are indented. -/
theorem Statement.derives : ∀ (statement : Statement) (room depth : Nat), statement.Producible →
    statement.depth ≤ room → Derives room (.statement statement) (words (statement.pieces depth))
  | .declaration .local_ name none, room, depth, _, _ =>
    @Derives.declaration _ (.keyword .local_) (.identifier name) rfl rfl
  | .declaration scope name (some value), room, depth, ⟨_, takes, valueOk⟩, deep => by
    have initial := Expr.derives (valueOk value rfl) deep
    exact @Derives.declarationWithValue _ _ _ (.keyword scope.keyword) (.identifier name)
      (.symbol .equals) _ takes.initialised rfl rfl initial
  | .function name parameters body, room, depth, ⟨_, _, bodyOk⟩, deep => by
    obtain ⟨inner, rfl, shallow⟩ := Expr.exists_inner deep
    have block := derives_braced depth (Statement.derives_all body inner (depth + 1) bodyOk shallow)
    have whole : Derives (inner + 1) (.statement (.function name parameters body)) _ :=
      @Derives.function _ _ _ (.keyword .function) (.identifier name) (.symbol .openParen)
        (.symbol .closeParen) _ _ rfl rfl rfl (derives_parameters parameters) rfl block
    simpa only [Statement.pieces, words_append, words_word, words_blank, words_name, words_mark,
      words_nil, List.append_assoc, List.cons_append, List.nil_append] using whole
  | .returning [], room, depth, _, _ => Derives.returningNothing rfl
  | .returning (value :: others), room, depth, valuesOk, deep => by
    have values := Expr.derives_values (value :: others) (List.cons_ne_nil _ _) valuesOk deep
    exact @Derives.returning _ _ (.keyword .return_) _ rfl values
  | .conditional chain, room, depth, chainOk, deep => by
    obtain ⟨rest, split, chained⟩ := Conditional.derives chain .if_ room depth chainOk deep
    rw [Statement.pieces, split]
    exact .conditional rfl chained
  | .loop start step condition body, room, depth,
      ⟨startOk, stepOk, returns, conditionOk, bodyOk⟩, deep => by
    rw [Statement.depth, Nat.max_le, Nat.max_le, Nat.max_le] at deep
    obtain ⟨⟨startDeep, stepDeep⟩, conditionDeep, bodyDeep⟩ := deep
    obtain ⟨inner, rfl, shallow⟩ := Expr.exists_inner stepDeep
    have starts := start.derives startOk startDeep
    have steps := Statement.derives step inner depth stepOk shallow
    have test := Expr.derives conditionOk conditionDeep
    have block := derives_braced depth
      (Statement.derives_all body inner (depth + 1) bodyOk (Nat.le_of_succ_le_succ bodyDeep))
    have whole : Derives (inner + 1) (.statement (.loop start step condition body)) _ :=
      @Derives.loop _ _ _ _ _ (.keyword .for_) (.keyword .with_) (.keyword .while_) _ _ _ _ rfl
        starts rfl steps returns rfl test block
    simpa only [Statement.pieces, words_append, words_word, words_blank, words_nil,
      List.append_assoc, List.cons_append, List.nil_append] using whole
  | .each name collection body, room, depth, ⟨_, collectionOk, bodyOk⟩, deep => by
    rw [Statement.depth, Nat.max_le] at deep
    obtain ⟨inner, rfl, shallow⟩ := Expr.exists_inner deep.2
    have items := Expr.derives collectionOk deep.1
    have block := derives_braced depth (Statement.derives_all body inner (depth + 1) bodyOk shallow)
    have whole : Derives (inner + 1) (.statement (.each name collection body)) _ :=
      @Derives.each _ _ _ (.keyword .for_) (.identifier name) (.keyword .in_) _ _ rfl rfl rfl
        items block
    simpa only [Statement.pieces, words_append, words_word, words_blank, words_name, words_nil,
      List.append_assoc, List.cons_append, List.nil_append] using whole
  | .range start stop name body, room, depth, ⟨startOk, stopOk, _, bodyOk⟩, deep => by
    obtain ⟨inner, rfl, shallow⟩ := Expr.exists_inner deep
    have block := derives_braced depth (Statement.derives_all body inner (depth + 1) bodyOk shallow)
    have whole : Derives (inner + 1) (.statement (.range start stop name body)) _ :=
      @Derives.range _ _ _ _ (.keyword .hardcode) (.ofNumber start) (.keyword .to_)
        (.ofNumber stop) (.keyword .as) (.identifier name) _ rfl (Lexeme.numbers_ofNumber startOk)
        rfl (Lexeme.numbers_ofNumber stopOk) rfl rfl block
    simpa only [Statement.pieces, words_append, words_word, words_blank, words_name, words_lexeme,
      words_nil, List.append_assoc, List.cons_append, List.nil_append] using whole
  | .assignment assignment, room, depth, assignmentOk, deep => by
    rw [Statement.pieces]
    exact .assignment (assignment.derives assignmentOk deep)
  | .expression expr, room, depth, exprOk, deep => by
    rw [Statement.pieces]
    exact .expression (Expr.derives exprOk deep)

theorem Conditional.derives : ∀ (chain : Conditional) (opening : Keyword) (room depth : Nat),
    chain.Producible → chain.depth ≤ room →
    ∃ rest, words (chain.pieces opening depth) = .keyword opening :: rest ∧
      Derives room (.conditional chain) rest
  | .only condition body, opening, room, depth, ⟨conditionOk, bodyOk⟩, deep => by
    rw [Conditional.depth, Nat.max_le] at deep
    obtain ⟨inner, rfl, shallow⟩ := Expr.exists_inner deep.2
    have test := Expr.derives conditionOk deep.1
    have block := derives_braced depth (Statement.derives_all body inner (depth + 1) bodyOk shallow)
    refine ⟨_, ?_, .only test block⟩
    simp only [Conditional.pieces, words_append, words_word, words_blank,
      List.append_assoc, List.cons_append, List.nil_append]
  | .otherwise condition body other, opening, room, depth, ⟨conditionOk, bodyOk, otherOk⟩,
      deep => by
    rw [Conditional.depth, Nat.max_le, Nat.max_le] at deep
    obtain ⟨inner, rfl, shallow⟩ := Expr.exists_inner deep.2.1
    have test := Expr.derives conditionOk deep.1
    have block := derives_braced depth (Statement.derives_all body inner (depth + 1) bodyOk shallow)
    have last := derives_braced depth
      (Statement.derives_all other inner (depth + 1) otherOk (Nat.le_of_succ_le_succ deep.2.2))
    refine ⟨_, ?_, @Derives.otherwise _ _ _ _ _ _ _ (.keyword .else_) test block rfl last⟩
    simp only [Conditional.pieces, words_append, words_word, words_blank,
      List.append_assoc, List.cons_append, List.nil_append]
  | .elif condition body next, opening, room, depth, ⟨conditionOk, bodyOk, nextOk⟩, deep => by
    rw [Conditional.depth, Nat.max_le, Nat.max_le] at deep
    obtain ⟨inner, rfl, shallow⟩ := Expr.exists_inner deep.2
    have test := Expr.derives conditionOk deep.1.1
    have block := derives_braced depth
      (Statement.derives_all body inner (depth + 1) bodyOk (Nat.le_of_succ_le_succ deep.1.2))
    obtain ⟨rest, split, chained⟩ := Conditional.derives next .elif inner depth nextOk shallow
    refine ⟨_, ?_, @Derives.elif _ _ _ _ _ _ _ (.keyword .elif) test block rfl chained⟩
    simp only [Conditional.pieces, words_append, words_word, words_blank, split,
      List.append_assoc, List.cons_append, List.nil_append]

theorem Statement.derives_all : ∀ (body : Block) (room depth : Nat), Statement.AllProducible body →
    Statement.depthOfAll body ≤ room →
    Derives room (.statements body) (words (Statement.piecesOfAll depth body))
  | [], room, depth, _, _ => .noStatement
  | [statement], room, depth, ⟨statementOk, _⟩, deep => by
    have first := Statement.derives statement room depth statementOk
      (Nat.le_trans (Nat.le_max_left _ _) deep)
    rw [Statement.piecesOfAll, words_append, words_mark]
    exact .moreStatements first rfl .noStatement
  | statement :: second :: others, room, depth, ⟨statementOk, othersOk⟩, deep => by
    rw [Statement.depthOfAll, Nat.max_le] at deep
    have first := Statement.derives statement room depth statementOk deep.1
    have behind := Statement.derives_all (second :: others) room depth othersOk deep.2
    have whole : Derives room (.statements (statement :: second :: others)) _ :=
      @Derives.moreStatements _ _ _ _ _ (.symbol .semicolon) first rfl behind
    simpa only [Statement.piecesOfAll, words_append, words_mark, words_newline, words_nil,
      List.append_assoc, List.cons_append, List.nil_append] using whole

end

end BlockScript
