import BlockScript.Proofs.Syntax.Ground
import BlockScript.Proofs.Syntax.Lookahead
import BlockScript.Proofs.Syntax.Soundness

/-!
# The parser blames what it has met

Whatever a parser of a level rejects, it rejects with a fault that the tokens explain
(`Level.blames_ofRoom`): the token that is blamed is one of the input, and the cause says of it what
is so. The recursion is the one of the levels again. What a parser has accepted matters in one place
only: a bad target of an assignment is blamed as a whole, and the tokens that it is made of are
known from what it has been derived from (`explains_target`).
-/

namespace BlockScript

/-- The parsers of a level blame their ground. -/
structure Level.Blames (level : Level) (ground : Ground) : Prop where
  expression : ∀ least, Parser.Blames ground Parser.Always (level.expression least)
  conditional : Parser.Blames ground Parser.Always level.conditional
  statement : Parser.Blames ground Parser.Always level.statement

/-- The level inside blames its ground, and the limit is the one that is told. -/
structure Nesting.Blames (nesting : Nesting) (ground : Ground) : Prop where
  limit : nesting.limit = nestingLimit
  inner : ∀ level, nesting.inner? = some level → level.Blames ground

namespace Parser

variable {α : Type} {ground : Ground} {nesting : Nesting} {room : Nat} {pre : Stream → Prop}

namespace Blames

theorem enter {parse : Level → Parser α} {token : Token} (blames : nesting.Blames ground)
    (mem : token ∈ ground.tokens)
    (inside : ∀ level : Level, level.Blames ground → Blames ground pre (parse level)) :
    Blames ground pre (nesting.enter token.span parse) := by
  unfold Nesting.enter
  cases opened : nesting.inner? with
  | none => exact .fail mem blames.limit
  | some level => exact inside level (blames.inner level opened)

end Blames

/-! ## Lists -/

section
variable {item : Parser α} {comma close : Slot}

theorem itemsUpTo_blames (blames : Blames ground Always item) (bound : Nat) :
    Blames ground Always (itemsUpTo item comma close bound) := by
  induction bound with
  | zero => exact .pure _
  | succ bound ih =>
    apply Blames.bind_peek
    intro kind
    split
    · exact .pure _
    · refine .bind blames.anywhere fun first => .bind_peek fun next => ?_
      split
      · exact .pure _
      · refine .bind_expect fun token _ _ => ?_
        exact ih.bind_pure _

theorem items_blames (blames : Blames ground Always item) :
    Blames ground Always (items item comma close) := by
  refine .bind_remaining fun bound => .bind (itemsUpTo_blames blames _) fun found => ?_
  exact .bind_expect fun token _ _ => .pure _

theorem someItems_blames (blames : Blames ground Always item) (bound : Nat) :
    Blames ground Always (someItems item bound) := by
  induction bound with
  | zero => exact blames.bind_pure _
  | succ bound ih =>
    refine .bind blames fun first => .bind_accept? (by simp) (.pure _) fun token _ _ => ?_
    exact ih.bind_pure _

theorem statementsUpTo_blames (blames : Blames ground Always item) (stops : Kind → Bool)
    (bound : Nat) : Blames ground Always (statementsUpTo item stops bound) := by
  induction bound with
  | zero => exact .pure _
  | succ bound ih =>
    apply Blames.bind_peek
    intro kind
    split
    · exact .pure _
    · refine .bind blames.anywhere fun first => .bind_expect fun token _ _ => ?_
      exact ih.bind_pure _

end

/-! ## Values -/

theorem finiteNumber_blames {token : Token} (mem : token ∈ ground.tokens)
    (kind : token.kind = .number) : Blames ground pre (finiteNumber token) := by
  unfold finiteNumber
  split
  · rename_i unreadable
    exact .fail mem ⟨kind, unreadable⟩
  · split
    · exact .pure _
    · exact .fail mem kind

theorem entry_blames {level : Level} (blames : level.Blames ground) :
    Blames ground Always (entry level) := by
  refine .bind (blames.expression 0) fun key => .bind_expect fun token _ _ => ?_
  exact (blames.expression 0).bind_pure _

theorem memberIndex_blames {level : Level} (blames : level.Blames ground) :
    Blames ground Always (memberIndex level) := by
  refine .bind (blames.expression 0) fun index => ?_
  exact .bind_expect fun token _ _ => .pure _

theorem group_blames {level : Level} (blames : level.Blames ground) :
    Blames ground Always (group level) := by
  refine .bind (blames.expression 0) fun expr => ?_
  exact .bind_expect fun token _ _ => .pure _

theorem suffixes_blames (blames : nesting.Blames ground) (bound : Nat) (value : Expr) :
    Blames ground pre (suffixes nesting bound value) := by
  induction bound generalizing value pre with
  | zero => exact .pure _
  | succ bound ih =>
    refine .bind_accept? (by simp) ?_ fun opening mem _ => ?_
    · dsimp only
      split
      · exact .bind_accept? (by simp) (.pure _) fun token _ _ => ih _
      · exact .pure _
    · exact .bind (.enter blames mem fun level known => memberIndex_blames known) fun index => ih _

theorem access_blames (blames : nesting.Blames ground) (name : String) :
    Blames ground Always (access nesting name) := by
  refine .bind_accept? (by simp) ?_ fun opening mem _ => ?_
  · exact .bind_remaining fun bound => suffixes_blames blames bound _
  · refine .bind (.enter blames mem fun level known => items_blames (known.expression 0)) ?_
    intro arguments
    exact .bind_remaining fun bound => suffixes_blames blames bound _

theorem valueAfter_blames (blames : nesting.Blames ground) {token : Token}
    (mem : token ∈ ground.tokens) : Blames ground Always (valueAfter nesting token) := by
  unfold valueAfter
  split
  · rename_i kind
    exact (finiteNumber_blames mem kind).bind_pure _
  · exact .pure _
  · exact .pure _
  · exact access_blames blames _
  · exact (Blames.enter blames mem fun level known => items_blames (known.expression 0)).bind_pure _
  · exact (Blames.enter blames mem fun level known => items_blames (entry_blames known)).bind_pure _
  · split
    · rename_i pending
      exact .fail mem ⟨pending, rfl⟩
    · exact .fail mem rfl

theorem value_blames (blames : nesting.Blames ground) : Blames ground pre (value nesting) := by
  refine .bind_take? (.blame fun stream _ => ?_) fun token mem => valueAfter_blames blames mem
  exact (ground.current_found stream).symm

theorem operand_blames (blames : nesting.Blames ground) : Blames ground pre (operand nesting) := by
  refine .bind_accept? (by simp) (value_blames blames) fun opening mem _ => ?_
  exact .enter blames mem fun level known => group_blames known

theorem climb_blames (blames : nesting.Blames ground) (bound least : Nat) (left : Expr) :
    Blames ground Always (climb nesting bound least left) := by
  induction bound generalizing least left with
  | zero => exact .pure _
  | succ bound ih =>
    apply Blames.bind_peek
    intro kind
    split
    · exact .pure _
    · split
      · exact .pure _
      · refine .bind_skip (.bind (operand_blames blames) fun first => .bind (ih _ _) fun right => ?_)
        exact ih _ _

theorem expression_blames (blames : nesting.Blames ground) (least : Nat) :
    Blames ground pre (expression nesting least) :=
  .bind (operand_blames blames) fun _ => .bind_remaining fun _ => climb_blames blames _ _ _

/-! ## Statements -/

theorem blockBody_blames {level : Level} (blames : level.Blames ground) :
    Blames ground Always (blockBody level) := by
  refine .bind_remaining fun bound => .bind (statementsUpTo_blames blames.statement _ _) ?_
  intro body
  exact .bind_expect fun token _ _ => .pure _

theorem block_blames (blames : nesting.Blames ground) : Blames ground pre (block nesting) :=
  .bind_expect fun _ mem _ => .enter blames mem fun _ known => blockBody_blames known

theorem assignOperator_blames : Blames ground pre assignOperator := by
  have blame (pre : Stream → Prop) :
      Blames ground pre (Parser.blame .expectedAssignment : Parser AssignOperator) :=
    .blame fun stream _ => (ground.current_found stream).symm
  refine .bind_accept? (by simp) (.bind_peek fun kind => ?_) fun token _ _ => .pure _
  split
  · exact blame _
  · apply Blames.bind_get
    intro stream _
    split
    · exact .bind_skip (.bind_skip (.pure _))
    · exact blame _

/-- The tokens of a value that has been taken explain that it is no place. -/
theorem explains_target (sound : nesting.Sound room) {stream left : Stream} {expr : Expr}
    (before : ground.Holds stream) (after : ground.Holds left)
    (ran : value nesting stream = .ok expr left) (place : ¬ expr.isPlace) :
    ground.Explains ⟨.notAssignable, (ground.current stream).span.merge left.last⟩ := by
  obtain ⟨words, lexemes, derived⟩ := value_yields sound trivial ran
  obtain ⟨target, rest, rfl⟩ := before.exists_taken after lexemes
  obtain ⟨taken, split, -⟩ := before.rest
  obtain ⟨passed, split', last⟩ := after.rest
  -- The target stands between the beginnings of both streams.
  have joined : (taken ++ target) ++ left.rest = passed ++ left.rest := by
    rw [List.append_assoc, ← rest, ← split, split']
  obtain rfl := List.append_cancel_right joined
  cases target with
  | nil =>
    have opens := derived.opens.1
    contradiction
  | cons first target =>
    obtain ⟨final, ends⟩ : ∃ final, (first :: target).getLast? = some final :=
      ⟨_, List.getLast?_eq_some_getLast (List.cons_ne_nil first target)⟩
    have starts : ground.current stream = first := by
      rw [Ground.current, rest]
      rfl
    have lastSpan : left.last = final.span := by
      rw [last, Ground.lastOf, List.getLast?_append, ends]
      rfl
    rw [starts, lastSpan]
    exact .target (by rw [split, rest]) rfl ends derived place

theorem assignment_blames (sound : nesting.Sound room) (blames : nesting.Blames ground) :
    Blames ground pre (assignment nesting) := by
  apply Blames.bind_here
  intro first _ stream _ starts
  apply (value_blames blames).bind_of_ok
  rintro _ target left before rfl ran
  split
  · refine .bind assignOperator_blames fun operator => ?_
    exact (expression_blames blames 0).bind_pure _
  · rename_i place
    apply Blames.bind_get
    rintro _ rfl last after rfl
    show ground.Explains ⟨.notAssignable, first.span.merge last.last⟩
    rw [← starts]
    exact explains_target sound before after ran place

/-- The keyword is blamed for a declaration of a wrong shape. -/
theorem declaration_blames (blames : nesting.Blames ground) (scope : Scope) :
    Blames ground (·.kind = scope.keyword) (declaration nesting scope) := by
  apply Blames.bind_here
  intro keyword mem stream shown starts
  have opens : keyword.kind = scope.keyword := by rw [← starts, ground.current_kind, shown]
  refine .bind_skip (.bind (value_blames blames) fun value => ?_)
  split
  · apply Blames.bind_peek
    intro next
    split
    · split
      · exact .bind_skip ((expression_blames blames 0).bind_pure _)
      · rename_i needs
        exact .fail mem ⟨scope, opens, needs⟩
    · split
      · rename_i needs
        exact .fail mem ⟨opens, needs⟩
      · exact .pure _
  · exact .fail mem ⟨scope, opens⟩

theorem parameter_blames : Blames ground pre parameter :=
  .bind_expect fun _ _ _ => .pure _

theorem function_blames (blames : nesting.Blames ground) :
    Blames ground pre (function nesting) := by
  refine .bind_skip (.bind_expect fun name _ _ => .bind_expect fun opening _ _ => ?_)
  refine .bind (items_blames parameter_blames) fun parameters => ?_
  exact (block_blames blames).bind_pure _

theorem returning_blames (blames : nesting.Blames ground) :
    Blames ground pre (returning nesting) := by
  refine .bind_skip (.bind_peek fun next => ?_)
  split
  · exact .pure _
  · refine .bind_remaining fun bound => ?_
    exact ((someItems_blames (expression_blames blames 0) bound).bind_pure _).anywhere

theorem conditional_blames (blames : nesting.Blames ground) :
    Blames ground pre (conditional nesting) := by
  refine .bind_skip (.bind (expression_blames blames 0) fun condition => ?_)
  refine .bind (block_blames blames) fun body => .bind_peek fun next => ?_
  split
  · apply Blames.bind_here
    intro keyword mem _ _ _
    exact (Blames.enter blames mem fun level known => known.conditional.anywhere).bind_pure _
  · exact .bind_skip ((block_blames blames).bind_pure _)
  · exact .pure _

theorem each_blames (blames : nesting.Blames ground) (name : String) :
    Blames ground pre (each nesting name) := by
  refine .bind_skip (.bind_skip (.bind (expression_blames blames 0) fun collection => ?_))
  exact (block_blames blames).bind_pure _

theorem loop_blames (sound : nesting.Sound room) (blames : nesting.Blames ground) :
    Blames ground pre (loop nesting) := by
  refine .bind (assignment_blames sound blames) fun start => .bind_expect fun with_ _ _ => ?_
  apply Blames.bind_here
  intro next mem _ _ _
  refine .bind (.enter blames mem fun level known => known.statement.anywhere) fun step => ?_
  refine .bind_expect fun while_ _ _ => .bind (expression_blames blames 0) fun condition => ?_
  exact (block_blames blames).bind_pure _

theorem loopOrEach_blames (sound : nesting.Sound room) (blames : nesting.Blames ground) :
    Blames ground pre (loopOrEach nesting) := by
  refine .bind_skip (.bind_get fun stream _ => ?_)
  split
  · exact each_blames blames _
  · exact loop_blames sound blames

theorem rangeBound_blames (bound : Bound) : Blames ground pre (rangeBound bound) := by
  refine .bind_accept? (by simp) (.blame ?_) fun token mem kind => finiteNumber_blames mem kind
  intro stream start
  rw [← ground.current_found, ← ground.current_kind] at *
  exact ⟨rfl, start.2⟩

theorem range_blames (blames : nesting.Blames ground) : Blames ground pre (range nesting) := by
  refine .bind_skip (.bind (rangeBound_blames .start) fun start => ?_)
  refine .bind_expect fun to_ _ _ => .bind (rangeBound_blames .stop) fun stop => ?_
  refine .bind_expect fun as _ _ => .bind_expect fun name _ _ => ?_
  exact (block_blames blames).bind_pure _

theorem assignmentOrExpression_blames (sound : nesting.Sound room) (blames : nesting.Blames ground) :
    Blames ground pre (assignmentOrExpression nesting) := by
  apply Blames.bind_get
  intro stream _
  split
  · exact (assignment_blames sound blames).bind_pure _
  · exact (expression_blames blames 0).bind_pure _

theorem statement_blames (sound : nesting.Sound room) (blames : nesting.Blames ground) :
    Blames ground pre (statement nesting) := by
  apply Blames.bind_peek
  intro kind
  split
  · exact function_blames blames
  · exact returning_blames blames
  · exact (conditional_blames blames).bind_pure _
  · exact (declaration_blames blames .global).weaken fun _ shown => shown.2
  · exact (declaration_blames blames .local_).weaken fun _ shown => shown.2
  · exact (declaration_blames blames .var).weaken fun _ shown => shown.2
  · exact loopOrEach_blames sound blames
  · exact range_blames blames
  · exact assignmentOrExpression_blames sound blames

end Parser

/-! ## Levels -/

theorem Level.Blames.ofNesting {ground : Ground} {nesting : Nesting} {room : Nat}
    (sound : nesting.Sound room) (blames : nesting.Blames ground) :
    (Level.ofNesting nesting).Blames ground where
  expression := Parser.expression_blames blames
  conditional := Parser.conditional_blames blames
  statement := Parser.statement_blames sound blames

/-- At every level, whatever is rejected is rejected for a token of the ground. -/
theorem Level.blames_ofRoom (ground : Ground) (room : Nat) :
    (Level.ofRoom nestingLimit room).Blames ground := by
  induction room with
  | zero => exact .ofNesting (Nesting.sound_ofRoom _ 0) ⟨rfl, fun level opened => by contradiction⟩
  | succ room ih =>
    refine .ofNesting (Nesting.sound_ofRoom _ (room + 1)) ⟨rfl, fun level opened => ?_⟩
    cases opened
    exact ih

theorem Nesting.blames_ofRoom (ground : Ground) (room : Nat) :
    (Nesting.ofRoom nestingLimit room).Blames ground := by
  cases room with
  | zero => exact ⟨rfl, fun level opened => by contradiction⟩
  | succ room =>
    refine ⟨rfl, fun level opened => ?_⟩
    cases opened
    exact Level.blames_ofRoom ground room

/-- The tokens of an input, before any of them is taken. -/
theorem Ground.holds_ofTokens (ground : Ground)
    (inner : ∀ token ∈ ground.inner, token.kind ≠ .finish) :
    ground.Holds (.ofTokens ground.tokens) := by
  have before : ∀ token ∈ ground.inner, Stream.isInner token := by
    intro token mem
    simpa [Stream.isInner] using inner token mem
  have ends : Stream.isInner ground.finish = false := by simp [Stream.isInner, ground.isFinish]
  have rest : (Stream.ofTokens ground.tokens).rest = ground.inner := by
    rw [Stream.ofTokens, tokens, List.takeWhile_append_of_pos before, List.takeWhile_cons, ends]
    simp
  have finish : (Stream.ofTokens ground.tokens).finish = ground.finish.span := by
    have none : ground.inner.find? (fun token => !Stream.isInner token) = none := by
      rw [List.find?_eq_none]
      intro token mem
      simp [before token mem]
    rw [Stream.ofTokens, Stream.finishOf, tokens, List.find?_append, none]
    simp [ends]
  exact ⟨⟨[], rest.symm, rfl⟩, finish⟩

/-- What is rejected as a program is rejected for tokens of the input. -/
theorem explains_of_parseTokens {ground : Ground}
    (inner : ∀ token ∈ ground.inner, token.kind ≠ .finish) {fault : Fault}
    (failed : parseTokens ground.tokens = .error fault) : ground.Explains fault := by
  have statement := (Level.blames_ofRoom ground nestingLimit).statement
  have program : Parser.Blames ground Parser.Always (Parser.program (.outermost nestingLimit)) :=
    .bind_remaining fun bound => Parser.statementsUpTo_blames statement _ bound
  have ran := program _ (ground.holds_ofTokens inner) trivial
  rw [parseTokens, parseTokensWithin, Parser.runOn] at failed
  split at failed
  · contradiction
  · rename_i fault left result
    rw [result] at ran
    cases failed
    exact ran

end BlockScript
