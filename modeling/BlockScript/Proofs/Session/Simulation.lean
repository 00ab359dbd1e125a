import BlockScript.Proofs.Session.Mirror

/-!
# Every machine mirrors its parser

With enough fuel each function on sessions does what the parser of the same name does on streams.
One rule for each primitive is known; here they are put together along the definitions, from the
loops up to statements and programs.

What a function calls has less fuel than the function itself. It is called behind a token that the
function has taken, and so with fewer tokens left. That is why the number of tokens bounds the fuel
that is needed (`Machine.Calls.mirror_ofFuel`).
-/

namespace BlockScript

open View (Anything Something)

namespace View

variable {view : View} {room : Nat} {α : Type} {floor passed fuel bound : Nat}

namespace Mirrors

/-! ## Loops -/

section
variable {machine : Machine α} {parser : Parser α}

theorem itemsUpTo {comma close : Slot}
    (item : ∀ later, passed ≤ later →
      view.Mirrors room Anything floor later (later + 1) machine parser)
    (further : floor < passed) (fuels : view.Fuels passed fuel) (bounds : view.Bounds passed bound) :
    view.GoesOn room floor passed (Machine.itemsUpTo machine comma close fuel)
      (Parser.itemsUpTo parser comma close (bound + 1)) := by
  induction fuel generalizing passed bound with
  | zero => exact fuels.elim
  | succ fuel ih =>
    refine bind_peek fun kind _ => ?_
    split
    · exact pure _
    · refine (bind (item passed (Nat.le_refl _)) fun first => earlier ?_).anywhere
      refine bind_peek fun kind _ => ?_
      split
      · exact pure _
      · refine (bind_expect (Nat.lt_succ_of_lt further) fun _ _ _ => ?_).anywhere
        -- An item has been taken, so there was a token, and a round less is enough for the others.
        cases bound with
        | zero => exact bounds.elim
        | succ bound =>
          exact map (ih (fun later from_ => item later (Nat.le_of_succ_le from_))
            (Nat.lt_succ_of_lt further) fuels.next bounds.next) _

theorem items {comma close : Slot}
    (item : ∀ later, passed ≤ later →
      view.Mirrors room Anything floor later (later + 1) machine parser)
    (further : floor < passed) (fuels : view.Fuels passed fuel) :
    view.GoesOn room floor passed (Machine.items machine comma close fuel)
      (Parser.items parser comma close) := by
  refine bind_remaining fun bound later from_ bounds => ?_
  have furtherLater := Nat.lt_of_lt_of_le further from_
  refine bind (itemsUpTo (fun more after => item more (Nat.le_trans from_ after)) furtherLater
    (fuels.mono from_) bounds) fun found => ?_
  exact bind_expect furtherLater fun _ _ _ => pure _

theorem someItems (item : ∀ later, passed ≤ later → view.Opens room later machine parser)
    (further : floor < passed) (fuels : view.Fuels passed fuel) (bounds : view.Bounds passed bound) :
    view.GoesOn room floor passed (Machine.someItems machine fuel)
      (Parser.someItems parser bound) := by
  induction fuel generalizing passed bound with
  | zero => exact fuels.elim
  | succ fuel ih =>
    have first := (item passed (Nat.le_refl _)).lower (Nat.le_of_lt further)
    cases bound with
    | zero => exact bind first fun _ => bounds.elim
    | succ bound =>
      refine bind first fun first => earlier ?_
      refine bind_accept? Kind.noConfusion (fun _ _ _ _ => later ?_) (pure _)
      exact map (ih (fun later from_ => item later (Nat.le_of_succ_le from_))
        (Nat.lt_succ_of_lt further) fuels.next bounds.next) _

/-- At the end of the input a machine may still have to look whether it goes on. -/
theorem ended {value : α} (bounds : view.Bounds passed 0)
    (runs : ∀ session token, Machine.current session = .ok token session → token.kind = .finish →
      machine session = .ok value session) :
    view.Mirrors room front floor passed passed machine (Pure.pure value) := by
  intro session stream shows _
  cases shows.front with
  | token _ _ _ behind =>
    have passed_le := behind.passed_le
    unfold Bounds at bounds
    omega
  | finish reads =>
    rw [runs session _ reads view.isFinish]
    exact .ok shows

theorem statementsUpTo {stops : Kind → Bool} (last : stops .finish)
    (item : ∀ later, passed ≤ later → view.Opens room later machine parser)
    (further : floor < passed) (fuels : view.Fuels passed fuel) (bounds : view.Bounds passed bound) :
    view.GoesOn room floor passed (Machine.statementsUpTo machine stops fuel)
      (Parser.statementsUpTo parser stops bound) := by
  induction fuel generalizing passed bound with
  | zero => exact fuels.elim
  | succ fuel ih =>
    cases bound with
    | zero =>
      refine ended bounds fun session token reads kind => ?_
      rw [Machine.statementsUpTo, Machine.bind_of_eq_ok (Machine.peek_of_current reads), kind,
        if_pos last]
      rfl
    | succ bound =>
      refine bind_peek fun kind _ => ?_
      split
      · exact pure _
      · refine (bind ((item passed (Nat.le_refl _)).lower (Nat.le_of_lt further)) fun first =>
          earlier ?_).anywhere
        refine bind_expect (Nat.lt_succ_of_lt further) fun _ _ _ => ?_
        exact map (ih (fun later from_ => item later (Nat.le_of_succ_le from_))
          (Nat.lt_succ_of_lt further) fuels.next bounds.next) _

end

end Mirrors

end View

/-! ## Calls -/

/-- The calls mirror the parsers of every level, at all places from `passed` on. -/
structure Machine.Calls.Mirror (calls : Machine.Calls) (view : View) (passed : Nat) : Prop where
  expression : ∀ {room later least : Nat}, passed ≤ later →
    view.Opens room later (calls.expression least)
      ((Level.ofRoom nestingLimit room).expression least)
  /-- A right operand starts an expression of its own, with the bound of the expression around. -/
  operand : ∀ {room later least bound : Nat}, passed ≤ later → view.Bounds (later + 1) bound →
    view.Opens room later (calls.expression least)
      (Parser.operand (.ofRoom nestingLimit room) >>=
        Parser.climb (.ofRoom nestingLimit room) bound least)
  conditional : ∀ {room later : Nat}, passed ≤ later →
    view.Starts room later calls.conditional (Level.ofRoom nestingLimit room).conditional
  statement : ∀ {room later : Nat}, passed ≤ later →
    view.Opens room later calls.statement (Level.ofRoom nestingLimit room).statement
  fuels : view.Fuels passed calls.rounds

theorem Machine.Calls.Mirror.mono {calls : Machine.Calls} {view : View} {passed more : Nat}
    (mirror : calls.Mirror view passed) (further : passed ≤ more) : calls.Mirror view more where
  expression from_ := mirror.expression (Nat.le_trans further from_)
  operand from_ := mirror.operand (Nat.le_trans further from_)
  conditional from_ := mirror.conditional (Nat.le_trans further from_)
  statement from_ := mirror.statement (Nat.le_trans further from_)
  fuels := mirror.fuels.mono further

namespace View.Mirrors

variable {view : View} {room : Nat} {front : Kind → Prop} {floor passed : Nat}
  {calls : Machine.Calls} {token other : Token}

/-! ## Expressions -/

theorem finiteNumber (same : token.Matches view.spans other) (further : floor < passed) :
    view.GoesOn room floor passed (Machine.finiteNumber token) (Parser.finiteNumber other) := by
  unfold Machine.finiteNumber Parser.finiteNumber
  rw [same.content, same.found]
  cases Binary64.ofText? other.content.toList with
  | none => exact fail same.placed further
  | some x =>
    dsimp only
    split
    · exact pure _
    · exact fail same.placed further

theorem entry (mirror : calls.Mirror view passed) :
    view.Opens room passed (Machine.entry calls) (Parser.entry (Level.ofRoom nestingLimit room)) := by
  have floor_lt := Nat.lt_succ_self passed
  refine bind (mirror.expression (Nat.le_refl _)) fun key => ?_
  refine bind_expect floor_lt fun _ _ _ => ?_
  refine bind ((mirror.expression (Nat.le_succ _)).goesOn floor_lt) fun value => pure _

theorem memberIndex (mirror : calls.Mirror view passed) :
    view.Opens room passed (Machine.memberIndex calls)
      (Parser.memberIndex (Level.ofRoom nestingLimit room)) := by
  refine bind (mirror.expression (Nat.le_refl _)) fun index => ?_
  exact bind_expect (Nat.lt_succ_self _) fun _ _ _ => pure _

theorem group (mirror : calls.Mirror view passed) :
    view.Opens room passed (Machine.group calls) (Parser.group (Level.ofRoom nestingLimit room)) := by
  refine bind (mirror.expression (Nat.le_refl _)) fun expr => ?_
  exact bind_expect (Nat.lt_succ_self _) fun _ _ _ => pure _

theorem expressions (mirror : calls.Mirror view passed) (further : floor < passed)
    {comma close : Slot} :
    view.GoesOn room floor passed (Machine.items (calls.expression 0) comma close calls.rounds)
      (Parser.items ((Level.ofRoom nestingLimit room).expression 0) comma close) :=
  items (fun _ from_ => (mirror.expression from_).lower
    (Nat.le_of_lt (Nat.lt_of_lt_of_le further from_))) further mirror.fuels

theorem suffixes (mirror : calls.Mirror view passed) (further : floor < passed) {fuel bound : Nat}
    (fuels : view.Fuels passed fuel) (bounds : view.Bounds passed bound) (value : Expr) :
    view.GoesOn room floor passed (Machine.suffixes calls fuel value)
      (Parser.suffixes (.ofRoom nestingLimit room) bound value) := by
  induction fuel generalizing passed bound value with
  | zero => exact fuels.elim
  | succ fuel ih =>
    cases bound with
    | zero =>
      -- The parser stops at its bound. The machine finds the end of the input, and stops as well.
      refine ended bounds fun session token reads kind => ?_
      have other (word : Kind) (inner : word ≠ .finish) :
          Machine.accept? word session = .ok none session :=
        Machine.accept?_of_ne reads (kind ▸ inner.symm)
      rw [Machine.suffixes, Machine.bind_of_eq_ok (other _ Kind.noConfusion)]
      dsimp only
      split
      · rw [Machine.bind_of_eq_ok (other _ Kind.noConfusion)]
        rfl
      · rfl
    | succ bound =>
      have goOn (longer : Expr) := ih (mirror.mono (Nat.le_succ _)) (Nat.lt_succ_of_lt further)
        fuels.next bounds.next longer
      refine bind_accept? Kind.noConfusion (fun opening _ same _ => ?_) ?_
      · refine bind (nested same.placed (Nat.lt_succ_of_lt further) fun inner _ =>
          (memberIndex (mirror.mono (Nat.le_succ _))).goesOn (Nat.lt_succ_of_lt further))
            fun index => ?_
        exact (goOn _).earlier
      · dsimp only
        split
        · refine bind_accept? Kind.noConfusion (fun selector _ same _ => ?_) (pure _)
          dsimp only
          rw [same.content]
          exact (goOn _).earlier
        · exact pure _

theorem access (mirror : calls.Mirror view passed) (further : floor < passed) (name : String) :
    view.GoesOn room floor passed (Machine.access calls name)
      (Parser.access (.ofRoom nestingLimit room) name) := by
  have behind (value : Expr) : view.GoesOn room floor passed
      (Machine.suffixes calls calls.rounds value)
      (Parser.remaining >>= fun bound => Parser.suffixes (.ofRoom nestingLimit room) bound value) :=
    bind_remaining fun bound later from_ bounds =>
      suffixes (mirror.mono from_) (Nat.lt_of_lt_of_le further from_) (mirror.fuels.mono from_) bounds
        value
  refine bind_accept? Kind.noConfusion (fun opening _ same _ => later ?_) (behind _)
  refine bind (nested same.placed further fun inner _ => expressions mirror further)
    fun arguments => ?_
  exact behind _

/-- A token that no value starts with is blamed. -/
theorem refuse (same : token.Matches view.spans other) (further : floor < passed) (pending : Bool) :
    view.GoesOn room floor passed
      (if pending then Machine.fail (.pending token.content) token.span
        else Machine.fail (.unexpected token.found) token.span : Machine Expr)
      (if pending then Parser.fail (.pending other.content) other.span
        else Parser.fail (.unexpected other.found) other.span) := by
  rw [same.content, same.found]
  cases pending <;> exact fail same.placed further

theorem valueAfter (mirror : calls.Mirror view passed) (further : floor < passed)
    (same : token.Matches view.spans other) :
    view.GoesOn room floor passed (Machine.valueAfter calls token)
      (Parser.valueAfter (.ofRoom nestingLimit room) other) := by
  unfold Machine.valueAfter Parser.valueAfter
  rw [same.kind]
  cases other.kind with
  | number => exact map (finiteNumber same further) _
  | text | selector =>
    rw [same.content]
    exact pure _
  | identifier =>
    rw [same.content]
    exact access mirror further _
  | keyword => exact refuse same further _
  | finish => exact refuse same further _
  | symbol mark =>
    cases mark with
    | openBracket =>
      exact map (nested same.placed further fun inner _ => expressions mirror further) Expr.array
    | openCurly =>
      refine map (nested same.placed further fun inner _ => ?_) Expr.object
      exact items (fun _ from_ => (entry (mirror.mono from_)).lower
        (Nat.le_of_lt (Nat.lt_of_lt_of_le further from_))) further mirror.fuels
    | _ => exact refuse same further _

theorem value (mirror : calls.Mirror view (passed + 1)) :
    view.Opens room passed (Machine.value calls) (Parser.value (.ofRoom nestingLimit room)) := by
  intro session stream shows _
  rw [Parser.value, Parser.bind_apply, Parser.take?, Machine.value]
  cases shows.front with
  | token reads inner same behind =>
    rw [Machine.bind_of_eq_ok (Machine.take_of_current reads inner)]
    exact valueAfter mirror (Nat.lt_succ_self _) same behind trivial
  | finish reads placed =>
    rw [Machine.bind_of_eq_ok (Machine.take_of_finish reads view.isFinish), Machine.valueAfter,
      view.isFinish, Token.found, if_pos view.isFinish]
    exact .error (.blamed placed) ⟨shows, .inl rfl⟩

theorem operand (mirror : calls.Mirror view (passed + 1)) :
    view.Opens room passed (Machine.operand calls) (Parser.operand (.ofRoom nestingLimit room)) := by
  refine bind_accept? Kind.noConfusion (fun opening _ same _ => ?_) (value mirror)
  exact nested same.placed (Nat.lt_succ_self _) fun inner _ =>
    (group mirror).goesOn (Nat.lt_succ_self _)

theorem climb (mirror : calls.Mirror view passed) (further : floor < passed) {fuel bound : Nat}
    (fuels : view.Fuels passed fuel) (bounds : view.Bounds passed bound) (least : Nat) (left : Expr) :
    view.GoesOn room floor passed (Machine.climb calls least fuel left)
      (Parser.climb (.ofRoom nestingLimit room) bound least left) := by
  induction fuel generalizing passed bound left with
  | zero => exact fuels.elim
  | succ fuel ih =>
    cases bound with
    | zero =>
      refine ended bounds fun session token reads kind => ?_
      rw [Machine.climb, Machine.bind_of_eq_ok (Machine.peek_of_current reads), kind]
      rfl
    | succ bound =>
      refine bind_peek fun kind _ => ?_
      cases known : Operator.ofKind? kind with
      | none => exact pure _
      | some operator =>
        dsimp only
        split
        · exact pure _
        · have inner : ∀ front, front = kind → front ≠ .finish := by
            rintro _ rfl rfl
            contradiction
          refine bind_skip_inner inner ?_
          -- The parser takes the right operand with its own bound, the machine with a call.
          rw [← bind_assoc]
          refine bind ((mirror.operand (Nat.le_succ passed)
            (bounds.next.mono (Nat.le_succ _))).goesOn (Nat.lt_succ_of_lt further)) fun right => ?_
          exact (ih (mirror.mono (Nat.le_succ _)) (Nat.lt_succ_of_lt further) fuels.next bounds.next
            _).earlier

theorem expression (mirror : calls.Mirror view (passed + 1)) (least : Nat) :
    view.Opens room passed (Machine.expression calls least)
      (Parser.expression (.ofRoom nestingLimit room) least) := by
  refine bind (operand mirror) fun first => ?_
  exact bind_remaining fun bound later from_ bounds =>
    climb (mirror.mono from_) (Nat.lt_of_succ_le from_) (mirror.fuels.mono from_) bounds least first

/-! ## Statements -/

theorem blockBody (mirror : calls.Mirror view passed) (further : floor < passed) :
    view.GoesOn room floor passed (Machine.blockBody calls)
      (Parser.blockBody (Level.ofRoom nestingLimit room)) := by
  refine bind_remaining fun bound later from_ bounds => ?_
  have furtherLater := Nat.lt_of_lt_of_le further from_
  have mirrorLater := mirror.mono from_
  refine bind (statementsUpTo rfl (fun _ after => mirrorLater.statement after) furtherLater
    mirrorLater.fuels bounds) fun body => ?_
  exact bind_expect furtherLater fun _ _ _ => pure _

theorem block (mirror : calls.Mirror view passed) (further : floor < passed) :
    view.GoesOn room floor passed (Machine.block calls)
      (Parser.block (.ofRoom nestingLimit room)) := by
  refine bind_expect further fun opening _ same => ?_
  exact nested same.placed further fun inner _ => blockBody mirror further

theorem assignOperator (further : floor < passed) :
    view.GoesOn room floor passed Machine.assignOperator Parser.assignOperator := by
  refine bind_accept? Kind.noConfusion (fun _ _ _ _ => later (pure _)) ?_
  refine bind_peek fun kind _ => ?_
  cases known : AssignOperator.ofKind? kind with
  | none => exact blame further
  | some operator =>
    have inner : ∀ front, front = kind → front ≠ .finish := by
      rintro _ rfl rfl
      contradiction
    refine bind_ahead inner fun second stream _ same => ?_
    rw [same]
    split
    · exact bind_skip (bind_skip (pure _))
    · exact blame further

theorem assignment (mirror : calls.Mirror view (passed + 1)) :
    view.Opens room passed (Machine.assignment calls)
      (Parser.assignment (.ofRoom nestingLimit room)) := by
  have further := Nat.lt_succ_self passed
  refine bind_here fun first _ starts => ?_
  refine bind (value mirror) fun target => ?_
  split
  · refine bind (assignOperator further) fun operator => ?_
    exact map ((expression (mirror.mono (Nat.le_succ _)) 0).goesOn further) _
  · refine bind_last (Nat.succ_pos _) fun final stream ends => ?_
    exact failAt (.target starts ends) further

theorem declaration (mirror : calls.Mirror view (passed + 1)) (scope : Scope) :
    view.Starts room passed (Machine.declaration calls scope)
      (Parser.declaration (.ofRoom nestingLimit room) scope) := by
  have further := Nat.lt_succ_self passed
  refine bind_here fun keyword _ placed => ?_
  refine bind_skip_inner (fun _ => id) ?_
  refine bind ((value (mirror.mono (Nat.le_succ _))).goesOn further) fun declared => ?_
  cases declared with
  | name name =>
    refine bind_peek fun kind _ => ?_
    split
    · split
      · exact bind_skip (map ((expression (mirror.mono (Nat.le_succ _)) 0).goesOn further)
          (Statement.declaration scope name ∘ some))
      · exact fail placed further
    · split
      · exact fail placed further
      · exact pure _
  | _ => exact fail placed further

theorem parameter (further : floor < passed) :
    view.Mirrors room Anything floor passed (passed + 1) Machine.parameter Parser.parameter := by
  refine bind_expect_inner further fun token _ same => ?_
  rw [same.content]
  exact pure _

theorem function (mirror : calls.Mirror view (passed + 1)) :
    view.Starts room passed (Machine.function calls)
      (Parser.function (.ofRoom nestingLimit room)) := by
  have further := Nat.lt_succ_self passed
  refine bind_skip_inner (fun _ => id) ?_
  refine bind_expect further fun name _ same => ?_
  refine bind_expect further fun _ _ _ => ?_
  refine bind (items (fun later from_ => parameter (Nat.lt_of_lt_of_le further from_)) further
    mirror.fuels) fun parameters => ?_
  rw [same.content]
  exact map (block mirror further) _

theorem returning (mirror : calls.Mirror view (passed + 1)) :
    view.Starts room passed (Machine.returning calls)
      (Parser.returning (.ofRoom nestingLimit room)) := by
  have further := Nat.lt_succ_self passed
  refine bind_skip_inner (fun _ => id) ?_
  refine bind_peek fun kind _ => ?_
  split
  · exact pure _
  · refine bind_remaining fun bound later from_ bounds => ?_
    refine map (someItems (fun more after => expression (mirror.mono ?_) 0)
      (Nat.lt_of_lt_of_le further from_) (mirror.fuels.mono from_) bounds) _
    exact Nat.le_succ_of_le (Nat.le_trans from_ after)

theorem conditional (mirror : calls.Mirror view (passed + 1)) :
    view.Starts room passed (Machine.conditional calls)
      (Parser.conditional (.ofRoom nestingLimit room)) := by
  have further := Nat.lt_succ_self passed
  refine bind_skip_inner (fun _ => id) ?_
  refine bind ((expression (mirror.mono (Nat.le_succ _)) 0).goesOn further) fun condition => ?_
  refine bind (block mirror further) fun body => ?_
  refine bind_peek fun kind _ => ?_
  cases kind with
  | keyword word =>
    cases word with
    | elif =>
      refine bind_here fun link _ placed => ?_
      refine map (nested placed further fun inner _ => ?_) _
      -- The `elif` is still in front, so what is called does take a token.
      refine ((mirror.conditional (Nat.le_refl _)).goesOn further).weaken ?_ (Nat.le_refl _)
        (Nat.le_refl _) (Nat.le_refl _)
      rintro _ rfl
      exact Kind.noConfusion
    | else_ => exact bind_skip (map (block mirror further) _)
    | _ => exact pure _
  | _ => exact pure _

/-- The machine looks for the `in` only behind a name, so never behind the end of the input. -/
theorem eachVariable?_eq {session : Session} {stream : Stream}
    (shows : view.Shows room passed session stream) :
    Machine.eachVariable? session = .ok (Parser.eachVariable? stream) session := by
  rw [Machine.eachVariable?]
  cases shows.front with
  | @token token other rest finish last reads _ same behind =>
    rw [Machine.bind_of_eq_ok reads, same.kind, same.content, Parser.eachVariable?]
    dsimp only
    by_cases name : other.kind = .identifier
    · have second : ∃ next, Machine.ahead 1 session = .ok next session ∧
          next.kind = (Stream.tail ⟨other :: rest, finish, last⟩).kind := by
        cases behind.front with
        | token reads _ same => exact ⟨_, Machine.ahead_of_current reads, same.kind⟩
        | finish reads => exact ⟨_, Machine.ahead_of_current reads, view.isFinish⟩
      obtain ⟨next, follows, kind⟩ := second
      rw [if_pos name, Machine.bind_of_eq_ok follows, kind]
      simp only [name, true_and]
      split
      · rfl
      · rfl
    · rw [if_neg name, if_neg (fun both => name both.1)]
      rfl
  | finish reads =>
    rw [Machine.bind_of_eq_ok reads, view.isFinish]
    rfl

theorem bind_eachVariable? {α : Type} {target : Nat} {next : Option String → Machine α}
    {next' : Stream → Parser α}
    (second : ∀ stream, view.Mirrors room front floor passed target
      (next (Parser.eachVariable? stream)) (next' stream)) :
    view.Mirrors room front floor passed target (Machine.eachVariable? >>= next)
      (get >>= next') := by
  intro session stream shows holds
  rw [Machine.bind_of_eq_ok (eachVariable?_eq shows)]
  exact second stream shows holds

theorem each (mirror : calls.Mirror view passed) (further : floor < passed) (name : String) :
    view.GoesOn room floor passed (Machine.each calls name)
      (Parser.each (.ofRoom nestingLimit room) name) := by
  refine bind_skip (bind_skip ?_)
  refine bind ((expression (mirror.mono (Nat.le_succ _)) 0).goesOn further) fun collection => ?_
  exact map (block mirror further) _

theorem loop (mirror : calls.Mirror view passed) (further : floor < passed) :
    view.GoesOn room floor passed (Machine.loop calls)
      (Parser.loop (.ofRoom nestingLimit room)) := by
  have mirrorLater := mirror.mono (Nat.le_succ passed)
  refine bind ((assignment mirrorLater).goesOn further) fun start => ?_
  refine bind_expect further fun _ _ _ => ?_
  refine bind_here fun first _ placed => ?_
  refine bind (nested placed further fun inner _ =>
    (mirror.statement (Nat.le_refl _)).goesOn further) fun step => ?_
  refine bind_expect further fun _ _ _ => ?_
  refine bind ((expression mirrorLater 0).goesOn further) fun condition => ?_
  exact map (block mirror further) _

theorem loopOrEach (mirror : calls.Mirror view (passed + 1)) :
    view.Starts room passed (Machine.loopOrEach calls)
      (Parser.loopOrEach (.ofRoom nestingLimit room)) := by
  have further := Nat.lt_succ_self passed
  refine bind_skip_inner (fun _ => id) ?_
  refine bind_eachVariable? fun stream => ?_
  cases Parser.eachVariable? stream with
  | some name => exact each mirror further name
  | none => exact loop mirror further

theorem rangeBound (further : floor < passed) (bound : Bound) :
    view.GoesOn room floor passed (Machine.rangeBound bound) (Parser.rangeBound bound) :=
  bind_accept? Kind.noConfusion (fun _ _ same _ => later (finiteNumber same further)) (blame further)

theorem range (mirror : calls.Mirror view (passed + 1)) :
    view.Starts room passed (Machine.range calls) (Parser.range (.ofRoom nestingLimit room)) := by
  have further := Nat.lt_succ_self passed
  refine bind_skip_inner (fun _ => id) ?_
  refine bind (rangeBound further .start) fun start => ?_
  refine bind_expect further fun _ _ _ => ?_
  refine bind (rangeBound further .stop) fun stop => ?_
  refine bind_expect further fun _ _ _ => ?_
  refine bind_expect further fun name _ same => ?_
  rw [same.content]
  exact map (block mirror further) _

theorem assignmentOrExpression (mirror : calls.Mirror view (passed + 1)) :
    view.Opens room passed (Machine.assignmentOrExpression calls)
      (Parser.assignmentOrExpression (.ofRoom nestingLimit room)) := by
  refine bind_equalsAhead fun stream => ?_
  split
  · exact map (assignment mirror) _
  · exact map (expression mirror 0) _

theorem statement (mirror : calls.Mirror view (passed + 1)) :
    view.Opens room passed (Machine.statement calls)
      (Parser.statement (.ofRoom nestingLimit room)) := by
  refine bind_peek fun kind _ => ?_
  have other : view.Mirrors room (· = kind) passed passed (passed + 1)
      (Machine.assignmentOrExpression calls)
      (Parser.assignmentOrExpression (.ofRoom nestingLimit room)) :=
    (assignmentOrExpression mirror).anywhere
  cases kind with
  | keyword word =>
    have starts {machine : Machine Statement} {parser : Parser Statement}
        (started : view.Starts room passed machine parser) :
        view.Mirrors room (· = .keyword word) passed passed (passed + 1) machine parser := by
      refine started.weaken ?_ (Nat.le_refl _) (Nat.le_refl _) (Nat.le_refl _)
      rintro _ rfl
      exact Kind.noConfusion
    cases word with
    | function => exact starts (function mirror)
    | return_ => exact starts (returning mirror)
    | if_ => exact starts (map (conditional mirror) _)
    | global => exact starts (declaration mirror .global)
    | local_ => exact starts (declaration mirror .local_)
    | var => exact starts (declaration mirror .var)
    | for_ => exact starts (loopOrEach mirror)
    | hardcode => exact starts (range mirror)
    | _ => exact other
  | _ => exact other

/-- Statements up to the end of the input, with any bound on their number that is large enough. -/
theorem program (mirror : calls.Mirror view passed) {bound : Nat}
    (bounds : view.Bounds passed bound) :
    view.Starts room passed (Machine.program calls)
      (Parser.statementsUpTo (Level.ofRoom nestingLimit room).statement (· == .finish) bound) := by
  have further := Nat.lt_succ_self passed
  have item (later : Nat) (from_ : passed ≤ later) : view.Opens room later
      (Machine.statement calls) (Level.ofRoom nestingLimit room).statement := by
    rw [Level.ofRoom_eq]
    exact statement (mirror.mono (Nat.le_succ_of_le from_))
  have fuels := mirror.fuels
  rw [Machine.program]
  generalize calls.rounds = fuel at fuels
  cases fuel with
  | zero => exact fuels.elim
  | succ fuel =>
    cases bound with
    | zero => exact bounds.elim_something
    | succ bound =>
      refine bind_peek fun kind inner => ?_
      have goes : ¬ (kind == .finish) = true := by simpa using inner
      rw [if_neg goes, if_neg goes]
      refine (bind (item passed (Nat.le_refl _)) fun first => ?_).anywhere
      refine bind_expect further fun _ _ _ => ?_
      exact map (statementsUpTo rfl (fun later from_ => item later (Nat.le_of_succ_le from_))
        further fuels.next bounds.next) _

end View.Mirrors

/-! ## Fuel -/

/-- With a step of fuel for each token left the calls mirror the parsers. -/
theorem Machine.Calls.mirror_ofFuel {view : View} {passed fuel : Nat}
    (fuels : view.Fuels passed fuel) : (Calls.ofFuel fuel).Mirror view passed := by
  induction fuel generalizing passed with
  | zero =>
    exact {
      expression := fun from_ => (fuels.mono from_).elim
      operand := fun from_ _ => (fuels.mono from_).elim
      conditional := fun from_ => (fuels.mono from_).elim
      statement := fun from_ => (fuels.mono from_).elim
      fuels := fuels }
  | succ fuel ih =>
    -- What is called starts behind a token, so there the fuel that is left is enough.
    have inside {later : Nat} (from_ : passed ≤ later) :
        (Calls.ofFuel fuel).Mirror view (later + 1) := ih (fuels.mono from_).next
    refine { expression := ?_, operand := ?_, conditional := ?_, statement := ?_, fuels := fuels }
    · intro room later least from_
      rw [Level.ofRoom_eq]
      exact View.Mirrors.expression (inside from_) least
    · intro room later least bound from_ bounds
      refine .bind (.operand (inside from_)) fun first => ?_
      exact .climb (inside from_) (Nat.lt_succ_self _) (inside from_).fuels bounds least first
    · intro room later from_
      rw [Level.ofRoom_eq]
      exact .conditional (inside from_)
    · intro room later from_
      rw [Level.ofRoom_eq]
      exact .statement (inside from_)

/-! ## Requests -/

namespace View

/-- From every place, machine and parser agree, and go on unless they are at the end. -/
def Completes (view : View) (room passed : Nat) {α : Type} (machine : Machine α)
    (parser : Parser α) : Prop :=
  ∀ ⦃session stream⦄, view.Shows room passed session stream →
    view.Agree (view.Moved room passed) (view.Moved room passed) (machine session) (parser stream)

variable {view : View} {room passed fuel : Nat} {α β : Type}

theorem Mirrors.completes {machine : Machine α} {parser : Parser α}
    (opens : view.Opens room passed machine parser) : view.Completes room passed machine parser := by
  intro session stream shows
  exact (opens shows trivial).imp (fun _ _ reached => reached.moved (Nat.lt_succ_self _))
    fun _ _ => id

theorem Completes.map {machine : Machine α} {parser : Parser α}
    (completes : view.Completes room passed machine parser) (wrap : α → β) :
    view.Completes room passed (wrap <$> machine) (wrap <$> parser) := by
  intro session stream shows
  have agree := completes shows
  rw [map_eq_pure_bind, map_eq_pure_bind, Machine.bind_apply, Parser.bind_apply]
  generalize machine session = ran, parser stream = parsed at agree
  cases agree with
  | ok reached => exact .ok reached
  | error same reached => exact .error same reached

/-- A program may also have no statement left. -/
theorem completes_statements (fuels : view.Fuels passed fuel) {bound : Nat}
    (bounds : view.Bounds passed bound) :
    view.Completes room passed (Machine.program (.ofFuel fuel))
      (Parser.statementsUpTo (Level.ofRoom nestingLimit room).statement (· == .finish) bound) := by
  intro session stream shows
  cases shows.front with
  | token _ inner same =>
    have starts := Mirrors.program (Machine.Calls.mirror_ofFuel fuels) bounds shows
      fun known => inner (same.kind.trans known)
    exact starts.imp (fun _ _ reached => reached.moved (Nat.lt_succ_self _))
      fun _ _ => id
  | finish reads =>
    have machine : Machine.program (.ofFuel fuel) session = .ok [] session := by
      cases fuel with
      | zero =>
        have passed_le := shows.passed_le
        unfold Fuels at fuels
        omega
      | succ fuel =>
        change Machine.statementsUpTo _ _ (fuel + 1) session = _
        rw [Machine.statementsUpTo, Machine.bind_of_eq_ok (Machine.peek_of_current reads),
          view.isFinish]
        rfl
    have parser (last finish : Span) : Parser.statementsUpTo
        (Level.ofRoom nestingLimit room).statement (· == .finish) bound ⟨[], finish, last⟩ =
          .ok [] ⟨[], finish, last⟩ := by
      cases bound <;> rfl
    rw [machine, parser]
    exact .ok ⟨shows, .inl rfl⟩

theorem completes_program (fuels : view.Fuels passed fuel) :
    view.Completes room passed (Machine.program (.ofFuel fuel))
      (Parser.program (Level.ofRoom nestingLimit room)) := by
  intro session stream shows
  obtain ⟨later, from_, exact, bounds⟩ := shows.exists_bounds
  have agree := completes_statements (fuels.mono from_) bounds exact
  exact agree.imp (fun _ _ moved => moved.weaken from_) fun _ _ moved => moved.weaken from_

theorem completes_request (fuels : view.Fuels passed fuel) (request : Request) :
    view.Completes room passed (request.machine (.ofFuel fuel))
      (request.parser (Level.ofRoom nestingLimit room)) := by
  have mirror := Machine.Calls.mirror_ofFuel (fuels.mono (Nat.le_succ _))
  cases request with
  | program => exact (completes_program fuels).map _
  | statement =>
    refine Completes.map ?_ _
    rw [Level.ofRoom_eq]
    exact (Mirrors.statement mirror).completes
  | expression least =>
    refine Completes.map ?_ _
    rw [Level.ofRoom_eq]
    exact (Mirrors.expression mirror least).completes

end View

end BlockScript
