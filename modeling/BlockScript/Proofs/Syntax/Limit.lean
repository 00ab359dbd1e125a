import BlockScript.Proofs.Syntax.Levels
import BlockScript.Proofs.Syntax.Soundness

/-!
# The limit on nesting only rejects

A parser whose limit is raised answers as before, except where it complained about the limit, and it
complains about it where as many levels are open as may be, at the token that opens one more
(`Request.answer_of_le`). Both are shown together: each parser of a level is compared with its
namesake from a level of the same depth under the wider limit, and where they part the narrow one
has overflowed. The recursion is the one of the levels.
-/

namespace BlockScript

/-- The parsers of a level do what those of the other level do, unless they overflow. Such a level
lies inside all open levels, so that these and the room inside make up the limit. -/
structure Level.Widens (limit : Nat) (origin : Stream) (room : Nat) (narrow wide : Level) :
    Prop where
  expression : ∀ least levels, levels.length + room = limit →
    Parser.Widens limit origin (Reached origin levels) (narrow.expression least)
      (wide.expression least) (Reached origin levels)
  /-- The keyword at the front may itself be what has opened the level. -/
  conditional : ∀ (kind : Kind) levels, (kind.levelsBehind levels).length + room = limit →
    Parser.Widens limit origin (ReachedAt origin levels kind)
      narrow.conditional wide.conditional (Ended origin (kind.levelsBehind levels))
  statement : ∀ levels, levels.length + room = limit →
    Parser.Widens limit origin (Reached origin levels) narrow.statement wide.statement
      (Ended origin levels)

/-- The levels inside compare, if there is one under the narrow limit. -/
inductive Nesting.Widens (limit : Nat) (origin : Stream) : Nat → Nesting → Nesting → Prop
  | full (wide : Nesting) : Widens limit origin 0 ⟨limit, none⟩ wide
  | inner {room wider : Nat} {narrow wide : Level} (level : narrow.Widens limit origin room wide) :
      Widens limit origin (room + 1) ⟨limit, some narrow⟩ ⟨wider, some wide⟩

namespace Parser

variable {α : Type} {limit : Nat} {origin : Stream} {room : Nat} {narrow wide : Nesting}
  {levels : List Opener} {pre post : Stream → Prop}

/-! ## Opening a level -/

namespace Widens

theorem enter {parse : Level → Parser α} {span : Span} (widens : narrow.Widens limit origin room wide)
    (full : room = 0 → ∀ stream, pre stream → Overflows limit origin span stream)
    (inside : ∀ less narrow wide, room = less + 1 → Level.Widens limit origin less narrow wide →
      Widens limit origin pre (parse narrow) (parse wide) post) :
    Widens limit origin pre (narrow.enter span parse) (wide.enter span parse) post := by
  cases widens with
  | full => exact fun stream start => .inl ⟨span, stream, rfl, full rfl stream start⟩
  | inner level => exact inside _ _ _ rfl level

theorem enter_bracket {parse : Level → Parser α} {opening : Token}
    (widens : narrow.Widens limit origin room wide) (depth : levels.length + room = limit)
    (opens : opening.kind.opener? = some .bracket)
    (inside : ∀ less narrow wide, (Opener.bracket :: levels).length + less = limit →
      Level.Widens limit origin less narrow wide →
      Widens limit origin (Reached origin (.bracket :: levels)) (parse narrow) (parse wide) post) :
    Widens limit origin (Passed origin levels opening) (narrow.enter opening.span parse)
      (wide.enter opening.span parse) post := by
  refine enter widens (fun empty stream passed => ?_) fun less narrow wide more level => ?_
  · obtain ⟨⟨taken, split, rfl⟩, -⟩ := passed
    exact .bracket split (by omega) opens
  · refine (inside less narrow wide ?_ level).of fun stream passed => ?_
    · rw [List.length_cons]
      omega
    · rw [← Kind.levelsBehind_of_opener? opens]
      exact passed.reached

/-- A chain of conditions goes on at the level that its `elif` opens. -/
theorem enter_link {span : Span} (widens : narrow.Widens limit origin room wide)
    (depth : levels.length + room = limit) :
    Widens limit origin
      (fun stream => ReachedAt origin levels Keyword.elif stream ∧ stream.span = span)
      (narrow.enter span Level.conditional) (wide.enter span Level.conditional)
      (Ended origin levels) := by
  refine enter widens (fun empty stream start => ?_) fun less narrow wide more level => ?_
  · obtain ⟨⟨⟨⟨taken, split, rfl⟩, finish⟩, shown⟩, rfl⟩ := start
    exact .link split (by omega) shown
  · refine (level.conditional Keyword.elif levels ?_).weaken (fun _ => And.left) fun _ ended =>
      ended.of_link
    show (Opener.link :: levels).length + less = limit
    rw [List.length_cons]
    omega

/-- The step of a loop stands in the level that the `with` in front of it opens. -/
theorem enter_step {with_ : Token} {span : Span} (widens : narrow.Widens limit origin room wide)
    (depth : levels.length + room = limit) (opens : with_.kind = Keyword.with_) :
    Widens limit origin (fun stream => Passed origin levels with_ stream ∧ stream.span = span)
      (narrow.enter span Level.statement) (wide.enter span Level.statement)
      (Ended origin (.step :: levels)) := by
  refine enter widens (fun empty stream start => ?_) fun less narrow wide more level => ?_
  · obtain ⟨⟨⟨taken, split, rfl⟩, finish⟩, rfl⟩ := start
    exact .step split (by omega) opens finish
  · refine (level.statement (.step :: levels) ?_).of fun stream start => ?_
    · rw [List.length_cons]
      omega
    · have behind := start.1.reached
      rwa [opens] at behind

end Widens

/-! ## Lists -/

section
variable {item item' : Parser α} {comma close : Slot}

theorem itemsUpTo_widens (plain : comma.kind.IsPlain)
    (widens : Widens limit origin (Reached origin levels) item item' (Reached origin levels))
    (bound : Nat) :
    Widens limit origin (Reached origin levels) (itemsUpTo item comma close bound)
      (itemsUpTo item' comma close bound) (Reached origin levels) := by
  induction bound with
  | zero => exact .pure fun _ => id
  | succ bound ih =>
    apply Widens.bind_peek
    intro kind
    split
    · exact .pure fun _ => And.left
    · refine .bind (widens.of fun _ => And.left) fun first => .bind_peek fun next => ?_
      split
      · exact .pure fun _ => And.left
      · refine .of (.bind_expect fun token => ?_) fun _ => And.left
        rw [plain]
        exact ih.bind_pure _

theorem items_widens (plain : comma.kind.IsPlain)
    (widens : Widens limit origin (Reached origin levels) item item' (Reached origin levels)) :
    Widens limit origin (Reached origin levels) (items item comma close) (items item' comma close)
      (Reached origin (close.kind.levelsBehind levels)) := by
  refine .bind_remaining fun bound => .bind (itemsUpTo_widens plain widens _) fun found => ?_
  exact .bind_expect fun token => .pure fun _ => id

theorem someItems_widens
    (widens : Widens limit origin (Reached origin levels) item item' (Reached origin levels))
    (bound : Nat) :
    Widens limit origin (Reached origin levels) (someItems item bound) (someItems item' bound)
      (Reached origin levels) := by
  induction bound with
  | zero => exact widens.bind_pure _
  | succ bound ih =>
    refine .bind widens fun first => ?_
    exact .bind_accept?_plain (by simp) (fun _ => rfl) (.pure fun _ => id) fun _ _ => ih.bind_pure _

theorem statementsUpTo_widens (settled : belowLinks levels = levels)
    (widens : Widens limit origin (Reached origin levels) item item' (Ended origin levels))
    (stops : Kind → Bool) (bound : Nat) :
    Widens limit origin (Reached origin levels) (statementsUpTo item stops bound)
      (statementsUpTo item' stops bound) (Reached origin levels) := by
  induction bound with
  | zero => exact .pure fun _ => id
  | succ bound ih =>
    apply Widens.bind_peek
    intro kind
    split
    · exact .pure fun _ => And.left
    · refine .bind (widens.of fun _ => And.left) fun first => ?_
      exact .bind_expect_of (fun stream _ ended _ kind => ended.semicolon settled kind)
        fun token _ => ih.bind_pure _

end

/-! ## Values -/

theorem finiteNumber_widens (token : Token) :
    Widens limit origin pre (finiteNumber token) (finiteNumber token) pre := by
  unfold finiteNumber
  split
  · exact .fail nofun
  · split
    · exact .pure fun _ => id
    · exact .fail nofun

section
variable {narrow wide : Level} (widens : narrow.Widens limit origin room wide)
include widens

theorem entry_widens (depth : levels.length + room = limit) :
    Widens limit origin (Reached origin levels) (entry narrow) (entry wide)
      (Reached origin levels) := by
  have expression := widens.expression 0 levels depth
  exact .bind expression fun key => .bind_expect fun colon => expression.bind_pure _

theorem memberIndex_widens (depth : (Opener.bracket :: levels).length + room = limit) :
    Widens limit origin (Reached origin (.bracket :: levels)) (memberIndex narrow)
      (memberIndex wide) (Reached origin levels) := by
  refine .bind (widens.expression 0 _ depth) fun index => ?_
  exact .bind_expect fun closing => .pure fun _ => id

theorem group_widens (depth : (Opener.bracket :: levels).length + room = limit) :
    Widens limit origin (Reached origin (.bracket :: levels)) (group narrow) (group wide)
      (Reached origin levels) := by
  refine .bind (widens.expression 0 _ depth) fun expr => ?_
  exact .bind_expect fun closing => .pure fun _ => id

theorem blockBody_widens (depth : (Opener.bracket :: levels).length + room = limit) :
    Widens limit origin (Reached origin (.bracket :: levels)) (blockBody narrow) (blockBody wide)
      (Reached origin levels) := by
  refine .bind_remaining fun bound => ?_
  refine .bind (statementsUpTo_widens rfl (widens.statement _ depth) _ _) fun body => ?_
  exact .bind_expect fun closing => .pure fun _ => id

end

section
variable (widens : narrow.Widens limit origin room wide) (depth : levels.length + room = limit)
include widens depth

theorem suffixes_widens (bound : Nat) (value : Expr) :
    Widens limit origin (Reached origin levels) (suffixes narrow bound value)
      (suffixes wide bound value) (Reached origin levels) := by
  induction bound generalizing value with
  | zero => exact .pure fun _ => id
  | succ bound ih =>
    refine .bind_accept? (by simp) ?_ fun opening kind => ?_
    · dsimp only
      split
      · exact .bind_accept?_plain (by simp) (fun _ => rfl) (.pure fun _ => id) fun _ _ => ih _
      · exact .pure fun _ => id
    · refine .bind (.enter_bracket widens depth (by rw [kind]; rfl) ?_) fun index => ih _
      exact fun less narrow wide inside level => memberIndex_widens level inside

theorem access_widens (name : String) :
    Widens limit origin (Reached origin levels) (access narrow name) (access wide name)
      (Reached origin levels) := by
  refine .bind_accept? (by simp) ?_ fun opening kind => ?_
  · exact .bind_remaining fun bound => suffixes_widens widens depth bound _
  · refine .bind (.enter_bracket widens depth (by rw [kind]; rfl) ?_) fun arguments =>
      .bind_remaining fun bound => suffixes_widens widens depth bound _
    exact fun less narrow wide inside level =>
      items_widens (fun _ => rfl) (level.expression 0 _ inside)

theorem valueAfter_widens (token : Token) :
    Widens limit origin (Passed origin levels token) (valueAfter narrow token)
      (valueAfter wide token) (Reached origin levels) := by
  have plain {kind : Kind} (shown : token.kind = kind) (plain : kind.IsPlain) :
      ∀ stream, Passed origin levels token stream → Reached origin levels stream := by
    subst shown
    exact fun stream passed => passed.reached_of_isPlain plain
  unfold valueAfter
  split
  · rename_i kind
    exact ((finiteNumber_widens token).bind_pure _).of (plain kind fun _ => rfl)
  · rename_i kind
    exact .pure (plain kind fun _ => rfl)
  · rename_i kind
    exact .pure (plain kind fun _ => rfl)
  · rename_i kind
    exact (access_widens widens depth _).of (plain kind fun _ => rfl)
  · rename_i kind
    refine .bind_pure _ (.enter_bracket widens depth (by rw [kind]; rfl) ?_)
    exact fun less narrow wide inside level =>
      items_widens (fun _ => rfl) (level.expression 0 _ inside)
  · rename_i kind
    refine .bind_pure _ (.enter_bracket widens depth (by rw [kind]; rfl) ?_)
    exact fun less narrow wide inside level =>
      items_widens (fun _ => rfl) (entry_widens level inside)
  · split
    · exact .fail nofun
    · exact .fail nofun

theorem value_widens :
    Widens limit origin (Reached origin levels) (value narrow) (value wide)
      (Reached origin levels) :=
  .bind_take? (.blame nofun) (valueAfter_widens widens depth)

theorem operand_widens :
    Widens limit origin (Reached origin levels) (operand narrow) (operand wide)
      (Reached origin levels) := by
  refine .bind_accept? (by simp) (value_widens widens depth) fun opening kind => ?_
  refine .enter_bracket widens depth (by rw [kind]; rfl) ?_
  exact fun less narrow wide inside level => group_widens level inside

theorem climb_widens (bound least : Nat) (left : Expr) :
    Widens limit origin (Reached origin levels) (climb narrow bound least left)
      (climb wide bound least left) (Reached origin levels) := by
  induction bound generalizing least left with
  | zero => exact .pure fun _ => id
  | succ bound ih =>
    apply Widens.bind_peek
    intro kind
    split
    · exact .pure fun _ => And.left
    · rename_i operator known
      split
      · exact .pure fun _ => And.left
      · have plain : kind.IsPlain := by
          rw [← Operator.kind_of_ofKind? known]
          exact operator.kind_isPlain
        refine .bind_skip_plain plain ?_
        exact .bind (operand_widens widens depth) fun first => .bind (ih _ _) fun right => ih _ _

theorem expression_widens (least : Nat) :
    Widens limit origin (Reached origin levels) (expression narrow least)
      (expression wide least) (Reached origin levels) := by
  refine .bind (operand_widens widens depth) fun first => .bind_remaining fun bound => ?_
  exact climb_widens widens depth bound least first

/-! ## Statements -/

theorem block_widens :
    Widens limit origin (Reached origin levels) (block narrow) (block wide)
      (Reached origin levels) := by
  refine .bind_expect_opening fun opening kind => ?_
  refine .enter_bracket widens depth (by rw [kind]; rfl) ?_
  exact fun less narrow wide inside level => blockBody_widens level inside

end

theorem assignOperator_widens :
    Widens limit origin (Reached origin levels) assignOperator assignOperator
      (Reached origin levels) := by
  refine .bind_accept?_plain (by simp) (fun _ => rfl) (.bind_peek fun kind => ?_) fun _ _ =>
    .pure fun _ => id
  split
  · exact .blame nofun
  · rename_i operator known
    apply Widens.bind_get
    intro stream
    split
    · rename_i equals
      -- Both tokens are known: the one that is next, and the `=` behind it.
      have moves (current : Stream)
          (start : ReachedAt origin levels kind current ∧ current = stream) :
          ReachedAt origin levels Symbol.equals current.tail := by
        obtain ⟨reached, rfl⟩ := start
        exact ⟨reached.tail_of_isPlain (AssignOperator.isPlain_of_ofKind? known), equals⟩
      exact .bind_skip moves (.bind_skip_plain (fun _ => rfl) (.pure fun _ => id))
    · exact .blame nofun

section
variable (widens : narrow.Widens limit origin room wide) (depth : levels.length + room = limit)
include widens depth

theorem assignment_widens :
    Widens limit origin (Reached origin levels) (assignment narrow) (assignment wide)
      (Reached origin levels) := by
  refine .bind_here fun first => .bind ((value_widens widens depth).of fun _ => And.left) ?_
  intro target
  split
  · refine .bind assignOperator_widens fun operator => ?_
    exact (expression_widens widens depth 0).bind_pure _
  · exact .bind_get fun stream => .fail nofun

theorem declaration_widens (scope : Scope) :
    Widens limit origin (ReachedAt origin levels scope.keyword)
      (declaration narrow scope) (declaration wide scope) (Reached origin levels) := by
  refine .bind_here fun keyword => .bind_skip ?_ (.bind (value_widens widens depth) fun value => ?_)
  · exact fun stream start => start.1.tail_of_isPlain scope.keyword_isPlain
  · split
    · apply Widens.bind_peek
      intro next
      split
      · rename_i equals
        split
        · subst equals
          exact .bind_skip_plain (fun _ => rfl) ((expression_widens widens depth 0).bind_pure _)
        · exact .fail nofun
      · split
        · exact .fail nofun
        · exact .pure fun _ => And.left
    · exact .fail nofun

omit widens depth in
theorem parameter_widens :
    Widens limit origin (Reached origin levels) parameter parameter (Reached origin levels) :=
  .bind_expect fun _ => .pure fun _ => id

theorem function_widens :
    Widens limit origin (ReachedAt origin levels Keyword.function) (function narrow)
      (function wide) (Reached origin levels) := by
  refine .bind_skip_plain (fun _ => rfl) (.bind_expect fun name => .bind_expect fun opening => ?_)
  refine .bind (items_widens (fun _ => rfl) parameter_widens) fun parameters => ?_
  exact (block_widens widens depth).bind_pure _

theorem returning_widens :
    Widens limit origin (ReachedAt origin levels Keyword.return_) (returning narrow)
      (returning wide) (Reached origin levels) := by
  refine .bind_skip_plain (fun _ => rfl) (.bind_peek fun next => ?_)
  split
  · exact .pure fun _ => And.left
  · refine .bind_remaining fun bound => .of (.bind_pure _ ?_) fun _ => And.left
    exact someItems_widens (expression_widens widens depth 0) bound

end

/-- The levels are those behind the keyword, which is an `if` or has opened the last of them. -/
theorem conditional_widens {kind : Kind} (widens : narrow.Widens limit origin room wide)
    (depth : (kind.levelsBehind levels).length + room = limit) :
    Widens limit origin (ReachedAt origin levels kind)
      (conditional narrow) (conditional wide) (Ended origin (kind.levelsBehind levels)) := by
  refine .bind_skip (fun stream start => start.tail) ?_
  generalize kind.levelsBehind levels = levels at *
  refine .bind (expression_widens widens depth 0) fun condition => ?_
  refine .bind (block_widens widens depth) fun body => .bind_peek fun next => ?_
  split
  · exact .bind_here fun span => .bind_pure _ (.enter_link widens depth)
  · refine .bind_skip_plain (fun _ => rfl) ?_
    exact ((block_widens widens depth).bind_pure _).weaken (fun _ => id) fun _ reached => reached.ended
  · exact .pure fun _ start => start.1.ended

theorem kinds_of_eachVariable? {stream : Stream} {name : String}
    (known : eachVariable? stream = some name) :
    stream.kind = .identifier ∧ stream.tail.kind = Keyword.in_ := by
  obtain ⟨word, words, split, kind, -, among⟩ := exists_of_eachVariable? known
  obtain ⟨token, -, -, shown, behind⟩ := Stream.exists_of_lexemes_eq_cons split
  rw [shown, Stream.kind_eq_firstKind, behind]
  exact ⟨kind, among⟩

section
variable (widens : narrow.Widens limit origin room wide) (depth : levels.length + room = limit)
include widens depth

theorem each_widens (name : String) :
    Widens limit origin
      (fun stream => Reached origin levels stream ∧ eachVariable? stream = some name)
      (each narrow name) (each wide name) (Reached origin levels) := by
  have moves (stream : Stream)
      (start : Reached origin levels stream ∧ eachVariable? stream = some name) :
      ReachedAt origin levels Keyword.in_ stream.tail := by
    obtain ⟨reached, known⟩ := start
    obtain ⟨kind, among⟩ := kinds_of_eachVariable? known
    exact ⟨ReachedAt.tail_of_isPlain ⟨reached, kind⟩ fun _ => rfl, among⟩
  refine .bind_skip moves (.bind_skip_plain (fun _ => rfl) ?_)
  refine .bind (expression_widens widens depth 0) fun collection => ?_
  exact (block_widens widens depth).bind_pure _

theorem loop_widens :
    Widens limit origin (Reached origin levels) (loop narrow) (loop wide)
      (Reached origin levels) := by
  refine .bind (assignment_widens widens depth) fun start => .bind_expect_opening fun with_ kind => ?_
  refine .bind_here fun span => .bind (.enter_step widens depth kind) fun step => ?_
  refine .bind_expect_of (fun stream _ ended _ kind => ended.while_ kind) fun while_ _ => ?_
  refine .bind (expression_widens widens depth 0) fun condition => ?_
  exact (block_widens widens depth).bind_pure _

theorem loopOrEach_widens :
    Widens limit origin (ReachedAt origin levels Keyword.for_)
      (loopOrEach narrow) (loopOrEach wide) (Reached origin levels) := by
  refine .bind_skip_plain (fun _ => rfl) (.bind_get fun stream => ?_)
  split
  · rename_i name known
    refine (each_widens widens depth name).of ?_
    rintro _ ⟨reached, rfl⟩
    exact ⟨reached, known⟩
  · exact (loop_widens widens depth).of fun _ => And.left

omit widens depth in
theorem rangeBound_widens (bound : Bound) :
    Widens limit origin (Reached origin levels) (rangeBound bound) (rangeBound bound)
      (Reached origin levels) := by
  refine .bind_accept?_plain (by simp) (fun _ => rfl) (.blame nofun) fun token _ => ?_
  exact finiteNumber_widens token

theorem range_widens :
    Widens limit origin (ReachedAt origin levels Keyword.hardcode) (range narrow)
      (range wide) (Reached origin levels) := by
  refine .bind_skip_plain (fun _ => rfl) ?_
  refine .bind (rangeBound_widens .start) fun start => .bind_expect fun to_ => ?_
  refine .bind (rangeBound_widens .stop) fun stop => .bind_expect fun as => ?_
  exact .bind_expect fun name => (block_widens widens depth).bind_pure _

theorem assignmentOrExpression_widens :
    Widens limit origin (Reached origin levels) (assignmentOrExpression narrow)
      (assignmentOrExpression wide) (Reached origin levels) := by
  apply Widens.bind_get
  intro stream
  split
  · exact ((assignment_widens widens depth).bind_pure _).of fun _ => And.left
  · exact ((expression_widens widens depth 0).bind_pure _).of fun _ => And.left

theorem statement_widens :
    Widens limit origin (Reached origin levels) (statement narrow) (statement wide)
      (Ended origin levels) := by
  have ended : ∀ stream, Reached origin levels stream → Ended origin levels stream :=
    fun _ => Reached.ended
  -- An `if` opens no level.
  have chain : Widens limit origin (ReachedAt origin levels Keyword.if_) (conditional narrow)
      (conditional wide) (Ended origin levels) := conditional_widens widens depth
  apply Widens.bind_peek
  intro kind
  split
  · exact (function_widens widens depth).weaken (fun _ => id) ended
  · exact (returning_widens widens depth).weaken (fun _ => id) ended
  · exact chain.bind_pure _
  · exact (declaration_widens widens depth .global).weaken (fun _ => id) ended
  · exact (declaration_widens widens depth .local_).weaken (fun _ => id) ended
  · exact (declaration_widens widens depth .var).weaken (fun _ => id) ended
  · exact (loopOrEach_widens widens depth).weaken (fun _ => id) ended
  · exact (range_widens widens depth).weaken (fun _ => id) ended
  · exact (assignmentOrExpression_widens widens depth).weaken (fun _ => And.left) ended

end

end Parser

/-! ## Levels -/

theorem Level.Widens.ofNesting {limit : Nat} {origin : Stream} {room : Nat} {narrow wide : Nesting}
    (widens : narrow.Widens limit origin room wide) :
    Level.Widens limit origin room (.ofNesting narrow) (.ofNesting wide) where
  expression least _ depth := Parser.expression_widens widens depth least
  conditional _ _ depth := Parser.conditional_widens widens depth
  statement _ depth := Parser.statement_widens widens depth

/-- Levels at the same depth, under a limit and under a wider one. -/
theorem Level.widens_ofRoom (limit : Nat) (origin : Stream) (room more wider : Nat) :
    Level.Widens limit origin room (.ofRoom limit room) (.ofRoom wider (room + more)) := by
  induction room with
  | zero =>
    obtain _ | more := more
    · exact .ofNesting (.full _)
    · exact .ofNesting (.full _)
  | succ room ih =>
    rw [Nat.succ_add]
    exact .ofNesting (.inner ih)

section
variable {limit wider : Nat} {origin : Stream}

theorem Request.widens (le : limit ≤ wider) (request : Request) :
    Parser.Widens limit origin (Reached origin []) (request.parser (.outermost limit))
      (request.parser (.outermost wider)) Parser.Always := by
  obtain ⟨more, rfl⟩ := Nat.exists_eq_add_of_le le
  have level : Level.Widens limit origin limit (.outermost limit) (.outermost (limit + more)) :=
    Level.widens_ofRoom limit origin limit more _
  have depth : ([] : List Opener).length + limit = limit := Nat.zero_add limit
  cases request with
  | program =>
    have body : ∀ bound, _ := Parser.statementsUpTo_widens rfl (level.statement [] depth) (· == .finish)
    refine .map _ (.bind_remaining fun bound => ?_)
    exact (body bound).weaken (fun _ => id) fun _ _ => trivial
  | statement =>
    exact ((level.statement [] depth).map _).weaken (fun _ => id) fun _ _ => trivial
  | expression least =>
    exact ((level.expression least [] depth).map _).weaken (fun _ => id) fun _ _ => trivial

/-- An answer under a limit is the answer under every wider one, with the same stream left, and says
nothing of the limit; or it is that a token would open one level more than the limit allows. -/
theorem Request.answer_of_le (le : limit ≤ wider) (request : Request) (stream : Stream)
    {answer : Except Fault Parsed} {left : Stream}
    (ran : Parser.runOn (request.parser (.outermost limit)) stream = (answer, left)) :
    (Parser.runOn (request.parser (.outermost wider)) stream = (answer, left) ∧
      ∀ told span, answer ≠ .error ⟨.tooDeep told, span⟩) ∨
    ∃ span, answer = .error ⟨.tooDeep limit, span⟩ ∧ Overflows limit stream span left := by
  have widens := request.widens le stream (.refl stream)
  rw [Parser.runOn] at ran ⊢
  obtain ⟨span, _, fails, overflows⟩ | ⟨same, known⟩ := widens
  · rw [fails] at ran
    cases ran
    exact .inr ⟨span, rfl, overflows⟩
  · rw [same]
    refine .inl ⟨ran, ?_⟩
    rintro told span rfl
    cases result : request.parser (.outermost limit) stream with
    | ok value left =>
      rw [result] at ran
      cases ran
    | error fault left =>
      rw [result] at ran known
      cases ran
      exact known told rfl

end

/-- The tokens of `(a[b`, at the start of a source. -/
def subscripted : Stream where
  rest := [⟨.symbol .openParen, ⟨0, 1⟩⟩, ⟨.identifier "a", ⟨1, 2⟩⟩, ⟨.symbol .openBracket, ⟨2, 3⟩⟩,
    ⟨.identifier "b", ⟨3, 4⟩⟩]
  finish := .point 4
  last := .point 0

/-- With one level the bracket inside the parenthesis is too deep, and is blamed. -/
theorem Request.answer_of_le_subscripted :
    let left : Stream := ⟨[⟨.identifier "b", ⟨3, 4⟩⟩], .point 4, ⟨2, 3⟩⟩
    1 ≤ 2 ∧
    Parser.runOn ((Request.expression 0).parser (.outermost 1)) subscripted =
      (.error ⟨.tooDeep 1, ⟨2, 3⟩⟩, left) ∧
    Overflows 1 subscripted ⟨2, 3⟩ left := by
  refine ⟨by decide, rfl, ?_⟩
  obtain ⟨-, other⟩ | ⟨span, equal, overflows⟩ :=
    Request.answer_of_le (by decide : 1 ≤ 2) (.expression 0) subscripted rfl
  · exact absurd rfl (other 1 ⟨2, 3⟩)
  · cases equal
    exact overflows

end BlockScript
