import BlockScript.Proofs.Syntax.Lookahead
import BlockScript.Proofs.Syntax.Soundness

/-!
# Choosing between an assignment and an expression

Without a keyword at its front, a statement is an assignment or an expression, and a scan for a `=`
tells which before anything is taken. The scan counts brackets and knows nothing of the grammar. Yet
wherever an assignment can be parsed it finds a `=`, and wherever an expression can be parsed that
comes to the end of a statement it finds none (`assignmentAhead_decides`). So the statements that are
properly ended are those that a parser would find that tries one alternative, and goes back to the
same place for the other.
-/

namespace BlockScript

/-- The scan does not see behind the end of the input. -/
theorem assignmentAhead_takeWhile (depth : Nat) (tokens : List Token) :
    assignmentAhead depth (tokens.takeWhile Stream.isInner) = assignmentAhead depth tokens := by
  induction tokens generalizing depth with
  | nil => rfl
  | cons token tokens ih =>
    by_cases inner : token.kind = .finish
    · have outer : Stream.isInner token = false := by rw [Stream.isInner, inner]; rfl
      rw [List.takeWhile_cons_of_neg (by rw [outer]; exact Bool.false_ne_true)]
      simp only [assignmentAhead, inner]
    · have shown : Stream.isInner token := bne_iff_ne.mpr inner
      rw [List.takeWhile_cons_of_pos shown, assignmentAhead, assignmentAhead]
      split <;> simp only [ih]

/-- The stream over what a buffer holds from an index on. -/
def Stream.ofBuffer (buffer : List Token) (position : Nat) (finish last : Span) : Stream :=
  ⟨(buffer.drop position).takeWhile isInner, finish, last⟩

namespace Parser

variable {α : Type}

/-- Tries `first`, and goes back to try `second` where `first` fails or does not come to the end of a
statement. -/
def orBack (first second : Parser α) : Parser α := fun stream =>
  match first stream with
  | .ok value left => if left.kind.endsStatement then .ok value left else second stream
  | .error _ _ => second stream

/-- The parser succeeds, and comes to the end of a statement. -/
def Ends (parser : Parser α) (stream : Stream) : Prop :=
  ∃ value left, parser stream = .ok value left ∧ left.kind.endsStatement

/-- Where the alternative that was not chosen comes to no end of a statement, trying both finds what
was chosen, in either order. -/
theorem orBack_eq_ok_iff {first second : Parser α} {stream left : Stream} {value : α}
    {chosen : EStateM.Result Fault Stream α} (ends : left.kind.endsStatement)
    (only : chosen = first stream ∧ ¬ second.Ends stream ∨
      chosen = second stream ∧ ¬ first.Ends stream) :
    chosen = .ok value left ↔ first.orBack second stream = .ok value left := by
  rw [orBack]
  obtain ⟨rfl, other⟩ | ⟨rfl, other⟩ := only
  · cases tried : first stream with
    | error fault behind => exact ⟨nofun, fun ran => absurd ⟨_, _, ran, ends⟩ other⟩
    | ok found behind =>
      dsimp only
      -- Where `first` stops short, it is no answer, and `second` is none either.
      by_cases ended : behind.kind.endsStatement
      · rw [if_pos ended]
      · rw [if_neg ended]
        refine ⟨?_, fun ran => absurd ⟨_, _, ran, ends⟩ other⟩
        rintro ⟨⟩
        contradiction
  · cases tried : first stream with
    | error fault behind => rfl
    | ok found behind =>
      have ended : ¬ behind.kind.endsStatement := fun ended => other ⟨_, _, tried, ended⟩
      dsimp only
      rw [if_neg ended]

/-- An assignment as a statement. -/
def assigned (nesting : Nesting) : Parser Statement := do
  let assignment ← assignment nesting
  pure (.assignment assignment)

/-- An expression as a statement. -/
def expressed (nesting : Nesting) : Parser Statement := do
  let expr ← expression nesting 0
  pure (.expression expr)

theorem assignmentOrExpression_apply (nesting : Nesting) (stream : Stream) :
    assignmentOrExpression nesting stream =
      if assignmentAhead 0 stream.rest then assigned nesting stream
      else expressed nesting stream := by
  rw [assignmentOrExpression, bind_apply]
  change (if assignmentAhead 0 stream.rest then assigned nesting else expressed nesting) stream = _
  split <;> rfl

section
variable {nesting : Nesting} {room : Nat} {stream left : Stream}

/-- An assignment is parsed only where a `=` stands ahead. -/
theorem assignmentAhead_of_assignment (sound : nesting.Sound room) {assignment : Assignment}
    (ran : Parser.assignment nesting stream = .ok assignment left) :
    assignmentAhead 0 stream.rest = true := by
  obtain ⟨words, split, derived⟩ := assignment_yields sound trivial ran
  rw [assignmentAhead_eq, ← Stream.lexemes, split]
  exact derived.equalsAhead_of_assignment _

/-- Where an expression is parsed up to the end of a statement, no `=` stands ahead. -/
theorem assignmentAhead_of_expression (sound : nesting.Sound room) {expr : Expr}
    (ran : expression nesting 0 stream = .ok expr left) (ends : left.kind.endsStatement) :
    assignmentAhead 0 stream.rest = false := by
  obtain ⟨words, split, derived⟩ := expression_yields sound 0 trivial ran
  rw [assignmentAhead_eq, ← Stream.lexemes, split]
  -- What follows the expression shows no `=`, and the expression itself hides those that it holds.
  refine derived.not_equalsAhead_of_expression (equalsAhead_of_endsStatement ?_)
  rwa [← Stream.kind_eq_firstKind]

end

/-- The answer `ahead` of a scan at a stream is never wrong. -/
structure Decides (nesting : Nesting) (stream : Stream) (ahead : Bool) : Prop where
  assigns : ∀ assignment left, Parser.assignment nesting stream = .ok assignment left → ahead = true
  expresses : ∀ expr left, expression nesting 0 stream = .ok expr left → left.kind.endsStatement →
    ahead = false
  /-- At most one of the alternatives succeeds. -/
  exclusive : ∀ assignment behind expr left,
    Parser.assignment nesting stream = .ok assignment behind →
      expression nesting 0 stream = .ok expr left → ¬ left.kind.endsStatement
  /-- What is chosen at once is what is found by trying both, whichever is tried first. -/
  chosen : ∀ statement left, left.kind.endsStatement →
    (assignmentOrExpression nesting stream = .ok statement left ↔
      orBack (assigned nesting) (expressed nesting) stream = .ok statement left) ∧
    (assignmentOrExpression nesting stream = .ok statement left ↔
      orBack (expressed nesting) (assigned nesting) stream = .ok statement left)

/-- On every buffer, at every index and with any number of levels open, the scan ahead tells an
assignment from an expression. -/
theorem assignmentAhead_decides (limit room position : Nat) (buffer : List Token)
    (finish last : Span) :
    Decides (.ofRoom limit room) (.ofBuffer buffer position finish last)
      (assignmentAhead 0 (buffer.drop position)) := by
  have sound := Nesting.sound_ofRoom limit room
  generalize shown : Stream.ofBuffer buffer position finish last = stream
  have scan : assignmentAhead 0 (buffer.drop position) = assignmentAhead 0 stream.rest := by
    rw [← shown, Stream.ofBuffer, assignmentAhead_takeWhile]
  rw [scan]
  have whenAssigned : (assigned (.ofRoom limit room)).Ends stream →
      assignmentAhead 0 stream.rest = true := by
    rintro ⟨statement, left, ran, -⟩
    obtain ⟨assignment, between, parsed, ⟨⟩⟩ := bind_eq_ok ran
    exact assignmentAhead_of_assignment sound parsed
  have whenExpressed : (expressed (.ofRoom limit room)).Ends stream →
      assignmentAhead 0 stream.rest = false := by
    rintro ⟨statement, left, ran, ends⟩
    obtain ⟨expr, between, parsed, ⟨⟩⟩ := bind_eq_ok ran
    exact assignmentAhead_of_expression sound parsed ends
  exact {
    assigns := fun assignment left parsed => assignmentAhead_of_assignment sound parsed
    expresses := fun expr left parsed ends => assignmentAhead_of_expression sound parsed ends
    exclusive := by
      intro assignment behind expr left parsed evaluated ends
      have found := assignmentAhead_of_assignment sound parsed
      have missed := assignmentAhead_of_expression sound evaluated ends
      exact Bool.false_ne_true (missed.symm.trans found)
    chosen := by
      intro statement left ends
      rw [assignmentOrExpression_apply]
      cases ahead : assignmentAhead 0 stream.rest with
      | true =>
        have other := mt whenExpressed (by rw [ahead]; exact Bool.true_eq_false.mp)
        exact ⟨orBack_eq_ok_iff ends (.inl ⟨rfl, other⟩), orBack_eq_ok_iff ends (.inr ⟨rfl, other⟩)⟩
      | false =>
        have other := mt whenAssigned (by rw [ahead]; exact Bool.false_ne_true)
        exact ⟨orBack_eq_ok_iff ends (.inr ⟨rfl, other⟩), orBack_eq_ok_iff ends (.inl ⟨rfl, other⟩)⟩ }

/-- Inside brackets neither a brace nor `while` ends the scan, as in `a[{ while` with its `=` behind. -/
example :
    assignmentAhead 0 ([Lexeme.identifier "a", .symbol .openBracket, .symbol .openCurly,
      .keyword .while_, .symbol .closeBracket, .symbol .equals].map fun lexeme =>
        ⟨lexeme, .point 0⟩) = true := rfl

end Parser

end BlockScript
