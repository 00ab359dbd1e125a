import BlockScript.Proofs.Session.Machine
import BlockScript.Proofs.Syntax.Lookahead
import BlockScript.Proofs.Syntax.Soundness
import Mathlib.Data.List.Forall2

/-!
# Sessions and streams side by side

A `View` fixes what a session on a buffer and a stream have in common: the tokens of the buffer up
to its first end of the input, the place where the comparison starts, and how spans in the buffer
correspond to spans in the stream. `view.Shows room passed` says that a session and a stream are at
the same place, with `room` levels that may still be opened and at least `passed` tokens behind the
start. A machine mirrors a parser if from such a place both succeed with the same value, or both
fail with the same fault, and are then at the same place again.

As spans need only correspond, one and the same machine mirrors the parser on every stream of the
same lexemes. So what is proved here compares sessions with streams, and also two streams with each
other.
-/

namespace BlockScript

/-! ## Tokens and faults up to their places -/

/-- The same lexeme at corresponding places. -/
structure Token.Matches (spans : Span → Span → Prop) (left right : Token) : Prop where
  lexeme : left.toLexeme = right.toLexeme
  placed : spans left.span right.span

theorem Token.Matches.kind {spans : Span → Span → Prop} {left right : Token}
    (same : left.Matches spans right) : left.kind = right.kind :=
  congrArg Lexeme.kind same.lexeme

theorem Token.Matches.content {spans : Span → Span → Prop} {left right : Token}
    (same : left.Matches spans right) : left.content = right.content :=
  congrArg Lexeme.content same.lexeme

theorem Token.Matches.found {spans : Span → Span → Prop} {left right : Token}
    (same : left.Matches spans right) : left.found = right.found := by
  rw [Token.found, Token.found, same.kind, same.content]

theorem map_toLexeme_of_matches {spans : Span → Span → Prop} {left right : List Token}
    (same : List.Forall₂ (Token.Matches spans) left right) :
    left.map Token.toLexeme = right.map Token.toLexeme := by
  induction same with
  | nil => rfl
  | cons first _ ih => rw [List.map_cons, List.map_cons, first.lexeme, ih]

/-- The scan for a `=` does not see behind the end of the input. -/
theorem assignmentAhead_append_finish (depth : Nat) (tokens : List Token) {finish : Token}
    (last : finish.kind = .finish) (beyond : List Token) :
    assignmentAhead depth (tokens ++ finish :: beyond) = assignmentAhead depth tokens := by
  induction tokens generalizing depth with
  | nil => simp only [List.nil_append, assignmentAhead, last]
  | cons token tokens ih =>
    rw [List.cons_append, assignmentAhead, assignmentAhead]
    split <;> simp only [ih]

/-- The same cause at corresponding places. A target that cannot be assigned to is blamed from its
first token to its last, so there both ends have a place of their own. -/
inductive Fault.Matches (spans : Span → Span → Prop) : Fault → Fault → Prop
  | blamed {cause : Cause} {left right : Span} (placed : spans left right) :
      Matches spans ⟨cause, left⟩ ⟨cause, right⟩
  | target {first last first' last' : Span} (starts : spans first first')
      (ends : spans last last') :
      Matches spans ⟨.notAssignable, first.merge last⟩ ⟨.notAssignable, first'.merge last'⟩

/-- What stays the same while a session and a stream are compared. -/
structure View where
  /-- The tokens of the buffer before its first end of the input. -/
  inner : List Token
  finish : Token
  /-- The tokens behind the first end of the input. -/
  beyond : List Token
  /-- The index from which on session and stream are compared. -/
  start : Nat
  /-- Which span of the stream corresponds to a span of the buffer. -/
  spans : Span → Span → Prop
  isInner : ∀ token ∈ inner, token.kind ≠ .finish
  isFinish : finish.kind = .finish

namespace View

/-- The whole buffer. -/
def buffer (view : View) : List Token := view.inner ++ view.finish :: view.beyond

/-- Session and stream are at the same place, at least `passed` tokens behind the start, and `room`
levels may still be opened. -/
structure Shows (view : View) (room passed : Nat) (session : Session) (stream : Stream) : Prop where
  buffer : session.buffer = view.buffer
  depth : session.depth + room = nestingLimit
  passed : view.start + passed ≤ session.position
  inside : session.position ≤ view.inner.length
  rest : List.Forall₂ (Token.Matches view.spans) (view.inner.drop session.position) stream.rest
  finish : view.spans view.finish.span stream.finish
  /-- The token taken last corresponds, too, if it was taken since the start. -/
  last : ∀ index token, session.position = index + 1 → view.start ≤ index →
    view.inner[index]? = some token → view.spans token.span stream.last

variable {view : View} {room passed : Nat} {session : Session} {stream : Stream}

theorem Shows.weaken (shows : view.Shows room passed session stream) {fewer : Nat}
    (less : fewer ≤ passed) : view.Shows room fewer session stream :=
  { shows with passed := Nat.le_trans (Nat.add_le_add_left less _) shows.passed }

theorem Shows.deeper (shows : view.Shows (room + 1) passed session stream) :
    view.Shows room passed { session with depth := session.depth + 1 } stream :=
  { shows with depth := (Nat.succ_add_eq_add_succ _ _).trans shows.depth }

theorem Shows.shallower (shows : view.Shows room passed session stream)
    (more : room + 1 ≤ nestingLimit) :
    view.Shows (room + 1) passed { session with depth := session.depth - 1 } stream := by
  have depth := shows.depth
  exact { shows with depth := by dsimp only; omega }

/-- Behind the last token a session can be no more tokens away from the start than there are. -/
theorem Shows.passed_le (shows : view.Shows room passed session stream) :
    view.start + passed ≤ view.inner.length :=
  Nat.le_trans shows.passed shows.inside

/-- As many tokens are left in the stream as in the buffer. -/
theorem Shows.position_add_length (shows : view.Shows room passed session stream) :
    session.position + stream.rest.length = view.inner.length := by
  have lengths := shows.rest.length_eq
  have inside := shows.inside
  rw [List.length_drop] at lengths
  omega

theorem getElem?_buffer_of_lt {index : Nat} (inner : index < view.inner.length) :
    view.buffer[index]? = some view.inner[index] := by
  rw [buffer, List.getElem?_append_left inner, List.getElem?_eq_getElem inner]

theorem getElem?_buffer_length : view.buffer[view.inner.length]? = some view.finish := by
  rw [buffer, List.getElem?_append_right (Nat.le_refl _), Nat.sub_self]
  rfl

theorem length_inner_lt : view.inner.length < view.buffer.length := by
  rw [buffer, List.length_append, List.length_cons]
  omega

/-- No look ahead leaves the buffer, as long as it does not go beyond the first end of the input. -/
theorem Shows.ahead_eq (shows : view.Shows room passed session stream) {distance : Nat}
    {token : Token} (reach : session.position + distance ≤ view.inner.length)
    (stands : view.buffer[session.position + distance]? = some token) :
    Machine.ahead distance session = .ok token session := by
  have within : session.position + distance ≤ view.buffer.length - 1 :=
    Nat.le_sub_one_of_lt (Nat.lt_of_le_of_lt reach length_inner_lt)
  rw [Machine.ahead, shows.buffer, Nat.min_eq_left within, Machine.tokenAt, shows.buffer, stands]

/-- What is in front of a session and a stream that are at the same place. -/
inductive Front (view : View) (room passed : Nat) (session : Session) : Stream → Prop
  | token {token other : Token} {rest : List Token} {finish last : Span}
      (reads : Machine.current session = .ok token session)
      (inner : token.kind ≠ .finish) (same : token.Matches view.spans other)
      (behind : view.Shows room (passed + 1) { session with position := session.position + 1 }
        ⟨rest, finish, other.span⟩) :
      Front view room passed session ⟨other :: rest, finish, last⟩
  | finish {finish last : Span} (reads : Machine.current session = .ok view.finish session)
      (placed : view.spans view.finish.span finish) :
      Front view room passed session ⟨[], finish, last⟩

theorem Shows.front (shows : view.Shows room passed session stream) :
    view.Front room passed session stream := by
  obtain ⟨tokens, finish, last⟩ := stream
  have left := shows.position_add_length
  cases tokens with
  | nil =>
    have ended : session.position = view.inner.length := left
    refine .finish (shows.ahead_eq shows.inside ?_) shows.finish
    rw [ended]
    exact getElem?_buffer_length
  | cons other rest =>
    have more : session.position < view.inner.length := by
      simp only [List.length_cons] at left
      omega
    have tokens := shows.rest
    rw [List.drop_eq_getElem_cons more] at tokens
    obtain ⟨same, others⟩ := List.forall₂_cons.mp tokens
    refine .token (shows.ahead_eq shows.inside (getElem?_buffer_of_lt more))
      (view.isInner _ (List.getElem_mem more)) same ?_
    exact {
      buffer := shows.buffer
      depth := shows.depth
      passed := Nat.succ_le_succ shows.passed
      inside := more
      rest := others
      finish := shows.finish
      last := by
        -- The token taken last is the one that was in front.
        intro index token next _ stands
        obtain rfl : session.position = index := Nat.succ.inj next
        rw [List.getElem?_eq_getElem more] at stands
        cases stands
        exact same.placed }

/-- The place of a session that has ended or gone on. -/
def Moved (view : View) (room floor : Nat) (session : Session) (stream : Stream) : Prop :=
  view.Shows room floor session stream ∧
    (stream.rest = [] ∨ view.Shows room (floor + 1) session stream)

theorem Shows.moved {floor : Nat} (shows : view.Shows room passed session stream)
    (further : floor < passed) : view.Moved room floor session stream :=
  ⟨shows.weaken (Nat.le_of_lt further), .inr (shows.weaken further)⟩

theorem Moved.weaken {floor fewer : Nat} (moved : view.Moved room floor session stream)
    (less : fewer ≤ floor) : view.Moved room fewer session stream :=
  ⟨moved.1.weaken less, moved.2.imp_right (·.weaken (Nat.succ_le_succ less))⟩

/-- The same outcome at the same place. -/
inductive Agree (view : View) {α : Type} (success failure : Session → Stream → Prop) :
    EStateM.Result Halt Session α → EStateM.Result Fault Stream α → Prop
  | ok {value : α} {session : Session} {stream : Stream} (reached : success session stream) :
      Agree view success failure (.ok value session) (.ok value stream)
  | error {fault other : Fault} {session : Session} {stream : Stream}
      (same : fault.Matches view.spans other) (reached : failure session stream) :
      Agree view success failure (.error (.fault fault) session) (.error other stream)

theorem Agree.imp {α : Type} {success failure more worse : Session → Stream → Prop}
    {ran : EStateM.Result Halt Session α} {parsed : EStateM.Result Fault Stream α}
    (agree : view.Agree success failure ran parsed)
    (succeeds : ∀ session stream, success session stream → more session stream)
    (fails : ∀ session stream, failure session stream → worse session stream) :
    view.Agree more worse ran parsed := by
  cases agree with
  | ok reached => exact .ok (succeeds _ _ reached)
  | error same reached => exact .error same (fails _ _ reached)

/-- Where the parser succeeds, there is a session at the place that it reaches. -/
theorem Agree.exists_session {α : Type} {success failure : Session → Stream → Prop}
    {ran : EStateM.Result Halt Session α} {value : α} {left : Stream}
    (agree : view.Agree success failure ran (.ok value left)) :
    ∃ session, success session left := by
  cases agree with
  | ok reached => exact ⟨_, reached⟩

/-- From every place with `source` tokens behind the start and a token in front that is of a
category in `front`, machine and parser agree. After a success they have come to `target`, after a
failure they have ended or are behind `floor`. -/
def Mirrors (view : View) (room : Nat) {α : Type} (front : Kind → Prop) (floor source target : Nat)
    (machine : Machine α) (parser : Parser α) : Prop :=
  ∀ ⦃session stream⦄, view.Shows room source session stream → front stream.kind →
    view.Agree (view.Shows room target) (view.Moved room floor) (machine session) (parser stream)

/-- The front may be of any category. -/
abbrev Anything : Kind → Prop := fun _ => True

/-- The front is a token. -/
abbrev Something : Kind → Prop := fun kind => kind ≠ .finish

/-- Machine and parser agree, and take at least one token to succeed, or to fail before the end. -/
abbrev Opens (view : View) (room : Nat) {α : Type} (passed : Nat) (machine : Machine α)
    (parser : Parser α) : Prop :=
  view.Mirrors room Anything passed passed (passed + 1) machine parser

/-- Machine and parser agree, and take at least one token if there is one. -/
abbrev Starts (view : View) (room : Nat) {α : Type} (passed : Nat) (machine : Machine α)
    (parser : Parser α) : Prop :=
  view.Mirrors room Something passed passed (passed + 1) machine parser

/-- Machine and parser agree once a token has been taken. -/
abbrev GoesOn (view : View) (room : Nat) {α : Type} (floor passed : Nat) (machine : Machine α)
    (parser : Parser α) : Prop :=
  view.Mirrors room Anything floor passed passed machine parser

/-! ## Bounds -/

/-- From `passed` tokens behind the start on, `fuel` is more than one step for each token left. -/
def Fuels (view : View) (passed fuel : Nat) : Prop :=
  view.inner.length < view.start + passed + fuel

/-- From `passed` tokens behind the start on, there are at most `bound` tokens left. -/
def Bounds (view : View) (passed bound : Nat) : Prop :=
  view.inner.length ≤ view.start + passed + bound

/-- What is left of the stream bounds what is left of the buffer. -/
theorem Shows.exists_bounds (shows : view.Shows room passed session stream) :
    ∃ later, passed ≤ later ∧ view.Shows room later session stream ∧
      view.Bounds later stream.rest.length := by
  have left := shows.position_add_length
  have behind := shows.passed
  refine ⟨session.position - view.start, by omega, { shows with passed := by omega }, ?_⟩
  unfold Bounds
  omega

section
variable {α : Type} {machine : Machine α} {parser : Parser α} {front : Kind → Prop}
  {floor target fuel bound : Nat}

theorem Fuels.mono (fuels : view.Fuels passed fuel) {more : Nat} (further : passed ≤ more) :
    view.Fuels more fuel := by
  unfold Fuels at fuels ⊢
  omega

theorem Fuels.next (fuels : view.Fuels passed (fuel + 1)) : view.Fuels (passed + 1) fuel := by
  unfold Fuels at fuels ⊢
  omega

/-- Without fuel there is no place to start from. -/
theorem Fuels.elim (fuels : view.Fuels passed 0) :
    view.Mirrors room front floor passed target machine parser := by
  intro session stream shows _
  have passed_le := shows.passed_le
  unfold Fuels at fuels
  omega

theorem Bounds.mono (bounds : view.Bounds passed bound) {more : Nat} (further : passed ≤ more) :
    view.Bounds more bound := by
  unfold Bounds at bounds ⊢
  omega

theorem Bounds.next (bounds : view.Bounds passed (bound + 1)) :
    view.Bounds (passed + 1) bound := by
  unfold Bounds at bounds ⊢
  omega

/-- Behind all tokens there is none in front. -/
theorem Bounds.elim_something (bounds : view.Bounds passed 0) :
    view.Mirrors room Something floor passed target machine parser := by
  intro session stream shows inner
  cases shows.front with
  | token _ _ _ behind =>
    have passed_le := behind.passed_le
    unfold Bounds at bounds
    omega
  | finish => exact absurd rfl inner

/-- Behind all tokens no further one has been taken. -/
theorem Bounds.elim (bounds : view.Bounds passed 0) :
    view.Mirrors room front floor (passed + 1) target machine parser := by
  intro session stream shows _
  have passed_le := shows.passed_le
  unfold Bounds at bounds
  omega

end

end View

namespace Machine

variable {α β : Type}

theorem bind_apply (machine : Machine α) (next : α → Machine β) (session : Session) :
    (machine >>= next) session =
      match machine session with
      | .ok value left => next value left
      | .error reason left => .error reason left := by
  change EStateM.bind machine next session = _
  rw [EStateM.bind]
  cases machine session <;> rfl

theorem bind_of_eq_ok {machine : Machine α} {session left : Session} {value : α}
    (ran : machine session = .ok value left) (next : α → Machine β) :
    (machine >>= next) session = next value left := by
  rw [bind_apply, ran]

variable {session : Session} {token : Token}

theorem peek_of_current (reads : current session = .ok token session) :
    peek session = .ok token.kind session := by
  rw [peek, bind_of_eq_ok reads]
  rfl

theorem here_of_current (reads : current session = .ok token session) :
    here session = .ok token.span session := by
  rw [here, bind_of_eq_ok reads]
  rfl

theorem take_of_current (reads : current session = .ok token session)
    (inner : token.kind ≠ .finish) :
    take session = .ok token { session with position := session.position + 1 } := by
  rw [take, bind_of_eq_ok reads, if_neg inner]
  rfl

/-- What is in front of the next place is one token further ahead here. -/
theorem ahead_of_current (reads : current { session with position := session.position + 1 } =
    .ok token { session with position := session.position + 1 }) :
    ahead 1 session = .ok token session := by
  rw [current, ahead, tokenAt, Nat.add_zero] at reads
  rw [ahead, tokenAt]
  generalize session.buffer[min (session.position + 1) (session.buffer.length - 1)]? = stands
    at reads ⊢
  cases stands <;> cases reads
  rfl

theorem take_of_finish (reads : current session = .ok token session) (last : token.kind = .finish) :
    take session = .ok token session := by
  rw [take, bind_of_eq_ok reads, if_pos last]
  rfl

theorem skip_of_take {left : Session} (took : take session = .ok token left) :
    skip session = .ok () left := by
  rw [skip, bind_of_eq_ok took]
  rfl

theorem accept?_of_current {kind : Kind} (reads : current session = .ok token session)
    (fits : token.kind = kind) (inner : token.kind ≠ .finish) :
    accept? kind session = .ok (some token) { session with position := session.position + 1 } := by
  rw [accept?, bind_of_eq_ok reads, if_pos fits, bind_of_eq_ok (take_of_current reads inner)]
  rfl

theorem accept?_of_ne {kind : Kind} (reads : current session = .ok token session)
    (differs : token.kind ≠ kind) : accept? kind session = .ok none session := by
  rw [accept?, bind_of_eq_ok reads, if_neg differs]
  rfl

theorem expect_of_current {slot : Slot} (reads : current session = .ok token session)
    (fits : token.kind = slot.kind) (inner : token.kind ≠ .finish) :
    expect slot session = .ok token { session with position := session.position + 1 } := by
  rw [expect, bind_of_eq_ok reads, if_pos fits, take_of_current reads inner]

theorem expect_of_ne {slot : Slot} (reads : current session = .ok token session)
    (differs : token.kind ≠ slot.kind) :
    expect slot session = .error (.fault ⟨.expected slot token.found, token.span⟩) session := by
  rw [expect, bind_of_eq_ok reads, if_neg differs, blame, bind_of_eq_ok reads]
  rfl

end Machine

namespace View.Mirrors

open Machine (bind_of_eq_ok)

variable {view : View} {room : Nat} {α β : Type} {front : Kind → Prop}
  {floor source middle target : Nat}

/-! ## Structural rules -/

theorem weaken {machine : Machine α} {parser : Parser α}
    (mirrors : view.Mirrors room front floor source target machine parser)
    {narrower : Kind → Prop} {lower later earlier : Nat}
    (implies : ∀ kind, narrower kind → front kind) (less : lower ≤ floor)
    (after : source ≤ later) (before : earlier ≤ target) :
    view.Mirrors room narrower lower later earlier machine parser := by
  intro session stream shows holds
  exact (mirrors (shows.weaken after) (implies _ holds)).imp
    (fun _ _ reached => reached.weaken before) (fun _ _ reached => reached.weaken less)

theorem lower {machine : Machine α} {parser : Parser α}
    (mirrors : view.Mirrors room front floor source target machine parser) {fewer : Nat}
    (less : fewer ≤ floor) : view.Mirrors room front fewer source target machine parser :=
  mirrors.weaken (fun _ => id) less (Nat.le_refl _) (Nat.le_refl _)

/-- The front can be left out of account. -/
theorem anywhere {machine : Machine α} {parser : Parser α}
    (mirrors : view.Mirrors room Anything floor source target machine parser) :
    view.Mirrors room front floor source target machine parser :=
  fun _ _ shows _ => mirrors shows trivial

/-- What takes a token can be used where one has been taken. -/
theorem goesOn {machine : Machine α} {parser : Parser α}
    (opens : view.Mirrors room front source source (source + 1) machine parser)
    (further : floor < source) : view.Mirrors room front floor source source machine parser :=
  opens.weaken (fun _ => id) (Nat.le_of_lt further) (Nat.le_refl _) (Nat.le_succ _)

/-- A token more behind the start does no harm. -/
theorem later {machine : Machine α} {parser : Parser α}
    (mirrors : view.Mirrors room front floor source target machine parser) :
    view.Mirrors room front floor (source + 1) target machine parser :=
  mirrors.weaken (fun _ => id) (Nat.le_refl _) (Nat.le_succ _) (Nat.le_refl _)

/-- It need not be said of all tokens taken that they have been. -/
theorem earlier {machine : Machine α} {parser : Parser α}
    (mirrors : view.Mirrors room front floor source (target + 1) machine parser) :
    view.Mirrors room front floor source target machine parser :=
  mirrors.weaken (fun _ => id) (Nat.le_refl _) (Nat.le_refl _) (Nat.le_succ _)

theorem pure (value : α) : view.Mirrors room front floor source source (pure value) (pure value) :=
  fun _ _ shows _ => .ok shows

theorem bind {machine : Machine α} {parser : Parser α} {next : α → Machine β}
    {next' : α → Parser β}
    (first : view.Mirrors room front floor source middle machine parser)
    (second : ∀ value, view.Mirrors room Anything floor middle target (next value) (next' value)) :
    view.Mirrors room front floor source target (machine >>= next) (parser >>= next') := by
  intro session stream shows holds
  have agree := first shows holds
  rw [Machine.bind_apply, Parser.bind_apply]
  generalize machine session = ran, parser stream = parsed at agree
  cases agree with
  | ok reached => exact second _ reached trivial
  | error same reached => exact .error same reached

theorem map {machine : Machine α} {parser : Parser α}
    (mirrors : view.Mirrors room front floor source target machine parser) (wrap : α → β) :
    view.Mirrors room front floor source target (do let value ← machine; Pure.pure (wrap value))
      (do let value ← parser; Pure.pure (wrap value)) :=
  mirrors.bind fun _ => pure _

/-! ## Rules for primitives -/

theorem failAt {cause : Cause} {left right : Span}
    (same : Fault.Matches view.spans ⟨cause, left⟩ ⟨cause, right⟩) (further : floor < source) :
    view.Mirrors room front floor source target (Machine.fail cause left : Machine α)
      (Parser.fail cause right) :=
  fun _ _ shows _ => .error same (shows.moved further)

theorem fail {cause : Cause} {left right : Span} (placed : view.spans left right)
    (further : floor < source) :
    view.Mirrors room front floor source target (Machine.fail cause left : Machine α)
      (Parser.fail cause right) :=
  failAt (.blamed placed) further

theorem blame {cause : Found → Cause} (further : floor < source) :
    view.Mirrors room front floor source target (Machine.blame cause : Machine α)
      (Parser.blame cause) := by
  intro session stream shows _
  cases shows.front with
  | token reads _ same =>
    rw [Machine.blame, bind_of_eq_ok reads, same.found]
    exact .error (.blamed same.placed) (shows.moved further)
  | finish reads placed =>
    rw [Machine.blame, bind_of_eq_ok reads, Token.found, if_pos view.isFinish]
    exact .error (.blamed placed) (shows.moved further)

theorem bind_peek {next : Kind → Machine α} {next' : Kind → Parser α}
    (second : ∀ kind, front kind →
      view.Mirrors room (· = kind) floor source target (next kind) (next' kind)) :
    view.Mirrors room front floor source target (Machine.peek >>= next) (Parser.peek >>= next') := by
  intro session stream shows holds
  have agree := second stream.kind holds shows rfl
  cases shows.front with
  | token reads _ same =>
    rw [bind_of_eq_ok (Machine.peek_of_current reads), same.kind]
    exact agree
  | finish reads placed =>
    rw [bind_of_eq_ok (Machine.peek_of_current reads), view.isFinish]
    exact agree

theorem bind_here {next : Span → Machine α} {next' : Span → Parser α}
    (second : ∀ left right, view.spans left right →
      view.Mirrors room front floor source target (next left) (next' right)) :
    view.Mirrors room front floor source target (Machine.here >>= next) (Parser.here >>= next') := by
  intro session stream shows holds
  cases shows.front with
  | token reads _ same =>
    rw [bind_of_eq_ok (Machine.here_of_current reads)]
    exact second _ _ same.placed shows holds
  | finish reads placed =>
    rw [bind_of_eq_ok (Machine.here_of_current reads)]
    exact second _ _ placed shows holds

/-- The bound that the parser takes is enough for the tokens that are left. -/
theorem bind_remaining {machine : Machine α} {next' : Nat → Parser α}
    (second : ∀ bound later, source ≤ later → view.Bounds later bound →
      view.Mirrors room Anything floor later later machine (next' bound)) :
    view.Mirrors room front floor source source machine (Parser.remaining >>= next') := by
  intro session stream shows _
  obtain ⟨later, from_, exact, bounds⟩ := shows.exists_bounds
  exact (second _ later from_ bounds exact trivial).imp
    (fun _ _ reached => reached.weaken from_) fun _ _ => id

/-- Passing over a token that is there, or over nothing. -/
theorem bind_skip {next : Unit → Machine α} {next' : Unit → Parser α}
    (second : view.Mirrors room Anything floor source target (next ()) (next' ())) :
    view.Mirrors room front floor source target (Machine.skip >>= next) (Parser.skip >>= next') := by
  intro session stream shows _
  cases shows.front with
  | token reads inner _ behind =>
    rw [bind_of_eq_ok (Machine.skip_of_take (Machine.take_of_current reads inner))]
    exact second (behind.weaken (Nat.le_succ _)) trivial
  | finish reads =>
    rw [bind_of_eq_ok (Machine.skip_of_take (Machine.take_of_finish reads view.isFinish))]
    exact second shows trivial

theorem bind_skip_inner {next : Unit → Machine α} {next' : Unit → Parser α}
    (inner : ∀ kind, front kind → kind ≠ .finish)
    (second : view.Mirrors room Anything floor (source + 1) target (next ()) (next' ())) :
    view.Mirrors room front floor source target (Machine.skip >>= next) (Parser.skip >>= next') := by
  intro session stream shows holds
  cases shows.front with
  | token reads other _ behind =>
    rw [bind_of_eq_ok (Machine.skip_of_take (Machine.take_of_current reads other))]
    exact second behind trivial
  | finish reads => exact absurd rfl (inner _ holds)

theorem bind_accept? {kind : Kind} {next : Option Token → Machine α}
    {next' : Option Token → Parser α} (inner : kind ≠ .finish)
    (some : ∀ token other : Token, token.Matches view.spans other → token.kind = kind →
      view.Mirrors room Anything floor (source + 1) target (next (some token)) (next' (some other)))
    (none : view.Mirrors room Anything floor source target (next none) (next' none)) :
    view.Mirrors room front floor source target (Machine.accept? kind >>= next)
      (Parser.accept? kind >>= next') := by
  intro session stream shows _
  rw [Parser.bind_apply, Parser.accept?]
  cases shows.front with
  | @token token other rest finish last reads inside same behind =>
    by_cases fits : token.kind = kind
    · rw [bind_of_eq_ok (Machine.accept?_of_current reads fits inside),
        if_pos (show Stream.kind ⟨other :: rest, finish, last⟩ = kind from
          same.kind.symm.trans fits)]
      exact some _ _ same fits behind trivial
    · rw [bind_of_eq_ok (Machine.accept?_of_ne reads fits),
        if_neg (show Stream.kind ⟨other :: rest, finish, last⟩ ≠ kind from
          fun known => fits (same.kind.trans known))]
      exact none shows trivial
  | finish reads =>
    rw [bind_of_eq_ok (Machine.accept?_of_ne reads (view.isFinish ▸ inner.symm)),
      if_neg (show Stream.kind ⟨[], _, _⟩ ≠ kind from inner.symm)]
    exact none shows trivial

theorem bind_expect_inner {slot : Slot} {next : Token → Machine α} {next' : Token → Parser α}
    (further : floor < source)
    (second : ∀ token other : Token, token.Matches view.spans other →
      view.Mirrors room Anything floor (source + 1) target (next token) (next' other)) :
    view.Mirrors room front floor source target (Machine.expect slot >>= next)
      (Parser.expect slot >>= next') := by
  intro session stream shows _
  rw [Machine.bind_apply, Parser.bind_apply, Parser.expect]
  cases shows.front with
  | @token token other rest finish last reads inner same behind =>
    by_cases fits : token.kind = slot.kind
    · rw [Machine.expect_of_current reads fits inner]
      simp only [if_pos (same.kind.symm.trans fits)]
      exact second _ _ same behind trivial
    · rw [Machine.expect_of_ne reads fits, same.found]
      simp only [if_neg (show ¬ other.kind = slot.kind from same.kind ▸ fits)]
      exact .error (.blamed same.placed) (shows.moved further)
  | finish reads placed =>
    have fits : view.finish.kind ≠ slot.kind := by
      rw [view.isFinish]
      cases slot <;> exact Kind.noConfusion
    rw [Machine.expect_of_ne reads fits, Token.found, if_pos view.isFinish]
    exact .error (.blamed placed) (shows.moved further)

theorem bind_expect {slot : Slot} {next : Token → Machine α} {next' : Token → Parser α}
    (further : floor < source)
    (second : ∀ token other : Token, token.Matches view.spans other →
      view.Mirrors room Anything floor source target (next token) (next' other)) :
    view.Mirrors room front floor source target (Machine.expect slot >>= next)
      (Parser.expect slot >>= next') :=
  bind_expect_inner further fun token other same => (second token other same).later

/-- A machine looks at the token behind the next one only if the next one is no end. -/
theorem bind_ahead {next : Token → Machine α} {next' : Stream → Parser α}
    (inner : ∀ kind, front kind → kind ≠ .finish)
    (second : ∀ token stream, front stream.kind → token.kind = stream.tail.kind →
      view.Mirrors room front floor source target (next token) (next' stream)) :
    view.Mirrors room front floor source target (Machine.ahead 1 >>= next) (get >>= next') := by
  intro session stream shows holds
  cases shows.front with
  | token _ _ _ behind =>
    cases behind.front with
    | token reads _ same =>
      rw [bind_of_eq_ok (Machine.ahead_of_current reads)]
      exact second _ _ holds same.kind shows holds
    | finish reads =>
      rw [bind_of_eq_ok (Machine.ahead_of_current reads)]
      exact second _ _ holds view.isFinish shows holds
  | finish => exact absurd rfl (inner _ holds)

/-- The token taken last is one that both have taken. -/
theorem bind_last {next : Span → Machine α} {next' : Stream → Parser α} (further : 0 < source)
    (second : ∀ left stream, view.spans left stream.last →
      view.Mirrors room front floor source target (next left) (next' stream)) :
    view.Mirrors room front floor source target (Machine.last >>= next) (get >>= next') := by
  intro session stream shows holds
  have passed := shows.passed
  have inside := shows.inside
  -- Since the start a token has been taken, so the index in front of the position is in the buffer.
  obtain ⟨index, position⟩ := Nat.exists_eq_add_one_of_ne_zero (show session.position ≠ 0 by omega)
  have inner : index < view.inner.length := by omega
  have read : Machine.last session = .ok view.inner[index].span session := by
    rw [Machine.last]
    simp only [position, Machine.bind_apply, Machine.tokenAt, shows.buffer,
      getElem?_buffer_of_lt inner]
    rfl
  rw [bind_of_eq_ok read]
  refine second _ stream ?_ shows holds
  exact shows.last index _ position (by omega) (List.getElem?_eq_getElem inner)

/-- Both scan the same categories, up to the end of the input. -/
theorem bind_equalsAhead {next : Bool → Machine α} {next' : Stream → Parser α}
    (second : ∀ stream : Stream, view.Mirrors room front floor source target
      (next (assignmentAhead 0 stream.rest)) (next' stream)) :
    view.Mirrors room front floor source target (Machine.equalsAhead >>= next) (get >>= next') := by
  intro session stream shows holds
  have visible : assignmentAhead 0 (view.buffer.drop session.position) =
      assignmentAhead 0 stream.rest := by
    rw [View.buffer, List.drop_append_of_le_length shows.inside,
      assignmentAhead_append_finish _ _ view.isFinish, assignmentAhead_eq, assignmentAhead_eq,
      map_toLexeme_of_matches shows.rest]
  have read : Machine.equalsAhead session = .ok (assignmentAhead 0 stream.rest) session := by
    have inside := Nat.le_of_lt (Nat.lt_of_le_of_lt shows.inside length_inner_lt)
    rw [Machine.equalsAhead, shows.buffer, if_pos inside, visible]
  rw [bind_of_eq_ok read]
  exact second stream shows holds

/-! ## Levels -/

/-- A machine that closes the level again that it opened mirrors a parser that is given the level
inside. -/
theorem nested {machine : Machine α} {parse : Level → Parser α} {left right : Span}
    (placed : view.spans left right) (further : floor < source)
    (inside : ∀ inner, room = inner + 1 →
      view.Mirrors inner front floor source target machine
        (parse (Level.ofRoom nestingLimit inner))) :
    view.Mirrors room front floor source target (Machine.nested left machine)
      ((Nesting.ofRoom nestingLimit room).enter right parse) := by
  intro session stream shows holds
  have depth := shows.depth
  cases room with
  | zero =>
    -- All levels are open, and both sides blame the same token.
    rw [Machine.nested, if_pos (show nestingLimit ≤ session.depth from Nat.le_of_eq depth.symm)]
    exact .error (.blamed placed) (shows.moved further)
  | succ inner =>
    have agree := inside inner rfl (shows.deeper) holds
    rw [Machine.nested, if_neg (by omega)]
    change view.Agree _ _ _ (parse (Level.ofRoom nestingLimit inner) stream)
    have more : inner + 1 ≤ nestingLimit := by omega
    generalize machine { session with depth := session.depth + 1 } = ran,
      parse (Level.ofRoom nestingLimit inner) stream = parsed at agree ⊢
    cases agree with
    | ok reached => exact .ok (reached.shallower more)
    | error same reached =>
      -- A failure inside closes the level as well.
      exact .error same ⟨reached.1.shallower more, reached.2.imp_right (·.shallower more)⟩

end View.Mirrors

end BlockScript
