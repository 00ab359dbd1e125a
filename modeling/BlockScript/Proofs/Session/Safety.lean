import BlockScript.Proofs.Session.Simulation
import Mathlib.Data.List.TakeWhile

/-!
# Sessions are safe on every buffer

Whatever tokens a session is given and whatever it is asked for, every request is answered: no index
leaves the buffer, and no call or loop goes on for longer than there are tokens
(`Session.runsSafely`). This holds for buffers that no lexer makes, with ends of the input in the
middle, and for requests behind a failed one.

One step is compared with the parser on the stream that is left (`View.step_eq`). A run is a list of
steps, each of which starts where the one before it ended (`View.answers_eq`).
-/

namespace BlockScript

namespace Session

/-- The index of the first end of the input. -/
def finishIndex (session : Session) : Nat := session.buffer.findIdx (·.kind == .finish)

/-- The tokens up to the first end of the input, with that end. -/
def visible (session : Session) : List Token := session.buffer.take (session.finishIndex + 1)

/-- What one step of a session keeps, whether it succeeds or fails. -/
structure StepsTo (before : Session) (answer : Except Halt Parsed) (left : Session) : Prop where
  /-- The step ends by itself, and every token that it asked for is in the buffer. -/
  answered : answer ≠ .error .outOfFuel ∧ answer ≠ .error .outOfRange
  buffer : left.buffer = before.buffer
  forward : before.position ≤ left.position
  inside : left.position ≤ left.finishIndex ∧ left.finishIndex < left.buffer.length
  /-- All levels are closed again. -/
  depth : left.depth = 0
  /-- A step takes a token, unless it starts at the end. -/
  advances : ∀ token, before.buffer[before.position]? = some token → token.kind ≠ .finish →
    before.position < left.position

/-- What holds of a run of requests on a token list, with `fuel` for each of them. -/
structure RunsSafely (tokens : List Token) (fuel : Nat) (requests : List Request) : Prop where
  steps : ∀ done request others, requests = done ++ request :: others →
    let before := (ofTokens tokens).after fuel done
    before.StepsTo (before.step fuel request).1 (before.step fuel request).2
  /-- The answers are those of the parser on the stream of the tokens. -/
  answers : (ofTokens tokens).answers fuel requests =
    (Parser.answers (.outermost nestingLimit) requests (.ofTokens tokens)).map (·.mapError .fault)
  /-- As many steps as there are tokens reach the end. -/
  ends : (ofTokens tokens).finishIndex ≤ requests.length →
    ((ofTokens tokens).after fuel requests).position = (ofTokens tokens).finishIndex
  /-- What stands behind the first end of the input makes no difference. -/
  visible : ∀ others more, (ofTokens others).visible = (ofTokens tokens).visible →
    others.length < more →
      (ofTokens others).answers more requests = (ofTokens tokens).answers fuel requests ∧
        ((ofTokens others).after more requests).position =
          ((ofTokens tokens).after fuel requests).position

/-- The buffer of a session is the stream over the same tokens, and more behind its end. -/
theorem exists_buffer_eq (tokens : List Token) : ∃ finish beyond,
    (ofTokens tokens).buffer = tokens.takeWhile Stream.isInner ++ finish :: beyond ∧
      finish.kind = .finish ∧ finish.span = Stream.finishOf tokens := by
  have whole := List.takeWhile_append_dropWhile (p := Stream.isInner) (l := tokens)
  cases behind : tokens.dropWhile Stream.isInner with
  | nil =>
    have inner := List.dropWhile_eq_nil_iff.mp behind
    rw [behind, List.append_nil] at whole
    have opens : isClosed tokens = false := by
      rw [isClosed, Option.any_eq_false]
      intro token last
      simpa [Stream.isInner] using inner token (List.mem_of_getLast? last)
    refine ⟨_, [], by rw [ofTokens, opens, whole]; rfl, rfl, ?_⟩
    rw [Stream.finishOf, List.find?_eq_none.mpr fun token mem => by simp [inner token mem]]
    rfl
  | cons finish beyond =>
    rw [behind] at whole
    have outer : Stream.isInner finish = false := by
      have fails := List.head?_dropWhile_not Stream.isInner tokens
      rw [behind] at fails
      simpa using fails
    have first : tokens.find? (fun token => !Stream.isInner token) = some finish :=
      List.find?_eq_some_iff_append.mpr ⟨by simp [outer], _, beyond, whole.symm,
        fun token mem => by simp [List.mem_takeWhile_imp mem]⟩
    have last : finish.kind = .finish := by simpa [Stream.isInner] using outer
    have span : finish.span = Stream.finishOf tokens := by rw [Stream.finishOf, first]
    by_cases closed : isClosed tokens
    · exact ⟨finish, beyond, by simp only [ofTokens, closed, if_true, whole], last, span⟩
    · refine ⟨finish, beyond ++ [.finish ((tokens.getLast?.map (·.span.stop)).getD 0)], ?_,
        last, span⟩
      rw [← List.cons_append, ← List.append_assoc, whole, ofTokens, if_neg closed]

end Session

/-- The stream behind a list of requests, some of which may have failed. -/
def Parser.after (level : Level) (requests : List Request) (stream : Stream) : Stream :=
  requests.foldl (fun stream request => (runOn (request.parser level) stream).2) stream

namespace View

/-- The view is one of a session over `tokens`, from its beginning on. -/
structure Over (view : View) (tokens : List Token) (spans : Span → Span → Prop) : Prop where
  buffer : view.buffer = (Session.ofTokens tokens).buffer
  stream : Stream.ofTokens tokens = ⟨view.inner, view.finish.span, .point 0⟩
  start : view.start = 0
  spans : view.spans = spans
  short : view.inner.length ≤ tokens.length

theorem exists_over (tokens : List Token) (spans : Span → Span → Prop) :
    ∃ view : View, view.Over tokens spans := by
  obtain ⟨finish, beyond, buffer, last, span⟩ := Session.exists_buffer_eq tokens
  have inner : ∀ token ∈ tokens.takeWhile Stream.isInner, token.kind ≠ .finish := by
    intro token mem
    simpa [Stream.isInner] using List.mem_takeWhile_imp mem
  refine ⟨⟨_, finish, beyond, 0, spans, inner, last⟩, buffer.symm, ?_, rfl, rfl, ?_⟩
  · rw [Stream.ofTokens, span]
  · exact (List.takeWhile_prefix _).length_le

variable {view : View} {session : Session} {stream : Stream} {tokens : List Token} {fuel : Nat}

/-- A new session is at the same place as a stream over the same lexemes. -/
theorem Over.shows {spans : Span → Span → Prop} (onTokens : view.Over tokens spans)
    (rest : List.Forall₂ (Token.Matches spans) view.inner stream.rest)
    (finish : spans view.finish.span stream.finish) :
    view.Shows nestingLimit 0 (Session.ofTokens tokens) stream where
  buffer := onTokens.buffer.symm
  depth := Nat.zero_add _
  passed := Nat.le_of_eq onTokens.start
  inside := Nat.zero_le _
  rest := onTokens.spans ▸ rest
  finish := onTokens.spans ▸ finish
  last _ _ next := absurd next (Nat.succ_ne_zero _).symm

/-- A new session is at the same place as the stream over its own tokens. -/
theorem Over.shows_self (onTokens : view.Over tokens Eq) :
    view.Shows nestingLimit (Session.ofTokens tokens).position (Session.ofTokens tokens)
      (Stream.ofTokens tokens) := by
  rw [onTokens.stream]
  exact onTokens.shows (List.forall₂_same.mpr fun token _ => ⟨rfl, rfl⟩) rfl

/-- With the same spans on both sides faults are the same. -/
theorem fault_eq {fault other : Fault} (same : fault.Matches Eq other) : fault = other := by
  cases same with
  | blamed placed => rw [placed]
  | target starts ends => rw [starts, ends]

/-- One step of a session gives the answer of the parser, and both are at the same place again. -/
theorem step_eq (exact : view.spans = Eq) (start : view.start = 0)
    (enough : view.inner.length < fuel)
    (shows : view.Shows nestingLimit session.position session stream) (request : Request) :
    ∃ given left rest, session.step fuel request = (given.mapError .fault, left) ∧
      Parser.runOn (request.parser (.outermost nestingLimit)) stream = (given, rest) ∧
        view.Moved nestingLimit session.position left rest := by
  have fuels : view.Fuels session.position fuel := by
    unfold Fuels
    omega
  have agree := completes_request fuels request shows
  rw [Session.step, Machine.runOn, Parser.runOn, Level.outermost]
  generalize request.machine (.ofFuel fuel) session = ran,
    request.parser (.ofRoom nestingLimit nestingLimit) stream = parsed at agree
  cases agree with
  | ok moved => exact ⟨.ok _, _, _, rfl, rfl, moved⟩
  | error same moved =>
    rw [exact] at same
    obtain rfl := fault_eq same
    exact ⟨.error _, _, _, rfl, rfl, moved⟩

/-- The place of a session itself. -/
theorem Moved.shows (start : view.start = 0) {passed : Nat}
    (moved : view.Moved nestingLimit passed session stream) :
    view.Shows nestingLimit session.position session stream :=
  { moved.1 with passed := by omega }

/-- A run of steps gives the answers of the parser, and both are at the same place again. -/
theorem answers_eq (exact : view.spans = Eq) (start : view.start = 0)
    (enough : view.inner.length < fuel)
    (shows : view.Shows nestingLimit session.position session stream) (requests : List Request) :
    session.answers fuel requests =
      (Parser.answers (.outermost nestingLimit) requests stream).map (·.mapError .fault) ∧
    view.Shows nestingLimit (session.after fuel requests).position (session.after fuel requests)
      (Parser.after (.outermost nestingLimit) requests stream) := by
  induction requests generalizing session stream with
  | nil => exact ⟨rfl, shows⟩
  | cons request requests ih =>
    obtain ⟨given, left, rest, step, parsed, moved⟩ := step_eq exact start enough shows request
    obtain ⟨answers, final⟩ := ih (moved.shows start)
    refine ⟨?_, ?_⟩
    · rw [Session.answers, step, Parser.answers, parsed]
      dsimp only
      rw [answers, List.map_cons]
    · rw [Session.after, List.foldl_cons, step, Parser.after, List.foldl_cons, parsed]
      exact final

theorem finishIndex_eq (buffer : session.buffer = view.buffer) :
    session.finishIndex = view.inner.length := by
  have none : view.inner.findIdx (·.kind == .finish) = view.inner.length :=
    List.findIdx_eq_length.mpr fun token mem => beq_eq_false_iff_ne.mpr (view.isInner token mem)
  have found : (view.finish.kind == .finish) = true := beq_iff_eq.mpr view.isFinish
  rw [Session.finishIndex, buffer, View.buffer, List.findIdx_append, none,
    if_neg (Nat.lt_irrefl _), List.findIdx_cons, found]
  exact Nat.zero_add _

theorem visible_eq (buffer : session.buffer = view.buffer) :
    session.visible = view.inner ++ [view.finish] := by
  rw [Session.visible, finishIndex_eq buffer, buffer, View.buffer, List.take_length_add_append]
  rfl

/-- Whatever a step does, it leaves the session in order. -/
theorem stepsTo (exact : view.spans = Eq) (start : view.start = 0)
    (enough : view.inner.length < fuel)
    (shows : view.Shows nestingLimit session.position session stream) (request : Request) :
    session.StepsTo (session.step fuel request).1 (session.step fuel request).2 := by
  obtain ⟨given, left, rest, step, -, moved⟩ := step_eq exact start enough shows request
  have placed := moved.1
  have forward := placed.passed
  rw [step]
  change session.StepsTo _ left
  exact {
    answered := by cases given <;> exact ⟨nofun, nofun⟩
    buffer := placed.buffer.trans shows.buffer.symm
    forward := by omega
    inside := by
      rw [finishIndex_eq placed.buffer, placed.buffer]
      exact ⟨placed.inside, length_inner_lt⟩
    depth := by
      have depth := placed.depth
      omega
    advances := by
      intro token stands inner
      have before : session.position ≠ view.inner.length := by
        intro ended
        rw [shows.buffer, ended, getElem?_buffer_length] at stands
        cases stands
        exact inner view.isFinish
      have inside := shows.inside
      -- A step that leaves no token has passed this one, too.
      rcases moved.2 with empty | further
      · have left := placed.position_add_length
        rw [empty] at left
        simp only [List.length_nil] at left
        omega
      · have passed := further.passed
        omega }

/-- Every step that does not start at the end takes a token, so a run comes as far as it is long. -/
theorem position_after (exact : view.spans = Eq) (start : view.start = 0)
    (enough : view.inner.length < fuel)
    (shows : view.Shows nestingLimit session.position session stream) (requests : List Request) :
    min view.inner.length (session.position + requests.length) ≤
      (session.after fuel requests).position := by
  induction requests generalizing session stream with
  | nil => exact Nat.min_le_right _ _
  | cons request requests ih =>
    obtain ⟨_, left, rest, step, -, moved⟩ := step_eq exact start enough shows request
    have steps := stepsTo exact start enough shows request
    have further := ih (moved.shows start)
    rw [step] at steps
    rw [Session.after, List.foldl_cons, step]
    rw [Session.after] at further
    have forward : session.position ≤ left.position := steps.forward
    have advances : session.position < view.inner.length → session.position < left.position := by
      intro more
      have stands : view.buffer[session.position]? = some view.inner[session.position] :=
        getElem?_buffer_of_lt more
      rw [← shows.buffer] at stands
      exact steps.advances _ stands (view.isInner _ (List.getElem_mem more))
    simp only [List.length_cons] at further ⊢
    omega

end View

/-- Sessions are safe on every buffer, with more fuel than there are tokens. -/
theorem Session.runsSafely (tokens : List Token) (requests : List Request) {fuel : Nat}
    (enough : tokens.length < fuel) : RunsSafely tokens fuel requests := by
  obtain ⟨view, onTokens⟩ := View.exists_over tokens Eq
  have fuels := Nat.lt_of_le_of_lt onTokens.short enough
  have run (requests : List Request) :=
    View.answers_eq onTokens.spans onTokens.start fuels onTokens.shows_self requests
  exact {
    steps := fun done request _ _ =>
      View.stepsTo onTokens.spans onTokens.start fuels (run done).2 request
    answers := (run requests).1
    ends := by
      intro long
      have far :=
        View.position_after onTokens.spans onTokens.start fuels onTokens.shows_self requests
      have inside := (run requests).2.inside
      rw [View.finishIndex_eq onTokens.buffer.symm] at long ⊢
      have first : (ofTokens tokens).position = 0 := rfl
      omega
    visible := by
      intro others more same enough
      obtain ⟨other, onOthers⟩ := View.exists_over others Eq
      have fuels' := Nat.lt_of_le_of_lt onOthers.short enough
      have run' :=
        View.answers_eq onOthers.spans onOthers.start fuels' onOthers.shows_self requests
      rw [View.visible_eq onTokens.buffer.symm, View.visible_eq onOthers.buffer.symm] at same
      -- What is visible determines the stream, and the stream determines answers and places.
      obtain ⟨inner, finish⟩ := List.append_inj' same rfl
      have streams : Stream.ofTokens others = Stream.ofTokens tokens := by
        rw [onTokens.stream, onOthers.stream, inner, List.singleton_inj.mp finish]
      have left := (run requests).2.position_add_length
      have left' := run'.2.position_add_length
      rw [streams, inner] at left'
      exact ⟨by rw [run'.1, (run requests).1, streams], by omega⟩ }

/-- `x = [` and an end of the input with more tokens behind it, at no particular place. -/
def scatteredTokens : List Token :=
  [Lexeme.identifier "x", .symbol .equals, .symbol .openBracket, ⟨.finish, some "x"⟩,
    .symbol .closeBracket, .symbol .semicolon].map fun lexeme => ⟨lexeme, .point 0⟩

theorem Session.runsSafely_scattered :
    scatteredTokens.length < 7 ∧
      RunsSafely scatteredTokens 7 [.statement, .expression 3, .statement, .program] :=
  ⟨by decide, runsSafely scatteredTokens _ (by decide)⟩

end BlockScript
