import BlockScript.Proofs.Syntax.Run

/-!
# Levels, and parsers with different limits

Which levels are open between two tokens can be told from the tokens in front alone: `openLevels`
keeps a stack of what has opened them. A bracket is open up to its partner, the step of a loop up to its
`while`, and the links of a chain of conditions up to the end of the statement that they belong to.

`Parser.Widens limit origin pre narrow wide post` compares two parsers. From a stream at which `pre`
holds they do the same, and `post` holds behind it; or else the narrow one fails because a level
would be opened inside `limit` open ones (`Overflows`), counted on the tokens since `origin`. There
is one rule for each of the primitives, as for `Yields` and `Blames`.
-/

namespace BlockScript

/-! ## Open levels -/

/-- What opens a level. -/
inductive Opener
  /-- A parenthesis, a bracket or a brace. -/
  | bracket
  /-- An `elif`. -/
  | link
  /-- The `with` in front of the step of a loop. -/
  | step
  deriving DecidableEq, Repr, Inhabited

/-- What a token of this category opens. -/
def Kind.opener? : Kind → Option Opener
  | .symbol .openParen | .symbol .openBracket | .symbol .openCurly => some .bracket
  | .keyword .elif => some .link
  | .keyword .with_ => some .step
  | _ => none

/-- The levels below the links on top. -/
def belowLinks (levels : List Opener) : List Opener := levels.dropWhile (· == .link)

/-- The levels behind a token of this category, innermost first. A statement is over at its
semicolon or, as the step of a loop, at `while`, and with it its links. -/
def Kind.levelsBehind (levels : List Opener) (kind : Kind) : List Opener :=
  match kind.opener? with
  | some opener => opener :: levels
  | none =>
      match kind with
      | .symbol .closeParen | .symbol .closeBracket | .symbol .closeCurly => levels.tail
      | .keyword .while_ => (belowLinks levels).tail
      | .symbol .semicolon => belowLinks levels
      | _ => levels

/-- The levels that these tokens leave open. -/
def openLevels (tokens : List Token) : List Opener :=
  tokens.foldl (fun levels token => token.kind.levelsBehind levels) []

theorem openLevels_concat (tokens : List Token) (token : Token) :
    openLevels (tokens ++ [token]) = token.kind.levelsBehind (openLevels tokens) := by
  rw [openLevels, List.foldl_append]
  rfl

/-- Inside of `for i = a with if b { } elif c { (`. -/
example : openLevels ([Lexeme.keyword .for_, .identifier "i", .symbol .equals, .identifier "a",
    .keyword .with_, .keyword .if_, .identifier "b", .symbol .openCurly, .symbol .closeCurly,
    .keyword .elif, .identifier "c", .symbol .openCurly, .symbol .openParen].map (⟨·, .point 0⟩)) =
    [.bracket, .bracket, .link, .step] := rfl

theorem Kind.levelsBehind_of_opener? {kind : Kind} {opener : Opener} {levels : List Opener}
    (opens : kind.opener? = some opener) : kind.levelsBehind levels = opener :: levels := by
  unfold levelsBehind
  rw [opens]

/-- The token opens no level and closes none. -/
def Kind.IsPlain (kind : Kind) : Prop := ∀ levels, kind.levelsBehind levels = levels

theorem Operator.kind_isPlain (operator : Operator) : operator.kind.IsPlain := by
  cases operator <;> exact fun _ => rfl

theorem AssignOperator.isPlain_of_ofKind? {kind : Kind} {operator : AssignOperator}
    (known : ofKind? kind = some operator) : kind.IsPlain := by
  obtain ⟨symbol, equal, rfl⟩ : ∃ symbol, operator.operation? = some symbol ∧ kind = .symbol symbol := by
    have same : operator.operation?.map Kind.symbol = some kind := by
      simpa using List.find?_some known
    obtain ⟨symbol, equal, rfl⟩ := Option.map_eq_some_iff.mp same
    exact ⟨symbol, equal, rfl⟩
  cases operator <;> cases equal <;> exact fun _ => rfl

theorem Scope.keyword_isPlain (scope : Scope) : (scope.keyword : Kind).IsPlain := by
  cases scope <;> exact fun _ => rfl

/-! ## Where a stream has come to -/

variable {origin stream : Stream} {levels : List Opener} {token : Token}

/-- Since `origin` tokens have been taken that leave these levels open. -/
structure Reached (origin : Stream) (levels : List Opener) (stream : Stream) : Prop where
  rest : ∃ taken, origin.rest = taken ++ stream.rest ∧ openLevels taken = levels
  finish : stream.finish = origin.finish

/-- `token` has been taken last, and `levels` were open in front of it. -/
structure Passed (origin : Stream) (levels : List Opener) (token : Token) (stream : Stream) : Prop where
  rest : ∃ taken, origin.rest = taken ++ token :: stream.rest ∧ openLevels taken = levels
  finish : stream.finish = origin.finish

/-- A token of this category is next. -/
def ReachedAt (origin : Stream) (levels : List Opener) (kind : Kind) (stream : Stream) : Prop :=
  Reached origin levels stream ∧ stream.kind = kind

/-- At the end of a statement, its links may still be open. -/
def Ended (origin : Stream) (levels : List Opener) (stream : Stream) : Prop :=
  ∃ links, (∀ opener ∈ links, opener = .link) ∧ Reached origin (links ++ levels) stream

theorem Reached.refl (origin : Stream) : Reached origin [] origin :=
  ⟨⟨[], rfl, rfl⟩, rfl⟩

theorem Passed.reached (passed : Passed origin levels token stream) :
    Reached origin (token.kind.levelsBehind levels) stream := by
  obtain ⟨⟨taken, split, rfl⟩, finish⟩ := passed
  refine ⟨⟨taken ++ [token], ?_, openLevels_concat taken token⟩, finish⟩
  rw [split, List.append_cons]

/-- A token that opens and closes nothing leaves the levels as they were. -/
theorem Passed.reached_of_isPlain (passed : Passed origin levels token stream)
    (plain : token.kind.IsPlain) : Reached origin levels stream := by
  have behind := passed.reached
  rwa [plain] at behind

namespace Reached

theorem passed (reached : Reached origin levels stream) (front : stream.rest.head? = some token) :
    Passed origin levels token stream.tail := by
  obtain ⟨⟨taken, split, known⟩, finish⟩ := reached
  refine ⟨⟨taken, ?_, known⟩, ?_⟩
  · rw [split, Stream.rest_eq_cons front]
  · obtain ⟨rest, end_, last⟩ := stream
    cases rest <;> exact finish

/-- The end of the input is not passed, and changes no levels. -/
theorem tail (reached : Reached origin levels stream) :
    Reached origin (stream.kind.levelsBehind levels) stream.tail := by
  obtain ⟨rest, finish, last⟩ := stream
  cases rest with
  | nil => exact reached
  | cons token rest =>
    have front : (⟨token :: rest, finish, last⟩ : Stream).rest.head? = some token := rfl
    exact (reached.passed front).reached

theorem ended (reached : Reached origin levels stream) : Ended origin levels stream :=
  ⟨[], nofun, reached⟩

end Reached

namespace ReachedAt

variable {kind : Kind}

theorem tail (reached : ReachedAt origin levels kind stream) :
    Reached origin (kind.levelsBehind levels) stream.tail := by
  obtain ⟨reached, rfl⟩ := reached
  exact reached.tail

theorem tail_of_isPlain (reached : ReachedAt origin levels kind stream) (plain : kind.IsPlain) :
    Reached origin levels stream.tail := by
  have behind := reached.tail
  rwa [plain] at behind

end ReachedAt

namespace Ended

theorem of_link (ended : Ended origin (.link :: levels) stream) : Ended origin levels stream := by
  obtain ⟨links, all, reached⟩ := ended
  refine ⟨links ++ [.link], ?_, ?_⟩
  · rw [List.forall_mem_append]
    exact ⟨all, by simp⟩
  · rwa [List.append_assoc]

/-- Below the links of a statement are the levels that it stands in. -/
theorem belowLinks_append {links : List Opener} (all : ∀ opener ∈ links, opener = .link) :
    belowLinks (links ++ levels) = belowLinks levels := by
  apply List.dropWhile_append_of_pos
  simpa using all

/-- A semicolon leaves the levels that the statement stands in. -/
theorem semicolon (ended : Ended origin levels stream) (settled : belowLinks levels = levels)
    (kind : stream.kind = Symbol.semicolon) : Reached origin levels stream.tail := by
  obtain ⟨links, all, reached⟩ := ended
  have behind := reached.tail
  rw [kind] at behind
  change Reached origin (belowLinks (links ++ levels)) stream.tail at behind
  rwa [belowLinks_append all, settled] at behind

/-- The `while` behind the step of a loop closes its level. -/
theorem while_ (ended : Ended origin (.step :: levels) stream) (kind : stream.kind = Keyword.while_) :
    Reached origin levels stream.tail := by
  obtain ⟨links, all, reached⟩ := ended
  have behind := reached.tail
  rw [kind] at behind
  change Reached origin (belowLinks (links ++ .step :: levels)).tail stream.tail at behind
  rwa [belowLinks_append all] at behind

end Ended

/-- A fault at `span`, raised at the second stream, for a level that would be opened inside `limit`
levels: by a bracket that has just been taken, by the `elif` that is next, or by the `with` of a
loop, in which case the token behind it is blamed. -/
inductive Overflows (limit : Nat) (origin : Stream) : Span → Stream → Prop
  | bracket {taken : List Token} {opening : Token} {left : Stream}
      (split : origin.rest = taken ++ opening :: left.rest)
      (full : (openLevels taken).length = limit) (opens : opening.kind.opener? = some .bracket) :
      Overflows limit origin opening.span left
  | link {taken : List Token} {left : Stream} (split : origin.rest = taken ++ left.rest)
      (full : (openLevels taken).length = limit) (opens : left.kind = Keyword.elif) :
      Overflows limit origin left.span left
  | step {taken : List Token} {with_ : Token} {left : Stream}
      (split : origin.rest = taken ++ with_ :: left.rest)
      (full : (openLevels taken).length = limit) (opens : with_.kind = Keyword.with_)
      (finish : left.finish = origin.finish) : Overflows limit origin left.span left

/-! ## Parsers with different limits -/

namespace Parser

variable {α β : Type} {limit : Nat} {pre mid post : Stream → Prop}

/-- Both parsers do the same and get to where `post` holds, unless the narrow one overflows. -/
def Widens (limit : Nat) (origin : Stream) (pre : Stream → Prop) (narrow wide : Parser α)
    (post : Stream → Prop) : Prop :=
  ∀ stream, pre stream →
    (∃ span left, narrow stream = .error ⟨.tooDeep limit, span⟩ left ∧
      Overflows limit origin span left) ∨
    wide stream = narrow stream ∧
      match narrow stream with
      | .ok _ left => post left
      | .error fault _ => ∀ told, fault.cause ≠ .tooDeep told

namespace Widens

variable {narrow wide : Parser α}

theorem weaken (valid : Widens limit origin pre narrow wide mid) {stronger weaker : Stream → Prop}
    (before : ∀ stream, stronger stream → pre stream)
    (behind : ∀ stream, mid stream → weaker stream) :
    Widens limit origin stronger narrow wide weaker := by
  intro stream start
  obtain overflows | ⟨same, known⟩ := valid stream (before stream start)
  · exact .inl overflows
  · refine .inr ⟨same, ?_⟩
    cases ran : narrow stream with
    | ok value left =>
      rw [ran] at known
      exact behind left known
    | error fault left =>
      rw [ran] at known
      exact known

theorem of (valid : Widens limit origin pre narrow wide post) {stronger : Stream → Prop}
    (before : ∀ stream, stronger stream → pre stream) :
    Widens limit origin stronger narrow wide post :=
  valid.weaken before fun _ => id

theorem pure {value : α} (holds : ∀ stream, pre stream → post stream) :
    Widens limit origin pre (Pure.pure value) (Pure.pure value) post :=
  fun stream start => .inr ⟨rfl, holds stream start⟩

theorem bind {next next' : α → Parser β} (first : Widens limit origin pre narrow wide mid)
    (second : ∀ value, Widens limit origin mid (next value) (next' value) post) :
    Widens limit origin pre (narrow >>= next) (wide >>= next') post := by
  intro stream start
  rw [bind_apply, bind_apply]
  obtain ⟨span, left, ran, overflows⟩ | ⟨same, known⟩ := first stream start
  · rw [ran]
    exact .inl ⟨span, left, rfl, overflows⟩
  · rw [same]
    cases ran : narrow stream with
    | ok value left =>
      rw [ran] at known
      exact second value left known
    | error fault left =>
      rw [ran] at known
      exact .inr ⟨rfl, known⟩

/-- Parsers whose results are only wrapped compare like the parsers themselves. -/
theorem bind_pure (wrap : α → β) (valid : Widens limit origin pre narrow wide post) :
    Widens limit origin pre (do let value ← narrow; Pure.pure (wrap value))
      (do let value ← wide; Pure.pure (wrap value)) post :=
  valid.bind fun _ => pure fun _ => id

theorem map (wrap : α → β) (valid : Widens limit origin pre narrow wide post) :
    Widens limit origin pre (wrap <$> narrow) (wrap <$> wide) post := by
  rw [map_eq_pure_bind, map_eq_pure_bind]
  exact valid.bind_pure wrap

theorem fail {cause : Cause} {span : Span} (other : ∀ told, cause ≠ .tooDeep told) :
    Widens limit origin pre (fail cause span : Parser α) (Parser.fail cause span) post :=
  fun _ _ => .inr ⟨rfl, other⟩

theorem blame {cause : Found → Cause} (other : ∀ found told, cause found ≠ .tooDeep told) :
    Widens limit origin pre (blame cause : Parser α) (Parser.blame cause) post :=
  fun stream _ => .inr ⟨rfl, other stream.found⟩

theorem bind_peek {next next' : Kind → Parser β}
    (second : ∀ kind, Widens limit origin (ReachedAt origin levels kind) (next kind) (next' kind)
      post) :
    Widens limit origin (Reached origin levels) (peek >>= next) (peek >>= next') post :=
  fun stream start => second stream.kind stream ⟨start, rfl⟩

theorem bind_here {next next' : Span → Parser β}
    (second : ∀ span, Widens limit origin (fun stream => pre stream ∧ stream.span = span)
      (next span) (next' span) post) :
    Widens limit origin pre (here >>= next) (here >>= next') post :=
  fun stream start => second stream.span stream ⟨start, rfl⟩

theorem bind_remaining {next next' : Nat → Parser β}
    (second : ∀ bound, Widens limit origin pre (next bound) (next' bound) post) :
    Widens limit origin pre (remaining >>= next) (remaining >>= next') post :=
  fun stream start => second stream.rest.length stream start

theorem bind_get {next next' : Stream → Parser β}
    (second : ∀ stream, Widens limit origin (fun current => pre current ∧ current = stream)
      (next stream) (next' stream) post) :
    Widens limit origin pre (get >>= next : Parser β) (get >>= next') post :=
  fun stream start => second stream stream ⟨start, rfl⟩

theorem bind_skip {next next' : Unit → Parser β} (moves : ∀ stream, pre stream → mid stream.tail)
    (second : Widens limit origin mid (next ()) (next' ()) post) :
    Widens limit origin pre (skip >>= next) (skip >>= next') post :=
  fun stream start => second stream.tail (moves stream start)

theorem bind_skip_plain {next next' : Unit → Parser β} {kind : Kind} (plain : kind.IsPlain)
    (second : Widens limit origin (Reached origin levels) (next ()) (next' ()) post) :
    Widens limit origin (ReachedAt origin levels kind) (skip >>= next) (skip >>= next') post :=
  bind_skip (fun _ reached => reached.tail_of_isPlain plain) second

theorem bind_take? {next next' : Option Token → Parser β}
    (none : Widens limit origin (Reached origin levels) (next none) (next' none) post)
    (some : ∀ token, Widens limit origin (Passed origin levels token) (next (some token))
      (next' (some token)) post) :
    Widens limit origin (Reached origin levels) (take? >>= next) (take? >>= next') post := by
  intro stream reached
  rw [bind_apply, bind_apply, take?]
  cases front : stream.rest.head? with
  | none =>
    have ended : stream.tail = stream := by
      obtain ⟨rest, finish, last⟩ := stream
      cases List.head?_eq_none_iff.mp front
      rfl
    rw [ended]
    exact none stream reached
  | some token => exact some token stream.tail (reached.passed front)

theorem bind_accept? {next next' : Option Token → Parser β} {kind : Kind} (inner : kind ≠ .finish)
    (none : Widens limit origin (Reached origin levels) (next none) (next' none) post)
    (some : ∀ token : Token, token.kind = kind →
      Widens limit origin (Passed origin levels token) (next (some token)) (next' (some token)) post) :
    Widens limit origin (Reached origin levels) (accept? kind >>= next) (accept? kind >>= next')
      post := by
  intro stream reached
  rw [bind_apply, bind_apply, accept?]
  by_cases fits : stream.kind = kind
  · obtain ⟨token, front, same, -⟩ := Stream.exists_of_kind_ne_finish (fits ▸ inner)
    rw [if_pos fits, front]
    exact some token (same.trans fits) stream.tail (reached.passed front)
  · rw [if_neg fits]
    exact none stream reached

/-- Behind a token that opens and closes nothing the same levels are open as in front of it. -/
theorem bind_accept?_plain {next next' : Option Token → Parser β} {kind : Kind}
    (inner : kind ≠ .finish) (plain : kind.IsPlain)
    (none : Widens limit origin (Reached origin levels) (next none) (next' none) post)
    (some : ∀ token : Token, token.kind = kind →
      Widens limit origin (Reached origin levels) (next (some token)) (next' (some token)) post) :
    Widens limit origin (Reached origin levels) (accept? kind >>= next) (accept? kind >>= next')
      post := by
  refine bind_accept? inner none fun token known => (some token known).of fun stream passed => ?_
  subst known
  exact passed.reached_of_isPlain plain

/-- A token that is called for is taken from where `pre` holds to where `mid` does. -/
theorem bind_expect_of {next next' : Token → Parser β} {slot : Slot} {mid : Token → Stream → Prop}
    (moves : ∀ stream token, pre stream → stream.rest.head? = some token →
      stream.kind = slot.kind → mid token stream.tail)
    (second : ∀ token : Token, token.kind = slot.kind →
      Widens limit origin (mid token) (next token) (next' token) post) :
    Widens limit origin pre (expect slot >>= next) (expect slot >>= next') post := by
  intro stream start
  have known := moves stream
  rw [bind_apply, bind_apply]
  obtain ⟨rest, finish, last⟩ := stream
  cases rest with
  | nil => exact .inr ⟨rfl, by rintro _ ⟨⟩⟩
  | cons token rest =>
    rw [expect]
    dsimp only
    by_cases fits : token.kind = slot.kind
    · rw [if_pos fits]
      exact second token fits _ (known token start rfl fits)
    · rw [if_neg fits]
      exact .inr ⟨rfl, by rintro _ ⟨⟩⟩

/-- The token that opens a level is remembered, for it may be blamed. -/
theorem bind_expect_opening {next next' : Token → Parser β} {slot : Slot}
    (second : ∀ token : Token, token.kind = slot.kind →
      Widens limit origin (Passed origin levels token) (next token) (next' token) post) :
    Widens limit origin (Reached origin levels) (expect slot >>= next) (expect slot >>= next') post :=
  bind_expect_of (fun _ _ reached front _ => reached.passed front) second

theorem bind_expect {next next' : Token → Parser β} {slot : Slot}
    (second : ∀ token, Widens limit origin (Reached origin (slot.kind.levelsBehind levels))
      (next token) (next' token) post) :
    Widens limit origin (Reached origin levels) (expect slot >>= next) (expect slot >>= next')
      post := by
  refine bind_expect_opening fun token kind => (second token).of fun stream passed => ?_
  rw [← kind]
  exact passed.reached

end Widens

end Parser

end BlockScript
