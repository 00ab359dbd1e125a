import BlockScript.Proofs.Syntax.Grammar
import BlockScript.Proofs.Syntax.Run

/-!
# What a fault may blame

A parser runs over tokens that stay as they are while the stream moves: its ground. A fault is
explained by the ground if it blames one of its tokens for a cause that is about this very token
(`Cause.IsAbout`), or, for a bad target of an assignment, all tokens of this target together.

A parser that only blames its ground (`Blames`) leaves, if it succeeds, a stream over the same
ground. There is one rule for each of the primitives that parsers are made of, as for `Yields`; what
a parser has seen of the stream goes into the precondition of the next one.
-/

namespace BlockScript

/-! ## The ground -/

/-- The tokens in front of the end of an input, and the one at its end. -/
structure Ground where
  inner : List Token
  finish : Token
  isFinish : finish.kind = .finish

namespace Ground

variable {ground : Ground} {stream : Stream}

/-- All tokens of the input. -/
def tokens (ground : Ground) : List Token := ground.inner ++ [ground.finish]

/-- The span of the token that was taken last. -/
def lastOf (taken : List Token) : Span := (taken.getLast?.map (·.span)).getD (.point 0)

/-- The stream is what is left of the ground once some tokens are taken. -/
structure Holds (ground : Ground) (stream : Stream) : Prop where
  rest : ∃ taken, ground.inner = taken ++ stream.rest ∧ stream.last = lastOf taken
  finish : stream.finish = ground.finish.span

/-- The next token, or the one at the end. -/
def current (ground : Ground) (stream : Stream) : Token := stream.rest.head?.getD ground.finish

theorem current_kind (ground : Ground) (stream : Stream) :
    (ground.current stream).kind = stream.kind := by
  obtain ⟨rest, finish, last⟩ := stream
  cases rest with
  | nil => exact ground.isFinish
  | cons token rest => rfl

theorem current_found (ground : Ground) (stream : Stream) :
    (ground.current stream).found = stream.found := by
  obtain ⟨rest, finish, last⟩ := stream
  cases rest with
  | nil => exact if_pos ground.isFinish
  | cons token rest => rfl

namespace Holds

theorem current_span (holds : ground.Holds stream) : (ground.current stream).span = stream.span := by
  obtain ⟨rest, finish, last⟩ := stream
  cases rest with
  | nil => exact holds.finish.symm
  | cons token rest => rfl

theorem mem_of_head? (holds : ground.Holds stream) {token : Token}
    (front : stream.rest.head? = some token) : token ∈ ground.tokens := by
  obtain ⟨taken, split, -⟩ := holds.rest
  have mem : token ∈ ground.inner := by
    rw [split]
    exact List.mem_append_right _ (List.mem_of_head? front)
  exact List.mem_append_left _ mem

theorem current_mem (holds : ground.Holds stream) : ground.current stream ∈ ground.tokens := by
  rw [current]
  cases front : stream.rest.head? with
  | none => exact List.mem_append_right _ (List.mem_singleton.mpr rfl)
  | some token => exact holds.mem_of_head? front

theorem tail (holds : ground.Holds stream) : ground.Holds stream.tail := by
  obtain ⟨rest, finish, last⟩ := stream
  obtain ⟨⟨taken, split, same⟩, ends⟩ := holds
  cases rest with
  | nil => exact ⟨⟨taken, split, same⟩, ends⟩
  | cons token rest =>
    refine ⟨⟨taken ++ [token], ?_, ?_⟩, ends⟩
    · rw [split, List.append_cons]
      rfl
    · rw [lastOf, List.getLast?_concat]
      rfl

/-- Lexemes that have been taken from a stream are those of tokens at its front. -/
theorem exists_taken {left : Stream} {words : List Lexeme} (before : ground.Holds stream)
    (after : ground.Holds left) (lexemes : stream.lexemes = words ++ left.lexemes) :
    ∃ tokens, stream.rest = tokens ++ left.rest ∧ tokens.map Token.toLexeme = words := by
  obtain ⟨tokens, others, rest, rfl, same⟩ := List.map_eq_append_iff.mp lexemes
  obtain ⟨taken, split, -⟩ := before.rest
  obtain ⟨passed, split', -⟩ := after.rest
  -- Both streams are ends of the same tokens, and the ends are equally long.
  have length : others.length = left.rest.length := by
    have sizes := congrArg List.length same
    rwa [List.length_map, Stream.length_lexemes] at sizes
  have joined : (taken ++ tokens) ++ others = passed ++ left.rest := by
    rw [List.append_assoc, ← rest, ← split, split']
  obtain ⟨-, rfl⟩ := List.append_inj' joined length
  exact ⟨tokens, rest, rfl⟩

end Holds

/-- Every stream is what is left of some ground. -/
theorem exists_holds (stream : Stream) : ∃ ground : Ground, ground.Holds stream :=
  ⟨⟨⟨⟨.finish, none⟩, stream.last⟩ :: stream.rest, ⟨⟨.finish, none⟩, stream.finish⟩, rfl⟩,
    ⟨[⟨⟨.finish, none⟩, stream.last⟩], rfl, rfl⟩, rfl⟩

end Ground

/-! ## Explanations -/

theorem Slot.kind_ne_finish (slot : Slot) : slot.kind ≠ .finish := by
  cases slot <;> exact Kind.noConfusion

/-- What a cause says of the token that is blamed for it. -/
def Cause.IsAbout : Cause → Token → Prop
  | .expected slot found, token => found = token.found ∧ token.kind ≠ slot.kind
  | .expectedAssignment found, token => found = token.found
  | .unexpected found, token => found = token.found
  | .boundNotNumber _ found, token => found = token.found ∧ token.kind ≠ .number
  | .declaredNoName, token => ∃ scope : Scope, token.kind = scope.keyword
  | .localWithValue, token => ∃ scope : Scope, token.kind = scope.keyword ∧ ¬ scope.needsValue
  | .missingValue scope, token => token.kind = scope.keyword ∧ scope.needsValue
  | .numberTooLarge, token => token.kind = .number
  | .numberUnreadable _, token =>
      token.kind = .number ∧ Binary64.ofText? token.content.toList = none
  | .tooDeep limit, _ => limit = nestingLimit
  | .pending text, token => token.kind.isPending ∧ text = token.content
  | _, _ => False

/-- The fault blames tokens of the ground, and says what is so. -/
inductive Ground.Explains (ground : Ground) : Fault → Prop
  | token {cause : Cause} {token : Token} (mem : token ∈ ground.tokens)
      (about : cause.IsAbout token) : Explains ground ⟨cause, token.span⟩
  /-- A value that is no place stands in front of an assignment operator. -/
  | target {before target after : List Token} {first last : Token} {room : Nat} {expr : Expr}
      (split : ground.inner = before ++ (target ++ after)) (starts : target.head? = some first)
      (ends : target.getLast? = some last)
      (derived : Derives room (.value expr) (target.map Token.toLexeme)) (place : ¬ expr.isPlace) :
      Explains ground ⟨.notAssignable, first.span.merge last.span⟩

/-! ## Parsers that blame their ground -/

namespace Parser

variable {α β : Type} {ground : Ground} {pre : Stream → Prop}

/-- From a stream over the ground at which `pre` holds, the parser goes on over this ground or fails
with a fault that it explains. -/
def Blames (ground : Ground) (pre : Stream → Prop) (parser : Parser α) : Prop :=
  ∀ stream, ground.Holds stream → pre stream →
    match parser stream with
    | .ok _ left => ground.Holds left
    | .error fault _ => ground.Explains fault

namespace Blames

theorem weaken {parser : Parser α} (valid : Blames ground pre parser)
    {stronger : Stream → Prop} (implies : ∀ stream, stronger stream → pre stream) :
    Blames ground stronger parser :=
  fun stream holds start => valid stream holds (implies stream start)

theorem anywhere {parser : Parser α} (valid : Blames ground Always parser) :
    Blames ground pre parser :=
  valid.weaken fun _ _ => trivial

theorem pure (value : α) : Blames ground pre (Pure.pure value) := by
  intro stream holds start
  exact holds

/-- What the first parser has done can be used for the second one. -/
theorem bind_of_ok {parser : Parser α} {next : α → Parser β} (first : Blames ground pre parser)
    (second : ∀ stream value left, ground.Holds stream → pre stream →
      parser stream = .ok value left → Blames ground (· = left) (next value)) :
    Blames ground pre (parser >>= next) := by
  intro stream holds start
  have began := first stream holds start
  rw [bind_apply]
  cases ran : parser stream with
  | ok value left =>
    rw [ran] at began
    exact second stream value left holds start ran left began rfl
  | error fault left =>
    rw [ran] at began
    exact began

theorem bind {parser : Parser α} {next : α → Parser β} (first : Blames ground pre parser)
    (second : ∀ value, Blames ground Always (next value)) : Blames ground pre (parser >>= next) := by
  apply first.bind_of_ok
  intro _ value _ _ _ _
  exact (second value).anywhere

/-- A parser whose result is only wrapped blames what it blames unwrapped. -/
theorem bind_pure {parser : Parser α} (wrap : α → β) (valid : Blames ground pre parser) :
    Blames ground pre (do let value ← parser; Pure.pure (wrap value)) :=
  valid.bind fun _ => pure _

theorem fail {cause : Cause} {token : Token} (mem : token ∈ ground.tokens)
    (about : cause.IsAbout token) : Blames ground pre (fail cause token.span : Parser α) := by
  intro stream holds start
  exact .token mem about

theorem blame {cause : Found → Cause}
    (about : ∀ stream, pre stream → (cause stream.found).IsAbout (ground.current stream)) :
    Blames ground pre (blame cause : Parser α) := by
  intro stream holds start
  show ground.Explains ⟨cause stream.found, stream.span⟩
  rw [← holds.current_span]
  exact .token holds.current_mem (about stream start)

theorem bind_peek {next : Kind → Parser β}
    (second : ∀ kind, Blames ground (fun stream => pre stream ∧ stream.kind = kind) (next kind)) :
    Blames ground pre (peek >>= next) :=
  fun stream holds start => second stream.kind stream holds ⟨start, rfl⟩

/-- The place of a token is remembered together with the token. -/
theorem bind_here {next : Span → Parser β}
    (second : ∀ token ∈ ground.tokens, ∀ stream, pre stream → ground.current stream = token →
      Blames ground (· = stream) (next token.span)) :
    Blames ground pre (here >>= next) := by
  intro stream holds start
  have after := second _ holds.current_mem stream start rfl stream holds rfl
  rw [holds.current_span] at after
  exact after

theorem bind_remaining {next : Nat → Parser β} (second : ∀ bound, Blames ground pre (next bound)) :
    Blames ground pre (remaining >>= next) :=
  fun stream holds start => second stream.rest.length stream holds start

theorem bind_get {next : Stream → Parser β}
    (second : ∀ stream, pre stream → Blames ground (· = stream) (next stream)) :
    Blames ground pre (get >>= next : Parser β) :=
  fun stream holds start => second stream start stream holds rfl

theorem bind_skip {next : Unit → Parser β} (second : Blames ground Always (next ())) :
    Blames ground pre (skip >>= next) :=
  fun stream holds _ => second stream.tail holds.tail trivial

theorem bind_take? {next : Option Token → Parser β} (none : Blames ground pre (next none))
    (some : ∀ token ∈ ground.tokens, Blames ground Always (next (some token))) :
    Blames ground pre (take? >>= next) := by
  intro stream holds start
  rw [bind_apply, take?]
  cases front : stream.rest.head? with
  | none =>
    have ended : stream.tail = stream := by
      obtain ⟨rest, finish, last⟩ := stream
      cases List.head?_eq_none_iff.mp front
      rfl
    rw [ended]
    exact none stream holds start
  | some token =>
    exact some token (holds.mem_of_head? front) stream.tail holds.tail trivial

theorem bind_accept? {next : Option Token → Parser β} {kind : Kind} (inner : kind ≠ .finish)
    (none : Blames ground (fun stream => pre stream ∧ stream.kind ≠ kind) (next none))
    (some : ∀ token ∈ ground.tokens, token.kind = kind → Blames ground Always (next (some token))) :
    Blames ground pre (accept? kind >>= next) := by
  intro stream holds start
  rw [bind_apply, accept?]
  by_cases fits : stream.kind = kind
  · obtain ⟨token, front, same, -⟩ := Stream.exists_of_kind_ne_finish (fits ▸ inner)
    rw [if_pos fits, front]
    exact some token (holds.mem_of_head? front) (same.trans fits) stream.tail holds.tail trivial
  · rw [if_neg fits]
    exact none stream holds ⟨start, fits⟩

theorem bind_expect {next : Token → Parser β} {slot : Slot}
    (second : ∀ token ∈ ground.tokens, token.kind = slot.kind → Blames ground Always (next token)) :
    Blames ground pre (expect slot >>= next) := by
  intro stream holds start
  have known := holds.current_mem
  have tail := holds.tail
  obtain ⟨rest, finish, last⟩ := stream
  cases rest with
  | nil =>
    -- At the end of the input the token at the end is blamed, which fits nowhere.
    have about : (Cause.expected slot .finish).IsAbout ground.finish := by
      constructor
      · exact (if_pos ground.isFinish).symm
      · rw [ground.isFinish]
        exact slot.kind_ne_finish.symm
    have explained := Ground.Explains.token known about
    rw [holds.current_span] at explained
    exact explained
  | cons token rest =>
    rw [bind_apply, expect]
    dsimp only
    by_cases fits : token.kind = slot.kind
    · rw [if_pos fits]
      exact second token known fits _ tail trivial
    · rw [if_neg fits]
      exact .token known ⟨rfl, fits⟩

end Blames

end Parser

end BlockScript
