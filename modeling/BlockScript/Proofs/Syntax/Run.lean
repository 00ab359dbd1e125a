import BlockScript.Parser.Program

/-!
# Rules for runs of parsers

Two statements about a parser leave the stream out and speak of lexemes only.

* `parser.Takes words value after`: on a stream of `words` and `after`, the parser succeeds with
  `value` and leaves `after`.
* `parser.Yields pre post`: whenever the parser succeeds on a stream at which `pre` holds, it
  has taken lexemes off the front for which `post` holds together with the value.

For each of them there is one rule for every primitive that a parser can start with, so that the
parsers of the language never have to be unfolded down to the stream.
-/

namespace BlockScript

/-- The lexemes of the tokens that are still to be parsed. -/
def Stream.lexemes (stream : Stream) : List Lexeme := stream.rest.map Token.toLexeme

/-- The category of the first lexeme, or the end of the input. -/
def firstKind : List Lexeme → Kind
  | [] => .finish
  | word :: _ => word.kind

@[simp] theorem firstKind_nil : firstKind [] = .finish := rfl

@[simp] theorem firstKind_cons (word : Lexeme) (words : List Lexeme) :
    firstKind (word :: words) = word.kind := rfl

namespace Stream

theorem kind_eq_firstKind (stream : Stream) : stream.kind = firstKind stream.lexemes := by
  obtain ⟨rest, _, _⟩ := stream
  cases rest <;> rfl

theorem length_lexemes (stream : Stream) : stream.lexemes.length = stream.rest.length := by
  rw [lexemes, List.length_map]

theorem kind_of_lexemes_eq_cons {stream : Stream} {word : Lexeme} {words : List Lexeme}
    (equal : stream.lexemes = word :: words) : stream.kind = word.kind := by
  rw [kind_eq_firstKind, equal, firstKind_cons]

/-- The first lexeme belongs to a token, which is the one that is taken. -/
theorem exists_of_lexemes_eq_cons {stream : Stream} {word : Lexeme} {words : List Lexeme}
    (equal : stream.lexemes = word :: words) :
    ∃ token, stream.rest.head? = some token ∧ token.toLexeme = word ∧ stream.kind = word.kind ∧
      stream.tail.lexemes = words := by
  obtain ⟨rest, finish, last⟩ := stream
  cases rest with
  | nil => contradiction
  | cons token rest =>
    obtain ⟨rfl, rfl⟩ := List.cons.inj equal
    exact ⟨token, rfl, rfl, rfl, rfl⟩

/-- A stream that is not at its end starts with a token of the category that it shows. -/
theorem exists_of_kind_ne_finish {stream : Stream} (inner : stream.kind ≠ .finish) :
    ∃ token, stream.rest.head? = some token ∧ token.kind = stream.kind ∧
      stream.lexemes = token.toLexeme :: stream.tail.lexemes := by
  obtain ⟨rest, finish, last⟩ := stream
  cases rest with
  | nil => contradiction
  | cons token rest => exact ⟨token, rfl, rfl, rfl⟩

theorem rest_eq_cons {stream : Stream} {token : Token} (front : stream.rest.head? = some token) :
    stream.rest = token :: stream.tail.rest := by
  obtain ⟨rest, finish, last⟩ := stream
  cases rest with
  | nil => contradiction
  | cons first rest =>
    cases front
    rfl

end Stream

namespace Parser

variable {α β : Type}

theorem bind_apply (parser : Parser α) (next : α → Parser β) (stream : Stream) :
    (parser >>= next) stream =
      match parser stream with
      | .ok value left => next value left
      | .error fault left => .error fault left := by
  change EStateM.bind parser next stream = _
  rw [EStateM.bind]
  cases parser stream <;> rfl

theorem bind_eq_ok {parser : Parser α} {next : α → Parser β} {stream left : Stream} {result : β}
    (ran : (parser >>= next) stream = .ok result left) :
    ∃ value between, parser stream = .ok value between ∧ next value between = .ok result left := by
  rw [bind_apply] at ran
  split at ran
  · rename_i value between began
    exact ⟨value, between, began, ran⟩
  · contradiction

theorem expect_eq_ok {slot : Slot} {stream left : Stream} {token : Token}
    (ran : expect slot stream = .ok token left) :
    token.kind = slot.kind ∧ stream.lexemes = token.toLexeme :: left.lexemes := by
  obtain ⟨rest, finish, last⟩ := stream
  cases rest with
  | nil => contradiction
  | cons first rest =>
    rw [expect] at ran
    dsimp only at ran
    split at ran
    · cases ran
      exact ⟨‹_›, rfl⟩
    · contradiction

/-- On a stream of `words` and `after`, the parser succeeds with `value` and leaves `after`. -/
def Takes (parser : Parser α) (words : List Lexeme) (value : α) (after : List Lexeme) : Prop :=
  ∀ stream : Stream, stream.lexemes = words ++ after →
    ∃ left : Stream, parser stream = .ok value left ∧ left.lexemes = after

namespace Takes

variable {parser : Parser α} {value : α} {result : β} {words more after : List Lexeme}
  {word : Lexeme}

theorem pure (value : α) (after : List Lexeme) : (Pure.pure value : Parser α).Takes [] value after :=
  fun stream equal => ⟨stream, rfl, equal⟩

theorem bind {next : α → Parser β} (first : parser.Takes words value (more ++ after))
    (second : (next value).Takes more result after) :
    (parser >>= next).Takes (words ++ more) result after := by
  intro stream equal
  rw [List.append_assoc] at equal
  obtain ⟨middle, ran, rest⟩ := first stream equal
  obtain ⟨left, ended, final⟩ := second middle rest
  refine ⟨left, ?_, final⟩
  rw [bind_apply, ran]
  exact ended

theorem bind_cons {next : α → Parser β} (first : parser.Takes [word] value (words ++ after))
    (second : (next value).Takes words result after) :
    (parser >>= next).Takes (word :: words) result after :=
  bind first second

theorem bind_nil {next : α → Parser β} (first : parser.Takes words value after)
    (second : (next value).Takes [] result after) : (parser >>= next).Takes words result after := by
  have both := bind first second
  rwa [List.append_nil] at both

/-- A parser whose result is only wrapped takes what it takes unwrapped. -/
theorem bind_pure (wrap : α → β) (first : parser.Takes words value after) :
    (do let value ← parser; Pure.pure (wrap value)).Takes words (wrap value) after :=
  bind_nil first (pure (wrap value) after)

theorem bind_peek {next : Kind → Parser β}
    (second : (next (firstKind (words ++ after))).Takes words result after) :
    (peek >>= next).Takes words result after := by
  intro stream equal
  obtain ⟨left, ended, final⟩ := second stream equal
  refine ⟨left, ?_, final⟩
  rw [← equal, ← stream.kind_eq_firstKind] at ended
  exact ended

theorem bind_peek_eq {next : Kind → Parser β} {kind : Kind} (shown : firstKind (words ++ after) = kind)
    (second : (next kind).Takes words result after) : (peek >>= next).Takes words result after :=
  bind_peek (shown ▸ second)

theorem bind_here {next : Span → Parser β} (second : ∀ span, (next span).Takes words result after) :
    (here >>= next).Takes words result after :=
  fun stream equal => second stream.span stream equal

theorem bind_remaining {next : Nat → Parser β}
    (second : (next (words ++ after).length).Takes words result after) :
    (remaining >>= next).Takes words result after := by
  intro stream equal
  obtain ⟨left, ended, final⟩ := second stream equal
  refine ⟨left, ?_, final⟩
  rw [← equal, stream.length_lexemes] at ended
  exact ended

theorem bind_get {next : Stream → Parser β}
    (second : ∀ stream : Stream, stream.lexemes = words ++ after →
      (next stream).Takes words result after) :
    (get >>= next : Parser β).Takes words result after :=
  fun stream equal => second stream equal stream equal

theorem bind_skip {next : Unit → Parser β} (second : (next ()).Takes words result after) :
    (skip >>= next).Takes (word :: words) result after := by
  intro stream equal
  obtain ⟨_, -, -, -, rest⟩ := Stream.exists_of_lexemes_eq_cons equal
  exact second stream.tail rest

theorem bind_take? {next : Option Token → Parser β}
    (second : ∀ token : Token, token.toLexeme = word → (next (some token)).Takes words result after) :
    (take? >>= next).Takes (word :: words) result after := by
  intro stream equal
  obtain ⟨token, front, same, -, rest⟩ := Stream.exists_of_lexemes_eq_cons equal
  obtain ⟨left, ended, final⟩ := second token same stream.tail rest
  refine ⟨left, ?_, final⟩
  rw [bind_apply, take?, front]
  exact ended

theorem bind_accept? {next : Option Token → Parser β} {kind : Kind} (fits : word.kind = kind)
    (second : ∀ token : Token, token.toLexeme = word → (next (some token)).Takes words result after) :
    (accept? kind >>= next).Takes (word :: words) result after := by
  intro stream equal
  obtain ⟨token, front, same, shown, rest⟩ := Stream.exists_of_lexemes_eq_cons equal
  obtain ⟨left, ended, final⟩ := second token same stream.tail rest
  refine ⟨left, ?_, final⟩
  rw [bind_apply, accept?, if_pos (shown.trans fits), front]
  exact ended

theorem bind_accept?_none {next : Option Token → Parser β} {kind : Kind}
    (differs : firstKind (words ++ after) ≠ kind)
    (second : (next none).Takes words result after) :
    (accept? kind >>= next).Takes words result after := by
  intro stream equal
  obtain ⟨left, ended, final⟩ := second stream equal
  refine ⟨left, ?_, final⟩
  rw [bind_apply, accept?, if_neg (by rwa [stream.kind_eq_firstKind, equal])]
  exact ended

theorem bind_expect {next : Token → Parser β} {slot : Slot} (fits : word.kind = slot.kind)
    (second : ∀ token : Token, token.toLexeme = word → (next token).Takes words result after) :
    (expect slot >>= next).Takes (word :: words) result after := by
  intro stream equal
  obtain ⟨rest, finish, last⟩ := stream
  cases rest with
  | nil => contradiction
  | cons token rest =>
    obtain ⟨same, behind⟩ := List.cons.inj equal
    obtain ⟨left, ended, final⟩ := second token same ⟨rest, finish, token.span⟩ behind
    refine ⟨left, ?_, final⟩
    have kind : token.kind = slot.kind := by rw [← fits, ← same]
    rw [bind_apply, expect]
    simp only [kind, if_true]
    exact ended

end Takes

/-- Whenever the parser succeeds on a stream at which `pre` holds, it has taken lexemes for which
`post` holds together with the value. -/
def Yields (pre : Stream → Prop) (parser : Parser α) (post : List Lexeme → α → Prop) : Prop :=
  ∀ ⦃stream value left⦄, pre stream → parser stream = .ok value left →
    ∃ words, stream.lexemes = words ++ left.lexemes ∧ post words value

/-- `Yields` on every stream. -/
abbrev Always : Stream → Prop := fun _ => True

namespace Yields

variable {pre : Stream → Prop} {parser : Parser α} {middle : List Lexeme → α → Prop}
  {post : List Lexeme → β → Prop}

theorem pure {value : β} (holds : post [] value) : Yields pre (Pure.pure value) post := by
  rintro stream _ _ - ⟨⟩
  exact ⟨[], rfl, holds⟩

/-- What is known of the stream behind the first parser can be used for the second one. -/
theorem bind_of_ok {next : α → Parser β} {behind : α → Stream → Prop}
    (first : Yields pre parser middle)
    (ends : ∀ ⦃stream value left⦄, parser stream = .ok value left → behind value left)
    (second : ∀ value words, middle words value →
      Yields (behind value) (next value) fun more result => post (words ++ more) result) :
    Yields pre (parser >>= next) post := by
  intro stream result left holds ran
  obtain ⟨value, between, began, ran⟩ := bind_eq_ok ran
  obtain ⟨words, front, known⟩ := first holds began
  obtain ⟨more, back, final⟩ := second value words known (ends began) ran
  refine ⟨words ++ more, ?_, final⟩
  rw [front, back, List.append_assoc]

theorem bind {next : α → Parser β} (first : Yields pre parser middle)
    (second : ∀ value words, middle words value →
      Yields Always (next value) fun more result => post (words ++ more) result) :
    Yields pre (parser >>= next) post :=
  bind_of_ok first (fun _ _ _ _ => trivial) second

theorem weaken {stronger : Stream → Prop} {weaker : List Lexeme → α → Prop}
    (valid : Yields pre parser middle) (before : ∀ stream, stronger stream → pre stream)
    (implies : ∀ words value, middle words value → weaker words value) :
    Yields stronger parser weaker := by
  intro stream value left holds ran
  obtain ⟨words, front, known⟩ := valid (before stream holds) ran
  exact ⟨words, front, implies words value known⟩

theorem fail {cause : Cause} {span : Span} : Yields pre (fail cause span) post := by
  rintro _ _ _ - ⟨⟩

theorem blame {cause : Found → Cause} : Yields pre (blame cause) post := by
  rintro _ _ _ - ⟨⟩

theorem bind_peek {next : Kind → Parser β}
    (second : ∀ kind, Yields (fun stream => pre stream ∧ stream.kind = kind) (next kind) post) :
    Yields pre (peek >>= next) post :=
  fun stream _ _ holds ran => second stream.kind ⟨holds, rfl⟩ ran

theorem bind_here {next : Span → Parser β} (second : ∀ span, Yields pre (next span) post) :
    Yields pre (here >>= next) post :=
  fun stream _ _ holds ran => second stream.span holds ran

theorem bind_remaining {next : Nat → Parser β}
    (second : ∀ bound, Yields (fun stream => pre stream ∧ stream.lexemes.length = bound)
      (next bound) post) :
    Yields pre (remaining >>= next) post :=
  fun stream _ _ holds ran => second stream.rest.length ⟨holds, stream.length_lexemes⟩ ran

theorem bind_get {next : Stream → Parser β}
    (second : ∀ stream, pre stream → Yields (· = stream) (next stream) post) :
    Yields pre (get >>= next : Parser β) post :=
  fun stream _ _ holds ran => second stream holds rfl ran

/-- A token that is known to be there is passed over. -/
theorem bind_skip {next : Unit → Parser β}
    (inner : ∀ stream, pre stream → stream.kind ≠ .finish)
    (second : ∀ stream word, pre stream → stream.lexemes = word :: stream.tail.lexemes →
      Yields (· = stream.tail) (next ()) fun words result => post (word :: words) result) :
    Yields pre (skip >>= next) post := by
  intro stream result left holds ran
  obtain ⟨token, -, -, split⟩ := Stream.exists_of_kind_ne_finish (inner stream holds)
  obtain ⟨words, back, final⟩ := second stream token.toLexeme holds split rfl ran
  refine ⟨token.toLexeme :: words, ?_, final⟩
  rw [split, back, List.cons_append]

theorem bind_take? {next : Option Token → Parser β}
    (none : Yields pre (next none) post)
    (some : ∀ token : Token,
      Yields Always (next (some token)) fun words result => post (token.toLexeme :: words) result) :
    Yields pre (take? >>= next) post := by
  intro stream result left holds ran
  obtain ⟨rest, finish, last⟩ := stream
  cases rest with
  | nil => exact none holds ran
  | cons token rest =>
    obtain ⟨words, back, final⟩ := some token trivial ran
    refine ⟨token.toLexeme :: words, ?_, final⟩
    exact congrArg (token.toLexeme :: ·) back

theorem bind_accept? {next : Option Token → Parser β} {kind : Kind} (inner : kind ≠ .finish)
    (none : Yields (fun stream => pre stream ∧ stream.kind ≠ kind) (next none) post)
    (some : ∀ token : Token, token.kind = kind →
      Yields Always (next (some token)) fun words result => post (token.toLexeme :: words) result) :
    Yields pre (accept? kind >>= next) post := by
  intro stream result left holds ran
  by_cases fits : stream.kind = kind
  · obtain ⟨token, front, same, split⟩ := Stream.exists_of_kind_ne_finish (fits ▸ inner)
    rw [bind_apply, accept?, if_pos fits, front] at ran
    obtain ⟨words, back, final⟩ := some token (same.trans fits) trivial ran
    refine ⟨token.toLexeme :: words, ?_, final⟩
    rw [split, back, List.cons_append]
  · rw [bind_apply, accept?, if_neg fits] at ran
    exact none ⟨holds, fits⟩ ran

theorem bind_expect {next : Token → Parser β} {slot : Slot}
    (second : ∀ token : Token, token.kind = slot.kind →
      Yields Always (next token) fun words result => post (token.toLexeme :: words) result) :
    Yields pre (expect slot >>= next) post := by
  intro stream result left holds ran
  obtain ⟨token, between, began, ran⟩ := bind_eq_ok ran
  obtain ⟨fits, split⟩ := expect_eq_ok began
  obtain ⟨words, back, final⟩ := second token fits trivial ran
  refine ⟨token.toLexeme :: words, ?_, final⟩
  rw [split, back, List.cons_append]

theorem bind_expect_other {next : Token → Parser β} {slot : Slot}
    (other : ∀ stream, pre stream → stream.kind ≠ slot.kind) :
    Yields pre (expect slot >>= next) post := by
  intro stream result left holds ran
  obtain ⟨token, between, began, -⟩ := bind_eq_ok ran
  obtain ⟨fits, split⟩ := expect_eq_ok began
  exact absurd ((Stream.kind_of_lexemes_eq_cons split).trans fits) (other stream holds)

end Yields

end Parser

end BlockScript
