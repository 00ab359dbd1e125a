import BlockScript.Proofs.Lexical.Concatenation
import BlockScript.Proofs.Source.Layout
import BlockScript.Proofs.Syntax.Recognition

/-!
# Programs can be put one behind the other

A source that is a program can be put in front of any other source. What stands behind it is lexed
and parsed as if it stood alone: to the statements that it has alone, or to the fault that it has
alone, further into the text (`parse_append`).

The parser takes the statements of the first program and is then in front of the second one
(`Parser.statementsUpTo_append`). From there on it does what it does on the second one alone, as the
same machine mirrors both.
-/

namespace BlockScript

/-- Statements end with a semicolon. -/
theorem Derives.getLast?_statements {room : Nat} {body : Block} {words : List Lexeme}
    (derived : Derives room (.statements body) words) :
    ∀ word ∈ words.getLast?, word.kind = Symbol.semicolon := by
  induction body generalizing words with
  | nil =>
    cases derived
    rintro word ⟨⟩
  | cons statement body ih =>
    cases derived with
    | @moreStatements _ _ _ front back semicolon _ kind others =>
      intro word last
      rw [List.getLast?_append_of_ne_nil _ (List.cons_ne_nil _ _), List.getLast?_cons] at last
      cases behind : back.getLast? with
      | none =>
        rw [behind] at last
        cases last
        exact kind
      | some other =>
        rw [behind] at last
        cases last
        exact ih others other behind

namespace Parser

variable {item : Parser Statement} {stops : Kind → Bool} {room : Nat}

/-- An item and the semicolon behind it. -/
def ended (item : Parser Statement) : Parser Statement := do
  let first ← item
  let _ ← expect .afterStatement
  pure first

theorem statementsUpTo_succ (bound : Nat) (stream : Stream) :
    statementsUpTo item stops (bound + 1) stream =
      if stops stream.kind then .ok [] stream
      else (ended item >>= fun first =>
        statementsUpTo item stops bound >>= fun others => pure (first :: others)) stream := by
  rw [statementsUpTo, ended, bind_assoc, bind_apply, peek]
  dsimp only
  split
  · rfl
  · simp only [bind_assoc, pure_bind]

theorem runOn_bind_pure {α β : Type} (parser : Parser α) (wrap : α → β) (stream : Stream) :
    (runOn (parser >>= fun value => pure (wrap value)) stream).1 =
      (runOn parser stream).1.map wrap := by
  rw [runOn, runOn, bind_apply]
  cases parser stream <;> rfl

/-- Statements that are derived are taken, and then the parser is in front of what is behind them.
What is known of a stream and kept by each statement is known there as well. -/
theorem statementsUpTo_append (complete : TakesStatements room item)
    (goesOn : ∀ kind : Kind, kind.opensValue ∨ kind.isKeyword → stops kind = false)
    {known : Stream → Prop} (keeps : ∀ ⦃stream value left⦄, known stream →
      ended item stream = .ok value left → known left)
    {body : Block} {words after : List Lexeme} (derived : Derives room (.statements body) words)
    {stream : Stream} (split : stream.lexemes = words ++ after) (holds : known stream) {bound : Nat}
    (enough : (words ++ after).length ≤ bound) :
    ∃ left more, known left ∧ left.lexemes = after ∧ after.length ≤ more ∧
      (runOn (statementsUpTo item stops bound) stream).1 =
        (runOn (statementsUpTo item stops more) left).1.map (body ++ ·) := by
  -- Along the statements of the derivation; each of them takes one round of the loop.
  induction body generalizing words stream bound with
  | nil =>
    cases derived
    refine ⟨stream, bound, holds, split, enough, ?_⟩
    cases (runOn (statementsUpTo item stops bound) stream).1 <;> rfl
  | cons statement body ih =>
    cases derived with
    | @moreStatements _ _ _ front back semicolon first kind others =>
      rw [List.append_assoc, List.cons_append] at split
      have starts : stops stream.kind = false := by
        rw [stream.kind_eq_firstKind, split]
        exact goesOn _ (first.opens_statement _)
      have taken : (ended item).Takes (front ++ [semicolon]) statement (back ++ after) :=
        .bind (complete first (show firstKind ([semicolon] ++ (back ++ after)) = _ from kind))
          (.bind_expect kind fun _ _ => .pure _ _)
      obtain ⟨middle, ran, rest⟩ := taken stream (by rw [split, List.append_assoc]; rfl)
      simp only [List.length_append, List.length_cons] at enough
      obtain ⟨bound, rfl⟩ := Nat.exists_eq_add_one_of_ne_zero (show bound ≠ 0 by omega)
      have fewer : (back ++ after).length ≤ bound := by
        rw [List.length_append]
        omega
      obtain ⟨left, more, knownLeft, behind, still, same⟩ :=
        ih others rest (keeps holds ran) fewer
      refine ⟨left, more, knownLeft, behind, still, ?_⟩
      have step : (runOn (statementsUpTo item stops (bound + 1)) stream).1 =
          (runOn (statementsUpTo item stops bound) middle).1.map (statement :: ·) := by
        rw [← runOn_bind_pure, runOn, runOn, statementsUpTo_succ, starts, if_neg Bool.false_ne_true,
          bind_apply, ran]
      rw [step, same]
      cases (runOn (statementsUpTo item stops more) left).1 <;> rfl

end Parser

/-! ## The second program -/

namespace View

variable {view : View} {room passed fuel : Nat} {session : Session} {stream : Stream}

/-- With the same spans on both sides the tokens that are left are the same. -/
theorem Shows.rest_eq (shows : view.Shows room passed session stream) (exact : view.spans = Eq) :
    view.inner.drop session.position = stream.rest := by
  have tokens := shows.rest
  rw [exact] at tokens
  have equal := tokens.imp fun (left right : Token) same =>
    show left = right from by
      obtain ⟨lexeme, span⟩ := left
      obtain ⟨lexeme', span'⟩ := right
      cases same.lexeme
      cases same.placed
      rfl
  rwa [List.forall₂_eq_eq_eq] at equal

/-- A statement and its semicolon leave the stream at a place of some session. -/
theorem shows_of_ended (fuels : view.Fuels 0 fuel) {value : Statement} {left : Stream}
    (shows : view.Shows room passed session stream)
    (ran : Parser.ended (Level.ofRoom nestingLimit room).statement stream = .ok value left) :
    ∃ after, view.Shows room passed after left := by
  have mirror := Machine.Calls.mirror_ofFuel (fuels.mono (Nat.zero_le (passed + 1)))
  have opens : view.Opens room passed (Machine.statement (.ofFuel fuel))
      (Level.ofRoom nestingLimit room).statement := by
    rw [Level.ofRoom_eq]
    exact Mirrors.statement mirror
  have ended : view.Opens room passed
      (do
        let first ← Machine.statement (.ofFuel fuel)
        let _ ← Machine.expect .afterStatement
        pure first)
      (Parser.ended (Level.ofRoom nestingLimit room).statement) :=
    opens.bind fun first => .bind_expect (Nat.lt_succ_self _) fun _ _ _ => .pure _
  have agree := ended shows trivial
  rw [ran] at agree
  obtain ⟨after, reached⟩ := agree.exists_session
  exact ⟨after, reached.weaken (Nat.le_succ _)⟩

/-- From the place of a session on, a stream can be compared whose spans lie elsewhere. -/
def resume (view : View) (start : Nat) (spans : Span → Span → Prop) : View :=
  { view with start, spans }

theorem Shows.resume (shows : view.Shows room passed session stream) (exact : view.spans = Eq)
    {spans : Span → Span → Prop} {other : Stream}
    (rest : List.Forall₂ (Token.Matches spans) stream.rest other.rest)
    (finish : spans stream.finish other.finish) :
    (view.resume session.position spans).Shows room 0 session other where
  buffer := shows.buffer
  depth := shows.depth
  passed := Nat.le_refl _
  inside := shows.inside
  rest := by
    rw [← shows.rest_eq exact] at rest
    exact rest
  finish := by
    have same := shows.finish
    rw [exact] at same
    change spans view.finish.span _
    rw [same]
    exact finish
  last index token next late := by
    change session.position ≤ index at late
    omega

end View

/-- Spans of a text that lies `distance` bytes further on. -/
def Shifted (distance : Nat) (span other : Span) : Prop := span = other.shift distance

theorem Span.merge_shift (left right : Span) (distance : Nat) :
    (left.shift distance).merge (right.shift distance) = (left.merge right).shift distance := by
  simp only [merge, between, shift, Span.mk.injEq]
  omega

theorem Fault.eq_shift {fault other : Fault} {distance : Nat}
    (same : fault.Matches (Shifted distance) other) : fault = other.shift distance := by
  cases same with
  | blamed placed => rw [placed, Fault.shift]
  | target starts ends => rw [starts, ends, Span.merge_shift, Fault.shift]

/-- Behind a program, the parser is at the place of some session, and has what is left to parse. -/
theorem View.exists_behind {view : View} {tokens : List Token} (onTokens : view.Over tokens Eq)
    {program : Program} {words after : List Lexeme}
    (derived : Derives nestingLimit (.statements program) words)
    (split : (Stream.ofTokens tokens).lexemes = words ++ after) :
    ∃ session left more, view.Shows nestingLimit 0 session left ∧ left.lexemes = after ∧
      after.length ≤ more ∧ parseTokens tokens =
        (Parser.runOn (Parser.statementsUpTo (Level.outermost nestingLimit).statement
          (· == .finish) more) left).1.map (program ++ ·) := by
  have fuels : view.Fuels 0 (view.inner.length + 1) := by
    unfold Fuels
    omega
  have complete : Parser.TakesStatements nestingLimit (Level.outermost nestingLimit).statement :=
    fun statement next =>
      (Level.complete_ofRoom nestingLimit nestingLimit).statement statement (.inl next)
  have goesOn : ∀ kind : Kind, kind.opensValue ∨ kind.isKeyword → (kind == .finish) = false := by
    intro kind starts
    rw [beq_eq_false_iff_ne]
    rintro rfl
    revert starts
    decide
  have keeps : ∀ ⦃stream value left⦄, (∃ session, view.Shows nestingLimit 0 session stream) →
      Parser.ended (Level.outermost nestingLimit).statement stream = .ok value left →
        ∃ session, view.Shows nestingLimit 0 session left :=
    fun stream value left ⟨session, shows⟩ ran => shows_of_ended fuels shows ran
  have enough : (words ++ after).length ≤ (Stream.ofTokens tokens).rest.length := by
    rw [← split, Stream.length_lexemes]
  obtain ⟨left, more, ⟨session, shows⟩, behind, still, first⟩ :=
    Parser.statementsUpTo_append complete goesOn keeps derived split ⟨_, onTokens.shows_self⟩ enough
  exact ⟨session, left, more, shows, behind, still, first⟩

/-- The tokens that are left are the last ones of the buffer. -/
theorem View.Shows.rest_eq_of_length {view : View} {room passed : Nat} {session : Session}
    {stream : Stream} (shows : view.Shows room passed session stream) (exact : view.spans = Eq)
    {front back : List Token} (whole : view.inner = front ++ back)
    (length : stream.rest.length = back.length) : stream.rest = back := by
  have position := shows.position_add_length
  rw [whole, List.length_append, length, Nat.add_right_cancel_iff] at position
  rw [← shows.rest_eq exact, whole, position, List.drop_left]

/-- Behind a program, tokens are parsed as they are alone. -/
theorem parseTokens_append {body others : List Token} {finish : Token}
    (inner : ∀ token ∈ body, token.kind ≠ .finish) (inner' : ∀ token ∈ others, token.kind ≠ .finish)
    (last : finish.kind = .finish) {program : Program}
    (derived : Derives nestingLimit (.statements program) (body.map Token.toLexeme))
    (distance : Nat) :
    parseTokens (body ++ (others ++ [finish]).map (·.shift distance)) =
      ((parseTokens (others ++ [finish])).map (program ++ ·)).mapError (·.shift distance) := by
  have innerAll : ∀ token ∈ body ++ others.map (·.shift distance), token.kind ≠ .finish := by
    intro token mem
    rcases List.mem_append.mp mem with mem | mem
    · exact inner token mem
    · obtain ⟨other, mem', rfl⟩ := List.mem_map.mp mem
      exact inner' other mem'
  rw [List.map_append, List.map_singleton, ← List.append_assoc]
  generalize all : body ++ others.map (·.shift distance) ++ [finish.shift distance] = tokens
  have stream : Stream.ofTokens tokens =
      ⟨body ++ others.map (·.shift distance), finish.span.shift distance, .point 0⟩ :=
    all ▸ Stream.ofTokens_append innerAll (show (finish.shift distance).kind = .finish from last)
  have alone := Stream.ofTokens_append inner' last
  obtain ⟨view, onTokens⟩ := View.exists_over tokens Eq
  obtain ⟨whole, placed, -⟩ := Stream.mk.inj (onTokens.stream.symm.trans stream)
  have lexemes : (Stream.ofTokens tokens).lexemes =
      body.map Token.toLexeme ++ others.map Token.toLexeme := by
    rw [stream, Stream.lexemes, List.map_append, List.map_map]
    rfl
  obtain ⟨session, left, more, shows, behind, still, parsed⟩ :=
    view.exists_behind onTokens derived lexemes
  have length : left.rest.length = (others.map (·.shift distance)).length := by
    rw [← left.length_lexemes, behind, List.length_map, List.length_map]
  have rest := shows.rest_eq_of_length onTokens.spans whole length
  have finished : left.finish = finish.span.shift distance := by
    have same := shows.finish
    rw [onTokens.spans] at same
    exact same.symm.trans placed
  have resumed : (view.resume session.position (Shifted distance)).Shows nestingLimit 0 session
      (Stream.ofTokens (others ++ [finish])) := by
    refine shows.resume onTokens.spans ?_ ?_
    · rw [rest, alone]
      exact List.forall₂_map_left_iff.mpr (List.forall₂_same.mpr fun token _ => ⟨rfl, rfl⟩)
    · rw [finished, alone]
      rfl
  -- From here on one machine mirrors the parser on both streams.
  obtain ⟨later, _, exact, bounds⟩ := shows.exists_bounds
  have enough : view.Bounds later more := by
    rw [← left.length_lexemes, behind] at bounds
    unfold View.Bounds at bounds ⊢
    omega
  have fuels (view : View) (passed : Nat) : view.Fuels passed (view.inner.length + 1) := by
    unfold View.Fuels
    omega
  have onLeft := View.completes_statements (fuels view later) enough exact
  have onRight := View.completes_program (fuels (view.resume session.position (Shifted distance)) 0)
    resumed
  have agreed : Agreed (Shifted distance) (Parser.runOn (Parser.statementsUpTo
      (Level.outermost nestingLimit).statement (· == .finish) more) left).1
        (parseTokens (others ++ [finish])) := onLeft.agreed onTokens.spans onRight
  rw [parsed]
  generalize (Parser.runOn (Parser.statementsUpTo (Level.outermost nestingLimit).statement
    (· == .finish) more) left).1 = ran, parseTokens (others ++ [finish]) = result at agreed ⊢
  cases agreed with
  | ok => rfl
  | error same =>
    rw [Fault.eq_shift same]
    rfl

/-- A source that is a program is made of statements. -/
theorem exists_of_parse {text : String} {program : Program} (parsed : parse text = .ok program) :
    ∃ gap items, Gap gap ∧ Inscription.Apart items ∧ text.toList = gap ++ Inscription.source items ∧
      Derives nestingLimit (.statements program) (items.map Inscription.lexeme) := by
  obtain ⟨found, tokenized⟩ : ∃ found, tokenize text = .ok found := by
    cases tokenized : tokenize text with
    | ok found => exact ⟨found, rfl⟩
    | error fault =>
      rw [parse, tokenized] at parsed
      contradiction
  obtain ⟨gap, items, separates, apart, split, rfl⟩ := Inscription.exists_of_tokenize tokenized
  refine ⟨gap, items, separates, apart, split, ?_⟩
  obtain ⟨inner, equal, kinds, lexemes⟩ := Inscription.exists_inner (utf8Size gap) items
  rw [parse, tokenized, equal] at parsed
  have derived := (parseTokensWithin_eq_ok_iff kinds rfl).mp parsed
  generalize whole : (inner ++ [Token.finish _]).map Token.toLexeme = words at derived
  cases derived with
  | program body =>
    rw [List.map_append] at whole
    obtain ⟨same, -⟩ := List.append_inj' whole rfl
    rwa [← lexemes, same]

/-- Behind a source that ends with a semicolon, text is split into the tokens that it has alone. -/
theorem Inscription.tokenize_append {first : String} {gap : List Char} {items : List Inscription}
    (separates : Gap gap) (apart : Apart items) (ended : EndsStatement items)
    (split : first.toList = gap ++ source items) {inner : List Token}
    (equal : tokens (utf8Size gap) items = inner ++ [.finish first.utf8ByteSize])
    (second : String) : tokenize (first ++ second) =
      match tokenize second with
      | .ok others => .ok (inner ++ others.map (·.shift first.utf8ByteSize))
      | .error fault => .error (fault.shift first.utf8ByteSize) := by
  have start : tokens (0 + utf8Size gap) items = inner ++ [.finish first.utf8ByteSize] := by
    rw [Nat.zero_add, equal]
  have found := tokens_append apart ended separates second.toList start
  have moved := (Cursor.ofSource second).tokens_shift first.utf8ByteSize
  have place : (Cursor.ofSource second).shift first.utf8ByteSize =
      ⟨second.toList, first.utf8ByteSize⟩ := by
    rw [Cursor.ofSource, Cursor.shift, Nat.zero_add]
  rw [place] at moved
  rw [tokenize, Cursor.ofSource, String.toList_append, split, List.append_assoc, found, moved,
    tokenize]
  cases (Cursor.ofSource second).tokens <;> rfl

/-- A program can be put in front of any source. What stands behind it is parsed as it is alone, and
a fault there, lexical or grammatical, is further into the text by the bytes of the program. -/
theorem parse_append {first : String} {program : Program} (parsed : parse first = .ok program)
    (second : String) :
    parse (first ++ second) =
      match parse second with
      | .ok others => .ok (program ++ others)
      | .error fault => .error (fault.shift first.utf8ByteSize) := by
  obtain ⟨gap, items, separates, apart, split, derived⟩ := exists_of_parse parsed
  obtain ⟨inner, equal, kinds, lexemes⟩ := Inscription.exists_inner (utf8Size gap) items
  have ended : Inscription.EndsStatement items := by
    intro item last
    refine derived.getLast?_statements item.lexeme ?_
    rw [List.getLast?_map, last]
    rfl
  have size : utf8Size gap + utf8Size (Inscription.source items) = first.utf8ByteSize := by
    rw [← utf8Size_append, ← split, utf8Size_toList]
  rw [size] at equal
  rw [parse, parse, Inscription.tokenize_append separates apart ended split equal second]
  cases tokenized : tokenize second with
  | error fault => rfl
  | ok found =>
    obtain ⟨gap', items', -, -, -, rfl⟩ := Inscription.exists_of_tokenize tokenized
    obtain ⟨inner', equal', kinds', -⟩ := Inscription.exists_inner (utf8Size gap') items'
    rw [← lexemes] at derived
    have last : (Token.finish (utf8Size gap' + utf8Size (Inscription.source items'))).kind =
      .finish := rfl
    have joined := parseTokens_append kinds kinds' last derived first.utf8ByteSize
    rw [equal']
    change parseTokens _ = match parseTokens _ with | .ok others => _ | .error fault => _
    rw [joined]
    cases parseTokens (inner' ++ [Token.finish _]) <;> rfl

set_option maxRecDepth 4000 in
theorem parse_append_assigned :
    parse "x=y;#é#" = .ok [.assignment ⟨.name "x", .assign, .name "y"⟩] ∧
      parse ("x=y;#é#" ++ "z;") =
        .ok [.assignment ⟨.name "x", .assign, .name "y"⟩, .expression (.name "z")] ∧
      parse ("x=y;#é#" ++ "z;'") = .error ⟨.unclosedText, ⟨10, 11⟩⟩ ∧
      parse ("x=y;#é#" ++ "f()=z;") = .error ⟨.notAssignable, ⟨8, 11⟩⟩ := by
  have parsed : parse "x=y;#é#" = .ok [.assignment ⟨.name "x", .assign, .name "y"⟩] := by cbv
  refine ⟨parsed, ?_, ?_, ?_⟩
  · rw [parse_append parsed]
    cbv
  · rw [parse_append parsed]
    cbv
  · rw [parse_append parsed]
    cbv

end BlockScript
