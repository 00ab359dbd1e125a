import BlockScript.Proofs.Syntax.Recognition

/-!
# The positions of a statement

A statement of a program ends at a semicolon, one of a block as well, and the step of a loop at
`while`. What a statement is derived from does not depend on where it ends, so whatever is parsed as
a statement of a program, with one level to spare, is parsed as the same statement in a block and as
the step of a loop (`parse_positions`). The one exception is a `return` without values as a step: it
is recognised by the token behind it, and `while` is none of those that it looks for.
-/

namespace BlockScript

namespace Lexeme

/-- `function f ( ) { words ; } ;` -/
def inFunction (words : List Lexeme) : List Lexeme :=
  .keyword .function :: .identifier "f" :: .symbol .openParen :: .symbol .closeParen ::
    .symbol .openCurly :: words ++ [.symbol .semicolon, .symbol .closeCurly, .symbol .semicolon]

/-- `for i = 0 with words while c { } ;` -/
def asStep (words : List Lexeme) : List Lexeme :=
  .keyword .for_ :: .identifier "i" :: .symbol .equals :: .number "0" :: .keyword .with_ :: words ++
    [.keyword .while_, .identifier "c", .symbol .openCurly, .symbol .closeCurly, .symbol .semicolon]

variable {words : List Lexeme}

theorem inFunction_inner (inner : ∀ word ∈ words, word.kind ≠ .finish) :
    ∀ word ∈ inFunction words, word.kind ≠ .finish := by
  simp only [inFunction, List.forall_mem_append, List.forall_mem_cons]
  exact ⟨⟨nofun, nofun, nofun, nofun, nofun, inner⟩, nofun, nofun, nofun, nofun⟩

theorem asStep_inner (inner : ∀ word ∈ words, word.kind ≠ .finish) :
    ∀ word ∈ asStep words, word.kind ≠ .finish := by
  simp only [asStep, List.forall_mem_append, List.forall_mem_cons]
  exact ⟨⟨nofun, nofun, nofun, nofun, nofun, inner⟩, nofun, nofun, nofun, nofun, nofun, nofun⟩

end Lexeme

/-- The loop `for i = 0 with step while c { }`. -/
def Statement.asStep (step : Statement) : Statement :=
  .loop ⟨.name "i", .assign, .number (.ofCode false 0)⟩ step (.name "c") []

section
variable {room : Nat} {statement : Statement} {words : List Lexeme}

theorem Derives.alone (derived : Derives room (.statement statement) words) {semicolon : Lexeme}
    (ends : semicolon.kind = Symbol.semicolon) :
    Derives room (.statements [statement]) (words ++ [semicolon]) :=
  .moreStatements derived ends .noStatement

/-- A program of one statement is the statement, a semicolon and the end of the input. -/
theorem Derives.of_alone {semicolon finish : Lexeme}
    (derived : Derives room (.program [statement]) (words ++ [semicolon] ++ [finish])) :
    Derives room (.statement statement) words := by
  generalize whole : words ++ [semicolon] ++ [finish] = all at derived
  cases derived with
  | program body =>
    cases body with
    | moreStatements first _ others =>
      cases others with
      | noStatement =>
        obtain ⟨whole, -⟩ := List.append_inj' whole rfl
        obtain ⟨rfl, -⟩ := List.append_inj' whole rfl
        exact first

theorem Derives.inFunction (derived : Derives room (.statement statement) words) :
    Derives (room + 1) (.statements [.function "f" [] [statement]]) (Lexeme.inFunction words) := by
  have inside : Derives room (.statements [statement]) (words ++ [.symbol .semicolon]) :=
    derived.alone rfl
  have block : Derives (room + 1) (.block [statement]) _ :=
    @Derives.block _ _ _ (.symbol .openCurly) (.symbol .closeCurly) rfl inside rfl
  have whole : Derives (room + 1) (.statement (.function "f" [] [statement])) _ :=
    @Derives.function _ [] _ (.keyword .function) (.identifier "f") (.symbol .openParen)
      (.symbol .closeParen) _ _ rfl rfl rfl .noItem rfl block
  have program := whole.alone (show (Lexeme.symbol .semicolon).kind = Symbol.semicolon from rfl)
  simpa only [Lexeme.inFunction, List.append_assoc, List.cons_append, List.nil_append] using program

theorem Derives.start (room : Nat) :
    Derives room (.assignment ⟨.name "i", .assign, .number (.ofCode false 0)⟩)
      [.identifier "i", .symbol .equals, .number "0"] := by
  have name : Derives room (.access (.name "i")) [.identifier "i"] :=
    @Derives.name _ (.identifier "i") rfl
  have zero : (Lexeme.number "0").Numbers (.ofCode false 0) := ⟨rfl, rfl, rfl⟩
  exact @Derives.assign _ _ _ .assign _ [.symbol .equals] _ name rfl rfl
    (.operand (.single (.number zero)))

theorem Derives.asStep (derived : Derives room (.statement statement) words)
    (returns : statement ≠ .returning []) :
    Derives (room + 1) (.statements [statement.asStep]) (Lexeme.asStep words) := by
  have name : Derives (room + 1) (.access (.name "c")) [.identifier "c"] :=
    @Derives.name _ (.identifier "c") rfl
  have block : Derives (room + 1) (.block []) _ :=
    @Derives.block _ _ _ (.symbol .openCurly) (.symbol .closeCurly) rfl .noStatement rfl
  have whole : Derives (room + 1) (.statement statement.asStep) _ :=
    @Derives.loop _ _ _ _ _ (.keyword .for_) (.keyword .with_) (.keyword .while_) _ _ _ _ rfl
      (.start _) rfl derived returns rfl (.operand (.single (.accessed name))) block
  have program := whole.alone (show (Lexeme.symbol .semicolon).kind = Symbol.semicolon from rfl)
  simpa only [Lexeme.asStep, List.append_assoc, List.cons_append, List.nil_append] using program

end

/-- The tokens in front of the end of the input. -/
theorem exists_body {tokens : List Token} {words : List Lexeme}
    (lexemes : tokens.map Token.toLexeme = words ++ [⟨.finish, none⟩])
    (inner : ∀ word ∈ words, word.kind ≠ .finish) :
    ∃ body finish, tokens = body ++ [finish] ∧ finish.kind = .finish ∧
      body.map Token.toLexeme = words ∧ ∀ token ∈ body, token.kind ≠ .finish := by
  obtain ⟨body, last, rfl, rfl, back⟩ := List.map_eq_append_iff.mp lexemes
  obtain ⟨finish, rfl, ends⟩ := List.map_eq_singleton_iff.mp back
  have before : ∀ token ∈ body, token.kind ≠ .finish := fun token mem =>
    inner token.toLexeme (List.mem_map_of_mem mem)
  exact ⟨body, finish, rfl, congrArg Lexeme.kind ends, rfl, before⟩

/-- Tokens are parsed as what their lexemes are derived for. -/
theorem parseTokens_eq_ok_of_derives {tokens : List Token} {words : List Lexeme} {program : Program}
    (lexemes : tokens.map Token.toLexeme = words ++ [⟨.finish, none⟩])
    (inner : ∀ word ∈ words, word.kind ≠ .finish)
    (derived : Derives nestingLimit (.statements program) words) :
    parseTokens tokens = .ok program := by
  obtain ⟨body, finish, rfl, last, rfl, before⟩ := exists_body lexemes inner
  refine (parseTokensWithin_eq_ok_iff before last).mpr ?_
  rw [List.map_append]
  exact .program derived last

/-! ## A bare `return` as a step -/

namespace Parser

variable {α β : Type} {words : List Lexeme} {cause : Cause}

/-- On every stream of these words the parser fails for this cause. -/
def Fails (parser : Parser α) (words : List Lexeme) (cause : Cause) : Prop :=
  ∀ stream : Stream, stream.lexemes = words → ∃ span left, parser stream = .error ⟨cause, span⟩ left

namespace Fails

theorem bind {parser : Parser α} {next : α → Parser β} (first : parser.Fails words cause) :
    (parser >>= next).Fails words cause := by
  intro stream equal
  obtain ⟨span, left, failed⟩ := first stream equal
  exact ⟨span, left, by rw [bind_apply, failed]⟩

theorem bind_takes {parser : Parser α} {next : α → Parser β} {value : α} {after : List Lexeme}
    (first : parser.Takes words value after) (second : (next value).Fails after cause) :
    (parser >>= next).Fails (words ++ after) cause := by
  intro stream equal
  obtain ⟨between, ran, rest⟩ := first stream equal
  obtain ⟨span, left, failed⟩ := second between rest
  refine ⟨span, left, ?_⟩
  rw [bind_apply, ran]
  exact failed

theorem bind_peek {next : Kind → Parser β} (second : (next (firstKind words)).Fails words cause) :
    (peek >>= next).Fails words cause := by
  intro stream equal
  obtain ⟨span, left, failed⟩ := second stream equal
  rw [← equal, ← stream.kind_eq_firstKind] at failed
  exact ⟨span, left, failed⟩

theorem bind_here {next : Span → Parser β} (second : ∀ span, (next span).Fails words cause) :
    (here >>= next).Fails words cause :=
  fun stream equal => second stream.span stream equal

theorem bind_remaining {next : Nat → Parser β} (second : (next words.length).Fails words cause) :
    (remaining >>= next).Fails words cause := by
  intro stream equal
  obtain ⟨span, left, failed⟩ := second stream equal
  rw [← equal, stream.length_lexemes] at failed
  exact ⟨span, left, failed⟩

theorem bind_get {next : Stream → Parser β}
    (second : ∀ stream : Stream, stream.lexemes = words → (next stream).Fails words cause) :
    (get >>= next : Parser β).Fails words cause :=
  fun stream equal => second stream equal stream equal

theorem bind_skip {next : Unit → Parser β} {word : Lexeme}
    (second : (next ()).Fails words cause) : (skip >>= next).Fails (word :: words) cause := by
  intro stream equal
  obtain ⟨_, -, -, -, rest⟩ := Stream.exists_of_lexemes_eq_cons equal
  exact second stream.tail rest

theorem bind_take? {next : Option Token → Parser β} {word : Lexeme}
    (second : ∀ token : Token, token.toLexeme = word → (next (some token)).Fails words cause) :
    (take? >>= next).Fails (word :: words) cause := by
  intro stream equal
  obtain ⟨token, front, same, -, rest⟩ := Stream.exists_of_lexemes_eq_cons equal
  obtain ⟨span, left, failed⟩ := second token same stream.tail rest
  refine ⟨span, left, ?_⟩
  rw [bind_apply, take?, front]
  exact failed

theorem bind_accept?_none {next : Option Token → Parser β} {kind : Kind}
    (differs : firstKind words ≠ kind) (second : (next none).Fails words cause) :
    (accept? kind >>= next).Fails words cause := by
  intro stream equal
  obtain ⟨span, left, failed⟩ := second stream equal
  refine ⟨span, left, ?_⟩
  rw [bind_apply, accept?, if_neg (by rwa [stream.kind_eq_firstKind, equal])]
  exact failed

theorem bind_expect {next : Token → Parser β} {slot : Slot} {word : Lexeme}
    (fits : word.kind = slot.kind) (second : ∀ token, (next token).Fails words cause) :
    (expect slot >>= next).Fails (word :: words) cause := by
  intro stream equal
  obtain ⟨rest, finish, last⟩ := stream
  cases rest with
  | nil => contradiction
  | cons token rest =>
    obtain ⟨same, behind⟩ := List.cons.inj equal
    obtain ⟨span, left, failed⟩ := second token ⟨rest, finish, token.span⟩ behind
    have kind : token.kind = slot.kind := by rw [← fits, ← same]
    refine ⟨span, left, ?_⟩
    rw [bind_apply, expect]
    simp only [kind, if_true]
    exact failed

end Fails

variable {nesting : Nesting} {room : Nat} {after : List Lexeme}

/-- No expression starts with `while`. -/
theorem expression_fails_while (least : Nat) :
    (expression nesting least).Fails (.keyword .while_ :: after) (.unexpected (.token "while")) := by
  refine .bind (.bind_accept?_none (by simp [firstKind, Lexeme.keyword]) (.bind_take? ?_))
  rintro ⟨_, span⟩ ⟨⟩ stream -
  exact ⟨span, stream, rfl⟩

/-- A bare `return` in front of `while` is taken for one with values. -/
theorem statement_fails_returning {keyword : Lexeme} (opens : keyword.kind = Keyword.return_) :
    (statement nesting).Fails (keyword :: .keyword .while_ :: after)
      (.unexpected (.token "while")) := by
  refine .bind_peek ?_
  rw [firstKind_cons, opens]
  refine .bind_skip (.bind_peek (.bind_remaining ?_))
  exact .bind (.bind (expression_fails_while 0))

/-- A loop whose step is a bare `return` fails at the `while` behind it. -/
theorem loopOrEach_fails_returning {limit : Nat} {start : Assignment}
    {keyword with_ step : Lexeme} {first : List Lexeme}
    (starts : Derives (room + 1) (.assignment start) first) (before : with_.kind = Keyword.with_)
    (opens : step.kind = Keyword.return_) :
    (loopOrEach (.ofRoom limit (room + 1))).Fails
      (keyword :: (first ++ with_ :: step :: .keyword .while_ :: after))
      (.unexpected (.token "while")) := by
  have complete : (Nesting.ofRoom limit (room + 1)).Complete (room + 1) := by
    rintro _ ⟨⟩
    exact ⟨_, rfl, Level.complete_ofRoom limit room⟩
  refine .bind_skip (.bind_get fun stream split => ?_)
  obtain ⟨word, rest, front, other⟩ :=
    starts.second_of_assignment (with_ :: step :: .keyword .while_ :: after)
  rw [front] at split
  rw [eachVariable?_eq_none split other]
  refine .bind_takes (assignment_takes complete starts ?_) ?_
  · rw [firstKind_cons, before]
    rfl
  -- The step is parsed by the level inside, which there is.
  refine .bind_expect before fun _ => .bind_here fun span => .bind ?_
  change (Level.ofRoom limit room).statement.Fails _ _
  rw [Level.ofRoom_eq]
  exact statement_fails_returning opens

theorem program_fails {level : Level} (inner : firstKind words ≠ .finish)
    (fails : level.statement.Fails words cause) : (program level).Fails words cause := by
  refine .bind_remaining ?_
  cases words with
  | nil => exact absurd rfl inner
  | cons word others =>
    refine .bind_peek ?_
    rw [if_neg (by simpa using inner)]
    exact .bind fails

end Parser

/-- A bare `return` is no step of a loop: the `while` behind it is blamed. -/
theorem parseTokens_eq_error_of_returning {tokens : List Token} {keyword : Lexeme}
    (opens : keyword.kind = Keyword.return_)
    (lexemes : tokens.map Token.toLexeme = Lexeme.asStep [keyword] ++ [⟨.finish, none⟩]) :
    ∃ span, parseTokens tokens = .error ⟨.unexpected (.token "while"), span⟩ := by
  have inner : ∀ word ∈ Lexeme.asStep [keyword], word.kind ≠ .finish :=
    Lexeme.asStep_inner (List.forall_mem_singleton.mpr (by rw [opens]; exact Kind.noConfusion))
  obtain ⟨body, finish, rfl, last, front, before⟩ := exists_body lexemes inner
  have start := Stream.ofTokens_lexemes before last
  rw [front] at start
  have fails : (Level.ofRoom nestingLimit nestingLimit).statement.Fails (Lexeme.asStep [keyword])
      (.unexpected (.token "while")) := by
    rw [Level.ofRoom_eq]
    exact .bind_peek (Parser.loopOrEach_fails_returning (.start _) rfl opens)
  obtain ⟨span, left, failed⟩ := Parser.program_fails Kind.noConfusion fails _ start
  refine ⟨span, ?_⟩
  rw [parseTokens, parseTokensWithin, Parser.runOn, Level.outermost, failed]

/-! ## All positions -/

/-- What is parsed as a statement of a program, with one level to spare, is parsed as the same
statement in a block. It is so as the step of a loop as well, unless it is a bare `return`, for
which the `while` behind it is blamed. -/
theorem parse_positions (body : List Token) (inner : ∀ token ∈ body, token.kind ≠ .finish)
    (semicolon finish : Token) (ends : semicolon.kind = Symbol.semicolon)
    (last : finish.kind = .finish) (statement : Statement)
    (parsed : parseTokensWithin (nestingLimit - 1) (body ++ [semicolon, finish]) = .ok [statement])
    (tokens : List Token) :
    (tokens.map Token.toLexeme =
        Lexeme.inFunction (body.map Token.toLexeme) ++ [⟨.finish, none⟩] →
      parseTokens tokens = .ok [.function "f" [] [statement]]) ∧
    (tokens.map Token.toLexeme = Lexeme.asStep (body.map Token.toLexeme) ++ [⟨.finish, none⟩] →
      (statement ≠ .returning [] → parseTokens tokens = .ok [statement.asStep]) ∧
      (statement = .returning [] →
        ∃ span, parseTokens tokens = .error ⟨.unexpected (.token "while"), span⟩)) := by
  have before : ∀ word ∈ body.map Token.toLexeme, word.kind ≠ .finish :=
    List.forall_mem_map.mpr inner
  have derived : Derives (nestingLimit - 1) (.statement statement) (body.map Token.toLexeme) := by
    have split : body ++ [semicolon, finish] = body ++ [semicolon] ++ [finish] := by simp
    have outside : ∀ token ∈ body ++ [semicolon], token.kind ≠ .finish := by
      rw [List.forall_mem_append, List.forall_mem_singleton, ends]
      exact ⟨inner, Kind.noConfusion⟩
    rw [split, parseTokensWithin_eq_ok_iff outside last, List.map_append, List.map_append] at parsed
    exact .of_alone parsed
  constructor
  · exact fun lexemes =>
      parseTokens_eq_ok_of_derives lexemes (Lexeme.inFunction_inner before) derived.inFunction
  · intro lexemes
    constructor
    · exact fun returns =>
        parseTokens_eq_ok_of_derives lexemes (Lexeme.asStep_inner before) (derived.asStep returns)
    · rintro rfl
      obtain ⟨keyword, alone, opens⟩ := derived.eq_of_returning_nil
      rw [alone] at lexemes
      exact parseTokens_eq_error_of_returning opens lexemes

/-- The tokens of these lexemes, at no particular place. -/
def placeless (words : List Lexeme) : List Token := words.map fun lexeme => ⟨lexeme, .point 0⟩

theorem map_placeless (words : List Lexeme) : (placeless words).map Token.toLexeme = words := by
  rw [placeless, List.map_map]
  exact List.map_id words

/-- `return x` is a statement of a program, of a block, and the step of a loop. -/
theorem parse_positions_value :
    let words : List Lexeme := [.keyword .return_, .identifier "x"]
    (∀ token ∈ placeless words, token.kind ≠ .finish) ∧
      parseTokensWithin (nestingLimit - 1)
        (placeless words ++ [⟨.symbol .semicolon, .point 0⟩, .finish 0]) =
          .ok [.returning [.name "x"]] ∧
      parseTokens (placeless (Lexeme.inFunction words ++ [⟨.finish, none⟩])) =
        .ok [.function "f" [] [.returning [.name "x"]]] ∧
      parseTokens (placeless (Lexeme.asStep words ++ [⟨.finish, none⟩])) =
        .ok [Statement.asStep (.returning [.name "x"])] := by
  intro words
  have inner : ∀ token ∈ placeless words, token.kind ≠ .finish := by decide
  have parsed : parseTokensWithin (nestingLimit - 1)
      (placeless words ++ [⟨.symbol .semicolon, .point 0⟩, .finish 0]) =
        .ok [.returning [.name "x"]] := rfl
  have lexemes : (placeless words).map Token.toLexeme = words := map_placeless words
  have positions := parse_positions _ inner _ _ rfl rfl _ parsed
  rw [lexemes] at positions
  exact ⟨inner, parsed, (positions _).1 (map_placeless _),
    ((positions _).2 (map_placeless _)).1 (by simp)⟩

/-- `return` alone is a statement of a program, but no step of a loop. -/
theorem returning_is_no_step :
    parseTokensWithin (nestingLimit - 1)
        (placeless [.keyword .return_] ++ [⟨.symbol .semicolon, .point 0⟩, .finish 0]) =
          .ok [.returning []] ∧
      ∀ program, parseTokens (placeless (Lexeme.asStep [.keyword .return_] ++ [⟨.finish, none⟩])) ≠
        .ok program := by
  refine ⟨rfl, fun program parsed => ?_⟩
  obtain ⟨span, failed⟩ := parseTokens_eq_error_of_returning rfl
    (map_placeless (Lexeme.asStep [.keyword .return_] ++ [⟨.finish, none⟩]))
  rw [failed] at parsed
  contradiction

end BlockScript
