import BlockScript.Proofs.Syntax.Completeness

/-!
# The parser recognises the grammar

A token list that ends with its only end of input is parsed as a program exactly if it is derived
for that program with as many levels as may be open (`parseTokens_eq_ok_iff`). So the grammar is
unambiguous, although its rules for assignments and expressions overlap.
-/

namespace BlockScript

namespace Parser

/-- With enough fuel, statements are taken up to a token that stops them. -/
theorem stops_of_statementsUpTo {item : Parser Statement} {stops : Kind → Bool} {room bound : Nat}
    (sound : Yields Always item fun words statement => Derives room (.statement statement) words)
    (ended : stops .finish) {stream final : Stream} {body : Block}
    (fuel : stream.lexemes.length ≤ bound)
    (ran : statementsUpTo item stops bound stream = .ok body final) : stops final.kind := by
  induction bound generalizing stream body with
  | zero =>
    cases ran
    have empty : final.lexemes = [] := List.length_eq_zero_iff.mp (Nat.le_zero.mp fuel)
    rwa [final.kind_eq_firstKind, empty]
  | succ bound ih =>
    obtain ⟨_, _, ⟨⟩, ran⟩ := bind_eq_ok ran
    split at ran
    · cases ran
      assumption
    · obtain ⟨first, second, took, ran⟩ := bind_eq_ok ran
      obtain ⟨_, third, expected, ran⟩ := bind_eq_ok ran
      obtain ⟨others, _, recursed, ⟨⟩⟩ := bind_eq_ok ran
      obtain ⟨words, front, -⟩ := sound trivial took
      obtain ⟨-, behind⟩ := expect_eq_ok expected
      refine ih ?_ recursed
      rw [front, behind, List.length_append, List.length_cons] at fuel
      omega

theorem program_takes {level : Level} {room : Nat} (complete : level.Complete room)
    {program : Program} {words : List Lexeme} (derived : Derives room (.statements program) words) :
    (Parser.program level).Takes words program [] := by
  refine .bind_remaining (statementsUpTo_takes (fun first next => complete.statement first
    (.inl next)) (fun kind starts => ?_) derived rfl ?_)
  · rw [beq_eq_false_iff_ne]
    rintro rfl
    revert starts
    decide
  · exact Nat.le_of_eq (congrArg List.length (List.append_nil words).symm)

theorem runOn_eq_ok {α : Type} {parser : Parser α} {stream : Stream} {value : α} :
    (runOn parser stream).1 = .ok value ↔ ∃ left, parser stream = .ok value left := by
  rw [runOn]
  cases parser stream <;> simp

end Parser

/-- Among tokens before the end of the input, a stream is at its end only if none are left. -/
theorem Stream.lexemes_eq_nil {stream : Stream} {all words : List Lexeme}
    (inner : ∀ word ∈ all, word.kind ≠ .finish) (split : all = words ++ stream.lexemes)
    (ended : stream.kind = .finish) : stream.lexemes = [] := by
  cases equal : stream.lexemes with
  | nil => rfl
  | cons word others =>
    rw [kind_of_lexemes_eq_cons equal] at ended
    exact absurd ended (inner word (by simp [split, equal]))

theorem Stream.ofTokens_lexemes {body : List Token} {finish : Token}
    (inner : ∀ token ∈ body, token.kind ≠ .finish) (last : finish.kind = .finish) :
    (Stream.ofTokens (body ++ [finish])).lexemes = body.map Token.toLexeme := by
  have before : ∀ token ∈ body, isInner token := fun token mem => by
    simpa [isInner] using inner token mem
  have ends : isInner finish = false := by simp [isInner, last]
  rw [lexemes, ofTokens, List.takeWhile_append_of_pos before, List.takeWhile_cons, ends]
  simp

section
variable {limit : Nat} {body : List Token} {finish : Token} {program : Program}

/-- A program is parsed exactly if it is derived with as much room as there is. -/
theorem parseTokensWithin_eq_ok_iff (inner : ∀ token ∈ body, token.kind ≠ .finish)
    (last : finish.kind = .finish) :
    parseTokensWithin limit (body ++ [finish]) = .ok program ↔
      Derives limit (.program program) ((body ++ [finish]).map Token.toLexeme) := by
  have start := Stream.ofTokens_lexemes inner last
  rw [parseTokensWithin, Parser.runOn_eq_ok, List.map_append, List.map_cons, List.map_nil]
  constructor
  · rintro ⟨left, ran⟩
    obtain ⟨_, _, ⟨⟩, ran⟩ := Parser.bind_eq_ok ran
    have sound := (Level.sound_ofRoom limit limit).statement
    obtain ⟨words, split, derived⟩ := Parser.statementsUpTo_yields sound _ _ trivial ran
    have ended := Parser.stops_of_statementsUpTo sound rfl (Nat.le_of_eq (Stream.length_lexemes _)) ran
    rw [start] at split
    have empty : left.lexemes = [] :=
      Stream.lexemes_eq_nil (by simpa using inner) split (eq_of_beq ended)
    rw [split, empty, List.append_nil]
    exact .program derived last
  · intro derived
    generalize whole : body.map Token.toLexeme ++ [finish.toLexeme] = all at derived
    cases derived with
    | program derived =>
      obtain ⟨rfl, -⟩ := List.append_inj' whole rfl
      obtain ⟨left, ran, -⟩ := Parser.program_takes (Level.complete_ofRoom limit limit) derived _
        (start.trans (List.append_nil _).symm)
      exact ⟨left, ran⟩

/-- No token list stands for two programs. -/
theorem Derives.program_unique {other : Program} (inner : ∀ token ∈ body, token.kind ≠ .finish)
    (last : finish.kind = .finish)
    (first : Derives limit (.program program) ((body ++ [finish]).map Token.toLexeme))
    (second : Derives limit (.program other) ((body ++ [finish]).map Token.toLexeme)) :
    program = other := by
  have parsed := (parseTokensWithin_eq_ok_iff inner last).mpr first
  rw [(parseTokensWithin_eq_ok_iff inner last).mpr second] at parsed
  exact (Except.ok.inj parsed).symm

/-- The parser accepts the grammar, and nothing else, and gives the tree of the grammar. -/
theorem parseTokens_eq_ok_iff (inner : ∀ token ∈ body, token.kind ≠ .finish)
    (last : finish.kind = .finish) :
    parseTokens (body ++ [finish]) = .ok program ↔
      Derives nestingLimit (.program program) ((body ++ [finish]).map Token.toLexeme) :=
  parseTokensWithin_eq_ok_iff inner last

/-- The tokens of `x[i]<@s> -= a - b * c - (d);`, at no particular place. -/
def compoundTokens : List Token :=
  [Lexeme.identifier "x", .symbol .openBracket, .identifier "i", .symbol .closeBracket,
    .selector "@s", .symbol .minus, .symbol .equals, .identifier "a", .symbol .minus,
    .identifier "b", .symbol .star, .identifier "c", .symbol .minus, .symbol .openParen,
    .identifier "d", .symbol .closeParen, .symbol .semicolon].map fun lexeme => ⟨lexeme, .point 0⟩

set_option maxRecDepth 2000 in
theorem parseTokens_compound :
    (∀ token ∈ compoundTokens, token.kind ≠ .finish) ∧ (Token.finish 0).kind = .finish ∧
      Derives nestingLimit
        (.program [.assignment ⟨.selected (.member (.name "x") (.name "i")) "@s", .subtract,
          .binary .subtract
            (.binary .subtract (.name "a") (.binary .multiply (.name "b") (.name "c"))) (.name "d")⟩])
        ((compoundTokens ++ [Token.finish 0]).map Token.toLexeme) :=
  ⟨by decide, rfl, (parseTokens_eq_ok_iff (by decide) rfl).mp rfl⟩

end

end BlockScript
