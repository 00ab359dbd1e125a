import BlockScript.Proofs.Lexical.Layout
import BlockScript.Proofs.Lexical.Tiling
import BlockScript.Proofs.Session.Agreement

/-!
# Layout is invisible

Two sources that differ only in the gaps between their lexemes have the same tokens up to their
spans, and are parsed alike: to the same program, or to a fault with the same cause at the
corresponding token (`parse_relaid`). Spans correspond if they belong to the tokens of one index.
-/

namespace BlockScript

/-- The spans belong to the tokens of one index. -/
def SameIndex (tokens others : List Token) (span other : Span) : Prop :=
  ∃ (index : Nat) (left right : Token), tokens[index]? = some left ∧ others[index]? = some right ∧
    left.span = span ∧ right.span = other

/-- The stream over a token list that ends with its only end of input. -/
theorem Stream.ofTokens_append {body : List Token} {finish : Token}
    (inner : ∀ token ∈ body, token.kind ≠ .finish) (last : finish.kind = .finish) :
    ofTokens (body ++ [finish]) = ⟨body, finish.span, .point 0⟩ := by
  have before : ∀ token ∈ body, isInner token := fun token mem => by
    simpa [isInner] using inner token mem
  have ends : isInner finish = false := by simp [isInner, last]
  have first : (body ++ [finish]).find? (fun token => !isInner token) = some finish :=
    List.find?_eq_some_iff_append.mpr ⟨by simp [ends], body, [], rfl,
      fun token mem => by simp [before token mem]⟩
  rw [ofTokens, List.takeWhile_append_of_pos before, List.takeWhile_cons, ends, finishOf, first]
  simp

namespace Inscription

/-- The tokens of inscriptions are those of their lexemes, and the end of the input. -/
theorem exists_inner (offset : Nat) (items : List Inscription) : ∃ inner,
    tokens offset items = inner ++ [.finish (offset + utf8Size (source items))] ∧
      (∀ token ∈ inner, token.kind ≠ .finish) ∧ inner.map Token.toLexeme = items.map lexeme := by
  obtain ⟨inner, equal, kinds⟩ := exists_tokens_eq items offset
  refine ⟨inner, equal, kinds, ?_⟩
  have lexemes := map_toLexeme_tokens offset items
  rw [equal, List.map_append] at lexemes
  exact (List.append_inj' lexemes rfl).1

/-- The tokens of the same lexemes match each other, index by index. -/
theorem parseTokens_agreed {items others : List Inscription}
    (lexemes : items.map lexeme = others.map lexeme) (offset offset' : Nat) :
    Agreed (SameIndex (tokens offset items) (tokens offset' others))
      (parseTokens (tokens offset items)) (parseTokens (tokens offset' others)) := by
  obtain ⟨inner, equal, kinds, words⟩ := exists_inner offset items
  obtain ⟨inner', equal', kinds', words'⟩ := exists_inner offset' others
  have same : inner.map Token.toLexeme = inner'.map Token.toLexeme := by
    rw [words, words', lexemes]
  have lengths : inner.length = inner'.length := by simpa using congrArg List.length same
  rw [equal, equal']
  refine BlockScript.parseTokens_agreed ?_ ?_
  · rw [Stream.ofTokens_append kinds rfl, Stream.ofTokens_append kinds' rfl]
    refine List.forall₂_iff_get.mpr ⟨lengths, fun index within within' => ⟨?_, ?_⟩⟩
    · have word := congrArg (·[index]?) same
      simpa [within, within'] using word
    · refine ⟨index, inner[index], inner'[index], ?_, ?_, rfl, rfl⟩
      · rw [List.getElem?_append_left within, List.getElem?_eq_getElem within]
      · rw [List.getElem?_append_left within', List.getElem?_eq_getElem within']
  · rw [Stream.ofTokens_append kinds rfl, Stream.ofTokens_append kinds' rfl]
    refine ⟨inner.length, _, _, List.getElem?_concat_length, ?_, rfl, rfl⟩
    rw [lengths]
    exact List.getElem?_concat_length

end Inscription

/-- Other gaps between the lexemes of a source change neither its tokens nor what it is parsed to,
except for their places. -/
theorem parse_relaid {text other : String} {found : List Token}
    (tokenized : tokenize text = .ok found) {gap gap' : List Char} {items items' : List Inscription} (separates : Gap gap)
    (written : text.toList = gap ++ Inscription.source items)
    (lexemes : found.map Token.toLexeme =
      items.map Inscription.lexeme ++ [(Token.finish 0).toLexeme])
    (relaid : Inscription.Relaid items items') (separates' : Gap gap')
    (written' : other.toList = gap' ++ Inscription.source items') :
    ∃ found', tokenize other = .ok found' ∧
      found'.map Token.toLexeme = found.map Token.toLexeme ∧
      (∀ program, parse other = .ok program ↔ parse text = .ok program) ∧
      ∀ fault, parse text = .error fault →
        ∃ fault', parse other = .error fault' ∧ fault.Matches (SameIndex found found') fault' := by
  obtain ⟨apart, rfl⟩ := Inscription.apart_of_tokenize tokenized separates written lexemes
  have tokenized' := relaid.tokenize apart separates' written'
  have agreed := Inscription.parseTokens_agreed relaid.map_lexeme (utf8Size gap) (utf8Size gap')
  refine ⟨_, tokenized', ?_, ?_⟩
  · rw [Inscription.map_toLexeme_tokens, Inscription.map_toLexeme_tokens, relaid.map_lexeme]
  · have parsed : parse text = parseTokens (Inscription.tokens (utf8Size gap) items) := by
      rw [parse, tokenized]
      rfl
    have parsed' : parse other = parseTokens (Inscription.tokens (utf8Size gap') items') := by
      rw [parse, tokenized']
      rfl
    rw [parsed, parsed']
    generalize parseTokens (Inscription.tokens (utf8Size gap) items) = result at agreed ⊢
    generalize parseTokens (Inscription.tokens (utf8Size gap') items') = result' at agreed ⊢
    cases agreed with
    | ok value => exact ⟨fun _ => Iff.rfl, nofun⟩
    | error same =>
      refine ⟨fun _ => ⟨nofun, nofun⟩, ?_⟩
      rintro _ ⟨⟩
      exact ⟨_, rfl, same⟩

/-- `f()=1;` with the same gap behind each lexeme. -/
def Inscription.assignedCall {gap : List Char} (separates : Gap gap) : List Inscription :=
  [⟨.identifier "f", ['f'], .identifier ⟨by decide, List.all_eq_true.mp rfl, rfl⟩, gap, separates⟩,
    ⟨.symbol .openParen, ['('], .symbol .openParen, gap, separates⟩,
    ⟨.symbol .closeParen, [')'], .symbol .closeParen, gap, separates⟩,
    ⟨.symbol .equals, ['='], .symbol .equals, gap, separates⟩,
    ⟨.number "1", ['1'], .number (.whole ⟨by decide, List.all_eq_true.mp rfl⟩), gap, separates⟩,
    ⟨.symbol .semicolon, [';'], .symbol .semicolon, gap, separates⟩]

theorem parse_relaid_assignedCall :
    ∃ found' fault', tokenize " # #f # #( # #) # #= # #1 # #; # #" = .ok found' ∧
      parse " # #f # #( # #) # #= # #1 # #; # #" = .error fault' ∧
      Fault.Matches (SameIndex [⟨.identifier "f", ⟨0, 1⟩⟩, ⟨.symbol .openParen, ⟨1, 2⟩⟩,
        ⟨.symbol .closeParen, ⟨2, 3⟩⟩, ⟨.symbol .equals, ⟨3, 4⟩⟩, ⟨.number "1", ⟨4, 5⟩⟩,
        ⟨.symbol .semicolon, ⟨5, 6⟩⟩, .finish 6] found') ⟨.notAssignable, ⟨0, 3⟩⟩ fault' := by
  have tokenized : tokenize "f()=1;" = .ok [⟨.identifier "f", ⟨0, 1⟩⟩,
      ⟨.symbol .openParen, ⟨1, 2⟩⟩, ⟨.symbol .closeParen, ⟨2, 3⟩⟩, ⟨.symbol .equals, ⟨3, 4⟩⟩,
      ⟨.number "1", ⟨4, 5⟩⟩, ⟨.symbol .semicolon, ⟨5, 6⟩⟩, .finish 6] := by cbv
  have separates : Gap [' ', '#', ' ', '#'] := .blank rfl (@Gap.comment [' '] [] (by decide) .nil)
  have relaid : Inscription.Relaid (Inscription.assignedCall .nil)
      (Inscription.assignedCall separates) :=
    .cons rfl (fun _ => rfl) (.cons rfl (fun _ => rfl) (.cons rfl (fun _ => rfl)
      (.cons rfl (fun _ => rfl) (.cons rfl (fun _ => rfl) (.last rfl)))))
  have written : " # #f # #( # #) # #= # #1 # #; # #".toList =
      [' ', '#', ' ', '#'] ++ Inscription.source (Inscription.assignedCall separates) := rfl
  obtain ⟨found', tokenized', -, -, failed⟩ :=
    parse_relaid tokenized .nil rfl rfl relaid separates written
  obtain ⟨fault', parsed, same⟩ := failed ⟨.notAssignable, ⟨0, 3⟩⟩ (by cbv)
  exact ⟨found', fault', tokenized', parsed, same⟩

end BlockScript
