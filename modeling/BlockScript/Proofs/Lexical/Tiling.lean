import BlockScript.Proofs.Lexical.Longest
import BlockScript.Proofs.Source.Bytes
import Mathlib

/-!
# Tokens tile the source

The tokens of a source and the gaps between them make up the source, and no character of it is lost
or counted twice. `Tiles` says this three times: once for the source as a whole, which is a gap and
inscriptions; once for each token, which is spelled where its span says (`Token.StandsIn`); and once
for the spans, which follow each other, stay within the source and never cut a character in two.

What a word needs on its left to be as long as it can be is carried along the inscriptions: what
stands in front of a word ends with no letter.
-/

namespace BlockScript

/-! ## What can stand in front of a word -/

theorem not_isWordChar_of_isBlank {c : Char} (blank : isBlank c) : ¬ isWordChar c := by
  simp only [isBlank, Bool.or_eq_true, beq_iff_eq] at blank
  rcases blank with ((rfl | rfl) | rfl) | rfl <;> decide

/-- The text ends with no letter. -/
def EndsQuietly (text : List Char) : Prop := ∀ c ∈ text.getLast?, ¬ isWordChar c

theorem EndsQuietly.append {front back : List Char} (first : back = [] → EndsQuietly front)
    (second : EndsQuietly back) : EndsQuietly (front ++ back) := by
  intro c last
  rw [List.getLast?_append] at last
  cases ends : back.getLast? with
  | none =>
    rw [ends, Option.none_or] at last
    exact first (List.getLast?_eq_none_iff.mp ends) c last
  | some d =>
    rw [ends, Option.some_or] at last
    exact second c (ends.trans last)

theorem EndsQuietly.concat {c : Char} (quiet : ¬ isWordChar c) (front : List Char) :
    EndsQuietly (front ++ [c]) := by
  apply append
  · intro empty
    contradiction
  · rintro _ ⟨⟩
    exact quiet

theorem Gap.endsQuietly {gap : List Char} (separates : Gap gap) : EndsQuietly gap := by
  induction separates with
  | nil =>
    rintro c ⟨⟩
  | @blank c rest blank _ ih =>
    exact EndsQuietly.append (fun _ => .concat (not_isWordChar_of_isBlank blank) []) ih
  | @comment body rest _ _ ih =>
    rw [List.append_cons]
    exact EndsQuietly.append (fun _ => .concat (by decide) _) ih

/-- Only a word ends with a letter. -/
theorem Lexeme.endsQuietly_of_spelledBy {lexeme : Lexeme} {text : List Char}
    (spelled : lexeme.SpelledBy text) (other : ¬ lexeme.isWord) : EndsQuietly text := by
  have digits : ∀ {run : List Char}, IsDigits run → EndsQuietly run := by
    intro run valid c last letter
    exact not_isDigit_of_isWordChar letter (valid.digit c (List.mem_of_getLast? last))
  cases spelled with
  | keyword | identifier => exact absurd rfl other
  | symbol mark =>
    cases mark <;> rintro c ⟨⟩ <;> decide
  | number valid =>
    cases valid with
    | whole valid => exact digits valid
    | fraction _ behind =>
      refine EndsQuietly.append (fun empty => by contradiction) ?_
      rw [← List.singleton_append]
      exact EndsQuietly.append (fun empty => absurd empty behind.ne_nil) (digits behind)
  | text valid =>
    rcases valid with rfl | rfl <;> exact .concat (by decide) _
  | selector => exact .concat (by decide) _

/-! ## Tokens in their source -/

/-- The token stands between `before` and `after` as `text`: this is a spelling of it, its span says
so, and if it is a word then it is as long as it can be. -/
structure Token.StandsBetween (token : Token) (before text after : List Char) : Prop where
  spelled : token.toLexeme.SpelledBy text
  /-- The span of a text literal leaves out the quotes. -/
  span : token.span =
    ⟨utf8Size before + token.margin, utf8Size before + utf8Size text - token.margin⟩
  maximal : token.isWord → EndsQuietly before ∧ ∀ c ∈ after.head?, ¬ isWordChar c

/-- The token stands in the source where its span says. -/
def Token.StandsIn (token : Token) (source : List Char) : Prop :=
  ∃ before text after, source = before ++ (text ++ after) ∧ token.StandsBetween before text after

/-- The tokens are the lexemes of the source, in order and at their places. -/
structure Tiles (source : String) (tokens : List Token) : Prop where
  /-- Between the lexemes there are only gaps. -/
  whole : ∃ gap items, Gap gap ∧ source.toList = gap ++ Inscription.source items ∧
    tokens = Inscription.tokens (utf8Size gap) items
  /-- The end of the input comes once, behind the whole source. -/
  ended : ∃ inner, tokens = inner ++ [.finish source.utf8ByteSize] ∧
    ∀ token ∈ inner, token.kind ≠ .finish
  stands : ∀ token ∈ tokens, token.kind ≠ .finish → token.StandsIn source.toList
  ordered : tokens.Pairwise fun left right => left.span.stop ≤ right.span.start
  bounded : ∀ token ∈ tokens,
    token.span.start ≤ token.span.stop ∧ token.span.stop ≤ source.utf8ByteSize
  /-- No span starts or stops inside a character. -/
  boundaries : ∀ token ∈ tokens, String.Pos.Raw.IsValid source ⟨token.span.start⟩ ∧
    String.Pos.Raw.IsValid source ⟨token.span.stop⟩

/-- A spelling is what its span covers, and a quote on both sides for a text literal. -/
theorem Lexeme.exists_margins {lexeme : Lexeme} {text : List Char}
    (spelled : lexeme.SpelledBy text) : ∃ left middle right, text = left ++ (middle ++ right) ∧
      utf8Size left = lexeme.margin ∧ utf8Size right = lexeme.margin := by
  have bare (none : lexeme.margin = 0) : ∃ left middle right, text = left ++ (middle ++ right) ∧
      utf8Size left = lexeme.margin ∧ utf8Size right = lexeme.margin :=
    ⟨[], text, [], by simp, by simp [none], by simp [none]⟩
  cases spelled with
  | text valid =>
    rename_i quote content _
    have one : utf8Size [quote] = 1 := by
      rcases valid with rfl | rfl <;> decide
    exact ⟨[quote], content, [quote], rfl, one, one⟩
  | _ => exact bare rfl

/-- The span of a token that stands in a source runs from one character boundary to another. -/
theorem Token.StandsIn.boundaries {token : Token} {source : String}
    (stands : token.StandsIn source.toList) : token.span.start ≤ token.span.stop ∧
      String.Pos.Raw.IsValid source ⟨token.span.start⟩ ∧
      String.Pos.Raw.IsValid source ⟨token.span.stop⟩ := by
  obtain ⟨before, text, after, split, spelled, span, -⟩ := stands
  obtain ⟨left, middle, right, rfl, sizeLeft, sizeRight⟩ := Lexeme.exists_margins spelled
  have start : token.span.start = utf8Size (before ++ left) := by
    simp only [span, utf8Size_append, sizeLeft]
  have stop : token.span.stop = utf8Size (before ++ left ++ middle) := by
    rw [span]
    simp only [utf8Size_append, sizeLeft, sizeRight]
    omega
  refine ⟨?_, ?_, ?_⟩
  · rw [start, stop, utf8Size_append (before ++ left)]
    exact Nat.le_add_right _ _
  · have parts : source.toList = (before ++ left) ++ (middle ++ right ++ after) := by simp [split]
    rw [start]
    exact isValid_utf8Size parts
  · have parts : source.toList = (before ++ left ++ middle) ++ (right ++ after) := by simp [split]
    rw [stop]
    exact isValid_utf8Size parts

namespace Inscription

theorem source_cons (item : Inscription) (rest : List Inscription) :
    source (item :: rest) = item.text ++ (item.gap ++ source rest) := by
  rw [source, List.flatMap_cons, List.append_assoc, ← source]

/-- In front of a word the text of the inscriptions before it ends with no letter. -/
theorem Apart.endsQuietly {item next : Inscription} {rest : List Inscription}
    (apart : Apart (item :: next :: rest)) (word : next.lexeme.isWord) :
    EndsQuietly (item.text ++ item.gap) := by
  obtain ⟨front, -⟩ := List.isChain_cons_cons.mp apart
  apply EndsQuietly.append
  · intro touching
    apply Lexeme.endsQuietly_of_spelledBy item.spelled
    intro other
    exact front touching (by simp [Lexeme.clings, other, word])
  · exact item.separates.endsQuietly

/-- The tokens of inscriptions stand where the inscriptions do. -/
theorem standsIn_of_mem_tokens {items : List Inscription} (apart : Apart items)
    {before : List Char} (quiet : ∀ item ∈ items.head?, item.lexeme.isWord → EndsQuietly before) :
    ∀ token ∈ tokens (utf8Size before) items, token.kind ≠ .finish →
      token.StandsIn (before ++ source items) := by
  induction items generalizing before with
  | nil =>
    intro token mem inner
    rw [tokens, List.mem_singleton] at mem
    subst mem
    contradiction
  | cons item rest ih =>
    intro token mem inner
    rw [source_cons]
    rw [tokens, List.mem_cons] at mem
    rcases mem with rfl | mem
    · refine ⟨before, item.text, item.gap ++ source rest, rfl, item.spelled, rfl, fun word => ?_⟩
      exact ⟨quiet item rfl word, fun c front => (apart.endsBefore c front).1 word⟩
    · have behind : ∀ next ∈ rest.head?, next.lexeme.isWord →
          EndsQuietly (before ++ (item.text ++ item.gap)) := by
        intro next first word
        obtain ⟨others, rfl⟩ := List.head?_eq_some_iff.mp first
        apply EndsQuietly.append
        · intro empty
          have text : item.text = [] := (List.append_eq_nil_iff.mp empty).1
          obtain ⟨c, letters, spelled, -⟩ := Lexeme.head_of_spelledBy item.spelled
          rw [text] at spelled
          contradiction
        · exact apart.endsQuietly word
      have sizes : utf8Size before + utf8Size item.text + utf8Size item.gap =
          utf8Size (before ++ (item.text ++ item.gap)) := by
        simp only [utf8Size_append, Nat.add_assoc]
      rw [sizes] at mem
      have stands := ih (List.IsChain.of_cons apart) behind token mem inner
      simpa only [List.append_assoc] using stands

theorem le_start_of_mem_tokens {items : List Inscription} {offset : Nat} :
    ∀ token ∈ tokens offset items, offset ≤ token.span.start := by
  induction items generalizing offset with
  | nil =>
    intro token mem
    rw [tokens, List.mem_singleton] at mem
    subst mem
    exact Nat.le_refl offset
  | cons item rest ih =>
    intro token mem
    rw [tokens, List.mem_cons] at mem
    rcases mem with rfl | mem
    · exact Nat.le_add_right _ _
    · have later := ih token mem
      omega

theorem pairwise_tokens (items : List Inscription) (offset : Nat) :
    (tokens offset items).Pairwise fun left right => left.span.stop ≤ right.span.start := by
  induction items generalizing offset with
  | nil => exact List.pairwise_singleton _ _
  | cons item rest ih =>
    rw [tokens, List.pairwise_cons]
    refine ⟨fun token mem => ?_, ih _⟩
    have later := le_start_of_mem_tokens token mem
    dsimp only [span]
    omega

theorem exists_tokens_eq (items : List Inscription) (offset : Nat) :
    ∃ inner, tokens offset items = inner ++ [.finish (offset + utf8Size (source items))] ∧
      ∀ token ∈ inner, token.kind ≠ .finish := by
  induction items generalizing offset with
  | nil => exact ⟨[], rfl, by simp⟩
  | cons item rest ih =>
    obtain ⟨inner, equal, kinds⟩ := ih (offset + utf8Size item.text + utf8Size item.gap)
    refine ⟨⟨item.lexeme, item.span offset⟩ :: inner, ?_, ?_⟩
    · rw [tokens, equal, source_cons]
      simp only [utf8Size_append, List.cons_append, Nat.add_assoc]
    · intro token mem
      rcases List.mem_cons.mp mem with rfl | mem
      · exact Lexeme.kind_ne_finish_of_spelledBy item.spelled
      · exact kinds token mem

end Inscription

/-- The tokens of a source tile it. -/
theorem tiles_of_tokenize {source : String} {tokens : List Token}
    (found : tokenize source = .ok tokens) : Tiles source tokens := by
  obtain ⟨gap, items, separates, apart, split, rfl⟩ := Inscription.exists_of_tokenize found
  have size : utf8Size gap + utf8Size (Inscription.source items) = source.utf8ByteSize := by
    rw [← utf8Size_append, ← split, utf8Size_toList]
  have ended := Inscription.exists_tokens_eq items (utf8Size gap)
  rw [size] at ended
  have quiet : ∀ item ∈ items.head?, item.lexeme.isWord → EndsQuietly gap :=
    fun _ _ _ => separates.endsQuietly
  have stands := Inscription.standsIn_of_mem_tokens apart quiet
  rw [← split] at stands
  -- The end of the input is a point; all other spans are those of tokens that stand in the source.
  have sound : ∀ token ∈ Inscription.tokens (utf8Size gap) items,
      token.span.start ≤ token.span.stop ∧ String.Pos.Raw.IsValid source ⟨token.span.start⟩ ∧
        String.Pos.Raw.IsValid source ⟨token.span.stop⟩ := by
    intro token mem
    by_cases inner : token.kind = .finish
    · obtain ⟨others, equal, kinds⟩ := ended
      rw [equal, List.mem_append, List.mem_singleton] at mem
      rcases mem with mem | rfl
      · exact absurd inner (kinds token mem)
      · exact ⟨Nat.le_refl _, String.Pos.Raw.isValid_rawEndPos, String.Pos.Raw.isValid_rawEndPos⟩
    · exact (stands token mem inner).boundaries
  exact {
    whole := ⟨gap, items, separates, split, rfl⟩
    ended := ended
    stands := stands
    ordered := Inscription.pairwise_tokens items (utf8Size gap)
    bounded := fun token mem => ⟨(sound token mem).1, (sound token mem).2.2.le_utf8ByteSize⟩
    boundaries := fun token mem => (sound token mem).2 }

set_option maxRecDepth 4000 in
theorem tiles_mixed :
    tokenize "\té1.5#→#<@e[ü]>'\"€'==" = .ok [⟨.identifier "é", ⟨1, 3⟩⟩, ⟨.number "1.5", ⟨3, 6⟩⟩,
        ⟨.selector "@e[ü]", ⟨11, 19⟩⟩, ⟨.text "\"€", ⟨20, 24⟩⟩, ⟨.symbol .equalsEquals, ⟨25, 27⟩⟩,
        .finish 27] ∧
      Tiles "\té1.5#→#<@e[ü]>'\"€'==" [⟨.identifier "é", ⟨1, 3⟩⟩, ⟨.number "1.5", ⟨3, 6⟩⟩,
        ⟨.selector "@e[ü]", ⟨11, 19⟩⟩, ⟨.text "\"€", ⟨20, 24⟩⟩, ⟨.symbol .equalsEquals, ⟨25, 27⟩⟩,
        .finish 27] := by
  have found : tokenize "\té1.5#→#<@e[ü]>'\"€'==" = .ok [⟨.identifier "é", ⟨1, 3⟩⟩,
      ⟨.number "1.5", ⟨3, 6⟩⟩, ⟨.selector "@e[ü]", ⟨11, 19⟩⟩, ⟨.text "\"€", ⟨20, 24⟩⟩,
      ⟨.symbol .equalsEquals, ⟨25, 27⟩⟩, .finish 27] := by cbv
  exact ⟨found, tiles_of_tokenize found⟩

end BlockScript
