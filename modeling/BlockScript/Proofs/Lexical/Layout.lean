import BlockScript.Proofs.Lexical.Longest
import BlockScript.Proofs.Source.Bytes

/-!
# Other gaps between the same lexemes

The gaps and lexemes of a source are determined by the source and its lexemes
(`Inscription.unique`): a gap is as long as it can be, and all spellings of a lexeme are equally
wide. So a source that is written as a gap and inscriptions, and that the lexer splits into their
lexemes, is written as inscriptions that are apart. Gaps may then be exchanged, as long as none of
those that lexemes need disappears (`Inscription.Relaid`).
-/

namespace BlockScript

/-! ## A source is written in one way only -/

/-- The text starts with no gap. -/
def StartsBare (text : List Char) : Prop :=
  ∀ offset, Cursor.pastGap none text offset = .ok ⟨text, offset⟩

theorem StartsBare.nil : StartsBare [] := fun _ => rfl

theorem Lexeme.startsBare_of_spelledBy {lexeme : Lexeme} {text : List Char}
    (spelled : lexeme.SpelledBy text) (after : List Char) : StartsBare (text ++ after) := by
  obtain ⟨c, rest, rfl, starts⟩ := startsWith_of_spelledBy spelled
  exact fun offset => Cursor.pastGap_of_not_gap starts.other.1 starts.other.2.1 _ offset

/-- A gap reaches up to the first text that starts with none. -/
theorem Gap.unique {gap gap' rest rest' : List Char} (separates : Gap gap) (separates' : Gap gap')
    (bare : StartsBare rest) (bare' : StartsBare rest') (same : gap ++ rest = gap' ++ rest') :
    gap = gap' ∧ rest = rest' := by
  have past := Cursor.pastGap_append separates rest 0
  rw [same, Cursor.pastGap_append separates', bare, bare'] at past
  injection past with places
  injection places with rests
  subst rests
  exact ⟨List.append_cancel_right same, rfl⟩

namespace Inscription

theorem startsBare_source (items : List Inscription) : StartsBare (source items) := by
  cases items with
  | nil => exact .nil
  | cons item rest =>
    rw [source, List.flatMap_cons, List.append_assoc]
    exact Lexeme.startsBare_of_spelledBy item.spelled _

/-- A source with these lexemes is written in one way only. -/
theorem unique {items items' : List Inscription} (lexemes : items.map lexeme = items'.map lexeme)
    {gap gap' : List Char} (separates : Gap gap) (separates' : Gap gap')
    (same : gap ++ source items = gap' ++ source items') : gap = gap' ∧ items = items' := by
  obtain ⟨rfl, rests⟩ := separates.unique separates' (startsBare_source _) (startsBare_source _) same
  refine ⟨rfl, ?_⟩
  clear same separates separates'
  induction items generalizing items' with
  | nil => exact (List.map_eq_nil_iff.mp lexemes.symm).symm
  | cons item rest ih =>
    obtain ⟨item', rest', rfl, first, others⟩ := List.map_eq_cons_iff.mp lexemes.symm
    simp only [source, List.flatMap_cons, List.append_assoc] at rests
    -- A text literal has two spellings, but they are equally wide.
    have width : utf8Size item.text = utf8Size item'.text := by
      rw [Lexeme.utf8Size_of_spelledBy item.spelled, Lexeme.utf8Size_of_spelledBy item'.spelled,
        first]
    have text := eq_of_utf8Size_eq width rests
    rw [text] at rests
    obtain ⟨gap, behind⟩ := item.separates.unique item'.separates (startsBare_source rest)
      (startsBare_source rest') (List.append_cancel_left rests)
    have equal : item = item' := by
      obtain ⟨lexeme, text, _, gap, _⟩ := item
      obtain ⟨lexeme', text', _, gap', _⟩ := item'
      cases first
      cases text
      cases gap
      rfl
    rw [equal, ih others.symm behind]

theorem map_toLexeme_tokens (offset : Nat) (items : List Inscription) :
    (tokens offset items).map Token.toLexeme = items.map lexeme ++ [(Token.finish 0).toLexeme] := by
  induction items generalizing offset with
  | nil => rfl
  | cons item rest ih => rw [tokens, List.map_cons, ih, List.map_cons, List.cons_append]

/-- If the lexer finds the lexemes of inscriptions, then these are apart. -/
theorem apart_of_tokenize {text : String} {found : List Token}
    (tokenized : tokenize text = .ok found) {gap : List Char} {items : List Inscription} (separates : Gap gap)
    (written : text.toList = gap ++ source items)
    (lexemes : found.map Token.toLexeme = items.map lexeme ++ [(Token.finish 0).toLexeme]) :
    Apart items ∧ found = tokens (utf8Size gap) items := by
  obtain ⟨gap', items', separates', apart, split, rfl⟩ := exists_of_tokenize tokenized
  rw [map_toLexeme_tokens, List.append_left_inj] at lexemes
  obtain ⟨rfl, rfl⟩ := unique lexemes separates' separates (split.symm.trans written)
  exact ⟨apart, rfl⟩

/-! ## Exchanging gaps -/

/-- The same lexemes with other gaps behind them. Between two lexemes a gap may only be left out
where there is none already. -/
inductive Relaid : List Inscription → List Inscription → Prop
  | nil : Relaid [] []
  | last {item other : Inscription} (same : item.lexeme = other.lexeme) : Relaid [item] [other]
  | cons {item other next next' : Inscription} {rest rest' : List Inscription}
      (same : item.lexeme = other.lexeme) (separates : other.gap = [] → item.gap = [])
      (others : Relaid (next :: rest) (next' :: rest')) :
      Relaid (item :: next :: rest) (other :: next' :: rest')

theorem Relaid.map_lexeme {items items' : List Inscription} (relaid : Relaid items items') :
    items.map lexeme = items'.map lexeme := by
  induction relaid with
  | nil => rfl
  | last same => rw [List.map_singleton, List.map_singleton, same]
  | cons same _ _ ih => rw [List.map_cons, ih, same, ← List.map_cons]

theorem Relaid.apart {items items' : List Inscription} (relaid : Relaid items items')
    (apart : Apart items) : Apart items' := by
  induction relaid with
  | nil => exact .nil
  | last => exact .singleton _
  | cons same separates others ih =>
    obtain ⟨front, behind⟩ := List.isChain_cons_cons.mp apart
    refine List.isChain_cons_cons.mpr ⟨fun empty => ?_, ih behind⟩
    have next := List.head_eq_of_cons_eq (others.map_lexeme)
    rw [← same, ← next]
    exact front (separates empty)

/-- A source with other gaps has the same lexemes. -/
theorem Relaid.tokenize {items items' : List Inscription} (relaid : Relaid items items')
    (apart : Apart items) {gap : List Char} (separates : Gap gap) {text : String}
    (written : text.toList = gap ++ source items') :
    tokenize text = .ok (tokens (utf8Size gap) items') := by
  have found := tokens_of_apart (relaid.apart apart) separates 0
  rw [Nat.zero_add, ← written] at found
  exact found

end Inscription

end BlockScript
