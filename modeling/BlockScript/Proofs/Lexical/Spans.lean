import BlockScript.Proofs.Lexical.Outcomes
import BlockScript.Proofs.Lexical.Tiling

/-!
# Where the lexer points

A span covers a text of a source if this text stands there between the two ends of the span. Such a
span lies in the source: it does not run backwards, does not leave the source and cuts no character
(`Span.Covers.liesIn`).

The cursor of the lexer knows how many bytes are in front of it. A scan keeps this so
(`Cursor.Scans.isIn`), and what is blamed when none can be scanned is covered by its span
(`Cursor.IsIn.covers`). By induction along the tokens so is the fault of a whole source
(`covers_of_tokenize`).

The tokens of a source that can be read cover their own texts (`Token.StandsIn.covers`), and each of
them starts behind the one before it, so that no two have the same span (`eq_of_span_eq`).
-/

namespace BlockScript

/-! ## Spans of a source -/

/-- The span is a range of whole characters of the source. -/
structure Span.LiesIn (span : Span) (source : String) : Prop where
  ordered : span.start ≤ span.stop
  bounded : span.stop ≤ source.utf8ByteSize
  starts : String.Pos.Raw.IsValid source ⟨span.start⟩
  stops : String.Pos.Raw.IsValid source ⟨span.stop⟩

theorem Span.LiesIn.of_valid {span : Span} {source : String} (ordered : span.start ≤ span.stop)
    (starts : String.Pos.Raw.IsValid source ⟨span.start⟩)
    (stops : String.Pos.Raw.IsValid source ⟨span.stop⟩) : span.LiesIn source :=
  ⟨ordered, stops.le_utf8ByteSize, starts, stops⟩

theorem Span.Covers.liesIn {span : Span} {source : String} {text : List Char}
    (covers : span.Covers source.toList text) : span.LiesIn source := by
  obtain ⟨before, after, split, rfl⟩ := covers
  have split' : source.toList = (before ++ text) ++ after := by rw [split, List.append_assoc]
  have stops := isValid_utf8Size split'
  rw [utf8Size_append] at stops
  exact .of_valid (Nat.le_add_right _ _) (isValid_utf8Size split) stops

/-! ## What is blamed -/

/-- Causes for which no lexeme is read. -/
def Cause.isLexical : Cause → Bool
  | .unclosedComment | .unclosedText | .unclosedSelector | .trailingDot | .secondDot
  | .strayCharacter => true
  | _ => false

theorem Cause.isLexical_of_isMalformed {cause : Cause} (blames : cause.isMalformed) :
    cause.isLexical := by
  cases cause <;> first | rfl | contradiction

namespace Cursor

/-- The cursor stands in the source, with as many bytes in front of it as it says. -/
def IsIn (cursor : Cursor) (source : List Char) : Prop :=
  ∃ passed, source = passed ++ cursor.rest ∧ cursor.offset = utf8Size passed

variable {cursor place : Cursor} {source : List Char}

/-- A scan leaves the cursor in the source. -/
theorem Scans.isIn {result : Except Fault Token} (scans : cursor.Scans result place)
    (stands : cursor.IsIn source) : place.IsIn source := by
  obtain ⟨passed, split, offset⟩ := stands
  have moves {taken after : List Char} (rest : cursor.rest = taken ++ after) :
      IsIn ⟨after, cursor.offset + utf8Size taken⟩ source := by
    refine ⟨passed ++ taken, ?_, ?_⟩
    · rw [split, rest, List.append_assoc]
    · rw [offset, utf8Size_append]
  cases scans with
  | token _ _ _ rest | malformed _ _ _ rest =>
    rw [Nat.add_assoc, ← utf8Size_append]
    exact moves (by rw [rest, List.append_assoc])
  | finish | comment => exact moves (List.append_nil _).symm
  | stray _ rest => exact moves rest

/-- A token lies between the places in front of its scan and behind it. -/
theorem Scans.bounds {token : Token} (scans : cursor.Scans (.ok token) place) :
    cursor.offset ≤ token.span.start ∧ token.span.start ≤ token.span.stop ∧
      token.span.stop ≤ place.offset := by
  cases scans with
  | token _ spelled _ _ =>
    obtain ⟨left, middle, right, rfl, front, back⟩ := Lexeme.exists_margins spelled
    have width := Lexeme.utf8Size_of_spelledBy spelled
    rw [utf8Size_append, utf8Size_append] at width ⊢
    dsimp only [Lexeme.spanAt]
    omega
  | finish => exact ⟨Nat.le_add_right _ _, Nat.le_refl _, Nat.le_refl _⟩

/-- What is blamed when no token can be scanned stands in the source. -/
theorem IsIn.covers (stands : cursor.IsIn source) {fault : Fault}
    (scanned : cursor.scan = (.error fault, place)) :
    (∃ text, fault.span.Covers source text) ∧ fault.cause.isLexical := by
  obtain ⟨passed, split, offset⟩ := stands
  -- What is blamed stands behind what was passed and the gap.
  have covers {gap covered after : List Char} (rest : cursor.rest = gap ++ (covered ++ after)) :
      Span.Covers ⟨cursor.offset + utf8Size gap,
        cursor.offset + utf8Size gap + utf8Size covered⟩ source covered := by
    refine ⟨passed ++ gap, after, ?_, ?_⟩
    · rw [split, rest, List.append_assoc]
    · rw [offset, utf8Size_append]
  cases scans scanned with
  | @comment gap body _ _ rest =>
    have sizes : cursor.offset + utf8Size cursor.rest =
        cursor.offset + utf8Size gap + utf8Size ('#' :: body) := by
      rw [rest, utf8Size_append, Nat.add_assoc]
    rw [sizes]
    exact ⟨⟨_, covers (by rw [rest, List.append_nil])⟩, rfl⟩
  | malformed _ blames _ rest => exact ⟨⟨_, covers rest⟩, Cause.isLexical_of_isMalformed blames⟩
  | @stray gap after c _ rest => exact ⟨⟨[c], covers rest⟩, rfl⟩

/-- The fault that ends the tokens is covered by its span. -/
theorem IsIn.covers_of_tokens (stands : cursor.IsIn source) {fault : Fault}
    (failed : cursor.tokens = .error fault) :
    (∃ text, fault.span.Covers source text) ∧ fault.cause.isLexical := by
  fun_induction Cursor.tokens cursor with
  | case1 cursor other place scanned =>
    cases failed
    exact stands.covers scanned
  | case2 => contradiction
  | case3 cursor token place scanned inner ih =>
    cases others : place.tokens with
    | error other =>
      rw [others] at failed
      cases failed
      exact ih ((scans scanned).isIn stands) others
    | ok rest =>
      rw [others] at failed
      contradiction

end Cursor

/-- The fault of a source that cannot be read stands in this source. -/
theorem covers_of_tokenize {source : String} {fault : Fault}
    (failed : tokenize source = .error fault) :
    (∃ text, fault.span.Covers source.toList text) ∧ fault.cause.isLexical := by
  have start : (Cursor.ofSource source).IsIn source.toList := ⟨[], rfl, rfl⟩
  exact start.covers_of_tokens failed

/-! ## The text of a token -/

/-- The text between the ends of the span of a lexeme: the span of a selector holds its brackets,
and the span of a text literal leaves out its quotes. -/
def Lexeme.shown (lexeme : Lexeme) : List Char :=
  match lexeme.kind with
  | .selector => '<' :: lexeme.content.toList ++ ['>']
  | _ => lexeme.content.toList

/-- A token covers its own text. -/
theorem Token.StandsIn.covers {token : Token} {source : List Char}
    (stands : token.StandsIn source) :
    token.span.Covers source token.shown := by
  obtain ⟨before, text, after, split, spelled, span, -⟩ := stands
  obtain ⟨lexeme, place⟩ := token
  dsimp only at span spelled ⊢
  subst span split
  -- Without a margin the span is that of the whole spelling.
  have bare (none : lexeme.margin = 0) (same : lexeme.shown = text) :
      Span.Covers ⟨utf8Size before + lexeme.margin, utf8Size before + utf8Size text - lexeme.margin⟩
        (before ++ (text ++ after)) lexeme.shown := by
    rw [none, same]
    exact ⟨before, after, rfl, rfl⟩
  cases spelled with
  | keyword word => exact bare rfl String.toList_ofList
  | symbol mark => exact bare rfl String.toList_ofList
  | number | identifier => exact bare rfl String.toList_ofList
  | selector => exact bare rfl (by simp [Lexeme.shown, Lexeme.selector, Lexeme.content])
  | @text quote content valid closed =>
    have one : utf8Size [quote] = 1 := by
      rcases valid with rfl | rfl <;> decide
    have shown : (Lexeme.text (String.ofList content)).shown = content := String.toList_ofList
    rw [shown]
    refine ⟨before ++ [quote], quote :: after, by simp, ?_⟩
    have margin : (Lexeme.text (String.ofList content)).margin = 1 := rfl
    have whole : utf8Size (quote :: content ++ [quote]) = 1 + utf8Size content + 1 := by
      rw [← List.singleton_append, utf8Size_append, utf8Size_append, one]
    rw [margin, whole, utf8Size_append, one]
    congr 1
    omega

theorem Lexeme.margin_lt_of_spelledBy {lexeme : Lexeme} {text : List Char}
    (spelled : lexeme.SpelledBy text) : lexeme.margin < utf8Size text := by
  obtain ⟨left, middle, right, split, front, back⟩ := Lexeme.exists_margins spelled
  obtain ⟨c, rest, starts, -⟩ := Lexeme.startsWith_of_spelledBy spelled
  have positive : 0 < utf8Size text := by
    rw [starts, utf8Size_cons]
    exact Nat.lt_of_lt_of_le c.utf8Size_pos (Nat.le_add_right _ _)
  rw [split, utf8Size_append, utf8Size_append] at positive ⊢
  omega

/-- Each token starts behind the one before it. -/
theorem Inscription.pairwise_start (items : List Inscription) (offset : Nat) :
    (tokens offset items).Pairwise fun left right => left.span.start < right.span.start := by
  induction items generalizing offset with
  | nil => exact List.pairwise_singleton _ _
  | cons item rest ih =>
    rw [tokens, List.pairwise_cons]
    refine ⟨fun token mem => ?_, ih _⟩
    have later := le_start_of_mem_tokens token mem
    have shorter := Lexeme.margin_lt_of_spelledBy item.spelled
    show offset + item.lexeme.margin < token.span.start
    omega

section
variable {source : String} {tokens : List Token}

theorem standsIn_of_tokenize (found : tokenize source = .ok tokens) :
    ∀ token ∈ tokens, token.kind ≠ .finish → token.StandsIn source.toList := by
  obtain ⟨gap, items, separates, apart, split, rfl⟩ := Inscription.exists_of_tokenize found
  rw [split]
  exact Inscription.standsIn_of_mem_tokens apart fun _ _ _ => separates.endsQuietly

/-- The last token is the end of the input, behind the whole source. -/
theorem exists_inner_of_tokenize (found : tokenize source = .ok tokens) :
    ∃ inner, tokens = inner ++ [.finish source.utf8ByteSize] ∧
      ∀ token ∈ inner, token.kind ≠ .finish := by
  obtain ⟨gap, items, -, -, split, rfl⟩ := Inscription.exists_of_tokenize found
  have size : utf8Size gap + utf8Size (Inscription.source items) = source.utf8ByteSize := by
    rw [← utf8Size_append, ← split, utf8Size_toList]
  rw [← size]
  exact Inscription.exists_tokens_eq items (utf8Size gap)

theorem eq_finish_of_tokenize (found : tokenize source = .ok tokens) {token : Token}
    (mem : token ∈ tokens) (last : token.kind = .finish) : token = .finish source.utf8ByteSize := by
  obtain ⟨inner, rfl, before⟩ := exists_inner_of_tokenize found
  rcases List.mem_append.mp mem with mem | mem
  · exact absurd last (before token mem)
  · exact List.mem_singleton.mp mem

theorem liesIn_of_tokenize (found : tokenize source = .ok tokens) {token : Token}
    (mem : token ∈ tokens) : token.span.LiesIn source := by
  by_cases last : token.kind = .finish
  · rw [eq_finish_of_tokenize found mem last]
    have valid : String.Pos.Raw.IsValid source ⟨source.utf8ByteSize⟩ :=
      String.Pos.Raw.isValid_rawEndPos
    exact .of_valid (Nat.le_refl _) valid valid
  · exact (standsIn_of_tokenize found token mem last).covers.liesIn

/-- Some tokens of a source in a row span from the first of them to the last. -/
theorem merge_of_tokenize (found : tokenize source = .ok tokens) {target : List Token}
    (inside : target <:+: tokens) {first last : Token} (starts : target.head? = some first)
    (ends : target.getLast? = some last) :
    first.span.merge last.span = ⟨first.span.start, last.span.stop⟩ ∧
      first.span.start ≤ last.span.stop := by
  have firstOrdered := (liesIn_of_tokenize found (inside.subset (List.mem_of_head? starts))).ordered
  have lastOrdered := (liesIn_of_tokenize found (inside.subset (List.mem_of_getLast? ends))).ordered
  obtain ⟨gap, items, -, -, -, rfl⟩ := Inscription.exists_of_tokenize found
  have pairwise := (Inscription.pairwise_tokens items (utf8Size gap)).sublist inside.sublist
  obtain ⟨others, rfl⟩ := List.head?_eq_some_iff.mp starts
  -- Either the first token is the last one as well, or it stands in front of it.
  have order : first = last ∨ first.span.stop ≤ last.span.start := by
    cases others with
    | nil => exact .inl (Option.some.inj ends)
    | cons second others =>
      rw [List.getLast?_cons_cons] at ends
      exact .inr ((List.pairwise_cons.mp pairwise).1 last (List.mem_of_getLast? ends))
  have bounds : first.span.start ≤ last.span.start ∧ first.span.stop ≤ last.span.stop := by
    rcases order with rfl | order
    · exact ⟨Nat.le_refl _, Nat.le_refl _⟩
    · omega
  have ordered : first.span.start ≤ last.span.stop := Nat.le_trans bounds.1 lastOrdered
  refine ⟨?_, ordered⟩
  rw [Span.merge, Nat.min_eq_left bounds.1, Nat.max_eq_right bounds.2, Span.between,
    Nat.max_eq_right ordered]

/-- No two tokens of a source have the same span. -/
theorem eq_of_span_eq (found : tokenize source = .ok tokens) {left right : Token}
    (memLeft : left ∈ tokens) (memRight : right ∈ tokens) (same : left.span = right.span) :
    left = right := by
  obtain ⟨gap, items, -, -, -, rfl⟩ := Inscription.exists_of_tokenize found
  have starts := Inscription.pairwise_start items (utf8Size gap)
  have distinct := (List.pairwise_map.mpr starts).imp (fun less => Nat.ne_of_lt less)
  exact List.inj_on_of_nodup_map distinct memLeft memRight (congrArg Span.start same)

end

end BlockScript
