import BlockScript.Proofs.Lexical.Calls
import BlockScript.Proofs.Lexical.Concatenation
import BlockScript.Proofs.Lexical.Layout

/-!
# Lexical faults are local

A lexer that fails blames a piece of the source. Neither what stands in front of this piece nor what
stands behind it has a part in the fault: the source cut off in front of the piece is read, as the
tokens that the lexer has given before it failed, and the source cut off behind the piece fails with
the same fault (`isolated_of_tokenize`).

A reading looks at most one character ahead, so it has to be shown that a cut does not change what
was read in front of it. What is cut off is the end of the source or starts where a token ended, and
where the source ends any lexeme may end.
-/

namespace BlockScript

/-- Causes that blame the whole rest of the source, in which a partner is missing. -/
def Cause.isUnclosed : Cause → Bool
  | .unclosedComment | .unclosedText | .unclosedSelector => true
  | _ => false

/-! ## Readings -/

section
variable {c : Char} {rest covered after : List Char} {cause : Cause}

/-- A malformed number is malformed whatever follows it. -/
theorem readNumber_covered (read : readNumber rest = .malformed cause covered after) :
    readNumber covered = .malformed cause covered [] ∧ ¬ cause.isUnclosed := by
  have whole : ∀ d ∈ rest.takeWhile Char.isDigit, d.isDigit := fun _ => mem_takeWhile
  have dot (behind : List Char) : ∀ d, ('.' :: behind).head? = some d → ¬ d.isDigit := by
    rintro _ ⟨⟩
    decide
  unfold readNumber at read
  dsimp only at read
  split at read
  · rename_i tail equal
    have places : ∀ d ∈ tail.takeWhile Char.isDigit, d.isDigit := fun _ => mem_takeWhile
    split at read
    · injection read with same covers behind
      subst same covers behind
      constructor
      · rw [readNumber]
        simp only [takeWhile_append_of_head whole (dot []), dropWhile_append_of_head whole (dot [])]
        rfl
      · decide
    · rename_i present
      split at read
      · injection read with same covers behind
        subst same covers behind
        constructor
        · rw [List.append_assoc, List.cons_append, readNumber]
          simp only [takeWhile_append_of_head whole (dot _), dropWhile_append_of_head whole (dot _),
            takeWhile_append_of_head places (dot []), dropWhile_append_of_head places (dot [])]
          rw [if_neg present, List.append_assoc, List.cons_append]
        · decide
      · contradiction
  · contradiction

/-- A malformed lexeme is malformed whatever follows it, and nothing follows it if its end is
missing. -/
theorem readLexeme_covered (read : readLexeme c rest = .malformed cause covered after) :
    (∃ others, covered = c :: others ∧ readLexeme c others = .malformed cause covered []) ∧
      (cause.isUnclosed → after = []) := by
  obtain ⟨split, present, -⟩ := append_of_readLexeme read
  obtain ⟨d, others, rfl⟩ := List.exists_cons_of_ne_nil present
  obtain ⟨rfl, rest_eq⟩ := List.cons.inj split
  -- A text or a selector without an end covers all that is left.
  have toEnd (none : after = []) : (∃ others', c :: others = c :: others' ∧
      readLexeme c others' = .malformed cause (c :: others) []) ∧ (cause.isUnclosed → after = []) := by
    rw [none] at rest_eq
    have same : rest = others := rest_eq.trans (List.append_nil others)
    rw [same, none] at read
    exact ⟨⟨others, rfl, read⟩, fun _ => none⟩
  unfold readLexeme at read
  split at read
  · rename_i digit
    obtain ⟨again, closed⟩ := readNumber_covered read
    refine ⟨⟨others, rfl, ?_⟩, fun unclosed => absurd unclosed closed⟩
    rw [readLexeme, if_pos digit, again]
  split at read
  · unfold readText at read
    split at read
    · contradiction
    · injection read with _ _ behind
      exact toEnd behind.symm
  split at read
  · unfold readSelector at read
    split at read
    · contradiction
    · injection read with _ _ behind
      exact toEnd behind.symm
  split at read
  · contradiction
  split at read
  · contradiction
  split at read <;> contradiction

/-- No lexeme starts with a stray character, whatever follows it. -/
theorem readLexeme_nil_of_stray (read : readLexeme c rest = .stray) : readLexeme c [] = .stray := by
  unfold readLexeme at read
  split at read
  · unfold readNumber at read
    dsimp only at read
    split at read
    · split at read
      · contradiction
      · split at read <;> contradiction
    · contradiction
  rename_i noDigit
  split at read
  · unfold readText at read
    split at read <;> contradiction
  rename_i noQuote
  split at read
  · unfold readSelector at read
    split at read <;> contradiction
  split at read
  · contradiction
  split at read
  · contradiction
  rename_i noLetter
  split at read
  · contradiction
  rename_i unknown
  have noSelector : ¬ (c = '<' ∧ ([] : List Char).head? = some '@') := by simp
  rw [readLexeme, if_neg noDigit, if_neg noQuote, if_neg noSelector]
  simp only [pairAhead?, noLetter, unknown]
  rfl

end

/-! ## The cursor -/

namespace Cursor

variable {cursor place : Cursor} {fault : Fault}

/-- From the cursor on there are `tokens`, and then a text that is blamed for a fault. The source may
be cut off on either side of this text. -/
structure Isolates (cursor : Cursor) (fault : Fault) (tokens : List Token)
    (before covered after : List Char) : Prop where
  split : cursor.rest = before ++ (covered ++ after)
  present : covered ≠ []
  span : fault.span = ⟨cursor.offset + utf8Size before,
    cursor.offset + utf8Size before + utf8Size covered⟩
  /-- The tokens are what the stream gives until it fails. -/
  given : (Lexer.events ⟨cursor, false⟩ (List.replicate (tokens.length + 1) .next)).map
    Lexer.Event.answer? = tokens.map (fun token => some (.ok token)) ++ [some (.error fault)]
  ahead : Cursor.tokens ⟨before, cursor.offset⟩ =
    .ok (tokens ++ [.finish (cursor.offset + utf8Size before)])
  decided : Cursor.tokens ⟨before ++ covered, cursor.offset⟩ = .error fault
  unclosed : fault.cause.isUnclosed → after = []
  stray : fault.cause = .strayCharacter → ∃ c, covered = [c]

/-- What stands behind the gap starts with no gap. -/
theorem bare_of_pastGap {opened? : Option Nat} {text rest : List Char} {c : Char}
    {offset reached : Nat} (past : pastGap opened? text offset = .ok ⟨c :: rest, reached⟩) :
    ¬ isBlank c ∧ c ≠ '#' := by
  have again : pastGap none (c :: rest) reached = .ok ⟨c :: rest, reached⟩ := pastGap_again past
  rw [pastGap] at again
  constructor
  · intro blank
    simp only [blank, if_true] at again
    exact Nat.not_succ_le_self rest.length (pastGap_length_le again)
  · rintro rfl
    have noBlank : isBlank '#' = false := rfl
    simp only [noBlank, Bool.false_eq_true, if_false, if_true] at again
    exact Nat.not_succ_le_self rest.length (pastGap_length_le again)

/-- A scan that fails stops behind a gap, and its fault is decided by what it blames. -/
theorem isolates_of_scan (scanned : cursor.scan = (.error fault, place)) :
    ∃ before covered after, cursor.Isolates fault [] before covered after := by
  have ahead {gap : List Char} (separates : Gap gap) : Cursor.tokens ⟨gap, cursor.offset⟩ =
      .ok ([] ++ [.finish (cursor.offset + utf8Size gap)]) :=
    tokens_of_scan_finish (scan_gap separates cursor.offset) rfl
  have given : (Lexer.events ⟨cursor, false⟩ (List.replicate 1 .next)).map
      Lexer.Event.answer? = [some (.error fault)] := by
    simp [Lexer.events, Lexer.event, Lexer.run, Lexer.next, scanned]
  have whole := scanned
  unfold scan at scanned
  split at scanned
  · rename_i span failed
    obtain ⟨gap, body, separates, closed, split, rfl⟩ := exists_comment_of_pastGap failed
    cases scanned
    refine ⟨gap, '#' :: body, [], ?_⟩
    exact {
      split := by rw [split, List.append_nil]
      present := List.cons_ne_nil _ _
      span := by rw [split, utf8Size_append, Nat.add_assoc]
      given := given
      ahead := ahead separates
      decided := by
        rw [← split]
        exact tokens_of_scan_error whole
      unclosed := fun _ => rfl
      stray := by rintro ⟨⟩ }
  · simp at scanned
  · rename_i c rest reached past
    obtain ⟨noBlank, noHash⟩ := bare_of_pastGap past
    obtain ⟨gap, separates, split, offset⟩ := exists_gap_of_pastGap past
    dsimp only at split offset
    subst offset
    -- The piece that is blamed is scanned alone as it is in the source.
    have scan_eq (others : List Char) : scan ⟨gap ++ c :: others, cursor.offset⟩ =
        afterReading c others (cursor.offset + utf8Size gap) (readLexeme c others) := by
      rw [scan]
      simp only [pastGap_append separates, pastGap_of_not_gap noBlank noHash]
    unfold afterReading at scanned
    split at scanned
    · simp at scanned
    · rename_i cause covered after read
      obtain ⟨⟨others, rfl, again⟩, unclosed⟩ := readLexeme_covered read
      cases scanned
      refine ⟨gap, c :: others, after, ?_⟩
      exact {
        split := by rw [split, (append_of_readLexeme read).1]
        present := List.cons_ne_nil _ _
        span := rfl
        given := given
        ahead := ahead separates
        decided := by
          have cut := scan_eq others
          rw [again, afterReading] at cut
          exact tokens_of_scan_error cut
        unclosed := unclosed
        stray := by
          rintro rfl
          have blames := (append_of_readLexeme read).2.2
          contradiction }
    · rename_i read
      cases scanned
      refine ⟨gap, [c], rest, ?_⟩
      exact {
        split := split
        present := List.cons_ne_nil _ _
        span := rfl
        given := given
        ahead := ahead separates
        decided := by
          have cut := scan_eq []
          rw [readLexeme_nil_of_stray read, afterReading] at cut
          exact tokens_of_scan_error cut
        unclosed := by rintro ⟨⟩
        stray := fun _ => ⟨c, rfl⟩ }

/-- A token in front of a cut is read as before: a lexeme may end where the source does. -/
theorem tokens_append_of_scan {gap text kept after : List Char} {token : Token}
    (separates : Gap gap) (spelled : token.toLexeme.SpelledBy text)
    (span : token.span = token.toLexeme.spanAt (cursor.offset + utf8Size gap))
    (ends : token.toLexeme.endsBefore (kept ++ after).head?) :
    Cursor.tokens ⟨gap ++ (text ++ kept), cursor.offset⟩ =
      (Cursor.tokens ⟨kept, cursor.offset + utf8Size gap + utf8Size text⟩).map (token :: ·) := by
  have inside : token.toLexeme.endsBefore kept.head? := by
    cases kept with
    | nil => exact token.toLexeme.endsBefore_none
    | cons c kept => exact ends
  have scanned := scan_spelling separates spelled inside cursor.offset
  rw [← span] at scanned
  exact tokens_of_scan scanned (Lexeme.kind_ne_finish_of_spelledBy spelled)

/-- The fault that ends the tokens isolates a piece of the source. -/
theorem isolates_of_tokens (failed : cursor.tokens = .error fault) :
    ∃ tokens before covered after, cursor.Isolates fault tokens before covered after := by
  fun_induction Cursor.tokens cursor with
  | case1 cursor other place scanned =>
    cases failed
    exact ⟨[], isolates_of_scan scanned⟩
  | case2 => contradiction
  | case3 cursor token place scanned inner ih =>
    cases others : place.tokens with
    | ok rest =>
      rw [others] at failed
      contradiction
    | error other =>
      rw [others] at failed
      cases failed
      obtain ⟨tokens, before, covered, after, isolates⟩ := ih others
      obtain ⟨gap, text, separates, spelled, split, span, reached, ends⟩ :=
        exists_of_scan scanned inner
      have moved : cursor.offset + utf8Size (gap ++ (text ++ before)) =
          place.offset + utf8Size before := by
        rw [reached, utf8Size_append, utf8Size_append]
        omega
      rw [isolates.split] at ends
      refine ⟨token :: tokens, gap ++ (text ++ before), covered, after, ?_⟩
      exact {
        split := by rw [split, isolates.split]; simp only [List.append_assoc]
        present := isolates.present
        span := by rw [isolates.span, moved]
        given := by
          have going : Lexer.isLast (.ok token) = false := by simpa [Lexer.isLast] using inner
          rw [List.length_cons, List.replicate_succ, Lexer.events, List.map_cons]
          simp only [Lexer.event, Lexer.run, Lexer.next, scanned, going, Bool.false_eq_true,
            if_false, isolates.given]
          rfl
        ahead := by
          rw [tokens_append_of_scan separates spelled span ends, ← reached, isolates.ahead, moved]
          rfl
        decided := by
          rw [← List.append_assoc] at ends
          rw [List.append_assoc, List.append_assoc,
            tokens_append_of_scan separates spelled span ends, ← reached, isolates.decided]
          rfl
        unclosed := isolates.unclosed
        stray := isolates.stray }

end Cursor

/-! ## Sources -/

/-- A piece of the source is blamed for the fault, and the source may be cut off on either side of it:
in front of it there are `tokens`, and what stands behind it has no part in the fault. -/
structure Fault.IsolatedIn (fault : Fault) (source : String) (tokens : List Token)
    (before covered after : List Char) : Prop where
  split : source.toList = before ++ (covered ++ after)
  span : fault.span = ⟨utf8Size before, utf8Size (before ++ covered)⟩
  present : fault.span.start < fault.span.stop
  lies : fault.span.LiesIn source
  given : ((Lexer.ofSource source).events (List.replicate (tokens.length + 1) .next)).map
    Lexer.Event.answer? = tokens.map (fun token => some (.ok token)) ++ [some (.error fault)]
  ahead : tokenize (String.ofList before) = .ok (tokens ++ [.finish fault.span.start])
  decided : tokenize (String.ofList (before ++ covered)) = .error fault
  unclosed : fault.cause.isUnclosed → fault.span.stop = source.utf8ByteSize
  stray : fault.cause = .strayCharacter → ∃ c, covered = [c]

/-- The fault of a source that cannot be read is isolated in it. -/
theorem isolated_of_tokenize {source : String} {fault : Fault}
    (failed : tokenize source = .error fault) :
    ∃ tokens before covered after, fault.IsolatedIn source tokens before covered after := by
  obtain ⟨tokens, before, covered, after, isolates⟩ := Cursor.isolates_of_tokens failed
  have split : source.toList = before ++ (covered ++ after) := isolates.split
  have span : fault.span = ⟨utf8Size before, utf8Size (before ++ covered)⟩ := by
    rw [isolates.span, utf8Size_append]
    simp only [Cursor.ofSource, Nat.zero_add]
  have positive : 0 < utf8Size covered := by
    rw [Nat.pos_iff_ne_zero]
    exact fun empty => isolates.present (eq_nil_of_utf8Size_eq_zero empty)
  have ahead := isolates.ahead
  simp only [Cursor.ofSource, Nat.zero_add] at ahead
  refine ⟨tokens, before, covered, after, ?_⟩
  exact {
    split := split
    span := span
    present := by
      rw [span, utf8Size_append]
      exact Nat.lt_add_of_pos_right positive
    lies := by
      obtain ⟨⟨text, covers⟩, -⟩ := covers_of_tokenize failed
      exact covers.liesIn
    given := isolates.given
    ahead := by
      rw [tokenize, Cursor.ofSource, String.toList_ofList, ahead, span]
    decided := by
      rw [tokenize, Cursor.ofSource, String.toList_ofList]
      exact isolates.decided
    unclosed := by
      intro unclosed
      rw [span, ← utf8Size_toList, split, isolates.unclosed unclosed, List.append_nil]
    stray := isolates.stray }

set_option maxRecDepth 4000 in
/-- The second dot is blamed together with the number in front of it, and the digit behind it is not
looked at. -/
theorem isolated_secondDot :
    tokenize "é<@s>-1.2.3" = .error ⟨.secondDot, ⟨7, 11⟩⟩ ∧
      ∃ tokens before covered after,
        Fault.IsolatedIn ⟨.secondDot, ⟨7, 11⟩⟩ "é<@s>-1.2.3" tokens before covered after := by
  have failed : tokenize "é<@s>-1.2.3" = .error ⟨.secondDot, ⟨7, 11⟩⟩ := by cbv
  exact ⟨failed, isolated_of_tokenize failed⟩

end BlockScript
