import BlockScript.Proofs.Lexical.Longest

/-!
# What a scan can do

A scan passes over the gap at the cursor. Then it takes a token or a malformed lexeme, which has at
least one character, or it finds the end of the source, or it stops in front of a character that no
lexeme starts with. A comment that is never closed is no gap and takes the rest of the source.
`Cursor.scans` says that there is nothing else.

At the end of the source and in front of such a character the cursor is stuck: the same scan gives
the same result again (`Cursor.scan_again`).
-/

namespace BlockScript

/-! ## Malformed lexemes -/

/-- Causes that blame a malformed lexeme. -/
def Cause.isMalformed : Cause → Bool
  | .unclosedText | .unclosedSelector | .trailingDot | .secondDot => true
  | _ => false

section
variable {c : Char} {rest covered after : List Char} {cause : Cause}

theorem append_of_readNumber (read : readNumber rest = .malformed cause covered after) :
    rest = covered ++ after ∧ covered ≠ [] ∧ cause.isMalformed := by
  have whole := List.takeWhile_append_dropWhile (p := Char.isDigit) (l := rest)
  unfold readNumber at read
  dsimp only at read
  split at read
  · rename_i tail equal
    have places := List.takeWhile_append_dropWhile (p := Char.isDigit) (l := tail)
    rw [equal] at whole
    split at read
    · injection read with same covers behind
      rw [← same, ← covers, ← behind, List.append_assoc, List.singleton_append, whole]
      exact ⟨rfl, List.append_ne_nil_of_right_ne_nil _ (List.cons_ne_nil _ _), rfl⟩
    · split at read
      · rename_i others second
        injection read with same covers behind
        rw [second] at places
        refine ⟨?_, ?_, by rw [← same]; rfl⟩
        · calc rest
              = rest.takeWhile Char.isDigit ++ '.' :: tail := whole.symm
            _ = rest.takeWhile Char.isDigit ++
                  '.' :: (tail.takeWhile Char.isDigit ++ '.' :: others) := by rw [places]
            _ = covered ++ after := by
                  rw [← covers, ← behind, List.append_assoc, List.append_assoc]
                  rfl
        · rw [← covers]
          exact List.append_ne_nil_of_right_ne_nil _ (List.cons_ne_nil _ _)
      · contradiction
  · contradiction

/-- A malformed lexeme is at the front of the text, and nothing of it is lost. -/
theorem append_of_readLexeme (read : readLexeme c rest = .malformed cause covered after) :
    c :: rest = covered ++ after ∧ covered ≠ [] ∧ cause.isMalformed := by
  unfold readLexeme at read
  split at read
  · exact append_of_readNumber read
  split at read
  · unfold readText at read
    split at read
    · contradiction
    · injection read with same covers behind
      rw [← same, ← covers, ← behind, List.append_nil]
      exact ⟨rfl, List.cons_ne_nil _ _, rfl⟩
  split at read
  · rename_i opens
    unfold readSelector at read
    split at read
    · contradiction
    · injection read with same covers behind
      rw [← same, ← covers, ← behind, List.append_nil, opens.1]
      exact ⟨rfl, List.cons_ne_nil _ _, rfl⟩
  split at read
  · contradiction
  split at read
  · contradiction
  split at read <;> contradiction

end

/-! ## Scans -/

namespace Cursor

/-- What a scan does: its result, and the place that it reaches. -/
inductive Scans (cursor : Cursor) : Except Fault Token → Cursor → Prop
  | token {gap text after : List Char} {lexeme : Lexeme} (separates : Gap gap)
      (spelled : lexeme.SpelledBy text) (present : text ≠ [])
      (split : cursor.rest = gap ++ (text ++ after)) :
      Scans cursor (.ok ⟨lexeme, lexeme.spanAt (cursor.offset + utf8Size gap)⟩)
        ⟨after, cursor.offset + utf8Size gap + utf8Size text⟩
  | finish (separates : Gap cursor.rest) :
      Scans cursor (.ok (.finish (cursor.offset + utf8Size cursor.rest)))
        ⟨[], cursor.offset + utf8Size cursor.rest⟩
  | comment {gap body : List Char} (separates : Gap gap) (unclosed : '#' ∉ body)
      (split : cursor.rest = gap ++ '#' :: body) :
      Scans cursor
        (.error ⟨.unclosedComment,
          ⟨cursor.offset + utf8Size gap, cursor.offset + utf8Size cursor.rest⟩⟩)
        ⟨[], cursor.offset + utf8Size cursor.rest⟩
  | malformed {gap covered after : List Char} {cause : Cause} (separates : Gap gap)
      (blames : cause.isMalformed) (present : covered ≠ [])
      (split : cursor.rest = gap ++ (covered ++ after)) :
      Scans cursor
        (.error ⟨cause, ⟨cursor.offset + utf8Size gap,
          cursor.offset + utf8Size gap + utf8Size covered⟩⟩)
        ⟨after, cursor.offset + utf8Size gap + utf8Size covered⟩
  /-- The character is not passed over. -/
  | stray {gap after : List Char} {c : Char} (separates : Gap gap)
      (split : cursor.rest = gap ++ c :: after) :
      Scans cursor
        (.error ⟨.strayCharacter, ⟨cursor.offset + utf8Size gap,
          cursor.offset + utf8Size gap + c.utf8Size⟩⟩)
        ⟨c :: after, cursor.offset + utf8Size gap⟩

variable {cursor place : Cursor} {result : Except Fault Token}

theorem scans (scanned : cursor.scan = (result, place)) : cursor.Scans result place := by
  unfold scan at scanned
  split at scanned
  · rename_i span failed
    obtain ⟨gap, body, separates, closed, split, rfl⟩ := exists_comment_of_pastGap failed
    cases scanned
    exact .comment separates closed split
  · rename_i offset past
    obtain ⟨gap, separates, split, reached⟩ := exists_gap_of_pastGap past
    dsimp only at split reached
    rw [List.append_nil] at split
    subst split reached
    cases scanned
    exact .finish separates
  · rename_i c rest offset past
    obtain ⟨gap, separates, split, reached⟩ := exists_gap_of_pastGap past
    dsimp only at split reached
    subst reached
    unfold afterReading at scanned
    split at scanned
    · rename_i read
      obtain ⟨text, spelled, equal⟩ := spelledBy_of_readLexeme read
      rw [← Lexeme.utf8Size_of_spelledBy spelled] at scanned
      obtain ⟨d, others, starts, -⟩ := Lexeme.startsWith_of_spelledBy spelled
      have present : text ≠ [] := by
        rw [starts]
        exact List.cons_ne_nil _ _
      cases scanned
      exact .token separates spelled present (by rw [split, equal])
    · rename_i read
      obtain ⟨equal, present, blames⟩ := append_of_readLexeme read
      cases scanned
      exact .malformed separates blames present (by rw [split, equal])
    · cases scanned
      exact .stray separates split

theorem Scans.offset_le (scans : cursor.Scans result place) : cursor.offset ≤ place.offset := by
  cases scans <;> dsimp only <;> omega

/-! ## Where the cursor is stuck -/

/-- Whether nothing can be taken from where the cursor is left. -/
def IsStuck : Except Fault Token → Prop
  | .ok token => token.kind = .finish
  | .error fault => fault.cause = .strayCharacter

/-- Behind the gap the result is the same. -/
theorem scan_of_pastGap (past : pastGap none cursor.rest cursor.offset = .ok place) :
    place.scan = cursor.scan := by
  rw [scan, scan, pastGap_again past, past]

/-- A cursor that is stuck is left behind the gap, where it gives the same result again. -/
theorem scan_again (scanned : cursor.scan = (result, place)) (stuck : IsStuck result) :
    place.scan = (result, place) := by
  have whole := scanned
  unfold scan at scanned
  split at scanned
  · cases scanned
    contradiction
  · rename_i past
    cases scanned
    exact (scan_of_pastGap past).trans whole
  · rename_i past
    unfold afterReading at scanned
    split at scanned
    · rename_i read
      obtain ⟨text, spelled, -⟩ := spelledBy_of_readLexeme read
      cases scanned
      exact absurd stuck (Lexeme.kind_ne_finish_of_spelledBy spelled)
    · rename_i cause _ _ read
      obtain ⟨-, -, blames⟩ := append_of_readLexeme read
      cases scanned
      rw [show cause = .strayCharacter from stuck] at blames
      contradiction
    · cases scanned
      exact (scan_of_pastGap past).trans whole

end Cursor

end BlockScript
