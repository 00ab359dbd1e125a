import BlockScript.Proofs.Lexical.Longest

/-!
# Lexing behind other text

Where a source starts has no influence on its tokens but for their spans (`Cursor.tokens_shift`),
and behind inscriptions that end with a semicolon any text is split as if it stood alone
(`Inscription.tokens_append`). For nothing clings to a semicolon, and a gap in front of a text is
passed over as a whole.
-/

namespace BlockScript

/-- The token moved `distance` bytes further into the text. -/
def Token.shift (token : Token) (distance : Nat) : Token :=
  { token with span := token.span.shift distance }

/-- The same fault `distance` bytes further into the text. -/
def Fault.shift (fault : Fault) (distance : Nat) : Fault :=
  { fault with span := fault.span.shift distance }

namespace Lexeme

theorem margin_le_width (lexeme : Lexeme) : lexeme.margin ≤ lexeme.width := by
  unfold margin
  split
  · rename_i kind
    have positive := (quoteFor lexeme.content.toList).utf8Size_pos
    simp only [width, written, kind, utf8Size_append, utf8Size_cons]
    omega
  · exact Nat.zero_le _

theorem spanAt_shift (lexeme : Lexeme) (offset distance : Nat) :
    lexeme.spanAt (offset + distance) = (lexeme.spanAt offset).shift distance := by
  have narrow := lexeme.margin_le_width
  simp only [spanAt, Span.shift, Span.mk.injEq]
  omega

end Lexeme

namespace Cursor

/-- The same text `distance` bytes further on. -/
def shift (cursor : Cursor) (distance : Nat) : Cursor := ⟨cursor.rest, cursor.offset + distance⟩

theorem pastGap_shift (distance : Nat) (opened? : Option Nat) (text : List Char) (offset : Nat) :
    pastGap (opened?.map (· + distance)) text (offset + distance) =
      ((pastGap opened? text offset).map (·.shift distance)).mapError (·.shift distance) := by
  induction text generalizing opened? offset with
  | nil => cases opened? <;> rfl
  | cons c text ih =>
    have further (opened? : Option Nat) := ih opened? (offset + c.utf8Size)
    simp only [Nat.add_right_comm offset c.utf8Size distance] at further
    cases opened? with
    | some start =>
      -- The place where a comment was opened moves along with the text.
      have state : (if c = '#' then none else some (start + distance)) =
          (if c = '#' then none else some start).map (· + distance) := by
        split <;> rfl
      rw [Option.map_some, pastGap, pastGap, state]
      exact further _
    | none =>
      rw [Option.map_none, pastGap, pastGap]
      split
      · exact further none
      · split
        · exact further (some offset)
        · rfl

theorem afterReading_shift (c : Char) (rest : List Char) (offset distance : Nat)
    (reading : Reading) : afterReading c rest (offset + distance) reading =
      (((afterReading c rest offset reading).1.map (·.shift distance)).mapError (·.shift distance),
        (afterReading c rest offset reading).2.shift distance) := by
  cases reading with
  | lexeme lexeme after =>
    simp only [afterReading, Except.map, Except.mapError, Token.shift, shift, Lexeme.spanAt_shift,
      Nat.add_right_comm offset distance]
  | malformed cause covered after =>
    simp only [afterReading, Except.map, Except.mapError, Fault.shift, Span.shift, shift,
      Nat.add_right_comm offset distance]
  | stray =>
    simp only [afterReading, Except.map, Except.mapError, Fault.shift, Span.shift, shift,
      Nat.add_right_comm offset distance]

theorem scan_shift (cursor : Cursor) (distance : Nat) : (cursor.shift distance).scan =
    ((cursor.scan.1.map (·.shift distance)).mapError (·.shift distance),
      cursor.scan.2.shift distance) := by
  have past := pastGap_shift distance none cursor.rest cursor.offset
  rw [Option.map_none] at past
  rw [scan, shift, past, scan]
  cases pastGap none cursor.rest cursor.offset with
  | error span => rfl
  | ok place =>
    obtain ⟨rest, offset⟩ := place
    cases rest with
    | nil => rfl
    | cons c rest => exact afterReading_shift c rest offset distance _

theorem tokens_of_scan_error {cursor place : Cursor} {fault : Fault}
    (scanned : cursor.scan = (.error fault, place)) : cursor.tokens = .error fault := by
  rw [tokens]
  split
  · rename_i other
    rw [scanned] at other
    cases other
    rfl
  · rename_i other
    rw [scanned] at other
    simp at other

/-- A text has the same tokens wherever it starts, and the same fault if it has one. -/
theorem tokens_shift (cursor : Cursor) (distance : Nat) : (cursor.shift distance).tokens =
    (cursor.tokens.map (List.map (·.shift distance))).mapError (·.shift distance) := by
  have moved := cursor.scan_shift distance
  fun_induction tokens cursor with
  | case1 cursor fault place scanned =>
    rw [scanned] at moved
    exact tokens_of_scan_error moved
  | case2 cursor token place scanned last =>
    rw [scanned] at moved
    exact tokens_of_scan_finish moved last
  | case3 cursor token place scanned inner ih =>
    rw [scanned] at moved
    rw [tokens_of_scan moved inner, ih (place.scan_shift distance)]
    cases place.tokens <;> rfl

/-- The tokens from a place on are those behind its gap. -/
theorem tokens_gap {gap : List Char} (separates : Gap gap) (text : List Char) (offset : Nat) :
    tokens ⟨gap ++ text, offset⟩ = tokens ⟨text, offset + utf8Size gap⟩ := by
  have same : scan ⟨gap ++ text, offset⟩ = scan ⟨text, offset + utf8Size gap⟩ := by
    rw [scan, scan, pastGap_append separates]
  generalize scanned : scan ⟨text, offset + utf8Size gap⟩ = result at same
  obtain ⟨result, place⟩ := result
  cases result with
  | error fault => rw [tokens_of_scan_error same, tokens_of_scan_error scanned]
  | ok token =>
    by_cases last : token.kind = .finish
    · rw [tokens_of_scan_finish same last, tokens_of_scan_finish scanned last]
    · rw [tokens_of_scan same last, tokens_of_scan scanned last]

end Cursor

namespace Inscription

/-- The last lexeme, if there is one, is a semicolon. -/
def EndsStatement (items : List Inscription) : Prop :=
  ∀ item ∈ items.getLast?, item.lexeme.kind = Symbol.semicolon

theorem EndsStatement.of_cons {item : Inscription} {rest : List Inscription}
    (ended : EndsStatement (item :: rest)) : EndsStatement rest := by
  intro last behind
  refine ended last ?_
  rw [List.getLast?_cons, behind]
  rfl

/-- Neither a lexeme nor a semicolon becomes longer by what stands behind them all. -/
theorem Apart.endsBefore_append {item : Inscription} {rest : List Inscription}
    (apart : Apart (item :: rest)) (ended : EndsStatement (item :: rest)) (behind : List Char) :
    item.lexeme.endsBefore (item.gap ++ (source rest ++ behind)).head? := by
  by_cases present : item.gap = []
  · rw [present, List.nil_append]
    cases rest with
    | nil =>
      have kind := ended item rfl
      exact Lexeme.endsBefore_of_not (by simp [Lexeme.isWord, kind]) (by simp [kind])
        (by simp [Lexeme.takesEquals, kind]) _
    | cons next rest =>
      obtain ⟨front, -⟩ := List.isChain_cons_cons.mp apart
      rw [source, List.flatMap_cons, List.append_assoc, List.append_assoc]
      exact Lexeme.endsBefore_spelling next.spelled (front present) _
  · exact item.lexeme.endsBefore_gap item.separates present _

/-- Behind inscriptions that end with a semicolon any text has the tokens that it has alone. -/
theorem tokens_append {items : List Inscription} (apart : Apart items) (ended : EndsStatement items)
    {gap : List Char} (separates : Gap gap) (behind : List Char) {offset stop : Nat}
    {inner : List Token} (equal : tokens (offset + utf8Size gap) items = inner ++ [.finish stop]) :
    Cursor.tokens ⟨gap ++ (source items ++ behind), offset⟩ =
      (Cursor.tokens ⟨behind, stop⟩).map (inner ++ ·) := by
  -- The gap in front of each lexeme is that behind the one before it. Behind the last lexeme it
  -- runs into what `behind` starts with, and both are passed over in one go.
  induction items generalizing gap offset inner with
  | nil =>
    have alone : [] ++ [.finish (offset + utf8Size gap)] = inner ++ [.finish stop] := equal
    obtain ⟨rfl, last⟩ := List.append_inj' alone rfl
    have reached : offset + utf8Size gap = stop := by
      simpa [Token.finish, Span.point] using last
    rw [source, List.flatMap_nil, List.nil_append, Cursor.tokens_gap separates, reached]
    cases Cursor.tokens ⟨behind, stop⟩ <;> rfl
  | cons item rest ih =>
    rw [tokens] at equal
    cases inner with
    | nil =>
      have none := (List.cons.inj equal).2
      cases rest <;> contradiction
    | cons token inner =>
      obtain ⟨rfl, others⟩ := List.cons.inj equal
      have scanned := Cursor.scan_spelling separates item.spelled
        (apart.endsBefore_append ended behind) offset
      have found := ih (List.IsChain.of_cons apart) ended.of_cons item.separates others
      rw [source, List.flatMap_cons, ← source, List.append_assoc, List.append_assoc,
        Cursor.tokens_of_scan scanned (Lexeme.kind_ne_finish_of_spelledBy item.spelled), found,
        span_eq_spanAt]
      cases Cursor.tokens ⟨behind, stop⟩ <;> rfl

end Inscription

end BlockScript
