import BlockScript.Source.Lines
import BlockScript.Proofs.Source.Bytes

/-!
# Lines partition a source

The lines of a source and what ends them make up the source (`Partition`), and every line is numbered
and placed by what is above it. So the line of an offset can be found by its start alone: it is the
last one that starts at or before the offset, which for an offset inside the source is the only one
that holds it (`Locates`). A column counts characters where an offset counts bytes, but between two
characters of a line nothing is lost: line and column give back the offset (`recoverable`).
-/

namespace BlockScript

/-! ## Columns -/

theorem column_le_length (text : List Char) (offset : Nat) : column text offset ≤ text.length := by
  induction text generalizing offset with
  | nil => exact Nat.le_refl 0
  | cons c rest ih =>
    rw [column, List.length_cons]
    split
    · exact Nat.zero_le _
    · exact Nat.succ_le_succ (ih _)

theorem column_mono (text : List Char) {offset offset' : Nat} (le : offset ≤ offset') :
    column text offset ≤ column text offset' := by
  induction text generalizing offset offset' with
  | nil => exact Nat.le_refl 0
  | cons c rest ih =>
    rw [column, column]
    by_cases zero : offset = 0
    · rw [if_pos zero]
      exact Nat.zero_le _
    · have positive : offset' ≠ 0 := by omega
      rw [if_neg zero, if_neg positive]
      exact Nat.succ_le_succ (ih (Nat.sub_le_sub_right le _))

/-- At a character boundary, the column is the number of characters in front of it. -/
theorem column_utf8Size (before after : List Char) :
    column (before ++ after) (utf8Size before) = before.length := by
  induction before with
  | nil => cases after <;> rfl
  | cons c before ih =>
    have positive := c.utf8Size_pos
    rw [List.cons_append, column, utf8Size_cons, if_neg (by omega), Nat.add_sub_cancel_left, ih,
      List.length_cons]

theorem column_of_le {text : List Char} {offset : Nat} (behind : utf8Size text ≤ offset) :
    column text offset = text.length := by
  have least := column_mono text behind
  have whole := column_utf8Size text []
  rw [List.append_nil] at whole
  have most := column_le_length text offset
  omega

/-! ## Cutting at line feeds -/

/-- A source has no line feed and is one line, or its first line is followed by one. -/
theorem splitAtLineFeeds_cases (source : List Char) :
    ('\n' ∉ source ∧ splitAtLineFeeds source = [source]) ∨
      ∃ text rest, '\n' ∉ text ∧ source = text ++ '\n' :: rest ∧
        splitAtLineFeeds source = text :: splitAtLineFeeds rest := by
  induction source with
  | nil => exact .inl ⟨List.not_mem_nil, rfl⟩
  | cons c source ih =>
    by_cases feed : c = '\n'
    · subst feed
      refine .inr ⟨[], source, List.not_mem_nil, rfl, ?_⟩
      rcases ih with ⟨-, split⟩ | ⟨text, rest, -, -, split⟩ <;>
        simp only [splitAtLineFeeds, split, if_true]
    · have other : ∀ {text}, '\n' ∉ text → '\n' ∉ c :: text := by
        intro text whole
        rw [List.mem_cons, not_or]
        exact ⟨fun same => feed same.symm, whole⟩
      rcases ih with ⟨whole, split⟩ | ⟨text, rest, whole, rfl, split⟩
      · exact .inl ⟨other whole, by simp only [splitAtLineFeeds, split, feed, if_false]⟩
      · exact .inr ⟨c :: text, rest, other whole, rfl, by
          simp only [splitAtLineFeeds, split, feed, if_false]⟩

/-- What may end a line that is not the last one. A carriage return in front of the line feed is
never part of the text. -/
inductive EndsLine (text : List Char) : List Char → Prop
  | feed (bare : text.getLast? ≠ some '\r') : EndsLine text ['\n']
  | returnFeed : EndsLine text ['\r', '\n']

/-- A line feed and the return in front of it, if there is one, end what is left of the line. -/
theorem exists_endsLine (line : List Char) :
    ∃ ending, line ++ ['\n'] = withoutReturn line ++ ending ∧
      EndsLine (withoutReturn line) ending := by
  rw [withoutReturn]
  by_cases returns : line.getLast? = some '\r'
  · rw [if_pos returns]
    refine ⟨['\r', '\n'], ?_, .returnFeed⟩
    obtain ⟨text, rfl⟩ := List.getLast?_eq_some_iff.mp returns
    rw [List.dropLast_concat, List.append_assoc]
    rfl
  · rw [if_neg returns]
    exact ⟨['\n'], rfl, .feed returns⟩

/-! ## Lines and what ends them -/

/-- A line and what ends it. -/
structure EndedLine extends SourceLine where
  /-- Nothing ends the last line. -/
  ending : List Char
  deriving DecidableEq, Repr

namespace EndedLine

/-- What the line takes up in a source. -/
def written (line : EndedLine) : List Char := line.text ++ line.ending

/-- The byte at this offset belongs to the line's text or to its end. -/
def Holds (line : EndedLine) (offset : Nat) : Prop :=
  line.start ≤ offset ∧ offset < line.start + utf8Size line.written

/-- The line is in its place between the lines above and below. The first of them has this number
and starts at this offset. -/
structure Stands (line : EndedLine) (number start : Nat) (above below : List EndedLine) : Prop where
  number : line.number = number + above.length
  start : line.start = start + utf8Size (above.flatMap written)
  whole : '\n' ∉ line.text
  ended : below ≠ [] → EndsLine line.text line.ending
  last : below = [] → line.ending = []

end EndedLine

/-- The lines make up the source, and each is in its place. -/
structure Partition (number start : Nat) (source : List Char) (lines : List EndedLine) : Prop where
  nonempty : lines ≠ []
  joined : lines.flatMap EndedLine.written = source
  stands : ∀ above line below, lines = above ++ line :: below →
    line.Stands number start above below

theorem Partition.single {number start : Nat} {text : List Char} (whole : '\n' ∉ text) :
    Partition number start text [⟨⟨number, start, text⟩, []⟩] where
  nonempty := List.cons_ne_nil _ _
  joined := by simp [EndedLine.written]
  stands := by
    intro above line below split
    obtain ⟨rfl, rfl, rfl⟩ : above = [] ∧ ⟨⟨number, start, text⟩, []⟩ = line ∧ below = [] := by
      cases above with
      | nil => exact ⟨rfl, (List.cons.inj split).1, (List.cons.inj split).2.symm⟩
      | cons first above => simp at split
    exact ⟨rfl, rfl, whole, fun more => absurd rfl more, fun _ => rfl⟩

theorem Partition.cons {number start : Nat} {text ending rest : List Char} {others : List EndedLine}
    (whole : '\n' ∉ text) (ends : EndsLine text ending)
    (more : Partition (number + 1) (start + utf8Size (text ++ ending)) rest others) :
    Partition number start (text ++ ending ++ rest) (⟨⟨number, start, text⟩, ending⟩ :: others) where
  nonempty := List.cons_ne_nil _ _
  joined := by rw [List.flatMap_cons, more.joined]; rfl
  stands := by
    intro above line below split
    cases above with
    | nil =>
      obtain ⟨rfl, rfl⟩ := List.cons.inj split
      exact ⟨rfl, rfl, whole, fun _ => ends, fun none => absurd none more.nonempty⟩
    | cons first above =>
      obtain ⟨rfl, behind⟩ := List.cons.inj split
      have stands := more.stands above line below behind
      exact { stands with
        number := by rw [stands.number, List.length_cons]; omega
        start := by
          rw [stands.start, Nat.add_assoc, ← utf8Size_append, List.flatMap_cons]
          rfl }

/-- Numbering the pieces between line feeds gives lines that partition the source. -/
theorem exists_partition (number start : Nat) (source : List Char) :
    ∃ lines, Partition number start source lines ∧
      numberLines number start (splitAtLineFeeds source) = lines.map (·.toSourceLine) := by
  rcases splitAtLineFeeds_cases source with ⟨whole, split⟩ | ⟨line, rest, whole, same, split⟩
  · exact ⟨_, .single whole, by rw [split]; rfl⟩
  · have shorter : rest.length < source.length := by
      rw [same, List.length_append, List.length_cons]
      omega
    obtain ⟨ending, written, ends⟩ := exists_endsLine line
    have kept : '\n' ∉ withoutReturn line := by
      intro feed
      rw [withoutReturn] at feed
      split at feed
      · exact whole (List.dropLast_subset _ feed)
      · exact whole feed
    have size : utf8Size (withoutReturn line ++ ending) = utf8Size line + 1 := by
      rw [← written, utf8Size_append]
      rfl
    obtain ⟨others, more, numbered⟩ := exists_partition (number + 1) (start + utf8Size line + 1) rest
    refine ⟨⟨⟨number, start, withoutReturn line⟩, ending⟩ :: others, ?_, ?_⟩
    · rw [same, List.append_cons, written]
      refine .cons kept ends ?_
      rwa [size]
    · rw [split, List.map_cons, ← numbered]
      rcases splitAtLineFeeds_cases rest with ⟨-, split⟩ | ⟨_, _, -, -, split⟩ <;> rw [split] <;> rfl
termination_by source.length

namespace Partition

variable {number start : Nat} {source : List Char} {lines above below : List EndedLine}
  {line : EndedLine}

/-- What is above a line, the line, and what is below make up the source. -/
theorem source_eq (cut : Partition number start source lines)
    (split : lines = above ++ line :: below) :
    source =
      above.flatMap EndedLine.written ++ (line.written ++ below.flatMap EndedLine.written) := by
  rw [← cut.joined, split, List.flatMap_append, List.flatMap_cons]

/-- A line below starts behind all that the line takes up. -/
theorem stop_le_start (cut : Partition number start source lines)
    (split : lines = above ++ line :: below) {other : EndedLine} (mem : other ∈ below) :
    line.start + utf8Size line.written ≤ other.start := by
  obtain ⟨between, after, rfl⟩ := List.append_of_mem mem
  have here := (cut.stands _ _ _ split).start
  have there := (cut.stands (above ++ line :: between) other after (by simp [split])).start
  rw [List.flatMap_append, List.flatMap_cons, utf8Size_append, utf8Size_append] at there
  omega

/-- The next line starts exactly there. -/
theorem start_eq_stop (cut : Partition number start source lines) {next : EndedLine}
    (split : lines = above ++ line :: next :: below) :
    next.start = line.start + utf8Size line.written := by
  have here := (cut.stands _ _ _ split).start
  have there := (cut.stands (above ++ [line]) next below (by simp [split])).start
  rw [List.flatMap_append, utf8Size_append, List.flatMap_singleton] at there
  omega

end Partition

/-! ## Finding the line of an offset -/

/-- The line at which an offset lies, between those above and those below it. -/
structure Locates (size offset : Nat) (above : List EndedLine) (line : EndedLine)
    (below : List EndedLine) : Prop where
  starts : line.start ≤ offset
  /-- It is the last line that starts there or before. -/
  later : ∀ other ∈ below, offset < other.start
  holds : offset < size → line.Holds offset ∧ ∀ other ∈ above ++ below, ¬ other.Holds offset
  behind : size ≤ offset → below = []

/-- The search passes the lines that start behind the offset, and stops at the last other one. -/
theorem lineIndex_eq {lines above below : List SourceLine} {line : SourceLine} {offset : Nat}
    (split : lines = above ++ line :: below) (here : line.start ≤ offset)
    (later : ∀ other ∈ below, offset < other.start) : lineIndex lines offset = above.length := by
  have passed : below.reverse.findIdx? (fun other => decide (other.start ≤ offset)) = none := by
    rw [List.findIdx?_eq_none_iff]
    intro other mem
    have behind := later other (List.mem_reverse.mp mem)
    simpa using behind
  have found : lines.reverse.findIdx? (fun other => decide (other.start ≤ offset)) =
      some below.length := by
    rw [split, List.reverse_append, List.reverse_cons, List.append_assoc, List.findIdx?_append,
      passed, List.singleton_append, List.findIdx?_cons, if_pos (by simpa using here)]
    simp
  rw [lineIndex, found, split, List.length_append, List.length_cons]
  dsimp only
  omega

/-- From a line that starts at an offset or before it, the last such line is found. -/
theorem Partition.exists_last {number start : Nat} {source : List Char} {lines : List EndedLine}
    (cut : Partition number start source lines) {offset : Nat} {line : EndedLine}
    (above below : List EndedLine) (split : lines = above ++ line :: below)
    (starts : line.start ≤ offset) :
    ∃ above line below, lines = above ++ line :: below ∧ line.start ≤ offset ∧
      ∀ other ∈ below, offset < other.start := by
  induction below generalizing above line with
  | nil => exact ⟨above, line, [], split, starts, List.forall_mem_nil _⟩
  | cons next below ih =>
    have split' : lines = (above ++ [line]) ++ next :: below := by rw [split, List.append_cons]
    by_cases further : next.start ≤ offset
    · exact ih _ split' further
    · refine ⟨above, line, _, split, starts, List.forall_mem_cons.mpr ⟨by omega, ?_⟩⟩
      intro other mem
      have behind := cut.stop_le_start split' mem
      omega

/-- Every offset lies at a line. -/
theorem Partition.exists_locates {number : Nat} {source : List Char} {lines : List EndedLine}
    (cut : Partition number 0 source lines) (offset : Nat) :
    ∃ above line below, lines = above ++ line :: below ∧
      lineIndex (lines.map (·.toSourceLine)) offset = above.length ∧
      Locates (utf8Size source) offset above line below := by
  -- The first line starts at 0, so some line starts at the offset or before it.
  obtain ⟨first, others, nonempty⟩ := List.exists_cons_of_ne_nil cut.nonempty
  have front : first.start = 0 := (cut.stands [] first others nonempty).start
  obtain ⟨above, line, below, split, starts, later⟩ :=
    cut.exists_last [] others nonempty (front ▸ Nat.zero_le offset)
  have size := congrArg utf8Size (cut.source_eq split)
  have place := (cut.stands _ _ _ split).start
  simp only [utf8Size_append] at size
  -- Lines above end where the next line starts, so they end at the offset or before it.
  have passed : ∀ other ∈ above, other.start + utf8Size other.written ≤ offset := by
    intro other mem
    obtain ⟨front, between, rfl⟩ := List.append_of_mem mem
    rw [List.append_assoc, List.cons_append] at split
    have next : line ∈ between ++ line :: below := List.mem_append_right _ List.mem_cons_self
    exact Nat.le_trans (cut.stop_le_start split next) starts
  refine ⟨above, line, below, split, ?_, ?_⟩
  · have length : (above.map (·.toSourceLine)).length = above.length := List.length_map _
    rw [← length]
    refine lineIndex_eq (by rw [split, List.map_append, List.map_cons]) starts ?_
    intro other mem
    obtain ⟨ended, listed, rfl⟩ := List.mem_map.mp mem
    exact later ended listed
  · exact {
      starts := starts
      later := later
      holds := by
        intro inside
        refine ⟨⟨starts, ?_⟩, ?_⟩
        · cases below with
          | nil =>
            simp only [List.flatMap_nil, utf8Size_nil] at size
            omega
          | cons next below =>
            rw [← cut.start_eq_stop split]
            exact later next List.mem_cons_self
        · intro other mem holds
          obtain ⟨first, last⟩ := holds
          rcases List.mem_append.mp mem with mem | mem
          · have ends := passed other mem
            omega
          · have begins := later other mem
            omega
      behind := by
        intro outside
        cases below with
        | nil => rfl
        | cons next below =>
          have begins := later next List.mem_cons_self
          rw [cut.start_eq_stop split] at begins
          omega }

/-! ## Lines and columns -/

/-- The offset is at a character boundary of the source or behind its end. -/
def CutsNoCharacter (source : String) (offset : Nat) : Prop :=
  String.Pos.Raw.IsValid source ⟨offset⟩ ∨ source.utf8ByteSize < offset

/-- A character boundary on a line, or in what ends it, is behind a beginning of all that the line
takes up. -/
theorem Partition.exists_piece {number : Nat} {source : String} {lines above below : List EndedLine}
    {line : EndedLine} {offset : Nat} (cut : Partition number 0 source.toList lines)
    (split : lines = above ++ line :: below) (starts : line.start ≤ offset)
    (valid : String.Pos.Raw.IsValid source ⟨offset⟩)
    (inside : offset ≤ line.start + utf8Size line.written) :
    ∃ piece rest, line.written = piece ++ rest ∧ offset = line.start + utf8Size piece := by
  have place : line.start = utf8Size (above.flatMap EndedLine.written) := by
    rw [(cut.stands _ _ _ split).start, Nat.zero_add]
  obtain ⟨front, back, parts, rfl⟩ := exists_of_isValid valid
  have whole := parts.symm.trans (cut.source_eq split)
  -- In front of the offset is all that is above, and a beginning of the line.
  obtain ⟨piece, rfl, behind⟩ := exists_of_utf8Size_le (by omega) whole.symm
  rw [utf8Size_append, ← place] at inside ⊢
  obtain ⟨rest, written, -⟩ := exists_of_utf8Size_le (by omega) behind.symm
  exact ⟨piece, rest, written, rfl⟩

/-- An offset on a line cuts its text in two, behind the text at its end, and the column is the
length of the first part. -/
theorem Partition.exists_cut {number : Nat} {source : String} {lines above below : List EndedLine}
    {line : EndedLine} {offset : Nat} (cut : Partition number 0 source.toList lines)
    (split : lines = above ++ line :: below) (starts : line.start ≤ offset)
    (boundary : CutsNoCharacter source offset) :
    ∃ before after, line.text = before ++ after ∧
      min offset (line.start + utf8Size line.text) = line.start + utf8Size before ∧
      column line.text (offset - line.start) = before.length := by
  by_cases behind : line.start + utf8Size line.text ≤ offset
  · have wide : utf8Size line.text ≤ offset - line.start := by omega
    exact ⟨line.text, [], (List.append_nil _).symm, Nat.min_eq_right behind, column_of_le wide⟩
  · have size := congrArg utf8Size (cut.source_eq split)
    have start := (cut.stands _ _ _ split).start
    simp only [EndedLine.written, utf8Size_append, utf8Size_toList] at size start
    have valid : String.Pos.Raw.IsValid source ⟨offset⟩ := by
      refine boundary.resolve_right fun outside => ?_
      omega
    have inside : offset ≤ line.start + utf8Size line.written := by
      rw [EndedLine.written, utf8Size_append]
      omega
    obtain ⟨before, rest, written, rfl⟩ := cut.exists_piece split starts valid inside
    obtain ⟨after, text, -⟩ := exists_of_utf8Size_le (by omega) written.symm
    refine ⟨before, after, text, Nat.min_eq_left (by omega), ?_⟩
    rw [Nat.add_sub_cancel_left, text, column_utf8Size]

/-- The index of the line of an offset, and the column of the offset in this line. -/
def placeOf (source : List Char) (offset : Nat) : Nat × Nat :=
  let lines := sourceLines source
  let index := lineIndex lines offset
  let line := lines.getD index default
  (index, column line.text (offset - line.start))

/-- The offset is at a character boundary, and not between a carriage return and its line feed. -/
structure Addressable (source : String) (offset : Nat) : Prop where
  boundary : String.Pos.Raw.IsValid source ⟨offset⟩
  outside : ∀ before after, source.toList = before ++ '\r' :: '\n' :: after →
    offset ≠ utf8Size before + 1

/-- An addressable offset lies in the text of its line or at the end of it. -/
theorem Locates.le_of_addressable {number : Nat} {source : String}
    {lines above below : List EndedLine} {line : EndedLine} {offset : Nat}
    (cut : Partition number 0 source.toList lines)
    (split : lines = above ++ line :: below)
    (located : Locates source.utf8ByteSize offset above line below)
    (addressable : Addressable source offset) : offset ≤ line.start + utf8Size line.text := by
  have whole := cut.source_eq split
  have stands := cut.stands _ _ _ split
  rw [EndedLine.written] at whole
  cases below with
  | nil =>
    have bounded : offset ≤ source.utf8ByteSize := addressable.boundary.le_utf8ByteSize
    have size := congrArg utf8Size whole
    have start := stands.start
    rw [stands.last rfl] at size
    simp only [utf8Size_append, utf8Size_toList, List.flatMap_nil, utf8Size_nil] at size
    omega
  | cons next below =>
    have inside := located.later next List.mem_cons_self
    rw [cut.start_eq_stop split, EndedLine.written, utf8Size_append] at inside
    have ends := stands.ended (List.cons_ne_nil _ _)
    generalize line.ending = ending at whole inside ends
    cases ends with
    | feed =>
      have one : utf8Size ['\n'] = 1 := rfl
      omega
    | returnFeed =>
      have two : utf8Size ['\r', '\n'] = 2 := rfl
      have parts : source.toList = (above.flatMap EndedLine.written ++ line.text) ++
          '\r' :: '\n' :: (next :: below).flatMap EndedLine.written := by
        rw [whole]
        simp only [List.append_assoc, List.cons_append, List.nil_append]
      have outside := addressable.outside _ _ parts
      rw [utf8Size_append] at outside
      have start := stands.start
      omega

/-- The lines of a source partition it, offsets lie on them, and places in them stand for offsets. -/
structure Recoverable (source : String) (lines : List EndedLine) : Prop where
  cut : Partition 1 0 source.toList lines
  found : sourceLines source.toList = lines.map (·.toSourceLine)
  located : ∀ offset, ∃ above line below, lines = above ++ line :: below ∧
    lineIndex (sourceLines source.toList) offset = above.length ∧
    Locates source.utf8ByteSize offset above line below
  offsets : ∀ offset, Addressable source offset →
    ∃ line, lines[(placeOf source.toList offset).1]? = some line ∧
      offset = line.start + utf8Size (line.text.take (placeOf source.toList offset).2)
  distinct : ∀ offset other, Addressable source offset → Addressable source other →
    offset ≠ other → placeOf source.toList offset ≠ placeOf source.toList other

/-- The place of an offset in its line. -/
theorem placeOf_eq {source : List Char} {lines above below : List EndedLine} {line : EndedLine}
    {offset : Nat} (found : sourceLines source = lines.map (·.toSourceLine))
    (split : lines = above ++ line :: below)
    (index : lineIndex (sourceLines source) offset = above.length) :
    placeOf source offset = (above.length, column line.text (offset - line.start)) := by
  have here : (sourceLines source).getD above.length default = line.toSourceLine := by
    rw [List.getD_eq_getElem?_getD, found, split]
    simp
  rw [placeOf, index, here]

/-- Lines partition every source, and line and column give back the offset. -/
theorem sourceLines_recoverable (source : String) : ∃ lines, Recoverable source lines := by
  obtain ⟨lines, cut, found⟩ := exists_partition 1 0 source.toList
  have located (offset : Nat) := cut.exists_locates offset
  rw [← found, utf8Size_toList] at located
  have offsets : ∀ offset, Addressable source offset →
      ∃ line, lines[(placeOf source.toList offset).1]? = some line ∧
        offset = line.start + utf8Size (line.text.take (placeOf source.toList offset).2) := by
    intro offset addressable
    obtain ⟨above, line, below, split, index, locates⟩ := located offset
    have inside := locates.le_of_addressable cut split addressable
    obtain ⟨before, after, text, place, columns⟩ :=
      cut.exists_cut split locates.starts (.inl addressable.boundary)
    rw [placeOf_eq found split index, columns]
    refine ⟨line, by rw [split]; simp, ?_⟩
    rw [Nat.min_eq_left inside] at place
    rw [text, List.take_left' rfl, place]
  exact ⟨lines, {
    cut := cut
    found := found
    located := located
    offsets := offsets
    distinct := by
      intro offset other addressable addressable' different same
      obtain ⟨line, stands, place⟩ := offsets offset addressable
      obtain ⟨line', stands', place'⟩ := offsets other addressable'
      rw [same, stands'] at stands
      -- Both are in one line, behind equally many of its characters.
      cases stands
      rw [same, ← place'] at place
      exact different place }⟩

/-- A stray carriage return is part of its line, one in front of a line feed is not. -/
example : sourceLines "é\r\n\rb\n".toList =
    [⟨1, 0, ['é']⟩, ⟨2, 4, ['\r', 'b']⟩, ⟨3, 7, []⟩] := rfl

end BlockScript
