import BlockScript.Proofs.Report.Scene
import BlockScript.Proofs.Source.Lines

/-!
# What a report points at

The report of a diagnostic shows the line on which its span starts, cut where the span starts and
where it stops. A span may run over several lines, start or stop in the end of a line, or lie behind
the source: as far as it does not lie on the text of the line, it is moved to the end of this text.
`Scene.Pictures` says this in bytes of the source, and `report_pictures` that every span that does not
run backwards and cuts no character is shown so. In particular the width of the marked text, a
difference of two columns, is no negative number.
-/

namespace BlockScript

/-- The second text is the first one with a single blank in place of each tab. -/
inductive Untabbed : List Char → List Char → Prop
  | nil : Untabbed [] []
  | tab {text shown : List Char} (rest : Untabbed text shown) :
      Untabbed ('\t' :: text) (' ' :: shown)
  | other {c : Char} {text shown : List Char} (noTab : c ≠ '\t') (rest : Untabbed text shown) :
      Untabbed (c :: text) (c :: shown)

theorem untabbed_shownText (text : List Char) : Untabbed text (shownText text) := by
  induction text with
  | nil => exact .nil
  | cons c text ih =>
    rw [shownText, List.map_cons]
    split
    · rename_i isTab
      subst isTab
      exact .tab ih
    · rename_i noTab
      exact .other noTab ih

/-- The offset behind the text of the line. -/
def EndedLine.stop (line : EndedLine) : Nat := line.start + utf8Size line.text

namespace Scene

/-- A line of context without colours. -/
def plainContext : Option (List Char) → String
  | none => ""
  | some text => "    " ++ String.ofList text ++ "\n"

/-- The report about a scene without colours. -/
def plain (scene : Scene) (file category message : String) : String :=
  "Exception occurred while compiling:\n" ++
  "  File \"" ++ file ++ "\", line " ++ toString scene.number ++ "\n" ++
  plainContext scene.previous? ++
  "    " ++ String.ofList scene.excerpt.before ++ String.ofList scene.excerpt.marked ++
    String.ofList scene.excerpt.after ++ "\n" ++
  "    " ++ String.ofList (List.replicate scene.excerpt.before.length ' ') ++
    String.ofList (List.replicate (max 1 scene.excerpt.marked.length) '^') ++ "\n" ++
  plainContext scene.next? ++
  category ++ ": " ++ message ++ "\n"

theorem shown_plain (scene : Scene) (file category message : String) :
    scene.shown .plain file category message = scene.plain file category message := by
  have code (number : String) : Style.plain.code number = "" := rfl
  have context (text? : Option (List Char)) : context .plain text? = plainContext text? := by
    cases text? with
    | none => rfl
    | some text => simp only [Scene.context, plainContext, code, String.append_empty]
  have title : "Exception occurred while compiling:" ++ "\n" =
    "Exception occurred while compiling:\n" := by decide
  have file : "  File " ++ "\"" = "  File \"" := by decide
  have line : "\"" ++ ", line " = "\", line " := by decide
  have rows : "\n" ++ "    " = "\n    " := by decide
  unfold shown plain
  simp only [code, context, String.append_empty, String.empty_append]
  rw [← title, ← file, ← line, ← rows]
  simp only [String.append_assoc]

/-- The scene shows nothing but text of the source, with a blank for each tab: the line at which the
offset lies, cut in three, and the lines next to it. -/
structure Quotes (scene : Scene) (source : String) (offset : Nat) (above : List EndedLine)
    (line : EndedLine) (below : List EndedLine) : Prop where
  cut : Partition 1 0 source.toList (above ++ line :: below)
  located : Locates source.utf8ByteSize offset above line below
  number : scene.number = line.number
  previous : Option.Rel Untabbed (above.getLast?.map fun other => other.text) scene.previous?
  next : Option.Rel Untabbed (below.head?.map fun other => other.text) scene.next?
  whole : ∃ before marked after, line.text = before ++ marked ++ after ∧
    Untabbed before scene.excerpt.before ∧ Untabbed marked scene.excerpt.marked ∧
      Untabbed after scene.excerpt.after

/-- The scene is the place of the span in the source, as far as it lies on its first line. -/
structure Pictures (scene : Scene) (source : String) (span : Span) (above : List EndedLine)
    (line : EndedLine) (below : List EndedLine) : Prop
    extends Quotes scene source span.start above line below where
  /-- Lines are counted by the line feeds in front of the span. -/
  feeds : ∃ front back, source.toList = front ++ back ∧
    utf8Size front = min span.start source.utf8ByteSize ∧ scene.number = 1 + front.count '\n'
  before : ∃ text, Span.Covers ⟨line.start, min span.start line.stop⟩ source.toList text ∧
    Untabbed text scene.excerpt.before
  marked : ∃ text,
    Span.Covers ⟨min span.start line.stop, min span.stop line.stop⟩ source.toList text ∧
      Untabbed text scene.excerpt.marked
  after : ∃ text, Span.Covers ⟨min span.stop line.stop, line.stop⟩ source.toList text ∧
    Untabbed text scene.excerpt.after
  /-- So the first column is not behind the second. -/
  columns : column line.text (span.start - line.start) = scene.excerpt.before.length ∧
    column line.text (span.stop - line.start) =
      scene.excerpt.before.length + scene.excerpt.marked.length

end Scene

theorem shownText_append (front back : List Char) :
    shownText (front ++ back) = shownText front ++ shownText back :=
  List.map_append

@[simp] theorem length_shownText (text : List Char) : (shownText text).length = text.length :=
  List.length_map _

/-- A line of context is shown without its tabs, if there is one. -/
theorem rel_map_shownText (line? : Option EndedLine) :
    Option.Rel Untabbed (line?.map fun other => other.text)
      (line?.map fun other => shownText other.text) := by
  cases line? with
  | none => exact .none
  | some line => exact .some (untabbed_shownText line.text)

/-- A line is cut between the characters at which its columns are. -/
theorem Excerpt.ofLine_eq {line : SourceLine} {span : Span} {before marked after : List Char}
    (text : line.text = before ++ marked ++ after)
    (first : column line.text (span.start - line.start) = before.length)
    (last : column line.text (span.stop - line.start) = (before ++ marked).length) :
    Excerpt.ofLine line span = ⟨shownText before, shownText marked, shownText after⟩ := by
  have size : (before ++ marked).length - before.length = (shownText marked).length := by
    rw [List.length_append, Nat.add_sub_cancel_left, length_shownText]
  rw [ofLine, first, last, size, text, shownText_append, ← length_shownText before,
    ← length_shownText (before ++ marked), List.drop_left, shownText_append, List.append_assoc,
    List.take_left, List.drop_left, List.take_left]

/-- A span that does not run backwards cuts a line in three. -/
theorem Excerpt.exists_ofLine_eq (line : SourceLine) {span : Span}
    (forwards : span.start ≤ span.stop) :
    ∃ before marked after, line.text = before ++ marked ++ after ∧
      ofLine line span = ⟨shownText before, shownText marked, shownText after⟩ := by
  have le : column line.text (span.start - line.start) ≤ column line.text (span.stop - line.start) :=
    column_mono _ (Nat.sub_le_sub_right forwards _)
  rw [ofLine]
  generalize column line.text (span.start - line.start) = first at le ⊢
  generalize column line.text (span.stop - line.start) = last at le ⊢
  have rest : (line.text.drop first).drop (last - first) = line.text.drop last := by
    rw [List.drop_drop, Nat.add_sub_cancel' le]
  refine ⟨line.text.take first, (line.text.drop first).take (last - first), line.text.drop last,
    ?_, ?_⟩
  · rw [← rest, List.append_assoc, List.take_append_drop, List.take_append_drop]
  · simp only [shownText, List.map_take, List.map_drop]

/-- The scene of a diagnostic quotes the source, its line cut by the span. -/
theorem Diagnostic.exists_quotes (diagnostic : Diagnostic) (source : String)
    (forwards : diagnostic.span.start ≤ diagnostic.span.stop) :
    ∃ above line below,
      Scene.Quotes (diagnostic.scene source) source diagnostic.span.start above line below ∧
        (diagnostic.scene source).excerpt = Excerpt.ofLine line.toSourceLine diagnostic.span := by
  obtain ⟨lines, cut, numbered⟩ := exists_partition 1 0 source.toList
  obtain ⟨above, line, below, rfl, index, located⟩ := cut.exists_locates diagnostic.span.start
  rw [utf8Size_toList] at located
  have found : sourceLines source.toList = above.map (·.toSourceLine) ++
      line.toSourceLine :: below.map (·.toSourceLine) := by
    rw [sourceLines, numbered, List.map_append, List.map_cons]
  have index : lineIndex (sourceLines source.toList) diagnostic.span.start =
      (above.map (·.toSourceLine)).length := by
    rw [found, ← List.map_cons, ← List.map_append, index, List.length_map]
  have scene : diagnostic.scene source = _ := scene_eq found index
  refine ⟨above, line, below, ?_, by rw [scene]⟩
  rw [scene]
  exact {
    cut := cut
    located := located
    number := rfl
    previous := by
      rw [List.getLast?_map, Option.map_map]
      exact rel_map_shownText above.getLast?
    next := by
      rw [List.head?_map, Option.map_map]
      exact rel_map_shownText below.head?
    whole := by
      obtain ⟨before, marked, after, text, cut⟩ :=
        Excerpt.exists_ofLine_eq line.toSourceLine forwards
      rw [cut]
      exact ⟨before, marked, after, text, untabbed_shownText before, untabbed_shownText marked,
        untabbed_shownText after⟩ }

/-! ## Counting line feeds -/

namespace EndedLine.Stands

variable {line : EndedLine} {number start : Nat} {above below : List EndedLine}

/-- A line that is not the last one takes up one line feed, which is its last character. -/
theorem count_written (stands : line.Stands number start above below) (more : below ≠ []) :
    line.written.count '\n' = 1 := by
  have none : line.text.count '\n' = 0 := List.count_eq_zero.mpr stands.whole
  rw [written, List.count_append, none]
  have ends := stands.ended more
  generalize line.ending = ending at ends
  cases ends <;> rfl

theorem getLast?_written (stands : line.Stands number start above below) (more : below ≠ []) :
    line.written.getLast? = some '\n' := by
  have ends := stands.ended more
  rw [written]
  generalize line.ending = ending at ends
  cases ends with
  | feed => exact List.getLast?_concat
  | returnFeed =>
    rw [List.append_cons]
    exact List.getLast?_concat

/-- In front of the last character of a line there is no line feed. -/
theorem not_mem_of_written (stands : line.Stands number start above below) {front back : List Char}
    (split : line.written = front ++ back) (inside : below ≠ [] → back ≠ []) : '\n' ∉ front := by
  by_cases last : below = []
  · intro mem
    have mem : '\n' ∈ line.written := split ▸ List.mem_append_left back mem
    rw [written, stands.last last, List.append_nil] at mem
    exact stands.whole mem
  · have once := stands.count_written last
    have final := stands.getLast?_written last
    rw [split, List.getLast?_append, Option.or_of_isSome (by simpa using inside last)] at final
    have behind := List.count_pos_iff.mpr (List.mem_of_getLast? final)
    rw [split, List.count_append] at once
    exact List.count_eq_zero.mp (by omega)

end EndedLine.Stands

theorem count_flatMap_written {above : List EndedLine}
    (once : ∀ other ∈ above, other.written.count '\n' = 1) :
    (above.flatMap EndedLine.written).count '\n' = above.length := by
  induction above with
  | nil => rfl
  | cons first above ih =>
    obtain ⟨here, others⟩ := List.forall_mem_cons.mp once
    rw [List.flatMap_cons, List.count_append, here, ih others, List.length_cons, Nat.add_comm]

section
variable {number : Nat} {source : String} {lines above below : List EndedLine} {line : EndedLine}

theorem Partition.count_above (cut : Partition number 0 source.toList lines)
    (split : lines = above ++ line :: below) :
    (above.flatMap EndedLine.written).count '\n' = above.length := by
  refine count_flatMap_written fun other mem => ?_
  obtain ⟨higher, lower, rfl⟩ := List.append_of_mem mem
  rw [List.append_assoc, List.cons_append] at split
  exact (cut.stands _ _ _ split).count_written (by simp)

/-- There are as many line feeds in front of an offset as there are lines above its line. -/
theorem Partition.exists_front {offset : Nat} (cut : Partition number 0 source.toList lines)
    (split : lines = above ++ line :: below)
    (located : Locates source.utf8ByteSize offset above line below)
    (boundary : CutsNoCharacter source offset) :
    ∃ front back, source.toList = front ++ back ∧ utf8Size front = min offset source.utf8ByteSize ∧
      front.count '\n' = above.length := by
  have whole := cut.source_eq split
  have stands := cut.stands _ _ _ split
  -- In front of the offset are all lines above, and a part of its line without a line feed.
  have enough {piece rest : List Char} (written : line.written = piece ++ rest)
      (inside : below ≠ [] → rest ≠ [])
      (size : line.start + utf8Size piece = min offset source.utf8ByteSize) :
      ∃ front back, source.toList = front ++ back ∧
        utf8Size front = min offset source.utf8ByteSize ∧ front.count '\n' = above.length := by
    refine ⟨above.flatMap EndedLine.written ++ piece, rest ++ below.flatMap EndedLine.written,
      ?_, ?_, ?_⟩
    · rw [whole, written]
      simp only [List.append_assoc]
    · rw [← size, stands.start, Nat.zero_add, utf8Size_append]
    · have unbroken := stands.not_mem_of_written written inside
      rw [List.count_append, cut.count_above split, List.count_eq_zero.mpr unbroken, Nat.add_zero]
  by_cases behind : source.utf8ByteSize ≤ offset
  · have none := located.behind behind
    subst none
    refine enough (List.append_nil _).symm (fun more => absurd rfl more) ?_
    rw [Nat.min_eq_right behind, ← utf8Size_toList, whole, List.flatMap_nil, List.append_nil,
      utf8Size_append, stands.start, Nat.zero_add]
  · have valid : String.Pos.Raw.IsValid source ⟨offset⟩ := boundary.resolve_right (by omega)
    obtain ⟨-, ends⟩ := (located.holds (by omega)).1
    obtain ⟨piece, rest, written, rfl⟩ :=
      cut.exists_piece split located.starts valid (Nat.le_of_lt ends)
    refine enough written (fun _ none => ?_) (Nat.min_eq_left (by omega)).symm
    rw [written, none, List.append_nil] at ends
    omega

end

/-- The plain report of a diagnostic shows the place of its span. -/
theorem Diagnostic.report_pictures (diagnostic : Diagnostic) (source file : String)
    (forwards : diagnostic.span.start ≤ diagnostic.span.stop)
    (first : CutsNoCharacter source diagnostic.span.start)
    (last : CutsNoCharacter source diagnostic.span.stop) :
    ∃ scene above line below, Scene.Pictures scene source diagnostic.span above line below ∧
      (diagnostic.report source file).show .plain =
        scene.plain file diagnostic.category.name diagnostic.message := by
  obtain ⟨above, line, below, quotes, excerpt⟩ := diagnostic.exists_quotes source forwards
  obtain ⟨cut, located, number, -⟩ := id quotes
  have stands := cut.stands _ _ _ rfl
  obtain ⟨before, rest, text, start, firstColumn⟩ := cut.exists_cut rfl located.starts first
  obtain ⟨taken, after, text', stop, lastColumn⟩ :=
    cut.exists_cut rfl (Nat.le_trans located.starts forwards) last
  -- As the span does not run backwards, the second cut is behind the first.
  obtain ⟨marked, rfl, rfl⟩ := exists_of_utf8Size_le (by omega) (text.symm.trans text')
  rw [Excerpt.ofLine_eq text' firstColumn lastColumn] at excerpt
  -- From here on, all places are sizes of what is in front of them.
  let front := above.flatMap EndedLine.written
  obtain ⟨back, whole⟩ : ∃ back, source.toList = front ++ before ++ marked ++ after ++ back := by
    refine ⟨line.ending ++ below.flatMap EndedLine.written, ?_⟩
    rw [cut.source_eq rfl, EndedLine.written, text']
    simp only [front, List.append_assoc]
  have lineStart : line.start = utf8Size front := by rw [stands.start, Nat.zero_add]
  have firstCut : min diagnostic.span.start line.stop = utf8Size (front ++ before) := by
    rw [EndedLine.stop, start, lineStart, ← utf8Size_append]
  have lastCut : min diagnostic.span.stop line.stop = utf8Size (front ++ before ++ marked) := by
    rw [EndedLine.stop, stop, lineStart, List.append_assoc, ← utf8Size_append]
  have lineStop : line.stop = utf8Size (front ++ before ++ marked ++ after) := by
    rw [EndedLine.stop, text', lineStart, ← utf8Size_append]
    simp only [List.append_assoc]
  obtain ⟨shownBefore, shownMarked, shownAfter⟩ :
      Untabbed before (diagnostic.scene source).excerpt.before ∧
        Untabbed marked (diagnostic.scene source).excerpt.marked ∧
        Untabbed after (diagnostic.scene source).excerpt.after := by
    rw [excerpt]
    exact ⟨untabbed_shownText before, untabbed_shownText marked, untabbed_shownText after⟩
  refine ⟨diagnostic.scene source, above, line, below, ?_, by rw [report_show, Scene.shown_plain]⟩
  exact {
    quotes with
    feeds := by
      obtain ⟨ahead, behind, parts, size, feeds⟩ := cut.exists_front rfl located first
      exact ⟨ahead, behind, parts, size, by rw [number, stands.number, feeds]⟩
    before := by
      have parts : source.toList = front ++ before ++ (marked ++ after ++ back) := by
        rw [whole]
        simp only [List.append_assoc]
      exact ⟨before, .of_eq parts lineStart firstCut, shownBefore⟩
    marked := by
      have parts : source.toList = front ++ before ++ marked ++ (after ++ back) := by
        rw [whole, List.append_assoc]
      exact ⟨marked, .of_eq parts firstCut lastCut, shownMarked⟩
    after := ⟨after, .of_eq whole lastCut lineStop, shownAfter⟩
    columns := by
      rw [excerpt, lastColumn, firstColumn, List.length_append, length_shownText, length_shownText]
      exact ⟨rfl, rfl⟩ }

/-- A span that starts at a tab behind `é` and runs over the end of the line into the next one. It is
shown as far as the first line goes, with a blank for the tab. -/
theorem Diagnostic.report_pictures_acrossLines :
    (2 ≤ 7 ∧ CutsNoCharacter "é\tb\r\nx y" 2 ∧ CutsNoCharacter "é\tb\r\nx y" 7) ∧
      ∃ scene above line below, Scene.Pictures scene "é\tb\r\nx y" ⟨2, 7⟩ above line below ∧
        ((Diagnostic.mk .syntaxError "two lines" ⟨2, 7⟩).report "é\tb\r\nx y" "a.bs").show .plain =
          scene.plain "a.bs" "SyntaxError" "two lines" ∧
        scene.plain "a.bs" "SyntaxError" "two lines" =
          "Exception occurred while compiling:\n  File \"a.bs\", line 1\n" ++
            "    é b\n     ^^\n    x y\nSyntaxError: two lines\n" := by
  have atTab : "é\tb\r\nx y".toList = ['é'] ++ ['\t', 'b', '\r', '\n', 'x', ' ', 'y'] := rfl
  have atBlank : "é\tb\r\nx y".toList = ['é', '\t', 'b', '\r', '\n', 'x'] ++ [' ', 'y'] := rfl
  have first : CutsNoCharacter "é\tb\r\nx y" 2 := .inl (isValid_utf8Size atTab)
  have last : CutsNoCharacter "é\tb\r\nx y" 7 := .inl (isValid_utf8Size atBlank)
  obtain ⟨scene, above, line, below, pictures, report⟩ :=
    report_pictures ⟨.syntaxError, "two lines", ⟨2, 7⟩⟩ _ _ (by decide) first last
  refine ⟨⟨by decide, first, last⟩, scene, above, line, below, pictures, report,
    report.symm.trans ?_⟩
  decide +kernel

end BlockScript
