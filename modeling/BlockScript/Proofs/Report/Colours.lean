import BlockScript.Proofs.Report.Excerpt

/-!
# Colours leave the texts of the user alone

Every fragment of a report is painted on its own, and the texts of the user are not painted at all. So
a `§` in such a text is never taken for markup, whatever stands next to it, and both styles show the
text as it is. If no text holds an escape character, then all escapes in a coloured report are those of
the template, and without them it is the plain report (`withoutEscapes_show`). `Report.Faithful` says
both, and `reports_faithful` that all reports are so.
-/

namespace BlockScript

/-- The text of a fragment, before it is painted. -/
def Fragment.text : Fragment → List Char
  | markup text => text.toList
  | verbatim text => text

/-- A fragment in which no escape of a terminal begins. -/
def Fragment.Free (fragment : Fragment) : Prop := '\x1b' ∉ fragment.text

instance : DecidablePred Fragment.Free :=
  fun fragment => inferInstanceAs (Decidable ('\x1b' ∉ fragment.text))

/-- A coloured report without its escapes is the plain report. -/
theorem withoutEscapes_show {report : Report} (free : ∀ fragment ∈ report, fragment.Free) :
    withoutEscapes (report.show .coloured).toList = (report.show .plain).toList := by
  rw [toList_show, toList_show]
  induction report with
  | nil => rw [List.flatMap_nil, List.flatMap_nil, withoutEscapes]
  | cons fragment report ih =>
    obtain ⟨here, others⟩ := List.forall_mem_cons.mp free
    rw [List.flatMap_cons, List.flatMap_cons, ← ih others]
    cases fragment with
    | markup template => exact withoutEscapes_paint here _
    | verbatim text => exact withoutEscapes_append here _

/-! ## Where escapes may begin -/

theorem Fragment.free_between {front middle back : String} (first : '\x1b' ∉ front.toList)
    (second : '\x1b' ∉ middle.toList) (third : '\x1b' ∉ back.toList) :
    (markup (front ++ middle ++ back)).Free := by
  rw [Free, text, String.toList_append, String.toList_append, List.mem_append, List.mem_append]
  simp only [first, second, third, or_self, not_false_iff]

theorem not_mem_shownText {text : List Char} (free : '\x1b' ∉ text) : '\x1b' ∉ shownText text := by
  intro mem
  obtain ⟨c, inside, same⟩ := List.mem_map.mp mem
  split at same
  · exact absurd same (by decide)
  · exact free (same ▸ inside)

/-- A line is a part of the source. -/
theorem subset_of_mem_sourceLines {source : List Char} {line : SourceLine}
    (mem : line ∈ sourceLines source) : line.text ⊆ source := by
  obtain ⟨lines, cut, found⟩ := exists_partition 1 0 source
  rw [sourceLines, found] at mem
  obtain ⟨ended, listed, rfl⟩ := List.mem_map.mp mem
  rw [← cut.joined]
  exact fun c inside => List.mem_flatMap.mpr ⟨ended, listed, List.mem_append_left _ inside⟩

theorem free_contextLine {line? : Option SourceLine} (free : ∀ line ∈ line?, '\x1b' ∉ line.text) :
    ∀ fragment ∈ contextLine line?, fragment.Free := by
  cases line? with
  | none => exact List.forall_mem_nil _
  | some line =>
    simp only [contextLine, List.forall_mem_cons]
    exact ⟨by decide, not_mem_shownText (free line rfl), by decide, List.forall_mem_nil _⟩

theorem Excerpt.not_mem_ofLine {line : SourceLine} (free : '\x1b' ∉ line.text) (span : Span) :
    '\x1b' ∉ (ofLine line span).before ∧ '\x1b' ∉ (ofLine line span).marked ∧
      '\x1b' ∉ (ofLine line span).after := by
  have shown := not_mem_shownText free
  refine ⟨fun mem => shown ?_, fun mem => shown ?_, fun mem => shown ?_⟩
  · exact List.take_subset _ _ mem
  · exact List.drop_subset _ _ (List.take_subset _ _ mem)
  · exact List.drop_subset _ _ mem

/-- In the report of a diagnostic an escape begins in the source, in the name of the file or in the
message, if anywhere. -/
theorem Diagnostic.free_report {diagnostic : Diagnostic} {source file : String}
    (sourceFree : '\x1b' ∉ source.toList) (fileFree : '\x1b' ∉ file.toList)
    (messageFree : '\x1b' ∉ diagnostic.message.toList) :
    ∀ fragment ∈ diagnostic.report source file, fragment.Free := by
  have free : ∀ line ∈ sourceLines source.toList, '\x1b' ∉ line.text :=
    fun line mem inside => sourceFree (subset_of_mem_sourceLines mem inside)
  unfold report
  dsimp only
  generalize sourceLines source.toList = lines at free ⊢
  generalize lineIndex lines diagnostic.span.start = index
  have context (index : Nat) : ∀ line ∈ lines[index]?, '\x1b' ∉ line.text :=
    fun line found => free line (List.mem_of_getElem? found)
  -- Above the first line there is no context.
  have previous : ∀ line ∈ (if index = 0 then none else lines[index - 1]?), '\x1b' ∉ line.text := by
    split
    · exact fun line none => nomatch none
    · exact context (index - 1)
  -- A line that is missing would be shown as an empty one.
  have here : '\x1b' ∉ (lines.getD index default).text := by
    rw [List.getD_eq_getElem?_getD]
    cases found : lines[index]? with
    | none => exact List.not_mem_nil
    | some line => exact context index line found
  obtain ⟨before, marked, after⟩ := Excerpt.not_mem_ofLine here diagnostic.span
  generalize Excerpt.ofLine (lines.getD index default) diagnostic.span = excerpt
    at before marked after ⊢
  have carets : '\x1b' ∉ excerpt.carets.toList := by
    rw [Excerpt.carets, String.toList_ofList]
    exact fun mem => absurd (List.eq_of_mem_replicate mem) (by decide)
  have blanks : '\x1b' ∉ List.replicate excerpt.before.length ' ' :=
    fun mem => absurd (List.eq_of_mem_replicate mem) (by decide)
  have category : '\x1b' ∉ diagnostic.category.name.toList := by
    cases diagnostic.category <;> decide
  simp only [List.forall_mem_append, List.forall_mem_cons, List.not_mem_nil, IsEmpty.forall_iff,
    implies_true, and_true, and_assoc]
  exact ⟨by decide, by decide, fileFree,
    Fragment.free_between (by decide) (not_mem_toString (by decide) _) (by decide),
    free_contextLine previous,
    by decide, before, by decide, marked, by decide, after, by decide, blanks,
    Fragment.free_between (by decide) carets (by decide),
    free_contextLine (context (index + 1)),
    Fragment.free_between (by decide) category (by decide), messageFree, by decide⟩

theorem Crash.free_labelled (label : String) {value : String} (first : '\x1b' ∉ label.toList)
    (second : '\x1b' ∉ value.toList) : ∀ fragment ∈ labelled label value, fragment.Free := by
  simp only [labelled, List.forall_mem_cons]
  exact ⟨Fragment.free_between (by decide) first (by decide), second, by decide,
    List.forall_mem_nil _⟩

/-- The texts that a crash brings with it. -/
def Crash.texts (crash : Crash) : List String :=
  crash.category :: crash.message :: (crash.location?.toList ++ [crash.trace])

/-- In the report of a crash an escape begins in one of its texts, if anywhere. -/
theorem Crash.free_report {crash : Crash} (free : ∀ text ∈ crash.texts, '\x1b' ∉ text.toList) :
    ∀ fragment ∈ crash.report, fragment.Free := by
  obtain ⟨category, message, location?, trace⟩ := crash
  simp only [texts, List.forall_mem_cons, List.forall_mem_append] at free
  obtain ⟨categoryFree, messageFree, locationFree, traceFree, -⟩ := free
  have category := free_labelled "Type" (by decide) categoryFree
  have message := free_labelled "Message" (by decide) messageFree
  have trace := free_labelled "Stack" (by decide) traceFree
  have template : ∀ fragment ∈ [Fragment.markup "§e§u§l:( The BlockScript compiler has crashed:§r\n",
      .markup "Please note, that this is not a problem with your code!\n\n",
      .markup "§l§uFurther information:§r\n\n"], fragment.Free := by
    decide
  simp only [report, List.forall_mem_append]
  refine ⟨⟨⟨⟨template, category⟩, message⟩, ?_⟩, trace⟩
  cases location? with
  | none => exact List.forall_mem_nil _
  | some location =>
    exact free_labelled "Location" (by decide) (locationFree location (List.mem_singleton.mpr rfl))

/-! ## Reports are faithful -/

/-- A report shows its texts as they are, and its colours are all that the styles do not share. -/
structure Report.Faithful (report : Report) (shown : Style → String) (texts : List String) :
    Prop where
  verbatim : ∀ style, report.show style = shown style
  uncoloured : (∀ text ∈ texts, '\x1b' ∉ text.toList) →
    withoutEscapes (report.show .coloured).toList = (report.show .plain).toList

/-- Reports of diagnostics and of crashes are faithful, whatever markup the texts of the user hold. -/
theorem reports_faithful (diagnostic : Diagnostic) (crash : Crash) (source file : String)
    (forwards : diagnostic.span.start ≤ diagnostic.span.stop) :
    (∃ scene above line below,
      Scene.Quotes scene source diagnostic.span.start above line below ∧
        scene.excerpt = Excerpt.ofLine line.toSourceLine diagnostic.span ∧
        (diagnostic.report source file).Faithful
          (Scene.shown · scene file diagnostic.category.name diagnostic.message)
          [source, file, diagnostic.message]) ∧
      crash.report.Faithful crash.shown crash.texts := by
  refine ⟨?_, crash.report_show, fun free => withoutEscapes_show (Crash.free_report free)⟩
  obtain ⟨above, line, below, quotes, excerpt⟩ := diagnostic.exists_quotes source forwards
  refine ⟨_, above, line, below, quotes, excerpt, diagnostic.report_show source file, fun free => ?_⟩
  simp only [List.forall_mem_cons] at free
  obtain ⟨sourceFree, fileFree, messageFree, -⟩ := free
  exact withoutEscapes_show (Diagnostic.free_report sourceFree fileFree messageFree)

/-- Texts that are full of markup, next to the markup of the templates. The marked text ends with a
blank for a tab. -/
theorem reports_faithful_markup :
    4 ≤ 7 ∧
    (∃ scene above line below, Scene.Quotes scene "a§\n§\t§l\n§r" 4 above line below ∧
      scene.excerpt = Excerpt.ofLine line.toSourceLine ⟨4, 7⟩ ∧
      (∀ style,
        (Diagnostic.report ⟨.syntaxError, "§c§§1", ⟨4, 7⟩⟩ "a§\n§\t§l\n§r" "§4.bs").show style =
          scene.shown style "§4.bs" "SyntaxError" "§c§§1") ∧
      scene.shown .plain "§4.bs" "SyntaxError" "§c§§1" =
        "Exception occurred while compiling:\n  File \"§4.bs\", line 2\n" ++
          "    a§\n    § §l\n    ^^\n    §r\nSyntaxError: §c§§1\n") ∧
    withoutEscapes ((Diagnostic.report ⟨.syntaxError, "§c§§1", ⟨4, 7⟩⟩
        "a§\n§\t§l\n§r" "§4.bs").show .coloured).toList =
      ((Diagnostic.report ⟨.syntaxError, "§c§§1", ⟨4, 7⟩⟩
        "a§\n§\t§l\n§r" "§4.bs").show .plain).toList ∧
    withoutEscapes ((Crash.mk "§ki" "§" (some "§0") "§§r").report.show .coloured).toList =
      ((Crash.mk "§ki" "§" (some "§0") "§§r").report.show .plain).toList := by
  obtain ⟨⟨scene, above, line, below, quotes, excerpt, diagnostic⟩, crash⟩ :=
    reports_faithful ⟨.syntaxError, "§c§§1", ⟨4, 7⟩⟩ ⟨"§ki", "§", some "§0", "§§r"⟩
      "a§\n§\t§l\n§r" "§4.bs" (by decide)
  refine ⟨by decide, ⟨scene, above, line, below, quotes, excerpt, diagnostic.verbatim,
    (diagnostic.verbatim .plain).symm.trans ?_⟩, diagnostic.uncoloured (by decide),
    crash.uncoloured (by decide)⟩
  decide +kernel

end BlockScript
