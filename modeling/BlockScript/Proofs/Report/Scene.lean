import BlockScript.Report.Basic
import BlockScript.Proofs.Report.Markup

/-!
# What a report looks like

A `Scene` is all that the report of a diagnostic shows of its source. `Scene.shown` writes the report
out, with every colour and weight in its place, and `Diagnostic.report_show` says that reports look
like this: painting the templates and joining them with texts of the user gives exactly this text, for
any texts.
-/

namespace BlockScript

/-- How a style shows the colour or weight with this number. -/
def Style.code (style : Style) (number : String) : String := String.ofList (style.escape number)

/-- What the report of a diagnostic shows of a source. -/
structure Scene where
  number : Nat
  previous? : Option (List Char)
  excerpt : Excerpt
  next? : Option (List Char)
  deriving DecidableEq, Repr

namespace Scene

/-- A line of context. -/
def context (style : Style) : Option (List Char) → String
  | none => ""
  | some text => "    " ++ style.code "90" ++ String.ofList text ++ style.code "0" ++ "\n"

/-- The report about a scene. -/
def shown (style : Style) (scene : Scene) (file category message : String) : String :=
  style.code "4" ++ style.code "1" ++ "Exception occurred while compiling:" ++ style.code "0" ++
    "\n" ++
  "  File " ++ style.code "95" ++ "\"" ++ file ++ "\"" ++ style.code "0" ++ ", line " ++
    style.code "95" ++ toString scene.number ++ style.code "0" ++ "\n" ++
  context style scene.previous? ++
  "    " ++ String.ofList scene.excerpt.before ++
    style.code "91" ++ style.code "1" ++ String.ofList scene.excerpt.marked ++ style.code "0" ++
    String.ofList scene.excerpt.after ++
  "\n    " ++ String.ofList (List.replicate scene.excerpt.before.length ' ') ++
    style.code "91" ++ style.code "1" ++
    String.ofList (List.replicate (max 1 scene.excerpt.marked.length) '^') ++ style.code "0" ++
    "\n" ++
  context style scene.next? ++
  style.code "1" ++ style.code "35" ++ category ++ ": " ++ style.code "0" ++ style.code "95" ++
    message ++ style.code "0" ++ "\n"

end Scene

/-- An entry of the report of a crash. -/
def Crash.entry (style : Style) (label value : String) : String :=
  style.code "1" ++ label ++ ": " ++ style.code "0" ++ value ++ "\n"

/-- The report of a crash. -/
def Crash.shown (style : Style) (crash : Crash) : String :=
  style.code "93" ++ style.code "4" ++ style.code "1" ++ ":( The BlockScript compiler has crashed:" ++
    style.code "0" ++ "\n" ++
  "Please note, that this is not a problem with your code!\n\n" ++
  style.code "1" ++ style.code "4" ++ "Further information:" ++ style.code "0" ++ "\n\n" ++
  entry style "Type" crash.category ++
  entry style "Message" crash.message ++
  (match crash.location? with
    | none => ""
    | some location => entry style "Location" location) ++
  entry style "Stack" crash.trace

/-- The scene of a diagnostic about a source. -/
def Diagnostic.scene (diagnostic : Diagnostic) (source : String) : Scene :=
  let lines := sourceLines source.toList
  let index := lineIndex lines diagnostic.span.start
  let line := lines.getD index default
  let context := fun line? : Option SourceLine => line?.map fun line => shownText line.text
  ⟨line.number, context (if index = 0 then none else lines[index - 1]?),
    Excerpt.ofLine line diagnostic.span, context lines[index + 1]?⟩

/-! ## Painted templates -/

/-- Numbers are written in digits only. -/
theorem not_mem_toString {c : Char} (other : ¬ c.isDigit) (n : Nat) : c ∉ (toString n).toList := by
  intro mem
  rw [Nat.toString_eq_repr, Nat.toList_repr] at mem
  exact other (Nat.isDigit_of_mem_toDigits (b := 10) (by decide) (by decide) mem)

section
variable (style : Style)

theorem paint_title : style.paint "§u§lException occurred while compiling:§r\n".toList =
    style.escape "4" ++ (style.escape "1" ++ ("Exception occurred while compiling:".toList ++
      (style.escape "0" ++ "\n".toList))) := by
  simp [Style.paint, colourNumber?]

theorem paint_file : style.paint "  File §d\"".toList =
    "  File ".toList ++ (style.escape "95" ++ "\"".toList) := by
  simp [Style.paint, colourNumber?]

theorem paint_reset : style.paint "§r".toList = style.escape "0" := by
  simp [Style.paint, colourNumber?]

theorem paint_lineEnd : style.paint "§r\n".toList = style.escape "0" ++ "\n".toList := by
  simp [Style.paint, colourNumber?]

theorem paint_context : style.paint "    §8".toList = "    ".toList ++ style.escape "90" := by
  simp [Style.paint, colourNumber?]

theorem paint_marked : style.paint "§c§l".toList = style.escape "91" ++ style.escape "1" := by
  simp [Style.paint, colourNumber?]

theorem paint_number (number : Nat) :
    style.paint ("\"§r, line §d" ++ toString number ++ "§r\n").toList =
      "\"".toList ++ (style.escape "0" ++ (", line ".toList ++ (style.escape "95" ++
        ((toString number).toList ++ (style.escape "0" ++ "\n".toList))))) := by
  rw [String.toList_append, String.toList_append,
    Style.paint_between (by decide) (not_mem_toString (by decide) number), paint_lineEnd]
  simp [Style.paint, colourNumber?]

theorem paint_carets (excerpt : Excerpt) :
    style.paint ("§c§l" ++ excerpt.carets ++ "§r\n").toList =
      style.escape "91" ++ (style.escape "1" ++ (List.replicate (max 1 excerpt.marked.length) '^' ++
        (style.escape "0" ++ "\n".toList))) := by
  have bare : '§' ∉ excerpt.carets.toList := by
    rw [Excerpt.carets, String.toList_ofList]
    exact fun mem => absurd (List.eq_of_mem_replicate mem) (by decide)
  rw [String.toList_append, String.toList_append, Style.paint_between (by decide) bare, paint_marked,
    paint_lineEnd, Excerpt.carets, String.toList_ofList, List.append_assoc, List.append_assoc]

theorem paint_category (category : Category) :
    style.paint ("§l§5" ++ category.name ++ ": §r§d").toList =
      style.escape "1" ++ (style.escape "35" ++ (category.name.toList ++ (": ".toList ++
        (style.escape "0" ++ style.escape "95")))) := by
  have bare : '§' ∉ category.name.toList := by cases category <;> decide
  rw [String.toList_append, String.toList_append, Style.paint_between (by decide) bare]
  simp [Style.paint, colourNumber?]

end

/-! ## Reports -/

theorem toList_show (style : Style) (report : Report) :
    (report.show style).toList = report.flatMap (Fragment.show style) :=
  String.toList_ofList

theorem flatMap_contextLine (style : Style) (line? : Option SourceLine) :
    (contextLine line?).flatMap (Fragment.show style) =
      (Scene.context style (line?.map fun line => shownText line.text)).toList := by
  cases line? with
  | none => rfl
  | some line =>
    simp only [contextLine, Option.map, Scene.context, List.flatMap_cons, List.flatMap_nil,
      Fragment.show, String.toList_append, String.toList_ofList, List.append_assoc, Style.code,
      paint_context, paint_lineEnd, List.append_nil]

/-- Whatever the texts of the user are, the report of a diagnostic looks like its scene. -/
theorem Diagnostic.report_show (diagnostic : Diagnostic) (source file : String) (style : Style) :
    (diagnostic.report source file).show style =
      (diagnostic.scene source).shown style file diagnostic.category.name diagnostic.message := by
  rw [← String.toList_inj, toList_show]
  unfold report scene Scene.shown
  dsimp only
  -- Which line and which characters are shown does not matter here.
  generalize sourceLines source.toList = lines
  generalize lineIndex lines diagnostic.span.start = index
  generalize lines.getD index default = line
  generalize Excerpt.ofLine line diagnostic.span = excerpt
  simp only [List.flatMap_append, flatMap_contextLine, List.flatMap_cons, List.flatMap_nil,
    Fragment.show, paint_title, paint_file, paint_number, paint_marked, paint_reset, paint_carets,
    paint_category, paint_lineEnd]
  simp only [Style.code, String.toList_append, String.toList_ofList, List.append_assoc,
    List.append_nil]

/-- The scene of a diagnostic is its line, cut by the span, with the lines on both sides. -/
theorem Diagnostic.scene_eq {diagnostic : Diagnostic} {source : String}
    {above below : List SourceLine} {line : SourceLine}
    (split : sourceLines source.toList = above ++ line :: below)
    (index : lineIndex (sourceLines source.toList) diagnostic.span.start = above.length) :
    diagnostic.scene source =
      ⟨line.number, above.getLast?.map fun other => shownText other.text,
        Excerpt.ofLine line diagnostic.span, below.head?.map fun other => shownText other.text⟩ := by
  have here : (sourceLines source.toList).getD above.length default = line := by
    rw [List.getD_eq_getElem?_getD, split]
    simp
  have next : (sourceLines source.toList)[above.length + 1]? = below.head? := by
    rw [split, List.getElem?_append_right (Nat.le_add_right _ 1), Nat.add_sub_cancel_left,
      List.getElem?_cons_succ, List.head?_eq_getElem?]
  have previous : (if above.length = 0 then none
      else (sourceLines source.toList)[above.length - 1]?) = above.getLast? := by
    rw [split, List.getLast?_eq_getElem?]
    split
    · rename_i none
      rw [none, List.length_eq_zero_iff.mp none]
      rfl
    · exact List.getElem?_append_left (by omega)
  rw [scene, index, here, next, previous]

theorem flatMap_labelled (style : Style) (label : String) (bare : '§' ∉ label.toList)
    (value : String) :
    (Crash.labelled label value).flatMap (Fragment.show style) =
      (Crash.entry style label value).toList := by
  have painted : style.paint ("§l" ++ label ++ ": §r").toList =
      style.escape "1" ++ (label.toList ++ (": ".toList ++ style.escape "0")) := by
    rw [String.toList_append, String.toList_append, Style.paint_between (by decide) bare]
    simp [Style.paint, colourNumber?]
  simp only [Crash.labelled, Crash.entry, List.flatMap_cons, List.flatMap_nil, Fragment.show, painted]
  simp only [Style.code, String.toList_append, String.toList_ofList, List.append_assoc,
    List.append_nil]
  rfl

/-- Whatever the texts of a crash are, its report looks like this. -/
theorem Crash.report_show (crash : Crash) (style : Style) :
    crash.report.show style = crash.shown style := by
  have title : style.paint "§e§u§l:( The BlockScript compiler has crashed:§r\n".toList =
      style.escape "93" ++ (style.escape "4" ++ (style.escape "1" ++
        (":( The BlockScript compiler has crashed:".toList ++
          (style.escape "0" ++ "\n".toList)))) := by
    simp [Style.paint, colourNumber?]
  have note : style.paint "Please note, that this is not a problem with your code!\n\n".toList =
      "Please note, that this is not a problem with your code!\n\n".toList :=
    Style.paint_of_not_mem (by decide)
  have further : style.paint "§l§uFurther information:§r\n\n".toList =
      style.escape "1" ++ (style.escape "4" ++ ("Further information:".toList ++
        (style.escape "0" ++ "\n\n".toList))) := by
    simp [Style.paint, colourNumber?]
  obtain ⟨category, message, location?, trace⟩ := crash
  rw [← String.toList_inj, toList_show]
  unfold report shown
  cases location? <;>
    simp only [List.flatMap_append, flatMap_labelled style "Type" (by decide),
      flatMap_labelled style "Message" (by decide),
      flatMap_labelled style "Location" (by decide),
      flatMap_labelled style "Stack" (by decide), List.flatMap_cons, List.flatMap_nil,
      Fragment.show, title, note, further] <;>
    simp only [Style.code, String.toList_append, String.toList_ofList, String.toList_empty,
      List.append_assoc, List.append_nil]

end BlockScript
