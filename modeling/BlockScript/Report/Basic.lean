import BlockScript.Fault
import BlockScript.Report.Style
import BlockScript.Source.Lines

/-!
# Reports

A report is a list of fragments. Fragments of the template may hold colour markup, and are
painted each on its own; fragments that come from the user (source text, file names, messages)
are shown as they are, so that nothing in them is ever taken for markup.

The report of a diagnostic shows the line on which its span starts, with the span marked and
underlined and one line of context on either side. Tabs are shown as single blanks.
-/

namespace BlockScript

/-- A part of a report. -/
inductive Fragment
  /-- A text of the template, which may hold markup. -/
  | markup (text : String)
  /-- A text that is shown as it is. -/
  | verbatim (text : List Char)
  deriving DecidableEq, Repr

/-- A fragment as it is shown. -/
def Fragment.show (style : Style) : Fragment → List Char
  | markup text => style.paint text.toList
  | verbatim text => text

/-- A report. -/
abbrev Report := List Fragment

/-- A report as it is shown. -/
def Report.show (style : Style) (report : Report) : String :=
  String.ofList (report.flatMap (Fragment.show style))

/-- Source text as it is shown: a tab is a single blank. -/
def shownText (text : List Char) : List Char :=
  text.map fun c => if c = '\t' then ' ' else c

/-- A line of context. -/
def contextLine : Option SourceLine → Report
  | none => []
  | some line => [.markup "    §8", .verbatim (shownText line.text), .markup "§r\n"]

/-- The line on which a span starts, cut into the text before the span, in it and after it. -/
structure Excerpt where
  before : List Char
  marked : List Char
  after : List Char
  deriving DecidableEq, Repr

/-- Cuts a line at the ends of a span, as far as they lie on it. -/
def Excerpt.ofLine (line : SourceLine) (span : Span) : Excerpt :=
  let text := shownText line.text
  let start := column line.text (span.start - line.start)
  let stop := column line.text (span.stop - line.start)
  ⟨text.take start, (text.drop start).take (stop - start), text.drop stop⟩

/-- The carets under the marked text; there is at least one. -/
def Excerpt.carets (excerpt : Excerpt) : String :=
  String.ofList (List.replicate (max 1 excerpt.marked.length) '^')

/-- The report of a diagnostic about a source. -/
def Diagnostic.report (diagnostic : Diagnostic) (source file : String) : Report :=
  let lines := sourceLines source.toList
  let index := lineIndex lines diagnostic.span.start
  let line := lines.getD index default
  let excerpt := Excerpt.ofLine line diagnostic.span
  [.markup "§u§lException occurred while compiling:§r\n",
    .markup "  File §d\"",
    .verbatim file.toList,
    .markup ("\"§r, line §d" ++ toString line.number ++ "§r\n")] ++
  contextLine (if index = 0 then none else lines[index - 1]?) ++
  [.verbatim "    ".toList,
    .verbatim excerpt.before,
    .markup "§c§l",
    .verbatim excerpt.marked,
    .markup "§r",
    .verbatim excerpt.after,
    .verbatim "\n    ".toList,
    .verbatim (List.replicate excerpt.before.length ' '),
    .markup ("§c§l" ++ excerpt.carets ++ "§r\n")] ++
  contextLine lines[index + 1]? ++
  [.markup ("§l§5" ++ diagnostic.category.name ++ ": §r§d"),
    .verbatim diagnostic.message.toList,
    .markup "§r\n"]

/-- A defect of the compiler itself that stopped it. -/
structure Crash where
  category : String
  message : String
  location? : Option String
  trace : String
  deriving DecidableEq, Repr, Inhabited

namespace Crash

/-- A computation that was stopped, with the message that it left, if it left a text. -/
def stopped (message? : Option String) (location? : Option String) (trace : String) : Crash :=
  ⟨"panic", message?.getD "unknown panic payload", location?, trace⟩

/-- A labelled line of a crash report. -/
def labelled (label value : String) : Report :=
  [.markup ("§l" ++ label ++ ": §r"), .verbatim value.toList, .verbatim ['\n']]

/-- The report of a crash. -/
def report (crash : Crash) : Report :=
  [.markup "§e§u§l:( The BlockScript compiler has crashed:§r\n",
    .markup "Please note, that this is not a problem with your code!\n\n",
    .markup "§l§uFurther information:§r\n\n"] ++
  labelled "Type" crash.category ++
  labelled "Message" crash.message ++
  (match crash.location? with
    | none => []
    | some location => labelled "Location" location) ++
  labelled "Stack" crash.trace

end Crash

end BlockScript
