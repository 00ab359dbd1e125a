import BlockScript.Token.Basic

/-!
# Lines of a source

A source is cut at its line feeds; a carriage return right before a line feed belongs to the
end of the line and not to its text. An offset lies on the last line that starts at or before
it, so that the end of a line counts to the line that it ends, and offsets behind the source to
its last line.
-/

namespace BlockScript

/-- A line of a source, without what ends it. -/
structure SourceLine where
  /-- Lines are counted from one. -/
  number : Nat
  /-- The offset of the first byte. -/
  start : Nat
  text : List Char
  deriving DecidableEq, Repr, Inhabited

/-- The text between the line feeds; there is one more than there are line feeds. -/
def splitAtLineFeeds : List Char → List (List Char)
  | [] => [[]]
  | c :: rest =>
      match splitAtLineFeeds rest with
      | [] => [[c]]
      | line :: others => if c = '\n' then [] :: line :: others else (c :: line) :: others

/-- A line without the carriage return at its end. -/
def withoutReturn (line : List Char) : List Char :=
  if line.getLast? = some '\r' then line.dropLast else line

/-- Numbers lines, the first of which starts at `start`. All but the last end in a line feed. -/
def numberLines (number start : Nat) : List (List Char) → List SourceLine
  | [] => []
  | [last] => [⟨number, start, last⟩]
  | line :: others =>
      ⟨number, start, withoutReturn line⟩ ::
        numberLines (number + 1) (start + utf8Size line + 1) others

/-- The lines of a source. There is always at least one. -/
def sourceLines (source : List Char) : List SourceLine :=
  numberLines 1 0 (splitAtLineFeeds source)

/-- The index of the line on which a byte offset lies. Lines are searched from the last one on, and
the first one is taken if none starts so early. -/
def lineIndex (lines : List SourceLine) (offset : Nat) : Nat :=
  match lines.reverse.findIdx? (·.start ≤ offset) with
  | some behind => lines.length - 1 - behind
  | none => 0

/-- How many characters of a text start before a byte offset. -/
def column : List Char → Nat → Nat
  | [], _ => 0
  | c :: rest, offset => if offset = 0 then 0 else column rest (offset - c.utf8Size) + 1

end BlockScript
