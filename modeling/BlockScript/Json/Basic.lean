import BlockScript.Number.Layout

/-!
# JSON values and their text

Trees and tokens are dumped as JSON. A value keeps the fields of its objects in the order in
which they are written; the encoders list them by the order of their keys. There is one printer
for both layouts of the text: on one line, or with every item on a line of its own.
-/

namespace BlockScript

/-- A JSON value. -/
inductive Json
  | null
  | bool (value : Bool)
  /-- A natural number, written in full. -/
  | natural (value : Nat)
  /-- A double, which must be finite: JSON has no others. -/
  | number (value : Binary64) (finite : value.isFinite)
  | text (value : String)
  | array (items : List Json)
  | object (fields : List (String × Json))
  deriving Repr, Inhabited

namespace Json

/-- A digit of a hexadecimal number, in lower case. -/
def hexDigit (value : Nat) : Char := Nat.digitChar (value % 16)

/-- A character of a text as it is written: quotes, backslashes and control characters are
escaped, and everything else stands for itself. -/
def escape (c : Char) : List Char :=
  if c = '"' then ['\\', '"']
  else if c = '\\' then ['\\', '\\']
  else if c = '\n' then ['\\', 'n']
  else if c = '\r' then ['\\', 'r']
  else if c = '\t' then ['\\', 't']
  else if c = '\x08' then ['\\', 'b']
  else if c = '\x0c' then ['\\', 'f']
  else if c.toNat < 0x20 then ['\\', 'u', '0', '0', hexDigit (c.toNat / 16), hexDigit c.toNat]
  else [c]

/-- A text with its quotes. -/
def quoted (text : String) : List Char := '"' :: text.toList.flatMap escape ++ ['"']

/-- What separates items at this depth: a line break and two spaces a level, or nothing when
the text stays on one line. -/
def lineBreak : Option Nat → List Char
  | none => []
  | some depth => '\n' :: List.replicate (2 * depth) ' '

/-- A key and what separates it from its value. -/
def label (depth? : Option Nat) (key : String) : List Char :=
  quoted key ++ (if depth?.isSome then [':', ' '] else [':'])

mutual

/-- The text of a value in front of `rest`. The value stands `depth?` levels deep, or on one
line without a depth. Each text is put in front of what follows it, and so is built once. -/
def before (depth? : Option Nat) (rest : List Char) : Json → List Char
  | null => "null".toList ++ rest
  | bool true => "true".toList ++ rest
  | bool false => "false".toList ++ rest
  | natural n => Nat.toDigits 10 n ++ rest
  | number x _ => Layout.dump.write x ++ rest
  | text value => quoted value ++ rest
  | array [] => '[' :: ']' :: rest
  | array items =>
      let inner := depth?.map (· + 1)
      '[' :: (lineBreak inner ++ itemsBefore inner (lineBreak depth? ++ ']' :: rest) items)
  | object [] => '{' :: '}' :: rest
  | object fields =>
      let inner := depth?.map (· + 1)
      '{' :: (lineBreak inner ++ fieldsBefore inner (lineBreak depth? ++ '}' :: rest) fields)

/-- The items of an array with commas between them, in front of `rest`. -/
def itemsBefore (depth? : Option Nat) (rest : List Char) : List Json → List Char
  | [] => rest
  | [item] => before depth? rest item
  | item :: others =>
      before depth? (',' :: (lineBreak depth? ++ itemsBefore depth? rest others)) item

/-- The fields of an object with commas between them, in front of `rest`. -/
def fieldsBefore (depth? : Option Nat) (rest : List Char) :
    List (String × Json) → List Char
  | [] => rest
  | [(key, value)] => label depth? key ++ before depth? rest value
  | (key, value) :: others =>
      label depth? key ++
        before depth? (',' :: (lineBreak depth? ++ fieldsBefore depth? rest others)) value

end

/-- The text of a value that stands `depth?` levels deep, or on one line without a depth. -/
def render (depth? : Option Nat) (value : Json) : String :=
  String.ofList (value.before depth? [])

/-- The value on one line, without blanks. -/
def compact (value : Json) : String := value.render none

/-- The value with every item on a line of its own. -/
def pretty (value : Json) : String := value.render (some 0)

/-- A text, or `null` when there is none. -/
def text? : Option String → Json
  | none => null
  | some value => text value

/-- A double, or `null` when it is not finite. -/
def double (x : Binary64) : Json := if finite : x.isFinite then number x finite else null

end Json

end BlockScript
