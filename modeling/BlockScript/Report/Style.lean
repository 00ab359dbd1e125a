/-!
# Colour markup

Templates of reports mark colours with codes of two characters: a `§` and a letter or digit.
A `Style` either turns the codes into terminal escapes or leaves them out. A `§` in front of
anything else stands for itself.
-/

namespace BlockScript

/-- The number that selects the colour or weight of a code in a terminal escape. -/
def colourNumber? (code : Char) : Option String :=
  match code.toLower with
  | '0' => some "30"
  | '1' => some "34"
  | '2' => some "32"
  | '3' => some "36"
  | '4' => some "31"
  | '5' => some "35"
  | '6' => some "33"
  | '7' => some "37"
  | '8' => some "90"
  | '9' => some "94"
  | 'a' => some "92"
  | 'b' => some "96"
  | 'c' => some "91"
  | 'd' => some "95"
  | 'e' => some "93"
  | 'f' => some "97"
  | 'l' => some "1"
  | 'r' => some "0"
  | 'u' => some "4"
  | 'n' => some "22"
  | _ => none

/-- How markup is shown. -/
inductive Style
  /-- Markup is left out. -/
  | plain
  /-- Markup becomes terminal escapes. -/
  | coloured
  deriving DecidableEq, Repr, Inhabited

namespace Style

/-- The style that shows colours or does not. -/
def ofFlag (coloured : Bool) : Style := if coloured then .coloured else .plain

/-- Whether colours are shown. -/
def isColoured : Style → Bool
  | plain => false
  | coloured => true

/-- What a code with this number is shown as. -/
def escape : Style → String → List Char
  | plain, _ => []
  | coloured, number => '\x1b' :: '[' :: number.toList ++ ['m']

/-- Shows a text with markup. -/
def paint (style : Style) : List Char → List Char
  | [] => []
  | [c] => [c]
  | c :: code :: rest =>
      if c = '§' then
        match colourNumber? code with
        | some number => style.escape number ++ style.paint rest
        | none => c :: style.paint (code :: rest)
      else c :: style.paint (code :: rest)

end Style

end BlockScript
