import BlockScript.Number.Decimal

/-!
# Writing and reading numbers

Two layouts of a double are in use. Program text takes the positional one, which never has an
exponent; tree and token dumps take the one that turns to an exponent for very large and very
small numbers and keeps a point in all others. Both write the shortest digits that read back.

`Binary64.ofText?` reads a number: an optional sign, then digits with an optional dot and an
optional exponent, or a name for infinity or for no number.
-/

namespace BlockScript

/-- How a number is laid out. -/
structure Layout where
  /-- The choice between two equally near decimals. -/
  tie : Tie
  /-- The powers of the first digit that are written without an exponent; all, if absent. -/
  positional? : Option (Int × Int)
  /-- Whether a whole number without an exponent ends with `.0`. -/
  showsPoint : Bool
  deriving DecidableEq, Repr

namespace Layout

/-- Numbers in a program: never an exponent, no point in a whole number. -/
def program : Layout := ⟨.up, none, false⟩

/-- Numbers in a dump: an exponent below `10 ^ (-5)` and from `10 ^ 16` on. -/
def dump : Layout := ⟨.even, some (-5, 15), true⟩

/-- Whether a number with this power of its first digit is written without an exponent. -/
def isPositional (layout : Layout) (power : Int) : Bool :=
  match layout.positional? with
  | none => true
  | some (least, greatest) => least ≤ power && power ≤ greatest

/-- The decimal without an exponent. -/
def positional (layout : Layout) (decimal : Decimal) : List Char :=
  let numerals := decimal.numerals
  let places := (-decimal.exponent).toNat
  if 0 ≤ decimal.exponent then
    numerals ++ List.replicate decimal.exponent.toNat '0' ++
      (if layout.showsPoint then ['.', '0'] else [])
  else if places < numerals.length then
    numerals.take (numerals.length - places) ++ '.' :: numerals.drop (numerals.length - places)
  else
    '0' :: '.' :: List.replicate (places - numerals.length) '0' ++ numerals

/-- The decimal with one digit before the point and an exponent with its sign. -/
def exponential (decimal : Decimal) : List Char :=
  let mark := if decimal.leading < 0 then '-' else '+'
  let power := 'e' :: mark :: Nat.toDigits 10 decimal.leading.natAbs
  match decimal.numerals with
  | [] => power
  | [digit] => digit :: power
  | digit :: rest => digit :: '.' :: rest ++ power

/-- A decimal in this layout. -/
def writeDecimal (layout : Layout) (decimal : Decimal) : List Char :=
  if layout.isPositional decimal.leading then layout.positional decimal
  else exponential decimal

/-- A number in this layout. -/
def write (layout : Layout) (x : Binary64) : List Char :=
  if x.isNaN then ['N', 'a', 'N']
  else
    let magnitude :=
      if x.isFinite then layout.writeDecimal (shortest layout.tie x.magnitude.val)
      else ['i', 'n', 'f']
    if x.negative then '-' :: magnitude else magnitude

end Layout

/-- The exponent part at the end of a number: empty, or `e` with an optional sign and digits. -/
def readExponent? : List Char → Option Int
  | [] => some 0
  | mark :: rest =>
      if mark = 'e' ∨ mark = 'E' then
        let (negative, digits) := match rest with
          | '-' :: digits => (true, digits)
          | '+' :: digits => (false, digits)
          | digits => (false, digits)
        if digits.isEmpty ∨ !digits.all Char.isDigit then none
        else
          let power : Int := Nat.ofDigitChars 10 digits 0
          some (if negative then -power else power)
      else none

/-- The fraction behind the whole digits, if a dot opens one, and the text after it. -/
def splitFraction : List Char → List Char × List Char
  | '.' :: rest => (rest.takeWhile Char.isDigit, rest.dropWhile Char.isDigit)
  | rest => ([], rest)

/-- Reads digits with an optional dot and an optional exponent. A digit must stand on one side
of the dot at least. -/
def readDecimal? (text : List Char) : Option Decimal :=
  let whole := text.takeWhile Char.isDigit
  let (fraction, rest) := splitFraction (text.dropWhile Char.isDigit)
  if whole.isEmpty && fraction.isEmpty then none
  else (readExponent? rest).map fun power =>
    ⟨Nat.ofDigitChars 10 (whole ++ fraction) 0, power - fraction.length⟩

namespace Binary64

/-- Reads a number without its sign. -/
def ofUnsigned? (negative : Bool) (text : List Char) : Option Binary64 :=
  let lower := text.map Char.toLower
  if lower = "inf".toList ∨ lower = "infinity".toList then some { infinity with negative }
  else if lower = "nan".toList then some { notANumber with negative }
  else (readDecimal? text).map fun decimal => ofCode negative decimal.code

/-- Reads a number, as the nearest double. -/
def ofText? : List Char → Option Binary64
  | '-' :: text => ofUnsigned? true text
  | '+' :: text => ofUnsigned? false text
  | text => ofUnsigned? false text

end Binary64

end BlockScript
