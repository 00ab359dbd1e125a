import BlockScript.Number.Binary64

/-!
# Decimals and the doubles nearest to them

A `Decimal` is a natural number of units of a power of ten. `Decimal.code` gives the magnitude
of the double that is nearest to it, a half going to the even neighbour. `shortest` goes the
other way: of all decimals that read back as a given finite magnitude, it takes one with the
fewest digits, and of those the nearest to the exact value. Both work in exact natural numbers.
-/

namespace BlockScript

/-- The quotient rounded to the nearest natural number, a half going to the even one. -/
def roundDiv (numerator denominator : Nat) : Nat :=
  let below := numerator / denominator
  let twice := 2 * (numerator % denominator)
  if twice < denominator then below
  else if denominator < twice then below + 1
  else below + below % 2

/-- The code of the magnitude nearest to a quotient. A magnitude of at least `2 ^ 53` ticks
keeps its 53 highest bits: they are rounded as a whole, and a carry out of them is the next
power of two. -/
def nearestCode (numerator denominator : Nat) : Nat :=
  let ticks := numerator <<< Binary64.tickPower
  let scale := Nat.log2 (ticks / denominator) - 52
  scale * Binary64.fractionCount + roundDiv ticks (denominator <<< scale)

/-- The number `digits * 10 ^ exponent`. -/
structure Decimal where
  digits : Nat
  exponent : Int
  deriving DecidableEq, Repr, Inhabited

namespace Decimal

/-- The decimal digits from the highest to the lowest. -/
def numerals (decimal : Decimal) : List Char := Nat.toDigits 10 decimal.digits

/-- The power of ten that the highest digit counts. -/
def leading (decimal : Decimal) : Int := decimal.exponent + decimal.numerals.length - 1

/-- The numerator of the decimal as a quotient. -/
def numerator (decimal : Decimal) : Nat := decimal.digits * Nat.pow 10 decimal.exponent.toNat

/-- The denominator of the decimal as a quotient. -/
def denominator (decimal : Decimal) : Nat := Nat.pow 10 (-decimal.exponent).toNat

/-- The code of the magnitude nearest to a decimal. From `10 ^ 309` on there is only infinity,
and below `10 ^ (-324)` only zero, so no larger powers of ten are ever computed. -/
def code (decimal : Decimal) : Nat :=
  if decimal.digits = 0 ∨ decimal.leading < -330 then 0
  else if 310 < decimal.leading then Binary64.infinityCode
  else min (nearestCode decimal.numerator decimal.denominator) Binary64.infinityCode

/-- The same number without zeros at the end of its digits. -/
def trim (decimal : Decimal) : Decimal :=
  if _ : 0 < decimal.digits ∧ decimal.digits % 10 = 0 then
    trim ⟨decimal.digits / 10, decimal.exponent + 1⟩
  else decimal
termination_by decimal.digits
decreasing_by omega

end Decimal

/-- Which of two decimals is taken that are equally near to the exact value. -/
inductive Tie
  /-- The one with the even last digit. -/
  | even
  /-- The larger one. -/
  | up
  deriving DecidableEq, Repr

/-- The power of ten of the first digit of a positive number of ticks. -/
def leadingPower (ticks : Nat) : Int :=
  let unit := 1 <<< Binary64.tickPower
  if unit ≤ ticks then ((Nat.toDigits 10 (ticks / unit)).length : Int) - 1
  else -((Nat.toDigits 10 ((unit - 1) / ticks)).length : Int)

/-- Of the two decimals in units of `10 ^ power` next to a magnitude, the nearer one that reads
back as it. -/
def neighbour? (tie : Tie) (code : Nat) (power : Int) : Option Decimal :=
  let ticks := Binary64.ticks code * Nat.pow 10 (-power).toNat
  let unit := Nat.pow 10 power.toNat <<< Binary64.tickPower
  let below : Decimal := ⟨ticks / unit, power⟩
  let above : Decimal := ⟨ticks / unit + 1, power⟩
  let twice := 2 * (ticks % unit)
  let belowFirst := twice < unit ∨ (twice = unit ∧ tie = .even ∧ below.digits % 2 = 0)
  let candidates := if belowFirst then [below, above] else [above, below]
  candidates.find? (·.code == code)

/-- The exact value of a magnitude. -/
def exactDecimal (code : Nat) : Decimal :=
  ⟨Binary64.ticks code * Nat.pow 5 Binary64.tickPower, -Binary64.tickPower⟩

/-- The shortest decimal that reads back as a finite magnitude: no more than 17 digits are ever
needed. -/
def shortest (tie : Tie) (code : Nat) : Decimal :=
  if code = 0 then ⟨0, 0⟩
  else
    let power := leadingPower (Binary64.ticks code)
    let found := (List.range 17).findSome? fun (digits : Nat) =>
      neighbour? tie code (power - digits)
    (found.getD (exactDecimal code)).trim

end BlockScript
