/-!
# Binary64 numbers

A number of the language is an IEEE 754 double, kept as its sign and the code of its
magnitude: the exponent field and the fraction field read as one natural number. Codes grow
with the magnitudes that they stand for, and the finite ones end where infinity begins. Two
numbers are equal here when they are equal bit for bit.

`ticks` is the exact magnitude, counted in units of the smallest positive number.
-/

namespace BlockScript

/-- The codes of magnitudes are the numbers of 63 bits. -/
def Binary64.codeCount : Nat := 0x8000000000000000

/-- An IEEE 754 double. -/
structure Binary64 where
  negative : Bool
  magnitude : Fin Binary64.codeCount
  deriving DecidableEq, Repr

namespace Binary64

/-- The codes that share an exponent field differ in the 52 bits of their fraction field. -/
def fractionCount : Nat := 0x10000000000000

/-- The code of infinity; the codes above it are not numbers. -/
def infinityCode : Nat := 2047 * fractionCount

/-- The significand of a finite magnitude, with the leading one that its code leaves out. -/
def significand (code : Nat) : Nat :=
  if code < fractionCount then code else fractionCount + code % fractionCount

/-- The power of two by which the significand is scaled. -/
def scale (code : Nat) : Nat := code / fractionCount - 1

/-- A finite magnitude in units of `2 ^ (-tickPower)`. -/
def ticks (code : Nat) : Nat := significand code <<< scale code

/-- The smallest positive number is `2 ^ (-tickPower)`. -/
def tickPower : Nat := 1074

/-- The number with this code, or infinity when the code is beyond it. -/
def ofCode (negative : Bool) (code : Nat) : Binary64 :=
  ⟨negative, ⟨min code infinityCode, by unfold infinityCode codeCount fractionCount; omega⟩⟩

/-- The number with these bits, the sign in the highest. -/
def ofBits (bits : UInt64) : Binary64 :=
  ⟨codeCount ≤ bits.toNat, ⟨bits.toNat % codeCount, Nat.mod_lt _ (by decide)⟩⟩

/-- Positive infinity. -/
def infinity : Binary64 := ofCode false infinityCode

/-- A value that is not a number. -/
def notANumber : Binary64 := ⟨false, ⟨infinityCode + fractionCount / 2, by decide⟩⟩

/-- Whether the number is finite. -/
def isFinite (x : Binary64) : Bool := x.magnitude.val < infinityCode

/-- Whether the value is not a number. -/
def isNaN (x : Binary64) : Bool := infinityCode < x.magnitude.val

/-- The number's place in the order of all numbers; the two zeros share theirs. -/
def rank (x : Binary64) : Int :=
  if x.negative then -(x.magnitude.val : Int) else x.magnitude.val

/-- Whether `x` is at most `y`; a value that is not a number compares to nothing. -/
def atMost (x y : Binary64) : Bool := !x.isNaN && !y.isNaN && x.rank ≤ y.rank

instance : Inhabited Binary64 := ⟨ofCode false 0⟩

theorem eq_ofCode_of_isFinite {x : Binary64} (finite : x.isFinite) :
    x = ofCode x.negative x.magnitude.val := by
  have below : x.magnitude.val < infinityCode := by simpa [isFinite] using finite
  obtain ⟨negative, magnitude⟩ := x
  simp only [ofCode, mk.injEq, true_and]
  exact Fin.ext (by simp only at below ⊢; omega)

end Binary64

end BlockScript
