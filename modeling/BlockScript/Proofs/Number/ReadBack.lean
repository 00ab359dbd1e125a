import BlockScript.Number.Layout
import BlockScript.Proofs.Lexical.Spelling
import BlockScript.Proofs.Number.Code
import Mathlib.Data.List.TakeWhile

/-!
# Written numbers read back

In every layout a finite number is written so that reading it gives the same number bit for bit
(`ofText?_write`). A number in a program is written in positions, so what is written there is a
numeral (`isNumeral_write`). The digits that are read may have zeros at their end that the decimal
did not have, which its code does not depend on; behind an exponent it is the decimal itself.
-/

namespace BlockScript

/-! ## Reading numerals -/

section
variable {digits places : List Char}

theorem readDecimal?_isDigits (valid : IsDigits digits) :
    readDecimal? digits = some ⟨Nat.ofDigitChars 10 digits 0, 0⟩ := by
  have whole : digits.takeWhile Char.isDigit = digits := List.takeWhile_eq_self_iff.mpr valid.digit
  have rest : digits.dropWhile Char.isDigit = [] := List.dropWhile_eq_nil_iff.mpr valid.digit
  have present : digits.isEmpty = false := List.isEmpty_eq_false_iff.mpr valid.ne_nil
  simp [readDecimal?, whole, rest, present, splitFraction, readExponent?]

theorem readDecimal?_fraction (valid : IsDigits digits) (behind : IsDigits places) :
    readDecimal? (digits ++ '.' :: places) =
      some ⟨Nat.ofDigitChars 10 (digits ++ places) 0, -places.length⟩ := by
  have dot : ∀ c, ('.' :: places).head? = some c → ¬ c.isDigit := by
    rintro c ⟨⟩
    decide
  have whole := takeWhile_append_of_head valid.digit dot
  have rest := dropWhile_append_of_head valid.digit dot
  have fraction : places.takeWhile Char.isDigit = places := List.takeWhile_eq_self_iff.mpr behind.digit
  have ended : places.dropWhile Char.isDigit = [] := List.dropWhile_eq_nil_iff.mpr behind.digit
  have present : digits.isEmpty = false := List.isEmpty_eq_false_iff.mpr valid.ne_nil
  simp [readDecimal?, whole, rest, fraction, ended, present, splitFraction, readExponent?]

end

theorem toLower_of_isDigit {c : Char} (digit : c.isDigit) : c.toLower = c := by
  refine dif_neg ?_
  rintro ⟨letter, -⟩
  have most : c.val ≤ 57 := by
    rw [Char.isDigit, Bool.and_eq_true, decide_eq_true_eq, decide_eq_true_eq] at digit
    exact digit.2
  exact absurd (UInt32.le_trans letter most) (by decide)

section
variable {c : Char} {rest : List Char}

/-- What starts with a digit is no name of a number, so its digits are read. -/
theorem ofUnsigned?_of_isDigit (digit : c.isDigit) (negative : Bool) :
    Binary64.ofUnsigned? negative (c :: rest) =
      (readDecimal? (c :: rest)).map fun decimal => .ofCode negative decimal.code := by
  have noName : c ≠ 'i' ∧ c ≠ 'n' := by
    constructor <;> rintro rfl <;> contradiction
  rw [Binary64.ofUnsigned?]
  simp [toLower_of_isDigit digit, noName]

theorem ofText?_of_isDigit (digit : c.isDigit) :
    Binary64.ofText? (c :: rest) = Binary64.ofUnsigned? false (c :: rest) := by
  rw [Binary64.ofText?]
  · rintro digits ⟨⟩
    contradiction
  · rintro digits ⟨⟩
    contradiction

end

theorem ofText?_of_isNumeral {text : List Char} (valid : IsNumeral text) :
    Binary64.ofText? text = (readDecimal? text).map fun decimal => .ofCode false decimal.code := by
  obtain ⟨c, rest, rfl, digit⟩ := valid.exists_digit
  rw [ofText?_of_isDigit digit, ofUnsigned?_of_isDigit digit]

theorem negative_of_isNumeral {text : List Char} (valid : IsNumeral text) {x : Binary64}
    (reads : Binary64.ofText? text = some x) : x.negative = false := by
  rw [ofText?_of_isNumeral valid, Option.map_eq_some_iff] at reads
  obtain ⟨decimal, -, rfl⟩ := reads
  rfl

/-! ## Writing numerals -/

theorem isDigits_toDigits (value : Nat) : IsDigits (Nat.toDigits 10 value) where
  ne_nil := Nat.toDigits_ne_nil
  digit _ mem := Nat.isDigit_of_mem_toDigits (by decide) (by decide) mem

theorem isDigits_numerals (decimal : Decimal) : IsDigits decimal.numerals :=
  isDigits_toDigits decimal.digits

theorem isDigit_of_mem_replicate (count : Nat) {c : Char} (mem : c ∈ List.replicate count '0') :
    c.isDigit := by
  rw [List.eq_of_mem_replicate mem]
  rfl

theorem IsDigits.append {first second : List Char} (valid : IsDigits first)
    (digit : ∀ c ∈ second, c.isDigit) : IsDigits (first ++ second) where
  ne_nil := by simp [valid.ne_nil]
  digit c mem := (List.mem_append.mp mem).elim (valid.digit c) (digit c)

/-- The text is a numeral that reads as a decimal with this code. -/
structure Reads (text : List Char) (code : Nat) : Prop where
  isNumeral : IsNumeral text
  reads : (readDecimal? text).map Decimal.code = some code

theorem ofDigitChars_numerals (decimal : Decimal) :
    Nat.ofDigitChars 10 decimal.numerals 0 = decimal.digits :=
  Nat.ofDigitChars_ten_toDigits

section
variable {decimal : Decimal}

theorem reads_whole (whole : 0 ≤ decimal.exponent) :
    Reads (decimal.numerals ++ List.replicate decimal.exponent.toNat '0') decimal.code := by
  have valid := (isDigits_numerals decimal).append fun c =>
    isDigit_of_mem_replicate decimal.exponent.toNat
  refine ⟨.whole valid, ?_⟩
  rw [readDecimal?_isDigits valid, Nat.ofDigitChars_append, ofDigitChars_numerals,
    Nat.ofDigitChars_replicate_zero, Option.map_some, Decimal.code_mul_pow, Int.zero_add,
    Int.toNat_of_nonneg whole]

/-- The same number with a zero behind a dot. -/
theorem reads_wholePoint (whole : 0 ≤ decimal.exponent) :
    Reads (decimal.numerals ++ List.replicate decimal.exponent.toNat '0' ++ ['.', '0'])
      decimal.code := by
  have valid := (isDigits_numerals decimal).append fun c =>
    isDigit_of_mem_replicate decimal.exponent.toNat
  have behind : IsDigits ['0'] := ⟨List.cons_ne_nil _ _, List.all_eq_true.mp rfl⟩
  refine ⟨.fraction valid behind, ?_⟩
  have zeros : List.replicate decimal.exponent.toNat '0' ++ ['0'] =
      List.replicate (decimal.exponent.toNat + 1) '0' := List.replicate_succ'.symm
  have places : (-(['0'] : List Char).length : Int) + (decimal.exponent.toNat + 1 : Nat) =
      decimal.exponent := by
    simp only [List.length_singleton]
    omega
  rw [readDecimal?_fraction valid behind, List.append_assoc, zeros, Nat.ofDigitChars_append,
    ofDigitChars_numerals, Nat.ofDigitChars_replicate_zero, Option.map_some, Decimal.code_mul_pow,
    places]

/-- The dot stands among the digits. -/
theorem reads_inside {places : Nat} (power : decimal.exponent = -places) (positive : 0 < places)
    (inside : places < decimal.numerals.length) :
    Reads (decimal.numerals.take (decimal.numerals.length - places) ++
      '.' :: decimal.numerals.drop (decimal.numerals.length - places)) decimal.code := by
  have digit := (isDigits_numerals decimal).digit
  have front : IsDigits (decimal.numerals.take (decimal.numerals.length - places)) := by
    refine ⟨List.ne_nil_of_length_pos ?_, fun c mem => digit c (List.mem_of_mem_take mem)⟩
    rw [List.length_take]
    omega
  have count : (decimal.numerals.drop (decimal.numerals.length - places)).length = places := by
    rw [List.length_drop]
    omega
  have back : IsDigits (decimal.numerals.drop (decimal.numerals.length - places)) :=
    ⟨List.ne_nil_of_length_pos (by omega), fun c mem => digit c (List.mem_of_mem_drop mem)⟩
  refine ⟨.fraction front back, ?_⟩
  rw [readDecimal?_fraction front back, List.take_append_drop, ofDigitChars_numerals, count, ← power]
  rfl

/-- The dot stands in front of all digits, and perhaps of some zeros. -/
theorem reads_outside {places : Nat} (power : decimal.exponent = -places)
    (outside : decimal.numerals.length ≤ places) :
    Reads ('0' :: '.' :: List.replicate (places - decimal.numerals.length) '0' ++ decimal.numerals)
      decimal.code := by
  have valid := isDigits_numerals decimal
  have front : IsDigits ['0'] := ⟨List.cons_ne_nil _ _, List.all_eq_true.mp rfl⟩
  have back : IsDigits
      (List.replicate (places - decimal.numerals.length) '0' ++ decimal.numerals) := by
    refine ⟨by simp [valid.ne_nil], fun c mem => ?_⟩
    exact (List.mem_append.mp mem).elim (isDigit_of_mem_replicate _) (valid.digit c)
  have count : (List.replicate (places - decimal.numerals.length) '0' ++ decimal.numerals).length =
      places := by
    rw [List.length_append, List.length_replicate]
    omega
  have value : Nat.ofDigitChars 10
      (['0'] ++ (List.replicate (places - decimal.numerals.length) '0' ++ decimal.numerals)) 0 =
        decimal.digits := by
    rw [Nat.ofDigitChars_append, Nat.ofDigitChars_append]
    have zero : Nat.ofDigitChars 10 ['0'] 0 = 0 := rfl
    rw [zero, Nat.ofDigitChars_replicate_zero, Nat.mul_zero, ofDigitChars_numerals]
  refine ⟨.fraction front back, ?_⟩
  have reads := readDecimal?_fraction front back
  rw [value, count, ← power] at reads
  exact congrArg (Option.map Decimal.code) reads

/-- Whatever its exponent, a decimal is written in positions as a numeral that reads with the same
code. -/
theorem reads_positional (layout : Layout) (decimal : Decimal) :
    Reads (layout.positional decimal) decimal.code := by
  rw [Layout.positional]
  by_cases whole : 0 ≤ decimal.exponent
  · simp only [whole, if_true]
    split
    · exact reads_wholePoint whole
    · rw [List.append_nil]
      exact reads_whole whole
  · have power : decimal.exponent = -((-decimal.exponent).toNat : Int) := by omega
    simp only [whole, if_false]
    by_cases inside : (-decimal.exponent).toNat < decimal.numerals.length
    · simp only [inside, if_true]
      exact reads_inside power (by omega) inside
    · simp only [inside, if_false]
      exact reads_outside power (Nat.le_of_not_lt inside)

end

/-! ## Writing exponents -/

theorem readExponent?_power (power : Int) :
    readExponent? ('e' :: (if power < 0 then '-' else '+') :: Nat.toDigits 10 power.natAbs) =
      some power := by
  have valid := isDigits_toDigits power.natAbs
  have digits : (Nat.toDigits 10 power.natAbs).all Char.isDigit := List.all_eq_true.mpr valid.digit
  have present : (Nat.toDigits 10 power.natAbs).isEmpty = false :=
    List.isEmpty_eq_false_iff.mpr valid.ne_nil
  have value : Nat.ofDigitChars 10 (Nat.toDigits 10 power.natAbs) 0 = power.natAbs :=
    Nat.ofDigitChars_ten_toDigits
  by_cases negative : power < 0
  · have size : -(power.natAbs : Int) = power := by omega
    simp only [readExponent?, negative, if_true, digits, present, value, size, true_or]
    rfl
  · have size : (power.natAbs : Int) = power := by omega
    simp only [readExponent?, negative, if_false, digits, present, value, size, true_or, if_true]
    rfl

/-- With an exponent, the decimal that is read is the one that was written. -/
theorem readDecimal?_exponential (decimal : Decimal) :
    readDecimal? (Layout.exponential decimal) = some decimal := by
  have valid := isDigits_numerals decimal
  have value := ofDigitChars_numerals decimal
  have leading : decimal.leading = decimal.exponent + decimal.numerals.length - 1 := rfl
  have power := readExponent?_power decimal.leading
  unfold Layout.exponential
  dsimp only
  -- The power is not read before the digits have ended, at its letter.
  generalize tail : (if decimal.leading < 0 then '-' else '+') ::
    Nat.toDigits 10 decimal.leading.natAbs = written at power
  have letter : ∀ c, ('e' :: written).head? = some c → ¬ c.isDigit := by
    rintro c ⟨⟩
    decide
  generalize decimal.numerals = numerals at valid value leading ⊢
  match numerals with
  | [] => exact absurd rfl valid.ne_nil
  | [digit] =>
    have first : digit.isDigit := valid.digit digit List.mem_cons_self
    have exponent : decimal.leading = decimal.exponent := by
      rw [List.length_singleton] at leading
      omega
    simp [readDecimal?, splitFraction, first, power, value, exponent]
  | digit :: next :: more =>
    obtain ⟨first, others⟩ := List.forall_mem_cons.mp valid.digit
    have fraction := takeWhile_append_of_head others letter
    have behind := dropWhile_append_of_head others letter
    have exponent : decimal.leading - (more.length + 1 : Int) = decimal.exponent := by
      simp only [List.length_cons] at leading
      omega
    rw [List.cons_append] at fraction behind
    simp [readDecimal?, splitFraction, first, fraction, behind, power, value, exponent]

/-! ## Writing numbers -/

/-- What is written in any layout starts with a digit, and reads with the decimal's code. -/
theorem exists_writeDecimal_eq (layout : Layout) (decimal : Decimal) :
    ∃ c rest, layout.writeDecimal decimal = c :: rest ∧ c.isDigit ∧
      (readDecimal? (c :: rest)).map Decimal.code = some decimal.code := by
  rw [Layout.writeDecimal]
  split
  · obtain ⟨numeral, reads⟩ := reads_positional layout decimal
    obtain ⟨c, rest, written, digit⟩ := numeral.exists_digit
    rw [written] at reads ⊢
    exact ⟨c, rest, rfl, digit, reads⟩
  · have reads := readDecimal?_exponential decimal
    have valid := isDigits_numerals decimal
    rw [Layout.exponential] at reads ⊢
    generalize decimal.numerals = numerals at valid reads ⊢
    match numerals with
    | [] => exact absurd rfl valid.ne_nil
    | [digit] => exact ⟨_, _, rfl, valid.digit digit List.mem_cons_self, congrArg _ reads⟩
    | digit :: _ :: _ => exact ⟨_, _, rfl, valid.digit digit List.mem_cons_self, congrArg _ reads⟩

section
variable {x : Binary64}

theorem magnitude_lt_of_isFinite (finite : x.isFinite) :
    x.magnitude.val < Binary64.infinityCode := by
  simpa [Binary64.isFinite] using finite

/-- A finite number is written as its shortest decimal, with its sign. -/
theorem write_of_isFinite (layout : Layout) (finite : x.isFinite) :
    layout.write x = (if x.negative then ['-'] else []) ++
      layout.writeDecimal (shortest layout.tie x.magnitude.val) := by
  have below := magnitude_lt_of_isFinite finite
  have isNumber : x.isNaN = false := by
    rw [Binary64.isNaN, decide_eq_false_iff_not]
    omega
  simp only [Layout.write, isNumber, finite, if_true, Bool.false_eq_true, if_false]
  split <;> rfl

/-- A number that a program can hold is written as a numeral. -/
theorem isNumeral_write (finite : x.isFinite) (positive : x.negative = false) :
    IsNumeral (Layout.program.write x) := by
  rw [write_of_isFinite _ finite, positive]
  exact (reads_positional Layout.program _).isNumeral

/-- Reading a written number gives the same number, bit for bit. -/
theorem ofText?_write (layout : Layout) (finite : x.isFinite) :
    Binary64.ofText? (layout.write x) = some x := by
  obtain ⟨c, rest, written, digit, reads⟩ :=
    exists_writeDecimal_eq layout (shortest layout.tie x.magnitude.val)
  rw [code_shortest _ (magnitude_lt_of_isFinite finite)] at reads
  have same := Binary64.eq_ofCode_of_isFinite finite
  have unsigned (negative : Bool) : Binary64.ofUnsigned? negative (c :: rest) =
      some (.ofCode negative x.magnitude.val) := by
    have known := congrArg (Option.map (Binary64.ofCode negative)) reads
    rw [ofUnsigned?_of_isDigit digit]
    simpa using known
  rw [write_of_isFinite layout finite, written]
  cases sign : x.negative with
  | false =>
    rw [sign] at same
    rw [if_neg Bool.false_ne_true, List.nil_append, ofText?_of_isDigit digit, unsigned, ← same]
  | true =>
    rw [sign] at same
    rw [if_pos rfl, List.singleton_append, Binary64.ofText?, unsigned, ← same]

end

end BlockScript
