import BlockScript.Report.Style
import Mathlib.Data.List.TakeWhile

/-!
# Markup and terminal escapes

A template is painted code by code. As a code is two characters long, painting goes part by part as
long as no part ends with a `§` (`Style.paint_append`), and it leaves alone what has no `§` at all.

`withoutEscapes` deletes the escapes of a terminal from a text. It undoes colours: what is left of a
painted template is the template painted plainly (`withoutEscapes_paint`).
-/

namespace BlockScript

namespace Style

variable {style : Style}

/-- Painting goes part by part, as no code begins in one part and ends in the next. -/
theorem paint_append {front : List Char} (ends : front.getLast? ≠ some '§') (back : List Char) :
    style.paint (front ++ back) = style.paint front ++ style.paint back := by
  fun_induction style.paint front with
  | case1 => rfl
  | case2 c =>
    -- Only a `§` at the very end could be the first half of a code.
    have other : c ≠ '§' := by
      rintro rfl
      exact ends rfl
    cases back with
    | nil => rfl
    | cons code back => rw [List.singleton_append, paint, if_neg other, List.singleton_append]
  | case3 code rest number known ih =>
    rw [List.cons_append, List.cons_append, paint, if_pos rfl, known, List.append_assoc]
    dsimp only
    cases rest with
    | nil => rfl
    | cons next rest => rw [ih (by simpa using ends)]
  | case4 code rest unknown ih =>
    rw [List.cons_append, List.cons_append, paint, if_pos rfl, unknown]
    dsimp only
    rw [← List.cons_append, ih (by simpa using ends), List.cons_append]
  | case5 c code rest other ih =>
    rw [List.cons_append, List.cons_append, paint, if_neg other, ← List.cons_append,
      ih (by simpa using ends), List.cons_append]

/-- A text without `§` is shown as it is. -/
theorem paint_of_not_mem {text : List Char} (bare : '§' ∉ text) : style.paint text = text := by
  fun_induction style.paint text with
  | case1 | case2 => rfl
  | case3 | case4 => exact absurd List.mem_cons_self bare
  | case5 c code rest other ih => rw [ih (fun mem => bare (List.mem_cons_of_mem _ mem))]

/-- A text without `§` may stand between two parts of a template. -/
theorem paint_between {front middle : List Char} (ends : front.getLast? ≠ some '§')
    (bare : '§' ∉ middle) (back : List Char) :
    style.paint (front ++ middle ++ back) = style.paint front ++ middle ++ style.paint back := by
  have ends' : (front ++ middle).getLast? ≠ some '§' := by
    intro last
    rw [List.getLast?_append] at last
    cases inner : middle.getLast? with
    | none =>
      rw [inner] at last
      exact ends last
    | some c =>
      rw [inner, Option.some_or] at last
      cases last
      exact bare (List.mem_of_getLast? inner)
  rw [paint_append ends', paint_append ends, paint_of_not_mem bare]

end Style

/-! ## Deleting escapes -/

/-- What is behind the rest of an escape: a bracket, digits and an `m`. -/
def escapeTail? : List Char → Option (List Char)
  | '[' :: rest =>
      match rest.takeWhile Char.isDigit, rest.dropWhile Char.isDigit with
      | _ :: _, 'm' :: after => some after
      | _, _ => none
  | _ => none

theorem length_escapeTail?_lt {rest after : List Char} (tail : escapeTail? rest = some after) :
    after.length < rest.length := by
  unfold escapeTail? at tail
  split at tail
  · rename_i rest
    split at tail
    · rename_i first digits after' taken dropped
      cases tail
      have le := (List.dropWhile_suffix (l := rest) Char.isDigit).length_le
      rw [dropped] at le
      simp only [List.length_cons] at le ⊢
      omega
    · contradiction
  · contradiction

/-- A text without the escapes of a terminal, each an escape character, a bracket, digits and `m`. -/
def withoutEscapes : List Char → List Char
  | [] => []
  | c :: rest =>
      if c = '\x1b' then
        match _ : escapeTail? rest with
        | some after => withoutEscapes after
        | none => c :: withoutEscapes rest
      else
        c :: withoutEscapes rest
termination_by text => text.length
decreasing_by
  · have shorter := length_escapeTail?_lt ‹_›
    rw [List.length_cons]
    omega
  · exact Nat.lt_succ_self _
  · exact Nat.lt_succ_self _

theorem withoutEscapes_append {text : List Char} (free : '\x1b' ∉ text) (rest : List Char) :
    withoutEscapes (text ++ rest) = text ++ withoutEscapes rest := by
  induction text with
  | nil => rfl
  | cons c text ih =>
    rw [List.mem_cons, not_or] at free
    rw [List.cons_append, withoutEscapes, if_neg (fun same => free.1 same.symm), ih free.2,
      List.cons_append]

theorem withoutEscapes_escape {digits : List Char} (nonempty : digits ≠ [])
    (numbers : ∀ c ∈ digits, c.isDigit) (rest : List Char) :
    withoutEscapes ('\x1b' :: '[' :: digits ++ 'm' :: rest) = withoutEscapes rest := by
  have taken : (digits ++ 'm' :: rest).takeWhile Char.isDigit = digits := by
    rw [List.takeWhile_append_of_pos numbers, List.takeWhile_cons_of_neg (by decide),
      List.append_nil]
  have dropped : (digits ++ 'm' :: rest).dropWhile Char.isDigit = 'm' :: rest := by
    rw [List.dropWhile_append_of_pos numbers, List.dropWhile_cons_of_neg (by decide)]
  have tail : escapeTail? ('[' :: (digits ++ 'm' :: rest)) = some rest := by
    rw [escapeTail?, taken, dropped]
    cases digits with
    | nil => contradiction
    | cons => rfl
  rw [List.cons_append, List.cons_append, withoutEscapes, if_pos rfl]
  split
  · rename_i after found
    rw [tail] at found
    cases found
    rfl
  · rename_i none
    rw [tail] at none
    contradiction

/-- Codes are shown as escapes with a number. -/
theorem isDigit_of_colourNumber? {code : Char} {number : String}
    (known : colourNumber? code = some number) :
    number.toList ≠ [] ∧ number.toList.all Char.isDigit := by
  unfold colourNumber? at known
  split at known <;> cases known <;> decide

/-- What is left of a painted template without its escapes is the template without its codes. -/
theorem withoutEscapes_paint {template : List Char} (free : '\x1b' ∉ template) (rest : List Char) :
    withoutEscapes (Style.coloured.paint template ++ rest) =
      Style.plain.paint template ++ withoutEscapes rest := by
  fun_induction Style.coloured.paint template with
  | case1 => rfl
  | case2 c => exact withoutEscapes_append free rest
  | case3 code after number known ih =>
    rw [List.mem_cons, List.mem_cons, not_or, not_or] at free
    obtain ⟨nonempty, digits⟩ := isDigit_of_colourNumber? known
    have shown : Style.coloured.escape number ++ Style.coloured.paint after ++ rest =
        '\x1b' :: '[' :: number.toList ++ 'm' :: (Style.coloured.paint after ++ rest) := by
      simp only [Style.escape, List.cons_append, List.append_assoc, List.nil_append]
    rw [shown, withoutEscapes_escape nonempty (List.all_eq_true.mp digits), ih free.2.2, Style.paint,
      if_pos rfl, known]
    rfl
  | case4 code after unknown ih =>
    -- A `§` in front of anything else stays, in both styles.
    rw [List.mem_cons, not_or] at free
    rw [List.cons_append, withoutEscapes, if_neg (by decide), ih free.2, Style.paint, if_pos rfl,
      unknown, List.cons_append]
  | case5 c code after other ih =>
    rw [List.mem_cons, not_or] at free
    rw [List.cons_append, withoutEscapes, if_neg (fun same => free.1 same.symm), ih free.2,
      Style.paint, if_neg other, List.cons_append]

end BlockScript
