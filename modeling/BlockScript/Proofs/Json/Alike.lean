import BlockScript.Json.Basic
import Mathlib.Data.List.Forall2
import Mathlib.Data.Option.Basic

/-!
# Equality of JSON values

The fields of an object have no order: a reader can only look them up by their keys. Two values
are alike if they are equal up to that (`Json.Alike`), so of two alike values the items of arrays
are alike one by one, and the fields of objects key by key.
-/

namespace BlockScript

namespace Json

/-- Equal as JSON values. Numbers are compared bit for bit. -/
inductive Alike : Json → Json → Prop
  | null : Alike .null .null
  | bool (value : Bool) : Alike (.bool value) (.bool value)
  | natural (value : Nat) : Alike (.natural value) (.natural value)
  | number {value : Binary64} (finite : value.isFinite) :
      Alike (.number value finite) (.number value finite)
  | text (value : String) : Alike (.text value) (.text value)
  | array {items others : List Json} (same : List.Forall₂ Alike items others) :
      Alike (.array items) (.array others)
  | object {fields others : List (String × Json)}
      (same : ∀ key, Option.Rel Alike (fields.lookup key) (others.lookup key)) :
      Alike (.object fields) (.object others)

namespace Alike

theorem null_eq {value : Json} (alike : Alike .null value) : value = .null := by
  cases alike
  rfl

theorem eq_null {value : Json} (alike : Alike value .null) : value = .null := by
  cases alike
  rfl

theorem natural_eq {value other : Nat} (alike : Alike (.natural value) (.natural other)) :
    value = other := by
  cases alike
  rfl

theorem text_eq {value other : String} (alike : Alike (.text value) (.text other)) :
    value = other := by
  cases alike
  rfl

theorem text?_eq {value? other? : Option String} (alike : Alike (.text? value?) (.text? other?)) :
    value? = other? := by
  cases value? <;> cases other? <;> cases alike <;> rfl

/-- It is enough that one of the doubles is finite: all others become `null`. -/
theorem double_eq {x y : Binary64} (finite : x.isFinite) (alike : Alike (.double x) (.double y)) :
    x = y := by
  rw [double, dif_pos finite, double] at alike
  split at alike <;> cases alike
  rfl

theorem items {items others : List Json} (alike : Alike (.array items) (.array others)) :
    List.Forall₂ Alike items others := by
  cases alike
  assumption

theorem map_eq {α : Type} {encode : α → Json} {values others : List α}
    (alike : Alike (.array (values.map encode)) (.array (others.map encode)))
    (injective : ∀ value other, Alike (encode value) (encode other) → value = other) :
    values = others := by
  have items := alike.items
  rw [List.forall₂_map_left_iff, List.forall₂_map_right_iff] at items
  exact List.forall₂_eq_eq_eq ▸ items.imp injective

/-- What two objects have at one key. -/
theorem field {fields others : List (String × Json)} {value other : Json}
    (alike : Alike (.object fields) (.object others)) (key : String)
    (found : fields.lookup key = some value) (found' : others.lookup key = some other) :
    Alike value other := by
  cases alike with
  | object same =>
    have related := same key
    rw [found, found'] at related
    cases related
    assumption

theorem refl : ∀ value : Json, Alike value value
  | .null => .null
  | .bool value => .bool value
  | .natural value => .natural value
  | .number _ finite => .number finite
  | .text value => .text value
  | .array items => .array (List.forall₂_same.mpr fun item _ => refl item)
  | .object fields => .object fun key => by
      cases found : fields.lookup key with
      | none => exact .none
      | some value =>
        have mem : (key, value) ∈ fields := by
          obtain ⟨front, back, rfl, -⟩ := List.lookup_eq_some_iff.mp found
          exact List.mem_append_right _ List.mem_cons_self
        have smaller : sizeOf value < sizeOf fields := by
          have pair := List.sizeOf_lt_of_mem mem
          rw [Prod.mk.sizeOf_spec] at pair
          omega
        exact .some (refl value)
  termination_by value => sizeOf value

end Alike

end Json

end BlockScript
