import BlockScript.Token.Basic

/-!
# Bytes of a text

A place in a source is a number of bytes, and a text is a list of characters. The two agree on
character boundaries: there is one between any two parts of a source (`isValid_utf8Size`), and every
one is between two parts (`exists_of_isValid`). Two parts that start at the same place and are equally
wide are the same (`eq_of_utf8Size_eq`), and a narrower one is a beginning of a wider one
(`exists_of_utf8Size_le`).
-/

namespace BlockScript

theorem eq_nil_of_utf8Size_eq_zero {text : List Char} (empty : utf8Size text = 0) : text = [] := by
  cases text with
  | nil => rfl
  | cons c text =>
    have positive := c.utf8Size_pos
    rw [utf8Size_cons] at empty
    omega

/-- Two beginnings of one text are the same if they are equally wide. -/
theorem eq_of_utf8Size_eq {left right : List Char} (size : utf8Size left = utf8Size right)
    {after after' : List Char} (same : left ++ after = right ++ after') : left = right := by
  rcases List.append_eq_append_iff.mp same with ⟨between, rfl, -⟩ | ⟨between, rfl, -⟩
  · rw [utf8Size_append] at size
    have none : utf8Size between = 0 := by omega
    rw [eq_nil_of_utf8Size_eq_zero none, List.append_nil]
  · rw [utf8Size_append] at size
    have none : utf8Size between = 0 := by omega
    rw [eq_nil_of_utf8Size_eq_zero none, List.append_nil]

/-- Of two beginnings of one text, the wider one starts with the other. -/
theorem exists_of_utf8Size_le {left right : List Char} (size : utf8Size left ≤ utf8Size right)
    {after after' : List Char} (same : left ++ after = right ++ after') :
    ∃ between, right = left ++ between ∧ after = between ++ after' := by
  rcases List.append_eq_append_iff.mp same with wider | ⟨between, rfl, rest⟩
  · exact wider
  · rw [utf8Size_append] at size
    have none : between = [] := eq_nil_of_utf8Size_eq_zero (by omega)
    subst none
    exact ⟨[], by simp, rest.symm⟩

theorem utf8ByteSize_ofList (text : List Char) :
    (String.ofList text).utf8ByteSize = utf8Size text := by
  induction text with
  | nil => rfl
  | cons c text ih =>
    rw [String.ofList_cons, String.utf8ByteSize_append, String.utf8ByteSize_singleton, ih,
      utf8Size_cons]

theorem utf8Size_toList (source : String) : utf8Size source.toList = source.utf8ByteSize := by
  rw [← utf8ByteSize_ofList, String.ofList_toList]

/-- Between two parts of a source is a character boundary. -/
theorem isValid_utf8Size {source : String} {before after : List Char}
    (split : source.toList = before ++ after) :
    String.Pos.Raw.IsValid source ⟨utf8Size before⟩ := by
  have whole : source = String.ofList before ++ String.ofList after := by
    rw [← String.ofList_append, ← split, String.ofList_toList]
  have valid := (String.Pos.Raw.isValid_rawEndPos (s := String.ofList before)).append_right
    (String.ofList after)
  rwa [← whole, String.rawEndPos, utf8ByteSize_ofList] at valid

/-- Every character boundary is between two parts of the source. -/
theorem exists_of_isValid {source : String} {offset : Nat}
    (valid : String.Pos.Raw.IsValid source ⟨offset⟩) :
    ∃ before after, source.toList = before ++ after ∧ utf8Size before = offset := by
  obtain ⟨before, after, rfl, place⟩ := String.Pos.Raw.isValid_iff_exists_append.mp valid
  refine ⟨before.toList, after.toList, String.toList_append, ?_⟩
  rw [utf8Size_toList]
  exact congrArg String.Pos.Raw.byteIdx place.symm

/-- The text stands in the source where the span says. -/
def Span.Covers (span : Span) (source text : List Char) : Prop :=
  ∃ before after, source = before ++ (text ++ after) ∧
    span = ⟨utf8Size before, utf8Size before + utf8Size text⟩

theorem Span.Covers.of_eq {source before text after : List Char} {start stop : Nat}
    (parts : source = before ++ text ++ after) (first : start = utf8Size before)
    (last : stop = utf8Size (before ++ text)) : Covers ⟨start, stop⟩ source text := by
  refine ⟨before, after, ?_, ?_⟩
  · rw [parts, List.append_assoc]
  · rw [first, last, utf8Size_append]

end BlockScript
