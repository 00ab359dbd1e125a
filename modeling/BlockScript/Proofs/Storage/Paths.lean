import BlockScript.Storage.Directory

/-!
# Where dumps are written

The dumps of a script lie in the directory of the script, and their names are made of its stem
(`placeOf_dumpPath`). A path that names no file has its dumps below the place that it leads to. In
both cases no dump lies where the script does (`placeOf_dumpPath_ne`), not even if the script has
the name of a dump, and no two kinds of dumps lie at one place (`placeOf_dumpPath_ne_dumpPath`).

Paths are compared by the places that they lead to, so spellings such as `a/./b` and `c/../a/b` are
not taken for different files.
-/

namespace BlockScript

/-! ## Parts of a path -/

theorem exists_pathParts_eq_cons (text : List Char) :
    ∃ part others, pathParts text = part :: others := by
  cases text with
  | nil => exact ⟨_, _, rfl⟩
  | cons c text =>
    rw [pathParts]
    split
    · exact ⟨_, _, rfl⟩
    · split <;> exact ⟨_, _, rfl⟩

theorem pathParts_cons_slash (text : List Char) :
    pathParts ('/' :: text) = [] :: pathParts text := by
  obtain ⟨part, others, parts⟩ := exists_pathParts_eq_cons text
  simp [pathParts, parts]

theorem pathParts_cons {c : Char} (inner : c ≠ '/') {text part : List Char}
    {others : List (List Char)} (parts : pathParts text = part :: others) :
    pathParts (c :: text) = (c :: part) :: others := by
  simp [pathParts, parts, inner]

theorem pathParts_append_slash (front back : List Char) :
    pathParts (front ++ '/' :: back) = pathParts front ++ pathParts back := by
  induction front with
  | nil => exact pathParts_cons_slash back
  | cons c front ih =>
    obtain ⟨part, others, parts⟩ := exists_pathParts_eq_cons front
    rw [parts] at ih
    by_cases slash : c = '/'
    · subst slash
      rw [List.cons_append, pathParts_cons_slash, pathParts_cons_slash, ih, parts]
      rfl
    · rw [List.cons_append, pathParts_cons slash ih, pathParts_cons slash parts]
      rfl

theorem pathParts_of_not_mem {name : List Char} (single : '/' ∉ name) :
    pathParts name = [name] := by
  induction name with
  | nil => rfl
  | cons c name ih =>
    rw [List.mem_cons, not_or] at single
    exact pathParts_cons (Ne.symm single.1) (ih single.2)

theorem not_mem_of_mem_pathParts {text part : List Char} (mem : part ∈ pathParts text) :
    '/' ∉ part := by
  induction text generalizing part with
  | nil =>
    rw [pathParts, List.mem_singleton] at mem
    rw [mem]
    exact List.not_mem_nil
  | cons c text ih =>
    obtain ⟨first, others, parts⟩ := exists_pathParts_eq_cons text
    rw [parts, List.forall_mem_cons] at ih
    by_cases slash : c = '/'
    · subst slash
      rw [pathParts_cons_slash, parts] at mem
      obtain rfl | mem := List.mem_cons.mp mem
      · exact List.not_mem_nil
      · obtain rfl | mem := List.mem_cons.mp mem
        · exact ih.1
        · exact ih.2 part mem
    · rw [pathParts_cons slash parts] at mem
      obtain rfl | mem := List.mem_cons.mp mem
      · rw [List.mem_cons, not_or]
        exact ⟨Ne.symm slash, ih.1⟩
      · exact ih.2 part mem

/-- Parts with a slash behind each, and a name. -/
theorem pathParts_flatMap {directory : List (List Char)} {name : List Char}
    (parts : ∀ part ∈ directory, '/' ∉ part) (single : '/' ∉ name) :
    pathParts (directory.flatMap (· ++ ['/']) ++ name) = directory ++ [name] := by
  induction directory with
  | nil => exact pathParts_of_not_mem single
  | cons part directory ih =>
    rw [List.forall_mem_cons] at parts
    rw [List.flatMap_cons, List.append_assoc, List.append_assoc, List.singleton_append,
      pathParts_append_slash, pathParts_of_not_mem parts.1, ih parts.2]
    rfl

/-! ## Walking along a path -/

namespace Directory

theorem foldl_next_of_idle {parts : List (List Char)} (idle : ∀ part ∈ parts, isIdlePart part)
    (place : Place) : parts.foldl next place = place := by
  induction parts with
  | nil => rfl
  | cons part parts ih =>
    rw [List.forall_mem_cons] at idle
    rw [List.foldl_cons, next, if_pos idle.1]
    exact ih idle.2

theorem next_of_named {part : List Char} (moves : ¬ isIdlePart part) (down : ¬ isParentPart part)
    (place : Place) : next place part = place ++ [part] := by
  rw [next, if_neg moves, if_neg down]

end Directory

/-- What is left out at the end of a list of parts is idle. -/
theorem exists_idle_eq_append (parts : List (List Char)) :
    ∃ idle, (∀ part ∈ idle, isIdlePart part) ∧
      parts = (parts.reverse.dropWhile isIdlePart).reverse ++ idle := by
  refine ⟨(parts.reverse.takeWhile isIdlePart).reverse, ?_, ?_⟩
  · intro part mem
    exact List.all_eq_true.mp List.all_takeWhile part (List.mem_reverse.mp mem)
  · rw [← List.reverse_append, List.takeWhile_append_dropWhile, List.reverse_reverse]

theorem foldl_next_trimDirectory (directory : List (List Char)) (place : Place) :
    (trimDirectory directory).foldl Directory.next place =
      directory.foldl Directory.next place := by
  cases directory with
  | nil => rfl
  | cons first rest =>
    obtain ⟨idle, idles, whole⟩ := exists_idle_eq_append rest
    rw [trimDirectory, List.foldl_cons, List.foldl_cons]
    calc (rest.reverse.dropWhile isIdlePart).reverse.foldl Directory.next _
        = ((rest.reverse.dropWhile isIdlePart).reverse ++ idle).foldl Directory.next _ := by
          rw [List.foldl_append, Directory.foldl_next_of_idle idles]
      _ = rest.foldl Directory.next _ := by rw [← whole]

theorem mem_of_mem_trimDirectory {directory : List (List Char)} {part : List Char}
    (mem : part ∈ trimDirectory directory) : part ∈ directory := by
  cases directory with
  | nil => exact mem
  | cons first rest =>
    obtain rfl | mem := List.mem_cons.mp mem
    · exact List.mem_cons_self
    · have inside := (List.dropWhile_sublist _).subset (List.mem_reverse.mp mem)
      exact List.mem_cons_of_mem _ (List.mem_reverse.mp inside)

/-- A path that names a file has only idle parts behind the name. -/
theorem splitFile?_eq_some {path name : List Char} {directory : List (List Char)}
    (found : splitFile? path = some (directory, name)) :
    ¬ isIdlePart name ∧ ¬ isParentPart name ∧
      ∃ idle, (∀ part ∈ idle, isIdlePart part) ∧ pathParts path = directory ++ name :: idle := by
  obtain ⟨idle, idles, whole⟩ := exists_idle_eq_append (pathParts path)
  unfold splitFile? at found
  split at found
  · contradiction
  · rename_i last before parts
    split at found
    · contradiction
    · rename_i down
      cases found
      have first := List.head?_dropWhile_not isIdlePart (pathParts path).reverse
      rw [parts, List.head?_cons] at first
      rw [parts, List.reverse_cons, List.append_assoc] at whole
      exact ⟨by simpa using first, down, idle, idles, whole⟩

/-! ## Names of dumps -/

section
variable {kind other : String} {stem name : List Char}

/-- The last extension of the name of a dump is that of JSON. -/
theorem nameStem_dumpName (kind : String) (stem : List Char) :
    nameStem (dumpName kind stem) = stem ++ '.' :: kind.toList := by
  have extension : (dumpName kind stem).reverse.dropWhile (· != '.') =
      '.' :: (stem ++ '.' :: kind.toList).reverse := by
    rw [dumpName, List.reverse_append]
    rfl
  rw [nameStem, extension, List.tail_cons, List.reverse_reverse, if_neg (by simp)]

theorem dumpName_nameStem_ne (kind : String) (name : List Char) :
    dumpName kind (nameStem name) ≠ name := by
  intro same
  -- The stem of a dump's name keeps the kind, so it is longer than the stem that it is made of.
  have longer := nameStem_dumpName kind (nameStem name)
  rw [same] at longer
  have lengths := congrArg List.length longer
  rw [List.length_append, List.length_cons] at lengths
  omega

theorem dumpName_injective (same : dumpName kind stem = dumpName other stem) : kind = other := by
  have tails := List.append_cancel_right same
  exact String.toList_inj.mp (List.cons.inj (List.append_cancel_left tails)).2

theorem dumpName_named (kind : String) (stem : List Char) :
    ¬ isIdlePart (dumpName kind stem) ∧ ¬ isParentPart (dumpName kind stem) := by
  have length : 6 ≤ (dumpName kind stem).length := by
    simp only [dumpName, List.length_append, List.length_cons, String.length_toList]
    have json : ".json".length = 5 := by decide
    omega
  constructor
  · intro idle
    simp only [isIdlePart, Bool.or_eq_true, beq_iff_eq] at idle
    obtain none | dot := idle
    · simp [none] at length
    · simp [dot] at length
  · intro up
    simp only [isParentPart, beq_iff_eq] at up
    simp [up] at length

theorem not_mem_nameStem (single : '/' ∉ name) : '/' ∉ nameStem name := by
  intro mem
  rw [nameStem] at mem
  split at mem
  · exact single mem
  · have tail := List.mem_of_mem_tail (List.mem_reverse.mp mem)
    exact single (List.mem_reverse.mp ((List.dropWhile_sublist _).subset tail))

theorem not_mem_dumpName (plain : '/' ∉ kind.toList) (single : '/' ∉ stem) :
    '/' ∉ dumpName kind stem := by
  simp [dumpName, plain, single]

end

/-! ## Places of dumps -/

/-- The directory in which a script's dumps lie, and the stem of their names. -/
def dumpBase (path : String) : Place × List Char :=
  match splitFile? path.toList with
  | some (directory, name) => (directory.foldl Directory.next [], nameStem name)
  | none => (Directory.placeOf path, "program".toList)

theorem dumpBase_of_splitFile? {path : String} {directory : List (List Char)} {name : List Char}
    (found : splitFile? path.toList = some (directory, name)) :
    dumpBase path = (directory.foldl Directory.next [], nameStem name) ∧
      Directory.placeOf path = directory.foldl Directory.next [] ++ [name] := by
  obtain ⟨moves, down, idle, idles, parts⟩ := splitFile?_eq_some found
  constructor
  · rw [dumpBase, found]
  · rw [Directory.placeOf, parts, List.foldl_append, List.foldl_cons,
      Directory.foldl_next_of_idle idles, Directory.next_of_named moves down]

/-- Behind a path that is empty or ends with a slash, a name is a part of its own. -/
theorem exists_front_of_bare {path : List Char}
    (bare : path.isEmpty || path.getLast? == some '/') :
    ∃ front, ∀ name, '/' ∉ name → pathParts (path ++ name) = front ++ [name] := by
  rw [Bool.or_eq_true, List.isEmpty_iff, beq_iff_eq] at bare
  obtain rfl | last := bare
  · exact ⟨[], fun name single => pathParts_of_not_mem single⟩
  · obtain ⟨path, rfl⟩ := List.getLast?_eq_some_iff.mp last
    refine ⟨pathParts path, fun name single => ?_⟩
    rw [List.append_assoc, List.singleton_append, pathParts_append_slash,
      pathParts_of_not_mem single]

theorem placeOf_joinName {path : String} {name : List Char} (single : '/' ∉ name)
    (moves : ¬ isIdlePart name) (down : ¬ isParentPart name) :
    Directory.placeOf (String.ofList (joinName path.toList name)) =
      Directory.placeOf path ++ [name] := by
  rw [Directory.placeOf, Directory.placeOf, String.toList_ofList, joinName]
  split
  · rename_i bare
    obtain ⟨front, behind⟩ := exists_front_of_bare bare
    have whole := behind [] List.not_mem_nil
    rw [List.append_nil] at whole
    rw [behind name single, whole, List.foldl_append, List.foldl_append]
    exact Directory.next_of_named moves down _
  · rw [pathParts_append_slash, pathParts_of_not_mem single, List.foldl_append, List.foldl_cons,
      List.foldl_nil, Directory.next_of_named moves down]

section
variable {kind other : String}

/-- Where the dump of a kind lies. -/
theorem placeOf_dumpPath (plain : '/' ∉ kind.toList) (path : String) :
    Directory.placeOf (dumpPath kind path) =
      (dumpBase path).1 ++ [dumpName kind (dumpBase path).2] := by
  cases found : splitFile? path.toList with
  | some split =>
    obtain ⟨directory, name⟩ := split
    obtain ⟨moves, down, idle, idles, parts⟩ := splitFile?_eq_some found
    have single {part : List Char} (mem : part ∈ directory ++ name :: idle) : '/' ∉ part := by
      rw [← parts] at mem
      exact not_mem_of_mem_pathParts mem
    have plainName : '/' ∉ dumpName kind (nameStem name) :=
      not_mem_dumpName plain (not_mem_nameStem (single (by simp)))
    have named := dumpName_named kind (nameStem name)
    have plainParts : ∀ part ∈ trimDirectory directory, '/' ∉ part :=
      fun part mem => single (List.mem_append_left _ (mem_of_mem_trimDirectory mem))
    rw [(dumpBase_of_splitFile? found).1, dumpPath, found, Directory.placeOf, String.toList_ofList,
      pathParts_flatMap plainParts plainName, List.foldl_append, foldl_next_trimDirectory,
      List.foldl_cons, List.foldl_nil, Directory.next_of_named named.1 named.2]
  | none =>
    -- What ends the path is not replaced here: the dump lies below it.
    have named := dumpName_named kind "program".toList
    rw [dumpBase, dumpPath, found]
    exact placeOf_joinName (not_mem_dumpName plain (by decide)) named.1 named.2

/-- No dump lies where its script does. -/
theorem placeOf_dumpPath_ne (plain : '/' ∉ kind.toList) (path : String) :
    Directory.placeOf (dumpPath kind path) ≠ Directory.placeOf path := by
  rw [placeOf_dumpPath plain]
  cases found : splitFile? path.toList with
  | some split =>
    obtain ⟨directory, name⟩ := split
    obtain ⟨base, place⟩ := dumpBase_of_splitFile? found
    rw [base, place]
    intro same
    exact dumpName_nameStem_ne kind name (List.cons.inj (List.append_cancel_left same)).1
  | none =>
    rw [dumpBase, found]
    simp

/-- Dumps of two kinds lie at two places. -/
theorem placeOf_dumpPath_ne_dumpPath (plain : '/' ∉ kind.toList) (plain' : '/' ∉ other.toList)
    (distinct : kind ≠ other) (path : String) :
    Directory.placeOf (dumpPath kind path) ≠ Directory.placeOf (dumpPath other path) := by
  rw [placeOf_dumpPath plain, placeOf_dumpPath plain']
  intro same
  exact distinct (dumpName_injective (List.cons.inj (List.append_cancel_left same)).1)

end

end BlockScript
