import BlockScript.Proofs.Printing.RoundTrip

/-!
# The parentheses of a printed expression

An expression is printed as each of its parts with pieces before and after it (`Expr.Part`). A
grouping is a pair of parentheses around an operand of a binary operation, at any depth: either the
operation is the expression itself, or the grouping is one of a part (`Expr.Grouping`). Every opening
parenthesis of a printed expression is that of a call, right behind a name, or that of a grouping
(`Expr.exists_grouping`).

Where a grouping stands, no lexeme could cling to what is inside of it. So the pieces stay legible
without the pair.
-/

namespace BlockScript

namespace Piece

/-! ## Items of a list -/

/-- Lists of pieces, with a comma and a blank behind each. -/
def leading (items : List (List Piece)) : List Piece := items.flatMap (· ++ [.mark .comma, .blank])

/-- Lists of pieces, with a comma and a blank in front of each. -/
def trailing (items : List (List Piece)) : List Piece := items.flatMap ([.mark .comma, .blank] ++ ·)

theorem separated_cons (item : List Piece) (others : List (List Piece)) :
    separated (item :: others) = item ++ trailing others := by
  induction others generalizing item with
  | nil => simp [separated, trailing]
  | cons second others ih =>
    rw [separated, ih]
    · simp [trailing]
    · simp

theorem separated_append_cons (before : List (List Piece)) (item : List Piece)
    (after : List (List Piece)) :
    separated (before ++ item :: after) = leading before ++ item ++ trailing after := by
  induction before with
  | nil => simp [separated_cons, leading]
  | cons first before ih =>
    obtain ⟨second, others, equal⟩ : ∃ second others, before ++ item :: after = second :: others := by
      cases before <;> exact ⟨_, _, rfl⟩
    rw [List.cons_append, equal, separated, ← equal, ih]
    · simp [leading]
    · simp

/-! ## Frames -/

/-- No lexeme clings to what is put between `before` and `after`. -/
structure Framed (before after : List Piece) : Prop where
  behind : ∀ piece ∈ before.getLast?, piece.isSticky = false
  ahead : ∀ piece ∈ after.head?, piece.isSticky = false

theorem Framed.nest {front back before after : List Piece} (outer : Framed front back)
    (inner : Framed before after) : Framed (front ++ before) (after ++ back) where
  behind := by
    intro piece mem
    rw [List.getLast?_append] at mem
    cases last : before.getLast? with
    | none =>
      rw [last] at mem
      exact outer.behind piece mem
    | some final =>
      rw [last] at mem
      cases mem
      exact inner.behind piece last
  ahead := by
    intro piece mem
    rw [List.head?_append] at mem
    cases first : after.head? with
    | none =>
      rw [first] at mem
      exact outer.ahead piece mem
    | some front =>
      rw [first] at mem
      cases mem
      exact inner.ahead piece first

theorem quiet_append {first second : List Piece} (present : second ≠ [])
    (quiet : ∀ piece ∈ second.getLast?, piece.isSticky = false) :
    ∀ piece ∈ (first ++ second).getLast?, piece.isSticky = false := by
  rwa [List.getLast?_append_of_ne_nil _ present]

theorem quiet_of_leading {first : Piece} (quiet : first.isSticky = false) (items : List (List Piece)) :
    ∀ piece ∈ (first :: leading items).getLast?, piece.isSticky = false := by
  obtain rfl | ⟨items, item, rfl⟩ := items.eq_nil_or_concat'
  · simpa [leading] using quiet
  · have last : (first :: leading (items ++ [item])).getLast? = some .blank := by
      simp [leading, ← List.append_assoc, List.getLast?_cons]
    rw [last]
    rintro _ ⟨⟩
    rfl

theorem quiet_of_trailing {final : Piece} (quiet : final.isSticky = false)
    (items : List (List Piece)) :
    ∀ piece ∈ (trailing items ++ [final]).head?, piece.isSticky = false := by
  cases items with
  | nil => simpa [trailing] using quiet
  | cons item items =>
    rintro _ ⟨⟩
    rfl

/-- Pieces in a frame are still spaced without the two pieces around them. -/
theorem Spaced.unwrap {holds : Piece → Prop} {before inside after : List Piece} {opening closing : Piece}
    (spaced : Spaced holds (before ++ opening :: inside ++ closing :: after))
    (framed : Framed before after) : Spaced holds (before ++ inside ++ after) where
  each piece mem := by
    apply spaced.each
    simp only [List.mem_append, List.mem_cons] at mem ⊢
    tauto
  apart := by
    obtain ⟨front, back, -⟩ := List.isChain_append.mp spaced.apart
    obtain ⟨first, middle, -⟩ := List.isChain_append.mp front
    have joined := List.isChain_append.mpr ⟨first, middle.tail, fun left last right _ sticky => by
      rw [framed.behind left last] at sticky
      contradiction⟩
    exact List.isChain_append.mpr ⟨joined, back.tail, fun _ _ right head _ => framed.ahead right head⟩

end Piece

open Piece

/-! ## Parts -/

/-- The pieces of an entry. -/
def Entry.pieces (entry : Entry Expr) : List Piece :=
  entry.key.pieces ++ .mark .colon :: .blank :: entry.value.pieces

/-- The pieces of an item of a list. -/
def Item.pieces : Item → List Piece
  | .expression expr => expr.pieces
  | .entry pair => pair.pieces
  | .parameter name => [.name name]

theorem Item.map_pieces_expression (exprs : List Expr) :
    (exprs.map Item.expression).map Item.pieces = exprs.map Expr.pieces :=
  List.map_map

theorem Item.map_pieces_entry (entries : List (Entry Expr)) :
    (entries.map Item.entry).map Item.pieces = entries.map Entry.pieces :=
  List.map_map

namespace Expr

theorem listPieces_eq (exprs : List Expr) : listPieces exprs = separated (exprs.map pieces) := by
  induction exprs with
  | nil => rfl
  | cons expr others ih =>
    cases others with
    | nil => exact listPieces_single expr
    | cons second others =>
      rw [listPieces_cons, ih]
      simp [separated]

theorem entryPieces_eq (entries : List (Entry Expr)) :
    entryPieces entries = separated (entries.map Entry.pieces) := by
  induction entries with
  | nil => rfl
  | cons entry others ih =>
    cases others with
    | nil => exact entryPieces_single entry.key entry.value
    | cons second others =>
      rw [entryPieces_cons, ih]
      simp [separated, Entry.pieces]

/-- The pieces of the binary operation behind its left operand. -/
def piecesBehind (operator : Operator) (right : Expr) : List Piece :=
  .blank :: .lexeme ⟨operator.kind, none⟩ :: .blank ::
    grouped (right.needsGroupRightOf operator) right.pieces

/-- The pieces of the binary operation in front of its right operand. -/
def piecesAhead (operator : Operator) (left : Expr) : List Piece :=
  grouped (left.needsGroupLeftOf operator) left.pieces ++
    [.blank, .lexeme ⟨operator.kind, none⟩, .blank]

/-- `expr.Part part before after`: the expression is printed as its part between these pieces. The
parentheses that an operand needs belong to the pieces around it. -/
inductive Part : Expr → Expr → List Piece → List Piece → Prop
  | left (operator : Operator) (left right : Expr) :
      Part (.binary operator left right) left (opened (left.needsGroupLeftOf operator) [])
        (closed (left.needsGroupLeftOf operator) (piecesBehind operator right))
  | right (operator : Operator) (left right : Expr) :
      Part (.binary operator left right) right
        (piecesAhead operator left ++ opened (right.needsGroupRightOf operator) [])
        (closed (right.needsGroupRightOf operator) [])
  | value (value index : Expr) :
      Part (.member value index) value [] (.mark .openBracket :: index.pieces ++ [.mark .closeBracket])
  | index (value index : Expr) :
      Part (.member value index) index (value.pieces ++ [.mark .openBracket]) [.mark .closeBracket]
  | selected (value : Expr) (target : String) :
      Part (.selected value target) value [] [.lexeme (.selector target)]
  | argument (callee : String) (before : List Expr) (argument : Expr) (after : List Expr) :
      Part (.call callee (before ++ argument :: after)) argument
        (.name callee :: .mark .openParen :: leading (before.map pieces))
        (trailing (after.map pieces) ++ [.mark .closeParen])
  | element (before : List Expr) (element : Expr) (after : List Expr) :
      Part (.array (before ++ element :: after)) element
        (.mark .openBracket :: leading (before.map pieces))
        (trailing (after.map pieces) ++ [.mark .closeBracket])
  | key (before : List (Entry Expr)) (entry : Entry Expr) (after : List (Entry Expr)) :
      Part (.object (before ++ entry :: after)) entry.key
        (.mark .openCurly :: leading (before.map Entry.pieces))
        (.mark .colon :: .blank :: entry.value.pieces ++ trailing (after.map Entry.pieces) ++
          [.mark .closeCurly])
  | entry (before : List (Entry Expr)) (entry : Entry Expr) (after : List (Entry Expr)) :
      Part (.object (before ++ entry :: after)) entry.value
        (.mark .openCurly :: leading (before.map Entry.pieces) ++ entry.key.pieces ++
          [.mark .colon, .blank])
        (trailing (after.map Entry.pieces) ++ [.mark .closeCurly])

theorem pieces_binary_left (operator : Operator) (left right : Expr) :
    (binary operator left right).pieces =
      grouped (left.needsGroupLeftOf operator) left.pieces ++ piecesBehind operator right :=
  pieces_binary operator left right

theorem pieces_binary_right (operator : Operator) (left right : Expr) :
    (binary operator left right).pieces =
      piecesAhead operator left ++ grouped (right.needsGroupRightOf operator) right.pieces := by
  rw [pieces_binary, piecesAhead, List.append_assoc]
  rfl

section
variable {expr part : Expr} {before after : List Piece}

theorem Part.pieces_eq (place : expr.Part part before after) :
    expr.pieces = before ++ part.pieces ++ after := by
  cases place with
  | left operator left right =>
    rw [pieces_binary_left, ← opened_append_closed, List.append_assoc, ← opened_append]
    rfl
  | right operator left right =>
    rw [pieces_binary_right, List.append_assoc, List.append_assoc, ← opened_append, List.nil_append,
      opened_append_closed, List.append_nil]
  | value => simp [pieces_member]
  | index => simp [pieces_member]
  | selected => simp [pieces_selected]
  | argument => simp [pieces_call, listPieces_eq, separated_append_cons]
  | element => simp [pieces_array, listPieces_eq, separated_append_cons]
  | key => simp [pieces_object, entryPieces_eq, separated_append_cons, Entry.pieces]
  | entry => simp [pieces_object, entryPieces_eq, separated_append_cons, Entry.pieces]

theorem Part.framed (place : expr.Part part before after) : Framed before after := by
  cases place with
  | left operator _ right =>
    cases part.needsGroupLeftOf operator with
    | false => exact ⟨by rintro _ ⟨⟩, by rintro _ ⟨⟩; rfl⟩
    | true => exact ⟨by rintro _ ⟨⟩; rfl, by rintro _ ⟨⟩; rfl⟩
  | right operator left =>
    cases part.needsGroupRightOf operator with
    | false =>
      rw [opened, if_neg Bool.false_ne_true, List.append_nil]
      exact ⟨quiet_append (by simp) (by rintro _ ⟨⟩; rfl), by rintro _ ⟨⟩⟩
    | true =>
      exact ⟨quiet_append (List.cons_ne_nil _ _) (by rintro _ ⟨⟩; rfl), by rintro _ ⟨⟩; rfl⟩
  | value | selected => exact ⟨by rintro _ ⟨⟩, by rintro _ ⟨⟩; rfl⟩
  | index => exact ⟨quiet_append (by simp) (by rintro _ ⟨⟩; rfl), by rintro _ ⟨⟩; rfl⟩
  | argument callee before argument after =>
    refine ⟨?_, quiet_of_trailing rfl _⟩
    rw [List.getLast?_cons_cons]
    exact quiet_of_leading rfl _
  | element => exact ⟨quiet_of_leading rfl _, quiet_of_trailing rfl _⟩
  | key => exact ⟨quiet_of_leading rfl _, by rintro _ ⟨⟩; rfl⟩
  | entry => exact ⟨quiet_append (by simp) (by rintro _ ⟨⟩; rfl), quiet_of_trailing rfl _⟩

end

/-! ## Groupings -/

/-- `expr.Grouping before inside after`: the expression is printed with parentheses around `inside`,
which is an operand that needs them, between these other pieces. -/
inductive Grouping : Expr → List Piece → List Piece → List Piece → Prop
  | left {operator : Operator} {left right : Expr} (needed : left.needsGroupLeftOf operator) :
      Grouping (.binary operator left right) [] left.pieces (piecesBehind operator right)
  | right {operator : Operator} {left right : Expr} (needed : right.needsGroupRightOf operator) :
      Grouping (.binary operator left right) (piecesAhead operator left) right.pieces []
  | within {expr part : Expr} {front back before inside after : List Piece}
      (place : expr.Part part front back) (inner : Grouping part before inside after) :
      Grouping expr (front ++ before) inside (after ++ back)

namespace Grouping

variable {expr : Expr} {before inside after : List Piece}

theorem pieces_eq (grouping : expr.Grouping before inside after) :
    expr.pieces = before ++ .mark .openParen :: inside ++ .mark .closeParen :: after := by
  induction grouping with
  | left needed =>
    rw [pieces_binary_left, needed, grouped, if_pos rfl]
    simp
  | right needed =>
    rw [pieces_binary_right, needed, grouped, if_pos rfl]
    simp
  | within place _ ih =>
    rw [place.pieces_eq, ih]
    simp

theorem framed (grouping : expr.Grouping before inside after) : Framed before after := by
  induction grouping with
  | left => exact ⟨by rintro _ ⟨⟩, by rintro _ ⟨⟩; rfl⟩
  | right => exact ⟨quiet_append (by simp) (by rintro _ ⟨⟩; rfl), by rintro _ ⟨⟩⟩
  | within place _ ih => exact place.framed.nest ih

/-- The pieces are legible without the parentheses. -/
theorem legible (grouping : expr.Grouping before inside after) (producible : expr.Producible) :
    Legible (before ++ inside ++ after) := by
  have whole := expr.legible producible
  rw [grouping.pieces_eq] at whole
  exact whole.unwrap grouping.framed

end Grouping

/-! ## Opening parentheses -/

/-- Every opening parenthesis in `middle`, which stands between `front` and `back` in the printed
expression, is that of a call or that of a grouping. -/
def Accounts (expr : Expr) (front middle back : List Piece) : Prop :=
  ∀ before rest, middle = before ++ .mark .openParen :: rest →
    (∃ callee, (front ++ before).getLast? = some (.name callee)) ∨
      ∃ inside after, rest ++ back = inside ++ .mark .closeParen :: after ∧
        expr.Grouping (front ++ before) inside after

namespace Accounts

variable {expr part : Expr} {front middle back : List Piece}

theorem others (none : ∀ piece ∈ middle, piece ≠ .mark .openParen) :
    Accounts expr front middle back := by
  rintro before rest rfl
  exact absurd rfl (none (.mark .openParen) (by simp))

theorem append {first second : List Piece} (left : Accounts expr front first (second ++ back))
    (right : Accounts expr (front ++ first) second back) :
    Accounts expr front (first ++ second) back := by
  intro before rest split
  obtain ⟨middle, equal, behind⟩ | ⟨middle, equal, behind⟩ := List.append_eq_append_iff.mp split
  · have found := right middle rest behind
    rwa [List.append_assoc, ← equal] at found
  · cases middle with
    | nil =>
      rw [List.append_nil] at equal
      have found := right [] rest behind.symm
      rwa [List.append_nil, equal] at found
    | cons piece middle =>
      obtain ⟨rfl, rfl⟩ := List.cons.inj behind
      have found := left before middle equal
      rwa [← List.append_assoc] at found

/-- An opening parenthesis behind a name is that of a call. -/
theorem of_call (callee : String) (named : front.getLast? = some (.name callee)) :
    Accounts expr front [.mark .openParen] back := by
  intro before rest split
  obtain ⟨rfl, -⟩ | ⟨-, ⟨⟩⟩ := List.singleton_eq_append_iff.mp split
  exact .inl ⟨callee, by rwa [List.append_nil]⟩

theorem of_grouping {inside after : List Piece} (grouping : expr.Grouping front inside after) :
    Accounts expr front [.mark .openParen] (inside ++ .mark .closeParen :: after) := by
  intro before rest split
  obtain ⟨rfl, same⟩ | ⟨-, ⟨⟩⟩ := List.singleton_eq_append_iff.mp split
  obtain ⟨-, rfl⟩ := List.cons.inj same
  rw [List.append_nil]
  exact .inr ⟨inside, after, rfl, grouping⟩

theorem enclosed {opening closing : Piece} (closes : closing ≠ .mark .openParen)
    (opens : Accounts expr front [opening] (middle ++ closing :: back))
    (inside : Accounts expr (front ++ [opening]) middle (closing :: back)) :
    Accounts expr front (opening :: middle ++ [closing]) back := by
  have ends : Accounts expr (front ++ [opening] ++ middle) [closing] back :=
    others (by simpa using closes)
  have behind : Accounts expr (front ++ [opening]) (middle ++ [closing]) back := inside.append ends
  have starts : Accounts expr front [opening] (middle ++ [closing] ++ back) := by simpa using opens
  exact starts.append behind

/-- What is known of a part is known of the expression. -/
theorem of_part (place : expr.Part part front back) (known : Accounts part [] part.pieces []) :
    Accounts expr front part.pieces back := by
  intro before rest split
  obtain ⟨callee, last⟩ | ⟨inside, after, closes, inner⟩ := known before rest split
  · left
    refine ⟨callee, ?_⟩
    rw [List.getLast?_append, ← List.nil_append before, last]
    rfl
  · right
    rw [List.append_nil] at closes
    exact ⟨inside, after ++ back, by simp [closes], .within place inner⟩

/-- An operand stands alone, or else in a grouping. -/
theorem of_operand {needed : Bool}
    (place : expr.Part part (front ++ opened needed []) (closed needed back))
    (grouping : needed → expr.Grouping front part.pieces back)
    (known : Accounts part [] part.pieces []) :
    Accounts expr front (grouped needed part.pieces) back := by
  have inside := of_part place known
  cases needed with
  | false => rwa [opened, if_neg Bool.false_ne_true, List.append_nil] at inside
  | true => exact .enclosed (by decide) (of_grouping (grouping rfl)) inside

/-- The items of a list, of which some have been printed already. -/
theorem of_separated {items : List (List Piece)}
    (each : ∀ before item after, items = before ++ item :: after →
      Accounts expr (front ++ leading before) item (trailing after ++ back)) :
    ∀ before after, items = before ++ after →
      Accounts expr (front ++ leading before) (separated after) back
  | _, [], _ => others nofun
  | before, [item], split => by simpa [separated, trailing] using each before item [] split
  | before, item :: second :: after, split => by
    have here := each before item (second :: after) split
    have rest := of_separated each (before ++ [item]) (second :: after) (by simp [split])
    have comma : Accounts expr (front ++ leading before ++ item) [.mark .comma, .blank]
        (separated (second :: after) ++ back) := others (by simp [Piece.mark, Lexeme.symbol])
    have behind : Accounts expr (front ++ leading before ++ item)
        ([.mark .comma, .blank] ++ separated (second :: after)) back :=
      comma.append (by simpa [leading] using rest)
    rw [separated, List.append_assoc]
    · refine append ?_ behind
      simpa [trailing, separated_cons] using here
    · simp

theorem of_list {exprs : List Expr}
    (place : ∀ before part after, exprs = before ++ part :: after →
      expr.Part part (front ++ leading (before.map pieces)) (trailing (after.map pieces) ++ back))
    (known : ∀ part ∈ exprs, Accounts part [] part.pieces []) :
    Accounts expr front (listPieces exprs) back := by
  have each (before : List (List Piece)) (item : List Piece) (after : List (List Piece))
      (split : exprs.map pieces = before ++ item :: after) :
      Accounts expr (front ++ leading before) item (trailing after ++ back) := by
    obtain ⟨first, others, same, rfl, rest⟩ := List.map_eq_append_iff.mp split
    obtain ⟨part, last, rfl, rfl, rfl⟩ := List.map_eq_cons_iff.mp rest
    exact of_part (place first part last same) (known part (by simp [same]))
  have whole := of_separated each [] _ rfl
  rwa [leading, List.flatMap_nil, List.append_nil, ← listPieces_eq] at whole

theorem of_entries {entries : List (Entry Expr)}
    (key : ∀ before entry after, entries = before ++ entry :: after →
      expr.Part entry.key (front ++ leading (before.map Entry.pieces))
        (.mark .colon :: .blank :: entry.value.pieces ++ trailing (after.map Entry.pieces) ++ back))
    (value : ∀ before entry after, entries = before ++ entry :: after →
      expr.Part entry.value
        (front ++ leading (before.map Entry.pieces) ++ entry.key.pieces ++ [.mark .colon, .blank])
        (trailing (after.map Entry.pieces) ++ back))
    (known : ∀ entry ∈ entries, Accounts entry.key [] entry.key.pieces [] ∧
      Accounts entry.value [] entry.value.pieces []) :
    Accounts expr front (entryPieces entries) back := by
  have each (before : List (List Piece)) (item : List Piece) (after : List (List Piece))
      (split : entries.map Entry.pieces = before ++ item :: after) :
      Accounts expr (front ++ leading before) item (trailing after ++ back) := by
    obtain ⟨first, others, same, rfl, rest⟩ := List.map_eq_append_iff.mp split
    obtain ⟨entry, last, rfl, rfl, rfl⟩ := List.map_eq_cons_iff.mp rest
    obtain ⟨keyKnown, valueKnown⟩ := known entry (by simp [same])
    have before := of_part (key first entry last same) keyKnown
    have behind := of_part (value first entry last same) valueKnown
    have colon : Accounts expr (front ++ leading (first.map Entry.pieces) ++ entry.key.pieces)
        [.mark .colon, .blank]
        (entry.value.pieces ++ (trailing (last.map Entry.pieces) ++ back)) := others (by decide)
    have colonBehind := colon.append behind
    rw [List.append_assoc] at before
    exact before.append colonBehind
  have whole := of_separated each [] _ rfl
  rwa [leading, List.flatMap_nil, List.append_nil, ← entryPieces_eq] at whole

end Accounts

mutual

/-- Every opening parenthesis of a printed expression is that of a call or that of a grouping. -/
theorem accounts : ∀ expr : Expr, Accounts expr [] expr.pieces []
  | .number _ | .text _ | .name _ | .selector _ => .others (List.forall_mem_singleton.mpr nofun)
  | .member value index => by
    have bracket : Accounts (.member value index) value.pieces [.mark .openBracket]
        (index.pieces ++ [.mark .closeBracket]) := .others (by decide)
    have inside := Accounts.of_part (.index value index) (accounts index)
    have behind := bracket.enclosed (by decide) inside
    have onto := Accounts.of_part (.value value index) (accounts value)
    rw [pieces_member]
    exact Accounts.append (by simpa using onto) behind
  | .selected value target => by
    have onto := Accounts.of_part (.selected value target) (accounts value)
    rw [pieces_selected]
    exact onto.append (.others (List.forall_mem_singleton.mpr nofun))
  | .binary operator left right => by
    have onLeft := Accounts.of_operand (.left operator left right) .left (accounts left)
    have onRight := Accounts.of_operand (.right operator left right) .right (accounts right)
    have sign : Accounts (.binary operator left right)
        (grouped (left.needsGroupLeftOf operator) left.pieces)
        [.blank, .lexeme ⟨operator.kind, none⟩, .blank]
        (grouped (right.needsGroupRightOf operator) right.pieces ++ []) := by
      apply Accounts.others
      cases operator <;> decide
    have behind := sign.append onRight
    rw [pieces_binary_left]
    exact Accounts.append (by simpa using onLeft) behind
  | .call callee arguments => by
    have name : Accounts (.call callee arguments) [] [.name callee]
        (.mark .openParen :: listPieces arguments ++ [.mark .closeParen] ++ []) :=
      .others (List.forall_mem_singleton.mpr nofun)
    have inside : Accounts (.call callee arguments) [.name callee, .mark .openParen]
        (listPieces arguments) [.mark .closeParen] := by
      refine .of_list (fun before part after split => ?_) (accounts_list arguments)
      subst split
      exact .argument callee before part after
    have call : Accounts (.call callee arguments) [.name callee]
        (.mark .openParen :: listPieces arguments ++ [.mark .closeParen]) [] :=
      .enclosed (by decide) (.of_call callee rfl) inside
    rw [pieces_call]
    exact name.append call
  | .array elements => by
    have inside : Accounts (.array elements) [.mark .openBracket] (listPieces elements)
        [.mark .closeBracket] := by
      refine .of_list (fun before part after split => ?_) (accounts_list elements)
      subst split
      exact .element before part after
    rw [pieces_array]
    exact .enclosed (by decide) (.others (by decide)) inside
  | .object entries => by
    have inside : Accounts (.object entries) [.mark .openCurly] (entryPieces entries)
        [.mark .closeCurly] := by
      refine .of_entries (fun before entry after split => ?_) (fun before entry after split => ?_)
        (accounts_entries entries)
      · subst split
        exact .key before entry after
      · subst split
        exact .entry before entry after
    rw [pieces_object]
    exact .enclosed (by decide) (.others (by decide)) inside

theorem accounts_list : ∀ exprs : List Expr, ∀ expr ∈ exprs, Accounts expr [] expr.pieces []
  | [] => List.forall_mem_nil _
  | expr :: others => List.forall_mem_cons.mpr ⟨accounts expr, accounts_list others⟩

theorem accounts_entries : ∀ entries : List (Entry Expr), ∀ entry ∈ entries,
    Accounts entry.key [] entry.key.pieces [] ∧ Accounts entry.value [] entry.value.pieces []
  | [] => List.forall_mem_nil _
  | ⟨key, value⟩ :: others =>
    List.forall_mem_cons.mpr ⟨⟨accounts key, accounts value⟩, accounts_entries others⟩

end

/-- An opening parenthesis that is not right behind a name is that of a grouping. -/
theorem exists_grouping {expr : Expr} {before rest : List Piece}
    (split : expr.pieces = before ++ .mark .openParen :: rest)
    (alone : ∀ callee, before.getLast? ≠ some (.name callee)) :
    ∃ inside after, rest = inside ++ .mark .closeParen :: after ∧
      expr.Grouping before inside after := by
  obtain ⟨callee, named⟩ | ⟨inside, after, closes, grouping⟩ := expr.accounts before rest split
  · exact absurd named (alone callee)
  · rw [List.append_nil] at closes
    exact ⟨inside, after, closes, grouping⟩

end Expr

end BlockScript
