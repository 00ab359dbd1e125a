import BlockScript.Proofs.Printing.Fewest

/-!
# Printed parentheses are necessary

Without one of its groupings a printed expression is still an expression: operands with operators
between them always are (`Expresses.append`), whatever was grouped before. But it is a different one
(`reparse_of_grouping`). For an expression cannot be derived from fewer opening parentheses than it is
printed with (`Derives.fewest`), and without the grouping there is one less.
-/

namespace BlockScript

open Piece

theorem Lexeme.kind_symbol (symbol : Symbol) : (Lexeme.symbol symbol).kind = symbol := rfl

/-! ## Operands and operators -/

/-- The lexemes are those of some expression. -/
def Expresses (room : Nat) (words : List Lexeme) : Prop :=
  ∃ expr, Derives room (.expression 0 expr) words

section
variable {room : Nat} {operator : Operator} {sign : Lexeme}

/-- An operand behind an expression joins its right end, as far down as the operator binds tighter. -/
theorem Derives.exists_snoc (kind : sign.kind = operator.kind) {operand : Expr} {back : List Lexeme}
    (last : Derives room (.operand operand) back) : ∀ {least : Nat} {expr : Expr} {front : List Lexeme},
    least ≤ operator.precedence → Derives room (.expression least expr) front →
      ∃ other, Derives room (.expression least other) (front ++ sign :: back)
  | _, _, _, binds, .operand first =>
    ⟨_, .binary operator.atLevel_precedence binds (.operand first) kind (.operand last)⟩
  | _, _, _, binds, @Derives.binary _ _ level _ _ _ _ _ _ stands loose onLeft same onRight => by
    by_cases tighter : level < operator.precedence
    · obtain ⟨other, joined⟩ := exists_snoc kind last tighter onRight
      have whole := Derives.binary stands loose onLeft same joined
      rw [List.append_assoc, List.cons_append]
      exact ⟨_, whole⟩
    · have whole := Derives.binary stands (Nat.le_of_not_lt tighter) onLeft same onRight
      exact ⟨_, .binary operator.atLevel_precedence binds whole kind (.operand last)⟩

/-- An operator between two expressions makes one expression, of all their operands. -/
theorem Derives.expresses_append : ∀ {least : Nat} {expr : Expr} {front back : List Lexeme}
    {operator : Operator} {sign : Lexeme}, sign.kind = operator.kind → Expresses room front →
      Derives room (.expression least expr) back → Expresses room (front ++ sign :: back)
  | _, _, _, _, _, _, kind, ⟨_, first⟩, .operand last => last.exists_snoc kind (Nat.zero_le _) first
  | _, _, _, _, _, _, kind, front, .binary _ _ onLeft same onRight => by
    have joined := expresses_append same (expresses_append kind front onLeft) onRight
    rwa [List.append_assoc, List.cons_append] at joined

theorem Expresses.append {front back : List Lexeme} (first : Expresses room front)
    (kind : sign.kind = operator.kind) (second : Expresses room back) :
    Expresses room (front ++ sign :: back) := by
  obtain ⟨_, derived⟩ := second
  exact derived.expresses_append kind first

end

/-- Parentheses around an expression make an operand of it, at the cost of one level. -/
theorem Expresses.enclosed {inner : Nat} {words : List Lexeme} (inside : Expresses inner words)
    (needed : Bool) :
    Expresses (inner + needed.toNat) (Piece.words (opened needed []) ++ words ++
      Piece.words (closed needed [])) := by
  cases needed with
  | false => simpa [opened, closed] using inside
  | true =>
    obtain ⟨expr, derived⟩ := inside
    have group : Derives (inner + 1) (.operand expr)
      (.symbol .openParen :: words ++ [.symbol .closeParen]) := .group rfl derived rfl
    exact ⟨expr, .operand group⟩

/-! ## What can stand for a part -/

namespace Expr

/-- Where the expression stands, these lexemes can stand as well. -/
structure Replaces (room : Nat) (expr : Expr) (words : List Lexeme) : Prop where
  expression : Expresses room words
  access : expr.isAccess → ∃ other, other.isPlace = expr.isPlace ∧ Derives room (.access other) words

section
variable {room : Nat} {expr part : Expr} {before after : List Piece} {words : List Lexeme}

theorem Replaces.of_access {other : Expr} (derived : Derives room (.access other) words)
    (place : other.isPlace = expr.isPlace) : expr.Replaces room words where
  expression := ⟨other, .operand (.single (.accessed derived))⟩
  access _ := ⟨other, place, derived⟩

theorem Replaces.of_value {other : Expr} (derived : Derives room (.value other) words)
    (single : expr.isAccess = false) : expr.Replaces room words where
  expression := ⟨other, .operand (.single derived)⟩
  access access := by simp [single] at access

/-- Whatever stands for the operands, the operator between them makes one expression. -/
theorem Replaces.of_operands {operator : Operator} {left right : Expr} {front back : List Lexeme}
    (first : Expresses room front) (second : Expresses room back) :
    (binary operator left right).Replaces room (front ++ ⟨operator.kind, none⟩ :: back) where
  expression := first.append rfl second
  access access := by contradiction

end

end Expr

/-! ## Items -/

/-- An item can be put between others that are printed. -/
theorem derives_items_around {room : Nat} {item : Item} {words : List Lexeme}
    (here : Derives room (.item item) words) {before after : List Item}
    (front : ∀ other ∈ before, Derives room (.item other) (Piece.words other.pieces))
    (back : ∀ other ∈ after, Derives room (.item other) (Piece.words other.pieces)) :
    Derives room (.items (before ++ item :: after))
      (Piece.words (leading (before.map Item.pieces)) ++ words ++
        Piece.words (trailing (after.map Item.pieces))) := by
  induction before with
  | nil =>
    induction after generalizing item words with
    | nil => simpa [leading, trailing] using Derives.lastItem here
    | cons other after ih =>
      obtain ⟨next, others⟩ := List.forall_mem_cons.mp back
      have rest := ih next others
      have whole := Derives.moreItems here (Lexeme.kind_symbol .comma) rest
      simpa [leading, trailing] using whole
  | cons other before ih =>
    obtain ⟨first, others⟩ := List.forall_mem_cons.mp front
    have whole := Derives.moreItems first (Lexeme.kind_symbol .comma)
      (ih others)
    simpa [leading] using whole

namespace Expr

variable {room : Nat} {expr part : Expr} {before after : List Piece}

/-- An operand with the parentheses that it is printed with. -/
theorem expresses_grouped {needed : Bool} (producible : expr.Producible)
    (deep : expr.depth + needed.toNat ≤ room) :
    Expresses room (Piece.words (grouped needed expr.pieces)) :=
  ⟨expr, derives_grouped (fun room => printed expr room producible) deep fun _ _ _ => Nat.zero_le _⟩

theorem exists_inner_of_needed {deep : Nat} {needed : Bool} (fits : deep + needed.toNat ≤ room) :
    ∃ inner, room = inner + needed.toNat ∧ deep ≤ inner := by
  refine ⟨room - needed.toNat, ?_, Nat.le_sub_of_add_le fits⟩
  omega

/-- One expression of a list is replaced, and the others are as they are printed. -/
theorem derives_around {front back : List Expr} {other : Expr} {words : List Lexeme}
    (producible : AllProducible (front ++ part :: back))
    (deep : depthOfAll (front ++ part :: back) ≤ room)
    (derived : Derives room (.expression 0 other) words) :
    Derives room (.items ((front ++ other :: back).map .expression))
      (Piece.words (leading (front.map pieces)) ++ words ++
        Piece.words (trailing (back.map pieces))) := by
  rw [allProducible_iff] at producible
  rw [depthOfAll_le_iff] at deep
  have printed (exprs : List Expr) (among : exprs ⊆ front ++ part :: back) :
      ∀ item ∈ exprs.map Item.expression, Derives room (.item item) (Piece.words item.pieces) := by
    refine List.forall_mem_map.mpr fun expr mem => ?_
    exact .element (expr.derives (producible expr (among mem)) (deep expr (among mem)))
  have whole := derives_items_around (.element derived) (printed front (by simp))
    (printed back fun expr mem => by simp [mem])
  simpa only [List.map_append, List.map_cons, Item.map_pieces_expression] using whole

/-- One entry of a list is replaced, and the others are as they are printed. -/
theorem derives_entries_around {front back : List (Entry Expr)} {entry other : Entry Expr}
    {words : List Lexeme} (producible : EntriesProducible (front ++ entry :: back))
    (deep : depthOfEntries (front ++ entry :: back) ≤ room)
    (derived : Derives room (.item (.entry other)) words) :
    Derives room (.items ((front ++ other :: back).map .entry))
      (Piece.words (leading (front.map Entry.pieces)) ++ words ++
        Piece.words (trailing (back.map Entry.pieces))) := by
  rw [entriesProducible_iff] at producible
  rw [depthOfEntries_le_iff] at deep
  have printed (entries : List (Entry Expr)) (among : entries ⊆ front ++ entry :: back) :
      ∀ item ∈ entries.map Item.entry, Derives room (.item item) (Piece.words item.pieces) := by
    refine List.forall_mem_map.mpr fun pair mem => ?_
    obtain ⟨keyOk, valueOk⟩ := producible pair (among mem)
    obtain ⟨keyDeep, valueDeep⟩ := deep pair (among mem)
    have whole := Derives.entry (pair.key.derives keyOk keyDeep)
      (Lexeme.kind_symbol .colon) (pair.value.derives valueOk valueDeep)
    simpa [Item.pieces, Entry.pieces] using whole
  have whole := derives_items_around derived (printed front (by simp))
    (printed back fun pair mem => by simp [mem])
  simpa only [List.map_append, List.map_cons, Item.map_pieces_entry] using whole

/-- What can stand for a part of an expression can stand between the pieces around the part. -/
theorem Part.replaces (place : expr.Part part before after) (producible : expr.Producible)
    (deep : expr.depth ≤ room) : ∃ inner, part.Producible ∧ part.depth ≤ inner ∧
      ∀ words, part.Replaces inner words →
        expr.Replaces room (Piece.words before ++ words ++ Piece.words after) := by
  cases place with
  | left operator _ right =>
    obtain ⟨partOk, rightOk⟩ := producible
    rw [depth, Nat.max_le] at deep
    obtain ⟨inner, rfl, shallow⟩ := exists_inner_of_needed deep.1
    refine ⟨inner, partOk, shallow, fun words replaces => ?_⟩
    have operand := replaces.expression.enclosed (part.needsGroupLeftOf operator)
    have changed : (binary operator part right).Replaces _ _ :=
      .of_operands operand (expresses_grouped rightOk deep.2)
    have split := closed_append (part.needsGroupLeftOf operator) [] (piecesBehind operator right)
    rw [List.nil_append] at split
    rw [split]
    simpa [piecesBehind] using changed
  | right operator left =>
    obtain ⟨leftOk, partOk⟩ := producible
    rw [depth, Nat.max_le] at deep
    obtain ⟨inner, rfl, shallow⟩ := exists_inner_of_needed deep.2
    refine ⟨inner, partOk, shallow, fun words replaces => ?_⟩
    have operand := replaces.expression.enclosed (part.needsGroupRightOf operator)
    have changed : (binary operator left part).Replaces _ _ :=
      .of_operands (expresses_grouped leftOk deep.1) operand
    simpa [piecesAhead] using changed
  | value _ index =>
    obtain ⟨access, valueOk, indexOk⟩ := producible
    rw [depth, Nat.max_le] at deep
    obtain ⟨inner, rfl, shallow⟩ := exists_inner deep.2
    refine ⟨inner + 1, valueOk, deep.1, fun words replaces => ?_⟩
    obtain ⟨other, -, derived⟩ := replaces.access access
    have whole := Derives.member derived (Lexeme.kind_symbol .openBracket)
      (index.derives indexOk shallow) (Lexeme.kind_symbol .closeBracket)
    have changed : (member part index).Replaces (inner + 1) _ := .of_access whole rfl
    simpa using changed
  | index value =>
    obtain ⟨access, valueOk, indexOk⟩ := producible
    rw [depth, Nat.max_le] at deep
    obtain ⟨inner, rfl, shallow⟩ := exists_inner deep.2
    refine ⟨inner, indexOk, shallow, fun words replaces => ?_⟩
    obtain ⟨other, derived⟩ := replaces.expression
    have accessed := (printed value (inner + 1) valueOk deep.1).access access
    have whole := Derives.member accessed
      (Lexeme.kind_symbol .openBracket) derived
      (Lexeme.kind_symbol .closeBracket)
    have changed : (member value part).Replaces (inner + 1) _ := .of_access whole rfl
    simpa using changed
  | selected _ target =>
    obtain ⟨place, valueOk, valid⟩ := producible
    refine ⟨room, valueOk, deep, fun words replaces => ?_⟩
    obtain ⟨other, same, derived⟩ := replaces.access (isAccess_of_isPlace place)
    have whole := Derives.selected derived (same.trans place)
      (rfl : (Lexeme.selector target).kind = .selector)
    have changed : (Expr.selected part target).Replaces room _ := .of_access whole rfl
    simpa using changed
  | argument callee front _ back =>
    obtain ⟨-, argumentsOk⟩ := producible
    obtain ⟨inner, rfl, shallow⟩ := exists_inner deep
    refine ⟨inner, ?_, ?_, fun words replaces => ?_⟩
    · exact allProducible_iff.mp argumentsOk part (by simp)
    · exact depthOfAll_le_iff.mp shallow part (by simp)
    obtain ⟨other, derived⟩ := replaces.expression
    have whole := Derives.call (rfl : (Lexeme.identifier callee).kind = .identifier)
      (Lexeme.kind_symbol .openParen)
      (derives_around argumentsOk shallow derived)
      (Lexeme.kind_symbol .closeParen)
    have changed : (call callee (front ++ part :: back)).Replaces (inner + 1) _ :=
      .of_access whole rfl
    simpa using changed
  | element front _ back =>
    obtain ⟨inner, rfl, shallow⟩ := exists_inner deep
    refine ⟨inner, ?_, ?_, fun words replaces => ?_⟩
    · exact allProducible_iff.mp producible part (by simp)
    · exact depthOfAll_le_iff.mp shallow part (by simp)
    obtain ⟨other, derived⟩ := replaces.expression
    have whole := Derives.array (Lexeme.kind_symbol .openBracket)
      (derives_around producible shallow derived)
      (Lexeme.kind_symbol .closeBracket)
    have changed : (array (front ++ part :: back)).Replaces (inner + 1) _ := .of_value whole rfl
    simpa using changed
  | key front entry back =>
    obtain ⟨inner, rfl, shallow⟩ := exists_inner deep
    have mem : entry ∈ front ++ entry :: back := by simp
    obtain ⟨keyOk, valueOk⟩ := entriesProducible_iff.mp producible entry mem
    obtain ⟨keyDeep, valueDeep⟩ := depthOfEntries_le_iff.mp shallow entry mem
    refine ⟨inner, keyOk, keyDeep, fun words replaces => ?_⟩
    obtain ⟨other, derived⟩ := replaces.expression
    have pair := Derives.entry derived (Lexeme.kind_symbol .colon)
      (entry.value.derives valueOk valueDeep)
    have whole := Derives.object (Lexeme.kind_symbol .openCurly)
      (derives_entries_around producible shallow pair)
      (Lexeme.kind_symbol .closeCurly)
    have changed : (object (front ++ entry :: back)).Replaces (inner + 1) _ := .of_value whole rfl
    simpa using changed
  | entry front entry back =>
    obtain ⟨inner, rfl, shallow⟩ := exists_inner deep
    have mem : entry ∈ front ++ entry :: back := by simp
    obtain ⟨keyOk, valueOk⟩ := entriesProducible_iff.mp producible entry mem
    obtain ⟨keyDeep, valueDeep⟩ := depthOfEntries_le_iff.mp shallow entry mem
    refine ⟨inner, valueOk, valueDeep, fun words replaces => ?_⟩
    obtain ⟨other, derived⟩ := replaces.expression
    have pair := Derives.entry (entry.key.derives keyOk keyDeep)
      (Lexeme.kind_symbol .colon) derived
    have whole := Derives.object (Lexeme.kind_symbol .openCurly)
      (derives_entries_around producible shallow pair)
      (Lexeme.kind_symbol .closeCurly)
    have changed : (object (front ++ entry :: back)).Replaces (inner + 1) _ := .of_value whole rfl
    simpa using changed

/-- Without one of its groupings, an expression is printed as something that can stand for it. -/
theorem Grouping.replaces {before inside after : List Piece}
    (grouping : expr.Grouping before inside after) (producible : expr.Producible)
    (deep : expr.depth ≤ room) :
    expr.Replaces room (Piece.words (before ++ inside ++ after)) := by
  induction grouping generalizing room with
  | @left operator left right needed =>
    obtain ⟨leftOk, rightOk⟩ := producible
    rw [depth, Nat.max_le] at deep
    have leftDeep : left.depth ≤ room := Nat.le_trans (Nat.le_add_right _ _) deep.1
    have changed : (binary operator left right).Replaces _ _ :=
      .of_operands ⟨left, left.derives leftOk leftDeep⟩ (expresses_grouped rightOk deep.2)
    simpa [piecesBehind] using changed
  | @right operator left right needed =>
    obtain ⟨leftOk, rightOk⟩ := producible
    rw [depth, Nat.max_le] at deep
    have rightDeep : right.depth ≤ room := Nat.le_trans (Nat.le_add_right _ _) deep.2
    have changed : (binary operator left right).Replaces _ _ :=
      .of_operands (expresses_grouped leftOk deep.1) ⟨right, right.derives rightOk rightDeep⟩
    simpa [piecesAhead] using changed
  | within place _ ih =>
    obtain ⟨inner, partOk, shallow, around⟩ := place.replaces producible deep
    have changed := around _ (ih partOk shallow)
    simpa using changed

end Expr

/-! ## Printed expressions -/

/-- The pieces as text. -/
def Piece.text (form : PrintForm) (pieces : List Piece) : String :=
  String.ofList (writeAll form pieces)

theorem Piece.text_append (form : PrintForm) (first second : List Piece) :
    text form (first ++ second) = text form first ++ text form second := by
  rw [text, writeAll, List.flatMap_append, String.ofList_append]
  rfl

section
variable {expr : Expr} {before inside after : List Piece}

/-- An expression is printed with each of its groupings in parentheses. Without this one pair, the text
is still that of one expression, and of another one. -/
theorem reparse_of_grouping (form : PrintForm) (producible : expr.Producible)
    (shallow : expr.depth ≤ nestingLimit) (grouping : expr.Grouping before inside after) :
    expr.print form = text form before ++ "(" ++ text form inside ++ ")" ++ text form after ∧
      ∃ other, parse (text form before ++ text form inside ++ text form after ++ ";") =
        .ok [.expression other] ∧ other ≠ expr := by
  constructor
  · have split : expr.pieces = before ++ [.mark .openParen] ++ inside ++ [.mark .closeParen] ++ after := by
      simp [grouping.pieces_eq]
    have printed : expr.print form = text form expr.pieces := rfl
    rw [printed, split, text_append, text_append, text_append, text_append]
    rfl
  · obtain ⟨other, derived⟩ := (grouping.replaces producible shallow).expression
    refine ⟨other, ?_, ?_⟩
    · have ends : IsSpelled (.mark .semicolon) := Lexeme.spelledBy_symbol .semicolon
      have legible := (grouping.legible producible).concat ends rfl
      have whole := Derives.moreStatements (.expression derived)
        (Lexeme.kind_symbol .semicolon) .noStatement
      have parsed := parse_of_legible form legible (by rwa [words_append])
      rwa [← text, text_append, text_append, text_append] at parsed
    · -- The same expression would be printed with more parentheses than it has been derived from.
      rintro rfl
      have fewest := derived.fewest.1
      change Piece.parentheses other.pieces ≤ Piece.parentheses (before ++ inside ++ after) at fewest
      have one : Piece.parentheses other.pieces =
          Piece.parentheses (before ++ inside ++ after) + 1 := by
        simp [grouping.pieces_eq]
        omega
      omega

/-- `d - (a - b) * c`, which reads `d - a - b * c` without the parentheses. -/
def remainder : Expr :=
  .binary .subtract (.name "d") (.binary .multiply (.binary .subtract (.name "a") (.name "b"))
    (.name "c"))

theorem reparse_of_grouping_remainder :
    remainder.Producible ∧ remainder.depth ≤ nestingLimit ∧
      remainder.print .pretty = "d - " ++ "(" ++ "a - b" ++ ")" ++ " * c" ∧
      ∃ other, parse ("d - " ++ "a - b" ++ " * c" ++ ";") = .ok [.expression other] ∧
        other ≠ remainder := by
  have isName : ∀ name ∈ ["a", "b", "c", "d"], IsName name.toList := by
    simp only [List.forall_mem_cons]
    refine ⟨?_, ?_, ?_, ?_, List.forall_mem_nil _⟩ <;>
      exact ⟨by decide, List.all_eq_true.mp rfl, rfl⟩
  have producible : remainder.Producible :=
    ⟨isName _ (by simp), ⟨isName _ (by simp), isName _ (by simp)⟩, isName _ (by simp)⟩
  have shallow : remainder.depth ≤ nestingLimit := by decide
  have grouping : remainder.Grouping [.name "d", .blank, .mark .minus, .blank]
      [.name "a", .blank, .mark .minus, .blank, .name "b"] [.blank, .mark .star, .blank, .name "c"] :=
    .within (.right .subtract (.name "d") _) (.left rfl)
  have front : text .pretty [.name "d", .blank, .mark .minus, .blank] = "d - " := by cbv
  have middle : text .pretty [.name "a", .blank, .mark .minus, .blank, .name "b"] = "a - b" := by cbv
  have back : text .pretty [.blank, .mark .star, .blank, .name "c"] = " * c" := by cbv
  have whole := reparse_of_grouping .pretty producible shallow grouping
  rw [front, middle, back] at whole
  exact ⟨producible, shallow, whole⟩

end

end BlockScript
