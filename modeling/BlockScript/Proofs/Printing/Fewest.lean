import BlockScript.Proofs.Printing.Groupings

/-!
# The printer writes the fewest parentheses

Whatever lexemes an expression is derived from, the printer writes no more opening parentheses for it
than there are among them (`Derives.fewest`). The induction is on the derivation: an operand that is
printed in parentheses binds too loosely for its place, so there was a group.
-/

namespace BlockScript

open Piece

/-! ## Counting -/

/-- The number of opening parentheses among the lexemes. -/
def parentheses (words : List Lexeme) : Nat :=
  words.countP fun word => word.kind == .symbol .openParen

@[simp] theorem parentheses_nil : parentheses [] = 0 := rfl

@[simp] theorem parentheses_append (first second : List Lexeme) :
    parentheses (first ++ second) = parentheses first + parentheses second :=
  List.countP_append

theorem parentheses_cons_of_eq {word : Lexeme} (opens : word.kind = Symbol.openParen)
    (words : List Lexeme) : parentheses (word :: words) = parentheses words + 1 :=
  List.countP_cons_of_pos (beq_iff_eq.mpr opens)

theorem parentheses_cons_of_ne {word : Lexeme} {kind : Kind} (same : word.kind = kind)
    (other : kind ≠ Symbol.openParen) (words : List Lexeme) :
    parentheses (word :: words) = parentheses words :=
  List.countP_cons_of_neg fun opens => other (same.symm.trans (beq_iff_eq.mp opens))

theorem Operator.kind_ne_openParen (operator : Operator) : operator.kind ≠ Symbol.openParen := by
  cases operator <;> exact nofun

/-- The number of opening parentheses that the pieces are written with. -/
def Piece.parentheses (pieces : List Piece) : Nat := BlockScript.parentheses (words pieces)

namespace Piece

@[simp] theorem parentheses_append (first second : List Piece) :
    parentheses (first ++ second) = parentheses first + parentheses second := by
  simp [parentheses]

@[simp] theorem parentheses_nil : parentheses [] = 0 := rfl

@[simp] theorem parentheses_blank (pieces : List Piece) :
    parentheses (.blank :: pieces) = parentheses pieces := rfl

@[simp] theorem parentheses_openParen (pieces : List Piece) :
    parentheses (.mark .openParen :: pieces) = parentheses pieces + 1 :=
  parentheses_cons_of_eq rfl _

@[simp] theorem parentheses_mark {symbol : Symbol} (other : symbol ≠ .openParen)
    (pieces : List Piece) : parentheses (.mark symbol :: pieces) = parentheses pieces :=
  parentheses_cons_of_ne rfl (fun same => other (Kind.symbol.inj same)) _

@[simp] theorem parentheses_name (name : String) (pieces : List Piece) :
    parentheses (.name name :: pieces) = parentheses pieces :=
  parentheses_cons_of_ne (rfl : (Lexeme.identifier name).kind = .identifier) nofun _

@[simp] theorem parentheses_operator (operator : Operator) (pieces : List Piece) :
    parentheses (.lexeme ⟨operator.kind, none⟩ :: pieces) = parentheses pieces :=
  parentheses_cons_of_ne rfl operator.kind_ne_openParen _

theorem parentheses_grouped (needed : Bool) (pieces : List Piece) :
    parentheses (grouped needed pieces) = parentheses pieces + needed.toNat := by
  cases needed <;> simp [grouped]

theorem parentheses_separated (items : List (List Piece)) :
    parentheses (separated items) = parentheses items.flatten := by
  cases items with
  | nil => rfl
  | cons item others =>
    rw [separated_cons, List.flatten_cons, parentheses_append, parentheses_append]
    induction others with
    | nil => rfl
    | cons second others ih => simpa [trailing] using ih

end Piece

/-! ## Derivations -/

/-- The number of opening parentheses that the expression is printed with. -/
def Expr.parentheses (expr : Expr) : Nat := Piece.parentheses expr.pieces

/-- What is known of the lexemes of a phrase: there are enough opening parentheses for the printed
expression, and one more if the expression binds too loosely for its place. -/
def Phrase.Fewest (phrase : Phrase) (words : List Lexeme) : Prop :=
  match phrase with
  | .access expr | .value expr => expr.operator? = none ∧ expr.parentheses ≤ parentheses words
  | .operand expr => expr.parentheses ≤ parentheses words ∧
      (expr.operator? ≠ none → expr.parentheses + 1 ≤ parentheses words)
  | .expression least expr => expr.parentheses ≤ parentheses words ∧
      ∀ operator, expr.operator? = some operator → operator.precedence < least →
        expr.parentheses + 1 ≤ parentheses words
  | .item part => Piece.parentheses part.pieces ≤ parentheses words
  | .items parts => Piece.parentheses (parts.map Item.pieces).flatten ≤ parentheses words
  | _ => True

namespace Phrase.Fewest

variable {least : Nat} {expr : Expr} {words : List Lexeme}

/-- The parentheses of an operand are among the lexemes, if it needs any. -/
theorem add_le {needed : Bool} (fewest : (Phrase.expression least expr).Fewest words)
    (loose : needed → ∃ operator, expr.operator? = some operator ∧ operator.precedence < least) :
    expr.parentheses + needed.toNat ≤ parentheses words := by
  cases needed with
  | false => exact fewest.1
  | true =>
    obtain ⟨operator, known, looser⟩ := loose rfl
    exact fewest.2 operator known looser

end Phrase.Fewest

namespace Expr

theorem parentheses_call (callee : String) (arguments : List Expr) :
    (call callee arguments).parentheses = Piece.parentheses (arguments.map pieces).flatten + 1 := by
  simp [parentheses, pieces_call, listPieces_eq, Piece.parentheses_separated]

theorem parentheses_array (elements : List Expr) :
    (array elements).parentheses = Piece.parentheses (elements.map pieces).flatten := by
  simp [parentheses, pieces_array, listPieces_eq, Piece.parentheses_separated]

theorem parentheses_object (entries : List (Entry Expr)) :
    (object entries).parentheses = Piece.parentheses (entries.map Entry.pieces).flatten := by
  simp [parentheses, pieces_object, entryPieces_eq, Piece.parentheses_separated]

theorem parentheses_member (value index : Expr) :
    (member value index).parentheses = value.parentheses + index.parentheses := by
  simp [parentheses, pieces_member]

theorem parentheses_selected (value : Expr) (target : String) :
    (selected value target).parentheses = value.parentheses := by
  rw [parentheses, pieces_selected, Piece.parentheses_append]
  rfl

theorem parentheses_binary (operator : Operator) (left right : Expr) :
    (binary operator left right).parentheses =
      (left.parentheses + (left.needsGroupLeftOf operator).toNat) +
        (right.parentheses + (right.needsGroupRightOf operator).toNat) := by
  simp [parentheses, pieces_binary, Piece.parentheses_grouped]

end Expr

theorem Derives.fewest {room : Nat} {phrase : Phrase} {words : List Lexeme}
    (derived : Derives room phrase words) : phrase.Fewest words := by
  induction derived with
  | name kind => exact ⟨rfl, Nat.zero_le _⟩
  | @call room word opening closing arguments words kind opens inside closes ih =>
    have one : parentheses (word :: opening :: words ++ [closing]) = parentheses words + 1 := by
      simp [parentheses_cons_of_ne kind (by decide), parentheses_cons_of_eq opens,
        parentheses_cons_of_ne closes (by decide)]
    rw [Phrase.Fewest, Expr.parentheses_call, one, ← Item.map_pieces_expression]
    exact ⟨rfl, Nat.succ_le_succ ih⟩
  | @member room value index front words opening closing accessed opens inside closes ihAccessed
      ihInside =>
    have both : parentheses (front ++ opening :: words ++ [closing]) =
        parentheses front + parentheses words := by
      simp [parentheses_cons_of_ne opens (by decide), parentheses_cons_of_ne closes (by decide)]
    rw [Phrase.Fewest, Expr.parentheses_member, both]
    exact ⟨rfl, Nat.add_le_add ihAccessed.2 ihInside.1⟩
  | @selected room value front word accessed place kind ih =>
    have same : parentheses (front ++ [word]) = parentheses front := by
      simp [parentheses_cons_of_ne kind (by decide)]
    rw [Phrase.Fewest, Expr.parentheses_selected, same]
    exact ⟨rfl, ih.2⟩
  | number | text | selector => exact ⟨rfl, Nat.zero_le _⟩
  | accessed access ih => exact ih
  | @array room elements words opening closing opens inside closes ih =>
    have same : parentheses (opening :: words ++ [closing]) = parentheses words := by
      simp [parentheses_cons_of_ne opens (by decide), parentheses_cons_of_ne closes (by decide)]
    rw [Phrase.Fewest, Expr.parentheses_array, same, ← Item.map_pieces_expression]
    exact ⟨rfl, ih⟩
  | @object room entries words opening closing opens inside closes ih =>
    have same : parentheses (opening :: words ++ [closing]) = parentheses words := by
      simp [parentheses_cons_of_ne opens (by decide), parentheses_cons_of_ne closes (by decide)]
    rw [Phrase.Fewest, Expr.parentheses_object, same, ← Item.map_pieces_entry]
    exact ⟨rfl, ih⟩
  | single value ih => exact ⟨ih.2, fun some => absurd ih.1 some⟩
  | @group room expr words opening closing opens inside closes ih =>
    have one : parentheses (opening :: words ++ [closing]) = parentheses words + 1 := by
      simp [parentheses_cons_of_eq opens, parentheses_cons_of_ne closes (by decide)]
    rw [Phrase.Fewest, one]
    exact ⟨Nat.le_succ_of_le ih.1, fun _ => Nat.succ_le_succ ih.1⟩
  | operand operand ih => exact ⟨ih.1, fun operator known _ => ih.2 (by simp [known])⟩
  | @binary room least level operator left right front back sign stands binds onLeft kind onRight
      ihLeft ihRight =>
    obtain rfl := stands.eq_precedence
    have both := Nat.add_le_add (ihLeft.add_le Expr.looser_of_needsGroupLeftOf)
      (ihRight.add_le Expr.looser_of_needsGroupRightOf)
    refine ⟨?_, ?_⟩
    · rwa [Expr.parentheses_binary, parentheses_append,
        parentheses_cons_of_ne kind operator.kind_ne_openParen]
    · rintro _ ⟨⟩ looser
      exact absurd binds (Nat.not_le_of_lt looser)
  | element expression ih => exact ih.1
  | @entry room key value front back colon before kind behind ihBefore ihBehind =>
    have both := Nat.add_le_add ihBefore.1 ihBehind.1
    rw [Phrase.Fewest, parentheses_append, parentheses_cons_of_ne kind (by decide)]
    simpa [Item.pieces, Entry.pieces, Expr.parentheses] using both
  | parameter | noItem => exact Nat.zero_le _
  | lastItem only ih => simpa [Phrase.Fewest] using ih
  | @moreItems room item items front back comma first kind others ihFirst ihOthers =>
    rw [Phrase.Fewest, List.map_cons, List.flatten_cons, Piece.parentheses_append,
      parentheses_append, parentheses_cons_of_ne kind (by decide)]
    exact Nat.add_le_add ihFirst ihOthers
  | declaration | returningNothing | noStatement => trivial
  | _ => trivial

end BlockScript
