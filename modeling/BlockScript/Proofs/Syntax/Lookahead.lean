import BlockScript.Proofs.Syntax.Grammar
import BlockScript.Proofs.Syntax.Run

/-!
# What can be seen ahead

The parser decides by looking ahead: at the next token in most cases, and as far as the end of
the statement where an assignment and an expression both could start. This file says what there
is to be seen at and behind the front of a phrase.

`equalsAhead` is the scan for a `=`, on lexemes. An access lets it pass, at whatever depth it
is met (`Clear`). An expression lets it pass between brackets; outside of them the scan may end at
the brace of an object, but it finds no `=` (`Veiled`).
-/

namespace BlockScript

/-- Categories that neither end the scan for a `=` nor change its depth. -/
def Kind.isPassive : Kind → Bool
  | .symbol .equals | .symbol .semicolon | .finish | .symbol .openParen | .symbol .openBracket
  | .symbol .closeParen | .symbol .closeBracket | .symbol .openCurly | .keyword .while_ => false
  | _ => true

/-- `assignmentAhead` for lexemes. -/
def equalsAhead (depth : Nat) : List Lexeme → Bool
  | [] => false
  | word :: rest =>
      match word.kind with
      | .symbol .equals => true
      | .symbol .semicolon | .finish => false
      | .symbol .openParen | .symbol .openBracket => equalsAhead (depth + 1) rest
      | .symbol .closeParen | .symbol .closeBracket => equalsAhead (depth - 1) rest
      | .symbol .openCurly | .keyword .while_ =>
          if depth = 0 then false else equalsAhead depth rest
      | _ => equalsAhead depth rest

theorem assignmentAhead_eq (depth : Nat) (tokens : List Token) :
    assignmentAhead depth tokens = equalsAhead depth (tokens.map Token.toLexeme) := by
  induction tokens generalizing depth with
  | nil => rfl
  | cons token tokens ih =>
    rw [assignmentAhead, List.map_cons, equalsAhead]
    split <;> simp only [*]

section
variable {word : Lexeme} {rest : List Lexeme} {depth : Nat}

theorem equalsAhead_of_isPassive (passive : word.kind.isPassive) :
    equalsAhead depth (word :: rest) = equalsAhead depth rest := by
  rw [equalsAhead]
  split <;> simp_all [Kind.isPassive]

theorem equalsAhead_of_opens
    (opens : word.kind = Symbol.openParen ∨ word.kind = Symbol.openBracket) :
    equalsAhead depth (word :: rest) = equalsAhead (depth + 1) rest := by
  rcases opens with opens | opens <;> simp only [equalsAhead, opens]

theorem equalsAhead_of_closes
    (closes : word.kind = Symbol.closeParen ∨ word.kind = Symbol.closeBracket) :
    equalsAhead (depth + 1) (word :: rest) = equalsAhead depth rest := by
  rcases closes with closes | closes <;> simp only [equalsAhead, closes, Nat.add_sub_cancel]

theorem equalsAhead_of_openCurly (opens : word.kind = Symbol.openCurly) :
    equalsAhead depth (word :: rest) = (decide (depth ≠ 0) && equalsAhead depth rest) := by
  cases depth <;> simp [equalsAhead, opens]

end

/-! ## Phrases that hide no `=` -/

/-- The scan passes over the lexemes as if they were not there. -/
def Clear (words : List Lexeme) : Prop :=
  ∀ depth rest, equalsAhead depth (words ++ rest) = equalsAhead depth rest

/-- The scan passes over the lexemes inside brackets. Outside of them it may end at one of them,
but not at a `=`. -/
structure Veiled (words : List Lexeme) : Prop where
  inside : ∀ depth rest, equalsAhead (depth + 1) (words ++ rest) = equalsAhead (depth + 1) rest
  outside : ∀ rest, equalsAhead 0 (words ++ rest) → equalsAhead 0 rest

theorem Clear.veiled {words : List Lexeme} (clear : Clear words) : Veiled words where
  inside depth rest := clear (depth + 1) rest
  outside rest found := by rwa [clear 0 rest] at found

theorem Clear.nil : Clear [] := fun _ _ => rfl

theorem Clear.of_isPassive {word : Lexeme} (passive : word.kind.isPassive) : Clear [word] :=
  fun _ _ => equalsAhead_of_isPassive passive

theorem Clear.append {front back : List Lexeme} (first : Clear front) (second : Clear back) :
    Clear (front ++ back) := by
  intro depth rest
  rw [List.append_assoc, first, second]

theorem Veiled.append {front back : List Lexeme} (first : Veiled front) (second : Veiled back) :
    Veiled (front ++ back) where
  inside depth rest := by rw [List.append_assoc, first.inside, second.inside]
  outside rest found := by
    rw [List.append_assoc] at found
    exact second.outside _ (first.outside _ found)

/-- Phrases on both sides of a passive lexeme. -/
theorem Veiled.separated {front back : List Lexeme} {word : Lexeme} (first : Veiled front)
    (passive : word.kind.isPassive) (second : Veiled back) : Veiled (front ++ word :: back) :=
  first.append ((Clear.of_isPassive passive).veiled.append second)

/-- Between brackets, everything is hidden. -/
theorem Veiled.bracketed {words : List Lexeme} {opening closing : Lexeme} (inside : Veiled words)
    (opens : opening.kind = Symbol.openParen ∨ opening.kind = Symbol.openBracket)
    (closes : closing.kind = Symbol.closeParen ∨ closing.kind = Symbol.closeBracket) :
    Clear (opening :: words ++ [closing]) := by
  intro depth rest
  rw [List.append_assoc, List.cons_append, equalsAhead_of_opens opens, inside.inside,
    List.cons_append, List.nil_append, equalsAhead_of_closes closes]

/-- Outside of brackets, the scan ends at a brace. -/
theorem Veiled.braced {words : List Lexeme} {opening closing : Lexeme} (inside : Veiled words)
    (opens : opening.kind = Symbol.openCurly) (closes : closing.kind = Symbol.closeCurly) :
    Veiled (opening :: words ++ [closing]) where
  inside depth rest := by
    have passive : closing.kind.isPassive := by rw [closes]; rfl
    rw [List.append_assoc, List.cons_append, equalsAhead_of_openCurly opens, inside.inside,
      List.cons_append, List.nil_append, equalsAhead_of_isPassive passive]
    simp
  outside rest found := by
    rw [List.append_assoc, List.cons_append, equalsAhead_of_openCurly opens] at found
    contradiction

theorem Operator.isPassive_kind (operator : Operator) : operator.kind.isPassive := by
  cases operator <;> rfl

theorem AssignOperator.isPassive_of_ofKind? {kind : Kind} {operator : AssignOperator}
    (known : ofKind? kind = some operator) : kind.isPassive := by
  have kinds := kinds_of_ofKind? known
  cases operator <;> cases kinds <;> rfl

/-- What a phrase lets the scan see. -/
def Phrase.Hides (phrase : Phrase) (words : List Lexeme) : Prop :=
  match phrase with
  | .access _ => Clear words
  | .value _ | .operand _ | .expression .. | .item _ | .items _ => Veiled words
  | _ => True

theorem Derives.hides {room : Nat} {phrase : Phrase} {words : List Lexeme}
    (derived : Derives room phrase words) : phrase.Hides words := by
  induction derived with
  | name kind => exact .of_isPassive (by rw [kind]; rfl)
  | call kind opens _ closes ih =>
    exact (Clear.of_isPassive (by rw [kind]; rfl)).append (ih.bracketed (.inl opens) (.inl closes))
  | member _ opens _ closes accessed ih =>
    rw [List.append_assoc]
    exact Clear.append accessed (ih.bracketed (.inr opens) (.inr closes))
  | selected _ _ kind ih => exact Clear.append ih (.of_isPassive (by rw [kind]; rfl))
  | number numbers => exact (Clear.of_isPassive (by rw [numbers.kind]; rfl)).veiled
  | text kind => exact (Clear.of_isPassive (by rw [kind]; rfl)).veiled
  | selector kind => exact (Clear.of_isPassive (by rw [kind]; rfl)).veiled
  | accessed _ ih => exact ih.veiled
  | array opens _ closes ih => exact (ih.bracketed (.inr opens) (.inr closes)).veiled
  | object opens _ closes ih => exact ih.braced opens closes
  | single _ ih => exact ih
  | group opens _ closes ih => exact (ih.bracketed (.inl opens) (.inl closes)).veiled
  | operand _ ih => exact ih
  | binary _ _ _ kind _ onLeft onRight =>
    exact onLeft.separated (by rw [kind]; exact Operator.isPassive_kind _) onRight
  | element _ ih => exact ih
  | entry _ kind _ before behind => exact before.separated (by rw [kind]; rfl) behind
  | parameter kind => exact (Clear.of_isPassive (by rw [kind]; rfl)).veiled
  | noItem => exact Clear.nil.veiled
  | lastItem _ ih => exact ih
  | moreItems _ kind _ first others => exact first.separated (by rw [kind]; rfl) others
  | _ => exact trivial

/-- In front of an assignment, a `=` stands ahead. -/
theorem Derives.equalsAhead_of_assignment {room : Nat} {assignment : Assignment}
    {words : List Lexeme} (derived : Derives room (.assignment assignment) words)
    (after : List Lexeme) : equalsAhead 0 (words ++ after) := by
  cases derived with
  | assign onLeft place sign onRight =>
    have clear := onLeft.hides
    rw [Phrase.Hides] at clear
    rw [List.append_assoc, List.append_assoc, clear]
    obtain ⟨-, equals, rfl, kind⟩ | ⟨first, equals, rfl, kind, known⟩ := sign.cases
    · simp only [List.cons_append, equalsAhead, kind]
    · rw [List.cons_append, equalsAhead_of_isPassive (AssignOperator.isPassive_of_ofKind? known)]
      simp only [List.cons_append, equalsAhead, kind]

/-- In front of an expression, no `=` stands ahead. -/
theorem Derives.not_equalsAhead_of_expression {room least : Nat} {expr : Expr}
    {words after : List Lexeme} (derived : Derives room (.expression least expr) words)
    (ends : equalsAhead 0 after = false) : equalsAhead 0 (words ++ after) = false := by
  have veiled : Veiled words := derived.hides
  exact Bool.eq_false_iff.mpr fun found => by simp [veiled.outside after found] at ends

/-! ## The first lexeme of a phrase -/

/-- Categories that an operand starts with. -/
def Kind.opensValue : Kind → Bool
  | .number | .text | .selector | .identifier
  | .symbol .openParen | .symbol .openBracket | .symbol .openCurly => true
  | _ => false

theorem firstKind_append {words : List Lexeme} (inner : firstKind words ≠ .finish)
    (after : List Lexeme) : firstKind (words ++ after) = firstKind words := by
  cases words with
  | nil => contradiction
  | cons => rfl

/-- What a phrase starts with. -/
def Phrase.Opens (phrase : Phrase) (words : List Lexeme) : Prop :=
  match phrase with
  | .access _ | .assignment _ => firstKind words = .identifier
  | .value _ => (firstKind words).opensValue ∧ firstKind words ≠ Symbol.openParen
  | .operand _ | .expression .. | .item _ | .values _ => (firstKind words).opensValue
  | .statement _ => (firstKind words).opensValue ∨ (firstKind words).isKeyword
  | _ => True

theorem opensValue_append {words : List Lexeme} (opens : (firstKind words).opensValue)
    (after : List Lexeme) : (firstKind (words ++ after)).opensValue := by
  rwa [firstKind_append]
  intro finish
  rw [finish] at opens
  contradiction

theorem firstKind_append_of_identifier {words : List Lexeme}
    (opens : firstKind words = .identifier) (after : List Lexeme) :
    firstKind (words ++ after) = .identifier := by
  rw [firstKind_append (by rw [opens]; exact Kind.noConfusion), opens]

theorem Derives.opens {room : Nat} {phrase : Phrase} {words : List Lexeme}
    (derived : Derives room phrase words) : phrase.Opens words := by
  induction derived with
  | name kind | call kind => exact kind
  | member _ _ _ _ ih =>
    rw [List.append_assoc]
    exact firstKind_append_of_identifier ih _
  | selected _ _ _ ih => exact firstKind_append_of_identifier ih _
  | assign _ _ _ _ ih =>
    rw [Phrase.Opens, List.append_assoc]
    exact firstKind_append_of_identifier ih _
  | number numbers => simp [Phrase.Opens, numbers.kind, Kind.opensValue]
  | text kind | selector kind => simp [Phrase.Opens, kind, Kind.opensValue]
  | @accessed _ expr words _ ih =>
    have kind : firstKind words = .identifier := ih
    simp [Phrase.Opens, kind, Kind.opensValue]
  | array opens | object opens => simp [Phrase.Opens, opens, Kind.opensValue]
  | single _ ih => exact ih.1
  | group opens => simp [Phrase.Opens, opens, Kind.opensValue]
  | operand _ ih | element _ ih | lastValue _ ih => exact ih
  | binary _ _ _ _ _ ih _ | entry _ _ _ ih _ | moreValues _ _ _ ih _ =>
    exact opensValue_append ih _
  | parameter kind => simp [Phrase.Opens, kind, Kind.opensValue]
  | declarationWithValue opens =>
    have kind := (Scope.initialised_iff.mp opens).1
    exact .inr (by simp [kind, Kind.isKeyword])
  | declaration opens | function opens | returningNothing opens | returning opens
  | conditional opens | each opens | loop opens | range opens =>
    exact .inr (by simp [opens, Kind.isKeyword])
  | @assignment _ _ words _ ih =>
    have kind : firstKind words = .identifier := ih
    exact .inl (by simp [kind, Kind.opensValue])
  | expression _ ih => exact .inl ih
  | _ => exact trivial

/-- A statement starts with an operand or with a keyword. -/
theorem Derives.opens_statement {room : Nat} {statement : Statement} {words : List Lexeme}
    (derived : Derives room (.statement statement) words) (after : List Lexeme) :
    (firstKind (words ++ after)).opensValue ∨ (firstKind (words ++ after)).isKeyword := by
  have opens := derived.opens
  rw [firstKind_append]
  · exact opens
  · intro finish
    rw [Phrase.Opens, finish] at opens
    revert opens
    decide

/-- Behind the name at the front of an access stands no `in`, unless one follows the access. -/
theorem Derives.second_of_access {room : Nat} {expr : Expr} {words : List Lexeme}
    (derived : Derives room (.access expr) words) :
    ∃ word rest, words = word :: rest ∧ ∀ after, firstKind after ≠ Keyword.in_ →
      firstKind (rest ++ after) ≠ Keyword.in_ := by
  match derived with
  | .name kind => exact ⟨_, [], rfl, fun after other => other⟩
  | .call kind opens inside closes =>
    refine ⟨_, _, rfl, fun after _ => ?_⟩
    rw [List.append_eq, List.append_assoc, List.cons_append, firstKind_cons, opens]
    exact Kind.noConfusion
  | .member onto opens inside closes =>
    obtain ⟨word, rest, rfl, second⟩ := onto.second_of_access
    refine ⟨word, _, rfl, fun after _ => ?_⟩
    simp only [List.append_eq, List.append_assoc]
    refine second _ ?_
    rw [List.cons_append, firstKind_cons, opens]
    exact Kind.noConfusion
  | .selected onto place kind =>
    obtain ⟨word, rest, rfl, second⟩ := onto.second_of_access
    refine ⟨word, _, rfl, fun after _ => ?_⟩
    simp only [List.append_eq, List.append_assoc]
    refine second _ ?_
    rw [List.cons_append, firstKind_cons, kind]
    exact Kind.noConfusion

theorem Derives.second_of_assignment {room : Nat} {assignment : Assignment} {words : List Lexeme}
    (derived : Derives room (.assignment assignment) words) (after : List Lexeme) :
    ∃ word rest, words ++ after = word :: rest ∧ firstKind rest ≠ Keyword.in_ := by
  cases derived with
  | assign onLeft place sign onRight =>
    obtain ⟨word, rest, rfl, second⟩ := onLeft.second_of_access
    refine ⟨word, _, rfl, ?_⟩
    simp only [List.append_eq, List.append_assoc]
    refine second _ ?_
    obtain ⟨-, equals, rfl, kind⟩ | ⟨first, equals, rfl, -, known⟩ := sign.cases
    · rw [List.cons_append, firstKind_cons, kind]
      exact Kind.noConfusion
    · intro same
      rw [List.cons_append, firstKind_cons] at same
      rw [same] at known
      contradiction

/-- Categories that end a statement: its semicolon, the condition of a loop, a block, and the end of
the input. -/
def Kind.endsStatement : Kind → Bool
  | .symbol .semicolon | .keyword .while_ | .symbol .openCurly | .finish => true
  | _ => false

/-- Behind the end of a statement, no `=` is seen. -/
theorem equalsAhead_of_endsStatement {words : List Lexeme} (ends : (firstKind words).endsStatement) :
    equalsAhead 0 words = false := by
  cases words with
  | nil => rfl
  | cons word words =>
    rw [firstKind_cons] at ends
    unfold Kind.endsStatement at ends
    split at ends
    · simp only [equalsAhead, *]
    · simp only [equalsAhead, *, if_true]
    · simp only [equalsAhead, *, if_true]
    · simp only [equalsAhead, *]
    · contradiction

end BlockScript
