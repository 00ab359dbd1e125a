import BlockScript.Proofs.Syntax.Lookahead
import BlockScript.Proofs.Syntax.Soundness

/-!
# The parser accepts what is derived

Whatever is derived with as many levels open as there is room for is taken as a whole, and gives
the tree that it was derived for (`Level.complete_ofRoom`), as long as what follows does not go on
with it: nothing that continues a value or a chain of operators, no further link of a chain of
conditions, no value behind a `return`.

Suffixes and operators lean to the left, so a derivation ends with the last of them while the
parser starts with the first. The statements about them go on with a continuation: if the rest
is taken once a phrase has been read, it is taken from the start of the phrase.
-/

namespace BlockScript

/-- Categories that do not go on with a value. -/
def Kind.endsValue : Kind → Bool
  | .selector | .symbol .openParen | .symbol .openBracket => false
  | _ => true

/-- Categories that do not go on with an expression. -/
def Kind.endsExpression (kind : Kind) : Bool :=
  kind.endsValue && (Operator.ofKind? kind).isNone

theorem Kind.endsValue_of_endsExpression {kind : Kind} (ends : kind.endsExpression) :
    kind.endsValue := by
  rw [endsExpression, Bool.and_eq_true] at ends
  exact ends.1

theorem Kind.ofKind?_of_endsExpression {kind : Kind} (ends : kind.endsExpression) :
    Operator.ofKind? kind = none := by
  rw [endsExpression, Bool.and_eq_true] at ends
  exact Option.isNone_iff_eq_none.mp ends.2

theorem Operator.endsValue_kind (operator : Operator) : operator.kind.endsValue := by
  cases operator <;> rfl

theorem AssignOperator.endsValue_of_ofKind? {kind : Kind} {operator : AssignOperator}
    (known : ofKind? kind = some operator) : kind.endsValue := by
  have kinds := kinds_of_ofKind? known
  cases operator <;> cases kinds <;> rfl

/-- What can stand behind a statement: a semicolon, or a `while` behind the step of a loop. -/
def Statement.EndsBefore (statement : Statement) (kind : Kind) : Prop :=
  kind = Symbol.semicolon ∨ kind = Keyword.while_ ∧ statement ≠ .returning []

/-- The parsers of a level take what is derived. -/
structure Level.Complete (level : Level) (room : Nat) : Prop where
  expression : ∀ {expr words after}, Derives room (.expression 0 expr) words →
    (firstKind after).endsExpression → (level.expression 0).Takes words expr after
  /-- The keyword in front of a chain is taken, whichever it is. -/
  conditional : ∀ {chain words after} (keyword : Lexeme), Derives room (.conditional chain) words →
    firstKind after ≠ Keyword.elif → firstKind after ≠ Keyword.else_ →
    level.conditional.Takes (keyword :: words) chain after
  statement : ∀ {statement : Statement} {words after},
    Derives room (.statement statement) words → statement.EndsBefore (firstKind after) →
    level.statement.Takes words statement after

/-- A level can be opened as long as there is room, and takes what is derived there. -/
def Nesting.Complete (nesting : Nesting) (room : Nat) : Prop :=
  ∀ inner, room = inner + 1 → ∃ level, nesting.inner? = some level ∧ level.Complete inner

namespace Parser

variable {α : Type} {nesting : Nesting} {room : Nat}

theorem Takes.enter {level : Level} {parse : Level → Parser α} {words after : List Lexeme}
    {value : α} {span : Span} (opened : nesting.inner? = some level)
    (inside : (parse level).Takes words value after) :
    (nesting.enter span parse).Takes words value after := by
  unfold Nesting.enter
  rw [opened]
  exact inside

/-! ## Lists -/

section
variable {item : Parser α} {embed : α → Item} {comma close : Slot}

/-- The parser takes items that a comma or the closing token follows. -/
def TakesItems (room : Nat) (item : Parser α) (embed : α → Item) (comma close : Slot) : Prop :=
  ∀ {value words after}, Derives room (.item (embed value)) words →
    firstKind after = comma.kind ∨ firstKind after = close.kind → item.Takes words value after

theorem itemsUpTo_takes (complete : TakesItems room item embed comma close)
    (separates : comma.kind = Symbol.comma) (differs : close.kind ≠ Symbol.comma)
    (stops : close.kind.opensValue = false) {values : List α} {words after : List Lexeme}
    (derived : Derives room (.items (values.map embed)) words) {closing : Lexeme}
    (closes : closing.kind = close.kind) {bound : Nat} (enough : words.length < bound) :
    (itemsUpTo item comma close bound).Takes words values (closing :: after) := by
  induction values generalizing words bound with
  | nil =>
    cases derived
    obtain ⟨bound, rfl⟩ := Nat.exists_eq_add_one_of_ne_zero (Nat.ne_of_gt enough)
    refine .bind_peek ?_
    rw [List.nil_append, firstKind_cons, if_pos closes]
    exact .pure _ _
  | cons value values ih =>
    obtain ⟨bound, rfl⟩ := Nat.exists_eq_add_one_of_ne_zero (Nat.ne_of_gt (Nat.zero_lt_of_lt enough))
    have starts : ∀ {front}, Derives room (.item (embed value)) front → ∀ rest,
        firstKind (front ++ rest) ≠ close.kind := by
      intro front first rest same
      have opens := opensValue_append first.opens rest
      rw [same, stops] at opens
      contradiction
    rw [List.map_cons] at derived
    generalize rest : values.map embed = others at derived
    cases derived with
    | lastItem only =>
      cases List.map_eq_nil_iff.mp rest
      refine .bind_peek ?_
      rw [if_neg (starts only _)]
      refine .bind_nil (complete only (.inr closes)) (.bind_peek ?_)
      rw [List.nil_append, firstKind_cons, if_pos closes]
      exact .pure _ _
    | @moreItems _ _ _ front back mark first kind others =>
      subst rest
      refine .bind_peek ?_
      rw [List.append_assoc, if_neg (starts first _)]
      refine .bind (complete first (.inl (kind.trans separates.symm))) (.bind_peek ?_)
      have apart : mark.kind ≠ close.kind := by
        rw [kind]
        exact differs.symm
      rw [List.cons_append, firstKind_cons, if_neg apart]
      refine .bind_expect (kind.trans separates.symm) fun token same => ?_
      refine .bind_pure _ (ih others ?_)
      simp only [List.length_append, List.length_cons] at enough
      omega

theorem items_takes (complete : TakesItems room item embed comma close)
    (separates : comma.kind = Symbol.comma) (differs : close.kind ≠ Symbol.comma)
    (stops : close.kind.opensValue = false) {values : List α} {words after : List Lexeme}
    (derived : Derives room (.items (values.map embed)) words) {closing : Lexeme}
    (closes : closing.kind = close.kind) :
    (items item comma close).Takes (words ++ [closing]) values after := by
  refine .bind_remaining ?_
  refine .bind (itemsUpTo_takes complete separates differs stops derived closes ?_) ?_
  · simp only [List.length_append, List.length_cons]
    omega
  · exact .bind_expect closes fun _ _ => .pure _ _

/-- A list in brackets, with its items at the level inside. -/
theorem enclosed_takes {item : Level → Parser α} {span : Span}
    (complete : nesting.Complete (room + 1))
    (inside : ∀ {level}, level.Complete room → TakesItems room (item level) embed comma close)
    (separates : comma.kind = Symbol.comma) (differs : close.kind ≠ Symbol.comma)
    (stops : close.kind.opensValue = false) {values : List α} {words after : List Lexeme}
    (derived : Derives room (.items (values.map embed)) words) {closing : Lexeme}
    (closes : closing.kind = close.kind) :
    (nesting.enter span fun level => items (item level) comma close).Takes (words ++ [closing])
      values after := by
  obtain ⟨level, opened, known⟩ := complete room rfl
  exact .enter opened (items_takes (inside known) separates differs stops derived closes)

end

/-! ## Values -/

theorem finiteNumber_takes {token : Token} {x : Binary64} (numbers : token.toLexeme.Numbers x)
    (after : List Lexeme) : (finiteNumber token).Takes [] x after := by
  intro stream equal
  refine ⟨stream, ?_, equal⟩
  simp only [finiteNumber, numbers.reads, numbers.finite, if_true]
  rfl

theorem element_takes {level : Level} (complete : level.Complete room) {comma close : Slot}
    (between : comma.kind.endsExpression) (behind : close.kind.endsExpression) :
    TakesItems room (level.expression 0) .expression comma close := by
  rintro expr words after derived (next | next) <;> cases derived with
  | element derived => exact complete.expression derived (by rwa [next])

theorem entry_takes {level : Level} (complete : level.Complete room) {comma close : Slot}
    (between : comma.kind.endsExpression) (behind : close.kind.endsExpression) :
    TakesItems room (entry level) .entry comma close := by
  rintro entry words after derived next
  have ends : (firstKind after).endsExpression := by
    rcases next with next | next <;> rwa [next]
  cases derived with
  | entry before kind behind =>
    refine .bind (complete.expression before ?_) ?_
    · rw [List.cons_append, firstKind_cons, kind]
      rfl
    · refine .bind_expect kind fun _ _ => ?_
      exact .bind_pure _ (complete.expression behind ends)

theorem memberIndex_takes {level : Level} (complete : level.Complete room) {index : Expr}
    {words after : List Lexeme} {closing : Lexeme} (derived : Derives room (.expression 0 index) words)
    (closes : closing.kind = Symbol.closeBracket) :
    (memberIndex level).Takes (words ++ [closing]) index after := by
  refine .bind (complete.expression derived ?_) (.bind_expect closes fun _ _ => .pure _ _)
  rw [List.cons_append, firstKind_cons, closes]
  rfl

theorem group_takes {level : Level} (complete : level.Complete room) {expr : Expr}
    {words after : List Lexeme} {closing : Lexeme} (derived : Derives room (.expression 0 expr) words)
    (closes : closing.kind = Symbol.closeParen) :
    (group level).Takes (words ++ [closing]) expr after := by
  refine .bind (complete.expression derived ?_) (.bind_expect closes fun _ _ => .pure _ _)
  rw [List.cons_append, firstKind_cons, closes]
  rfl

/-- Behind the last suffix, a value ends. -/
theorem suffixes_takes_nil (bound : Nat) (value : Expr) {after : List Lexeme}
    (ends : (firstKind after).endsValue) : (suffixes nesting bound value).Takes [] value after := by
  cases bound with
  | zero => exact .pure _ _
  | succ bound =>
    refine .bind_accept?_none ?_ ?_
    · intro same
      rw [List.nil_append] at same
      rw [same] at ends
      contradiction
    · dsimp only
      split
      · refine .bind_accept?_none ?_ (.pure _ _)
        intro same
        rw [List.nil_append] at same
        rw [same] at ends
        contradiction
      · exact .pure _ _

theorem suffixes_takes_member {level : Level} (opened : nesting.inner? = some level)
    (complete : level.Complete room) {value index result : Expr} {opening closing : Lexeme}
    {words more after : List Lexeme} (opens : opening.kind = Symbol.openBracket)
    (inside : Derives room (.expression 0 index) words)
    (closes : closing.kind = Symbol.closeBracket)
    (follows : ∀ bound, (more ++ after).length ≤ bound →
      (suffixes nesting bound (.member value index)).Takes more result after)
    {bound : Nat} (enough : (opening :: (words ++ [closing] ++ more) ++ after).length ≤ bound) :
    (suffixes nesting bound value).Takes (opening :: (words ++ [closing] ++ more)) result after := by
  simp only [List.length_append, List.length_cons] at enough follows
  cases bound with
  | zero => omega
  | succ bound =>
    refine .bind_accept? opens fun token _ => ?_
    refine .bind (.enter opened (memberIndex_takes complete inside closes)) (follows _ ?_)
    omega

theorem suffixes_takes_selected {value result : Expr} {word : Lexeme} {more after : List Lexeme}
    (place : value.isPlace) (kind : word.kind = .selector)
    (follows : ∀ bound, (more ++ after).length ≤ bound →
      (suffixes nesting bound (.selected value word.content)).Takes more result after)
    {bound : Nat} (enough : (word :: more ++ after).length ≤ bound) :
    (suffixes nesting bound value).Takes (word :: more) result after := by
  cases bound with
  | zero => contradiction
  | succ bound =>
    refine .bind_accept?_none (by rw [List.cons_append, firstKind_cons, kind]; decide) ?_
    dsimp only
    rw [if_pos place]
    refine .bind_accept? kind fun token same => ?_
    dsimp only
    rw [same]
    exact follows _ (Nat.le_of_succ_le_succ enough)

/-- An access is taken together with `more`, if its suffixes so far can be followed by `more`. -/
theorem access_takes {room : Nat} (complete : nesting.Complete room) {expr result : Expr}
    {words more after : List Lexeme} (derived : Derives room (.access expr) words)
    (noCall : firstKind (more ++ after) ≠ Symbol.openParen)
    (follows : ∀ bound, (more ++ after).length ≤ bound →
      (suffixes nesting bound expr).Takes more result after) :
    ∃ word rest, words = word :: rest ∧ word.kind = .identifier ∧
      (access nesting word.content).Takes (rest ++ more) result after := by
  match derived with
  | .name kind =>
    refine ⟨_, [], rfl, kind, ?_⟩
    exact .bind_accept?_none noCall (.bind_remaining (follows _ (Nat.le_refl _)))
  | .call kind opens inside closes =>
    refine ⟨_, _, rfl, kind, .bind_accept? opens fun opening _ => ?_⟩
    refine .bind ?_ (.bind_remaining (follows _ (Nat.le_refl _)))
    exact enclosed_takes complete (element_takes · rfl rfl) rfl (by decide) rfl inside closes
  | .member accessed opens inside closes =>
    obtain ⟨level, opened, known⟩ := complete _ rfl
    obtain ⟨word, rest, rfl, kind, takes⟩ := access_takes complete accessed
      (by rw [List.cons_append, firstKind_cons, opens]; decide)
      fun _ => suffixes_takes_member opened known opens inside closes follows
    refine ⟨word, _, rfl, kind, ?_⟩
    simpa only [List.append_eq, List.append_assoc, List.cons_append, List.nil_append] using takes
  | .selected accessed place kind =>
    obtain ⟨word, rest, rfl, starts, takes⟩ := access_takes complete accessed
      (by rw [List.cons_append, firstKind_cons, kind]; decide)
      fun _ => suffixes_takes_selected place kind follows
    refine ⟨word, _, rfl, starts, ?_⟩
    simpa only [List.append_eq, List.append_assoc, List.cons_append, List.nil_append] using takes

theorem access_takes_of_endsValue (complete : nesting.Complete room) {expr : Expr}
    {words after : List Lexeme} (derived : Derives room (.access expr) words)
    (ends : (firstKind after).endsValue) :
    ∃ word rest, words = word :: rest ∧ word.kind = .identifier ∧
      (access nesting word.content).Takes rest expr after := by
  have noCall : firstKind ([] ++ after) ≠ Symbol.openParen := by
    intro same
    rw [List.nil_append] at same
    rw [same] at ends
    contradiction
  have taken := access_takes complete derived noCall
    fun bound _ => suffixes_takes_nil bound expr ends
  simpa only [List.append_nil] using taken

theorem value_takes (complete : nesting.Complete room) {expr : Expr} {words after : List Lexeme}
    (derived : Derives room (.value expr) words) (ends : (firstKind after).endsValue) :
    (value nesting).Takes words expr after := by
  cases derived with
  | number numbers =>
    refine .bind_take? fun token same => ?_
    subst same
    have kind := numbers.kind
    simp only [valueAfter, kind]
    exact .bind_pure _ (finiteNumber_takes numbers after)
  | text kind | selector kind =>
    refine .bind_take? fun token same => ?_
    subst same
    simp only [valueAfter, kind]
    exact .pure _ _
  | accessed access =>
    obtain ⟨word, rest, rfl, kind, taken⟩ := access_takes_of_endsValue complete access ends
    refine .bind_take? fun token same => ?_
    subst same
    simp only [valueAfter, kind]
    exact taken
  | array opens inside closes =>
    refine .bind_take? fun token same => ?_
    subst same
    simp only [valueAfter, opens]
    exact .bind_pure _ (enclosed_takes complete (element_takes · rfl rfl) rfl (by decide) rfl inside
      closes)
  | object opens inside closes =>
    refine .bind_take? fun token same => ?_
    subst same
    simp only [valueAfter, opens]
    exact .bind_pure _ (enclosed_takes complete (entry_takes · rfl rfl) rfl (by decide) rfl inside
      closes)

theorem operand_takes (complete : nesting.Complete room) {expr : Expr} {words after : List Lexeme}
    (derived : Derives room (.operand expr) words) (ends : (firstKind after).endsValue) :
    (operand nesting).Takes words expr after := by
  cases derived with
  | single derived =>
    have starts := derived.opens
    refine .bind_accept?_none ?_ (value_takes complete derived ends)
    rw [firstKind_append]
    · exact starts.2
    · intro finish
      rw [Phrase.Opens, finish] at starts
      exact absurd starts.1 (by decide)
  | group opens inside closes =>
    obtain ⟨level, opened, known⟩ := complete _ rfl
    exact .bind_accept? opens fun token _ => .enter opened (group_takes known inside closes)

/-! ## Chains of operators -/

/-- In front of an operator that binds looser than asked, a chain ends. -/
theorem climb_takes_nil (bound : Nat) {least : Nat} (left : Expr) {after : List Lexeme}
    (looser : ∀ operator, Operator.ofKind? (firstKind after) = some operator →
      operator.precedence < least) :
    (climb nesting bound least left).Takes [] left after := by
  cases bound with
  | zero => exact .pure _ _
  | succ bound =>
    refine .bind_peek ?_
    rw [List.nil_append]
    split
    · exact .pure _ _
    · rename_i operator known
      rw [if_pos (looser operator known)]
      exact .pure _ _

/-- One more operator of a chain, with its right operand. -/
theorem climb_takes_binary (complete : nesting.Complete room) {operator : Operator}
    {least bound : Nat} {left first right result : Expr} {sign : Lexeme}
    {front back more after : List Lexeme} (kind : sign.kind = operator.kind)
    (binds : least ≤ operator.precedence) (derived : Derives room (.operand first) front)
    (ends : (firstKind (back ++ (more ++ after))).endsValue)
    (onRight : ∀ bound, (back ++ (more ++ after)).length ≤ bound →
      (climb nesting bound (operator.precedence + 1) first).Takes back right (more ++ after))
    (follows : ∀ bound, (more ++ after).length ≤ bound →
      (climb nesting bound least (.binary operator left right)).Takes more result after)
    (enough : (sign :: (front ++ (back ++ more)) ++ after).length ≤ bound) :
    (climb nesting bound least left).Takes (sign :: (front ++ (back ++ more))) result after := by
  simp only [List.length_append, List.length_cons] at enough onRight follows
  cases bound with
  | zero => omega
  | succ bound =>
    refine .bind_peek ?_
    rw [List.cons_append, firstKind_cons, kind, Operator.ofKind?_kind]
    dsimp only
    rw [if_neg (Nat.not_lt_of_le binds)]
    refine .bind_skip (.bind (operand_takes complete derived ?_) ?_)
    · rwa [List.append_assoc]
    · refine .bind (onRight bound ?_) (follows bound ?_) <;> omega

/-- An expression starts with an operand from which a chain takes the rest of it together with
`more`, if the chain can go on with `more` behind the expression. -/
theorem climb_takes {room : Nat} (complete : nesting.Complete room) {least strength : Nat}
    {expr result : Expr} {words after : List Lexeme} (more : List Lexeme)
    (derived : Derives room (.expression strength expr) words) (binds : least ≤ strength)
    (ends : (firstKind (more ++ after)).endsValue)
    (looser : ∀ operator, Operator.ofKind? (firstKind (more ++ after)) = some operator →
      operator.precedence ≤ strength)
    (follows : ∀ bound, (more ++ after).length ≤ bound →
      (climb nesting bound least expr).Takes more result after) :
    ∃ first front back, words = front ++ back ∧ Derives room (.operand first) front ∧
      (firstKind (back ++ (more ++ after))).endsValue ∧
      ∀ bound, (back ++ more ++ after).length ≤ bound →
        (climb nesting bound least first).Takes (back ++ more) result after := by
  match derived with
  | .operand operand =>
    exact ⟨expr, words, [], (List.append_nil words).symm, operand, ends, follows⟩
  | @Derives.binary _ _ level operator left right _ _ sign stands tighter onLeft kind onRight =>
    have same := stands.eq_precedence
    have stops : ∀ next, Operator.ofKind? (firstKind (more ++ after)) = some next →
        next.precedence < level + 1 :=
      fun next known => Nat.lt_succ_of_le (Nat.le_trans (looser next known) tighter)
    obtain ⟨second, front, back, rfl, operandRight, endsRight, takesRight⟩ :=
      climb_takes complete [] onRight (Nat.le_refl _) ends
        (fun next known => Nat.le_of_lt (stops next known))
        fun bound _ => climb_takes_nil bound right stops
    simp only [List.append_nil, same] at takesRight
    have binds' : least ≤ operator.precedence := same ▸ Nat.le_trans binds tighter
    have starts : firstKind (sign :: (front ++ (back ++ more)) ++ after) = operator.kind := kind
    obtain ⟨first, before, behind, rfl, operandLeft, endsLeft, takesLeft⟩ :=
      climb_takes complete (sign :: (front ++ (back ++ more))) onLeft (Nat.le_trans binds tighter)
        (by rw [starts]; exact operator.endsValue_kind)
        (by
          intro next known
          rw [starts, Operator.ofKind?_kind] at known
          cases known
          exact Nat.le_of_eq same.symm)
        fun _ => climb_takes_binary complete kind binds' operandRight endsRight takesRight follows
    refine ⟨first, before, behind ++ sign :: (front ++ back), ?_, operandLeft, ?_, ?_⟩
    · rw [List.append_assoc]
    · simpa only [List.append_assoc, List.cons_append] using endsLeft
    · simpa only [List.append_assoc, List.cons_append] using takesLeft

theorem expression_takes (complete : nesting.Complete room) {expr : Expr}
    {words after : List Lexeme} (derived : Derives room (.expression 0 expr) words)
    (ends : (firstKind after).endsExpression) : (expression nesting 0).Takes words expr after := by
  have none := Kind.ofKind?_of_endsExpression ends
  obtain ⟨first, front, back, rfl, operand, endsOperand, takes⟩ :=
    climb_takes complete [] derived (Nat.le_refl 0) (Kind.endsValue_of_endsExpression ends)
      (fun operator known => by simp [none] at known)
      fun bound _ => climb_takes_nil bound expr fun operator known => by simp [none] at known
  simp only [List.append_nil, List.nil_append] at takes endsOperand
  exact .bind (operand_takes complete operand endsOperand) (.bind_remaining (takes _ (Nat.le_refl _)))

/-! ## Assignments and declarations -/

theorem assignOperator_takes {operator : AssignOperator} {signs : List Lexeme}
    (written : operator.WrittenAs signs) (after : List Lexeme) :
    assignOperator.Takes signs operator after := by
  obtain ⟨rfl, sign, rfl, equals⟩ | ⟨first, sign, rfl, equals, known⟩ := written.cases
  · exact .bind_accept? equals fun _ _ => .pure _ _
  · refine .bind_accept?_none ?_ (.bind_peek ?_)
    · have passive := AssignOperator.isPassive_of_ofKind? known
      intro same
      rw [List.cons_append, firstKind_cons] at same
      rw [same] at passive
      contradiction
    · rw [List.cons_append, firstKind_cons, known]
      refine .bind_get fun stream front => ?_
      obtain ⟨_, -, -, -, rest⟩ := Stream.exists_of_lexemes_eq_cons front
      rw [if_pos ((Stream.kind_of_lexemes_eq_cons rest).trans equals)]
      exact .bind_skip (.bind_skip (.pure _ _))

theorem endsValue_of_writtenAs {operator : AssignOperator} {signs : List Lexeme}
    (written : operator.WrittenAs signs) (after : List Lexeme) :
    (firstKind (signs ++ after)).endsValue := by
  obtain ⟨rfl, sign, rfl, equals⟩ | ⟨first, sign, rfl, equals, known⟩ := written.cases
  · rw [List.cons_append, firstKind_cons, equals]
    rfl
  · exact AssignOperator.endsValue_of_ofKind? known

theorem assignment_takes (complete : nesting.Complete room) {assignment : Assignment}
    {words after : List Lexeme} (derived : Derives room (.assignment assignment) words)
    (ends : (firstKind after).endsExpression) :
    (Parser.assignment nesting).Takes words assignment after := by
  cases derived with
  | assign onLeft place sign onRight =>
    refine .bind_here fun first => ?_
    rw [List.append_assoc]
    refine .bind (value_takes complete (.accessed onLeft) ?_) ?_
    · rw [List.append_assoc]
      exact endsValue_of_writtenAs sign _
    · rw [if_pos place]
      refine .bind (assignOperator_takes sign _) ?_
      exact .bind_pure _ (expression_takes complete onRight ends)

theorem name_takes (complete : nesting.Complete room) {word : Lexeme} {after : List Lexeme}
    (kind : word.kind = .identifier) (ends : (firstKind after).endsValue) :
    (value nesting).Takes [word] (.name word.content) after :=
  value_takes complete (.accessed (.name kind)) ends

theorem declarationWithValue_takes (complete : nesting.Complete room) {scope : Scope} {value : Expr}
    {keyword word equals : Lexeme} {words after : List Lexeme} (needs : scope.needsValue)
    (kind : word.kind = .identifier) (sign : equals.kind = Symbol.equals)
    (initial : Derives room (.expression 0 value) words)
    (ends : (firstKind after).endsExpression) :
    (declaration nesting scope).Takes (keyword :: word :: equals :: words)
      (.declaration scope word.content (some value)) after := by
  refine .bind_here fun span => .bind_skip ?_
  refine .bind_cons (name_takes complete kind ?_) (.bind_peek ?_)
  · rw [List.cons_append, firstKind_cons, sign]
    rfl
  · rw [List.cons_append, firstKind_cons, if_pos sign, if_pos needs]
    exact .bind_skip (.bind_pure _ (expression_takes complete initial ends))

theorem declaration_takes (complete : nesting.Complete room) {keyword word : Lexeme}
    {after : List Lexeme} (kind : word.kind = .identifier)
    (ends : (firstKind after).endsExpression) (noValue : firstKind after ≠ Symbol.equals) :
    (declaration nesting .local_).Takes [keyword, word] (.declaration .local_ word.content none)
      after := by
  refine .bind_here fun span => .bind_skip ?_
  refine .bind_cons (name_takes complete kind (Kind.endsValue_of_endsExpression ends))
    (.bind_peek ?_)
  rw [List.nil_append, if_neg noValue]
  exact .pure _ _

/-! ## Statements -/

theorem someItems_takes (complete : nesting.Complete room) {exprs : List Expr}
    {words after : List Lexeme} (derived : Derives room (.values exprs) words)
    (ends : (firstKind after).endsExpression) (last : firstKind after ≠ Symbol.comma) {bound : Nat}
    (enough : words.length ≤ bound) :
    (someItems (expression nesting 0) bound).Takes words exprs after := by
  induction bound generalizing exprs words with
  | zero =>
    have starts := derived.opens
    cases List.length_eq_zero_iff.mp (Nat.le_zero.mp enough)
    contradiction
  | succ bound ih =>
    cases derived with
    | lastValue only =>
      exact .bind_nil (expression_takes complete only ends) (.bind_accept?_none last (.pure _ _))
    | moreValues first kind others =>
      refine .bind (expression_takes complete first ?_) (.bind_accept? kind fun token _ => ?_)
      · rw [List.cons_append, firstKind_cons, kind]
        rfl
      · refine .bind_pure _ (ih others ?_)
        simp only [List.length_append, List.length_cons] at enough
        omega

/-- The parser takes statements that a semicolon follows. -/
def TakesStatements (room : Nat) (item : Parser Statement) : Prop :=
  ∀ {statement words after}, Derives room (.statement statement) words →
    firstKind after = Symbol.semicolon → item.Takes words statement after

theorem statementsUpTo_takes {item : Parser Statement} {stops : Kind → Bool}
    (complete : TakesStatements room item)
    (goesOn : ∀ kind : Kind, kind.opensValue ∨ kind.isKeyword → stops kind = false) {body : Block}
    {words after : List Lexeme} (derived : Derives room (.statements body) words)
    (stopped : stops (firstKind after)) {bound : Nat} (enough : words.length ≤ bound) :
    (statementsUpTo item stops bound).Takes words body after := by
  induction bound generalizing body words with
  | zero =>
    cases List.length_eq_zero_iff.mp (Nat.le_zero.mp enough)
    generalize none : ([] : List Lexeme) = words at derived
    cases derived with
    | noStatement => exact .pure _ _
    | moreStatements => simp at none
  | succ bound ih =>
    cases derived with
    | noStatement =>
      refine .bind_peek ?_
      rw [List.nil_append, if_pos stopped]
      exact .pure _ _
    | moreStatements first kind others =>
      refine .bind_peek ?_
      rw [List.append_assoc, goesOn _ (first.opens_statement _)]
      refine .bind (complete first kind) (.bind_expect kind fun token _ => ?_)
      refine .bind_pure _ (ih others ?_)
      simp only [List.length_append, List.length_cons] at enough
      omega

theorem endsBlock_eq_false {kind : Kind} (starts : kind.opensValue ∨ kind.isKeyword) :
    endsBlock kind = false := by
  rw [endsBlock, Bool.or_eq_false_iff, beq_eq_false_iff_ne, beq_eq_false_iff_ne]
  constructor <;> rintro rfl <;> revert starts <;> decide

theorem block_takes (complete : nesting.Complete room) {body : Block} {words : List Lexeme}
    (derived : Derives room (.block body) words) (after : List Lexeme) :
    (block nesting).Takes words body after := by
  cases derived with
  | block opens inside closes =>
    obtain ⟨level, opened, known⟩ := complete _ rfl
    refine .bind_expect opens fun opening _ => .enter opened (.bind_remaining ?_)
    refine .bind (statementsUpTo_takes (fun first next => known.statement first (.inl next)) ?_
      inside ?_ ?_) (.bind_expect closes fun _ _ => .pure _ _)
    · exact fun _ => endsBlock_eq_false
    · rw [List.cons_append, firstKind_cons, closes]
      rfl
    · simp only [List.append_eq, List.length_append]
      omega

/-- An expression ends where a block starts. -/
theorem block_opens {body : Block} {words : List Lexeme} (derived : Derives room (.block body) words)
    (after : List Lexeme) : (firstKind (words ++ after)).endsExpression := by
  cases derived with
  | block opens =>
    rw [List.append_assoc, List.cons_append, firstKind_cons, opens]
    rfl

theorem function_takes (complete : nesting.Complete room) {parameters : List String} {body : Block}
    {keyword word opening closing : Lexeme} {words back : List Lexeme}
    (kind : word.kind = .identifier) (before : opening.kind = Symbol.openParen)
    (inside : Derives room (.items (parameters.map .parameter)) words)
    (behind : closing.kind = Symbol.closeParen) (derived : Derives room (.block body) back)
    (after : List Lexeme) :
    (function nesting).Takes (keyword :: word :: opening :: words ++ closing :: back)
      (.function word.content parameters body) after := by
  have taken : TakesItems room parameter .parameter .betweenParameters .closeParameters := by
    intro name words after derived next
    cases derived with
    | parameter kind => exact .bind_expect kind fun token same => same ▸ .pure _ _
  have split : keyword :: word :: opening :: words ++ closing :: back =
      keyword :: word :: opening :: (words ++ [closing] ++ back) := by
    simp only [List.append_assoc, List.cons_append, List.nil_append]
  rw [split]
  refine .bind_skip (.bind_expect kind fun token same => .bind_expect before fun _ _ => ?_)
  refine .bind (items_takes taken rfl (by decide) rfl inside behind) ?_
  subst same
  exact .bind_pure _ (block_takes complete derived after)

theorem returning_takes (complete : nesting.Complete room) {exprs : List Expr} {keyword : Lexeme}
    {words after : List Lexeme} (derived : Derives room (.values exprs) words)
    (ends : (firstKind after).endsExpression) (last : firstKind after ≠ Symbol.comma) :
    (returning nesting).Takes (keyword :: words) (.returning exprs) after := by
  have starts := opensValue_append derived.opens after
  have goesOn : endsReturn (firstKind (words ++ after)) = false := by
    rw [endsReturn, endsBlock_eq_false (.inl starts), Bool.or_false, beq_eq_false_iff_ne]
    intro same
    rw [same] at starts
    contradiction
  refine .bind_skip (.bind_peek ?_)
  rw [goesOn]
  refine .bind_remaining (.bind_pure _ (someItems_takes complete derived ends last ?_))
  simp only [List.length_append]
  omega

theorem returningNothing_takes {keyword : Lexeme} {after : List Lexeme}
    (ends : endsReturn (firstKind after)) :
    (returning nesting).Takes [keyword] (.returning []) after := by
  refine .bind_skip (.bind_peek ?_)
  rw [List.nil_append, if_pos ends]
  exact .pure _ _

theorem conditional_takes (complete : nesting.Complete room) {chain : Conditional}
    {words after : List Lexeme} (keyword : Lexeme) (derived : Derives room (.conditional chain) words)
    (noElif : firstKind after ≠ Keyword.elif) (noElse : firstKind after ≠ Keyword.else_) :
    (conditional nesting).Takes (keyword :: words) chain after := by
  cases derived with
  | only test block =>
    refine .bind_skip (.bind (expression_takes complete test (block_opens block _)) ?_)
    refine .bind_nil (block_takes complete block _) (.bind_peek ?_)
    rw [List.nil_append]
    split
    · exact absurd ‹_› noElif
    · exact absurd ‹_› noElse
    · exact .pure _ _
  | otherwise test block kind last =>
    rw [List.append_assoc]
    refine .bind_skip (.bind (expression_takes complete test ?_) ?_)
    · rw [List.append_assoc]
      exact block_opens block _
    refine .bind (block_takes complete block _) (.bind_peek ?_)
    rw [List.cons_append, firstKind_cons, kind]
    exact .bind_skip (.bind_pure _ (block_takes complete last _))
  | elif test block kind chained =>
    obtain ⟨level, opened, known⟩ := complete _ rfl
    rw [List.append_assoc]
    refine .bind_skip (.bind (expression_takes complete test ?_) ?_)
    · rw [List.append_assoc]
      exact block_opens block _
    refine .bind (block_takes complete block _) (.bind_peek ?_)
    rw [List.cons_append, firstKind_cons, kind]
    refine .bind_here fun span => .bind_pure _ (.enter opened ?_)
    exact known.conditional _ chained noElif noElse

/-! ## Loops -/

theorem each_takes (complete : nesting.Complete room) {collection : Expr} {body : Block}
    {keyword word within : Lexeme} {front back : List Lexeme} (kind : word.kind = .identifier)
    (among : within.kind = Keyword.in_) (items : Derives room (.expression 0 collection) front)
    (derived : Derives room (.block body) back) (after : List Lexeme) :
    (loopOrEach nesting).Takes (keyword :: word :: within :: front ++ back)
      (.each word.content collection body) after := by
  refine .bind_skip (.bind_get fun stream split => ?_)
  have found : eachVariable? stream = some word.content := by
    obtain ⟨rest, finish, last⟩ := stream
    obtain ⟨token, others, rfl, rfl, behind⟩ := List.map_eq_cons_iff.mp split
    obtain ⟨second, others, rfl, rfl, -⟩ := List.map_eq_cons_iff.mp behind
    exact if_pos ⟨kind, among⟩
  rw [found]
  refine .bind_skip (.bind_skip (.bind (expression_takes complete items ?_) ?_))
  · exact block_opens derived after
  · exact .bind_pure _ (block_takes complete derived after)

theorem eachVariable?_eq_none {stream : Stream} {word : Lexeme} {words : List Lexeme}
    (split : stream.lexemes = word :: words) (other : firstKind words ≠ Keyword.in_) :
    eachVariable? stream = none := by
  obtain ⟨_, -, -, -, behind⟩ := Stream.exists_of_lexemes_eq_cons split
  rw [← behind, ← Stream.kind_eq_firstKind] at other
  obtain ⟨rest, finish, last⟩ := stream
  cases rest with
  | nil => rfl
  | cons token rest => exact if_neg fun fits => other fits.2

theorem loop_takes (complete : nesting.Complete (room + 1)) {start : Assignment} {step : Statement}
    {condition : Expr} {body : Block} {keyword with_ while_ : Lexeme}
    {first second third back : List Lexeme}
    (starts : Derives (room + 1) (.assignment start) first) (before : with_.kind = Keyword.with_)
    (steps : Derives room (.statement step) second) (returns : step ≠ .returning [])
    (behind : while_.kind = Keyword.while_) (test : Derives (room + 1) (.expression 0 condition) third)
    (derived : Derives (room + 1) (.block body) back) (after : List Lexeme) :
    (loopOrEach nesting).Takes (keyword :: first ++ with_ :: second ++ while_ :: third ++ back)
      (.loop start step condition body) after := by
  obtain ⟨level, opened, known⟩ := complete _ rfl
  have split : keyword :: first ++ with_ :: second ++ while_ :: third ++ back =
      keyword :: (first ++ with_ :: (second ++ while_ :: (third ++ back))) := by
    simp only [List.append_assoc, List.cons_append]
  rw [split]
  refine .bind_skip (.bind_get fun stream split => ?_)
  obtain ⟨word, rest, front, other⟩ :=
    starts.second_of_assignment (with_ :: (second ++ while_ :: (third ++ back)) ++ after)
  rw [List.append_assoc, front] at split
  rw [eachVariable?_eq_none split other]
  refine .bind (assignment_takes complete starts ?_) ?_
  · rw [List.cons_append, firstKind_cons, before]
    rfl
  refine .bind_expect before fun _ _ => .bind_here fun span => ?_
  refine .bind (.enter opened (known.statement steps (.inr ⟨behind, returns⟩))) ?_
  refine .bind_expect behind fun _ _ => ?_
  refine .bind (expression_takes complete test (block_opens derived after)) ?_
  exact .bind_pure _ (block_takes complete derived after)

theorem rangeBound_takes (bound : Bound) {word : Lexeme} {x : Binary64} (numbers : word.Numbers x)
    (after : List Lexeme) : (rangeBound bound).Takes [word] x after := by
  refine .bind_accept? numbers.kind fun token same => ?_
  subst same
  exact finiteNumber_takes numbers after

theorem range_takes (complete : nesting.Complete room) {start stop : Binary64} {body : Block}
    {keyword first to_ second as word : Lexeme} {back : List Lexeme} (from_ : first.Numbers start)
    (between : to_.kind = Keyword.to_) (upTo : second.Numbers stop) (before : as.kind = Keyword.as)
    (kind : word.kind = .identifier) (derived : Derives room (.block body) back)
    (after : List Lexeme) :
    (range nesting).Takes (keyword :: first :: to_ :: second :: as :: word :: back)
      (.range start stop word.content body) after := by
  refine .bind_skip (.bind_cons (rangeBound_takes _ from_ _) ?_)
  refine .bind_expect between fun _ _ => .bind_cons (rangeBound_takes _ upTo _) ?_
  refine .bind_expect before fun _ _ => .bind_expect kind fun token same => ?_
  subst same
  exact .bind_pure _ (block_takes complete derived after)

/-! ## Levels -/

theorem statement_takes_of_opensValue {statement : Statement} {words after : List Lexeme}
    (opens : (firstKind (words ++ after)).opensValue)
    (taken : (assignmentOrExpression nesting).Takes words statement after) :
    (Parser.statement nesting).Takes words statement after := by
  refine .bind_peek ?_
  split
  all_goals first
    | exact taken
    | rename_i kind
      rw [kind] at opens
      contradiction

theorem statement_takes_of_scope {statement : Statement} {scope : Scope} {words after : List Lexeme}
    (opens : firstKind (words ++ after) = scope.keyword)
    (taken : (declaration nesting scope).Takes words statement after) :
    (Parser.statement nesting).Takes words statement after := by
  refine .bind_peek_eq opens ?_
  cases scope <;> exact taken

theorem assignmentOrExpression_takes_assignment (complete : nesting.Complete room)
    {assignment : Assignment} {words after : List Lexeme}
    (derived : Derives room (.assignment assignment) words)
    (ends : (firstKind after).endsExpression) :
    (assignmentOrExpression nesting).Takes words (.assignment assignment) after := by
  refine .bind_get fun stream split => ?_
  have ahead : assignmentAhead 0 stream.rest = true := by
    rw [assignmentAhead_eq, ← Stream.lexemes, split]
    exact derived.equalsAhead_of_assignment after
  rw [if_pos ahead]
  exact .bind_pure _ (assignment_takes complete derived ends)

theorem assignmentOrExpression_takes_expression (complete : nesting.Complete room) {expr : Expr}
    {words after : List Lexeme} (derived : Derives room (.expression 0 expr) words)
    (ends : (firstKind after).endsExpression) (noEquals : equalsAhead 0 after = false) :
    (assignmentOrExpression nesting).Takes words (.expression expr) after := by
  refine .bind_get fun stream split => ?_
  have ahead : ¬ assignmentAhead 0 stream.rest = true := by
    rw [assignmentAhead_eq, ← Stream.lexemes, split, derived.not_equalsAhead_of_expression noEquals]
    exact Bool.false_ne_true
  rw [if_neg ahead]
  exact .bind_pure _ (expression_takes complete derived ends)

theorem statement_takes (complete : nesting.Complete room) {statement : Statement}
    {words after : List Lexeme} (derived : Derives room (.statement statement) words)
    (ends : statement.EndsBefore (firstKind after)) :
    (Parser.statement nesting).Takes words statement after := by
  have next : firstKind after = Symbol.semicolon ∨ firstKind after = Keyword.while_ :=
    ends.imp_right And.left
  have endsExpression : (firstKind after).endsExpression := by
    rcases next with next | next <;> rw [next] <;> rfl
  have differs : ∀ kind : Kind, kind ≠ Symbol.semicolon → kind ≠ Keyword.while_ →
      firstKind after ≠ kind := by
    rintro kind noSemicolon noWhile rfl
    exact next.elim noSemicolon noWhile
  cases derived with
  | declarationWithValue opens kind sign initial =>
    obtain ⟨opens, needs⟩ := Scope.initialised_iff.mp opens
    exact statement_takes_of_scope opens
      (declarationWithValue_takes complete needs kind sign initial endsExpression)
  | declaration opens kind =>
    exact .bind_peek_eq opens
      (declaration_takes complete kind endsExpression (differs _ (by decide) (by decide)))
  | function opens kind before inside behind block =>
    exact .bind_peek_eq opens (function_takes complete kind before inside behind block after)
  | returningNothing opens =>
    refine .bind_peek_eq opens (returningNothing_takes ?_)
    rcases ends with next | ⟨-, other⟩
    · rw [next]
      rfl
    · contradiction
  | returning opens values =>
    exact .bind_peek_eq opens (returning_takes complete values endsExpression
      (differs _ (by decide) (by decide)))
  | conditional opens chained =>
    exact .bind_peek_eq opens (.bind_pure _ (conditional_takes complete _ chained
      (differs _ (by decide) (by decide)) (differs _ (by decide) (by decide))))
  | each opens kind among items block =>
    exact .bind_peek_eq opens (each_takes complete kind among items block after)
  | loop opens starts before steps returns behind test block =>
    exact .bind_peek_eq opens
      (loop_takes complete starts before steps returns behind test block after)
  | range opens from_ between upTo before kind block =>
    exact .bind_peek_eq opens (range_takes complete from_ between upTo before kind block after)
  | assignment assigns =>
    have starts := firstKind_append_of_identifier assigns.opens after
    exact statement_takes_of_opensValue (by rw [starts]; rfl)
      (assignmentOrExpression_takes_assignment complete assigns endsExpression)
  | expression evaluates =>
    exact statement_takes_of_opensValue (opensValue_append evaluates.opens after)
      (assignmentOrExpression_takes_expression complete evaluates endsExpression
        (equalsAhead_of_endsStatement (by rcases next with next | next <;> rw [next] <;> rfl)))

end Parser

theorem Level.Complete.ofNesting {nesting : Nesting} {room : Nat} (complete : nesting.Complete room) :
    (Level.ofNesting nesting).Complete room where
  expression := Parser.expression_takes complete
  conditional := Parser.conditional_takes complete
  statement := Parser.statement_takes complete

/-- At every level, whatever is derived with the room that there is, is taken. -/
theorem Level.complete_ofRoom (limit room : Nat) : (Level.ofRoom limit room).Complete room := by
  induction room with
  | zero => exact .ofNesting fun inner room => by contradiction
  | succ room ih =>
    refine .ofNesting fun inner same => ?_
    cases same
    exact ⟨_, rfl, ih⟩

end BlockScript
