import BlockScript.Proofs.Syntax.Grammar
import BlockScript.Proofs.Syntax.Run

/-!
# The parser derives what it accepts

Whatever a parser of a level accepts, it has derived: the lexemes that it took are a phrase of
the grammar for the tree that it gives, with as many levels open as there is room for
(`Level.sound_ofRoom`). The recursion is the one of the levels: each parser is treated on its
own, with the parsers of the level inside as a premise.

`climb` is the one parser whose rule looks at what it leaves. It stops only at an operator that
binds looser than asked, and that is what allows the caller to take the tree as a left operand.
-/

namespace BlockScript

/-- What the level with `room` knows of the levels inside it. -/
def Nesting.ofRoom (limit : Nat) : Nat → Nesting
  | 0 => ⟨limit, none⟩
  | room + 1 => ⟨limit, some (Level.ofRoom limit room)⟩

theorem Level.ofRoom_eq (limit room : Nat) :
    Level.ofRoom limit room = .ofNesting (.ofRoom limit room) := by
  cases room <;> rfl

/-- The parsers of a level derive what they accept. -/
structure Level.Sound (level : Level) (room : Nat) : Prop where
  expression : ∀ least, Parser.Yields Parser.Always (level.expression least)
    fun words expr => Derives room (.expression least expr) words
  /-- The keyword in front of a chain is taken, whichever it is. -/
  conditional : ∀ kind, kind ≠ .finish → Parser.Yields (·.kind = kind) level.conditional
    fun words chain => ∃ keyword rest, words = keyword :: rest ∧ keyword.kind = kind ∧
      Derives room (.conditional chain) rest
  statement : Parser.Yields Parser.Always level.statement
    fun words statement => Derives room (.statement statement) words
  /-- A `return` without values is recognised by what follows it. -/
  bare : ∀ ⦃stream left⦄, level.statement stream = .ok (.returning []) left →
    Parser.endsReturn left.kind

/-- A level that can be opened has less room and derives what it accepts. -/
def Nesting.Sound (nesting : Nesting) (room : Nat) : Prop :=
  ∀ level, nesting.inner? = some level → ∃ inner, room = inner + 1 ∧ level.Sound inner

namespace Parser

variable {α : Type} {nesting : Nesting} {room : Nat}

theorem enter_eq_ok {span : Span} {parse : Level → Parser α} {stream left : Stream} {value : α}
    (ran : nesting.enter span parse stream = .ok value left) :
    ∃ level, nesting.inner? = some level ∧ parse level stream = .ok value left := by
  unfold Nesting.enter at ran
  cases opened : nesting.inner? with
  | none =>
    rw [opened] at ran
    contradiction
  | some level =>
    rw [opened] at ran
    exact ⟨level, rfl, ran⟩

theorem Yields.enter {pre : Stream → Prop} {post : List Lexeme → α → Prop} {span : Span}
    {parse : Level → Parser α} (sound : nesting.Sound room)
    (inside : ∀ level inner, room = inner + 1 → level.Sound inner →
      Yields pre (parse level) post) :
    Yields pre (nesting.enter span parse) post := by
  intro stream value left holds ran
  obtain ⟨level, opened, ran⟩ := enter_eq_ok ran
  obtain ⟨inner, more, known⟩ := sound level opened
  exact inside level inner more known holds ran

/-- The lexemes are a phrase one level further inside, with a closing lexeme behind it. -/
def Enclosed (room : Nat) (close : Kind) (phrase : Phrase) (words : List Lexeme) : Prop :=
  ∃ (inner : Nat) (inside : List Lexeme) (closing : Lexeme), room = inner + 1 ∧
    words = inside ++ [closing] ∧ closing.kind = close ∧ Derives inner phrase inside

/-! ## Lists -/

section
variable {item : Parser α} {embed : α → Item} {comma close : Slot}

theorem itemsUpTo_yields (sound : Yields Always item fun words value =>
      Derives room (.item (embed value)) words)
    (separates : comma.kind = Symbol.comma) (bound : Nat) :
    Yields Always (itemsUpTo item comma close bound) fun words values =>
      Derives room (.items (values.map embed)) words := by
  induction bound with
  | zero => exact .pure .noItem
  | succ bound ih =>
    refine .bind_peek fun kind => ?_
    split
    · exact .pure .noItem
    · refine .bind (sound.weaken (fun _ _ => trivial) fun _ _ derived => derived) ?_
      intro first words derived
      refine .bind_peek fun kind => ?_
      split
      · refine .pure ?_
        rw [List.append_nil]
        exact .lastItem derived
      · refine .bind_expect fun token fits => ?_
        refine .bind ih fun others back behind => .pure ?_
        rw [List.append_nil]
        exact .moreItems derived (fits.trans separates) behind

theorem items_yields (sound : Yields Always item fun words value =>
      Derives room (.item (embed value)) words)
    (separates : comma.kind = Symbol.comma) :
    Yields Always (items item comma close) fun words values =>
      ∃ (inside : List Lexeme) (closing : Lexeme), words = inside ++ [closing] ∧
        closing.kind = close.kind ∧ Derives room (.items (values.map embed)) inside := by
  refine .bind_remaining fun bound => ?_
  refine .bind ((itemsUpTo_yields sound separates _).weaken (fun _ _ => trivial)
    fun _ _ derived => derived) fun values inside derived => ?_
  refine .bind_expect fun token fits => .pure ?_
  exact ⟨inside, token.toLexeme, rfl, fits, derived⟩

/-- A list in brackets, with its items at the level inside. -/
theorem enclosed_yields {item : Level → Parser α} {span : Span} (sound : nesting.Sound room)
    (inside : ∀ {level room}, level.Sound room → Yields Always (item level) fun words value =>
      Derives room (.item (embed value)) words)
    (separates : comma.kind = Symbol.comma) :
    Yields Always (nesting.enter span fun level => items (item level) comma close)
      fun words values => Enclosed room close.kind (.items (values.map embed)) words := by
  refine .enter sound fun level inner more known => ?_
  refine (items_yields (inside known) separates).weaken (fun _ _ => trivial) ?_
  rintro _ values ⟨front, closing, rfl, closes, derived⟩
  exact ⟨inner, front, closing, more, rfl, closes, derived⟩

end

/-! ## Values -/

theorem finiteNumber_yields (token : Token) (kind : token.kind = .number) :
    Yields Always (finiteNumber token) fun words x => words = [] ∧ token.toLexeme.Numbers x := by
  unfold finiteNumber
  split
  · exact .fail
  · rename_i x reads
    split
    · rename_i finite
      exact .pure ⟨rfl, kind, reads, finite⟩
    · exact .fail

theorem element_yields {level : Level} (sound : level.Sound room) :
    Yields Always (level.expression 0) fun words expr =>
      Derives room (.item (.expression expr)) words :=
  (sound.expression 0).weaken (fun _ _ => trivial) fun _ _ => .element

theorem entry_yields {level : Level} (sound : level.Sound room) :
    Yields Always (entry level) fun words entry => Derives room (.item (.entry entry)) words := by
  refine .bind (sound.expression 0) fun key front before => ?_
  refine .bind_expect fun token fits => ?_
  refine .bind (sound.expression 0) fun value back behind => .pure ?_
  rw [List.append_nil]
  exact .entry before fits behind

theorem memberIndex_yields {level : Level} {inner : Nat} (more : room = inner + 1)
    (sound : level.Sound inner) :
    Yields Always (memberIndex level) fun words index =>
      Enclosed room Symbol.closeBracket (.expression 0 index) words := by
  refine .bind (sound.expression 0) fun index inside derived => ?_
  refine .bind_expect fun token fits => .pure ?_
  exact ⟨inner, inside, token.toLexeme, more, rfl, fits, derived⟩

theorem group_yields {level : Level} {inner : Nat} (more : room = inner + 1)
    (sound : level.Sound inner) :
    Yields Always (group level) fun words expr =>
      Enclosed room Symbol.closeParen (.expression 0 expr) words := by
  refine .bind (sound.expression 0) fun expr inside derived => ?_
  refine .bind_expect fun token fits => .pure ?_
  exact ⟨inner, inside, token.toLexeme, more, rfl, fits, derived⟩

theorem suffixes_yields (sound : nesting.Sound room) (bound : Nat) (value : Expr) :
    Yields Always (suffixes nesting bound value) fun words expr =>
      ∀ front, Derives room (.access value) front → Derives room (.access expr) (front ++ words) := by
  induction bound generalizing value with
  | zero =>
    refine .pure fun front derived => ?_
    rwa [List.append_nil]
  | succ bound ih =>
    have stop : ∀ pre, Yields pre (pure value : Parser Expr) fun words expr =>
        ∀ front, Derives room (.access value) front →
          Derives room (.access expr) (front ++ words) := by
      refine fun pre => .pure fun front derived => ?_
      rwa [List.append_nil]
    refine .bind_accept? (by simp) ?_ fun opening opens => ?_
    · dsimp only
      split
      · rename_i place
        refine .bind_accept? (by simp) (stop _) fun token kind => ?_
        refine (ih _).weaken (fun _ _ => trivial) fun words expr known front derived => ?_
        have longer := known _ (.selected derived place kind)
        rwa [List.append_assoc] at longer
      · exact stop _
    · refine .bind (.enter sound fun level inner more known =>
        memberIndex_yields more known) ?_
      rintro index _ ⟨inner, inside, closing, rfl, rfl, closes, derived⟩
      refine (ih _).weaken (fun _ _ => trivial) fun words expr known front accessed => ?_
      have longer := known _ (.member accessed opens derived closes)
      simpa only [List.append_assoc, List.cons_append, List.nil_append] using longer

theorem access_yields (sound : nesting.Sound room) (word : Lexeme) (kind : word.kind = .identifier) :
    Yields Always (access nesting word.content) fun words expr =>
      Derives room (.access expr) (word :: words) := by
  have behind : ∀ (value : Expr) front, Derives room (.access value) front → ∀ pre,
      Yields pre (remaining >>= fun bound => suffixes nesting bound value) fun words expr =>
        Derives room (.access expr) (front ++ words) := by
    intro value front derived pre
    refine .bind_remaining fun bound => ?_
    exact (suffixes_yields sound bound value).weaken (fun _ _ => trivial)
      fun words expr known => known front derived
  refine .bind_accept? (by simp) ?_ fun opening opens => ?_
  · exact behind _ [word] (.name kind) _
  · refine .bind (enclosed_yields sound element_yields rfl) ?_
    rintro arguments _ ⟨inner, inside, closing, rfl, rfl, closes, derived⟩
    refine (behind _ _ (.call kind opens derived closes) _).weaken (fun _ _ => trivial) ?_
    intro words expr known
    simpa only [List.append_assoc, List.cons_append, List.nil_append] using known

theorem valueAfter_yields (sound : nesting.Sound room) (token : Token) :
    Yields Always (valueAfter nesting token) fun words expr =>
      Derives room (.value expr) (token.toLexeme :: words) := by
  unfold valueAfter
  split
  · rename_i kind
    refine .bind (finiteNumber_yields token kind) fun x words known => .pure ?_
    obtain ⟨rfl, numbers⟩ := known
    exact .number numbers
  · rename_i kind
    exact .pure (.text kind)
  · rename_i kind
    exact .pure (.selector kind)
  · rename_i kind
    exact (access_yields sound token.toLexeme kind).weaken (fun _ _ => trivial)
      fun _ _ => .accessed
  · rename_i opens
    refine .bind (enclosed_yields sound element_yields rfl) ?_
    rintro elements _ ⟨inner, inside, closing, rfl, rfl, closes, derived⟩
    refine .pure ?_
    rw [List.append_nil]
    exact .array opens derived closes
  · rename_i opens
    refine .bind (enclosed_yields sound entry_yields rfl) ?_
    rintro entries _ ⟨inner, inside, closing, rfl, rfl, closes, derived⟩
    refine .pure ?_
    rw [List.append_nil]
    exact .object opens derived closes
  · split
    · exact .fail
    · exact .fail

theorem value_yields (sound : nesting.Sound room) :
    Yields Always (value nesting) fun words expr => Derives room (.value expr) words :=
  .bind_take? .blame fun token => valueAfter_yields sound token

theorem operand_yields (sound : nesting.Sound room) :
    Yields Always (operand nesting) fun words expr => Derives room (.operand expr) words := by
  refine .bind_accept? (by simp) ?_ fun opening opens => ?_
  · exact (value_yields sound).weaken (fun _ _ => trivial) fun _ _ => .single
  · refine (Yields.enter sound fun level inner more known => group_yields more known).weaken
      (fun _ _ => trivial) ?_
    rintro _ expr ⟨inner, inside, closing, rfl, rfl, closes, derived⟩
    exact .group opens derived closes

/-! ## Chains of operators -/

/-- `expr` is an expression to the left of the operator that comes next, if it is one that a
chain from `least` on goes on with. -/
def LeftOf (room least : Nat) (next : Kind) (expr : Expr) (words : List Lexeme) : Prop :=
  Derives room (.expression least expr) words ∧
    ∀ operator, Operator.ofKind? next = some operator → least ≤ operator.precedence →
      Derives room (.expression operator.precedence expr) words

theorem LeftOf.of_operand {least : Nat} {next : Kind} {expr : Expr} {words : List Lexeme}
    (derived : Derives room (.operand expr) words) : LeftOf room least next expr words :=
  ⟨.operand derived, fun _ _ _ => .operand derived⟩

/-- With enough fuel, `climb` goes on exactly as long as operators of precedence `least` or
higher follow, and derives what it adds to the expression on the left. -/
theorem climb_eq_ok (sound : nesting.Sound room) {bound least : Nat} {left expr : Expr}
    {stream final : Stream} (fuel : stream.lexemes.length ≤ bound)
    (ran : climb nesting bound least left stream = .ok expr final) :
    (∃ words, stream.lexemes = words ++ final.lexemes ∧
      ∀ front, LeftOf room least stream.kind left front →
        Derives room (.expression least expr) (front ++ words)) ∧
      ∀ operator, Operator.ofKind? final.kind = some operator → operator.precedence < least := by
  induction bound generalizing least left expr stream final with
  | zero =>
    cases ran
    have empty : stream.lexemes = [] := List.length_eq_zero_iff.mp (Nat.le_zero.mp fuel)
    refine ⟨⟨[], rfl, fun front known => ?_⟩, ?_⟩
    · rw [List.append_nil]
      exact known.1
    · intro operator known
      rw [stream.kind_eq_firstKind, empty] at known
      contradiction
  | succ bound ih =>
    have stop : climb nesting 0 least left stream = .ok expr final →
        ∃ words, stream.lexemes = words ++ final.lexemes ∧
          ∀ front, LeftOf room least stream.kind left front →
            Derives room (.expression least expr) (front ++ words) := by
      rintro ⟨⟩
      refine ⟨[], rfl, fun front known => ?_⟩
      rw [List.append_nil]
      exact known.1
    obtain ⟨_, _, ⟨⟩, ran⟩ := bind_eq_ok ran
    cases known : Operator.ofKind? stream.kind with
    | none =>
      rw [known] at ran
      dsimp only at ran
      refine ⟨stop ran, ?_⟩
      cases ran
      rw [known]
      simp
    | some operator =>
    rw [known] at ran
    dsimp only at ran
    by_cases looser : operator.precedence < least
    · rw [if_pos looser] at ran
      refine ⟨stop ran, ?_⟩
      cases ran
      intro other same
      cases known.symm.trans same
      exact looser
    · have binds := Nat.le_of_not_lt looser
      rw [if_neg looser] at ran
      have kind := Operator.kind_of_ofKind? known
      have inner : stream.kind ≠ .finish := by
        rw [← kind]
        cases operator <;> exact Kind.noConfusion
      obtain ⟨sign, -, same, split⟩ := Stream.exists_of_kind_ne_finish inner
      obtain ⟨_, _, ⟨⟩, ran⟩ := bind_eq_ok ran
      obtain ⟨first, second, took, ran⟩ := bind_eq_ok ran
      obtain ⟨right, third, climbed, ran⟩ := bind_eq_ok ran
      obtain ⟨operandWords, fromOperand, operandDerived⟩ := operand_yields sound trivial took
      have enough : second.lexemes.length ≤ bound := by
        have total := congrArg List.length split
        have less := congrArg List.length fromOperand
        simp only [List.length_cons, List.length_append] at total less
        omega
      obtain ⟨⟨rightWords, fromRight, rightDerived⟩, stopped⟩ := ih enough climbed
      have still : third.lexemes.length ≤ bound := by
        have less := congrArg List.length fromRight
        simp only [List.length_append] at less
        omega
      obtain ⟨⟨restWords, fromRest, restDerived⟩, ended⟩ := ih still ran
      refine ⟨⟨sign.toLexeme :: (operandWords ++ rightWords ++ restWords), ?_, ?_⟩, ended⟩
      · rw [split, fromOperand, fromRight, fromRest]
        simp only [List.cons_append, List.append_assoc]
      · intro front known'
        have onRight := rightDerived _ (.of_operand operandDerived)
        have onLeft := known'.2 operator known binds
        have whole : ∀ least, least ≤ operator.precedence →
            Derives room (.expression least (.binary operator left right))
              (front ++ sign.toLexeme :: (operandWords ++ rightWords)) :=
          fun least looser =>
            .binary operator.atLevel_precedence looser onLeft (same.trans kind.symm) onRight
        have longer := restDerived _ ⟨whole least binds, fun next follows _ =>
          whole next.precedence (Nat.le_of_lt_succ (stopped next follows))⟩
        simpa only [List.append_assoc, List.cons_append] using longer

/-- An expression is derived, and no operator that it could have gone on with is left. -/
theorem expression_eq_ok (sound : nesting.Sound room) {least : Nat} {expr : Expr}
    {stream final : Stream} (ran : expression nesting least stream = .ok expr final) :
    (∃ words, stream.lexemes = words ++ final.lexemes ∧
      Derives room (.expression least expr) words) ∧
      ∀ operator, Operator.ofKind? final.kind = some operator → operator.precedence < least := by
  obtain ⟨first, second, took, ran⟩ := bind_eq_ok ran
  obtain ⟨_, _, ⟨⟩, ran⟩ := bind_eq_ok ran
  obtain ⟨operandWords, fromOperand, operandDerived⟩ := operand_yields sound trivial took
  obtain ⟨⟨words, fromClimb, derived⟩, stopped⟩ :=
    climb_eq_ok sound (Nat.le_of_eq second.length_lexemes) ran
  refine ⟨⟨operandWords ++ words, ?_, derived _ (.of_operand operandDerived)⟩, stopped⟩
  rw [fromOperand, fromClimb, List.append_assoc]

theorem expression_yields (sound : nesting.Sound room) (least : Nat) :
    Yields Always (expression nesting least) fun words expr =>
      Derives room (.expression least expr) words :=
  fun _ _ _ _ ran => (expression_eq_ok sound ran).1

/-! ## Assignments and declarations -/

theorem assignOperator_yields :
    Yields Always assignOperator fun words operator => operator.WrittenAs words := by
  refine .bind_accept? (by simp) ?_ fun token kind => .pure (congrArg (·  :: []) kind)
  refine .bind_peek fun kind => ?_
  split
  · exact .blame
  · rename_i operator known
    refine .bind_get fun stream shown => ?_
    split
    · rename_i equals
      have kinds := AssignOperator.kinds_of_ofKind? known
      refine .bind_skip ?_ ?_
      · rintro _ rfl ended
        rw [shown.2] at ended
        rw [ended] at kinds
        revert kinds
        cases operator <;> decide
      · rintro _ first rfl front
        refine .bind_skip ?_ ?_
        · rintro _ rfl ended
          rw [equals] at ended
          contradiction
        · rintro _ second rfl behind
          refine .pure ?_
          have firstIs := (Stream.kind_of_lexemes_eq_cons front).symm.trans shown.2
          have secondIs := (Stream.kind_of_lexemes_eq_cons behind).symm.trans equals
          rw [AssignOperator.WrittenAs, kinds, List.map_cons, List.map_cons, List.map_nil,
            firstIs, secondIs]
    · exact .blame

theorem assignment_yields (sound : nesting.Sound room) :
    Yields Always (assignment nesting) fun words assignment =>
      Derives room (.assignment assignment) words := by
  refine .bind_here fun first => ?_
  refine .bind (value_yields sound) fun target front derived => ?_
  split
  · rename_i place
    refine .bind assignOperator_yields fun operator signs sign => ?_
    refine .bind (expression_yields sound 0) fun value back onRight => .pure ?_
    rw [List.append_nil, ← List.append_assoc]
    exact .assign (derived.access_of_isPlace place) place sign onRight
  · exact .bind_get fun stream _ => .fail

theorem declaration_yields (sound : nesting.Sound room) (scope : Scope) :
    Yields (·.kind = scope.keyword) (declaration nesting scope) fun words statement =>
      Derives room (.statement statement) words := by
  refine .bind_here fun span => ?_
  refine .bind_skip (fun stream shown => by rw [shown]; exact Kind.noConfusion) ?_
  intro stream keyword shown split
  have opens := (Stream.kind_of_lexemes_eq_cons split).symm.trans shown
  refine .bind ((value_yields sound).weaken (fun _ _ => trivial) fun _ _ derived => derived) ?_
  intro expr words derived
  split
  · rename_i name
    obtain ⟨word, rfl, kind, rfl⟩ := (derived.access_of_isPlace rfl).eq_of_name
    refine .bind_peek fun next => ?_
    split
    · rename_i equals
      split
      · rename_i needs
        refine .bind_skip ?_ ?_
        · rintro stream ⟨-, shown⟩
          rw [shown, equals]
          exact Kind.noConfusion
        · rintro stream sign ⟨-, shown⟩ split
          refine .bind ((expression_yields sound 0).weaken (fun _ _ => trivial)
            fun _ _ derived => derived) fun value words initial => .pure ?_
          have signs := (Stream.kind_of_lexemes_eq_cons split).symm.trans (shown.trans equals)
          rw [List.append_nil]
          exact .declarationWithValue (Scope.initialised_iff.mpr ⟨opens, needs⟩) kind signs initial
      · exact .fail
    · split
      · exact .fail
      · rename_i needs
        obtain rfl := Scope.eq_local_of_not_needsValue needs
        exact .pure (.declaration opens kind)
  · exact .fail

/-! ## Statements -/

theorem someItems_yields {item : Parser Expr}
    (sound : Yields Always item fun words expr => Derives room (.expression 0 expr) words)
    (bound : Nat) :
    Yields Always (someItems item bound) fun words exprs => Derives room (.values exprs) words := by
  induction bound with
  | zero =>
    refine .bind sound fun first words derived => .pure ?_
    rw [List.append_nil]
    exact .lastValue derived
  | succ bound ih =>
    refine .bind sound fun first words derived => ?_
    refine .bind_accept? (by simp) (.pure ?_) fun token comma => ?_
    · rw [List.append_nil]
      exact .lastValue derived
    · refine .bind ih fun others back behind => .pure ?_
      rw [List.append_nil]
      exact .moreValues derived comma behind

theorem statementsUpTo_yields {item : Parser Statement}
    (sound : Yields Always item fun words statement => Derives room (.statement statement) words)
    (stops : Kind → Bool) (bound : Nat) :
    Yields Always (statementsUpTo item stops bound) fun words body =>
      Derives room (.statements body) words := by
  induction bound with
  | zero => exact .pure .noStatement
  | succ bound ih =>
    refine .bind_peek fun kind => ?_
    split
    · exact .pure .noStatement
    · refine .bind (sound.weaken (fun _ _ => trivial) fun _ _ derived => derived) ?_
      intro first words derived
      refine .bind_expect fun token fits => ?_
      refine .bind ih fun others back behind => .pure ?_
      rw [List.append_nil]
      exact .moreStatements derived fits behind

theorem block_yields (sound : nesting.Sound room) :
    Yields Always (block nesting) fun words body => Derives room (.block body) words := by
  refine .bind_expect fun opening opens => ?_
  refine .enter sound ?_
  rintro level inner rfl known
  refine .bind_remaining fun bound => ?_
  refine .bind ((statementsUpTo_yields known.statement endsBlock bound).weaken
    (fun _ _ => trivial) fun _ _ derived => derived) fun body words derived => ?_
  refine .bind_expect fun closing closes => .pure ?_
  exact .block opens derived closes

theorem parameter_yields (room : Nat) :
    Yields Always parameter fun words name => Derives room (.item (.parameter name)) words :=
  .bind_expect fun _ kind => .pure (.parameter kind)

theorem function_yields (sound : nesting.Sound room) :
    Yields (·.kind = Keyword.function) (function nesting) fun words statement =>
      Derives room (.statement statement) words := by
  refine .bind_skip (fun stream shown => by rw [shown]; exact Kind.noConfusion) ?_
  intro stream keyword shown split
  have opens := (Stream.kind_of_lexemes_eq_cons split).symm.trans shown
  refine .bind_expect fun name kind => ?_
  refine .bind_expect fun opening before => ?_
  refine .bind (items_yields (parameter_yields room) rfl) ?_
  rintro parameters _ ⟨words, closing, rfl, behind, inside⟩
  refine .bind (block_yields sound) fun body back block => .pure ?_
  have derived := Derives.function opens kind before inside behind block
  simpa only [List.append_assoc, List.cons_append, List.nil_append, List.append_nil] using derived

theorem returning_yields (sound : nesting.Sound room) :
    Yields (·.kind = Keyword.return_) (returning nesting) fun words statement =>
      Derives room (.statement statement) words := by
  refine .bind_skip (fun stream shown => by rw [shown]; exact Kind.noConfusion) ?_
  intro stream keyword shown split
  have opens := (Stream.kind_of_lexemes_eq_cons split).symm.trans shown
  refine .bind_peek fun kind => ?_
  split
  · exact .pure (.returningNothing opens)
  · refine .bind_remaining fun bound => ?_
    refine .bind ((someItems_yields (expression_yields sound 0) bound).weaken
      (fun _ _ => trivial) fun _ _ derived => derived) fun exprs words values => .pure ?_
    rw [List.append_nil]
    exact .returning opens values

theorem conditional_yields (sound : nesting.Sound room) {kind : Kind} (inner : kind ≠ .finish) :
    Yields (·.kind = kind) (conditional nesting) fun words chain =>
      ∃ keyword rest, words = keyword :: rest ∧ keyword.kind = kind ∧
        Derives room (.conditional chain) rest := by
  refine .bind_skip (fun stream shown => shown ▸ inner) ?_
  intro stream keyword shown split
  have opens := (Stream.kind_of_lexemes_eq_cons split).symm.trans shown
  refine .bind ((expression_yields sound 0).weaken (fun _ _ => trivial)
    fun _ _ derived => derived) fun condition front test => ?_
  refine .bind (block_yields sound) fun body middle block => ?_
  refine .bind_peek fun next => ?_
  split
  · refine .bind_here fun span => ?_
    have link : Yields (·.kind = Keyword.elif) (nesting.enter span Level.conditional)
        fun words chain => ∃ inner keyword rest, room = inner + 1 ∧ words = keyword :: rest ∧
          keyword.kind = Keyword.elif ∧ Derives inner (.conditional chain) rest := by
      refine .enter sound fun level inner more known => ?_
      refine (known.conditional Keyword.elif Kind.noConfusion).weaken (fun _ shown => shown) ?_
      rintro _ chain ⟨keyword, rest, split, kind, chained⟩
      exact ⟨inner, keyword, rest, more, split, kind, chained⟩
    refine .bind (link.weaken (fun _ shown => shown.2) fun _ _ derived => derived) ?_
    rintro next _ ⟨inner, elif, rest, rfl, rfl, kind, chained⟩
    refine .pure ⟨keyword, front ++ middle ++ elif :: rest, ?_, opens, ?_⟩
    · simp only [List.append_assoc, List.append_nil]
    · exact .elif test block kind chained
  · refine .bind_skip ?_ ?_
    · rintro stream ⟨-, shown⟩
      rw [shown]
      exact Kind.noConfusion
    · rintro stream word ⟨-, shown⟩ split
      have kind := (Stream.kind_of_lexemes_eq_cons split).symm.trans shown
      refine .bind ((block_yields sound).weaken (fun _ _ => trivial)
        fun _ _ derived => derived) fun other back last => .pure ?_
      refine ⟨keyword, front ++ middle ++ word :: back, ?_, opens, ?_⟩
      · simp only [List.append_assoc, List.append_nil]
      · exact .otherwise test block kind last
  · refine .pure ⟨keyword, front ++ middle, ?_, opens, .only test block⟩
    rw [List.append_nil]

/-! ## Loops -/

theorem exists_of_eachVariable? {stream : Stream} {name : String}
    (found : eachVariable? stream = some name) :
    ∃ word words, stream.lexemes = word :: words ∧ word.kind = .identifier ∧
      word.content = name ∧ firstKind words = Keyword.in_ := by
  obtain ⟨rest, finish, last⟩ := stream
  cases rest with
  | nil => contradiction
  | cons token rest =>
    rw [eachVariable?] at found
    dsimp only at found
    split at found
    · rename_i fits
      refine ⟨token.toLexeme, rest.map Token.toLexeme, rfl, fits.1, Option.some.inj found, ?_⟩
      rw [← fits.2, Stream.kind_eq_firstKind]
      rfl
    · contradiction

theorem each_yields (sound : nesting.Sound room) {keyword : Lexeme}
    (opens : keyword.kind = Keyword.for_) {name : String} :
    Yields (eachVariable? · = some name) (each nesting name) fun words statement =>
      Derives room (.statement statement) (keyword :: words) := by
  refine .bind_skip ?_ ?_
  · intro stream found
    obtain ⟨word, words, split, kind, -, -⟩ := exists_of_eachVariable? found
    rw [Stream.kind_of_lexemes_eq_cons split, kind]
    exact Kind.noConfusion
  · intro stream word found front
    obtain ⟨first, words, split, kind, same, next⟩ := exists_of_eachVariable? found
    obtain ⟨rfl, behind⟩ := List.cons.inj (split.symm.trans front)
    rw [behind, ← Stream.kind_eq_firstKind] at next
    refine .bind_skip ?_ ?_
    · rintro _ rfl
      rw [next]
      exact Kind.noConfusion
    · rintro _ within rfl front
      have among := (Stream.kind_of_lexemes_eq_cons front).symm.trans next
      refine .bind ((expression_yields sound 0).weaken (fun _ _ => trivial)
        fun _ _ derived => derived) fun collection front items => ?_
      refine .bind (block_yields sound) fun body back block => .pure ?_
      rw [List.append_nil, ← same]
      exact .each opens kind among items block

theorem loop_yields (sound : nesting.Sound room) {keyword : Lexeme}
    (opens : keyword.kind = Keyword.for_) :
    Yields Always (loop nesting) fun words statement =>
      Derives room (.statement statement) (keyword :: words) := by
  refine .bind (assignment_yields sound) fun start first starts => ?_
  refine .bind_expect fun with_ before => ?_
  refine .bind_here fun span => ?_
  have entered : Yields Always (nesting.enter span Level.statement) fun words step =>
      ∃ inner, room = inner + 1 ∧ Derives inner (.statement step) words := by
    refine .enter sound fun level inner more known => ?_
    exact known.statement.weaken (fun _ shown => shown) fun _ _ derived => ⟨inner, more, derived⟩
  have ends : ∀ ⦃stream step left⦄, nesting.enter span Level.statement stream = .ok step left →
      step = .returning [] → endsReturn left.kind := by
    rintro stream _ left ran rfl
    obtain ⟨level, opened, ran⟩ := enter_eq_ok ran
    obtain ⟨_, _, known⟩ := sound level opened
    exact known.bare ran
  refine .bind_of_ok entered ends ?_
  rintro step second ⟨inner, rfl, steps⟩
  by_cases returns : step = .returning []
  · -- Behind a bare `return` stands no `while`.
    refine .bind_expect_other fun stream ends same => ?_
    have final := ends returns
    rw [same] at final
    contradiction
  · refine .bind_expect fun while_ behind => ?_
    refine .bind (expression_yields sound 0) fun condition third test => ?_
    refine .bind (block_yields sound) fun body back block => .pure ?_
    have derived := Derives.loop opens starts before steps returns behind test block
    simpa only [List.append_assoc, List.cons_append, List.append_nil] using derived

theorem loopOrEach_yields (sound : nesting.Sound room) :
    Yields (·.kind = Keyword.for_) (loopOrEach nesting) fun words statement =>
      Derives room (.statement statement) words := by
  refine .bind_skip (fun stream shown => by rw [shown]; exact Kind.noConfusion) ?_
  intro stream keyword shown split
  have opens := (Stream.kind_of_lexemes_eq_cons split).symm.trans shown
  refine .bind_get fun next _ => ?_
  cases found : eachVariable? next with
  | some name =>
    exact (each_yields sound opens).weaken (fun _ same => same ▸ found) fun _ _ derived => derived
  | none =>
    exact (loop_yields sound opens).weaken (fun _ _ => trivial) fun _ _ derived => derived

theorem rangeBound_yields (bound : Bound) :
    Yields Always (rangeBound bound) fun words x =>
      ∃ word : Lexeme, words = [word] ∧ word.Numbers x := by
  refine .bind_accept? (by simp) .blame fun token kind => ?_
  refine (finiteNumber_yields token kind).weaken (fun _ _ => trivial) ?_
  rintro _ x ⟨rfl, numbers⟩
  exact ⟨token.toLexeme, rfl, numbers⟩

theorem range_yields (sound : nesting.Sound room) :
    Yields (·.kind = Keyword.hardcode) (range nesting) fun words statement =>
      Derives room (.statement statement) words := by
  refine .bind_skip (fun stream shown => by rw [shown]; exact Kind.noConfusion) ?_
  intro stream keyword shown split
  have opens := (Stream.kind_of_lexemes_eq_cons split).symm.trans shown
  refine .bind ((rangeBound_yields .start).weaken (fun _ _ => trivial)
    fun _ _ derived => derived) ?_
  rintro start _ ⟨first, rfl, from_⟩
  refine .bind_expect fun to_ between => ?_
  refine .bind (rangeBound_yields .stop) ?_
  rintro stop _ ⟨second, rfl, upTo⟩
  refine .bind_expect fun as before => ?_
  refine .bind_expect fun word kind => ?_
  refine .bind (block_yields sound) fun body back block => .pure ?_
  rw [List.append_nil]
  exact .range opens from_ between upTo before kind block

/-! ## Levels -/

theorem statement_yields (sound : nesting.Sound room) :
    Yields Always (statement nesting) fun words statement =>
      Derives room (.statement statement) words := by
  refine .bind_peek fun kind => ?_
  split
  · exact (function_yields sound).weaken (fun _ shown => shown.2) fun _ _ derived => derived
  · exact (returning_yields sound).weaken (fun _ shown => shown.2) fun _ _ derived => derived
  · refine .bind ((conditional_yields sound Kind.noConfusion).weaken (fun _ shown => shown.2)
      fun _ _ derived => derived) ?_
    rintro chain _ ⟨keyword, rest, rfl, opens, chained⟩
    refine .pure ?_
    rw [List.append_nil]
    exact .conditional opens chained
  · exact (declaration_yields sound .global).weaken (fun _ shown => shown.2)
      fun _ _ derived => derived
  · exact (declaration_yields sound .local_).weaken (fun _ shown => shown.2)
      fun _ _ derived => derived
  · exact (declaration_yields sound .var).weaken (fun _ shown => shown.2)
      fun _ _ derived => derived
  · exact (loopOrEach_yields sound).weaken (fun _ shown => shown.2) fun _ _ derived => derived
  · exact (range_yields sound).weaken (fun _ shown => shown.2) fun _ _ derived => derived
  · refine .bind_get fun stream _ => ?_
    split
    · refine .bind ((assignment_yields sound).weaken (fun _ _ => trivial)
        fun _ _ derived => derived) fun assignment words assigns => .pure ?_
      rw [List.append_nil]
      exact .assignment assigns
    · refine .bind ((expression_yields sound 0).weaken (fun _ _ => trivial)
        fun _ _ derived => derived) fun expr words evaluates => .pure ?_
      rw [List.append_nil]
      exact .expression evaluates

theorem endsReturn_of_statement_eq_ok (sound : nesting.Sound room) {stream left : Stream}
    (ran : statement nesting stream = .ok (.returning []) left) : endsReturn left.kind := by
  obtain ⟨words, split, derived⟩ := statement_yields sound trivial ran
  obtain ⟨keyword, rfl, opens⟩ := derived.eq_of_returning_nil
  have kind := (Stream.kind_of_lexemes_eq_cons split).trans opens
  obtain ⟨_, _, ⟨⟩, ran⟩ := bind_eq_ok ran
  rw [kind] at ran
  obtain ⟨_, _, ⟨⟩, ran⟩ := bind_eq_ok ran
  obtain ⟨_, _, ⟨⟩, ran⟩ := bind_eq_ok ran
  split at ran
  · rename_i ends
    cases ran
    exact ends
  · obtain ⟨_, _, ⟨⟩, ran⟩ := bind_eq_ok ran
    obtain ⟨values, _, took, ran⟩ := bind_eq_ok ran
    obtain ⟨_, _, derived⟩ := someItems_yields (expression_yields sound 0) _ trivial took
    cases ran
    exact absurd rfl derived.exprs_ne_nil

end Parser

theorem Level.Sound.ofNesting {nesting : Nesting} {room : Nat} (sound : nesting.Sound room) :
    (Level.ofNesting nesting).Sound room where
  expression := Parser.expression_yields sound
  conditional _ inner := Parser.conditional_yields sound inner
  statement := Parser.statement_yields sound
  bare _ _ ran := Parser.endsReturn_of_statement_eq_ok sound ran

/-- At every level, whatever is accepted is derived with the room that there is. -/
theorem Level.sound_ofRoom (limit room : Nat) : (Level.ofRoom limit room).Sound room := by
  induction room with
  | zero => exact .ofNesting fun level opened => by contradiction
  | succ room ih =>
    refine .ofNesting fun level opened => ?_
    cases opened
    exact ⟨room, rfl, ih⟩

theorem Nesting.sound_ofRoom (limit room : Nat) : (Nesting.ofRoom limit room).Sound room := by
  intro level opened
  cases room with
  | zero => contradiction
  | succ room =>
    cases opened
    exact ⟨room, rfl, Level.sound_ofRoom limit room⟩

end BlockScript
