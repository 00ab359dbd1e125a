import BlockScript.Proofs.Lexical.Lexemes
import BlockScript.Proofs.Printing.RoundTrip
import Mathlib

/-!
# Parsed trees are producible

What the lexer finds can be spelled, and what the grammar derives from it stands where it can
stand. So a tree that was parsed is producible, and its printed form opens no more levels than
its source did (`Derives.fits`): the printer puts parentheses around an operand only where the
source must have had them.
-/

namespace BlockScript

/-! ## Lexical words -/

namespace Lexeme.IsLexical

variable {word : Lexeme}

theorem isName (lexical : word.IsLexical) (kind : word.kind = .identifier) :
    IsName word.content.toList := by
  obtain ⟨text, spelled⟩ := lexical
  cases spelled with
  | identifier valid => simpa [Lexeme.content, Lexeme.identifier] using valid
  | keyword | symbol | number | text | selector => contradiction

theorem isTarget (lexical : word.IsLexical) (kind : word.kind = .selector) :
    IsTarget word.content.toList := by
  obtain ⟨text, spelled⟩ := lexical
  cases spelled with
  | selector valid => simpa [Lexeme.content, Lexeme.selector] using valid
  | keyword | symbol | number | text | identifier => contradiction

theorem isQuotable (lexical : word.IsLexical) (kind : word.kind = .text) :
    IsQuotable word.content.toList := by
  obtain ⟨text, spelled⟩ := lexical
  cases spelled with
  | text valid closed =>
    rcases valid with rfl | rfl
    · left
      simpa [Lexeme.content, Lexeme.text] using closed
    · right
      simpa [Lexeme.content, Lexeme.text] using closed
  | keyword | symbol | number | selector | identifier => contradiction

theorem isLiteral (lexical : word.IsLexical) {x : Binary64} (numbers : word.Numbers x) :
    x.IsLiteral := by
  obtain ⟨text, spelled⟩ := lexical
  have kind := numbers.kind
  cases spelled with
  | number valid =>
    have reads := numbers.reads
    simp only [Lexeme.content, Lexeme.number, Option.getD_some, String.toList_ofList] at reads
    exact ⟨numbers.finite, negative_of_isNumeral valid reads⟩
  | keyword | symbol | text | selector | identifier => contradiction

end Lexeme.IsLexical

/-! ## Derived trees -/

/-- The expression is producible, and there is room for it. -/
structure Expr.Fits (room : Nat) (expr : Expr) : Prop where
  producible : expr.Producible
  deep : expr.depth ≤ room

/-- The item of a list is producible, and there is room for it. -/
def Item.Fits (room : Nat) : Item → Prop
  | .expression expr => expr.Fits room
  | .entry ⟨key, value⟩ => key.Fits room ∧ value.Fits room
  | .parameter name => IsName name.toList

/-- What is known of the tree that a phrase stands for. An expression has room for parentheses
around it if one of its outermost operators binds looser than the phrase asks for. -/
def Phrase.Fits (room : Nat) (phrase : Phrase) : Prop :=
  match phrase with
  | .access expr => expr.isAccess ∧ expr.Fits room
  | .value expr => expr.operator? = none ∧ expr.Fits room
  | .operand expr => expr.Fits room ∧ (expr.operator? ≠ none → expr.depth + 1 ≤ room)
  | .expression least expr => expr.Fits room ∧ ∀ operator, expr.operator? = some operator →
      operator.precedence < least → expr.depth + 1 ≤ room
  | .item part => part.Fits room
  | .items parts => ∀ part ∈ parts, part.Fits room
  | .values exprs => ∀ expr ∈ exprs, expr.Fits room
  | .assignment part => part.Producible ∧ part.depth ≤ room
  | .statement part => part.Producible ∧ part.depth ≤ room
  | .conditional chain => chain.Producible ∧ chain.depth ≤ room
  | .statements body | .program body =>
      Statement.AllProducible body ∧ Statement.depthOfAll body ≤ room
  | .block body => Statement.AllProducible body ∧ Statement.depthOfAll body + 1 ≤ room

namespace Expr

variable {room : Nat}

theorem operator?_eq_none_of_isAccess {expr : Expr} (access : expr.isAccess) :
    expr.operator? = none := by
  cases expr <;> first | rfl | contradiction

theorem fits_of_items {exprs : List Expr} (items : (Phrase.items (exprs.map .expression)).Fits room) :
    AllProducible exprs ∧ depthOfAll exprs ≤ room := by
  rw [allProducible_iff, depthOfAll_le_iff]
  rw [Phrase.Fits, List.forall_mem_map] at items
  have fits : ∀ expr ∈ exprs, expr.Fits room := items
  exact ⟨fun expr mem => (fits expr mem).producible, fun expr mem => (fits expr mem).deep⟩

theorem fits_of_entries {entries : List (Entry Expr)}
    (items : (Phrase.items (entries.map .entry)).Fits room) :
    EntriesProducible entries ∧ depthOfEntries entries ≤ room := by
  rw [entriesProducible_iff, depthOfEntries_le_iff]
  rw [Phrase.Fits, List.forall_mem_map] at items
  have fits : ∀ entry ∈ entries, entry.key.Fits room ∧ entry.value.Fits room := items
  exact ⟨fun entry mem => ⟨(fits entry mem).1.producible, (fits entry mem).2.producible⟩,
    fun entry mem => ⟨(fits entry mem).1.deep, (fits entry mem).2.deep⟩⟩

/-- There is room for the parentheses that an operand of a binary operator needs. -/
theorem depth_add_le {least : Nat} {expr : Expr} {needed : Bool}
    (fits : (Phrase.expression least expr).Fits room)
    (loose : needed → ∃ operator, expr.operator? = some operator ∧ operator.precedence < least) :
    expr.depth + needed.toNat ≤ room := by
  cases needed with
  | false => exact fits.1.deep
  | true =>
    obtain ⟨operator, known, looser⟩ := loose rfl
    exact fits.2 operator known looser

theorem fits_binary {operator : Operator} {left right : Expr}
    (onLeft : (Phrase.expression operator.precedence left).Fits room)
    (onRight : (Phrase.expression (operator.precedence + 1) right).Fits room) :
    (binary operator left right).Fits room := by
  have left := depth_add_le onLeft looser_of_needsGroupLeftOf
  have right := depth_add_le onRight looser_of_needsGroupRightOf
  exact ⟨⟨onLeft.1.producible, onRight.1.producible⟩, Nat.max_le.mpr ⟨left, right⟩⟩

end Expr

theorem Derives.fits {room : Nat} {phrase : Phrase} {words : List Lexeme}
    (derived : Derives room phrase words) (lexical : ∀ word ∈ words, word.IsLexical) :
    phrase.Fits room := by
  induction derived with
  | name kind => exact ⟨rfl, (lexical _ List.mem_cons_self).isName kind, Nat.zero_le _⟩
  | call kind opens inside closes ih =>
    obtain ⟨producible, deep⟩ := Expr.fits_of_items (ih fun word mem => lexical word (by simp [mem]))
    exact ⟨rfl, ⟨(lexical _ (by simp)).isName kind, producible⟩, Nat.succ_le_succ deep⟩
  | member accessed opens inside closes ihAccessed ihInside =>
    obtain ⟨access, value⟩ := ihAccessed fun word mem => lexical word (by simp [mem])
    obtain ⟨index, -⟩ := ihInside fun word mem => lexical word (by simp [mem])
    exact ⟨rfl, ⟨access, value.producible, index.producible⟩,
      Nat.max_le.mpr ⟨value.deep, Nat.succ_le_succ index.deep⟩⟩
  | selected accessed place kind ih =>
    obtain ⟨-, value⟩ := ih fun word mem => lexical word (by simp [mem])
    exact ⟨rfl, ⟨place, value.producible, (lexical _ (by simp)).isTarget kind⟩, value.deep⟩
  | number numbers =>
    exact ⟨rfl, (lexical _ List.mem_cons_self).isLiteral numbers, Nat.zero_le _⟩
  | text kind => exact ⟨rfl, (lexical _ List.mem_cons_self).isQuotable kind, Nat.zero_le _⟩
  | selector kind => exact ⟨rfl, (lexical _ List.mem_cons_self).isTarget kind, Nat.zero_le _⟩
  | accessed access ih =>
    obtain ⟨access, fits⟩ := ih lexical
    exact ⟨Expr.operator?_eq_none_of_isAccess access, fits⟩
  | array opens inside closes ih =>
    obtain ⟨producible, deep⟩ := Expr.fits_of_items (ih fun word mem => lexical word (by simp [mem]))
    exact ⟨rfl, producible, Nat.succ_le_succ deep⟩
  | object opens inside closes ih =>
    obtain ⟨producible, deep⟩ :=
      Expr.fits_of_entries (ih fun word mem => lexical word (by simp [mem]))
    exact ⟨rfl, producible, Nat.succ_le_succ deep⟩
  | single value ih =>
    obtain ⟨none, fits⟩ := ih lexical
    exact ⟨fits, fun some => absurd none some⟩
  | group opens inside closes ih =>
    obtain ⟨fits, -⟩ := ih fun word mem => lexical word (by simp [mem])
    exact ⟨⟨fits.producible, Nat.le_succ_of_le fits.deep⟩, fun _ => Nat.succ_le_succ fits.deep⟩
  | operand operand ih =>
    obtain ⟨fits, grouped⟩ := ih lexical
    exact ⟨fits, fun operator known _ => grouped (by simp [known])⟩
  | binary stands binds onLeft kind onRight ihLeft ihRight =>
    obtain rfl := stands.eq_precedence
    have left := ihLeft fun word mem => lexical word (by simp [mem])
    have right := ihRight fun word mem => lexical word (by simp [mem])
    refine ⟨Expr.fits_binary left right, ?_⟩
    rintro _ ⟨⟩ looser
    exact absurd binds (Nat.not_le_of_lt looser)
  | element expression ih => exact (ih lexical).1
  | entry before kind behind ihBefore ihBehind =>
    exact ⟨(ihBefore fun word mem => lexical word (by simp [mem])).1,
      (ihBehind fun word mem => lexical word (by simp [mem])).1⟩
  | parameter kind => exact (lexical _ List.mem_cons_self).isName kind
  | noItem => exact fun _ mem => by contradiction
  | lastItem only ih => exact List.forall_mem_singleton.mpr (ih lexical)
  | moreItems first kind others ihFirst ihOthers =>
    exact List.forall_mem_cons.mpr ⟨ihFirst fun word mem => lexical word (by simp [mem]),
      ihOthers fun word mem => lexical word (by simp [mem])⟩
  | lastValue only ih => exact List.forall_mem_singleton.mpr (ih lexical).1
  | moreValues first kind others ihFirst ihOthers =>
    exact List.forall_mem_cons.mpr ⟨(ihFirst fun word mem => lexical word (by simp [mem])).1,
      ihOthers fun word mem => lexical word (by simp [mem])⟩
  | assign onLeft place sign onRight ihLeft ihRight =>
    obtain ⟨-, target⟩ := ihLeft fun word mem => lexical word (by simp [mem])
    obtain ⟨value, -⟩ := ihRight fun word mem => lexical word (by simp [mem])
    exact ⟨⟨place, target.producible, value.producible⟩, Nat.max_le.mpr ⟨target.deep, value.deep⟩⟩
  | declarationWithValue opens kind sign initial ih =>
    obtain ⟨value, -⟩ := ih fun word mem => lexical word (by simp [mem])
    refine ⟨⟨(lexical _ (by simp)).isName kind, opens.takes _, ?_⟩, value.deep⟩
    rintro _ ⟨⟩
    exact value.producible
  | declaration opens kind =>
    exact ⟨⟨(lexical _ (by simp)).isName kind, rfl, fun _ mem => by contradiction⟩, Nat.zero_le _⟩
  | function opens kind before inside behind block ihInside ihBlock =>
    obtain ⟨body, deep⟩ := ihBlock fun word mem => lexical word (by simp [mem])
    have parameters := ihInside fun word mem => lexical word (by simp [mem])
    exact ⟨⟨(lexical _ (by simp)).isName kind,
      fun parameter mem => parameters _ (List.mem_map_of_mem mem), body⟩, deep⟩
  | returningNothing opens => exact ⟨trivial, Nat.zero_le _⟩
  | returning opens values ih =>
    have fits := ih fun word mem => lexical word (by simp [mem])
    exact ⟨Expr.allProducible_iff.mpr fun expr mem => (fits expr mem).producible,
      Expr.depthOfAll_le_iff.mpr fun expr mem => (fits expr mem).deep⟩
  | conditional opens chained ih => exact ih fun word mem => lexical word (by simp [mem])
  | only test block ihTest ihBlock =>
    obtain ⟨condition, -⟩ := ihTest fun word mem => lexical word (by simp [mem])
    obtain ⟨body, deep⟩ := ihBlock fun word mem => lexical word (by simp [mem])
    exact ⟨⟨condition.producible, body⟩, Nat.max_le.mpr ⟨condition.deep, deep⟩⟩
  | otherwise test block kind last ihTest ihBlock ihLast =>
    obtain ⟨condition, -⟩ := ihTest fun word mem => lexical word (by simp [mem])
    obtain ⟨body, deep⟩ := ihBlock fun word mem => lexical word (by simp [mem])
    obtain ⟨other, lastDeep⟩ := ihLast fun word mem => lexical word (by simp [mem])
    exact ⟨⟨condition.producible, body, other⟩,
      Nat.max_le.mpr ⟨condition.deep, Nat.max_le.mpr ⟨deep, lastDeep⟩⟩⟩
  | elif test block kind chained ihTest ihBlock ihChained =>
    obtain ⟨condition, -⟩ := ihTest fun word mem => lexical word (by simp [mem])
    obtain ⟨body, deep⟩ := ihBlock fun word mem => lexical word (by simp [mem])
    obtain ⟨next, nextDeep⟩ := ihChained fun word mem => lexical word (by simp [mem])
    exact ⟨⟨condition.producible, body, next⟩,
      Nat.max_le.mpr ⟨Nat.max_le.mpr ⟨condition.deep, deep⟩, Nat.succ_le_succ nextDeep⟩⟩
  | each opens kind among items block ihItems ihBlock =>
    obtain ⟨collection, -⟩ := ihItems fun word mem => lexical word (by simp [mem])
    obtain ⟨body, deep⟩ := ihBlock fun word mem => lexical word (by simp [mem])
    exact ⟨⟨(lexical _ (by simp)).isName kind, collection.producible, body⟩,
      Nat.max_le.mpr ⟨collection.deep, deep⟩⟩
  | loop opens starts before steps returns behind test block ihStarts ihSteps ihTest ihBlock =>
    obtain ⟨start, startDeep⟩ := ihStarts fun word mem => lexical word (by simp [mem])
    obtain ⟨step, stepDeep⟩ := ihSteps fun word mem => lexical word (by simp [mem])
    obtain ⟨condition, -⟩ := ihTest fun word mem => lexical word (by simp [mem])
    obtain ⟨body, deep⟩ := ihBlock fun word mem => lexical word (by simp [mem])
    exact ⟨⟨start, step, returns, condition.producible, body⟩, Nat.max_le.mpr
      ⟨Nat.max_le.mpr ⟨startDeep, Nat.succ_le_succ stepDeep⟩,
        Nat.max_le.mpr ⟨condition.deep, deep⟩⟩⟩
  | range opens from_ between upTo before kind block ih =>
    obtain ⟨body, deep⟩ := ih fun word mem => lexical word (by simp [mem])
    exact ⟨⟨(lexical _ (by simp)).isLiteral from_, (lexical _ (by simp)).isLiteral upTo,
      (lexical _ (by simp)).isName kind, body⟩, deep⟩
  | assignment assigns ih => exact ih lexical
  | expression evaluates ih =>
    obtain ⟨fits, -⟩ := ih lexical
    exact ⟨fits.producible, fits.deep⟩
  | noStatement => exact ⟨trivial, Nat.zero_le _⟩
  | moreStatements first kind others ihFirst ihOthers =>
    obtain ⟨statement, deep⟩ := ihFirst fun word mem => lexical word (by simp [mem])
    obtain ⟨body, othersDeep⟩ := ihOthers fun word mem => lexical word (by simp [mem])
    exact ⟨⟨statement, body⟩, Nat.max_le.mpr ⟨deep, othersDeep⟩⟩
  | block opens inside closes ih =>
    obtain ⟨body, deep⟩ := ih fun word mem => lexical word (by simp [mem])
    exact ⟨body, Nat.succ_le_succ deep⟩
  | program body kind ih => exact ih fun word mem => lexical word (by simp [mem])

/-! ## Parsed programs -/

section
variable {source : String} {program : Program}

/-- A parsed program is derived from lexemes that can stand in a source. -/
theorem exists_derives_of_parse (parsed : parse source = .ok program) :
    ∃ words, (∀ word ∈ words, word.IsLexical) ∧
      Derives nestingLimit (.statements program) words := by
  cases tokenized : tokenize source with
  | error fault =>
    rw [parse, tokenized] at parsed
    contradiction
  | ok tokens =>
    obtain ⟨body, finish, rfl, last, lexical⟩ := exists_of_tokenize tokenized
    have ran : parseTokens (body ++ [finish]) = .ok program := by
      rw [parse, tokenized] at parsed
      exact parsed
    have inner : ∀ token ∈ body, token.kind ≠ .finish := fun token mem =>
      (lexical token mem).kind_ne_finish
    have derived := (parseTokensWithin_eq_ok_iff inner last).mp ran
    rw [List.map_append] at derived
    generalize whole : body.map Token.toLexeme ++ [finish].map Token.toLexeme = all at derived
    cases derived with
    | program derived =>
      obtain ⟨rfl, -⟩ := List.append_inj' whole rfl
      exact ⟨_, List.forall_mem_map.mpr lexical, derived⟩

/-- What a parsed program is printed as is parsed as this program again, in either form. -/
theorem parse_printProgram_of_parse (form : PrintForm) (parsed : parse source = .ok program) :
    parse (printProgram form program) = .ok program := by
  obtain ⟨words, lexical, derived⟩ := exists_derives_of_parse parsed
  obtain ⟨producible, shallow⟩ := derived.fits lexical
  exact parse_of_legible form (Statement.legible_all program 0 producible)
    (Statement.derives_all program nestingLimit 0 producible shallow)

/-- `x[i]<@s> -= (a - b) * '"';` -/
def scaling : Program :=
  [.assignment ⟨.selected (.member (.name "x") (.name "i")) "@s", .subtract,
    .binary .multiply (.binary .subtract (.name "a") (.name "b")) (.text "\"")⟩]

theorem parse_scaling :
    parse "x[(i)]<@s>-=((a)-b)*'\"';#done#" = .ok scaling ∧
      parse (printProgram .pretty scaling) = .ok scaling ∧
      parse (printProgram .compact scaling) = .ok scaling := by
  have parsed : parse "x[(i)]<@s>-=((a)-b)*'\"';#done#" = .ok scaling := by cbv
  exact ⟨parsed, parse_printProgram_of_parse .pretty parsed,
    parse_printProgram_of_parse .compact parsed⟩

end

end BlockScript
