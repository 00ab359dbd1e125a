import BlockScript.Proofs.Syntax.Blame
import Mathlib.Data.List.Induction

/-!
# Precedence climbing splits at the loosest operator

An expression without its brackets is a flat list: an operand, and links of an operator and one
more operand each. Which tree it stands for can be said from the top: it is split at its rightmost
operator of lowest precedence, and so are both sides (`Link.Splits`). The parser builds its tree
from the left and never looks at the whole list. `Parser.expression_flattens` says that it builds
this tree.

Every link that climbing takes on goes on top of what stands on its left, as long as the links
behind it do not bind tighter (`Link.Splits.graft`). This is the case because the right operand of a
link is climbed until an operator comes that binds no tighter than the link.
-/

namespace BlockScript

/-- An operator in a flat expression, and the operand on its right. -/
structure Link where
  operator : Operator
  operand : Expr
  deriving Repr, Inhabited

namespace Link

/-- How tightly the operator of the link binds. -/
def precedence (link : Link) : Nat := link.operator.precedence

/-- `Splits first links tree`: splitting the operand `first` with `links` behind it, again and
again, at the rightmost operator of lowest precedence gives `tree`. -/
inductive Splits : Expr → List Link → Expr → Prop
  | operand (first : Expr) : Splits first [] first
  | loosest {first left right : Expr} {before after : List Link} {link : Link}
      (lowest : ∀ other ∈ before, link.precedence ≤ other.precedence)
      (rightmost : ∀ other ∈ after, link.precedence < other.precedence)
      (onLeft : Splits first before left) (onRight : Splits link.operand after right) :
      Splits first (before ++ link :: after) (.binary link.operator left right)

/-- Only one link of a list is the rightmost one of lowest precedence. -/
theorem eq_of_loosest {before after before' after' : List Link} {link link' : Link}
    (lowest : ∀ other ∈ before, link.precedence ≤ other.precedence)
    (rightmost : ∀ other ∈ after, link.precedence < other.precedence)
    (lowest' : ∀ other ∈ before', link'.precedence ≤ other.precedence)
    (rightmost' : ∀ other ∈ after', link'.precedence < other.precedence)
    (same : before ++ link :: after = before' ++ link' :: after') :
    before = before' ∧ link = link' ∧ after = after' := by
  obtain ⟨middle, split, rest⟩ | ⟨middle, split, rest⟩ := List.append_eq_append_iff.mp same
  · cases middle with
    | nil =>
      obtain ⟨rfl, rfl⟩ := List.cons.inj rest
      exact ⟨by rw [split, List.append_nil], rfl, rfl⟩
    | cons first middle =>
      -- The other link would stand behind this one and bind tighter, and yet be the loosest.
      obtain ⟨rfl, rfl⟩ := List.cons.inj rest
      have above := rightmost link' (List.mem_append_right _ List.mem_cons_self)
      have below := lowest' link (by rw [split]; exact List.mem_append_right _ List.mem_cons_self)
      omega
  · cases middle with
    | nil =>
      obtain ⟨rfl, rfl⟩ := List.cons.inj rest
      exact ⟨by rw [split, List.append_nil], rfl, rfl⟩
    | cons first middle =>
      obtain ⟨rfl, rfl⟩ := List.cons.inj rest
      have above := rightmost' link (List.mem_append_right _ List.mem_cons_self)
      have below := lowest link' (by rw [split]; exact List.mem_append_right _ List.mem_cons_self)
      omega

namespace Splits

variable {first left right tree : Expr} {links : List Link}

/-- A flat expression stands for one tree. -/
theorem unique (splits : Splits first links tree) {other : Expr}
    (again : Splits first links other) : other = tree := by
  induction splits generalizing other with
  | operand first =>
    generalize none : [] = links at again
    cases again with
    | operand => rfl
    | loosest =>
      exact absurd none.symm (List.append_ne_nil_of_right_ne_nil _ (List.cons_ne_nil _ _))
  | @loosest first left right before after link lowest rightmost _ _ ihLeft ihRight =>
    generalize same : before ++ link :: after = links at again
    cases again with
    | operand => exact absurd same (List.append_ne_nil_of_right_ne_nil _ (List.cons_ne_nil _ _))
    | loosest lowest' rightmost' onLeft onRight =>
      obtain ⟨rfl, rfl, rfl⟩ := eq_of_loosest lowest rightmost lowest' rightmost' same
      rw [ihLeft onLeft, ihRight onRight]

/-- The operands on both sides of an operator are joined first if the links on its right bind
tighter and the link behind them does not. -/
theorem graft {operator : Operator} {tighter : List Link} (inner : Splits first tighter right)
    (tight : ∀ link ∈ tighter, operator.precedence < link.precedence)
    (whole : Splits (.binary operator left right) links tree)
    (next : ∀ link ∈ links.head?, link.precedence ≤ operator.precedence) :
    Splits left (⟨operator, first⟩ :: tighter ++ links) tree := by
  generalize joined : Expr.binary operator left right = front at whole
  induction whole with
  | operand front =>
    subst joined
    have only : Splits left ([] ++ ⟨operator, first⟩ :: tighter) (.binary operator left right) :=
      .loosest (List.forall_mem_nil _) tight (.operand left) inner
    simpa using only
  | @loosest front onLeft onRight before after link lowest rightmost _ splitsRight ih _ =>
    have starts : ∀ other ∈ before.head?, other.precedence ≤ operator.precedence := by
      intro other mem
      exact next other (by rw [List.head?_append, mem]; rfl)
    have looser : link.precedence ≤ operator.precedence := by
      cases before with
      | nil => exact next link rfl
      | cons other before =>
        exact Nat.le_trans (lowest other List.mem_cons_self) (starts other rfl)
    have below : ∀ other ∈ (⟨operator, first⟩ : Link) :: tighter ++ before,
        link.precedence ≤ other.precedence := by
      intro other mem
      obtain mem | mem := List.mem_append.mp mem
      · obtain rfl | mem := List.mem_cons.mp mem
        · exact looser
        · exact Nat.le_trans looser (Nat.le_of_lt (tight other mem))
      · exact lowest other mem
    have whole := loosest below rightmost (ih starts joined) splitsRight
    rwa [List.append_assoc] at whole

/-- Operators of one precedence lean to the left. -/
theorem foldl {level : Nat} (first : Expr) (links : List Link)
    (equal : ∀ link ∈ links, link.precedence = level) :
    Splits first links
      (links.foldl (fun left link => .binary link.operator left link.operand) first) := by
  induction links using List.reverseRecOn with
  | nil => exact .operand first
  | append_singleton links link ih =>
    have before : ∀ other ∈ links, other.precedence = level :=
      fun other mem => equal other (List.mem_append_left _ mem)
    have here : link.precedence = level :=
      equal link (List.mem_append_right _ (List.mem_singleton.mpr rfl))
    rw [List.foldl_append, List.foldl_cons, List.foldl_nil]
    refine loosest ?_ (List.forall_mem_nil _) (ih before) (.operand link.operand)
    intro other mem
    exact Nat.le_of_eq (here.trans (before other mem).symm)

end Splits

end Link

namespace Parser

variable {α : Type} {nesting : Nesting} {room : Nat}

/-- From this stream on, the parser gives the value and takes exactly the tokens. -/
def Consumes (parser : Parser α) (stream : Stream) (tokens : List Token) (value : α)
    (left : Stream) : Prop :=
  parser stream = .ok value left ∧ stream.rest = tokens ++ left.rest

/-- The tokens from one stream to another are links: an operator, and an operand as the parser
takes it at this place. -/
inductive Chains (nesting : Nesting) : Stream → List Token → List Link → Stream → Prop
  | stop (stream : Stream) : Chains nesting stream [] [] stream
  | link {stream between left : Stream} {sign : Token} {tokens others : List Token}
      {operator : Operator} {operand : Expr} {links : List Link}
      (front : stream.rest = sign :: stream.tail.rest) (kind : sign.kind = operator.kind)
      (took : (Parser.operand nesting).Consumes stream.tail tokens operand between)
      (more : Chains nesting between others links left) :
      Chains nesting stream (sign :: tokens ++ others) (⟨operator, operand⟩ :: links) left

namespace Chains

variable {stream between left : Stream} {tokens others : List Token} {links more : List Link}

theorem rest_eq (chains : Chains nesting stream tokens links left) :
    stream.rest = tokens ++ left.rest := by
  induction chains with
  | stop stream => rfl
  | link front _ took _ ih =>
    rw [front, took.2, ih, List.cons_append, List.cons_append, List.append_assoc]

theorem append (front : Chains nesting stream tokens links between)
    (back : Chains nesting between others more left) :
    Chains nesting stream (tokens ++ others) (links ++ more) left := by
  induction front with
  | stop stream => exact back
  | link front kind took _ ih =>
    rw [List.append_assoc]
    exact .link front kind took (ih back)

/-- The first link stands where the chain begins. -/
theorem kind_of_head? (chains : Chains nesting stream tokens links left) :
    ∀ link ∈ links.head?, Operator.ofKind? stream.kind = some link.operator := by
  cases chains with
  | stop => exact nofun
  | link front kind =>
    rintro _ ⟨⟩
    rw [Stream.kind, front]
    dsimp only
    rw [kind, Operator.ofKind?_kind]

end Chains

/-- An operand takes at least one token, and what stands behind it stays. -/
theorem exists_consumes_of_operand {stream left : Stream} {value : Expr}
    (ran : operand (.ofRoom nestingLimit room) stream = .ok value left) :
    ∃ tokens, (operand (.ofRoom nestingLimit room)).Consumes stream tokens value left ∧
      left.rest.length < stream.rest.length := by
  obtain ⟨words, lexemes, derived⟩ := operand_yields (Nesting.sound_ofRoom _ _) trivial ran
  obtain ⟨ground, holds⟩ := Ground.exists_holds stream
  have blames : Blames ground Always (operand (.ofRoom nestingLimit room)) :=
    operand_blames (Nesting.blames_ofRoom ground room)
  have after := blames stream holds trivial
  rw [ran] at after
  obtain ⟨tokens, split, rfl⟩ := holds.exists_taken after lexemes
  refine ⟨tokens, ⟨ran, split⟩, ?_⟩
  cases tokens with
  | nil =>
    have opens := derived.opens
    contradiction
  | cons token tokens =>
    rw [split, List.length_append, List.length_cons]
    omega

/-- Climbing takes links for as long as they bind tightly enough, and splits what is on its left and
these links. -/
theorem climb_splits {bound least : Nat} {left tree : Expr} {stream final : Stream}
    (fuel : stream.rest.length ≤ bound)
    (ran : climb (.ofRoom nestingLimit room) bound least left stream = .ok tree final) :
    ∃ tokens links, Chains (.ofRoom nestingLimit room) stream tokens links final ∧
      (∀ link ∈ links, least ≤ link.precedence) ∧ Link.Splits left links tree := by
  induction bound generalizing least left tree stream final with
  | zero =>
    cases ran
    exact ⟨[], [], .stop _, List.forall_mem_nil _, .operand _⟩
  | succ bound ih =>
    have stop (ran : climb (.ofRoom nestingLimit room) 0 least left stream = .ok tree final) :
        ∃ tokens links, Chains (.ofRoom nestingLimit room) stream tokens links final ∧
          (∀ link ∈ links, least ≤ link.precedence) ∧ Link.Splits left links tree := by
      cases ran
      exact ⟨[], [], .stop _, List.forall_mem_nil _, .operand _⟩
    obtain ⟨_, _, ⟨⟩, ran⟩ := bind_eq_ok ran
    cases known : Operator.ofKind? stream.kind with
    | none =>
      rw [known] at ran
      exact stop ran
    | some operator =>
    rw [known] at ran
    dsimp only at ran
    by_cases looser : operator.precedence < least
    · rw [if_pos looser] at ran
      exact stop ran
    · rw [if_neg looser] at ran
      have kind := Operator.kind_of_ofKind? known
      have inner : stream.kind ≠ .finish := by
        rw [← kind]
        cases operator <;> exact Kind.noConfusion
      obtain ⟨sign, head, same, -⟩ := Stream.exists_of_kind_ne_finish inner
      have front := Stream.rest_eq_cons head
      obtain ⟨_, _, ⟨⟩, ran⟩ := bind_eq_ok ran
      obtain ⟨first, second, took, ran⟩ := bind_eq_ok ran
      obtain ⟨right, third, climbed, ran⟩ := bind_eq_ok ran
      obtain ⟨tokens, consumes, less⟩ := exists_consumes_of_operand took
      have enough : second.rest.length ≤ bound := by
        rw [front, List.length_cons] at fuel
        omega
      obtain ⟨inside, tighter, chained, tight, splitsRight⟩ := ih enough climbed
      -- The right operand ends at an operator that binds no tighter than this one.
      have stopped := (climb_eq_ok (Nesting.sound_ofRoom _ _)
        (second.length_lexemes ▸ enough) climbed).2
      have still : third.rest.length ≤ bound := by
        rw [chained.rest_eq, List.length_append] at enough
        omega
      obtain ⟨behind, others, chained', binds, splits⟩ := ih still ran
      have next : ∀ link ∈ others.head?, link.precedence ≤ operator.precedence := by
        intro link mem
        exact Nat.le_of_lt_succ (stopped _ (chained'.kind_of_head? link mem))
      refine ⟨_, _, .link front (same.trans kind.symm) consumes (chained.append chained'), ?_,
        splitsRight.graft tight splits next⟩
      have here : least ≤ operator.precedence := Nat.le_of_not_lt looser
      refine List.forall_mem_cons.mpr ⟨here, List.forall_mem_append.mpr ⟨?_, binds⟩⟩
      intro link mem
      exact Nat.le_trans here (Nat.le_of_lt (tight link mem))

/-- What is taken from `stream` to `left` is a flat list, an operand and links, and the tree is the
one that this list stands for. -/
structure Flattens (nesting : Nesting) (least : Nat) (stream left : Stream) (tree first : Expr)
    (links : List Link) : Prop where
  operands : ∃ tokens others between, (operand nesting).Consumes stream tokens first between ∧
    Chains nesting between others links left ∧ stream.rest = tokens ++ others ++ left.rest
  binds : ∀ link ∈ links, least ≤ link.precedence
  /-- No operator follows that would have had to be taken as well. -/
  stops : ∀ operator, Operator.ofKind? left.kind = some operator → operator.precedence < least
  splits : ∀ other, Link.Splits first links other ↔ other = tree
  leans : ∀ level, (∀ link ∈ links, link.precedence = level) →
    tree = links.foldl (fun left link => .binary link.operator left link.operand) first

/-- Precedence climbing splits at the loosest operator, from any stream on and with any number of
levels open. -/
theorem expression_flattens (room least : Nat) (stream left : Stream) (tree : Expr)
    (ran : expression (.ofRoom nestingLimit room) least stream = .ok tree left) :
    ∃ first links, Flattens (.ofRoom nestingLimit room) least stream left tree first links := by
  have stops := (expression_eq_ok (Nesting.sound_ofRoom _ _) ran).2
  obtain ⟨first, between, took, ran⟩ := bind_eq_ok ran
  obtain ⟨_, _, ⟨⟩, ran⟩ := bind_eq_ok ran
  obtain ⟨tokens, consumes, -⟩ := exists_consumes_of_operand took
  obtain ⟨others, links, chains, binds, splits⟩ := climb_splits (Nat.le_refl _) ran
  have rest : stream.rest = tokens ++ others ++ left.rest := by
    rw [consumes.2, chains.rest_eq, List.append_assoc]
  exact ⟨first, links, {
    operands := ⟨tokens, others, between, consumes, chains, rest⟩
    binds := binds
    stops := stops
    splits := by
      intro other
      constructor
      · exact splits.unique
      · rintro rfl
        exact splits
    leans := fun level equal => (splits.unique (.foldl first links equal)).symm }⟩

/-- The stream of `a - b * c - d || e`, at no particular place. -/
def mixedStream : Stream where
  rest := [Lexeme.identifier "a", .symbol .minus, .identifier "b", .symbol .star, .identifier "c",
    .symbol .minus, .identifier "d", .symbol .orOr, .identifier "e"].map
      fun lexeme => ⟨lexeme, .point 0⟩
  finish := .point 0
  last := .point 0

/-- Above the precedence of `||` only the first four operands are joined. -/
theorem expression_flattens_mixed :
    expression (.ofRoom nestingLimit 3) 2 mixedStream =
        .ok (.binary .subtract
          (.binary .subtract (.name "a") (.binary .multiply (.name "b") (.name "c"))) (.name "d"))
          { mixedStream with rest := mixedStream.rest.drop 7 } ∧
      ∃ first links, Flattens (.ofRoom nestingLimit 3) 2 mixedStream
        { mixedStream with rest := mixedStream.rest.drop 7 }
        (.binary .subtract
          (.binary .subtract (.name "a") (.binary .multiply (.name "b") (.name "c"))) (.name "d"))
        first links := by
  have ran : expression (.ofRoom nestingLimit 3) 2 mixedStream =
      .ok (.binary .subtract
        (.binary .subtract (.name "a") (.binary .multiply (.name "b") (.name "c"))) (.name "d"))
        { mixedStream with rest := mixedStream.rest.drop 7 } := rfl
  exact ⟨ran, expression_flattens 3 2 _ _ _ ran⟩

end Parser

end BlockScript
