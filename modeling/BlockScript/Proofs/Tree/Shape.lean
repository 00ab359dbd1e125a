import BlockScript.Proofs.Syntax.Soundness
import BlockScript.Proofs.Tree.Paths

/-!
# The shape of parsed trees

Requests are put to a stream one after the other, and some of them may fail. Each tree that is
given in between is derived (`Parser.answers_derived`), wherever the request before it has left the
stream. So every node of it is well formed, and no path opens more levels than may be open
(`Parser.answers_shaped`). Nothing is assumed of the tokens, which need not come from a source.
-/

namespace BlockScript

/-- The nodes at the top of what a stream gives. The body of a program is no node of its own. -/
def Parsed.roots : Parsed → List TreeNode
  | program statements => statements.map .statement
  | statement only => [.statement only]
  | expression expr => [.expression expr]

namespace Parser

theorem map_eq_ok {α β : Type} {parser : Parser α} {wrap : α → β} {stream left : Stream}
    {result : β} (ran : (wrap <$> parser) stream = .ok result left) :
    ∃ value, parser stream = .ok value left ∧ wrap value = result := by
  change EStateM.map wrap parser stream = _ at ran
  rw [EStateM.map] at ran
  split at ran
  · cases ran
    exact ⟨_, ‹_›, rfl⟩
  · contradiction

/-- What is given to one request is derived. -/
theorem derived_of_request {limit room : Nat} {request : Request} {stream left : Stream}
    {parsed : Parsed}
    (ran : request.parser (Level.ofRoom limit room) stream = .ok parsed left) :
    ∀ root ∈ parsed.roots, root.Derived room 9 := by
  have sound := Level.sound_ofRoom limit room
  cases request with
  | program =>
    obtain ⟨statements, took, rfl⟩ := map_eq_ok ran
    obtain ⟨_, _, ⟨⟩, took⟩ := bind_eq_ok took
    obtain ⟨words, -, derived⟩ := statementsUpTo_yields sound.statement _ _ trivial took
    rw [Parsed.roots, List.forall_mem_map]
    exact fun statement mem => ⟨Nat.le_refl _, derived.exists_of_mem_statements statement mem⟩
  | statement =>
    obtain ⟨only, took, rfl⟩ := map_eq_ok ran
    obtain ⟨words, -, derived⟩ := sound.statement trivial took
    exact List.forall_mem_singleton.mpr ⟨Nat.le_refl _, words, derived⟩
  | expression least =>
    obtain ⟨expr, took, rfl⟩ := map_eq_ok ran
    obtain ⟨words, -, derived⟩ := sound.expression least trivial took
    exact List.forall_mem_singleton.mpr ⟨least, words, by omega, derived⟩

/-- Whatever is given at some point is derived with all the room that there is. -/
theorem answers_derived {limit : Nat} {requests : List Request} {stream : Stream} {parsed : Parsed}
    (given : .ok parsed ∈ answers (.outermost limit) requests stream) :
    ∀ root ∈ parsed.roots, root.Derived limit 9 := by
  induction requests generalizing stream with
  | nil => contradiction
  | cons request others ih =>
    rw [answers, List.mem_cons, runOn] at given
    cases ran : request.parser (.outermost limit) stream with
    | ok value left =>
      rw [ran] at given
      obtain now | later := given
      · cases now
        exact derived_of_request ran
      · exact ih later
    | error fault left =>
      rw [ran] at given
      obtain now | later := given
      · contradiction
      · exact ih later

/-- Every node of every tree that is given is well formed, and on the path to it no more levels are
opened than may be open. -/
theorem answers_shaped (tokens : List Token) (requests : List Request) (parsed : Parsed)
    (given : .ok parsed ∈ answers (.outermost nestingLimit) requests (.ofTokens tokens))
    (root node : TreeNode) (top : root ∈ parsed.roots) (edges : List Edge)
    (path : root.Path edges node) :
    node.WellFormed ∧ edges.count .opens ≤ nestingLimit := by
  obtain ⟨formed, opened, -⟩ := path.bounds (answers_derived given root top)
  exact ⟨formed, opened⟩

/-- The tokens of `} x[f(i)]`, at no particular place. -/
def misplacedTokens : List Token :=
  [Lexeme.symbol .closeCurly, .identifier "x", .symbol .openBracket, .identifier "f",
    .symbol .openParen, .identifier "i", .symbol .closeParen, .symbol .closeBracket].map
      fun lexeme => ⟨lexeme, .point 0⟩

/-- The tree of `x[f(i)]`. -/
def nestedAccess : Expr := .member (.name "x") (.call "f" [.name "i"])

/-- No statement starts with the `}`, but behind it stands an expression. The path to the argument
in its index opens two levels. -/
theorem answers_shaped_misplaced :
    Except.ok (.expression nestedAccess) ∈
        answers (.outermost nestingLimit) [.statement, .expression 0] (.ofTokens misplacedTokens) ∧
      TreeNode.expression nestedAccess ∈ (Parsed.expression nestedAccess).roots ∧
      (TreeNode.expression nestedAccess).Path [.opens, .opens] (.expression (.name "i")) ∧
      (TreeNode.expression (.name "i")).WellFormed ∧
      [Edge.opens, .opens].count .opens ≤ nestingLimit := by
  have given : Except.ok (.expression nestedAccess) ∈
      answers (.outermost nestingLimit) [.statement, .expression 0] (.ofTokens misplacedTokens) :=
    List.mem_cons_of_mem _ (List.mem_singleton.mpr rfl)
  have top : TreeNode.expression nestedAccess ∈ (Parsed.expression nestedAccess).roots :=
    List.mem_singleton.mpr rfl
  have path : (TreeNode.expression nestedAccess).Path [.opens, .opens] (.expression (.name "i")) :=
    .down (List.mem_cons_of_mem _ (List.mem_singleton.mpr rfl))
      (.down (List.mem_singleton.mpr rfl) (.here _))
  exact ⟨given, top, path, answers_shaped misplacedTokens _ _ given _ _ top _ path⟩

end Parser

end BlockScript
