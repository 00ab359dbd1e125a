import BlockScript.Proofs.Printing.Producible
import BlockScript.Proofs.Syntax.Grammar

/-!
# Paths through a tree

A path goes down from a node of a tree, one edge after the other. What an edge costs depends on
where it goes: into brackets, a block, an `elif` link or the step of a loop it opens a level, and to
the left of an operator or of a suffix it follows the lean of the tree.

Each node of a derived tree is well formed, and what it holds is derived as well, with less room or
with tighter operators unless the edge leans (`TreeNode.Derived.below`). Along a whole path this
bounds the levels that are opened, and also the edges that do not lean (`TreeNode.Path.bounds`).
-/

namespace BlockScript

/-- Where an edge goes. -/
inductive Edge
  /-- Into brackets, the body of a block, an `elif` link or the step of a loop. -/
  | opens
  /-- To the operand on the left of an operator, or to the value in front of a suffix. -/
  | leans
  /-- To anything else that a node holds. -/
  | holds
  deriving DecidableEq, Repr

/-- The levels that an edge opens. -/
def Edge.levels : Edge → Nat
  | opens => 1
  | leans | holds => 0

/-- Whether an edge does not follow the lean of the tree. -/
def Edge.turns : Edge → Nat
  | leans => 0
  | opens | holds => 1

theorem Edge.count_opens_cons (edge : Edge) (edges : List Edge) :
    (edge :: edges).count .opens = edge.levels + edges.count .opens := by
  cases edge <;> simp [levels, Nat.add_comm]

theorem Edge.count_leans_cons (edge : Edge) (edges : List Edge) :
    (edge :: edges).count .leans + edge.turns = edges.count .leans + 1 := by
  cases edge <;> simp [turns]

/-- A node of a tree. The links of a chain of conditions count as nodes of their own. -/
inductive TreeNode
  | statement (statement : Statement)
  | conditional (chain : Conditional)
  | expression (expr : Expr)

namespace TreeNode

/-- The expressions of a list as branches of a node. -/
def expressions (edge : Edge) (exprs : List Expr) : List (Edge × TreeNode) :=
  exprs.map fun expr => (edge, .expression expr)

/-- The statements of a block as branches of a node. -/
def statements (body : Block) : List (Edge × TreeNode) :=
  body.map fun statement => (.opens, .statement statement)

/-- The nodes right below a node, and how they are reached. -/
def branches : TreeNode → List (Edge × TreeNode)
  | expression (.member value index) => [(.leans, expression value), (.opens, expression index)]
  | expression (.selected value _) => [(.leans, expression value)]
  | expression (.binary _ left right) => [(.leans, expression left), (.holds, expression right)]
  | expression (.call _ arguments) => expressions .opens arguments
  | expression (.array elements) => expressions .opens elements
  | expression (.object entries) =>
      expressions .opens (entries.map Entry.key) ++ expressions .opens (entries.map Entry.value)
  | expression _ => []
  | statement (.declaration _ _ value?) => expressions .holds value?.toList
  | statement (.function _ _ body) => statements body
  | statement (.returning values) => expressions .holds values
  | statement (.conditional chain) => [(.holds, conditional chain)]
  | statement (.loop start step condition body) =>
      expressions .holds [start.target, start.value, condition] ++
        (.opens, statement step) :: statements body
  | statement (.each _ collection body) => (.holds, expression collection) :: statements body
  | statement (.range _ _ _ body) => statements body
  | statement (.assignment assignment) =>
      expressions .holds [assignment.target, assignment.value]
  | statement (.expression expr) => [(.holds, expression expr)]
  | conditional (.only condition body) => (.holds, expression condition) :: statements body
  | conditional (.otherwise condition body other) =>
      (.holds, expression condition) :: statements body ++ statements other
  | conditional (.elif condition body next) =>
      (.holds, expression condition) :: (.opens, conditional next) :: statements body

/-- What the form of a node asks of the parts that it holds. -/
def WellFormed : TreeNode → Prop
  | expression (.number x) => x.isFinite
  | expression (.member value _) => value.isAccess
  | expression (.selected value _) => value.isPlace
  | statement (.declaration scope _ value?) => scope.Takes value?
  | statement (.loop start step _ _) => start.target.isPlace ∧ step ≠ .returning []
  | statement (.range start stop _ _) => start.isFinite ∧ stop.isFinite
  | statement (.assignment assignment) => assignment.target.isPlace
  | _ => True

/-- A path from a node down to another one, and its edges. -/
inductive Path : TreeNode → List Edge → TreeNode → Prop
  | here (root : TreeNode) : Path root [] root
  | down {root child node : TreeNode} {edge : Edge} {edges : List Edge}
      (branch : (edge, child) ∈ root.branches) (path : Path child edges node) :
      Path root (edge :: edges) node

/-! ## Derived nodes -/

/-- The node is derived with as much room. The rank falls with what the outermost operators of an
expression bind at least as tightly as. -/
def Derived (room rank : Nat) : TreeNode → Prop
  | expression expr =>
      ∃ least words, 7 - least ≤ rank ∧ Derives room (.expression least expr) words
  | conditional chain => 8 ≤ rank ∧ ∃ words, Derives room (.conditional chain) words
  | statement part => 9 ≤ rank ∧ ∃ words, Derives room (.statement part) words

/-- Behind an edge the node is derived with less room if the edge opens a level, and with less room
or a lower rank if the edge does not lean. -/
def Below (room rank : Nat) (branch : Edge × TreeNode) : Prop :=
  ∃ room' rank', branch.2.Derived room' rank' ∧ room' + branch.1.levels ≤ room ∧
    10 * room' + rank' + branch.1.turns ≤ 10 * room + rank

variable {room rank : Nat}

theorem Below.mono {branch : Edge × TreeNode} (below : Below room rank branch) {more higher : Nat}
    (wider : room ≤ more) (total : 10 * room + rank ≤ 10 * more + higher) :
    Below more higher branch := by
  obtain ⟨room', rank', derived, levels, turns⟩ := below
  exact ⟨room', rank', derived, by omega, by omega⟩

/-- An expression in brackets. -/
theorem below_opens {expr : Expr} {words : List Lexeme}
    (derived : Derives room (.expression 0 expr) words) (rank : Nat) :
    Below (room + 1) rank (.opens, .expression expr) :=
  ⟨room, 7, ⟨0, words, Nat.le_refl _, derived⟩, Nat.le_refl _, by simp only [Edge.turns]; omega⟩

/-- An access in front of a suffix. -/
theorem below_leans {expr : Expr} {words : List Lexeme}
    (derived : Derives room (.access expr) words) (rank : Nat) :
    Below room rank (.leans, .expression expr) :=
  ⟨room, 0, ⟨7, words, Nat.le_refl _, .operand (.single (.accessed derived))⟩, Nat.le_refl _,
    by simp only [Edge.turns]; omega⟩

/-- An expression that a statement or a link of a chain holds. -/
theorem below_holds {expr : Expr} {words : List Lexeme} {least : Nat}
    (derived : Derives room (.expression least expr) words) (high : 8 ≤ rank) :
    Below room rank (.holds, .expression expr) :=
  ⟨room, 7, ⟨least, words, Nat.sub_le _ _, derived⟩, Nat.le_refl _,
    by simp only [Edge.turns]; omega⟩

/-- A statement of a block, or the step of a loop. -/
theorem below_statement {statement : Statement} {words : List Lexeme}
    (derived : Derives room (.statement statement) words) (rank : Nat) :
    Below (room + 1) rank (.opens, .statement statement) :=
  ⟨room, 9, ⟨Nat.le_refl _, words, derived⟩, Nat.le_refl _, by simp only [Edge.turns]; omega⟩

end TreeNode

/-! ## Lists -/

namespace Derives

variable {room : Nat} {words : List Lexeme}

theorem exists_of_mem_items {items : List Item} (derived : Derives room (.items items) words) :
    ∀ item ∈ items, ∃ words, Derives room (.item item) words := by
  induction items generalizing words with
  | nil => exact fun _ mem => by contradiction
  | cons first others ih =>
    rw [List.forall_mem_cons]
    cases derived with
    | lastItem only => exact ⟨⟨_, only⟩, fun _ mem => by contradiction⟩
    | moreItems first _ others => exact ⟨⟨_, first⟩, ih others⟩

theorem exists_of_mem_values {exprs : List Expr} (derived : Derives room (.values exprs) words) :
    ∀ expr ∈ exprs, ∃ words, Derives room (.expression 0 expr) words := by
  induction exprs generalizing words with
  | nil => exact fun _ mem => by contradiction
  | cons first others ih =>
    rw [List.forall_mem_cons]
    cases derived with
    | lastValue only => exact ⟨⟨_, only⟩, fun _ mem => by contradiction⟩
    | moreValues first _ others => exact ⟨⟨_, first⟩, ih others⟩

theorem exists_of_mem_statements {body : Block} (derived : Derives room (.statements body) words) :
    ∀ statement ∈ body, ∃ words, Derives room (.statement statement) words := by
  induction body generalizing words with
  | nil => exact fun _ mem => by contradiction
  | cons first others ih =>
    rw [List.forall_mem_cons]
    cases derived with
    | moreStatements first _ others => exact ⟨⟨_, first⟩, ih others⟩

theorem isAccess {expr : Expr} (derived : Derives room (.access expr) words) : expr.isAccess := by
  cases derived <;> rfl

end Derives

namespace TreeNode

variable {room rank : Nat} {words : List Lexeme}

theorem forall_mem_expressions {edge : Edge} {exprs : List Expr} {holds : Edge × TreeNode → Prop} :
    (∀ branch ∈ expressions edge exprs, holds branch) ↔
      ∀ expr ∈ exprs, holds (edge, .expression expr) := by
  rw [expressions, List.forall_mem_map]

theorem forall_mem_statements {body : Block} {holds : Edge × TreeNode → Prop} :
    (∀ branch ∈ statements body, holds branch) ↔
      ∀ part ∈ body, holds (.opens, .statement part) := by
  rw [statements, List.forall_mem_map]

/-- The expressions of a list in brackets. -/
theorem below_elements {exprs : List Expr}
    (inside : Derives room (.items (exprs.map .expression)) words) (rank : Nat) :
    ∀ branch ∈ expressions .opens exprs, Below (room + 1) rank branch := by
  rw [forall_mem_expressions]
  intro expr mem
  obtain ⟨words, derived⟩ := inside.exists_of_mem_items _ (List.mem_map_of_mem mem)
  cases derived with
  | element expression => exact below_opens expression rank

/-- The keys and values of an object. -/
theorem below_entries {entries : List (Entry Expr)}
    (inside : Derives room (.items (entries.map .entry)) words) (rank : Nat) :
    ∀ branch ∈ (expression (.object entries)).branches, Below (room + 1) rank branch := by
  have both : ∀ entry ∈ entries, Below (room + 1) rank (.opens, .expression entry.key) ∧
      Below (room + 1) rank (.opens, .expression entry.value) := by
    intro entry mem
    obtain ⟨words, derived⟩ := inside.exists_of_mem_items _ (List.mem_map_of_mem mem)
    cases derived with
    | entry before _ behind => exact ⟨below_opens before rank, below_opens behind rank⟩
  rw [branches, List.forall_mem_append, forall_mem_expressions, forall_mem_expressions,
    List.forall_mem_map, List.forall_mem_map]
  exact ⟨fun entry mem => (both entry mem).1, fun entry mem => (both entry mem).2⟩

/-- The two sides of an assignment. -/
theorem below_sides {assignment : Assignment}
    (assigns : Derives room (.assignment assignment) words) (high : 8 ≤ rank) :
    Below room rank (.holds, .expression assignment.target) ∧
      Below room rank (.holds, .expression assignment.value) := by
  cases assigns with
  | assign onLeft _ _ onRight =>
    have target : Derives room (.expression 0 _) _ := .operand (.single (.accessed onLeft))
    exact ⟨below_holds target high, below_holds onRight high⟩

/-- The body of a block. -/
theorem below_statements {body : Block} (block : Derives room (.block body) words) (rank : Nat) :
    ∀ branch ∈ statements body, Below room rank branch := by
  rw [forall_mem_statements]
  intro statement mem
  cases block with
  | block opens inside closes =>
    obtain ⟨words, derived⟩ := inside.exists_of_mem_statements statement mem
    exact below_statement derived rank

/-! ## One step -/

/-- The expression is well formed, and all that it holds is derived below it. -/
def Grows (room rank : Nat) (expr : Expr) : Prop :=
  (expression expr).WellFormed ∧ ∀ branch ∈ (expression expr).branches, Below room rank branch

theorem Grows.mono {expr : Expr} (grows : Grows room rank expr) {more higher : Nat}
    (wider : room ≤ more) (total : 10 * room + rank ≤ 10 * more + higher) :
    Grows more higher expr :=
  ⟨grows.1, fun branch mem => (grows.2 branch mem).mono wider total⟩

end TreeNode

theorem Operator.precedence_le (operator : Operator) : operator.precedence ≤ 6 := by
  cases operator <;> decide

/-- What is known of the expression that a phrase stands for. -/
def Phrase.Grows (room : Nat) (phrase : Phrase) : Prop :=
  match phrase with
  | .access expr | .value expr | .operand expr => TreeNode.Grows room 0 expr
  | .expression least expr => TreeNode.Grows room (7 - least) expr
  | _ => True

theorem Derives.grows {room : Nat} {phrase : Phrase} {words : List Lexeme}
    (derived : Derives room phrase words) : phrase.Grows room := by
  induction derived with
  | name | text | selector => exact ⟨trivial, fun _ mem => by contradiction⟩
  | number numbers => exact ⟨numbers.finite, fun _ mem => by contradiction⟩
  | call _ _ inside => exact ⟨trivial, TreeNode.below_elements inside 0⟩
  | member accessed _ inside =>
    refine ⟨accessed.isAccess, ?_⟩
    rw [TreeNode.branches, List.forall_mem_cons, List.forall_mem_singleton]
    exact ⟨TreeNode.below_leans accessed 0, TreeNode.below_opens inside 0⟩
  | selected accessed place =>
    exact ⟨place, List.forall_mem_singleton.mpr (TreeNode.below_leans accessed 0)⟩
  | array _ inside => exact ⟨trivial, TreeNode.below_elements inside 0⟩
  | object _ inside => exact ⟨trivial, TreeNode.below_entries inside 0⟩
  | accessed _ ih | single _ ih => exact ih
  | group _ _ _ ih =>
    -- What is grouped starts over with all operators, but has one level less.
    exact TreeNode.Grows.mono ih (Nat.le_succ _) (by omega)
  | operand _ ih => exact TreeNode.Grows.mono ih (Nat.le_refl _) (by omega)
  | @binary room least level operator left right front back _ stands binds onLeft _ onRight =>
    obtain rfl := stands.eq_precedence
    have tight := operator.precedence_le
    refine ⟨trivial, ?_⟩
    rw [TreeNode.branches, List.forall_mem_cons, List.forall_mem_singleton]
    constructor
    · refine ⟨room, 7 - operator.precedence, ⟨_, front, Nat.le_refl _, onLeft⟩, Nat.le_refl _, ?_⟩
      simp only [Edge.turns]
      omega
    · refine ⟨room, 7 - (operator.precedence + 1), ⟨_, back, Nat.le_refl _, onRight⟩,
        Nat.le_refl _, ?_⟩
      simp only [Edge.turns]
      omega
  | _ => exact trivial

namespace TreeNode

variable {room rank : Nat} {words : List Lexeme}

theorem Derived.wellFormed {node : TreeNode} (derived : node.Derived room rank) :
    node.WellFormed := by
  cases node with
  | expression expr =>
    obtain ⟨least, words, -, derived⟩ := derived
    exact derived.grows.1
  | conditional chain => exact trivial
  | statement statement =>
    obtain ⟨-, words, derived⟩ := derived
    cases derived with
    | declarationWithValue opens => exact opens.takes _
    | declaration => rfl
    | loop _ starts _ _ returns =>
      cases starts with
      | assign _ place => exact ⟨place, returns⟩
    | range _ from_ _ upTo => exact ⟨from_.finite, upTo.finite⟩
    | assignment assigns =>
      cases assigns with
      | assign _ place => exact place
    | _ => exact trivial

/-- Where a node is derived, what it holds is derived below. -/
theorem Derived.below {node : TreeNode} (derived : node.Derived room rank) :
    ∀ branch ∈ node.branches, Below room rank branch := by
  cases node with
  | expression expr =>
    obtain ⟨least, words, low, derived⟩ := derived
    exact (derived.grows.mono (Nat.le_refl _) (Nat.add_le_add_left low _)).2
  | conditional chain =>
    obtain ⟨high, words, derived⟩ := derived
    cases derived with
    | only test block =>
      rw [branches, List.forall_mem_cons]
      exact ⟨below_holds test high, below_statements block rank⟩
    | otherwise test block _ last =>
      rw [branches, List.forall_mem_append, List.forall_mem_cons]
      exact ⟨⟨below_holds test high, below_statements block rank⟩, below_statements last rank⟩
    | @elif room _ _ _ _ _ back _ test block _ chained =>
      rw [branches, List.forall_mem_cons, List.forall_mem_cons]
      refine ⟨below_holds test high, ?_, below_statements block rank⟩
      refine ⟨room, 8, ⟨Nat.le_refl _, back, chained⟩, Nat.le_refl _, ?_⟩
      simp only [Edge.turns]
      omega
  | statement statement =>
    obtain ⟨high, words, derived⟩ := derived
    have enough : 8 ≤ rank := Nat.le_of_succ_le high
    cases derived with
    | declarationWithValue _ _ _ initial =>
      exact List.forall_mem_singleton.mpr (below_holds initial enough)
    | declaration | returningNothing => exact fun _ mem => by contradiction
    | function _ _ _ _ _ block => exact below_statements block rank
    | returning _ values =>
      rw [branches, forall_mem_expressions]
      intro expr mem
      obtain ⟨words, value⟩ := values.exists_of_mem_values expr mem
      exact below_holds value enough
    | conditional _ chained =>
      refine List.forall_mem_singleton.mpr ⟨room, 8, ⟨Nat.le_refl _, _, chained⟩, Nat.le_refl _, ?_⟩
      simp only [Edge.turns]
      omega
    | loop _ starts _ steps _ _ test block =>
      have sides := below_sides starts enough
      rw [branches, List.forall_mem_append, List.forall_mem_cons, forall_mem_expressions,
        List.forall_mem_cons, List.forall_mem_cons, List.forall_mem_singleton]
      exact ⟨⟨sides.1, sides.2, below_holds test enough⟩, below_statement steps rank,
        below_statements block rank⟩
    | each _ _ _ items block =>
      rw [branches, List.forall_mem_cons]
      exact ⟨below_holds items enough, below_statements block rank⟩
    | range _ _ _ _ _ _ block => exact below_statements block rank
    | assignment assigns =>
      rw [branches, forall_mem_expressions, List.forall_mem_cons, List.forall_mem_singleton]
      exact below_sides assigns enough
    | expression evaluates => exact List.forall_mem_singleton.mpr (below_holds evaluates enough)

/-! ## Along a path -/

/-- What is known of a node at the end of a path, and of the edges that lead to it. -/
theorem Path.bounds {root node : TreeNode} {edges : List Edge} (path : Path root edges node) :
    ∀ {room rank : Nat}, root.Derived room rank →
      node.WellFormed ∧ edges.count .opens ≤ room ∧
        edges.length ≤ edges.count .leans + (10 * room + rank) := by
  induction path with
  | here root => exact fun derived => ⟨derived.wellFormed, Nat.zero_le _, Nat.zero_le _⟩
  | @down root child node edge edges branch _ ih =>
    intro room rank derived
    obtain ⟨room', rank', inside, levels, turns⟩ := derived.below _ branch
    obtain ⟨formed, opened, long⟩ := ih inside
    have counted := Edge.count_leans_cons edge edges
    dsimp only at levels turns
    rw [Edge.count_opens_cons, List.length_cons]
    exact ⟨formed, by omega, by omega⟩

end TreeNode

end BlockScript
