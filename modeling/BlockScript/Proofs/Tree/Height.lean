import BlockScript.Proofs.Printing.Origin
import BlockScript.Proofs.Tree.Paths

/-!
# The height of parsed trees

Only so many levels may be open at once, and on a path that turns, the levels and the precedence of
operators are used up (`TreeNode.Path.bounds`). What neither of them bounds is a flat chain:
operators and suffixes one behind the other are folded in a loop that opens no level, and the tree
leans one node further to the left with each of them. So trees of any height are parsed (`height_unbounded`),
and it takes the length of the longest flat chain, besides the limit of levels, to bound the height
of a tree (`heightAtMost_of_parse`).
-/

namespace BlockScript

namespace Program

/-- No chain of nested nodes, from a statement of the program on, has more nodes than `height`. -/
def HeightAtMost (program : Program) (height : Nat) : Prop :=
  ∀ statement ∈ program, ∀ (edges : List Edge) (node : TreeNode),
    (TreeNode.statement statement).Path edges node → edges.length < height

/-- No flat chain in the program has more operators and suffixes than `longest`. -/
def ChainsAtMost (program : Program) (longest : Nat) : Prop :=
  ∀ statement ∈ program, ∀ (edges : List Edge) (node : TreeNode),
    (TreeNode.statement statement).Path edges node →
      ∀ run, List.replicate run .leans <:+: edges → run ≤ longest

end Program

/-- Between `turned` edges that turn, edges lean; `first` bounds how many do so in front. -/
theorem Edge.length_le_of_runs {longest : Nat} {edges : List Edge} :
    ∀ first turned : Nat, (∀ run, List.replicate run .leans <+: edges → run ≤ first) →
      (∀ run, List.replicate run .leans <:+: edges → run ≤ longest) →
      edges.length ≤ edges.count .leans + turned →
      edges.length ≤ first + turned * (longest + 1) := by
  induction edges with
  | nil => exact fun _ _ _ _ _ => Nat.zero_le _
  | cons edge edges ih =>
    intro first turned starts runs split
    have counted := Edge.count_leans_cons edge edges
    have behind : ∀ run, List.replicate run .leans <:+: edges → run ≤ longest :=
      fun run inside => runs run (inside.trans (List.suffix_cons edge edges).isInfix)
    rw [List.length_cons] at split ⊢
    by_cases leaning : edge = .leans
    · -- An edge that leans makes the run in front shorter by one.
      subst leaning
      have one : 1 ≤ first := starts 1 (List.cons_prefix_cons.mpr ⟨rfl, List.nil_prefix⟩)
      have fewer : ∀ run, List.replicate run .leans <+: edges → run ≤ first - 1 := fun run inside =>
        Nat.le_sub_one_of_lt (starts (run + 1) (List.cons_prefix_cons.mpr ⟨rfl, inside⟩))
      have shorter := ih (first - 1) turned fewer behind (by rw [turns] at counted; omega)
      omega
    · -- Behind an edge that turns a new run begins, about which only `longest` is known.
      have turn : edge.turns = 1 := by
        cases edge <;> first | rfl | contradiction
      have less := edges.count_le_length (a := .leans)
      obtain ⟨before, rfl⟩ : ∃ before, turned = before + 1 := ⟨turned - 1, by omega⟩
      have shorter := ih longest before (fun run inside => behind run inside.isInfix) behind
        (by omega)
      rw [Nat.succ_mul]
      omega

/-! ## Flat chains -/

/-- The expression `a[i][i]` and so on, with `count` suffixes. -/
def suffixed : Nat → Expr
  | 0 => .name "a"
  | count + 1 => .member (suffixed count) (.name "i")

namespace suffixed

theorem isAccess (count : Nat) : (suffixed count).isAccess := by
  cases count <;> rfl

theorem producible (count : Nat) : (suffixed count).Producible := by
  have isName : ∀ name ∈ ["a", "i"], IsName name.toList := by
    simp only [List.forall_mem_cons]
    refine ⟨?_, ?_, List.forall_mem_nil _⟩ <;> exact ⟨by decide, List.all_eq_true.mp rfl, rfl⟩
  induction count with
  | zero => exact isName _ (by simp)
  | succ count ih => exact ⟨isAccess count, ih, isName _ (by simp)⟩

/-- However many suffixes there are, only one level is open at once. -/
theorem depth_le (count : Nat) : (suffixed count).depth ≤ 1 := by
  induction count with
  | zero => exact Nat.zero_le _
  | succ count ih => exact Nat.max_le.mpr ⟨ih, Nat.le_refl _⟩

theorem path (count : Nat) :
    (TreeNode.expression (suffixed count)).Path (.replicate count .leans)
      (.expression (.name "a")) := by
  induction count with
  | zero => exact .here _
  | succ count ih => exact .down List.mem_cons_self ih

theorem length_le {count : Nat} {edges : List Edge} {node : TreeNode}
    (path : (TreeNode.expression (suffixed count)).Path edges node) : edges.length ≤ count := by
  induction count generalizing edges with
  | zero =>
    cases path with
    | here => exact Nat.le_refl _
    | down branch => contradiction
  | succ count ih =>
    cases path with
    | here => exact Nat.zero_le _
    | down branch path =>
      obtain leaning | index := List.mem_cons.mp branch
      · cases leaning
        exact Nat.succ_le_succ (ih path)
      · cases List.mem_singleton.mp index
        cases path with
        | here => exact Nat.succ_le_succ (Nat.zero_le _)
        | down branch => contradiction

theorem chainsAtMost (count : Nat) :
    Program.ChainsAtMost [.expression (suffixed count)] (count + 1) := by
  intro statement mem edges node path run inside
  cases List.mem_singleton.mp mem
  have short : edges.length ≤ count + 1 := by
    cases path with
    | here => exact Nat.zero_le _
    | down branch path =>
      cases List.mem_singleton.mp branch
      exact Nat.succ_le_succ (length_le path)
  have length := inside.length_le
  rw [List.length_replicate] at length
  exact Nat.le_trans length short

/-- What the expression is printed as is parsed as the expression. -/
theorem parse_printed (count : Nat) :
    parse (printProgram .compact [.expression (suffixed count)]) =
      .ok [.expression (suffixed count)] := by
  have valid : Statement.AllProducible [.expression (suffixed count)] := ⟨producible count, trivial⟩
  have shallow : Statement.depthOfAll [.expression (suffixed count)] ≤ nestingLimit :=
    Nat.max_le.mpr ⟨Nat.le_trans (depth_le count) (by decide), Nat.zero_le _⟩
  exact parse_of_legible .compact (Statement.legible_all _ 0 valid)
    (Statement.derives_all _ nestingLimit 0 valid shallow)

end suffixed

/-! ## Height -/

/-- The height of a parsed tree is bounded by the limit of levels and its longest flat chain. -/
theorem heightAtMost_of_parse (source : String) (program : Program)
    (parsed : parse source = .ok program) (longest : Nat) (flat : program.ChainsAtMost longest) :
    program.HeightAtMost ((10 * nestingLimit + 10) * (longest + 1)) := by
  obtain ⟨words, -, derived⟩ := exists_derives_of_parse parsed
  intro statement mem edges node path
  have root : (TreeNode.statement statement).Derived nestingLimit 9 :=
    ⟨Nat.le_refl _, derived.exists_of_mem_statements statement mem⟩
  obtain ⟨-, -, turned⟩ := path.bounds root
  have runs := flat statement mem edges node path
  have length := Edge.length_le_of_runs _ _ (fun run inside => runs run inside.isInfix) runs turned
  calc edges.length
      ≤ longest + (10 * nestingLimit + 9) * (longest + 1) := length
    _ < (10 * nestingLimit + 10) * (longest + 1) := by
        rw [Nat.succ_mul (10 * nestingLimit + 9)]
        omega

theorem heightAtMost_of_parse_suffixed :
    parse "a[i][i];" = .ok [.expression (suffixed 2)] ∧
      Program.ChainsAtMost [.expression (suffixed 2)] 3 ∧
      Program.HeightAtMost [.expression (suffixed 2)] ((10 * nestingLimit + 10) * 4) := by
  have printed : printProgram .compact [.expression (suffixed 2)] = "a[i][i];" := by decide
  have parsed : parse "a[i][i];" = .ok [.expression (suffixed 2)] := printed ▸ suffixed.parse_printed 2
  have flat := suffixed.chainsAtMost 2
  exact ⟨parsed, flat, heightAtMost_of_parse _ _ parsed _ flat⟩

/-- No number bounds the height of all trees that are parsed. -/
theorem height_unbounded :
    ¬ ∃ height, ∀ source program, parse source = .ok program → program.HeightAtMost height := by
  rintro ⟨height, bounded⟩
  have long := bounded _ _ (suffixed.parse_printed height) _ List.mem_cons_self _ _
    (.down List.mem_cons_self (suffixed.path height))
  rw [List.length_cons, List.length_replicate] at long
  omega

end BlockScript
