import Resumable.Lower.Shape

/-!
# Where a construct stands

The rules on shape are about constructs and what stands around them: a suspension in a
closure, a break below a loop.  This module says where a construct stands without reading the
body in any order.  A *spot* of a tree is one of its nodes together with the way that leads to
it, and what stands around the node are the nodes that were passed on that way.

The findings of a tree are the same thing read in order.  **Every finding is made at one
spot**, from the node there and the nodes passed, and every spot gives rise to its findings.

## Main definitions

* `Bound.Node`, `Bound.Node.children`: the nodes of a tree.
* `Bound.Spot`: a node of a tree with the way to it.
* `Bound.Spot.InLambda`, `Bound.Spot.InControl`, `Bound.Spot.InLoop`: what
  stands around a node.
* `Bound.Node.own`: what is found at a node itself.
* `Bound.Node.All`: what every node of a tree has.

## Main statements

* `Bound.Node.findings_eq`: what is found in a tree is found at its root or below
  one of its children.
* `mem_findings`: what is found in a tree is found at one of its spots.
* `exists_two_spots`: what is found twice is found at two spots.
-/

namespace Resumable

variable {k : Nat} {c : Surroundings} {whole : Bool} {P : Finding → Bool}

namespace Bound

/-- A node of a body. -/
inductive Node where
  | expr (e : Expr)
  | stmt (s : Stmt)

namespace Node

/-- The nodes directly below a node, in the order in which they are evaluated. -/
def children : Node → List Node
  | .expr e =>
    match e with
    | .int .. | .float .. | .bool .. | .str .. | .unit ..
    | .localVar .. | .param .. | .field .. | .error .. => []
    | .binary _ _ left right => [.expr left, .expr right]
    | .unary _ _ operand | .suspend _ operand => [.expr operand]
    | .call _ _ args => args.map .expr
    | .lambda _ body => body.map .stmt
  | .stmt s =>
    match s with
    | .expr _ e | .bind _ _ e | .assign _ _ e | .ret _ e | .yield _ e => [.expr e]
    | .branch _ cond onTrue onFalse => .expr cond :: (onTrue.map .stmt ++ onFalse.map .stmt)
    | .loop _ cond body => .expr cond :: body.map .stmt
    | .declare .. | .breakLoop _ | .continueLoop _ | .leave _ | .goto .. | .label .. => []

/-- The span of a node. -/
def span : Node → Span
  | .expr e => e.span
  | .stmt s => s.span

/-- Is this a closure? -/
def isLambda : Node → Bool
  | .expr (.lambda ..) => true
  | _ => false

/-- Is this a `while`? -/
def isLoop : Node → Bool
  | .stmt (.loop ..) => true
  | _ => false

/-- Is this an `if` or a `while`? -/
def isControl : Node → Bool
  | .stmt (.branch ..) | .stmt (.loop ..) => true
  | _ => false

/-- Is this a suspension? -/
def isSuspend : Node → Bool
  | .expr (.suspend ..) => true
  | _ => false

/-- Is this a `goto` or a label? -/
def isJump : Node → Bool
  | .stmt (.goto ..) | .stmt (.label ..) => true
  | _ => false

/-- Is this a `break` or a `continue`? -/
def isLoopControl : Node → Bool
  | .stmt (.breakLoop _) | .stmt (.continueLoop _) => true
  | _ => false

/-- Is this a return? -/
def isReturn : Node → Bool
  | .stmt (.leave _) | .stmt (.ret ..) => true
  | _ => false

/-- Is this a generator's yield? -/
def isYield : Node → Bool
  | .stmt (.yield ..) => true
  | _ => false

/-- Is this a statement whose value may be a suspension: an expression, a `let` with a first
value or an assignment? -/
def takesValue : Node → Bool
  | .stmt (.expr ..) | .stmt (.bind ..) | .stmt (.assign ..) => true
  | _ => false

/-- Children are smaller, so that trees end. -/
theorem sizeOf_child_lt {n child : Node} (h : child ∈ n.children) :
    sizeOf child < sizeOf n := by
  have hblock : ∀ {stmts : List Stmt}, child ∈ stmts.map Node.stmt →
    sizeOf child < sizeOf stmts + 1 := by
    intro stmts hmem
    obtain ⟨s, hs, rfl⟩ := List.mem_map.mp hmem
    have hlt := List.sizeOf_lt_of_mem hs
    simp only [Node.stmt.sizeOf_spec]
    omega
  have hargs : ∀ {args : List Expr}, child ∈ args.map Node.expr →
    sizeOf child < sizeOf args + 1 := by
    intro args hmem
    obtain ⟨e, he, rfl⟩ := List.mem_map.mp hmem
    have hlt := List.sizeOf_lt_of_mem he
    simp only [Node.expr.sizeOf_spec]
    omega
  cases n with
  | expr e =>
    cases e with
    | int | float | bool | str | unit | localVar | param | field | error => cases h
    | binary | unary | suspend =>
      simp only [children, List.mem_cons, List.not_mem_nil, or_false] at h
      grind
    | call info target args => grind [hargs h]
    | lambda info body => grind [hblock h]
  | stmt s =>
    cases s with
    | declare | breakLoop | continueLoop | leave | goto | label => cases h
    | expr | bind | assign | ret | yield =>
      obtain rfl := List.mem_singleton.mp h
      grind
    | branch info cond onTrue onFalse =>
      rcases List.mem_cons.mp h with rfl | h
      · grind
      · rcases List.mem_append.mp h with h | h <;> grind [hblock h]
    | loop info cond body =>
      rcases List.mem_cons.mp h with rfl | h
      · grind
      · grind [hblock h]

/-- What holds of a node when it holds of the nodes directly below it, holds of every node. -/
theorem induct {motive : Node → Prop}
    (step : ∀ n, (∀ child ∈ n.children, motive child) → motive n) :
    ∀ n, motive n := fun n => step n fun child _below => induct step child
termination_by n => sizeOf n
decreasing_by exact sizeOf_child_lt _below

/-- A statement stands directly below closures, branches and loops only. -/
theorem isLambda_or_isControl {n : Node} {s : Stmt} (h : .stmt s ∈ n.children) :
    n.isLambda = true ∨ n.isControl = true := by
  cases n with
  | expr e => cases e <;> simp_all [children, isLambda]
  | stmt t => cases t <;> simp_all [children, isControl]

end Node

/-- A way leads from a node down to another one.  It is given by the numbers of the children
to go to, and by the nodes that are passed, outermost first. -/
inductive Leads : Node → List Nat → List Node → Node → Prop where
  | here (n : Node) : Leads n [] [] n
  | down {n child m : Node} {k : Nat} {path : List Nat} {above : List Node}
    (step : n.children[k]? = some child)
    (further : Leads child path above m) : Leads n (k :: path) (n :: above) m

/-- **A spot of a tree**: a node of it, with the way that leads there from the root. -/
structure Spot (root : Node) where
  path : List Nat
  above : List Node
  node : Node
  leads : Leads root path above node

namespace Spot

variable {root : Node}

/-- The root itself. -/
def start (root : Node) : Spot root := ⟨[], [], root, .here root⟩

/-- A spot of a child. -/
def inChild {child : Node} {k : Nat} (h : root.children[k]? = some child)
    (spot : Spot child) : Spot root :=
  ⟨k :: spot.path, root :: spot.above, spot.node, .down h spot.leads⟩

/-- Is there a closure around? -/
def InLambda (spot : Spot root) : Prop := ∃ a ∈ spot.above, a.isLambda = true

/-- Is there an `if` or a `while` around? -/
def InControl (spot : Spot root) : Prop := ∃ a ∈ spot.above, a.isControl = true

/-- Is there a `while` around, and no closure between? -/
def InLoop (spot : Spot root) : Prop :=
  ∃ outer loop inner, spot.above = outer ++ loop :: inner ∧ loop.isLoop = true ∧
    ∀ a ∈ inner, a.isLambda = false

end Spot

end Bound

open Resumable.Bound (Expr Stmt Node Spot)

/-! ### What is found at a node -/

/-- What stands around the nodes directly below a node. -/
def Surroundings.enter (c : Surroundings) : Node → Surroundings
  | .expr (.lambda info _) => c.inClosure info.span
  | .stmt (.branch info ..) => c.inBranch info.span
  | .stmt (.loop info ..) => c.inLoopBody info.span
  | _ => c

namespace Bound.Node

/-- What is found in a tree. -/
def findings (c : Surroundings) (whole : Bool) : Node → List Finding
  | .expr e => exprFindings c whole e
  | .stmt s => stmtFindings c s

/-- What is found at a node itself. -/
def own (c : Surroundings) (whole : Bool) : Node → List Finding
  | .expr (.suspend info _) => [c.suspendFinding info.span whole]
  | .stmt (.breakLoop info) => c.loopControlFindings .breakLoop info.span
  | .stmt (.continueLoop info) => c.loopControlFindings .continueLoop info.span
  | .stmt (.leave info) | .stmt (.ret info _) => c.retFindings info.span
  | .stmt (.goto info label) => [.jump .goto label info.span]
  | .stmt (.label info label) => [.jump .label label info.span]
  | .stmt (.yield info _) => c.yieldFindings info.span
  | _ => []

end Bound.Node

theorem argsFindings_eq_flatMap (c : Surroundings) (args : List Expr) :
    argsFindings c args = args.flatMap (exprFindings c false) := by
  induction args with
  | nil => rfl
  | cons e rest ih => rw [argsFindings, ih, List.flatMap_cons]

theorem blockFindings_eq_flatMap (c : Surroundings) (stmts : List Stmt) :
    blockFindings c stmts = stmts.flatMap (stmtFindings c) := by
  induction stmts with
  | nil => rfl
  | cons s rest ih => rw [blockFindings, ih, List.flatMap_cons]

namespace Bound.Node

/-- **What is found in a tree** is found at its root or below one of its children. -/
theorem findings_eq (c : Surroundings) (whole : Bool) (n : Node) :
    n.findings c whole = n.own c whole ++ n.children.flatMap
      (findings (c.enter n) n.takesValue) := by
  cases n with
  | expr e =>
    cases e with
    | call info target args =>
      simp [findings, own, children, takesValue, exprFindings,
        argsFindings_eq_flatMap, List.flatMap_map, Surroundings.enter]
    | lambda info body =>
      simp [findings, own, children, exprFindings, blockFindings_eq_flatMap,
        List.flatMap_map, Surroundings.enter]
    | _ => simp [findings, own, children, takesValue, exprFindings, Surroundings.enter]
  | stmt s =>
    cases s with
    | branch info cond onTrue onFalse =>
      simp [findings, own, children, takesValue, stmtFindings,
        blockFindings_eq_flatMap, List.flatMap_map, Surroundings.enter]
    | loop info cond body =>
      simp [findings, own, children, takesValue, stmtFindings,
        blockFindings_eq_flatMap, List.flatMap_map, Surroundings.enter]
    | _ => simp [findings, own, children, takesValue, stmtFindings, Surroundings.enter]

theorem length_own_le (c : Surroundings) (whole : Bool) (n : Node) :
    (n.own c whole).length ≤ 1 := by
  unfold own Surroundings.loopControlFindings Surroundings.retFindings
    Surroundings.yieldFindings
  grind

end Bound.Node

/-! ### What is found at a spot -/

namespace Bound.Spot

variable {root : Node}

/-- What stands around a spot of a tree, given what stands around the tree. -/
def around (c : Surroundings) (spot : Spot root) : Surroundings :=
  spot.above.foldl Surroundings.enter c

/-- Is the node all of the value of its statement?  For the root that has to be given. -/
def isWhole (whole : Bool) (spot : Spot root) : Bool :=
  (spot.above.getLast?.map Node.takesValue).getD whole

/-- What is found at the spot itself. -/
def findings (c : Surroundings) (whole : Bool) (spot : Spot root) : List Finding :=
  spot.node.own (spot.around c) (spot.isWhole whole)

/-- What is found at a spot of a child is found there in the whole tree. -/
theorem findings_inChild {child : Node} (h : root.children[k]? = some child)
    (spot : Spot child) (c : Surroundings) (whole : Bool) :
    (spot.inChild h).findings c whole = spot.findings (c.enter root) root.takesValue := by
  have hwhole : (spot.inChild h).isWhole whole = spot.isWhole root.takesValue := by
    unfold isWhole inChild
    rw [List.getLast?_cons]
    cases spot.above.getLast? <;> rfl
  unfold findings
  rw [hwhole]
  rfl

/-- A spot is the root or is in a child. -/
theorem eq_start_or_inChild (spot : Spot root) :
    spot = .start root ∨ ∃ (child : Node) (k : Nat) (h : root.children[k]? =
      some child) (lower : Spot child),
      spot = lower.inChild h := by
  obtain ⟨path, above, node, leads⟩ := spot
  cases leads with
  | here => exact Or.inl rfl
  | down step further => exact Or.inr ⟨_, _, step, ⟨_, _, _, further⟩, rfl⟩

end Bound.Spot

namespace Bound.Node

/-- Does every node of a tree have a property? -/
def All (P : Node → Prop) (root : Node) : Prop := ∀ spot : Spot root, P spot.node

/-- What holds throughout a tree, one level at a time. -/
theorem all_iff {P : Node → Prop} {root : Node} :
    root.All P ↔ P root ∧ ∀ child ∈ root.children, child.All P := by
  constructor
  · intro h
    refine ⟨h (.start root), fun child hchild => ?_⟩
    obtain ⟨k, hk⟩ := List.getElem?_of_mem hchild
    exact fun spot => h (spot.inChild hk)
  · rintro ⟨hroot, hbelow⟩ spot
    rcases spot.eq_start_or_inChild with rfl | ⟨child, k, hk, lower, rfl⟩
    · exact hroot
    · exact hbelow child (List.mem_of_getElem? hk) lower

/-- What holds throughout a tree holds throughout each child. -/
theorem All.child {P : Node → Prop} {root child : Node} (h : root.All P)
    (hchild : child ∈ root.children) : child.All P := (all_iff.mp h).2 child hchild

end Bound.Node

/-- **What is found in a tree** is what is found at its spots. -/
theorem mem_findings {f : Finding} {root : Node} :
    f ∈ root.findings c whole ↔ ∃ spot : Spot root, f ∈ spot.findings c whole := by
  induction root using Node.induct generalizing c whole with
  | step root ih =>
    rw [root.findings_eq, List.mem_append, List.mem_flatMap]
    constructor
    · rintro (hown | ⟨child, hchild, hf⟩)
      · exact ⟨.start root, hown⟩
      · obtain ⟨spot, hspot⟩ := (ih child hchild).mp hf
        obtain ⟨k, hk⟩ := List.getElem?_of_mem hchild
        refine ⟨spot.inChild hk, ?_⟩
        rwa [Spot.findings_inChild]
    · rintro ⟨spot, hspot⟩
      rcases spot.eq_start_or_inChild with rfl | ⟨child, k, hk, lower, rfl⟩
      · exact Or.inl hspot
      · rw [Spot.findings_inChild] at hspot
        have hchild := List.mem_of_getElem? hk
        exact Or.inr ⟨child, hchild, (ih child hchild).mpr ⟨lower, hspot⟩⟩

/-! ### What is found twice -/

/-- What there are two of in lists that are put together, there are two of in one list, or one
of in two lists. -/
theorem two_of_countP_flatMap {α β : Type} {P : β → Bool} {g : α → List β} {as : List α}
    (h : 1 < (as.flatMap g).countP P) :
    (∃ (k : Nat) (a : α), as[k]? = some a ∧ 1 < (g a).countP P) ∨
      ∃ (j k : Nat) (a b : α), j ≠ k ∧ as[j]? = some a ∧ as[k]? = some b ∧
        0 < (g a).countP P ∧ 0 < (g b).countP P := by
  induction as with
  | nil => simp at h
  | cons a rest ih =>
    rw [List.flatMap_cons, List.countP_append] at h
    by_cases hfirst : 1 < (g a).countP P
    · exact Or.inl ⟨0, a, rfl, hfirst⟩
    by_cases hrest : 1 < (rest.flatMap g).countP P
    · rcases ih hrest with ⟨k, b, hk, hb⟩ | ⟨j, k, b, b', hne, hj, hk, hb, hb'⟩
      · exact Or.inl ⟨k + 1, b, hk, hb⟩
      · exact Or.inr ⟨j + 1, k + 1, b, b', by omega, hj, hk, hb, hb'⟩
    · obtain ⟨x, hx, hPx⟩ :=
        List.countP_pos_iff.mp (show 0 < (rest.flatMap g).countP P by omega)
      obtain ⟨b, hb, hxb⟩ := List.mem_flatMap.mp hx
      obtain ⟨k, hk⟩ := List.getElem?_of_mem hb
      exact Or.inr ⟨0, k + 1, a, b, by omega, rfl, hk, by omega,
        List.countP_pos_iff.mpr ⟨x, hxb, hPx⟩⟩

/-- What is found in a child is found at a spot of it. -/
theorem exists_spot_inChild {root child : Node} (hk : root.children[k]? = some child)
    (whole : Bool) (h : 0 < (child.findings (c.enter root) root.takesValue).countP P) :
    ∃ lower : Spot child, ∃ f ∈ (lower.inChild hk).findings c whole, P f = true := by
  obtain ⟨f, hf, hPf⟩ := List.countP_pos_iff.mp h
  obtain ⟨lower, hlower⟩ := mem_findings.mp hf
  exact ⟨lower, f, by rwa [Spot.findings_inChild], hPf⟩

/-- **What is found twice** is found at two spots. -/
theorem exists_two_spots {root : Node} (h : 1 < (root.findings c whole).countP P) :
    ∃ spot spot' : Spot root, spot.path ≠ spot'.path ∧
      (∃ f ∈ spot.findings c whole, P f = true) ∧
      ∃ f ∈ spot'.findings c whole, P f = true := by
  induction root using Node.induct generalizing c whole with
  | step root ih =>
    rw [root.findings_eq, List.countP_append] at h
    have hown : (root.own c whole).countP P ≤ 1 :=
      Nat.le_trans List.countP_le_length (root.length_own_le c whole)
    by_cases hchildren :
      1 < (root.children.flatMap (Node.findings (c.enter root) root.takesValue)).countP P
    · rcases two_of_countP_flatMap hchildren
        with ⟨k, child, hk, htwo⟩ | ⟨j, k, left, right, hne, hj, hk, hl, hr⟩
      · obtain ⟨lower, lower', hne, hlower, hlower'⟩ :=
          ih child (List.mem_of_getElem? hk) htwo
        refine ⟨lower.inChild hk, lower'.inChild hk, fun heq =>
          hne (List.cons.inj heq).2, ?_, ?_⟩
        · rwa [Spot.findings_inChild]
        · rwa [Spot.findings_inChild]
      · obtain ⟨lower, hlower⟩ := exists_spot_inChild hj whole hl
        obtain ⟨lower', hlower'⟩ := exists_spot_inChild hk whole hr
        exact ⟨lower.inChild hj, lower'.inChild hk, fun heq =>
          hne (List.cons.inj heq).1, hlower, hlower'⟩
    · -- One of the two is found at the root, and the other one below it.
      obtain ⟨f, hf, hPf⟩ :=
        List.countP_pos_iff.mp (show 0 < (root.own c whole).countP P by omega)
      obtain ⟨g, hg, hPg⟩ := List.countP_pos_iff.mp
        (show 0 < (root.children.flatMap
          (Node.findings (c.enter root) root.takesValue)).countP P by omega)
      obtain ⟨child, hchild, hg⟩ := List.mem_flatMap.mp hg
      obtain ⟨k, hk⟩ := List.getElem?_of_mem hchild
      obtain ⟨lower, hlower⟩ :=
        exists_spot_inChild hk whole (List.countP_pos_iff.mpr ⟨g, hg, hPg⟩)
      exact ⟨.start root, lower.inChild hk, fun heq =>
        List.cons_ne_nil _ _ heq.symm, ⟨f, hf, hPf⟩, hlower⟩

/-! ### What stands around a spot -/

namespace Surroundings

theorem closure_enter_eq_none (c : Surroundings) (n : Node) :
    (c.enter n).closure = none ↔ c.closure = none ∧ n.isLambda = false := by
  cases n with
  | expr e => cases e <;> simp [enter, Node.isLambda, inClosure]
  | stmt s => cases s <;> simp [enter, Node.isLambda, inBranch, inLoopBody]

theorem control_enter_eq_none (c : Surroundings) (n : Node) :
    (c.enter n).control = none ↔ c.control = none ∧ n.isControl = false := by
  cases n with
  | expr e => cases e <;> simp [enter, Node.isControl, inClosure]
  | stmt s => cases s <;> simp [enter, Node.isControl, inBranch, inLoopBody]

theorem inLoop_enter (c : Surroundings) (n : Node) :
    (c.enter n).inLoop = true ↔ n.isLoop = true ∨ c.inLoop = true ∧ n.isLambda = false := by
  cases n with
  | expr e => cases e <;> simp [enter, Node.isLambda, Node.isLoop, inClosure]
  | stmt s => cases s <;> simp [enter, Node.isLambda, Node.isLoop, inBranch, inLoopBody]

/-- What nodes of one kind change, and no others, is unchanged where none
of them is passed. -/
theorem foldl_enter_iff {Q : Surroundings → Prop} {kind : Node → Bool}
    (step : ∀ c n, Q (c.enter n) ↔ Q c ∧ kind n = false) {above : List Node} :
    Q (above.foldl enter c) ↔ Q c ∧ ∀ a ∈ above, kind a = false := by
  induction above generalizing c with
  | nil => simp
  | cons a rest ih => rw [List.foldl_cons, ih, step, List.forall_mem_cons, and_assoc]

end Surroundings

namespace Bound.Spot

variable {root : Node}

/-- The innermost closure is missing where there is none. -/
theorem closure_around_eq_none (spot : Spot root) :
    (spot.around c).closure = none ↔ c.closure = none ∧ ¬ spot.InLambda := by
  refine (Surroundings.foldl_enter_iff (Q :=
    fun c => c.closure = none) Surroundings.closure_enter_eq_none).trans ?_
  simp [InLambda]

/-- The outermost branch or loop is missing where there is none. -/
theorem control_around_eq_none (spot : Spot root) :
    (spot.around c).control = none ↔ c.control = none ∧ ¬ spot.InControl := by
  refine (Surroundings.foldl_enter_iff (Q :=
    fun c => c.control = none) Surroundings.control_enter_eq_none).trans ?_
  simp [InControl]

/-- There is a loop within the innermost closure where one is around and
no closure between. -/
theorem inLoop_around (spot : Spot root) :
    (spot.around c).inLoop = true ↔ spot.InLoop ∨ c.inLoop = true ∧ ¬ spot.InLambda := by
  have hfold : ∀ (above : List Node) (c : Surroundings),
    (above.foldl Surroundings.enter c).inLoop = true ↔
      (∃ outer loop inner, above = outer ++ loop :: inner ∧ loop.isLoop = true ∧
        ∀ a ∈ inner, a.isLambda = false) ∨
        c.inLoop = true ∧ ∀ a ∈ above, a.isLambda = false := by
    intro above
    induction above with
    | nil => simp
    | cons a rest ih =>
      intro c
      rw [List.foldl_cons, ih, Surroundings.inLoop_enter, List.forall_mem_cons]
      constructor
      · rintro (⟨outer, loop, inner, rfl, hloop, hinner⟩ | ⟨hloop | ⟨hc, ha⟩, hrest⟩)
        · exact Or.inl ⟨a :: outer, loop, inner, rfl, hloop, hinner⟩
        · exact Or.inl ⟨[], a, rest, rfl, hloop, hrest⟩
        · exact Or.inr ⟨hc, ha, hrest⟩
      · rintro (⟨outer, loop, inner, heq, hloop, hinner⟩ | ⟨hc, ha, hrest⟩)
        · rcases List.cons_eq_append_iff.mp heq with ⟨rfl, heq⟩ | ⟨outer, rfl, rfl⟩
          · obtain ⟨rfl, rfl⟩ := List.cons.inj heq
            exact Or.inr ⟨Or.inl hloop, hinner⟩
          · exact Or.inl ⟨outer, loop, inner, rfl, hloop, hinner⟩
        · exact Or.inr ⟨Or.inr ⟨hc, ha⟩, hrest⟩
  unfold around InLoop InLambda
  rw [hfold]
  simp

end Bound.Spot

end Resumable
