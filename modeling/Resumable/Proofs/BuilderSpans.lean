import Resumable.Bound.Builder
import Resumable.Proofs.Segmentable

/-!
# Spans of built nodes

A builder gives every node a span, and each call finds it in a way of its own: from the
cursor, from one operand, over two blocks.  In all of them the span is *the smallest one* that
covers the text the node has of its own and the nodes directly below it.  **So the spans of
what is built nest**, whatever was called in whatever order, and of two constructs that a
report names, one inside the other, the spans nest too.

A finished procedure reaches from the start to the cursor.  The cursor only grows unless it is
set.  So a procedure covers all that was built for it when the cursor was not set back, and
need not when it was.

## Main definitions

* `Bound.Node.Nested`: every node of a tree covers what is directly below it.
* `Bound.Call`, `Bound.Finishes`: the calls of a builder, on nodes that exist.
* `Bound.Made`: what a sequence of calls makes.

## Main statements

* `Bound.Call.makes`: what a call makes from nested nodes is nested.
* `Bound.Made.fits`: all that a sequence of calls makes is nested.
* `spans_of_built_nest`: the spans in a built procedure nest, and so do those in
  the reports on it.
* `set_back_uncovers`: a procedure does not cover what was built before its
  cursor was set back.
-/

namespace Resumable

variable {n : Node} {above parts : List Node} {texts : List Span} {make : ExprInfo → Expr}
  {ty : Ty} {p : Procedure} {c : Surroundings}

namespace Span

variable {s t u : Span}

theorem covers_refl (s : Span) : s.covers s = true :=
  covers_iff.mpr ⟨Nat.le_refl _, Nat.le_refl _⟩

theorem covers_trans (h : s.covers t = true) (h' : t.covers u = true) :
    s.covers u = true := by
  rw [covers_iff] at *
  omega

theorem covers_merge_iff :
    u.covers (s.merge t) = true ↔ u.covers s = true ∧ u.covers t = true := by
  simp only [covers_iff, merge]
  omega

theorem covers_mergeAll_iff {others : List Span} :
    u.covers (Bound.Build.mergeAll s others) = true ↔ u.covers s = true ∧
    ∀ t ∈ others, u.covers t = true := by
  unfold Bound.Build.mergeAll
  induction others generalizing s with
  | nil => simp
  | cons t rest ih =>
    rw [List.foldl_cons, ih, covers_merge_iff, List.forall_mem_cons, and_assoc]

end Span

open Resumable.Span (covers_refl covers_trans covers_mergeAll_iff)

namespace Bound

/-! ### Nested trees -/

namespace Node

/-- Does every node of a tree cover the nodes directly below it? -/
def Nested (root : Node) : Prop :=
  root.All fun n => ∀ child ∈ n.children, n.span.covers child.span = true

/-- Is a tree nested, and does it end at `bound` or before? -/
structure Fits (bound : Nat) (n : Node) : Prop where
  nested : n.Nested
  within : (Span.mk 0 bound).covers n.span = true

/-- Is the span of a node the smallest one that covers its own texts and the nodes
directly below it? -/
def Joins (texts : List Span) (n : Node) : Prop :=
  ∀ u : Span, u.covers n.span = true ↔
    (∀ t ∈ texts, u.covers t = true) ∧ ∀ child ∈ n.children, u.covers child.span = true

variable {m child first : Node} {rest : List Node} {path : List Nat} {bound bound' : Nat}

/-- **A nested tree covers all its nodes.** -/
theorem Nested.covers (h : n.Nested) (leads : Leads n path above m) :
    n.span.covers m.span = true := by
  induction leads with
  | here n => exact covers_refl _
  | @down n child _ _ _ _ step _ ih =>
    have hchild := List.mem_of_getElem? step
    exact covers_trans (h (.start n) child hchild) (ih (All.child h hchild))

/-- So does every node on the way to one. -/
theorem Nested.covers_above (h : n.Nested) (leads : Leads n path above m) :
    ∀ a ∈ above, a.span.covers m.span = true := by
  induction leads with
  | here => exact List.forall_mem_nil _
  | @down n child _ _ _ _ step further ih =>
    have hchild := List.mem_of_getElem? step
    exact List.forall_mem_cons.mpr ⟨h.covers (.down step further), ih (All.child h hchild)⟩

theorem Fits.covers (h : n.Fits bound) (spot : Spot n) :
    (Span.mk 0 bound).covers spot.node.span = true :=
  covers_trans h.within (h.nested.covers spot.leads)

theorem Fits.mono (h : n.Fits bound) (le : bound ≤ bound') : n.Fits bound' :=
  ⟨h.nested, covers_trans (Span.covers_iff.mpr ⟨Nat.le_refl 0, le⟩) h.within⟩

theorem joins_text {text : Span} (h : n.span = Build.mergeAll text (n.children.map span)) :
    n.Joins [text] := by
  intro u
  rw [h, covers_mergeAll_iff]
  simp

theorem joins_children (below : n.children = first :: rest)
    (h : n.span = Build.mergeAll first.span (rest.map span)) : n.Joins [] := by
  intro u
  rw [h, below, covers_mergeAll_iff]
  simp

/-- **A node over the smallest span is nested** when the nodes below it are. -/
theorem Joins.fits (joins : n.Joins texts)
    (within : ∀ t ∈ texts, (Span.mk 0 bound).covers t = true)
    (fits : ∀ child ∈ n.children, child.Fits bound) : n.Fits bound := by
  refine ⟨all_iff.mpr ⟨?_, fun child hchild => (fits child hchild).nested⟩, ?_⟩
  · exact ((joins n.span).mp (covers_refl _)).2
  · exact (joins _).mpr ⟨within, fun child hchild => (fits child hchild).within⟩

theorem head_subset (n : Node) (rest : List Node) : [n] ⊆ n :: rest :=
  List.cons_subset.mpr ⟨List.mem_cons_self, List.nil_subset _⟩

end Node

/-! ### Calls -/

/-- **The calls that make a node** from nodes that exist. -/
inductive Call (nodes : List Node) : {α : Type} → (α → Node) → Build α → Prop where
  | int (value : Int64) : Call nodes .expr (.int value)
  | float (bits : UInt64) : Call nodes .expr (.float bits)
  | bool (value : Bool) : Call nodes .expr (.bool value)
  | str (value : String) : Call nodes .expr (.str value)
  | unit : Call nodes .expr .unit
  | localVar (id : LocalId) : Call nodes .expr (.localVar id)
  | paramVar (index : Nat) : Call nodes .expr (.paramVar index)
  | field (name : String) (ty : Ty) : Call nodes .expr (.field name ty)
  | binary (op : BinaryOp) (ty : Ty) {left right : Expr}
    (h : [.expr left, .expr right] ⊆ nodes) :
    Call nodes .expr (.binary op left right ty)
  | unary (op : UnaryOp) {operand : Expr} (h : [.expr operand] ⊆ nodes) :
    Call nodes .expr (.unary op operand)
  | callHost (name : String) (ty : Ty) {args : List Expr} (h : args.map .expr ⊆ nodes) :
    Call nodes .expr (.callHost name args ty)
  | callProcedure (name : String) (ty : Ty) {args : List Expr} (h : args.map .expr ⊆ nodes) :
    Call nodes .expr (.callProcedure name args ty)
  | callSync (name : String) (ty : Ty) {args : List Expr} (h : args.map .expr ⊆ nodes) :
    Call nodes .expr (.callSync name args ty)
  | primitive (p : Primitive) {args : List Expr} (h : args.map .expr ⊆ nodes) :
    Call nodes .expr (.primitive p args)
  | primitiveAs (p : Primitive) (ty : Ty) {args : List Expr} (h : args.map .expr ⊆ nodes) :
    Call nodes .expr (.primitiveAs p args ty)
  | delay (seconds : UInt64) : Call nodes .expr (.delay seconds)
  | delayFrames (frames : Int64) : Call nodes .expr (.delayFrames frames)
  | yieldFrame : Call nodes .expr .yieldFrame
  | lambda {body : List Stmt} (h : body.map .stmt ⊆ nodes) : Call nodes .expr (.lambda body)
  | suspend {operand : Expr} (h : [.expr operand] ⊆ nodes) :
    Call nodes .expr (.suspend operand)
  | exprStmt {e : Expr} (h : [.expr e] ⊆ nodes) : Call nodes .stmt (.exprStmt e)
  | suspendStmt {operand : Expr} (h : [.expr operand] ⊆ nodes) :
    Call nodes .stmt (.suspendStmt operand)
  | log (message : String) : Call nodes .stmt (.log message)
  | bindLocal (id : LocalId) {init : Expr} (h : [.expr init] ⊆ nodes) :
    Call nodes .stmt (.bindLocal id init)
  | introduceLocal (id : LocalId) : Call nodes .stmt (.introduceLocal id)
  | assign (target : Place) {value : Expr} (h : [.expr value] ⊆ nodes) :
    Call nodes .stmt (.assign target value)
  | branch {cond : Expr} {onTrue onFalse : List Stmt}
    (h : .expr cond :: (onTrue.map .stmt ++ onFalse.map .stmt) ⊆ nodes) :
      Call nodes .stmt (.branch cond onTrue onFalse)
  | loop {cond : Expr} {body : List Stmt} (h : .expr cond :: body.map .stmt ⊆ nodes) :
    Call nodes .stmt (.loop cond body)
  | breakLoop : Call nodes .stmt .breakLoop
  | continueLoop : Call nodes .stmt .continueLoop
  | leave : Call nodes .stmt .leave
  | ret {value : Expr} (h : [.expr value] ⊆ nodes) : Call nodes .stmt (.ret value)
  | goto (label : String) : Call nodes .stmt (.goto label)
  | label (label : String) : Call nodes .stmt (.label label)
  | yieldReturn {value : Expr} (h : [.expr value] ⊆ nodes) :
    Call nodes .stmt (.yieldReturn value)

/-- The calls that finish a procedure with nodes that exist. -/
inductive Finishes (nodes : List Node) : Build Procedure → Prop where
  | block {stmts : List Stmt} (h : stmts.map .stmt ⊆ nodes) :
    Finishes nodes (.finishBlock stmts)
  | expr {e : Expr} (h : [.expr e] ⊆ nodes) : Finishes nodes (.finishExpr e)

/-- **What a sequence of calls makes**, and whether the cursor was never set back.  The calls
that make no node declare a part of the signature, intern a name or set the cursor. -/
inductive Made : Builder → Bool → List Node → Prop where
  | start (pool : Pool) (name : String) : Made (.start pool name) true []
  | call {α : Type} {b b' : Builder} {forward : Bool} {nodes : List Node} {node : α → Node}
    {call : Build α} {a : α}
    (made : Made b forward nodes) (h : Call nodes node call) (run : call b = .ok (a, b')) :
    Made b' forward (node a :: nodes)
  | other {α : Type} {b b' : Builder} {forward : Bool} {nodes : List Node}
    {call : Build α} {a : α}
    (made : Made b forward nodes) (run : call b = .ok (a, b')) :
      Made b' (forward && b.cursor ≤ b'.cursor) nodes

/-! ### What a call makes -/

namespace Build

/-- A computation makes a node from parts and texts: where those fit, the node does. -/
def Makes {α : Type} (texts : List Span) (parts : List Node) (node : α → Node)
    (call : Build α) : Prop :=
  ∀ ⦃b : Builder⦄ ⦃a : α⦄ ⦃b' : Builder⦄, call b = .ok (a, b') → b.cursor ≤ b'.cursor ∧
    ∀ bound, b'.cursor ≤ bound → (∀ t ∈ texts, (Span.mk 0 bound).covers t = true) →
    (∀ n ∈ parts, n.Fits bound) →
      (node a).Fits bound

section

variable {α β : Type} {node : α → Node} {node' : β → Node}

theorem makes_storeExpr {span : Span} (joins : (Node.expr (make ⟨ty, span⟩)).Joins texts)
    (below : (Node.expr (make ⟨ty, span⟩)).children ⊆ parts) :
    Makes texts parts .expr (storeExpr make ty span) := by
  intro b e b' run
  obtain ⟨rfl, rfl⟩ := Prod.mk.inj (Except.ok.inj run)
  exact ⟨Nat.le_refl _, fun _ _ within fits => joins.fits within fun child hchild =>
    fits child (below hchild)⟩

theorem makes_storeStmt {make : StmtInfo → Stmt} {span : Span}
    (joins : ∀ id, (Node.stmt (make ⟨id, span⟩)).Joins texts)
    (below : ∀ id, (Node.stmt (make ⟨id, span⟩)).children ⊆ parts) :
    Makes texts parts .stmt (storeStmt make span) := by
  intro b s b' run
  obtain ⟨rfl, rfl⟩ := Prod.mk.inj (Except.ok.inj run)
  exact ⟨Nat.le_refl _, fun _ _ within fits => (joins _).fits within fun child hchild =>
    fits child (below _ hchild)⟩

/-- A text of its own starts at the cursor. -/
theorem makes_nextSpan {next : Span → Build α}
    (h : ∀ text, Makes [text] parts node (next text)) :
    Makes [] parts node (nextSpan >>= next) := by
  intro b a b' run
  obtain ⟨hle, hfits⟩ :=
    h _ (show next ⟨b.cursor, b.cursor + 1⟩ { b with cursor := b.cursor + 2 } = _ from run)
  dsimp only at hle
  refine ⟨by omega, fun bound hbound _ fits =>
    hfits bound hbound (List.forall_mem_singleton.mpr ?_) fits⟩
  rw [Span.covers_iff]
  dsimp only
  omega

theorem makes_intern {text : String} {next : Name → Build α}
    (h : ∀ n, Makes texts parts node (next n)) :
    Makes texts parts node (intern text >>= next) := by
  intro b a b' run
  have hnext : next _ { b with pool :=
    { b.pool with names := (b.pool.names.intern text).2 } } = .ok (a, b') := run
  exact ⟨(h _ hnext).1, (h _ hnext).2⟩

theorem makes_get {next : Builder → Build α} (h : ∀ b, Makes texts parts node (next b)) :
    Makes texts parts node (get >>= next) :=
  fun b _ _ run => h b run

theorem storeList_then {list : List β} {next : Build α} {b : Builder} {r : α × Builder}
    (run : (storeList list >>= fun _ => next) b = .ok r) : next b = .ok r := by
  change (storeList list b).bind _ = _ at run
  unfold storeList at run
  split at run
  · exact run
  · cases run

theorem makes_storeList {list : List β} {next : Build α} (h : Makes texts parts node next) :
    Makes texts parts node (storeList list >>= fun _ => next) :=
  fun _ _ _ run => h (storeList_then run)

/-- A node may be made from one that was made just before. -/
theorem Makes.bind {call : Build α} {next : α → Build β} (first : Makes [] parts node call)
    (second : ∀ a, Makes [] (node a :: parts) node' (next a)) :
    Makes [] parts node' (call >>= next) := by
  intro b a b' run
  change (call b).bind _ = _ at run
  cases hfirst : call b with
  | error e =>
    rw [hfirst] at run
    cases run
  | ok r =>
    rw [hfirst] at run
    obtain ⟨hle, hfits⟩ := first hfirst
    obtain ⟨hle', hfits'⟩ := second r.1 run
    exact ⟨Nat.le_trans hle hle', fun bound hbound within fits => hfits' bound hbound within
      (List.forall_mem_cons.mpr ⟨hfits bound (Nat.le_trans hle' hbound) within fits, fits⟩)⟩

end

theorem makes_leaf (below : ∀ info, (Node.expr (make info)).children = [])
    (spanned : ∀ info, (make info).span = info.span) :
    Makes [] parts .expr (leaf make ty) := by
  refine makes_nextSpan fun text => makes_storeExpr (Node.joins_text ?_) ?_
  · rw [below]
    exact spanned _
  · rw [below]
    exact List.nil_subset _

theorem makes_call {target : CallTarget} {args : List Expr} (h : args.map .expr ⊆ parts) :
    Makes [] parts .expr (call target args ty) := by
  refine makes_nextSpan fun text => makes_storeList (makes_storeExpr (Node.joins_text ?_) h)
  rw [Node.children, List.map_map]
  rfl

theorem makes_suspend {operand : Expr} (h : [.expr operand] ⊆ parts) :
    Makes [] parts .expr (suspend operand) :=
  makes_nextSpan fun _ => makes_storeExpr (Node.joins_text rfl) h

theorem makes_exprStmt {e : Expr} (h : [.expr e] ⊆ parts) :
    Makes [] parts .stmt (exprStmt e) :=
  makes_storeStmt (fun _ => Node.joins_children rfl rfl) fun _ => h

end Build

open Build

section

variable {nodes : List Node} {b b' : Builder} {forward : Bool}

/-- **Every call makes its node from its operands**, over the smallest span. -/
theorem Call.makes {α : Type} {node : α → Node} {call : Build α} (h : Call nodes node call) :
    Makes [] nodes node call := by
  cases h with
  | int | float | bool | unit => exact makes_leaf (fun _ => rfl) fun _ => rfl
  | str | field => exact makes_intern fun _ => makes_leaf (fun _ => rfl) fun _ => rfl
  | localVar | paramVar => exact makes_get fun _ => makes_leaf (fun _ => rfl) fun _ => rfl
  | binary op ty h | unary op h => exact makes_storeExpr (Node.joins_children rfl rfl) h
  | callHost name ty h | callProcedure name ty h | callSync name ty h =>
    exact makes_intern fun _ => makes_call h
  | primitive p h | primitiveAs p ty h => exact makes_call h
  | delay | delayFrames =>
    exact (makes_leaf (fun _ => rfl) fun _ => rfl).bind fun _ =>
      makes_call (Node.head_subset _ _)
  | yieldFrame => exact makes_call (List.nil_subset _)
  | @lambda body h =>
    refine makes_nextSpan fun text => makes_storeList (makes_storeExpr (Node.joins_text ?_) h)
    rw [Node.children, List.map_map]
    rfl
  | suspend h => exact makes_suspend h
  | exprStmt h => exact makes_exprStmt h
  | suspendStmt h =>
    exact (makes_suspend h).bind fun _ => makes_exprStmt (Node.head_subset _ _)
  | log message =>
    refine Makes.bind (makes_intern fun _ => makes_leaf (fun _ => rfl) fun _ => rfl)
      fun arg => ?_
    exact Makes.bind (makes_intern fun _ => makes_call (Node.head_subset _ _)) fun _ =>
      makes_exprStmt (Node.head_subset _ _)
  | bindLocal id h | assign target h | ret h | yieldReturn h =>
    exact makes_nextSpan fun _ => makes_storeStmt (fun _ => Node.joins_text rfl) fun _ => h
  | introduceLocal | breakLoop | continueLoop | leave =>
    exact makes_nextSpan fun _ => makes_storeStmt (fun _ => Node.joins_text rfl) fun _ =>
      List.nil_subset _
  | goto | label =>
    exact makes_nextSpan fun _ => makes_intern fun _ =>
      makes_storeStmt (fun _ => Node.joins_text rfl) fun _ => List.nil_subset _
  | branch h =>
    refine makes_storeList (makes_storeList
      (makes_storeStmt (fun id => Node.joins_children rfl ?_) fun id => h))
    rw [← List.map_append, List.map_map]
    rfl
  | loop h =>
    refine makes_storeList (makes_storeStmt
      (fun id => Node.joins_children rfl ?_) fun id => h)
    rw [List.map_map]
    rfl

/-- **All that a sequence of calls makes is nested**, and ends before the cursor unless
that was set back. -/
theorem Made.fits (made : Made b forward nodes) :
    ∃ reach, (∀ n ∈ nodes, n.Fits reach) ∧ (forward = true → reach ≤ b.cursor) := by
  induction made with
  | start => exact ⟨0, fun n hn => absurd hn List.not_mem_nil, fun _ => Nat.zero_le _⟩
  | @call α b b' forward nodes node call a made h run ih =>
    obtain ⟨reach, hfits, hreach⟩ := ih
    obtain ⟨hle, hmade⟩ := h.makes run
    have hnodes : ∀ n ∈ nodes, n.Fits (max reach b'.cursor) :=
      fun n hn => (hfits n hn).mono (Nat.le_max_left _ _)
    have hnode :=
      hmade _ (Nat.le_max_right _ _) (fun t ht => absurd ht List.not_mem_nil) hnodes
    exact ⟨_, List.forall_mem_cons.mpr ⟨hnode, hnodes⟩, fun hforward =>
      Nat.max_le.mpr ⟨Nat.le_trans (hreach hforward) hle, Nat.le_refl _⟩⟩
  | other made run ih =>
    obtain ⟨reach, hfits, hreach⟩ := ih
    refine ⟨reach, hfits, fun hforward => ?_⟩
    obtain ⟨hbefore, hle⟩ := Bool.and_eq_true_iff.mp hforward
    exact Nat.le_trans (hreach hbefore) (of_decide_eq_true hle)

/-- A finished procedure has the given body, and reaches to the cursor. -/
theorem Finishes.finished {call : Build Procedure} (h : Finishes nodes call)
    (run : call b = .ok (p, b')) :
    (∀ s ∈ p.stmts, .stmt s ∈ nodes) ∧ p.span = ⟨0, b.cursor⟩ := by
  cases h with
  | block h =>
    obtain ⟨rfl, rfl⟩ := Prod.mk.inj (Except.ok.inj (storeList_then run))
    exact ⟨fun s hs => h (List.mem_map_of_mem hs), rfl⟩
  | expr h =>
    obtain ⟨rfl, rfl⟩ := Prod.mk.inj (Except.ok.inj run)
    exact ⟨fun s hs => absurd hs List.not_mem_nil, rfl⟩

end

end Bound

open Resumable.Bound (Build Builder Expr Finishes Made Node Procedure Spot Stmt)

/-! ### Reports -/

/-- Is the span that of the closure, or of the branch or loop, around a construct? -/
def Surroundings.Names (c : Surroundings) (span : Span) : Prop :=
  c.closure = some span ∨ ∃ construct, c.control = some (construct, span)

theorem Surroundings.names_enter {span : Span} (h : (c.enter n).Names span) :
    c.Names span ∨ n.span = span := by
  cases n with
  | expr e =>
    cases e with
    | lambda info body => exact h.symm.imp Or.inr Option.some.inj
    | _ => exact Or.inl h
  | stmt s =>
    cases s with
    | branch info | loop info =>
      rcases h with h | ⟨construct, h⟩
      · exact Or.inl (Or.inl h)
      · rcases Option.or_eq_some_iff.mp h with h | ⟨-, h⟩
        · exact Or.inl (Or.inr ⟨construct, h⟩)
        · exact Or.inr (Prod.mk.inj (Option.some.inj h)).2
    | _ => exact Or.inl h

/-- What stands around a node was passed on the way to it. -/
theorem Surroundings.exists_of_names {span : Span}
    (h : (above.foldl enter c).Names span) : c.Names span ∨ ∃ a ∈ above, a.span = span := by
  induction above generalizing c with
  | nil => exact Or.inl h
  | cons a rest ih =>
    rcases ih h with h | ⟨b, hb, hspan⟩
    · exact (names_enter h).imp_right fun hspan => ⟨a, List.mem_cons_self, hspan⟩
    · exact Or.inr ⟨b, List.mem_cons_of_mem _ hb, hspan⟩

/-- Does the construct that a report names beside a suspension cover it?  An early return and
the suspension behind it are both inside the whole. -/
def Problem.Nests (whole : Span) : Problem → Prop
  | .suspendInClosure suspend outer | .suspendInControlFlow suspend _ outer =>
    outer.covers suspend = true
  | .earlyReturn ret last => whole.covers ret = true ∧ whole.covers last = true
  | _ => True

section

variable {names : NameTable} {bound : Nat} {problem : Problem}

theorem Bound.Node.Nested.covers_named (nested : n.Nested) (spot : Spot n) {span : Span}
    (h : (spot.around .top).Names span) : span.covers spot.node.span = true := by
  rcases Surroundings.exists_of_names h with h | ⟨a, ha, rfl⟩
  · simp [Surroundings.Names, Surroundings.top] at h
  · exact nested.covers_above spot.leads a ha

/-- **What is reported of nested statements** nests. -/
theorem nests_of_mem_shapeProblems (fits : ∀ s ∈ p.stmts, (Node.stmt s).Fits bound)
    (hmem : problem ∈ shapeProblems names p) : problem.Nests ⟨0, bound⟩ := by
  rcases shapeProblems_cases hmem with h | ⟨e, -, rfl⟩ | ⟨s, hs, h⟩ | h | h
  · unfold cancellationProblems at h
    grind [Problem.Nests]
  · trivial
  · rcases List.mem_append.mp h with h | h
    · obtain ⟨f, hf, hproblem⟩ := List.mem_filterMap.mp h
      obtain ⟨spot, hspot⟩ := exists_gives hf
      have hnested := (fits s hs).nested
      cases hspot with
      | inLambda _ _ _ named =>
        obtain rfl := Option.some.inj hproblem
        exact hnested.covers_named spot (Or.inl named)
      | inControl _ _ _ _ _ named =>
        obtain rfl := Option.some.inj hproblem
        exact hnested.covers_named spot (Or.inr ⟨_, named⟩)
      | jump | stray =>
        obtain rfl := Option.some.inj hproblem
        trivial
      | value | buried | ret | yield => cases hproblem
    · unfold placementProblems at h
      grind [Problem.Nests]
  · obtain ⟨i, j, s, t, hs, ht, -, spot, other, -, -, -, -, rfl⟩ :=
      exists_of_mem_returnProblems h
    exact ⟨(fits s (List.mem_of_getElem? hs)).covers spot,
      (fits t (List.mem_of_getElem? ht)).covers other⟩
  · obtain ⟨-, -, -, -, -, ⟨suspend, rfl⟩, -⟩ := exists_of_mem_generatorProblems h
    trivial

end

/-- **Spans of what is built nest.**  Whatever was called, every node that was made
covers what is directly below it, and what is reported of a finished procedure names
closures and constructs that cover the suspension in them.  When the cursor was never
set back, the procedure covers all nodes that were made, and an early return and the
suspension behind it. -/
theorem spans_of_built_nest {b : Builder} {forward : Bool} {nodes : List Node}
    (made : Made b forward nodes) :
    (∀ n ∈ nodes, n.Nested) ∧
      ∀ (call : Build Procedure) (p : Procedure) (b' : Builder) (names : NameTable),
        Finishes nodes call → call b = .ok (p, b') →
        (∀ suspend closure, .suspendInClosure suspend closure ∈ shapeProblems names p →
          closure.covers suspend = true) ∧
        (∀ suspend construct span,
          .suspendInControlFlow suspend construct span ∈ shapeProblems names p →
            span.covers suspend = true) ∧
        (forward = true →
          (∀ n ∈ nodes, ∀ spot : Spot n, p.span.covers spot.node.span = true) ∧
          ∀ ret last, .earlyReturn ret last ∈ shapeProblems names p →
            p.span.covers ret = true ∧ p.span.covers last = true) := by
  obtain ⟨reach, hfits, hreach⟩ := made.fits
  refine ⟨fun n hn => (hfits n hn).nested, fun call p b' names hfinishes run => ?_⟩
  obtain ⟨hbody, hspan⟩ := hfinishes.finished run
  have hnests : ∀ {bound : Nat}, (∀ n ∈ nodes, n.Fits bound) →
    ∀ problem ∈ shapeProblems names p,
      problem.Nests ⟨0, bound⟩ :=
        fun hfits _ => nests_of_mem_shapeProblems fun s hs => hfits _ (hbody s hs)
  refine ⟨fun _ _ h => hnests hfits _ h, fun _ _ _ h => hnests hfits _ h, fun hforward => ?_⟩
  have hfits := fun n hn => (hfits n hn).mono (hreach hforward)
  rw [hspan]
  exact ⟨fun n hn spot => (hfits n hn).covers spot, fun _ _ h => hnests hfits _ h⟩

namespace Enclosed

/-- Wait for the next frame. -/
def wait : Expr := .call ⟨.deferred .unit, ⟨0, 1⟩⟩ (.primitive .yield) []

/-- Suspend on it. -/
def pause : Stmt := .expr ⟨0, ⟨0, 3⟩⟩ (.suspend ⟨.unit, ⟨0, 3⟩⟩ wait)

/-- A closure that suspends. -/
def closure : Expr := .lambda ⟨.closure, ⟨0, 5⟩⟩ [pause]

/-- What is made of the closure. -/
def nodes : List Node :=
  [.stmt (.expr ⟨1, ⟨0, 5⟩⟩ closure), .expr closure, .stmt pause, .expr wait]

end Enclosed

open Enclosed in
/-- **A closure that suspends** is reported with a span that covers the suspension. -/
theorem enclosed_nests :
    ∃ b p b', Made b true nodes ∧
      Build.finishBlock [.expr ⟨1, ⟨0, 5⟩⟩ closure] b = .ok (p, b') ∧
      .suspendInClosure ⟨0, 3⟩ ⟨0, 5⟩ ∈ shapeProblems .empty p ∧
      (Span.mk 0 5).covers ⟨0, 3⟩ = true ∧ p.span.covers closure.span = true := by
  have hwait : Made _ true [.expr wait] := .call (.start .empty "Enclosed") .yieldFrame rfl
  have hpause : Made _ true [.stmt pause, .expr wait] :=
    .call hwait (.suspendStmt (Node.head_subset _ _)) rfl
  have hbody : [pause].map Node.stmt ⊆ [.stmt pause, .expr wait] := Node.head_subset _ _
  have hclosure : Made _ true [.expr closure, .stmt pause, .expr wait] :=
    .call hpause (.lambda hbody) rfl
  have hmade : Made _ true nodes := .call hclosure (.exprStmt (Node.head_subset _ _)) rfl
  have hblock : [.expr ⟨1, ⟨0, 5⟩⟩ closure].map Node.stmt ⊆ nodes := Node.head_subset _ _
  obtain ⟨hclosures, -, hforward⟩ :=
    (spans_of_built_nest hmade).2 _ _ _ .empty (.block hblock) rfl
  exact ⟨_, _, _, hmade, rfl, by decide +kernel, hclosures _ _ (by decide +kernel),
    (hforward rfl).1 _ (List.mem_cons_of_mem _ List.mem_cons_self) (.start _)⟩

namespace SetBack

/-- Return before anything is done. -/
def leave : Stmt := .leave ⟨0, ⟨100, 101⟩⟩

/-- Wait for the next frame. -/
def wait : Expr := .call ⟨.deferred .unit, ⟨102, 103⟩⟩ (.primitive .yield) []

/-- Suspend on it. -/
def pause : Stmt := .expr ⟨1, ⟨102, 105⟩⟩ (.suspend ⟨.unit, ⟨102, 105⟩⟩ wait)

/-- What is made while the cursor is far ahead. -/
def nodes : List Node := [.stmt pause, .expr wait, .stmt leave]

end SetBack

open SetBack in
/-- **A procedure does not cover what was built before its cursor was set back**: the spans
that an early return is reported with are both outside. -/
theorem set_back_uncovers :
    ∃ b p b', Made b false nodes ∧ Finishes nodes (.finishBlock [leave, pause]) ∧
    Build.finishBlock [leave, pause] b = .ok (p, b') ∧ p.span = ⟨0, 0⟩ ∧
    .earlyReturn ⟨100, 101⟩ ⟨102, 105⟩ ∈ shapeProblems .empty p ∧
      p.span.covers ⟨100, 101⟩ = false ∧ p.span.covers ⟨102, 105⟩ = false := by
  have hahead : Made _ true [] :=
    .other (.start .empty "SetBack") (show Build.atOffset 100 _ = _ from rfl)
  have hleave : Made _ true [.stmt leave] := .call hahead .leave rfl
  have hwait : Made _ true [.expr wait, .stmt leave] := .call hleave .yieldFrame rfl
  have hpause : Made _ true nodes := .call hwait (.suspendStmt (Node.head_subset _ _)) rfl
  have hback : Made _ false nodes := .other hpause (show Build.atOffset 0 _ = _ from rfl)
  have hblock : [leave, pause].map Node.stmt ⊆ nodes := by simp [nodes]
  exact ⟨_, _, _, hback, .block hblock, rfl, rfl, by decide +kernel, by decide, by decide⟩

end Resumable
