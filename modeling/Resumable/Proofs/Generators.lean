import Resumable.Proofs.Segmentable

/-!
# Generators have no slotted form

The rules on shape and the code with slots are two readings of the same body.  What the rules
let through should have a slotted form, and where it has none, lowering reports a problem of
its own and not one of the procedure.

**The two readings differ on generators, and on nothing else.**  A yield has no slotted form,
but the rules object to it only where it stands beside a suspension and outside closures.  So
a procedure that yields and never suspends passes the rules and fails with an internal error,
and so does one with a yield in a closure.  A procedure without yields never fails this way,
whatever else is wrong with it.

## Main definitions

* `Bound.Procedure.yields`: the yields of a body, those in closures included.
* `yieldProblem`: the internal error that a yield gives rise to.

## Main statements

* `Bound.Node.strays_eq_yields`: without suspensions and jumps, only yields
  have no slotted form.
* `internal_only_at_yields`: every internal error that lowering reports is at a yield.
* `noneInternal_of_no_yields`: a procedure without yields gives rise to none.
* `segments_of_generator`: a generator that passes the rules has one for each yield.
-/

namespace Resumable

variable {stmts : List Stmt} {s : Stmt} {span : Span} {info : ExprInfo} {operand : Expr}
  {names : NameTable} {p : Procedure} {problems : List Problem} {problem : Problem}
  {which : Primitive} {args : List Expr} {points : List SuspensionPoint} {namer : SlotNamer}
  {hoisted : List Hoisted} {q : SuspensionPoint}

namespace Bound

mutual

/-- The yields in an expression, in closures.  What a yield hands out is not looked into. -/
def Expr.yields : Expr → List Span
  | .int .. | .float .. | .bool .. | .str .. | .unit ..
  | .localVar .. | .param .. | .field .. | .error .. => []
  | .binary _ _ left right => left.yields ++ right.yields
  | .unary _ _ operand | .suspend _ operand => operand.yields
  | .call _ _ args => yieldsOfArgs args
  | .lambda _ body => yieldsOf body

/-- The yields in arguments. -/
def yieldsOfArgs : List Expr → List Span
  | [] => []
  | e :: rest => e.yields ++ yieldsOfArgs rest

/-- The yields in a statement. -/
def Stmt.yields : Stmt → List Span
  | .expr _ e | .bind _ _ e | .assign _ _ e | .ret _ e => e.yields
  | .branch _ cond onTrue onFalse => cond.yields ++ yieldsOf onTrue ++ yieldsOf onFalse
  | .loop _ cond body => cond.yields ++ yieldsOf body
  | .yield info _ => [info.span]
  | .declare .. | .breakLoop _ | .continueLoop _ | .leave _ | .goto .. | .label .. => []

/-- The yields in statements. -/
def yieldsOf : List Stmt → List Span
  | [] => []
  | s :: rest => s.yields ++ yieldsOf rest

end

/-- The yields in the body of a procedure. -/
def Procedure.yields (p : Procedure) : List Span :=
  match p.body with
  | .block stmts => yieldsOf stmts
  | .expr value => value.yields

theorem yieldsOf_eq_flatMap (stmts : List Stmt) :
    yieldsOf stmts = stmts.flatMap Stmt.yields := by
  induction stmts with
  | nil => rfl
  | cons s rest ih => rw [yieldsOf, ih, List.flatMap_cons]

theorem yieldsOfArgs_eq_flatMap (args : List Expr) :
    yieldsOfArgs args = args.flatMap Expr.yields := by
  induction args with
  | nil => rfl
  | cons e rest ih => rw [yieldsOfArgs, ih, List.flatMap_cons]

/-- The yields in a tree. -/
def Node.yields : Node → List Span
  | .expr e => e.yields
  | .stmt s => s.yields

theorem mem_yieldsOf (hs : s ∈ stmts) (h : span ∈ s.yields) : span ∈ yieldsOf stmts := by
  rw [yieldsOf_eq_flatMap]
  exact List.mem_flatMap_of_mem hs h

end Bound

open Resumable.Bound (Expr Node Procedure Spot Stmt yieldsOf)

/-- The internal error that a yield gives rise to. -/
def yieldProblem (span : Span) : Problem :=
  .internalError "unstructured statement reached the segmenter" span

/-! ### What has no slotted form -/

namespace Bound.Node

/-- Is there neither a suspension nor a jump in the tree? -/
def IsStill (n : Node) : Prop := n.All fun m => m.isSuspend = false ∧ m.isJump = false

theorem yields_eq (n : Node) :
    n.isYield = true ∧ n.yields = [n.span] ∧ n.strays = [yieldProblem n.span] ∨
    n.isYield = false ∧ n.yields = n.children.flatMap yields := by
  cases n with
  | expr e =>
    cases e <;> simp [yields, Expr.yields, isYield, children,
      yieldsOfArgs_eq_flatMap, yieldsOf_eq_flatMap, List.flatMap_map]
  | stmt s =>
    cases s <;> simp [yields, Stmt.yields, isYield, children, yieldsOf_eq_flatMap,
      List.flatMap_map, strays, stmtStrays, yieldProblem, span, Stmt.span, Stmt.info]

/-- **Without suspensions and jumps, only yields have no slotted form.** -/
theorem strays_eq_yields {n : Node} (h : n.IsStill) :
    n.strays = n.yields.map yieldProblem := by
  induction n using induct with
  | step n ih =>
    obtain ⟨hsuspend, hjump⟩ := h (.start n)
    obtain ⟨-, hyields, hstrays⟩ | ⟨hyield, hyields⟩ := n.yields_eq
    · rw [hyields, hstrays]
      rfl
    · obtain ⟨hstray, -⟩ | ⟨-, hstrays⟩ := n.strays_eq
      · simp_all [Spot.start]
      · rw [hyields, hstrays, List.map_flatMap]
        exact List.flatMap_congr fun child hchild => ih child hchild (All.child h hchild)

end Bound.Node

/-! ### Statements that pass the rules -/

/-- A statement whose value is a suspension suspends. -/
theorem suspensionOf_of_isValue {spot : Spot (.stmt s)} (value : spot.IsValue)
    (suspend : spot.node.isSuspend = true) : suspensionOf s ≠ none := by
  obtain ⟨path, above, node, leads⟩ := spot
  obtain ⟨rfl, htakes⟩ := value
  cases leads with
  | down step further =>
    cases further
    cases s with
    | expr _ e | bind _ _ e | assign _ _ e =>
      obtain rfl := List.mem_singleton.mp (List.mem_of_getElem? step)
      cases e with
      | suspend => exact Option.some_ne_none _
      | _ => cases suspend
    | _ => cases htakes

section

variable (h : s.Segmentable)

include h

/-- **What does not suspend and passes the rules** has neither suspensions nor jumps. -/
theorem isStill_of_plain (plain : suspensionOf s = none) : (Node.stmt s).IsStill := by
  refine fun spot => ⟨Bool.eq_false_iff.mpr fun hsuspend => ?_, h.structured spot⟩
  exact suspensionOf_of_isValue (h.wholeValue spot hsuspend) hsuspend plain

/-- **Nor has the operand of what suspends.** -/
theorem isStill_of_suspends (suspends : suspensionOf s = some (info, operand)) :
    (Node.expr operand).IsStill := by
  intro spot
  -- Below the operand, what stands around is more than the statement.
  obtain ⟨deep, hnode, hdeep⟩ : ∃ deep : Spot (.stmt s),
    deep.node = spot.node ∧ ¬ deep.IsValue := by
    cases suspending_of_suspensionOf suspends
    all_goals exact ⟨(spot.inChild (k := 0) rfl).inChild (k := 0) rfl, rfl, fun value => by
      cases value.1⟩
  rw [← hnode]
  exact ⟨Bool.eq_false_iff.mpr fun hsuspend =>
    hdeep (h.wholeValue deep hsuspend), h.structured deep⟩

end

/-! ### Problems of the other steps -/

/-- Lowering does not blame itself for these. -/
def NoneInternal (problems : List Problem) : Prop :=
  ∀ problem ∈ problems, problem.code ≠ .internalError

section

variable {rest : List Problem}

@[simp] theorem noneInternal_nil : NoneInternal [] := fun _ h => absurd h List.not_mem_nil

@[simp] theorem noneInternal_cons :
    NoneInternal (problem :: rest) ↔ problem.code ≠ .internalError ∧ NoneInternal rest :=
  List.forall_mem_cons

@[simp] theorem noneInternal_map {α : Type} {f : α → Problem} {as : List α} :
    NoneInternal (as.map f) ↔ ∀ a ∈ as, (f a).code ≠ .internalError := List.forall_mem_map

@[simp] theorem noneInternal_flatMap {α : Type} {f : α → List Problem} {as : List α} :
    NoneInternal (as.flatMap f) ↔ ∀ a ∈ as, NoneInternal (f a) := List.forall_mem_flatMap

/-- **The rules on shape** report no internal error. -/
theorem noneInternal_shapeProblems : NoneInternal (shapeProblems names p) := by
  intro problem hproblem internal
  have hbreaks := breaks_of_mem_shapeProblems hproblem
  rw [internal] at hbreaks
  exact hbreaks

theorem noneInternal_classifyTimed {make : Expr → SuspensionKind}
    (h : classifyTimed names which make args span = .error problems) :
    NoneInternal problems := by
  unfold classifyTimed at h
  repeat' split at h
  all_goals cases h
  all_goals simp [Problem.code]

theorem noneInternal_classifyJoin {make : List Expr → SuspensionKind}
    (h : classifyJoin names which make args span = .error problems) :
    NoneInternal problems := by
  unfold classifyJoin at h
  dsimp only at h
  repeat' split at h
  all_goals cases h
  all_goals simp [Problem.code]

/-- Reading an operand makes no internal report. -/
theorem noneInternal_classify (h : classify names operand = .error problems) :
    NoneInternal problems := by
  unfold classify at h
  split at h
  case h_1 info which args =>
    split at h
    case h_1 => cases h
    case h_2 problems' hprimitive =>
      obtain rfl := Except.error.inj h
      cases which with
      | delay | delayFrames => exact noneInternal_classifyTimed hprimitive
      | whenAll | whenAny => exact noneInternal_classifyJoin hprimitive
      | yield =>
        unfold classifyPrimitive at hprimitive
        dsimp only at hprimitive
        split at hprimitive
        all_goals cases hprimitive
        simp [Problem.code]
  case h_2 =>
    split at h
    all_goals cases h
    simp [Problem.code]

theorem noneInternal_point {site : SuspensionSite} {index : Nat}
    (h : site.point names p index = .error problems) : NoneInternal problems := by
  unfold SuspensionSite.point at h
  split at h
  case h_1 problems' hclassify =>
    obtain rfl := Except.error.inj h
    exact noneInternal_classify hclassify
  case h_2 =>
    dsimp only at h
    repeat' split at h
    all_goals cases h
    simp [Problem.code]

/-- **Finding the suspension points** reports none. -/
theorem noneInternal_suspensionPoints (h : suspensionPoints names p = .error problems) :
    NoneInternal problems := by
  unfold suspensionPoints gather at h
  dsimp only at h
  split at h
  · cases h
  · obtain rfl := Except.error.inj h
    refine noneInternal_flatMap.mpr fun r hr => ?_
    obtain ⟨index, hindex, rfl⟩ := List.mem_mapIdx.mp hr
    split
    · exact noneInternal_nil
    · next problems hpoint => exact noneInternal_point hpoint

theorem noneInternal_nameSlots (namer : SlotNamer) (vs : List Variable) :
    NoneInternal (nameSlots namer vs).1 := by
  induction vs generalizing namer with
  | nil => exact noneInternal_nil
  | cons v rest ih =>
    unfold nameSlots
    split <;> simp [ih, Problem.code]

/-- **Hoisting** reports none. -/
theorem noneInternal_hoist {mode : LivenessMode}
    (h : (hoist p points mode namer).1 = .error problems) : NoneInternal problems := by
  unfold hoist at h
  dsimp only at h
  split at h
  all_goals cases h
  exact noneInternal_nameSlots _ _

/-- **Laying out slots** reports none. -/
theorem noneInternal_layOut {books : BookkeepingNames}
    (h : (layOut p points hoisted books namer).1 = .error problems) :
    NoneInternal problems := by
  unfold layOut at h
  dsimp only at h
  split at h
  all_goals cases h
  simp [Problem.code]

end

/-! ### Segments -/

theorem PartOf.yields {e : Expr} (h : PartOf e operand) (hspan : span ∈ e.yields) :
    span ∈ operand.yields := by
  rcases h with rfl | ⟨info, which, args, rfl, he⟩
  · exact hspan
  · rw [Expr.yields, Bound.yieldsOfArgs_eq_flatMap]
    exact List.mem_flatMap_of_mem he hspan

theorem yields_of_suspensionOf (h : suspensionOf s = some (info, operand)) :
    s.yields = operand.yields := by
  cases suspending_of_suspensionOf h <;> rfl

/-- What the steps before the segments have settled. -/
structure Prepared (names : NameTable) (p : Procedure) (points : List SuspensionPoint)
    (hoisted : List Hoisted) (l : SlotLayout) : Prop where
  shape : shapeProblems names p = []
  found : suspensionPoints names p = .ok points
  laidOut : LaidOut p points hoisted l

namespace Prepared

variable {l : SlotLayout}

variable (h : Prepared names p points hoisted l)

include h

/-- **A point has a slot for each task that it awaits**, so no slot is missing. -/
theorem length_awaits (hq : q ∈ points) :
    (l.awaits q.index).length = q.kind.awaited.length := by
  obtain ⟨k, hk⟩ := List.getElem?_of_mem hq
  rw [index_of_points h.found hk]
  exact h.laidOut.length_awaits (fun _ _ => index_of_points h.found) hk

/-- **What closes a segment** has no slotted form only at yields. -/
theorem closingStrays_yields (hq : q ∈ points) (hproblem : problem ∈ closingStrays l q) :
    ∃ span ∈ yieldsOf p.stmts, problem = yieldProblem span := by
  rw [closingStrays_eq (h.length_awaits hq)] at hproblem
  obtain ⟨e, he, hstray⟩ := List.mem_flatMap.mp hproblem
  obtain ⟨site, i, gives, hstmt, hsuspends⟩ := site_of_mem h.found hq
  have hpart := gives.kind.partOf he
  have hstill := isStill_of_suspends (segmentable_of_stmtProblems
    (stmtProblems_of_shape h.shape hstmt)) hsuspends
  rw [show exprStrays e = _ from Node.strays_eq_yields (hpart.all hstill)] at hstray
  obtain ⟨span, hspan, rfl⟩ := List.mem_map.mp hstray
  refine ⟨span, Bound.mem_yieldsOf hstmt ?_, rfl⟩
  rw [yields_of_suspensionOf hsuspends]
  exact hpart.yields hspan

/-- **A stretch** has no slotted form only at yields. -/
theorem strays_yields {st : Stretch} (hst : st ∈ cut p.stmts points)
    (hproblem : problem ∈ st.strays l) :
    ∃ span ∈ yieldsOf p.stmts, problem = yieldProblem span := by
  have hsliced := cut_sliced h.found
  rcases List.mem_append.mp hproblem with hstray | hclosing
  · rw [blockStrays_eq_flatMap] at hstray
    obtain ⟨s, hs, hstray⟩ := List.mem_flatMap.mp hstray
    obtain ⟨hmem, hnone⟩ := hsliced.mem_stmts hst hs
    have hsegmentable := segmentable_of_stmtProblems (stmtProblems_of_shape h.shape hmem)
    rw [show stmtStrays s = _ from Node.strays_eq_yields
      (isStill_of_plain hsegmentable hnone)] at hstray
    obtain ⟨span, hspan, rfl⟩ := List.mem_map.mp hstray
    exact ⟨span, Bound.mem_yieldsOf hmem hspan, rfl⟩
  · obtain ⟨i, hi⟩ := List.getElem?_of_mem hst
    have hpoint := (hsliced.between hi).2
    cases hq : points[i]? with
    | none =>
      rw [hpoint, hq] at hclosing
      cases hclosing
    | some q =>
      rw [hpoint, hq] at hclosing
      -- The point that is looked up may be another one, but it is one of the body.
      exact h.closingStrays_yields (pointOfStmt_mem (List.mem_of_getElem? hq)) hclosing

/-- **Cutting segments** fails only at yields. -/
theorem segments_yields (hsegments : segments p points l = .error problems)
    (hproblem : problem ∈ problems) : ∃ span ∈ p.yields, problem = yieldProblem span := by
  have hyields : p.yields = yieldsOf p.stmts := by
    rw [Procedure.yields, block_of_shape h.shape]
  unfold segments at hsegments
  rw [block_of_shape h.shape] at hsegments
  dsimp only at hsegments
  split at hsegments
  · cases hsegments
  · obtain rfl := Except.error.inj hsegments
    obtain ⟨st, hst, hstray⟩ := List.mem_flatMap.mp hproblem
    rw [hyields]
    exact h.strays_yields hst hstray

end Prepared

/-! ### Lowering -/

section

variable {options : LowerOptions} {names' : NameTable} {failure : LowerFailure}

/-- A lowering that failed did so in its steps. -/
theorem steps_of_failed
    (h : lowerProcedure options p names = (.error (.failed failure), names')) :
    (lowerSteps options p names).1 = .error failure.problems := by
  unfold lowerProcedure at h
  split at h
  case h_1 problems names'' hsteps =>
    obtain ⟨hfailure, -⟩ := Prod.mk.inj h
    rw [hsteps, ← LowerError.failed.inj (Except.error.inj hfailure)]
  case h_2 =>
    split at h
    · cases (Prod.mk.inj h).1
    · cases (Prod.mk.inj h).1

/-- Once the suspension points are found, an internal error is at a yield. -/
theorem yields_of_lowerPoints (shape : shapeProblems names p = [])
    (found : suspensionPoints names p = .ok points)
    (h : (lowerPoints options p points names).1 = .error problems)
    (hproblem : problem ∈ problems) (internal : problem.code = .internalError) :
    ∃ span ∈ p.yields, problem = yieldProblem span := by
  unfold lowerPoints at h
  dsimp only at h
  split at h
  case h_1 hhoist =>
    obtain rfl := Except.error.inj h
    exact absurd internal (noneInternal_hoist hhoist problem hproblem)
  case h_2 hoisted hhoist =>
    split at h
    case h_1 hlayout =>
      obtain rfl := Except.error.inj h
      exact absurd internal (noneInternal_layOut hlayout problem hproblem)
    case h_2 l hlayout =>
      split at h
      case h_1 hsegments =>
        obtain rfl := Except.error.inj h
        have prepared : Prepared names p points hoisted l :=
          ⟨shape, found, laidOut_of_layOut (Prod.ext hlayout rfl)⟩
        exact prepared.segments_yields hsegments hproblem
      case h_2 => cases h

variable (h : lowerProcedure options p names = (.error (.failed failure), names'))

include h

/-- **Every internal error is at a yield**: whatever is wrong with a procedure, lowering
blames itself only for yields in the body, those in closures included. -/
theorem internal_only_at_yields (hproblem : problem ∈ failure.problems)
    (internal : problem.code = .internalError) :
    ∃ span ∈ p.yields, problem = yieldProblem span := by
  have hsteps := steps_of_failed h
  unfold lowerSteps at hsteps
  dsimp only at hsteps
  split at hsteps
  case isFalse =>
    have hproblems := Except.error.inj hsteps
    exact absurd internal (noneInternal_shapeProblems problem (hproblems ▸ hproblem))
  case isTrue hshape =>
    split at hsteps
    case h_1 hpoints =>
      obtain rfl := Except.error.inj hsteps
      exact absurd internal (noneInternal_suspensionPoints hpoints problem hproblem)
    case h_2 points hpoints =>
      exact yields_of_lowerPoints (List.isEmpty_iff.mp hshape) hpoints
        hsteps hproblem internal

/-- **Without yields there is no internal error.** -/
theorem noneInternal_of_no_yields (none : p.yields = []) : NoneInternal failure.problems := by
  intro problem hproblem internal
  obtain ⟨span, hspan, -⟩ := internal_only_at_yields h hproblem internal
  rw [none] at hspan
  cases hspan

end

/-! ### Generators that pass the rules -/

theorem suspensionOf_eq_none (shape : shapeProblems names p = []) (still : p.suspensions = 0)
    (hs : s ∈ p.stmts) : suspensionOf s = none := by
  have hnone : Bound.suspensionsOf p.stmts = 0 := by
    rw [← still, Procedure.suspensions, block_of_shape shape]
  rw [Bound.suspensionsOf_eq_sum, List.sum_eq_zero_iff_forall_eq_nat,
    List.forall_mem_map] at hnone
  rw [← Option.not_isSome_iff_eq_none]
  intro hsuspends
  have hone := suspensions_eq_one (stmtProblems_of_shape shape hs) hsuspends
  rw [hnone s hs] at hone
  cases hone

theorem suspensionPoints_of_still (shape : shapeProblems names p = [])
    (still : p.suspensions = 0) : suspensionPoints names p = .ok [] := by
  have hsites : suspensionSites p.stmts = [] := by
    refine List.eq_nil_iff_forall_not_mem.mpr fun site hsite => ?_
    obtain ⟨hstmt, hsuspends⟩ := suspends_of_mem_suspensionSites hsite
    rw [suspensionOf_eq_none shape still hstmt] at hsuspends
    cases hsuspends
  rw [suspensionPoints, hsites]
  rfl

/-- **A generator that passes the rules** fails at each of its yields: it never suspends, so
the rule on generators has nothing to object to. -/
theorem segments_of_generator (l : SlotLayout) (shape : shapeProblems names p = [])
    (still : p.suspensions = 0) (yields : p.yields ≠ []) :
    suspensionPoints names p = .ok [] ∧
      segments p [] l = .error (p.yields.map yieldProblem) := by
  refine ⟨suspensionPoints_of_still shape still, ?_⟩
  have hplain : blockStrays p.stmts = (yieldsOf p.stmts).map yieldProblem := by
    rw [blockStrays_eq_flatMap, Bound.yieldsOf_eq_flatMap, List.map_flatMap]
    exact List.flatMap_congr fun s hs => Node.strays_eq_yields (isStill_of_plain
      (segmentable_of_stmtProblems (stmtProblems_of_shape shape hs))
        (suspensionOf_eq_none shape still hs))
  -- Without points the body is one stretch, which ends without suspending.
  have hstrays : (cut p.stmts []).flatMap (Stretch.strays l) =
    (yieldsOf p.stmts).map yieldProblem := by
    rw [← hplain]
    simp [cut, cutFrom, Stretch.strays]
  rw [Procedure.yields, block_of_shape shape] at yields ⊢
  unfold segments
  rw [block_of_shape shape]
  dsimp only
  rw [hstrays, if_neg]
  simpa using yields

end Resumable
