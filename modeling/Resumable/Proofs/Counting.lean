import Mathlib.Algebra.Ring.Nat
import Resumable.Proofs.CallBack
import Resumable.Proofs.Occurrence
import Resumable.Proofs.Validity

/-!
# One state more than suspensions

A suspension is an expression, and could stand wherever one can: in an argument, below a
branch, in a closure, in the operand of another suspension.  Lowering accepts none of these,
and every suspension that it does accept starts a state.  So **a machine has one state more
than its body has suspensions**, wherever in the body one looks for them, and the arms of its
dispatch are numbered by these states.

Both halves go through what lowering has seen of the body.  The findings of a statement have
one suspension for each of its suspensions, whatever stands around them, and a statement
without problems has at most one.  The statements between the points have a slotted form, and
a suspension has none.

## Main definitions

* `Bound.Procedure.suspensions`: the number of suspensions in a body.

## Main statements

* `Bound.Node.countP_findings`: no suspension is overlooked, and none is found twice.
* `Sliced.suspensionsOf_eq`: a body that is cut has one suspension for each point.
* `lowerProcedure_accepted`: a machine that lowering gives breaks no rule, counts the
  suspensions and numbers its arms in order.
-/

namespace Resumable

namespace Bound

mutual

/-- The number of suspensions in an expression, those in closures included. -/
def Expr.suspensions : Expr → Nat
  | .int .. | .float .. | .bool .. | .str .. | .unit .. | .localVar .. | .param .. | .field ..
  | .error .. => 0
  | .binary _ _ left right => left.suspensions + right.suspensions
  | .unary _ _ operand => operand.suspensions
  | .call _ _ args => suspensionsOfArgs args
  | .lambda _ body => suspensionsOf body
  | .suspend _ operand => operand.suspensions + 1

/-- The number of suspensions in arguments. -/
def suspensionsOfArgs : List Expr → Nat
  | [] => 0
  | e :: rest => e.suspensions + suspensionsOfArgs rest

/-- The number of suspensions in a statement. -/
def Stmt.suspensions : Stmt → Nat
  | .expr _ e | .bind _ _ e | .assign _ _ e | .ret _ e | .yield _ e => e.suspensions
  | .branch _ cond onTrue onFalse =>
    cond.suspensions + suspensionsOf onTrue + suspensionsOf onFalse
  | .loop _ cond body => cond.suspensions + suspensionsOf body
  | .declare .. | .breakLoop _ | .continueLoop _ | .leave _ | .goto .. | .label .. => 0

/-- The number of suspensions in statements. -/
def suspensionsOf : List Stmt → Nat
  | [] => 0
  | s :: rest => s.suspensions + suspensionsOf rest

end

/-- The number of suspensions in the body of a procedure. -/
def Procedure.suspensions (p : Procedure) : Nat :=
  match p.body with
  | .block stmts => suspensionsOf stmts
  | .expr value => value.suspensions

theorem suspensionsOf_eq_sum (stmts : List Stmt) :
    suspensionsOf stmts = (stmts.map Stmt.suspensions).sum := by
  induction stmts with
  | nil => rfl
  | cons s rest ih => rw [suspensionsOf, ih, List.map_cons, List.sum_cons]

theorem suspensionsOfArgs_eq_sum (args : List Expr) :
    suspensionsOfArgs args = (args.map Expr.suspensions).sum := by
  induction args with
  | nil => rfl
  | cons e rest ih => rw [suspensionsOfArgs, ih, List.map_cons, List.sum_cons]

namespace Node

/-- The number of suspensions in a tree. -/
def suspensions : Node → Nat
  | .expr e => e.suspensions
  | .stmt s => s.suspensions

theorem suspensions_eq (n : Node) :
    n.suspensions = n.isSuspend.toNat + (n.children.map suspensions).sum := by
  cases n with
  | expr e =>
    cases e <;> simp [suspensions, Expr.suspensions, isSuspend,
      children, suspensionsOf_eq_sum, suspensionsOfArgs_eq_sum,
      Function.comp_def, Nat.add_comm]
  | stmt s =>
    cases s <;> simp [suspensions, Stmt.suspensions, isSuspend, children,
      suspensionsOf_eq_sum, Function.comp_def, Nat.add_assoc]

end Node

end Bound

open Resumable.Bound (Expr Stmt Procedure Node)

/-! ### Suspensions are found -/

namespace Finding

/-- Is this a suspension, wherever it stands? -/
def isSuspension : Finding → Bool
  | .suspendInClosure .. | .suspendInControlFlow .. | .suspend .. => true
  | .jump .. | .strayLoopControl .. | .ret _ | .yield _ => false

/-- A suspension that is no problem by itself is a plain one. -/
theorem isSuspension_eq_of_problem? {names : NameTable} {f : Finding}
    (h : f.problem? names = none) : f.isSuspension = f.plainSuspension?.isSome := by
  cases f with
  | suspend | ret | yield => rfl
  | jump | strayLoopControl | suspendInClosure | suspendInControlFlow => cases h

end Finding

theorem Surroundings.isSuspension_suspendFinding (c : Surroundings) (span : Span)
    (whole : Bool) : (c.suspendFinding span whole).isSuspension = true := by
  unfold suspendFinding
  split <;> rfl

namespace Bound.Node

theorem countP_own (c : Surroundings) (whole : Bool) (n : Node) :
    (n.own c whole).countP Finding.isSuspension = n.isSuspend.toNat := by
  unfold own Surroundings.loopControlFindings Surroundings.retFindings
    Surroundings.yieldFindings
  grind [isSuspend, Finding.isSuspension, Surroundings.isSuspension_suspendFinding]

/-- **No suspension is overlooked, and none is found twice.** -/
theorem countP_findings (c : Surroundings) (whole : Bool) (n : Node) :
    (n.findings c whole).countP Finding.isSuspension = n.suspensions := by
  induction n using induct generalizing c whole with
  | step n ih =>
    rw [n.findings_eq, List.countP_append, countP_own, List.countP_flatMap, n.suspensions_eq]
    exact congrArg (_ + List.sum ·) (List.map_congr_left fun child hchild =>
      ih child hchild _ _)

end Bound.Node

/-- **A statement without problems has at most one suspension**, the rules on closures,
control flow and placement taken together. -/
theorem suspensions_le_one {names : NameTable} {s : Stmt} (h : stmtProblems names s = []) :
    s.suspensions ≤ 1 := by
  obtain ⟨hfindings, hplacement⟩ := List.append_eq_nil_iff.mp h
  have hplain : s.suspensions =
    ((topFindings s).filterMap Finding.plainSuspension?).length := by
    rw [← show _ = s.suspensions from Node.countP_findings .top false (.stmt s),
      List.length_filterMap_eq_countP]
    refine List.countP_congr fun f hf => ?_
    rw [Finding.isSuspension_eq_of_problem? (List.filterMap_eq_nil_iff.mp hfindings f hf)]
  unfold placementProblems at hplacement
  dsimp only at hplacement
  split at hplacement
  case isTrue => cases hplacement
  case isFalse hfew =>
    rw [hplain]
    exact Nat.le_of_not_lt hfew

theorem suspensions_eq_one {names : NameTable} {s : Stmt} (h : stmtProblems names s = [])
    (hsuspends : (suspensionOf s).isSome) : s.suspensions = 1 := by
  obtain ⟨⟨info, operand⟩, hsuspends⟩ := Option.isSome_iff_exists.mp hsuspends
  refine Nat.le_antisymm (suspensions_le_one h) ?_
  rw [← show _ = s.suspensions from Node.countP_findings .top false (.stmt s)]
  exact List.countP_pos_iff.mpr ⟨_, suspension_mem_topFindings hsuspends, rfl⟩

/-! ### Slotted code has no suspensions -/

theorem argStrays_eq_flatMap (args : List Expr) :
    argStrays args = args.flatMap exprStrays := by
  induction args with
  | nil => rfl
  | cons e rest ih => rw [argStrays, ih, List.flatMap_cons]

namespace Bound.Node

/-- What has no slotted form in a tree. -/
def strays : Node → List Problem
  | .expr e => exprStrays e
  | .stmt s => stmtStrays s

/-- A suspension, a jump and a yield have none.  All else has one if the
nodes below it have. -/
theorem strays_eq (n : Node) : (n.isSuspend || n.isJump || n.isYield) = true ∧ n.strays ≠ [] ∨
    (n.isSuspend || n.isJump || n.isYield) = false ∧
      n.strays = n.children.flatMap strays := by
  cases n with
  | expr e =>
    cases e <;> simp [strays, exprStrays, isSuspend, isJump, isYield,
      children, argStrays_eq_flatMap, blockStrays_eq_flatMap, List.flatMap_map]
  | stmt s =>
    cases s <;> simp [strays, stmtStrays, isSuspend, isJump, isYield, children,
      blockStrays_eq_flatMap, List.flatMap_map]

/-- **What has a slotted form has no suspensions.** -/
theorem suspensions_of_strays {n : Node} (h : n.strays = []) : n.suspensions = 0 := by
  induction n using induct with
  | step n ih =>
    obtain ⟨-, hstray⟩ | ⟨hother, hbelow⟩ := n.strays_eq
    · exact absurd h hstray
    · rw [hbelow, List.flatMap_eq_nil_iff] at h
      have hchildren : (n.children.map suspensions).sum = 0 := by
        rw [List.sum_eq_zero_iff_forall_eq_nat, List.forall_mem_map]
        exact fun child hchild => ih child hchild (h child hchild)
      simp_all [n.suspensions_eq]

end Bound.Node

theorem suspensions_of_blockStrays {stmts : List Stmt} (h : blockStrays stmts = []) :
    Bound.suspensionsOf stmts = 0 := by
  rw [blockStrays_eq_flatMap, List.flatMap_eq_nil_iff] at h
  rw [Bound.suspensionsOf_eq_sum, List.sum_eq_zero_iff_forall_eq_nat, List.forall_mem_map]
  exact fun s hs => Node.suspensions_of_strays (n := .stmt s) (h s hs)

/-- **A body that is cut has one suspension for each point**, by induction on the cuts. -/
theorem Sliced.suspensionsOf_eq {close : SuspensionPoint → SuspensionPoint}
    {opening : Option SuspensionPoint} {stmts : List Stmt} {points : List SuspensionPoint}
    {stretches : List Stretch} (h : Sliced close opening stmts points stretches)
    (hslotted : ∀ st ∈ stretches, blockStrays st.stmts = [])
    (hone : ∀ s ∈ stmts, (suspensionOf s).isSome → s.suspensions = 1) :
    Bound.suspensionsOf stmts = points.length := by
  induction h with
  | last _ => exact suspensions_of_blockStrays (hslotted _ List.mem_cons_self)
  | @next _ plain later q rest _ _ suspends _ ih =>
    have hplain := suspensions_of_blockStrays (hslotted _ List.mem_cons_self)
    have hcut := hone q.stmt (List.mem_append_right _ List.mem_cons_self) suspends
    have hlater := ih (fun st hst => hslotted st (List.mem_cons_of_mem _ hst))
      fun s hs => hone s (List.mem_append_right _ (List.mem_cons_of_mem _ hs))
    simp only [Bound.suspensionsOf_eq_sum, List.map_append, List.map_cons,
      List.sum_append, List.sum_cons, List.length_cons] at hplain hlater ⊢
    omega

/-! ### The states of a machine -/

/-- The arms of segments are numbered as the segments are. -/
theorem map_value_armsFrom (span : Span) (l : SlotLayout) (dispatch : Name)
    (segs : List Segment) :
    ∀ previous, (armsFrom span l dispatch previous segs).map Machine.Arm.value =
      segs.map Segment.index := by
  induction segs with
  | nil => exact fun _ => rfl
  | cons seg rest ih => exact fun _ => congrArg (List.cons seg.index) (ih (some seg))

namespace Lowered

variable {mode : LivenessMode} {names : NameTable} {p : Procedure} {m : Machine}

theorem suspensions_eq (b : Lowered mode names p m) : p.suspensions = b.points.length := by
  have hbody : p.suspensions = Bound.suspensionsOf p.stmts := by
    rw [Procedure.suspensions, b.block]
  rw [hbody]
  exact b.sliced.suspensionsOf_eq (fun st hst =>
    (List.append_eq_nil_iff.mp (b.noStrays st hst)).1)
    fun s hs hsuspends => suspensions_eq_one (b.stmtProblems_eq hs) hsuspends

theorem map_index_segments (b : Lowered mode names p m) :
    b.segments.map Segment.index = List.range m.stateCount := by
  have hlength : b.segments.length = m.stateCount :=
    (congrArg Machine.stateCount b.machine).symm
  refine List.ext_getElem (by rw [List.length_map, List.length_range, hlength])
    fun i hi _ => ?_
  rw [List.length_map] at hi
  rw [List.getElem_map, List.getElem_range]
  exact (b.exit_eq (List.getElem?_eq_getElem hi)).1

end Lowered

/-- **Lowering gives machines that a host accepts**: a machine that it gives breaks no
rule, has one state more than the body has suspensions, and its dispatch has one arm for
each state, in order. -/
theorem lowerProcedure_accepted {options : LowerOptions} {p : Procedure}
    {names names' : NameTable} {m : Machine}
    (lowered : lowerProcedure options p names = (.ok m, names')) :
    m.violations = [] ∧ m.stateCount = p.suspensions + 1 ∧
      ∃ arms, Machine.firstSwitch m.dispatch.body = some (m.stateSlot, arms) ∧
        arms.map Machine.Arm.value = List.range m.stateCount := by
  obtain ⟨b⟩ := lowered_of_lowerProcedure lowered
  refine ⟨b.violations_eq_nil, ?_, armsFrom p.span m.layout m.dispatch.name
    none b.segments, ?_, ?_⟩
  · rw [b.stateCount_eq, b.suspensions_eq]
  · rw [b.dispatch_eq]
    rfl
  · rw [map_value_armsFrom, b.map_index_segments]

/-! ### A courier -/

namespace Courier

/-- The strings that the courier uses. -/
def names : NameTable :=
  .internAll .empty ["Deliver", "parcel", "call", "weight", "log", "left"]

/-- Make a closure that logs, wait for two frames, log below a branch, then wait for the
parcel and return what it weighs. -/
def procedure : Procedure where
  name := ⟨1⟩
  params := [⟨⟨2⟩, .deferred .int, .none⟩]
  locals := [⟨0, ⟨3⟩, .unit, .none⟩, ⟨1, ⟨4⟩, .int, .none⟩]
  result := .int
  cancellation := none
  body := .block [
    .bind ⟨0, .none⟩ 0 (.lambda ⟨.unit, .none⟩ [
      .expr ⟨1, .none⟩ (.call ⟨.unit, .none⟩ (.host ⟨5⟩) [.str ⟨.str, .none⟩ ⟨6⟩]),
      .leave ⟨2, .none⟩]),
    .expr ⟨3, .none⟩ (.suspend ⟨.unit, .none⟩
      (.call ⟨.deferred .unit, .none⟩ (.primitive .delayFrames) [.int ⟨.int, .none⟩ 2])),
    .branch ⟨4, .none⟩ (.bool ⟨.bool, .none⟩ true)
      [.expr ⟨5, .none⟩ (.call ⟨.unit, .none⟩ (.host ⟨5⟩) [.str ⟨.str, .none⟩ ⟨6⟩])] [],
    .bind ⟨6, .none⟩ 1 (.suspend ⟨.int, .none⟩ (.param ⟨.deferred .int, .none⟩ 0)),
    .ret ⟨7, .none⟩ (.localVar ⟨.int, .none⟩ 1)]
  span := .none

/-- The machine of the courier. -/
@[irreducible] def machine : Machine :=
  (lowerProcedure {} procedure names).1.toOption.getD default

theorem lowered :
    lowerProcedure {} procedure names =
      (.ok machine, (lowerProcedure {} procedure names).2) := by
  unfold machine
  exact eq_mk_ok_of_isOk (by decide +kernel)

end Courier

/-- The courier waits twice, and has three states. -/
theorem courier_accepted :
    Courier.procedure.suspensions = 2 ∧ Courier.machine.violations = [] ∧
    Courier.machine.stateCount = 3 ∧
      ∃ arms, Machine.firstSwitch Courier.machine.dispatch.body =
        some (Courier.machine.stateSlot, arms) ∧
        arms.map Machine.Arm.value = [0, 1, 2] := by
  have hcount : Courier.procedure.suspensions = 2 := rfl
  obtain ⟨hviolations, hstates, hswitch⟩ := lowerProcedure_accepted Courier.lowered
  rw [hstates, hcount] at hswitch
  exact ⟨hcount, hviolations, by rw [hstates, hcount], hswitch⟩

end Resumable
