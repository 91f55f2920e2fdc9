import Resumable.Proofs.SlottedCode

/-!
# How a machine was made

Lowering is a sequence of steps, each of which may refuse.  Where it gives a machine, every
step has succeeded, and what the steps produced is kept here beside the machine.

## Main definitions

* `Lowered`: a machine with the steps that made it from a procedure.
* `Machine.layout`: the layout of a machine, read off the machine.

## Main statements

* `lowered_of_lowerProcedure`: a machine that lowering gives was made by its steps.
* `Lowered.segment_plain`: every segment is plain, and only the last one may finish.
-/

namespace Resumable

open Resumable.Bound (Procedure)
open Resumable.Machine (Role SlotId)

variable {p : Procedure} {m : Machine} {l : SlotLayout} {q : SuspensionPoint} {s : Bound.Stmt}
  {i : Nat} {seg : Segment} {targets : CallTarget → Prop} {id : SlotId}

/-- The layout of a machine. -/
def Machine.layout (m : Machine) : SlotLayout :=
  ⟨m.slots, m.stateSlot, m.statusSlot, m.resultSlot, m.cancelSlot⟩

section

variable {names names' : NameTable} {options : LowerOptions}

/-- What passes the rules on shape is a block. -/
theorem block_of_shape (shape : shapeProblems names p = []) : p.body = .block p.stmts := by
  have hshape := (List.append_eq_nil_iff.mp shape).2
  cases hbody : p.body with
  | expr e =>
    rw [hbody] at hshape
    cases hshape
  | block stmts => rw [Procedure.stmts, hbody]

/-- A body without problems has none in its statements. -/
theorem stmtProblems_of_shape (shape : shapeProblems names p = [])
    (hs : s ∈ p.stmts) : stmtProblems names s = [] := by
  have hshape := (List.append_eq_nil_iff.mp shape).2
  rw [block_of_shape shape] at hshape
  obtain ⟨hstmts, -⟩ := List.append_eq_nil_iff.mp (List.append_eq_nil_iff.mp hshape).1
  exact List.flatMap_eq_nil_iff.mp hstmts s hs

/-- A machine with the steps that made it from a procedure. -/
structure Lowered (mode : LivenessMode) (names : NameTable)
    (p : Procedure) (m : Machine) where
  points : List SuspensionPoint
  hoisted : List Hoisted
  block : p.body = .block p.stmts
  shape : shapeProblems names p = []
  found : suspensionPoints names p = .ok points
  hoisting : hoisted.map Hoisted.toVariable = hoistedVariables p mode points
  laidOut : LaidOut p points hoisted m.layout
  noStrays : ∀ st ∈ cut p.stmts points, st.strays m.layout = []
  machine : m = assemble p ((cut p.stmts points).mapIdx fun i st =>
    st.segment m.layout i) m.layout
    m.dispatch.name

/-- Lowering that succeeds has gone through all its steps. -/
theorem steps_of_lowerProcedure (h : lowerProcedure options p names = (.ok m, names')) :
    lowerSteps options p names = (.ok m, names') := by
  unfold lowerProcedure at h
  split at h
  case h_1 => cases (Prod.mk.inj h).1
  case h_2 machine names'' hsteps =>
    split at h
    case h_1 => cases (Prod.mk.inj h).1
    case h_2 =>
      obtain ⟨hm, rfl⟩ := Prod.mk.inj h
      rw [hsteps, Except.ok.inj hm]

/-- The steps find no problem of shape, and lower the points they find. -/
theorem points_of_lowerSteps (h : lowerSteps options p names = (.ok m, names')) :
    shapeProblems names p = [] ∧ ∃ points, suspensionPoints names p = .ok points ∧
      lowerPoints options p points names = (.ok m, names') := by
  unfold lowerSteps at h
  dsimp only at h
  split at h
  case isFalse => cases (Prod.mk.inj h).1
  case isTrue hshape =>
    split at h
    case h_1 => cases (Prod.mk.inj h).1
    case h_2 points hpoints => exact ⟨List.isEmpty_iff.mp hshape, points, hpoints, h⟩

private theorem segments_eq_ok {points : List SuspensionPoint}
    {segs : List Segment} (h : segments p points l = .ok segs) :
    p.body = .block p.stmts ∧ (∀ st ∈ cut p.stmts points, st.strays l = []) ∧
      segs = (cut p.stmts points).mapIdx fun i st => st.segment l i := by
  unfold segments at h
  split at h
  case h_1 => cases h
  case h_2 stmts hbody =>
    have hstmts : p.stmts = stmts := by rw [Procedure.stmts, hbody]
    dsimp only at h
    split at h
    case isFalse => cases h
    case isTrue hnone =>
      rw [hstmts]
      exact ⟨hbody, List.flatMap_eq_nil_iff.mp (List.isEmpty_iff.mp hnone),
        (Except.ok.inj h).symm⟩

/-- **A machine was made by the steps of lowering**, also when it cannot be stored. -/
theorem lowered_of_lowerSteps (h : lowerSteps options p names = (.ok m, names')) :
    Nonempty (Lowered options.liveness names p m) := by
  obtain ⟨hshape, points, hpoints, hlower⟩ := points_of_lowerSteps h
  unfold lowerPoints at hlower
  dsimp only at hlower
  split at hlower
  case h_1 => cases (Prod.mk.inj hlower).1
  case h_2 hoisted hhoisted =>
    split at hlower
    case h_1 => cases (Prod.mk.inj hlower).1
    case h_2 l hlayout =>
      split at hlower
      case h_1 => cases (Prod.mk.inj hlower).1
      case h_2 segs hsegs =>
        obtain rfl := Except.ok.inj (Prod.mk.inj hlower).1
        obtain ⟨hbody, hstrays, rfl⟩ := segments_eq_ok hsegs
        exact ⟨points, hoisted, hbody, hshape, hpoints,
          toVariable_of_hoist (Prod.ext hhoisted rfl),
          laidOut_of_layOut (Prod.ext hlayout rfl), hstrays, rfl⟩

/-- **A machine that lowering gives was made by its steps.** -/
theorem lowered_of_lowerProcedure (h : lowerProcedure options p names = (.ok m, names')) :
    Nonempty (Lowered options.liveness names p m) :=
  lowered_of_lowerSteps (steps_of_lowerProcedure h)

variable (hlength : (l.awaits q.index).length = q.kind.awaited.length)

include hlength

/-- What ends the wait at a point that has a slot for each of its tasks. -/
theorem awaited?_resumptionOf : (resumptionOf l q).awaited? =
      if q.kind.awaitsTasks then some (l.awaits q.index, q.kind.mode) else none := by
  unfold resumptionOf
  cases hkind : q.kind with
  | timedDelay | frameDelay | yieldStep | joinAll | joinAny => rfl
  | delegate operand =>
    rw [hkind] at hlength
    obtain ⟨slot, hslot⟩ := List.length_eq_one_iff.mp hlength
    rw [hslot]
    rfl

/-- Such a point evaluates all operands of its wait. -/
theorem closingOperands_eq_operands : closingOperands l q = q.kind.operands := by
  have hstores : (taskStores l q).map Prod.fst = q.kind.awaited :=
    List.map_fst_zip (Nat.le_of_eq hlength.symm)
  unfold closingOperands
  cases hkind : q.kind with
  | timedDelay | frameDelay | yieldStep => rfl
  | joinAll | joinAny | delegate =>
    rw [hkind] at hstores
    exact hstores

/-- What is stray at such a point is in the operands. -/
theorem closingStrays_eq : closingStrays l q = q.kind.operands.flatMap exprStrays := by
  unfold closingStrays
  rw [closingOperands_eq_operands hlength]
  cases hkind : q.kind with
  | timedDelay | frameDelay | yieldStep | joinAll | joinAny => exact List.append_nil _
  | delegate operand =>
    rw [hkind] at hlength
    obtain ⟨slot, hslot⟩ := List.length_eq_one_iff.mp hlength
    rw [hslot]
    exact List.append_nil _

end

namespace Lowered

variable {mode : LivenessMode} {names : NameTable}

/-- The segments of the machine. -/
def segments (b : Lowered mode names p m) : List Segment :=
  (cut p.stmts b.points).mapIdx fun i st => st.segment m.layout i

section

variable (b : Lowered mode names p m)

include b

/-- The segments of a machine are those of its procedure. -/
theorem segments_eq : Resumable.segments p b.points m.layout = .ok b.segments := by
  have hnone : (cut p.stmts b.points).flatMap (fun st => st.strays m.layout) = [] :=
    List.flatMap_eq_nil_iff.mpr b.noStrays
  unfold Resumable.segments
  rw [b.block]
  dsimp only
  rw [hnone]
  rfl

/-- The segments are cut out of the body at its suspensions. -/
theorem sliced : Sliced (pointOfStmt b.points) none p.stmts b.points (cut p.stmts b.points) :=
  cut_sliced b.found

/-- There is one segment more than there are suspensions. -/
theorem length_segments : b.segments.length = b.points.length + 1 := by
  rw [segments, List.length_mapIdx, b.sliced.length_eq]

/-- Every number up to the last has a stretch. -/
theorem exists_stretch (hle : i ≤ b.points.length) :
    ∃ st, (cut p.stmts b.points)[i]? = some st := by
  refine ⟨_, List.getElem?_eq_getElem ?_⟩
  rw [b.sliced.length_eq]
  exact Nat.lt_succ_of_le hle

/-- Every number up to the last has a segment. -/
theorem exists_segment (hle : i ≤ b.points.length) : ∃ seg, b.segments[i]? = some seg := by
  refine ⟨_, List.getElem?_eq_getElem ?_⟩
  rw [b.length_segments]
  exact Nat.lt_succ_of_le hle

/-- The dispatch procedure is the switch over the segments. -/
theorem dispatch_eq :
    m.dispatch.body = dispatchBody p.span b.segments m.layout m.dispatch.name :=
  congrArg (fun m => m.dispatch.body) b.machine

/-- The entry procedure, as it was put together. -/
theorem entry_eq : m.entry.body = entryBody p m.layout m.dispatch.name :=
  congrArg (fun m => m.entry.body) b.machine

theorem returnProblems_eq : returnProblems p.stmts = [] := by
  have hshape := b.shape
  unfold shapeProblems at hshape
  rw [b.block] at hshape
  simp only [List.append_eq_nil_iff] at hshape
  exact hshape.2.1.2

theorem stmtProblems_eq (hs : s ∈ p.stmts) :
    stmtProblems names s = [] := stmtProblems_of_shape b.shape hs

/-- A segment is made from its stretch. -/
theorem segments_getElem? (i : Nat) :
    b.segments[i]? = ((cut p.stmts b.points)[i]?).map fun st => st.segment m.layout i :=
  List.getElem?_mapIdx

end

/-- A segment knows its number, and ends as the point that closes its stretch asks. -/
theorem exit_eq (b : Lowered mode names p m) (h : b.segments[i]? = some seg) :
    seg.index = i ∧ seg.exit = (b.points[i]?).map fun q =>
      ⟨(pointOfStmt b.points q).index, resumptionOf m.layout (pointOfStmt b.points q)⟩ := by
  rw [b.segments_getElem?] at h
  obtain ⟨st, hst, rfl⟩ := Option.map_eq_some_iff.mp h
  refine ⟨rfl, ?_⟩
  show (st.closing).map _ = _
  rw [(b.sliced.between hst).2, Option.map_map]
  rfl

/-- What opens a stretch is the point before it. -/
theorem point_of_opening (b : Lowered mode names p m) {st : Stretch}
    (hst : (cut p.stmts b.points)[i]? = some st) (hq : st.opening = some q) :
    ∃ j, i = j + 1 ∧ b.points[j]? = some q := by
  have hopening := (b.sliced.between hst).1
  rw [hq] at hopening
  cases i with
  | zero => cases hopening
  | succ j => exact ⟨j, rfl, hopening.symm⟩

/-- All segments but the last end in a suspension. -/
theorem isSome_exit (b : Lowered mode names p m)
    (h : b.segments[i]? = some seg) : seg.exit.isSome ↔ i < b.points.length := by
  rw [(b.exit_eq h).2, Option.isSome_map, isSome_getElem?]

/-- **Every segment is plain**, and only the last one may finish the activation. -/
theorem segment_plain (b : Lowered mode names p m)
    (htargets : ∀ t ∈ Bound.calleesOf p.stmts, targets t) (h : b.segments[i]? = some seg) :
    Machine.PlainBlock (m.layout.policy targets)
      (if i < b.points.length then .segment else .lastSegment) seg.body ∧
      ∀ exit ∈ seg.exit, exit.request.timing.Plain (m.layout.policy targets) := by
  rw [b.segments_getElem?] at h
  obtain ⟨st, hst, rfl⟩ := Option.map_eq_some_iff.mp h
  have hmem := List.mem_of_getElem? hst
  have hclosing := (b.sliced.between hst).2
  refine Stretch.segment_plain b.laidOut.numbered st i ?_ ?_ ?_
  · by_cases hi : i < b.points.length
    · have hclosed : st.closing.isSome := by
        rw [hclosing, Option.isSome_map, isSome_getElem?]
        exact hi
      rw [if_pos hi, b.sliced.returns_eq_false b.returnProblems_eq hmem hclosed]
      exact fun hfalse => Bool.noConfusion hfalse
    · rw [if_neg hi]
      exact fun _ => rfl
  · intro t ht
    obtain ⟨s, hs, hts⟩ := Bound.mem_calleesOf.mp ht
    exact htargets t (Bound.mem_calleesOf.mpr ⟨s, (b.sliced.mem_stmts hmem hs).1, hts⟩)
  · intro q hq e he t ht
    rw [hclosing] at hq
    obtain ⟨q', hq', rfl⟩ := Option.map_eq_some_iff.mp hq
    exact htargets t (mem_calleesOf_of_point b.found
      (pointOfStmt_mem (List.mem_of_getElem? hq')) he ht)

section

variable (b : Lowered mode names p m)

/-- A point carries the number of its place in the list. -/
theorem index_eq (h : b.points[i]? = some q) : q.index = i := index_of_points b.found h

/-- A point has one slot for each task it awaits. -/
theorem length_awaits (h : b.points[i]? = some q) :
    (m.layout.awaits i).length = q.kind.awaited.length :=
  b.laidOut.length_awaits (fun _ _ hk => b.index_eq hk) h

/-- A point that delivers awaits tasks, and they carry a value. -/
theorem carries_of_delivery (hq : q ∈ b.points)
    (h : q.delivery.isSome) : q.carriesValue = true ∧ q.kind.awaitsTasks = true := by
  obtain ⟨site, i, gives, -⟩ := site_of_mem b.found hq
  have hcarries := gives.carries h
  have hkind := gives.kind
  refine ⟨hcarries, ?_⟩
  generalize q.kind = kind at hkind
  generalize q.carriesValue = carries at hkind hcarries
  generalize site.operand = operand at hkind
  cases hkind with
  | delay | delayFrames | yield => cases hcarries
  | whenAll | whenAny | delegate => rfl

/-- In a tree-shaped body a segment ends as the point after it asks. -/
theorem exit_of_tree (tree : p.TreeShaped) (h : b.segments[i]? = some seg) :
    seg.exit = (b.points[i]?).map fun q => ⟨i, resumptionOf m.layout q⟩ := by
  rw [(b.exit_eq h).2]
  cases hq : b.points[i]? with
  | none => rfl
  | some q =>
    rw [Option.map_some, pointOfStmt_eq_self b.found tree (List.mem_of_getElem? hq),
      b.index_eq hq]
    rfl

end

/-- The tasks that the segment before the `i`-th waits for, by their slots. -/
def awaitedBefore (b : Lowered mode names p m) (i : Nat) : Option (List SlotId × JoinMode) :=
  ((if i = 0 then none else b.segments[i - 1]?).bind Segment.exit).bind fun exit =>
    exit.request.awaited?

/-- An arm waits for the tasks of the point before it. -/
theorem awaitedBefore_succ (b : Lowered mode names p m) (tree : p.TreeShaped) (j : Nat) :
    b.awaitedBefore (j + 1) = (b.points[j]?).bind fun q =>
      if q.kind.awaitsTasks then some (m.layout.awaits j, q.kind.mode) else none := by
  show (b.segments[j]?.bind Segment.exit).bind _ = _
  cases hseg : b.segments[j]? with
  | none =>
    have hle := List.getElem?_eq_none_iff.mp hseg
    rw [b.length_segments] at hle
    rw [List.getElem?_eq_none_iff.mpr (by omega)]
    rfl
  | some seg =>
    rw [Option.bind_some, b.exit_of_tree tree hseg]
    cases hq : b.points[j]? with
    | none => rfl
    | some q =>
      have hindex := b.index_eq hq
      have hlength := b.length_awaits hq
      rw [← hindex] at hlength ⊢
      exact awaited?_resumptionOf hlength

/-! ### The slots of the machine itself -/

private theorem not_writable {role : Role}
    (h : ∃ slot, l.slots[id]? = some slot ∧ slot.role = role) (hfixed : role.isFixed = true) :
    ¬ (l.policy targets).slots id := by
  rintro ⟨slot, hslot, hvariable⟩
  obtain ⟨slot', hslot', rfl⟩ := h
  obtain rfl : slot = slot' := Option.some.inj (hslot.symm.trans hslot')
  rw [hfixed] at hvariable
  cases hvariable

variable (b : Lowered mode names p m)

include b

/-- The user's code cannot write the state. -/
theorem state_not_writable (targets : CallTarget → Prop) :
    ¬ (m.layout.policy targets).slots m.stateSlot := not_writable b.laidOut.role_state rfl

theorem status_not_writable (targets : CallTarget → Prop) :
    ¬ (m.layout.policy targets).slots m.statusSlot := not_writable b.laidOut.role_status rfl

/-- The slots that a machine refers to are there. -/
theorem lt_length : m.stateSlot < m.slots.length ∧ m.statusSlot < m.slots.length ∧
      ∀ slot, m.resultSlot = some slot → slot < m.slots.length := by
  have hlt : ∀ {id : SlotId} {role : Role},
      (∃ slot, m.layout.slots[id]? = some slot ∧ slot.role = role) → id < m.slots.length := by
    rintro id _ ⟨slot, hslot, -⟩
    exact (List.getElem?_eq_some_iff.mp hslot).1
  exact ⟨hlt b.laidOut.role_state, hlt b.laidOut.role_status,
    fun slot hslot => hlt (b.laidOut.role_result hslot)⟩

/-- State and status have slots of their own. -/
theorem state_ne_status : m.stateSlot ≠ m.statusSlot := by
  have hstate : m.stateSlot = 0 := b.laidOut.state
  have hstatus : m.statusSlot = 1 := b.laidOut.status
  rw [hstate, hstatus]
  exact Nat.zero_ne_one

/-- The result has a slot of its own. -/
theorem result_ne (hid : m.resultSlot = some id) : id ≠ m.stateSlot ∧ id ≠ m.statusSlot := by
  have hstate : m.stateSlot = 0 := b.laidOut.state
  have hstatus : m.statusSlot = 1 := b.laidOut.status
  have hresult : m.resultSlot = if p.returnsValue then some 2 else none := b.laidOut.result
  rw [hid] at hresult
  split at hresult
  case isFalse => cases hresult
  case isTrue =>
    rw [Option.some.inj hresult, hstate, hstatus]
    decide

end Lowered

/-! ### A greeter -/

namespace Greeter

/-- The strings that the greeter uses. -/
def names : NameTable := .internAll .empty ["Greet", "count", "log", "hello"]

/-- Bind a number, wait for the next frame, log a line and return the number. -/
def procedure : Procedure where
  name := ⟨1⟩
  params := []
  locals := [⟨0, ⟨2⟩, .int, .none⟩]
  result := .int
  cancellation := none
  body := .block [
    .bind ⟨0, .none⟩ 0 (.int ⟨.int, .none⟩ 3),
    .expr ⟨1, .none⟩ (.suspend ⟨.unit, .none⟩
      (.call ⟨.deferred .unit, .none⟩ (.primitive .yield) [])),
    .expr ⟨2, .none⟩ (.call ⟨.unit, .none⟩ (.host ⟨3⟩) [.str ⟨.str, .none⟩ ⟨4⟩]),
    .ret ⟨3, .none⟩ (.localVar ⟨.int, .none⟩ 0)]
  span := .none

/-- The machine of the greeter. -/
@[irreducible] def machine : Machine :=
  (lowerProcedure {} procedure names).1.toOption.getD default

theorem lowered :
    lowerProcedure {} procedure names =
      (.ok machine, (lowerProcedure {} procedure names).2) := by
  unfold machine
  exact eq_mk_ok_of_isOk (by decide +kernel)

end Greeter

end Resumable
