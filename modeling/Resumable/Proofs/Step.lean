import Resumable.Proofs.Arm

/-!
# A dispatch is one step

**One call of a dispatch is one step of a state machine.**  The state is the number in the
state slot and the status; what the source wrote between two suspensions decides neither.
A dispatch that is over, or whose state has no arm, changes nothing; one on which
cancellation was requested is over; any other moves to the next state and leaves exactly
one call back, or finishes.

What is load-bearing is that the segments are plain and call no procedure: no source body
writes the state or the status, makes a call back or leaves its arm early.

## Main definitions

* `Site.CancelRequested`, `Site.Waits`: what keeps a dispatch from running its segment.
* `DueAfter`: when the wait at a point is over.
* `OneStep`: the step from one state of the host to another.

## Main statements

* `dispatch_oneStep`: a dispatch that returns has taken one step.
-/

namespace Resumable

open Resumable.Bound (Procedure)
open Machine (SlotId TaskStatus)

variable {seg : Segment} {q : SuspensionPoint} {i : Nat}

/-- Cancellation was requested on the handle that the activation holds. -/
def Site.CancelRequested (site : Site) (s : HostState) : Prop :=
  ∃ (slot : SlotId) (id : TokenId), site.machine.cancelSlot = some slot ∧
    site.slotIn s slot = some (.token id) ∧ s.tokens[id]? = some true

/-- The point before the state awaits tasks that are not done. -/
def Site.Waits (site : Site) (points : List SuspensionPoint) (i : Nat)
    (s : HostState) : Prop :=
  ∃ (j : Nat) (q : SuspensionPoint) (ids : List TaskId), i = j + 1 ∧ points[j]? = some q ∧
    q.kind.awaitsTasks = true ∧
    (site.machine.layout.awaits j).map (site.slotIn s) = ids.map (fun id => some (.task id)) ∧
    s.tasks.done ids q.kind.mode = false

/-- **When the wait at a point is over**, told by the clock and by the operands of the point:
a number of seconds or frames, the next frame, or the tasks in the slots of the point.
Evaluating the operand, in the frame in which the segment ended, leads from `s` to `last`. -/
inductive DueAfter (site : Site) (fuel : Nat) (clock : Scheduler) (frame : Frame)
    (q : SuspensionPoint) (s last : HostState) : Due → Prop where
  | seconds (e : Bound.Expr) (v : Value) (seconds : Float) (kind : q.kind = .timedDelay e)
    (value : Returns (eval site (runProcedure site.image fuel) frame
      (slottedExpr site.machine.layout e)) s v last)
    (number : v.number? = some seconds) :
    DueAfter site fuel clock frame q s last (.seconds (clock.now + laterTime seconds 0))
  | frames (e : Bound.Expr) (count : Int64) (kind : q.kind = .frameDelay e)
    (value : Returns (eval site (runProcedure site.image fuel) frame
      (slottedExpr site.machine.layout e)) s (.int count) last) :
    DueAfter site fuel clock frame q s last
      (.frame (min (clock.frame + max count.toInt.toNat 1) Scheduler.lastFrame))
  | nextFrame (kind : q.kind = .yieldStep) (same : last = s) :
    DueAfter site fuel clock frame q s last
      (.frame (min (clock.frame + 1) Scheduler.lastFrame))
  | tasks (ids : List TaskId) (kind : q.kind.awaitsTasks = true)
    (slots : (site.machine.layout.awaits q.index).map (site.slotIn s) =
      ids.map fun id => some (.task id))
    (same : last = s) :
    DueAfter site fuel clock frame q s last (.completion ids q.kind.mode)

/-- The state in which the activation at a site has been cancelled: the status says so, and so
does the task unless it had an outcome. -/
def Site.cancelledFrom (site : Site) (s : HostState) (st : Storage) : HostState :=
  { site.put s { st with
      slots := st.slots.set site.machine.statusSlot (.int TaskStatus.cancelled.code) } with
    tasks := match st.task with
      | some id => s.tasks.complete id .cancelled
      | none => s.tasks }

/-- The step of a dispatch that leaves state `i` at the point `q`: it moves to the next state,
is still running, and the queue ends with its only call back, due when the wait at the point
is over.  The calls back of others stay. -/
structure SuspendsAt (p : Procedure) (points : List SuspensionPoint) (site : Site) (i : Nat)
    (q : SuspensionPoint) (s s' : HostState) : Prop where
  state : site.slotIn s' site.machine.stateSlot = some (.int (.ofNat (i + 1)))
  status : site.slotIn s' site.machine.statusSlot = some (.int TaskStatus.running.code)
  queue : ∃ kept seq due, s'.scheduler.pending = kept ++ [⟨seq, due, .resume site.handle⟩] ∧
    (∀ r ∈ kept, r.action ≠ .resume site.handle) ∧
    kept.filter (fun r => r.action.isResume) =
      s.scheduler.resumes.filter (fun r => r.action ≠ .resume site.handle) ∧
    ∃ segs seg fuel frame mid st last, segments p points site.machine.layout = .ok segs ∧
      segs[i]? = some seg ∧
      Returns (execBlock site (runProcedure site.image fuel) fuel seg.body ⟨[], .empty⟩) s
        (.next, frame) mid ∧
      site.slotsIn mid = some st ∧
      DueAfter site fuel s.scheduler frame q (site.put mid { st with
        slots := st.slots.set site.machine.stateSlot (.int (.ofNat (i + 1))) }) last due ∧
      s' = { last with scheduler := last.scheduler.submit due (.resume site.handle) }

/-- The step of a dispatch in its last state: it has succeeded, its task has an outcome, and
it asks for no call back. -/
structure CompletesFrom (site : Site) (s s' : HostState) : Prop where
  status : site.slotIn s' site.machine.statusSlot = some (.int TaskStatus.succeeded.code)
  task : ∃ result, (∀ slot, site.machine.resultSlot = some slot →
      site.slotIn s' slot = some result) ∧
    ∀ (id : TaskId) (t : Task), (site.slotsIn s).bind Storage.task = some id →
      s.tasks[id]? = some t →
      s'.tasks[id]? = some (if t.state.isDone then t else
        { t with state := .succeeded result })
  resumes : s'.scheduler.resumes = s.scheduler.resumes

/-- **One step** of the machine of a procedure, from `s` with the given status and state. -/
structure OneStep (p : Procedure) (points : List SuspensionPoint) (site : Site)
    (status state : Int64) (s s' : HostState) : Prop where
  /-- Over, or in a state that does not exist: nothing changes. -/
  idle : (status ≠ TaskStatus.running.code ∨ state.toInt < 0 ∨ points.length < state.toInt) →
    s' = s
  /-- Cancellation was requested: the activation is over, and that is all. -/
  cancels : status = TaskStatus.running.code → 0 ≤ state.toInt → state.toInt ≤ points.length →
    site.CancelRequested s → ∃ st, site.slotsIn s = some st ∧ s' = site.cancelledFrom s st
  /-- Before the last state: on to the next one, with a call back. -/
  suspends : ∀ i q, points[i]? = some q → status = TaskStatus.running.code →
    state.toInt = (i : Nat) →
    ¬ site.CancelRequested s → ¬ site.Waits points i s → SuspendsAt p points site i q s s'
  /-- In the last state: done. -/
  completes : status = TaskStatus.running.code → state.toInt = points.length →
    ¬ site.CancelRequested s → ¬ site.Waits points points.length s → CompletesFrom site s s'

section

variable {site : Site} {fuel : Nat} {s s' : HostState} {mode : LivenessMode}
  {names : NameTable} {p : Procedure}

theorem cancelState?_eq_true {slot : SlotId} : site.cancelState? s slot = some true ↔
      ∃ id : TokenId, site.slotIn s slot = some (.token id) ∧ s.tokens[id]? = some true := by
  unfold Site.cancelState?
  cases hslot : site.slotIn s slot with
  | none => simp
  | some v =>
    cases v with
    | token id =>
      cases htoken : s.tokens[id]? with
      | none => simp [htoken]
      | some b => simp [htoken]
    | unit | bool | int | float | str | array | task | closure => simp

theorem not_cancelRequested_of_uncancelled (h : site.Uncancelled s) :
    ¬ site.CancelRequested s := by
  rintro ⟨slot, id, hslot, hid, htoken⟩
  have hrequested := cancelState?_eq_true.mpr ⟨id, hid, htoken⟩
  rw [h slot hslot] at hrequested
  cases hrequested

/-- Cancelling changes the status and the task. -/
theorem cancelledFrom_of_finish (h : Returns (finish site .cancelled none) s () s') :
    ∃ st, site.slotsIn s = some st ∧ s' = site.cancelledFrom s st := by
  obtain ⟨result, st, hst, -, -, -, rfl⟩ := Site.finish_eq h
  refine ⟨st, hst, ?_⟩
  have hslots : site.finishedSlots .cancelled none st =
      { st with slots :=
        st.slots.set site.machine.statusSlot (.int TaskStatus.cancelled.code) } := by
    unfold Site.finishedSlots Site.withResult
    cases site.machine.resultSlot <;> rfl
  rw [hslots]
  unfold HostState.conclude Site.cancelledFrom
  cases st.task <;> rfl

/-- **Where cancellation was requested** an arm ends the activation, and does nothing else. -/
theorem cancelledFrom_of_armRun {P : Policy} {awaited : Option (List SlotId × JoinMode)}
    (hrequested : site.CancelRequested s) (h : ArmRun site fuel P awaited seg s s') :
    ∃ st, site.slotsIn s = some st ∧ s' = site.cancelledFrom s st := by
  cases h with
  | cancelled slot handle requested finish => exact cancelledFrom_of_finish finish
  | waiting _ _ _ uncancelled _ _ _ _ =>
    exact absurd hrequested (not_cancelRequested_of_uncancelled uncancelled)
  | suspended _ _ _ _ _ _ _ uncancelled _ _ _ _ _ _ =>
    exact absurd hrequested (not_cancelRequested_of_uncancelled uncancelled)
  | finished _ _ _ uncancelled _ _ =>
    exact absurd hrequested (not_cancelRequested_of_uncancelled uncancelled)

/-- The timing at the end of a segment is that of the point. -/
theorem dueAfter_of_returns {clock : Scheduler} {frame : Frame}
    {last : HostState} {due : Due}
    (hlength : (site.machine.layout.awaits q.index).length = q.kind.awaited.length)
    (hnow : last.scheduler.now = clock.now) (hframe : last.scheduler.frame = clock.frame)
    (h : Returns (dueOf site (runProcedure site.image fuel) frame
      (resumptionOf site.machine.layout q).timing) s due last) :
    DueAfter site fuel clock frame q s last due := by
  rw [returns_dueOf] at h
  cases hkind : q.kind with
  | timedDelay e =>
    simp only [resumptionOf, hkind, Resumption.timing] at h
    obtain ⟨v, d, hv, hd, rfl⟩ := h
    rw [Scheduler.afterSeconds, hnow]
    exact .seconds e v d hkind hv hd
  | frameDelay e =>
    simp only [resumptionOf, hkind, Resumption.timing] at h
    obtain ⟨n, hv, rfl⟩ := h
    rw [Scheduler.afterFrames, hframe]
    exact .frames e n hkind hv
  | yieldStep =>
    simp only [resumptionOf, hkind, Resumption.timing] at h
    obtain ⟨rfl, rfl⟩ := h
    rw [Scheduler.afterFrames, hframe]
    exact .nextFrame hkind rfl
  | joinAll operands | joinAny operands =>
    simp only [resumptionOf, hkind, Resumption.timing] at h
    obtain ⟨ids, hids, rfl, rfl⟩ := h
    have hmode : DueAfter site fuel clock frame q _ _ (.completion ids q.kind.mode) :=
      .tasks ids (by rw [hkind]; rfl) hids rfl
    rw [hkind] at hmode
    exact hmode
  | delegate operand =>
    rw [hkind] at hlength
    obtain ⟨slot, hslot⟩ := List.length_eq_one_iff.mp hlength
    simp only [resumptionOf, hkind, hslot, Resumption.timing] at h
    obtain ⟨ids, hids, rfl, rfl⟩ := h
    rw [← hslot] at hids
    have hmode : DueAfter site fuel clock frame q _ _ (.completion ids q.kind.mode) :=
      .tasks ids (by rw [hkind]; rfl) hids rfl
    rw [hkind] at hmode
    exact hmode

/-- An arm that waits again waits for the tasks of the point before it. -/
theorem waits_of_awaitedBefore (b : Lowered mode names p site.machine) (tree : p.TreeShaped)
    {slots : List SlotId} {join : JoinMode} {ids : List TaskId}
    (hawaits : b.awaitedBefore i = some (slots, join))
    (htasks : slots.map (site.slotIn s) = ids.map fun id => some (.task id))
    (hundone : s.tasks.done ids join = false) : site.Waits b.points i s := by
  cases i with
  | zero => cases hawaits
  | succ j =>
    rw [b.awaitedBefore_succ tree] at hawaits
    obtain ⟨q, hq, hsome⟩ := Option.bind_eq_some_iff.mp hawaits
    split at hsome
    case isFalse => cases hsome
    case isTrue hkind =>
      obtain ⟨rfl, rfl⟩ := Prod.mk.inj (Option.some.inj hsome)
      exact ⟨j, q, ids, rfl, hq, hkind, htasks, hundone⟩

/-- The policy of a machine whose source calls no procedure. -/
abbrev ownPolicy (site : Site) (p : Procedure) : Policy :=
  site.machine.layout.policy (· ∈ Bound.calleesOf p.stmts)

section

variable (b : Lowered mode names p site.machine)

/-- **Before its last state** an arm that runs its segment moves on and
leaves one call back. -/
theorem suspendsAt_of_armRun (tree : p.TreeShaped) (noCalls : p.CallsNoProcedure)
    (hq : b.points[i]? = some q) (hseg : b.segments[i]? = some seg)
    (hstatus : site.slotIn s site.machine.statusSlot = some (.int TaskStatus.running.code))
    (hcancel : ¬ site.CancelRequested s) (hwaits : ¬ site.Waits b.points i s)
    (h : ArmRun site fuel (ownPolicy site p) (b.awaitedBefore i) seg s s') :
    SuspendsAt p b.points site i q s s' := by
  have hexit := b.exit_of_tree tree hseg
  rw [hq] at hexit
  cases h with
  | cancelled slot handle requested _ =>
    obtain ⟨id, hid, htoken⟩ := cancelState?_eq_true.mp requested
    exact absurd ⟨slot, id, handle, hid, htoken⟩ hcancel
  | waiting slots join ids _ awaits tasks unfinished _ =>
    exact absurd (waits_of_awaitedBefore b tree awaits tasks unfinished) hwaits
  | finished last _ _ _ _ _ =>
    rw [hexit] at last
    cases last
  | suspended exit ends mid last st frame due _ body effects slots inRange timing request =>
    obtain rfl : _ = exit := Option.some.inj (hexit.symm.trans ends)
    rw [(b.exit_eq hseg).1] at timing
    -- The segment keeps state and status, and so does evaluating when to be called back; the
    -- state is written in between.
    have hkept := effects.kept (P := ownPolicy site p) noCalls
    have hplain := (b.segment_plain (fun _ ht => ht) hseg).2 _ ends
    have hlast := (dueOf_within (e := .returned) frame hplain).of_returns timing
    have hkept' := hlast.kept (P := ownPolicy site p) noCalls
    refine ⟨?_, ?_, ?_⟩
    · rw [request]
      refine (hkept'.slot _ (b.state_not_writable _)).trans ?_
      rw [Site.slotIn_eq (Site.slotsIn_put slots _)]
      exact List.getElem?_set_self inRange
    · rw [request]
      refine (hkept'.slot _ (b.status_not_writable _)).trans ?_
      rw [slotIn_put_set slots b.state_ne_status,
        hkept.slot _ (b.status_not_writable _), hstatus]
    · refine ⟨last.scheduler.pending.filter fun r => r.action ≠ .resume site.handle,
        last.scheduler.nextSeq, due, ?_, ?_, ?_, b.segments, seg, fuel, frame, mid, st, last,
        b.segments_eq, hseg, body, slots, ?_, request⟩
      · rw [request]
        rfl
      · intro r hr
        simpa using (List.mem_filter.mp hr).2
      · have hresumes : last.scheduler.resumes = s.scheduler.resumes :=
          hkept'.resumes.trans hkept.resumes
        rw [← hresumes]
        exact List.filter_comm _ _ _
      · refine dueAfter_of_returns ?_ ?_ ?_ timing
        · rw [b.index_eq hq]
          exact b.length_awaits hq
        · exact hkept'.now.trans hkept.now
        · exact hkept'.frame.trans hkept.frame

/-- **In its last state** an arm that runs its segment completes the activation. -/
theorem completesFrom_of_armRun (tree : p.TreeShaped) (noCalls : p.CallsNoProcedure)
    (hseg : b.segments[b.points.length]? = some seg) (hcancel : ¬ site.CancelRequested s)
    (hwaits : ¬ site.Waits b.points b.points.length s)
    (h : ArmRun site fuel (ownPolicy site p) (b.awaitedBefore b.points.length) seg s s') :
    CompletesFrom site s s' := by
  have hexit := b.exit_of_tree tree hseg
  rw [List.getElem?_eq_none (Nat.le_refl _)] at hexit
  cases h with
  | cancelled slot handle requested _ =>
    obtain ⟨id, hid, htoken⟩ := cancelState?_eq_true.mp requested
    exact absurd ⟨slot, id, handle, hid, htoken⟩ hcancel
  | waiting slots join ids _ awaits tasks unfinished _ =>
    exact absurd (waits_of_awaitedBefore b tree awaits tasks unfinished) hwaits
  | suspended exit ends =>
    rw [hexit] at ends
    cases ends
  | finished _ mid v _ effects finish =>
    have hkept := effects.kept (P := ownPolicy site p) noCalls
    obtain ⟨result, st, hst, hresult, hlt, hltResult, rfl⟩ := Site.finish_eq finish
    have hslots := (Site.slotsIn_conclude _ st.task .succeeded result).trans
      (Site.slotsIn_put hst (site.finishedSlots .succeeded v st))
    have htask : (site.slotsIn s).map Storage.task = some st.task := by
      rw [← hkept.task, hst]
      rfl
    refine ⟨?_, ⟨result, fun slot hslot => ?_, fun id t hid ht => ?_⟩, ?_⟩
    · rw [Site.slotIn_eq hslots]
      exact Site.finishedSlots_status hlt
    · rw [Site.slotIn_eq hslots]
      exact Site.finishedSlots_result hresult hslot (b.result_ne hslot).2
        (hltResult slot hslot)
    · obtain ⟨st₀, hst₀, hid⟩ := Option.bind_eq_some_iff.mp hid
      rw [hst₀, Option.map_some, Option.some.injEq, hid] at htask
      rw [← htask]
      exact TaskTable.getElem?_complete (hkept.tasks id t ht) _
    · rw [HostState.conclude_scheduler]
      exact hkept.resumes

/-- **A dispatch that is running runs the arm of its state.** -/
theorem armRun_of_dispatch (loaded : site.Loaded) {state : Int64}
    (hstatus : site.slotIn s site.machine.statusSlot = some (.int TaskStatus.running.code))
    (hstate : site.slotIn s site.machine.stateSlot = some (.int state))
    (hi : state.toInt = i) (hle : i ≤ b.points.length) {v : Value}
    (returns : Returns (site.dispatch fuel) s v s') :
    ∃ fuel seg, b.segments[i]? = some seg ∧ ArmRun site fuel (ownPolicy site p)
      (b.awaitedBefore i) seg s s' := by
  obtain ⟨fuel, seg, -, hseg, hstart⟩ :=
    armStart_of_returns b loaded hstatus hstate hi hle returns
  refine ⟨fuel, seg, hseg, armRun_of_armStart ?_ hstart⟩
  have hplain := (b.segment_plain (fun _ ht => ht) hseg).1
  simp only [b.isSome_exit hseg]
  exact hplain

end

/-- **A dispatch that returns has taken one step.** -/
theorem dispatch_oneStep {options : LowerOptions} {names' : NameTable}
    (lowered : lowerProcedure options p names = (.ok site.machine, names'))
    {points : List SuspensionPoint} (found : suspensionPoints names p = .ok points)
    (tree : p.TreeShaped) (noCalls : p.CallsNoProcedure) (loaded : site.Loaded)
    {status state : Int64}
    (hstatus : site.slotIn s site.machine.statusSlot = some (.int status))
    (hstate : site.slotIn s site.machine.stateSlot = some (.int state)) {v : Value}
    (returns : Returns (site.dispatch fuel) s v s') :
    OneStep p points site status state s s' := by
  obtain ⟨b⟩ := lowered_of_lowerProcedure lowered
  obtain rfl : b.points = points := Except.ok.inj (b.found.symm.trans found)
  have arm : ∀ i : Nat, status = TaskStatus.running.code →
    state.toInt = i → i ≤ b.points.length →
      ∃ fuel seg, b.segments[i]? = some seg ∧
        ArmRun site fuel (ownPolicy site p) (b.awaitedBefore i) seg s s' :=
    fun i hrunning hi hle => armRun_of_dispatch b loaded
      (hrunning ▸ hstatus) hstate hi hle returns
  refine ⟨fun hidle => ?_, fun hrunning hlow hhigh hrequested => ?_,
    fun i q hq hrunning hi hcancel hwaits => ?_, fun hrunning hi hcancel hwaits => ?_⟩
  · refine eq_of_returns_of_idle b loaded hstatus hstate ?_ returns
    refine hidle.imp id fun hrange i hle heq => ?_
    omega
  · obtain ⟨fuel, seg, hseg, hrun⟩ := arm state.toInt.toNat hrunning (by omega) (by omega)
    exact cancelledFrom_of_armRun hrequested hrun
  · have hlt := (List.getElem?_eq_some_iff.mp hq).1
    obtain ⟨fuel, seg, hseg, hrun⟩ := arm i hrunning hi (Nat.le_of_lt hlt)
    rw [hrunning] at hstatus
    exact suspendsAt_of_armRun b tree noCalls hq hseg hstatus hcancel hwaits hrun
  · obtain ⟨fuel, seg, hseg, hrun⟩ := arm b.points.length hrunning hi (Nat.le_refl _)
    exact completesFrom_of_armRun b tree noCalls hseg hcancel hwaits hrun

end

/-! ### A greeter that was just started -/

namespace Greeter

/-- The greeter on the first instance, alone in its image. -/
def site : Site where
  image := ⟨#[⟨"Greet", machine⟩], (lowerProcedure {} procedure names).2⟩
  index := 0
  program := ⟨"Greet", machine⟩
  owner := 0

/-- A host in which the greeter was just started. -/
def started : HostState :=
  { HostState.new ⟨1.0, 10⟩ with
    instances :=
      #[⟨.empty, Bindings.empty.insert 0 { Storage.fresh machine with task := some 0 }⟩]
    tasks := #[⟨.pending, .activation⟩] }

end Greeter

theorem greeter_oneStep :
    ∃ points v s', suspensionPoints Greeter.names Greeter.procedure = .ok points ∧
    Returns (Greeter.site.dispatch 5) Greeter.started v s' ∧
    OneStep Greeter.procedure points Greeter.site 0 0 Greeter.started s' := by
  have hfound : (suspensionPoints Greeter.names Greeter.procedure).isOk = true := by
    decide +kernel
  have hloaded : Greeter.site.Loaded := rfl
  obtain ⟨v, s', hreturns⟩ : ∃ v s', Returns (Greeter.site.dispatch 5) Greeter.started v s' :=
    exists_returns_of_isOk (by decide +kernel)
  cases hpoints : suspensionPoints Greeter.names Greeter.procedure with
  | error why =>
    rw [hpoints] at hfound
    cases hfound
  | ok points =>
    refine ⟨points, v, s', rfl, hreturns, ?_⟩
    exact dispatch_oneStep Greeter.lowered hpoints (by decide +kernel) (by decide +kernel)
      hloaded (eq_some_int (by decide +kernel)) (eq_some_int (by decide +kernel)) hreturns

end Resumable
