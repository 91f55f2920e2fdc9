import Resumable.Proofs.Dispatch

/-!
# What an arm does

**One call of a dispatch runs one arm**, and an arm does one of four things.  It ends the
activation as cancelled, it waits again for tasks that are not done, it runs its segment and
asks to be called back in the next state, or it runs the last segment and finishes.

## Main definitions

* `Site.Loaded`: the code of the site is loaded.
* `ArmStart`: how an arm gets to its segment, or why it does not.
* `ArmRun`: what an arm does, with the effects of its segment.

## Main statements

* `armStart_of_returns`: a dispatch that is running and returns starts the arm of its state.
* `armRun_of_armStart`: from there on it has effects, and ends as its segment does.
-/

namespace Resumable

open Resumable.Bound (Procedure)
open Machine (SlotId TaskStatus)

variable {awaited : Option (List SlotId × JoinMode)} {frame : Frame}

/-- The program whose code runs at the site is loaded. -/
def Site.Loaded (site : Site) : Prop := site.image.programs[site.index]? = some site.program

/-- The dispatch of a site, called as the scheduler calls it. -/
def Site.dispatch (site : Site) (fuel : Nat) : Run Value :=
  runProcedure site.image fuel (procIndex site.index .dispatch) site.owner []

/-- The check for cancellation, where the machine has one, finds that
nothing was requested. -/
def Site.Uncancelled (site : Site) (s : HostState) : Prop :=
  ∀ slot, site.machine.cancelSlot = some slot → site.cancelState? s slot = some false

/-- How an arm gets to its segment, or why it does not. -/
inductive ArmStart (site : Site) (fuel : Nat) (span : Span)
    (awaited : Option (List SlotId × JoinMode)) (seg : Segment)
    (s s' : HostState) : Prop where
  /-- Cancellation was requested. -/
  | cancelled (slot : SlotId) (handle : site.machine.cancelSlot = some slot)
    (requested : site.cancelState? s slot = some true)
    (finish : Returns (finish site .cancelled none) s () s')
  /-- The awaited tasks are not done. -/
  | waiting (slots : List SlotId) (mode : JoinMode) (ids : List TaskId)
    (uncancelled : site.Uncancelled s) (awaits : awaited = some (slots, mode))
    (tasks : slots.map (site.slotIn s) = ids.map fun id => some (.task id))
    (unfinished : s.tasks.done ids mode = false)
    (again : s' = { s with
      scheduler := s.scheduler.submit (.completion ids mode) (.resume site.handle) })
  /-- The segment runs. -/
  | runs (flow : Flow) (frame : Frame)
    (uncancelled : site.Uncancelled s)
    (ready : ∀ slots mode, awaited = some (slots, mode) → ∃ ids,
      slots.map (site.slotIn s) = ids.map (fun id => some (.task id)) ∧
        s.tasks.done ids mode = true)
    (left : flow ≠ .breakLoop ∧ flow ≠ .continueLoop)
    (segment : Returns (execBlock site (runProcedure site.image fuel) fuel
      (seg.body ++ armEnd span site.machine.dispatch.name seg) ⟨[], .empty⟩) s
        (flow, frame) s')

section

variable {site : Site} {fuel : Nat} {s s' : HostState} {span : Span}
  {mode : LivenessMode} {names : NameTable} {p : Procedure}

variable {flow : Flow} {v : Value} {seg : Segment}

/-- A procedure does not end by leaving a loop. -/
theorem returned_of_returns (h : Returns (returned flow) s v s') :
    (flow ≠ .breakLoop ∧ flow ≠ .continueLoop) ∧ s' = s := by
  cases flow with
  | next | finished | ret => exact ⟨⟨by simp, by simp⟩, (returns_pure.mp h).2⟩
  | breakLoop | continueLoop => exact (Run.not_returns_fail h).elim

/-- Past the check for cancellation, an arm waits or runs. -/
private theorem armStart_of_guard (left : flow ≠ .breakLoop ∧ flow ≠ .continueLoop)
    (uncancelled : site.Uncancelled s)
    (h : Returns (execBlock site (runProcedure site.image fuel) fuel
      ((awaited.map fun (tasks, mode) => awaitGuard span site.machine.dispatch.name tasks
        mode).toList ++ (seg.body ++ armEnd span site.machine.dispatch.name seg))
          ⟨[], .empty⟩) s (flow, frame) s') : ArmStart site fuel span awaited seg s s' := by
  cases awaited with
  | none => exact .runs flow frame uncancelled (fun _ _ heq => by cases heq) left h
  | some wait =>
    obtain ⟨slots, mode⟩ := wait
    replace h : Returns (execBlock site (runProcedure site.image fuel) fuel
      (awaitGuard span site.machine.dispatch.name slots mode ::
        (seg.body ++ armEnd span site.machine.dispatch.name seg)) ⟨[], .empty⟩) s
          (flow, frame) s' := h
    obtain ⟨ids, hids⟩ := tasks_of_returns_awaitGuard h
    cases hdone : s.tasks.done ids mode with
    | false =>
      exact .waiting slots mode ids uncancelled rfl hids hdone
        ((ends_awaitGuard_of_not_done hids hdone).mp h).2
    | true =>
      refine .runs flow frame uncancelled (fun slots' mode' heq => ?_) left
        ((ends_awaitGuard_of_done hids hdone).mp h)
      obtain ⟨rfl, rfl⟩ := Prod.mk.inj (Option.some.inj heq)
      exact ⟨ids, hids, hdone⟩

/-- **An arm checks for cancellation, then for the awaited tasks, and then
runs its segment.** -/
theorem armStart_of_arm {l : SlotLayout} (hcancel : l.cancel = site.machine.cancelSlot)
    {previous : Option Segment} (left : flow ≠ .breakLoop ∧ flow ≠ .continueLoop)
    (h : Returns (execBlock site (runProcedure site.image fuel) fuel
      (armOf span l site.machine.dispatch.name previous seg).body ⟨[], .empty⟩) s
        (flow, frame) s') :
    ArmStart site fuel span ((previous.bind Segment.exit).bind fun exit =>
      exit.request.awaited?) seg s s' := by
  unfold armOf Machine.Arm.body at h
  dsimp only at h
  rw [hcancel, List.append_assoc, List.append_assoc] at h
  cases hslot : site.machine.cancelSlot with
  | none =>
    rw [hslot] at h
    exact armStart_of_guard left (fun _ heq => by rw [hslot] at heq; cases heq) h
  | some slot =>
    rw [hslot] at h
    replace h : Returns (execBlock site (runProcedure site.image fuel) fuel
      (cancelCheck span slot :: _) ⟨[], .empty⟩) s (flow, frame) s' := h
    obtain ⟨requested, hrequested⟩ := cancelState?_of_returns h
    cases requested with
    | true =>
      obtain ⟨_, hfinish, -⟩ :=
        returns_bind_pure.mp ((ends_cancelCheck_of_requested hrequested).mp h)
      exact .cancelled slot hslot hrequested hfinish
    | false =>
      refine armStart_of_guard left (fun slot' heq => ?_)
        ((ends_cancelCheck_of_not_requested hrequested).mp h)
      rw [hslot] at heq
      rw [← Option.some.inj heq]
      exact hrequested

/-! ### From a dispatch to its arm -/

/-- A dispatch that returns has run its body. -/
theorem body_of_returns (loaded : site.Loaded) (h : Returns (site.dispatch fuel) s v s') :
    ∃ fuel' flow frame, fuel = fuel' + 1 ∧ (flow ≠ .breakLoop ∧ flow ≠ .continueLoop) ∧
      Returns (execBlock site (runProcedure site.image fuel') fuel' site.machine.dispatch.body
        ⟨[], .empty⟩) s (flow, frame) s' := by
  unfold Site.dispatch at h
  cases fuel with
  | zero => exact (not_returns_throw h).elim
  | succ fuel =>
    rw [runProcedure_dispatch loaded] at h
    obtain ⟨⟨flow, frame⟩, mid, hbody, hreturned⟩ := returns_bind.mp h
    obtain ⟨left, rfl⟩ := returned_of_returns hreturned
    exact ⟨fuel, flow, frame, rfl, left, hbody⟩

/-- **A dispatch without anything to do changes nothing**: the activation is over, or its
state has no arm. -/
theorem eq_of_returns_of_idle (b : Lowered mode names p site.machine) (loaded : site.Loaded)
    {status state : Int64}
    (hstatus : site.slotIn s site.machine.statusSlot = some (.int status))
    (hstate : site.slotIn s site.machine.stateSlot = some (.int state))
    (hidle : status ≠ TaskStatus.running.code ∨
      ∀ i ≤ b.points.length, state.toInt ≠ (i : Nat))
    (h : Returns (site.dispatch fuel) s v s') : s' = s := by
  obtain ⟨fuel, flow, frame, rfl, -, hbody⟩ := body_of_returns loaded h
  rw [b.dispatch_eq] at hbody
  by_cases hrunning : status = TaskStatus.running.code
  · have hnone := hidle.resolve_left (not_not_intro hrunning)
    rw [hrunning] at hstatus
    have harm :=
      (ends_dispatchBody_of_running (l := site.machine.layout) hstatus hstate).mp hbody
    rw [execArm_armsFrom_of_ne] at harm
    · exact (returns_pure.mp harm).2
    · intro seg hseg heq
      obtain ⟨i, hi⟩ := List.getElem?_of_mem hseg
      have hlt := (List.getElem?_eq_some_iff.mp hi).1
      rw [b.length_segments] at hlt
      rw [(b.exit_eq hi).1] at heq
      exact hnone i (Nat.le_of_lt_succ hlt) heq.symm
  · exact ((ends_dispatchBody_of_over (l := site.machine.layout) hstatus hrunning).mp hbody).2

/-- The body of a dispatch that is running is the arm of its state. -/
theorem ends_body_of_running (b : Lowered mode names p site.machine) {state : Int64}
    {i : Nat} {call : Caller} {r : Except Halt (Flow × Frame)}
    (hstatus : site.slotIn s site.machine.statusSlot = some (.int TaskStatus.running.code))
    (hstate : site.slotIn s site.machine.stateSlot = some (.int state))
    (hi : state.toInt = i) (hseg : b.segments[i]? = some seg) :
    Ends (execBlock site call fuel site.machine.dispatch.body frame) s r s' ↔
      Ends (execBlock site call fuel
        (armOf p.span site.machine.layout site.machine.dispatch.name
        (if i = 0 then none else b.segments[i - 1]?) seg).body frame) s r s' := by
  rw [b.dispatch_eq, ends_dispatchBody_of_running (l := site.machine.layout) hstatus hstate,
    execArm_armsFrom 0 (fun k seg hk => by rw [(b.exit_eq hk).1, Nat.zero_add]) hseg
      (by rw [hi, Nat.zero_add])]

/-- **A dispatch that is running starts the arm of its state.** -/
theorem armStart_of_returns (b : Lowered mode names p site.machine) (loaded : site.Loaded)
    {state : Int64} {i : Nat}
    (hstatus : site.slotIn s site.machine.statusSlot = some (.int TaskStatus.running.code))
    (hstate : site.slotIn s site.machine.stateSlot = some (.int state))
    (hi : state.toInt = i) (hle : i ≤ b.points.length)
    (h : Returns (site.dispatch fuel) s v s') :
    ∃ fuel' seg, fuel = fuel' + 1 ∧ b.segments[i]? = some seg ∧
      ArmStart site fuel' p.span (b.awaitedBefore i) seg s s' := by
  obtain ⟨fuel, flow, frame, rfl, left, hbody⟩ := body_of_returns loaded h
  obtain ⟨seg, hseg⟩ := b.exists_segment hle
  exact ⟨fuel, seg, rfl, hseg, armStart_of_arm rfl
    left ((ends_body_of_running b hstatus hstate hi hseg).mp hbody)⟩

/-! ### The effects of an arm -/

/-- What an arm does, with the effects of its segment. -/
inductive ArmRun (site : Site) (fuel : Nat) (P : Policy)
    (awaited : Option (List SlotId × JoinMode)) (seg : Segment)
    (s s' : HostState) : Prop where
  /-- It ends the activation as cancelled. -/
  | cancelled (slot : SlotId) (handle : site.machine.cancelSlot = some slot)
    (requested : site.cancelState? s slot = some true)
    (finish : Returns (finish site .cancelled none) s () s')
  /-- It waits again. -/
  | waiting (slots : List SlotId) (mode : JoinMode) (ids : List TaskId)
    (uncancelled : site.Uncancelled s) (awaits : awaited = some (slots, mode))
    (tasks : slots.map (site.slotIn s) = ids.map fun id => some (.task id))
    (unfinished : s.tasks.done ids mode = false)
    (again : s' = { s with
      scheduler := s.scheduler.submit (.completion ids mode) (.resume site.handle) })
  /-- It runs its segment, moves to the next state and asks to be called back. -/
  | suspended (exit : SegmentExit) (ends : seg.exit = some exit)
    (mid last : HostState) (st : Storage)
    (frame : Frame) (due : Due)
    (uncancelled : site.Uncancelled s)
    (body : Returns (execBlock site (runProcedure site.image fuel) fuel seg.body ⟨[], .empty⟩)
      s (.next, frame) mid)
    (effects : Effects .returned site (runProcedure site.image fuel) P s mid)
    (slots : site.slotsIn mid = some st)
    (inRange : site.machine.stateSlot < st.slots.length)
    (timing : Returns (dueOf site (runProcedure site.image fuel) frame exit.request.timing)
      (site.put mid { st with
        slots := st.slots.set site.machine.stateSlot (.int (.ofNat (seg.index + 1))) })
      due last)
    (request : s' =
      { last with scheduler := last.scheduler.submit due (.resume site.handle) })
  /-- It runs the last segment and finishes. -/
  | finished (last : seg.exit = none) (mid : HostState) (v : Option Value)
    (uncancelled : site.Uncancelled s)
    (effects : Effects .returned site (runProcedure site.image fuel) P s mid)
    (finish : Returns (finish site .succeeded v) mid () s')

/-- **An arm has the effects of its segment and ends as the segment does.** -/
theorem armRun_of_armStart {P : Policy}
    (plain : Machine.PlainBlock P (if seg.exit.isSome then .segment else
      .lastSegment) seg.body)
    (h : ArmStart site fuel span awaited seg s s') : ArmRun site fuel P awaited seg s s' := by
  cases h with
  | cancelled slot handle requested finish => exact .cancelled slot handle requested finish
  | waiting slots mode ids uncancelled awaits tasks unfinished again =>
    exact .waiting slots mode ids uncancelled awaits tasks unfinished again
  | runs flow frame uncancelled _ left segment =>
    rw [execBlock_append] at segment
    obtain ⟨⟨flow', frame'⟩, mid, hbody, hend⟩ := returns_bind.mp segment
    have hleft := execBlock_leaves (e := .returned) fuel seg.body plain ⟨[], .empty⟩ hbody
      (Ending.covers_ok _ _)
    cases hleft with
    | finished last effects finish =>
      obtain ⟨-, rfl⟩ := returns_pure.mp hend
      refine .finished ?_ _ _ uncancelled effects finish
      cases hexit : seg.exit with
      | none => rfl
      | some exit =>
        rw [hexit] at last
        cases last
    | flow allowed _ effects =>
      cases flow' with
      | next =>
        cases hexit : seg.exit with
        | none =>
          exact .finished hexit mid none uncancelled effects
            (returns_armEnd_of_last hexit hend)
        | some exit =>
          obtain ⟨st, due, last, hst, hlt, hdue, rfl⟩ := returns_armEnd hexit hend
          exact .suspended exit hexit mid last st frame' due uncancelled
            hbody effects hst hlt hdue
            rfl
      | breakLoop =>
        obtain ⟨hflow, -⟩ := returns_pure.mp hend
        exact absurd (Prod.mk.inj hflow).1 left.1
      | continueLoop =>
        obtain ⟨hflow, -⟩ := returns_pure.mp hend
        exact absurd (Prod.mk.inj hflow).1 left.2
      | ret v =>
        -- Outside closures nothing returns.
        cases hexit : seg.exit <;> rw [hexit] at allowed <;> cases allowed
      | finished => contradiction

end

end Resumable
