import Resumable.Proofs.Draining
import Resumable.Proofs.Starting
import Resumable.Proofs.Step

/-!
# Waiting for frames

**An activation that waits for frames runs one segment in each frame it has asked for, and
none in between.**  Its call back is a timer for a frame that lies ahead.  While the requests
of a stride are fired the frame stands still, so the timer that a segment leaves is not due in
the stride that ran the segment; and a stride goes on until nothing is due, so the timer is
not missed in the stride in which its frame begins.

Everything else that a host does leaves the activation alone, as long as nobody
calls its procedures: its slots belong to its instance, and only its own dispatch
asks for its call back.

## Main definitions

* `Unmoved site`: the slots of a site and its call backs are as they were.
* `WaitsFrames p points site i s t n`: the dispatch that led from `s` to `t` ran segment `i`
  and waits for `n` frames.
* `Resting`: where an activation stands after its dispatch, until it is called back.
* `Paced`: the call backs of an activation come in the frames it has asked for.

## Main statements

* `Event.Apart.unmoved`: what keeps away from an activation leaves it alone.
* `resting_of_dispatch`: a dispatch leaves the activation waiting for frames, or over.
* `Resting.drained_undue`, `Resting.drained`: what firing requests does to an activation that
  is not due, and to any.
* `paced_of_walk`: an activation is paced through every walk.
* `paced_by_frames`: so are the activations of a lowered procedure, however
  the host is driven.
-/

namespace Resumable

open Resumable.Bound (Procedure)
open Machine (SlotId TaskStatus)

variable {r : Request} {p : Procedure} {action : Action} {other : Site}
  {s s' t u u' : HostState} {image : Image} {fuel i : Nat}
  {select : HostState → Option (Request × HostState)} {events : List Event}
  {strides : List Stride} {points : List SuspensionPoint}

/-! ### The call backs of one handle -/

namespace Scheduler

/-- The outstanding call backs of a handle. -/
def callBacksOf (q : Scheduler) (handle : ResumeHandle) : List Request :=
  q.pending.filter fun r => r.action = .resume handle

variable {q q' : Scheduler} {handle : ResumeHandle} {p : Request → Bool}

theorem mem_callBacksOf :
    r ∈ q.callBacksOf handle ↔ r ∈ q.pending ∧ r.action = .resume handle := by
  simp [callBacksOf]

theorem callBacksOf_submit (due : Due) (h : action ≠ .resume handle) :
    (q.submit due action).callBacksOf handle = q.callBacksOf handle := by
  unfold callBacksOf submit
  cases action with
  | complete task => simp
  | resume other =>
    have hother : other ≠ handle := fun heq => h (congrArg _ heq)
    have hkept : ∀ r ∈ q.pending, (decide (r.action = .resume handle) &&
      decide (r.action ≠ .resume other)) =
        decide (r.action = .resume handle) := by
      intro r _
      by_cases hr : r.action = .resume handle <;> simp [hr, Ne.symm hother]
    rw [List.filter_append, List.filter_filter, List.filter_congr hkept]
    simp [hother]

/-- Taking another request leaves the call backs. -/
theorem callBacksOf_take? (h : q.take? p = some (r, q')) (other : r.action ≠ .resume handle) :
    q'.callBacksOf handle = q.callBacksOf handle := by
  obtain ⟨-, -, before, after, hsplit, hothers, -⟩ := take?_eq_some h
  simp [callBacksOf, hsplit, hothers, other]

/-- Taking the only call back leaves none. -/
theorem eq_of_take? (h : q.take? p = some (r, q')) (own : r.action = .resume handle)
    {only : Request} (one : q.callBacksOf handle = [only]) :
    r = only ∧ q'.callBacksOf handle = [] := by
  have hperm := (perm_of_take? h).filter fun r => decide (r.action = .resume handle)
  rw [List.filter_cons_of_pos (by exact decide_eq_true own), show q.pending.filter _ =
    _ from one, List.singleton_perm] at hperm
  obtain ⟨rfl, hnone⟩ := List.cons.inj hperm
  exact ⟨rfl, hnone.symm⟩

theorem callBacksOf_of_resumes (h : q'.resumes = q.resumes) :
    q'.callBacksOf handle = q.callBacksOf handle := by
  have hresumes : ∀ q : Scheduler,
    q.resumes.filter (fun r => r.action = .resume handle) = q.callBacksOf handle := by
    intro q
    unfold resumes callBacksOf
    rw [List.filter_filter]
    refine List.filter_congr fun r _ => ?_
    by_cases hr : r.action = .resume handle <;> simp [hr, Action.isResume]
  rw [← hresumes, h, hresumes]

end Scheduler

/-! ### Others leave an activation alone -/

/-- The slots of a site and its call backs are as they were. -/
structure Unmoved (site : Site) (s s' : HostState) : Prop where
  slots : site.slotsIn s' = site.slotsIn s
  queue : s'.scheduler.callBacksOf site.handle = s.scheduler.callBacksOf site.handle

section

variable {site : Site} {s'' : HostState}

theorem Unmoved.trans (h : Unmoved site s s') (h' : Unmoved site s' s'') :
    Unmoved site s s'' :=
  ⟨h'.slots.trans h.slots, h'.queue.trans h.queue⟩

/-- **An act of code of another site.** -/
theorem Act.unmoved (apart : ¬ (other.owner = site.owner ∧ other.index = site.index))
    (h : Act other s s') : Unmoved site s s' := by
  have hput : ∀ s st, site.slotsIn (other.put s st) = site.slotsIn s := fun s st =>
    HostState.storage?_putStorage_of_ne apart _
  cases h with
  | task kind due fits => exact ⟨rfl, Scheduler.callBacksOf_submit due (by simp)⟩
  | callBack due =>
    refine ⟨rfl, Scheduler.callBacksOf_submit due fun heq => apart ?_⟩
    obtain ⟨howner, hindex⟩ := ResumeHandle.mk.inj (Action.resume.inj heq)
    exact ⟨howner, Attended.procIndex_dispatch_inj hindex⟩
  | answer | line | closure | orphan | outcome => exact ⟨rfl, rfl⟩
  | field name v => exact ⟨HostState.storage?_putField name v _, rfl⟩
  | slots content => exact ⟨hput _ _, rfl⟩
  | start => exact ⟨hput _ _, rfl⟩

theorem stable_unmoved (apart : ¬ (other.owner = site.owner ∧ other.index = site.index))
    (start : HostState) : Stable other (Unmoved site start) fun _ _ => True where
  ordinary _ _ _ _ := trivial
  acts act _ hs := hs.trans (act.unmoved apart)
  answer _ _ _ := trivial
  closure _ _ _ hs := hs.trans ⟨rfl, rfl⟩
  slots _ _ := Or.inr fun _ _ _ => trivial
  machine _ _ _ _ _ := trivial

/-- **What keeps away from an activation leaves it alone.** -/
theorem Event.Apart.unmoved {e : Event} (h : e.Apart site) :
    Unmoved site e.before e.after := by
  obtain ⟨fuel, h⟩ := h
  have hcall := upholds_runWithout site (I := Unmoved site e.before) (E := fun _ _ => True)
    (fun _ _ _ => trivial) (fun apart => stable_unmoved apart _) fuel
  have hrun : Upholds (Unmoved site e.before) (fun _ _ => True)
    (e.cause.run (site.runWithout fuel)) := by
    cases e.cause with
    | call index owner args =>
      exact upholds_bind (hcall index owner args) fun _ => upholds_pure _
    | fire r =>
      obtain ⟨seq, due, action⟩ := r
      cases action with
      | resume handle => exact upholds_bind (hcall _ _ _) fun _ => upholds_pure _
      | complete task => exact upholds_modify fun _ hs => hs.trans ⟨rfl, rfl⟩
  exact hrun h ⟨rfl, rfl⟩

/-! ### The frame -/

theorem frame_of_runProcedure {index : ProcIndex} {owner : InstanceId} {args : List Value}
    {v : Value} (h : Returns (runProcedure image fuel index owner args) s v s') :
    s'.scheduler.frame = s.scheduler.frame :=
  ((confined_runProcedure image fuel index owner args).acts h).invariant
    (I := fun t => t.scheduler.frame = s.scheduler.frame)
      (fun _ act hs => by cases act <;> exact hs) rfl

theorem frame_of_perform (h : Returns (perform image fuel action) s () s') :
    s'.scheduler.frame = s.scheduler.frame := by
  cases action with
  | resume handle =>
    obtain ⟨_, hrun, -⟩ := returns_bind_pure.mp h
    exact frame_of_runProcedure hrun
  | complete task => rw [returns_modify.mp h]

theorem Selects.frame_eq (selects : Selects select) (h : select s = some (r, s')) :
    s'.scheduler.frame = s.scheduler.frame := by
  obtain ⟨p, q, taken, rfl⟩ := selects h
  exact (Scheduler.SameClock.of_take? taken).2

theorem Drains.frame_eq (selects : Selects select)
    (h : Drains image fuel select s events s') : s'.scheduler.frame = s.scheduler.frame := by
  induction h with
  | rest => rfl
  | fire selected fires _ ih =>
    exact ih.trans ((frame_of_perform fires).trans (selects.frame_eq selected))

/-- The frame never goes back. -/
theorem Walk.frame_le (h : Walk image s strides s') :
    s.scheduler.frame ≤ s'.scheduler.frame := by
  induction h with
  | done => exact Nat.le_refl _
  | step goes _ ih =>
    refine Nat.le_trans ?_ ih
    cases goes with
    | call runs drains =>
      exact Nat.le_of_eq ((drains.frame_eq selects_takeReady).trans
        (frame_of_runProcedure runs)).symm
    | frame drains =>
      rw [drains.frame_eq selects_takeDue]
      exact Nat.le_succ _
    | seconds passed drains => exact Nat.le_of_eq (drains.frame_eq selects_takeDue).symm
    | rest drains => exact Nat.le_of_eq (drains.frame_eq selects_takeDue).symm

end

/-! ### Waiting -/

/-- Does a suspension of the kind wait for frames? -/
def SuspensionKind.countsFrames : SuspensionKind → Bool
  | .frameDelay _ | .yieldStep => true
  | .timedDelay _ | .joinAll _ | .joinAny _ | .delegate _ => false

theorem SuspensionKind.awaitsTasks_of_countsFrames {kind : SuspensionKind}
    (h : kind.countsFrames = true) : kind.awaitsTasks = false := by
  cases kind with
  | frameDelay | yieldStep => rfl
  | timedDelay | joinAll | joinAny | delegate => cases h

/-- **How many frames the wait at a point takes**: one at a yield, and at a delay the value of
its operand, but at least one.  Evaluating the operand leads from `s` to `last`. -/
inductive FrameCount (site : Site) (fuel : Nat) (frame : Frame) (q : SuspensionPoint)
    (s last : HostState) : Nat → Prop where
  | yield (kind : q.kind = .yieldStep) : FrameCount site fuel frame q s last 1
  | delay (e : Bound.Expr) (count : Int64) (kind : q.kind = .frameDelay e)
    (value : Returns (eval site (runProcedure site.image fuel) frame
      (slottedExpr site.machine.layout e)) s
      (.int count) last) : FrameCount site fuel frame q s last (max count.toInt.toNat 1)

/-- **The dispatch ran segment `i` from `s`**, and waits at the point after
it for `n` frames. -/
def WaitsFrames (p : Procedure) (points : List SuspensionPoint) (site : Site) (i : Nat)
    (s : HostState) (n : Nat) : Prop :=
  ∃ q segs seg fuel frame mid st last, points[i]? = some q ∧
    segments p points site.machine.layout = .ok segs ∧
    segs[i]? = some seg ∧
    Returns (execBlock site (runProcedure site.image fuel) fuel seg.body ⟨[], .empty⟩) s
      (.next, frame) mid ∧
    site.slotsIn mid = some st ∧
    FrameCount site fuel frame q (site.put mid { st with
      slots := st.slots.set site.machine.stateSlot (.int (.ofNat (i + 1))) }) last n

/-- The activation was cancelled or has completed. -/
def Ended (points : List SuspensionPoint) (site : Site) (i : Nat) (s t : HostState) : Prop :=
  site.CancelRequested s ∨ i = points.length ∧ CompletesFrom site s t

/-- The activation waits in state `i` for a call back in the given frame. -/
structure Asleep (site : Site) (i due : Nat) (s : HostState) : Prop where
  state : site.slotIn s site.machine.stateSlot = some (.int (.ofNat i))
  status : site.slotIn s site.machine.statusSlot = some (.int TaskStatus.running.code)
  queue : ∃ seq,
    s.scheduler.callBacksOf site.handle = [⟨seq, .frame due, .resume site.handle⟩]

/-- **Where an activation stands in `u`**, if its last dispatch was in state `i` and
led from `s` to `t`. -/
inductive Resting (p : Procedure) (points : List SuspensionPoint) (site : Site) (i : Nat)
    (s t u : HostState) : Prop where
  | done (ended : Ended points site i s t) (none : u.scheduler.callBacksOf site.handle = [])
  | asleep (n : Nat) (waits : WaitsFrames p points site i s n)
    (asleep : Asleep site (i + 1) (min (s.scheduler.frame + n) Scheduler.lastFrame) u)

/-- The frames for which the call backs of the site ask lie ahead. -/
def Undue (site : Site) (s : HostState) : Prop :=
  ∀ r ∈ s.scheduler.callBacksOf site.handle, ∀ d, r.due = .frame d → s.scheduler.frame < d

section

variable {site : Site} {n : Nat}

theorem FrameCount.pos {frame : Frame} {q : SuspensionPoint}
    (h : FrameCount site fuel frame q s t n) : 0 < n := by
  cases h with
  | yield => exact Nat.one_pos
  | delay e count => exact Nat.lt_of_lt_of_le Nat.one_pos (Nat.le_max_right _ _)

theorem Unmoved.slotIn (same : Unmoved site u u') (k : SlotId) :
    site.slotIn u' k = site.slotIn u k :=
  congrArg (fun st : Option Storage => st.bind fun st => st.slots[k]?) same.slots

theorem Resting.of_unmoved (h : Resting p points site i s t u) (same : Unmoved site u u') :
    Resting p points site i s t u' := by
  cases h with
  | done ended none => exact .done ended (same.queue.trans none)
  | asleep n waits asleep =>
    obtain ⟨seq, hqueue⟩ := asleep.queue
    exact .asleep n waits
      ⟨(same.slotIn _).trans asleep.state, (same.slotIn _).trans asleep.status, seq,
        same.queue.trans hqueue⟩

theorem Undue.of_unmoved (h : Undue site u) (same : Unmoved site u u')
    (frame : u'.scheduler.frame = u.scheduler.frame) : Undue site u' := by
  intro r hr d hd
  rw [same.queue] at hr
  rw [frame]
  exact h r hr d hd

/-- Where nothing is left to select, no call back is due. -/
theorem undue_of_takeDue (h : u.takeDue? = none) : Undue site u := by
  intro r hr d hd
  have hdue := (HostState.settled_of_takeDue h r (Scheduler.mem_callBacksOf.mp hr).1).1
  rw [hd] at hdue
  exact Nat.lt_of_not_le (of_decide_eq_false hdue)

/-- **A dispatch that has just run** leaves nothing that is due: it waits for
one frame at least. -/
theorem Resting.undue (h : Resting p points site i s t t)
    (frame : t.scheduler.frame = s.scheduler.frame)
    (last : s.scheduler.frame < Scheduler.lastFrame) : Undue site t := by
  intro r hr d hd
  cases h with
  | done _ none =>
    rw [none] at hr
    cases hr
  | asleep n waits asleep =>
    obtain ⟨seq, hqueue⟩ := asleep.queue
    rw [hqueue] at hr
    obtain rfl := List.mem_singleton.mp hr
    obtain rfl := Due.frame.inj hd
    obtain ⟨q, segs, seg, fuel, frame', mid, st, last', -, -, -, -, -, count⟩ := waits
    have hpos := count.pos
    omega

end

/-! ### Firing requests -/

/-- Is a call back of the site fired? -/
def Event.resumes (site : Site) (e : Event) : Bool :=
  match e.cause with
  | .call .. => false
  | .fire r => r.action = .resume site.handle

/-- What selects requests takes none that waits for a frame ahead. -/
structure Timely (select : HostState → Option (Request × HostState)) : Prop where
  selects : Selects select
  due : ∀ {s r s' d}, select s = some (r, s') → r.due = .frame d → d ≤ s.scheduler.frame

theorem timely_takeReady : Timely HostState.takeReady? where
  selects := selects_takeReady
  due h hd := by
    have htimer := isTimer_of_takeReady h
    rw [hd] at htimer
    cases htimer

theorem timely_takeDue : Timely HostState.takeDue? where
  selects := selects_takeDue
  due {s r s' d} h hd := by
    obtain hready | ⟨q, htake, rfl⟩ := takeDue?_cases h
    · exact timely_takeReady.due hready hd
    · have hdue := (Scheduler.take?_eq_some htake).1
      rw [hd] at hdue
      exact of_decide_eq_true hdue

section

variable {site : Site} {v w : HostState}

theorem unmoved_of_fire (selects : Selects select) (selected : select u = some (r, v))
    (other : r.action ≠ .resume site.handle) (apart : Event.Apart site ⟨v, .fire r, w⟩) :
    Unmoved site u w := by
  obtain ⟨p, q, taken, rfl⟩ := selects selected
  have hfired : Unmoved site { u with scheduler := q } w := apart.unmoved
  exact ⟨hfired.slots, hfired.queue.trans (Scheduler.callBacksOf_take? taken other)⟩

/-- A call back that is selected is the one that the activation waits for, and
its frame has come. -/
theorem Resting.selected (timely : Timely select) (rest : Resting p points site i s t u)
    (selected : select u = some (r, v)) (own : r.action = .resume site.handle) :
    r ∈ u.scheduler.callBacksOf site.handle ∧ ∃ n, WaitsFrames p points site i s n ∧
      r.due = .frame (min (s.scheduler.frame + n) Scheduler.lastFrame) ∧
      min (s.scheduler.frame + n) Scheduler.lastFrame ≤ u.scheduler.frame ∧
      site.slotIn v site.machine.stateSlot = some (.int (.ofNat (i + 1))) ∧
      site.slotIn v site.machine.statusSlot = some (.int TaskStatus.running.code) ∧
      v.scheduler.callBacksOf site.handle = [] := by
  obtain ⟨p, q, taken, rfl⟩ := timely.selects selected
  have hr := Scheduler.mem_callBacksOf.mpr ⟨Scheduler.mem_of_take? taken, own⟩
  refine ⟨hr, ?_⟩
  cases rest with
  | done _ none =>
    rw [none] at hr
    cases hr
  | asleep n waits asleep =>
    obtain ⟨seq, hqueue⟩ := asleep.queue
    obtain ⟨rfl, hnone⟩ := Scheduler.eq_of_take? taken own hqueue
    exact ⟨n, waits, rfl, timely.due selected rfl, asleep.state, asleep.status, hnone⟩

/-- **While nothing of it is due**, firing requests leaves an activation where it stands. -/
theorem Resting.drained_undue (timely : Timely select)
    (h : Drains image fuel select u events u') (rest : Resting p points site i s t u)
    (undue : Undue site u) (apart : ∀ e ∈ events, e.resumes site = false → e.Apart site) :
    events.filter (Event.resumes site) = [] ∧
    Resting p points site i s t u' ∧ Undue site u' := by
  induction h with
  | rest => exact ⟨rfl, rest, undue⟩
  | @fire u v w _ r events selected fires later ih =>
    obtain ⟨hfirst, hlater⟩ := List.forall_mem_cons.mp apart
    by_cases own : r.action = .resume site.handle
    · obtain ⟨hr, n, -, hdue, hcome, -⟩ := rest.selected timely selected own
      exact absurd (undue r hr _ hdue) (Nat.not_lt_of_le hcome)
    · have same := unmoved_of_fire timely.selects selected own (hfirst (decide_eq_false own))
      have hframe := (frame_of_perform fires).trans (timely.selects.frame_eq selected)
      rw [List.filter_cons_of_neg (by exact mt of_decide_eq_true own)]
      exact ih (rest.of_unmoved same) (undue.of_unmoved same hframe) hlater

end

/-! ### The step of an activation -/

/-- The call backs of the site in a stride. -/
def Stride.resumptions (site : Site) (stride : Stride) : List Event :=
  stride.events.filter (Event.resumes site)

/-- How many call backs of one activation a stride may hold. -/
def Impulse.share : Impulse → Nat
  | .frame => 1
  | .call .. | .seconds _ | .rest => 0

/-- **The call backs of an activation come in the frames it has asked for.**  The dispatch in
state `i` led from `s` to `t`; the call backs after it are given, and the run ends in frame
`final`.  If the activation is not over, it waits for a number of frames, and the next call
back comes in the frame in which these have passed, or the run ends before. -/
inductive Paced (p : Procedure) (points : List SuspensionPoint) (site : Site) (final : Nat) :
    Nat → HostState → HostState → List Event → Prop where
  | ended {i : Nat} {s t : HostState} (ended : Ended points site i s t) :
    Paced p points site final i s t []
  | waits {i n : Nat} {s t : HostState} (waits : WaitsFrames p points site i s n)
    (early : final < s.scheduler.frame + n) : Paced p points site final i s t []
  | resumed {i n : Nat} {s t : HostState} {e : Event} {events : List Event}
    (waits : WaitsFrames p points site i s n)
    (punctual : e.before.scheduler.frame = s.scheduler.frame + n)
    (rest : Paced p points site final (i + 1) e.before e.after events) :
      Paced p points site final i s t (e :: events)

section

variable {mode : LivenessMode} {names : NameTable} {site : Site}
  (b : Lowered mode names p site.machine) (tree : p.TreeShaped) (noCalls : p.CallsNoProcedure)
  (countable : p.IsCountable) (counts : ∀ q ∈ b.points, q.kind.countsFrames)
  (loaded : site.Loaded)

include tree noCalls countable counts loaded

/-- **A dispatch leaves the activation waiting for frames, or over.** -/
theorem resting_of_dispatch {v : Value} (hi : i ≤ b.points.length)
    (hstate : site.slotIn s site.machine.stateSlot = some (.int (.ofNat i)))
    (hstatus : site.slotIn s site.machine.statusSlot = some (.int TaskStatus.running.code))
    (none : s.scheduler.callBacksOf site.handle = [])
    (h : Returns (site.dispatch fuel) s v t) : Resting p b.points site i s t t := by
  obtain ⟨fuel, seg, hseg, hrun⟩ :=
    armRun_of_dispatch b loaded hstatus hstate (b.toInt_ofNat countable hi) hi h
  have hwaits : ¬ site.Waits b.points i s := by
    rintro ⟨j, q, ids, -, hq, hawaits, -⟩
    rw [SuspensionKind.awaitsTasks_of_countsFrames
      (counts q (List.mem_of_getElem? hq))] at hawaits
    cases hawaits
  by_cases hcancel : site.CancelRequested s
  · obtain ⟨st, -, rfl⟩ := cancelledFrom_of_armRun hcancel hrun
    exact .done (Or.inl hcancel) none
  rcases Nat.lt_or_eq_of_le hi with hlt | rfl
  · obtain ⟨q, hq⟩ : ∃ q, b.points[i]? = some q := ⟨_, List.getElem?_eq_getElem hlt⟩
    have suspends := suspendsAt_of_armRun b tree noCalls hq hseg hstatus hcancel hwaits hrun
    obtain ⟨kept, seq, due, hpending, hkept, -, segs, seg, fuel, frame, mid, st, last, hsegs,
      hseg, hbody, hst, hdue, -⟩ :=
      suspends.queue
    have hqueue : t.scheduler.callBacksOf site.handle =
      [⟨seq, due, .resume site.handle⟩] := by
      unfold Scheduler.callBacksOf
      rw [hpending, List.filter_append, List.filter_eq_nil_iff.mpr fun r hr => by
        simpa using hkept r hr]
      simp
    have hcounts := counts q (List.mem_of_getElem? hq)
    have waits : ∀ {n}, FrameCount site fuel frame q _ last n →
      WaitsFrames p b.points site i s n := fun count =>
      ⟨q, segs, seg, fuel, frame, mid, st, last, hq, hsegs, hseg, hbody, hst, count⟩
    cases hdue with
    | frames e count kind value =>
      exact .asleep _ (waits (.delay e count kind value))
        ⟨suspends.state, suspends.status, seq, hqueue⟩
    | nextFrame kind _ =>
      exact .asleep _ (waits (.yield kind)) ⟨suspends.state, suspends.status, seq, hqueue⟩
    | seconds e v seconds kind =>
      rw [kind] at hcounts
      cases hcounts
    | tasks ids kind =>
      rw [SuspensionKind.awaitsTasks_of_countsFrames hcounts] at kind
      cases kind
  · have completes := completesFrom_of_armRun b tree noCalls hseg hcancel hwaits hrun
    exact .done (Or.inr ⟨rfl, completes⟩)
      ((Scheduler.callBacksOf_of_resumes completes.resumes).trans none)

/-- **Firing all that is due**, by induction on the requests.  If the frame of the activation
has come, it is called back once; what it then waits for lies ahead, and so the rest of the
requests leaves it alone. -/
theorem Resting.drained (h : Drains site.image fuel HostState.takeDue? u events u')
    (rest : Resting p b.points site i s t u)
    (last : u.scheduler.frame < Scheduler.lastFrame)
    (apart : ∀ e ∈ events, e.resumes site = false → e.Apart site) :
    Undue site u' ∧ (events.filter (Event.resumes site) = [] ∧
      Resting p b.points site i s t u' ∨
      ∃ e n, events.filter (Event.resumes site) = [e] ∧
        e.before.scheduler.frame = u.scheduler.frame ∧
        WaitsFrames p b.points site i s n ∧
          min (s.scheduler.frame + n) Scheduler.lastFrame ≤ u.scheduler.frame ∧
        (∃ r ∈ u.scheduler.callBacksOf site.handle,
          r.due = .frame (min (s.scheduler.frame + n) Scheduler.lastFrame)) ∧
        Resting p b.points site (i + 1) e.before e.after u') := by
  induction h with
  | rest nothing => exact ⟨undue_of_takeDue nothing, Or.inl ⟨rfl, rest⟩⟩
  | @fire u v w _ r events selected fires later ih =>
    obtain ⟨hfirst, hlater⟩ := List.forall_mem_cons.mp apart
    have hframe := timely_takeDue.selects.frame_eq selected
    by_cases own : r.action = .resume site.handle
    · obtain ⟨hr, n, waits, hdue, hcome, hstate, hstatus, hnone⟩ :=
        rest.selected timely_takeDue selected own
      have hi : i + 1 ≤ b.points.length := by
        obtain ⟨q, _, _, _, _, _, _, _, hq, -⟩ := waits
        exact (List.getElem?_eq_some_iff.mp hq).1
      rw [own] at fires
      obtain ⟨_, hdispatch, -⟩ := returns_bind_pure.mp fires
      have rested := resting_of_dispatch b tree noCalls countable counts loaded hi hstate
        hstatus hnone hdispatch
      have undue := rested.undue (frame_of_runProcedure hdispatch) (hframe ▸ last)
      obtain ⟨hnothing, rest', undue'⟩ :=
        rested.drained_undue timely_takeDue later undue hlater
      refine ⟨undue', Or.inr ⟨⟨v, .fire r, _⟩, n, ?_, hframe, waits, hcome,
        ⟨r, hr, hdue⟩, rest'⟩⟩
      rw [List.filter_cons_of_pos (by exact decide_eq_true own), hnothing]
    · have same := unmoved_of_fire selects_takeDue selected own (hfirst (decide_eq_false own))
      have hframe' := (frame_of_perform fires).trans hframe
      obtain ⟨undue, hcases⟩ := ih (rest.of_unmoved same) (hframe' ▸ last) hlater
      rw [List.filter_cons_of_neg (by exact mt of_decide_eq_true own),
        ← hframe', ← same.queue]
      exact ⟨undue, hcases⟩

/-- **One stride**: unless a frame begins it does not call the activation back, and then it
may do so once, in the frame that the activation waits for. -/
theorem Resting.strode {stride : Stride} (goes : stride.Goes site.image u u')
    (rest : Resting p b.points site i s t u) (undue : Undue site u)
    (last : u'.scheduler.frame < Scheduler.lastFrame)
    (apart : ∀ e ∈ stride.events, e.resumes site = false → e.Apart site) :
    Undue site u' ∧ (stride.resumptions site = [] ∧ Resting p b.points site i s t u' ∨
      ∃ e n, stride.resumptions site = [e] ∧ stride.impulse = .frame ∧
        WaitsFrames p b.points site i s n ∧
        e.before.scheduler.frame = s.scheduler.frame + n ∧
        Resting p b.points site (i + 1) e.before e.after u') := by
  cases goes with
  | call runs drains =>
    obtain ⟨hcall, hlater⟩ := List.forall_mem_cons.mp apart
    have same : Unmoved site u _ := (hcall rfl).unmoved
    obtain ⟨hnone, rest, undue⟩ :=
      (rest.of_unmoved same).drained_undue timely_takeReady drains
      (undue.of_unmoved same (frame_of_runProcedure runs)) hlater
    exact ⟨undue, Or.inl ⟨hnone, rest⟩⟩
  | seconds passed drains =>
    have same : Unmoved site u { u with scheduler := u.scheduler.advanceSeconds passed } :=
      ⟨rfl, rfl⟩
    obtain ⟨hnone, rest, undue⟩ :=
      (rest.of_unmoved same).drained_undue timely_takeDue drains
        (undue.of_unmoved same rfl) apart
    exact ⟨undue, Or.inl ⟨hnone, rest⟩⟩
  | rest drains =>
    obtain ⟨hnone, rest, undue⟩ := rest.drained_undue timely_takeDue drains undue apart
    exact ⟨undue, Or.inl ⟨hnone, rest⟩⟩
  | frame drains =>
    have same : Unmoved site u { u with scheduler := u.scheduler.advanceFrame } := ⟨rfl, rfl⟩
    have hframe : u'.scheduler.frame = u.scheduler.frame + 1 :=
      drains.frame_eq selects_takeDue
    have hlast : u.scheduler.frame + 1 < Scheduler.lastFrame := hframe ▸ last
    obtain ⟨undue', hcases⟩ := (rest.of_unmoved same).drained b tree noCalls countable counts
      loaded drains hlast apart
    refine ⟨undue', hcases.imp_right fun hresumed => ?_⟩
    obtain ⟨e, n, hone, hnow, waits, hcome, ⟨r, hr, hdue⟩, rest'⟩ := hresumed
    have hearly := undue r hr _ hdue
    replace hnow : e.before.scheduler.frame = u.scheduler.frame + 1 := hnow
    replace hcome : min (s.scheduler.frame + n) Scheduler.lastFrame ≤ u.scheduler.frame + 1 :=
      hcome
    exact ⟨e, n, hone, rfl, waits, by omega, rest'⟩

/-- **Through every walk an activation is paced**, by induction on the strides. -/
theorem paced_of_walk (walk : Walk site.image u strides u')
    (rest : Resting p b.points site i s t u) (undue : Undue site u)
    (last : u'.scheduler.frame < Scheduler.lastFrame)
    (apart : ∀ stride ∈ strides, ∀ e ∈ stride.events, e.resumes site = false → e.Apart site) :
    Paced p b.points site u'.scheduler.frame i s t
      (strides.flatMap (Stride.resumptions site)) ∧
      ∀ stride ∈ strides, (stride.resumptions site).length ≤ stride.impulse.share := by
  induction walk generalizing i s t with
  | done u =>
    refine ⟨?_, fun _ h => absurd h List.not_mem_nil⟩
    cases rest with
    | done ended _ => exact .ended ended
    | asleep n waits asleep =>
      obtain ⟨seq, hqueue⟩ := asleep.queue
      have hearly := undue _ (hqueue ▸ List.mem_singleton_self _) _ rfl
      exact .waits waits (Nat.lt_of_lt_of_le hearly (Nat.min_le_left _ _))
  | step goes walk ih =>
    obtain ⟨hfirst, hlater⟩ := List.forall_mem_cons.mp apart
    obtain ⟨undue, hcases⟩ := rest.strode b tree noCalls countable counts loaded goes undue
      (Nat.lt_of_le_of_lt walk.frame_le last) hfirst
    rw [List.flatMap_cons]
    rcases hcases with ⟨hnone, rest⟩ | ⟨e, n, hone, hframe, waits, hexact, rest⟩
    · obtain ⟨paced, hshare⟩ := ih rest undue last hlater
      rw [hnone]
      exact ⟨paced, List.forall_mem_cons.mpr ⟨hnone ▸ Nat.zero_le _, hshare⟩⟩
    · obtain ⟨paced, hshare⟩ := ih rest undue last hlater
      rw [hone]
      refine ⟨.resumed waits hexact paced, List.forall_mem_cons.mpr ⟨?_, hshare⟩⟩
      rw [hone, hframe]
      exact Nat.le_refl _

end

/-- **Delays wait for frames.**  A procedure whose suspensions are yields and frame delays,
and which calls no procedure, is started by a call; then the host is driven by calls and by
the clock, and each command returns.  Told event by event, if nothing else calls its entry or
dispatch on the instance, each frame runs at most one of its segments and nothing but a frame
runs any; and the segment after a point runs in the frame in which as many frames have passed
as the point says, at least one, unless the activation is cancelled or the run ends before. -/
theorem paced_by_frames {options : LowerOptions} {p : Procedure} {names names' : NameTable}
    {site : Site} (lowered : lowerProcedure options p names = (.ok site.machine, names'))
    {points : List SuspensionPoint} (found : suspensionPoints names p = .ok points)
    (tree : p.TreeShaped) (noCalls : p.CallsNoProcedure) (countable : p.IsCountable)
    (counts : ∀ q ∈ points, q.kind.countsFrames) (loaded : site.Loaded) {host host' : Host}
    (image : host.image = site.image)
    (fresh : ∀ r ∈ host.state.scheduler.pending, r.action ≠ .resume site.handle)
    {fuel : Nat} {name : String} {args : List Value}
    (entry : site.image.resolve name = .ok (procIndex site.index .entry))
    {commands : List (Nat × Command)} (drives : ∀ c ∈ commands, c.2.drives)
    (accepted : Returns (Host.performAll ((fuel, .call site.owner name args) :: commands))
      host () host')
    (last : host'.state.scheduler.frame < Scheduler.lastFrame) :
    ∃ start settled parts,
      let first : Stride :=
        ⟨fuel, .call (procIndex site.index .entry) site.owner args, start :: settled⟩
      Walk site.image host.state (first :: parts.flatten) host'.state ∧
      List.Forall₂ (Strode site.image) commands parts ∧
      ((∀ e ∈ settled ++ parts.flatten.flatMap Stride.events,
          e.resumes site = false → e.Apart site) →
        (∀ stride ∈ first :: parts.flatten,
          (stride.resumptions site).length ≤ stride.impulse.share) ∧
        ∃ mid, Begun site args host.state mid ∧
          Paced p points site host'.state.scheduler.frame 0 mid start.after
            (parts.flatten.flatMap (Stride.resumptions site))) := by
  obtain ⟨b⟩ := lowered_of_lowerProcedure lowered
  obtain rfl : b.points = points := Except.ok.inj (b.found.symm.trans found)
  obtain ⟨_, walk, strode⟩ :=
    walk_of_performAll (List.forall_mem_cons.mpr ⟨rfl, drives⟩) accepted
  rw [image] at walk strode
  cases strode with
  | @cons _ strides _ parts called strode =>
    obtain ⟨⟨index, hindex, himpulses⟩, hfuel⟩ := called
    obtain ⟨stride, rfl, himpulse⟩ := List.map_eq_singleton_iff.mp himpulses
    obtain rfl := Except.ok.inj (hindex.symm.trans entry)
    obtain rfl := hfuel stride List.mem_cons_self
    cases walk with
    | step goes walk =>
      cases goes with
      | frame | seconds | rest => cases himpulse
      | @call _ _ _ _ _ _ t _ settled runs drains =>
        obtain ⟨rfl, rfl, rfl⟩ := Impulse.call.inj himpulse
        refine ⟨_, settled, parts, .step (.call runs drains) walk, strode, fun apart => ?_⟩
        obtain ⟨hsettled, hlater⟩ := List.forall_mem_append.mp apart
        -- The entry has begun an activation, and its first dispatch has run.
        obtain ⟨mid, _, _, _, begun, hdispatch, -⟩ := begun_of_entry b loaded runs
        have hnone : mid.scheduler.callBacksOf site.handle = [] := by
          rw [begun.refilled.scheduler]
          exact List.filter_eq_nil_iff.mpr fun r hr => by simpa using fresh r hr
        have rest := resting_of_dispatch b tree noCalls countable counts loaded
          (Nat.zero_le _) begun.state begun.status hnone hdispatch
        have hle := Nat.lt_of_le_of_lt walk.frame_le last
        rw [drains.frame_eq selects_takeReady, frame_of_runProcedure hdispatch] at hle
        have undue := rest.undue (frame_of_runProcedure hdispatch) hle
        obtain ⟨hquiet, rest, undue⟩ :=
          rest.drained_undue timely_takeReady drains undue hsettled
        obtain ⟨paced, hshare⟩ :=
          paced_of_walk b tree noCalls countable counts loaded walk rest undue last
          fun stride hstride e he => hlater e (List.mem_flatMap.mpr ⟨stride, hstride, he⟩)
        refine ⟨List.forall_mem_cons.mpr ⟨?_, hshare⟩, mid, begun, paced⟩
        exact Nat.le_of_eq (congrArg List.length hquiet)

/-! ### A greeter that waits for a frame beside another -/

/-- The state after the request that is due first was fired. -/
def HostState.fireFirst (image : Image) (fuel : Nat) (s : HostState) : HostState :=
  match s.takeDue? with
  | none => s
  | some (r, u) => (show Except Halt Unit × HostState from perform image fuel r.action u).2

theorem Drains.eq_of_isNone (h : Drains image fuel select s events s')
    (nothing : (select s).isNone) : events = [] ∧ s' = s := by
  cases h with
  | rest => exact ⟨rfl, rfl⟩
  | fire selected =>
    rw [selected] at nothing
    cases nothing

/-- Where a request is due, a stride fires it first. -/
theorem Drains.first_of_due (h : Drains image fuel HostState.takeDue? s events s')
    (handle : ResumeHandle)
    (due : (s.takeDue?.map fun x => x.1.action) = some (.resume handle)) :
    ∃ u seq due later, events = ⟨u, .fire ⟨seq, due, .resume handle⟩,
      s.fireFirst image fuel⟩ :: later ∧
      Returns (Cause.run (runProcedure image fuel) (.fire ⟨seq, due, .resume handle⟩)) u ()
        (s.fireFirst image fuel) ∧
      Drains image fuel HostState.takeDue? (s.fireFirst image fuel) later s' := by
  cases h with
  | rest nothing =>
    rw [nothing] at due
    cases due
  | @fire _ u t _ r later selected fires rest =>
    rw [selected] at due
    have hfirst : s.fireFirst image fuel = t := by
      unfold HostState.fireFirst
      rw [selected]
      exact congrArg Prod.snd fires
    rw [hfirst]
    obtain ⟨seq, due, action⟩ := r
    obtain rfl : action = .resume handle := Option.some.inj due
    exact ⟨u, seq, _, later, rfl, fires, rest⟩

namespace Greeter

/-- A host with the greeter and two instances. -/
def host : Host :=
  ⟨site.image, { HostState.new ⟨1.0, 10⟩ with instances := #[.empty, .empty] }⟩

/-- The greeter is called on the other instance, half a second passes, and
then a frame begins. -/
def drive : List (Nat × Command) :=
  [(5, .call 1 "Greet" []), (5, .advanceSeconds 0.5), (5, .advanceFrame)]

/-- The state in which the greeter waits. -/
def paused : HostState :=
  (show Except Halt Value × HostState from runProcedure site.image 5
    (procIndex 0 .entry) 0 [] host.state).2

/-- The state in which both greeters wait. -/
def bothPaused : HostState :=
  (show Except Halt Value × HostState from runProcedure site.image 5
    (procIndex 0 .entry) 1 [] paused).2

/-- **The greeters keep away from each other**: the other one is called, and called back in
the same frame. -/
theorem apart_of_walk {start : Event} {settled : List Event} {parts : List (List Stride)}
    (walk : Walk site.image host.state
      (⟨5, .call (procIndex 0 .entry) 0 [], start :: settled⟩ :: parts.flatten) s)
    (strode : List.Forall₂ (Strode site.image) drive parts) :
    (∀ e ∈ settled ++ parts.flatten.flatMap Stride.events,
        e.resumes site = false → e.Apart site) ∧
      ∃ e ∈ parts.flatten.flatMap Stride.events, e.cause.owner? = some 1 ∧
        e.resumes site = false := by
  obtain _ | ⟨other, _ | ⟨seconds, _ | ⟨frame, strode⟩⟩⟩ := strode
  cases strode
  obtain ⟨⟨index, hindex, hother⟩, hfuel⟩ := other
  obtain ⟨⟨_, _, called⟩, rfl, rfl⟩ := List.map_eq_singleton_iff.mp hother
  obtain ⟨hseconds, hfuel'⟩ := seconds
  obtain ⟨⟨_, _, first⟩, rfl, rfl⟩ := List.map_eq_singleton_iff.mp hseconds
  obtain ⟨hframe, hfuel''⟩ := frame
  obtain ⟨⟨_, _, second⟩, rfl, rfl⟩ := List.map_eq_singleton_iff.mp hframe
  obtain rfl := hfuel _ List.mem_cons_self
  obtain rfl := hfuel' _ List.mem_cons_self
  obtain rfl := hfuel'' _ List.mem_cons_self
  have hentry : site.image.resolve "Greet" = .ok (procIndex 0 .entry) := by decide +kernel
  obtain rfl := Except.ok.inj (hindex.symm.trans hentry)
  obtain _ | ⟨goes, walk⟩ := walk
  obtain _ | ⟨goes', walk⟩ := walk
  obtain _ | ⟨passed, walk⟩ := walk
  obtain _ | ⟨framed, walk⟩ := walk
  cases goes with
  | @call _ _ _ _ _ _ t _ _ runs drains =>
    obtain rfl : paused = t := congrArg Prod.snd runs
    obtain ⟨rfl, rfl⟩ := drains.eq_of_isNone (by decide +kernel)
    cases goes' with
    | @call _ _ _ _ _ _ t _ _ runs drains =>
      obtain rfl : bothPaused = t := congrArg Prod.snd runs
      obtain ⟨rfl, rfl⟩ := drains.eq_of_isNone (by decide +kernel)
      cases passed with
      | seconds _ drains =>
        obtain ⟨rfl, rfl⟩ := drains.eq_of_isNone (by decide +kernel)
        cases framed with
        | frame drains =>
          obtain ⟨_, _, _, _, rfl, -, drains⟩ :=
            drains.first_of_due site.handle (by decide +kernel)
          obtain ⟨_, _, _, _, rfl, fires, drains⟩ :=
            drains.first_of_due ⟨1, procIndex 0 .dispatch⟩ (by decide +kernel)
          obtain ⟨rfl, -⟩ := drains.eq_of_isNone (by decide +kernel)
          refine ⟨fun e he hnot => ?_, _, List.mem_cons_self, rfl, rfl⟩
          obtain rfl | rfl | rfl : _ ∨ _ ∨ _ := by simpa using he
          · exact Event.apart_of_owner
              (returns_bind_pure.mpr ⟨_, runs, rfl⟩) (by decide)
          · simp [Event.resumes] at hnot
          · exact Event.apart_of_owner fires (show some 1 ≠ some 0 by decide)

end Greeter

/-- **Two greeters wait beside each other**: what happens to the other one, in between and in
the same frame, does not change the pace of the first. -/
theorem greeter_paced : ∃ points host' start parts,
    suspensionPoints Greeter.names Greeter.procedure = .ok points ∧
    Returns (Host.performAll ((5, .call 0 "Greet" []) :: Greeter.drive))
      Greeter.host () host' ∧
    List.Forall₂ (Strode Greeter.site.image) Greeter.drive parts ∧
    (∃ e ∈ parts.flatten.flatMap Stride.events,
      e.cause.owner? = some 1 ∧ e.resumes Greeter.site = false) ∧
    (∀ stride ∈ parts.flatten,
      (stride.resumptions Greeter.site).length ≤ stride.impulse.share) ∧
    ∃ mid, Begun Greeter.site [] Greeter.host.state mid ∧
      Paced Greeter.procedure points Greeter.site 1 0 mid start
        (parts.flatten.flatMap (Stride.resumptions Greeter.site)) := by
  have hcounts : ((suspensionPoints Greeter.names Greeter.procedure).toOption.map
    fun points => points.all fun q => q.kind.countsFrames) = some true := by decide +kernel
  have hloaded : Greeter.site.Loaded := rfl
  have accepted : Returns (Host.performAll ((5, .call 0 "Greet" []) :: Greeter.drive))
      Greeter.host () _ := returns_of_toOption (by decide +kernel)
  have hframe : (show Except Halt Unit × Host from Host.performAll
      ((5, .call 0 "Greet" []) :: Greeter.drive) Greeter.host).2.state.scheduler.frame =
        1 := by
    decide +kernel
  cases hpoints : suspensionPoints Greeter.names Greeter.procedure with
  | error why =>
    rw [hpoints] at hcounts
    cases hcounts
  | ok points =>
    rw [hpoints] at hcounts
    obtain ⟨start, settled, parts, walk, strode, paced⟩ :=
      paced_by_frames Greeter.lowered hpoints
      (by decide +kernel) (by decide +kernel) (by decide)
      (List.all_eq_true.mp (Option.some.inj hcounts)) hloaded rfl
      (fun _ hr => absurd hr List.not_mem_nil) (by decide +kernel) (by decide) accepted
      (by rw [hframe]; decide)
    obtain ⟨apart, beside⟩ := Greeter.apart_of_walk walk strode
    obtain ⟨hshare, mid, begun, paced⟩ := paced apart
    rw [hframe] at paced
    exact ⟨points, _, _, parts, rfl, accepted, strode, beside,
      (List.forall_mem_cons.mp hshare).2, mid, begun, paced⟩

end Resumable
