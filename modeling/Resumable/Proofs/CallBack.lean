import Resumable.Proofs.Arm
import Resumable.Proofs.Firing

/-!
# One call back for each activation

**An activation that is running has exactly one outstanding call back.**  While code runs
this is not so everywhere: an activation that was just started, or whose call back was just
taken from the queue, has none until its dispatch is done.  `Attended` says which
activations are excused, by the handles of the dispatches that are in progress, and that
everything stored is in order.

The call of a procedure may assume that its own handle is excused, and has to give the excuse
back.  This one sentence, `Caller.Attends`, covers entry and dispatch, recursion and re-entry.

## Main definitions

* `Machine.Fits`, `Machine.Runs`: slots that are in order, and slots of an
  activation that is running.
* `Attended`: everything stored is in order, and every running activation that is not excused
  has its call back.
* `Caller.Attends`: calls that leave a host attended.

## Main statements

* `Effects.attended`: plain code leaves a host attended.
* `runProcedure_attends`: so does the call of any procedure.
-/

namespace Resumable

open Resumable.Bound (Procedure)
open Resumable.Machine (PlainBlock SlotId TaskStatus)

variable {p : Procedure} {mode : LivenessMode} {names : NameTable} {k fuel : Nat}
  {excused : List ResumeHandle} {s s' : HostState} {site : Site} {id : SlotId} {u : Unit}
  {v : Value}

/-! ### Call backs in the queue -/

namespace Scheduler

/-- The number of outstanding call backs of a handle. -/
def callBacks (q : Scheduler) (handle : ResumeHandle) : Nat :=
  q.pending.countP fun r => r.action = .resume handle

/-- **A call back replaces the one before it**, and leaves those of other handles. -/
theorem callBacks_submit_resume (q : Scheduler) (due : Due) (handle other : ResumeHandle) :
    (q.submit due (.resume handle)).callBacks other = if other = handle then 1 else
      q.callBacks other := by
  unfold callBacks submit
  rw [List.countP_append, List.countP_filter]
  by_cases h : other = handle
  · subst h
    simp
  · have hne : handle ≠ other := fun heq => h heq.symm
    rw [if_neg h]
    have hkept : ∀ r : Request,
        (decide (r.action = Action.resume other) &&
          decide (r.action ≠ Action.resume handle)) =
          decide (r.action = Action.resume other) := by
      intro r
      by_cases hr : r.action = .resume other <;> simp [hr, h]
    simp only [hkept]
    simp [hne]

theorem callBacks_submit_complete (q : Scheduler) (due : Due) (task : TaskId)
    (handle : ResumeHandle) :
    (q.submit due (.complete task)).callBacks handle = q.callBacks handle := by
  simp [callBacks, submit]

/-- **Taking a request** takes no call back of another handle. -/
theorem callBacks_take? {q q' : Scheduler} {p : Request → Bool} {r : Request}
    (h : q.take? p = some (r, q')) {handle : ResumeHandle}
    (hother : r.action ≠ .resume handle) : q'.callBacks handle = q.callBacks handle := by
  unfold callBacks
  rw [(perm_of_take? h).countP_eq, List.countP_cons_of_neg]
  rw [decide_eq_true_eq]
  exact hother

end Scheduler

/-! ### Slots in order -/

namespace Machine

/-- Slots that are in order: one value for each slot of the machine, a state that has an arm,
and a number as the status. -/
structure Fits (m : Machine) (st : Storage) : Prop where
  length : st.slots.length = m.slots.length
  state : ∃ i : Nat, i < m.stateCount ∧ st.slots[m.stateSlot]? = some (.int (.ofNat i))
  status : ∃ code, st.slots[m.statusSlot]? = some (.int code)

/-- Slots of an activation that is running. -/
structure Runs (m : Machine) (st : Storage) : Prop where
  task : st.task.isSome
  status : st.slots[m.statusSlot]? = some (.int TaskStatus.running.code)

/-- A machine that lowering made of a procedure whose states can be told apart. -/
def IsLowered (m : Machine) : Prop :=
  ∃ options p names names', p.IsCountable ∧ lowerProcedure options p names = (.ok m, names')

end Machine

/-- Programs that are all lowered procedures. -/
def AllLowered (programs : Array Program) : Prop :=
  ∀ (k : Nat) (program : Program), programs[k]? = some program → program.machine.IsLowered

section

variable {m : Machine}

variable (b : Lowered mode names p m)

include b

theorem Lowered.stateCount_eq : m.stateCount = b.points.length + 1 :=
  (congrArg Machine.stateCount b.machine).trans b.length_segments

/-- The number of a state is the integer that stands for it. -/
theorem Lowered.toInt_ofNat (countable : p.IsCountable) (hk : k ≤ b.points.length) :
    (Int64.ofNat k).toInt = k := by
  have hlength := b.sliced.sublist.length_le
  rw [List.length_map] at hlength
  have hlt : p.stmts.length < 1 <<< 63 := countable
  exact Int64.toInt_ofNat_of_lt (by omega)

/-- Slots on which nothing was done are in order. -/
theorem Lowered.fits_fresh : m.Fits (.fresh m) := by
  have hdefault : ∀ {id : SlotId} {role : Machine.Role},
      (∃ slot, m.layout.slots[id]? = some slot ∧ slot.role = role) →
      (role = .state ∨ role = .status) →
      (Storage.fresh m).slots[id]? = some (.int 0) := by
    rintro id _ ⟨slot, hslot, rfl⟩ hrole
    have hty := b.laidOut.types slot (List.mem_of_getElem? hslot)
    have hint : slot.ty = .int := by
      rcases hrole with hrole | hrole <;> rw [hrole] at hty <;> exact hty
    show (m.slots.map fun s => Value.defaultFor s.ty)[id]? = _
    have hslot' : m.slots[id]? = some slot := hslot
    rw [List.getElem?_map, hslot', Option.map_some, hint]
    rfl
  refine ⟨List.length_map _, ⟨0, ?_, hdefault b.laidOut.role_state (Or.inl rfl)⟩,
    0, hdefault b.laidOut.role_status (Or.inr rfl)⟩
  rw [b.stateCount_eq]
  exact Nat.succ_pos _

end

/-! ### Hosts that are attended -/

/-- The handle of a program on an instance. -/
abbrev handleOf (owner : InstanceId) (k : Nat) : ResumeHandle :=
  ⟨owner, procIndex k .dispatch⟩

/-- The policy of code that may call anything. -/
abbrev Machine.freePolicy (m : Machine) : Policy := m.layout.policy fun _ => True

/-- Closures that belong to loaded programs and hold code that the source wrote. -/
def PlainClosures (programs : Array Program) (s : HostState) : Prop :=
  ∀ (id : ClosureId) (c : Closure), s.closures[id]? = some c →
    ∃ program, programs[c.program]? = some program ∧
      PlainBlock program.machine.freePolicy .closure c.body

theorem PlainClosures.push {programs : Array Program} (h : PlainClosures programs s)
    {c : Closure} {program : Program} (hload : programs[c.program]? = some program)
    (plain : PlainBlock program.machine.freePolicy .closure c.body) :
    PlainClosures programs { s with closures := s.closures.push c } := by
  intro id c' hc
  rcases getElem?_push_cases hc with hold | ⟨-, rfl⟩
  · exact h id c' hold
  · exact ⟨program, hload, plain⟩

/-- **Everything stored is in order**, and every activation that is running has exactly one
outstanding call back, unless it is excused. -/
structure Attended (programs : Array Program) (excused : List ResumeHandle)
    (s : HostState) : Prop where
  stored : ∀ k program owner st, programs[k]? = some program →
    s.storage? owner k program.machine = some st → program.machine.Fits st
  /-- Nothing is stored for programs that are not loaded. -/
  unstored : ∀ k owner m st, programs[k]? = none →
    s.storage? owner k m = some st → st = .fresh m
  closures : PlainClosures programs s
  awake : ∀ k program owner st, programs[k]? = some program →
    s.storage? owner k program.machine = some st → program.machine.Runs st →
    handleOf owner k ∉ excused → s.scheduler.callBacks (handleOf owner k) = 1

namespace Attended

variable {programs : Array Program} {excused' : List ResumeHandle}

section

variable (h : Attended programs excused s)

include h

/-- **A change of anything but slots and closures**: what counts is that each handle that is
no longer excused, or never was, has the right number of call backs. -/
theorem of_storage (hstorage : ∀ owner k m, s'.storage? owner k m = s.storage? owner k m)
    (hclosures : s'.closures = s.closures)
    (hcount : ∀ handle, handle ∉ excused' → s'.scheduler.callBacks handle = 1 ∨
      handle ∉ excused ∧ s'.scheduler.callBacks handle = s.scheduler.callBacks handle) :
    Attended programs excused' s' := by
  refine ⟨fun k program owner st hk hst => ?_, fun k owner m st hk hst =>
    ?_, fun id c hc => ?_, fun k program owner st hk hst hruns hexcused => ?_⟩
  · rw [hstorage] at hst
    exact h.stored k program owner st hk hst
  · rw [hstorage] at hst
    exact h.unstored k owner m st hk hst
  · rw [hclosures] at hc
    exact h.closures id c hc
  · rw [hstorage] at hst
    rcases hcount _ hexcused with hone | ⟨hold, hsame⟩
    · exact hone
    · rw [hsame]
      exact h.awake k program owner st hk hst hruns hold

/-- A host stays attended if no call back is lost. -/
theorem of_callBacks (hinstances : s'.instances = s.instances)
    (hclosures : s'.closures = s.closures)
    (hcount : ∀ handle, handle ∉ excused' → s'.scheduler.callBacks handle = 1 ∨
      handle ∉ excused ∧ s'.scheduler.callBacks handle = s.scheduler.callBacks handle) :
    Attended programs excused' s' :=
  h.of_storage (HostState.storage?_congr hinstances) hclosures hcount

/-- More may be excused. -/
theorem mono (hsub : ∀ handle ∈ excused, handle ∈ excused') : Attended programs excused' s :=
  h.of_callBacks rfl rfl fun handle hnot => Or.inr ⟨fun hmem => hnot (hsub handle hmem), rfl⟩

/-- **A write of the slots at a site**: they have to be in order, and may only run if they did
before or are excused. -/
theorem put {st new : Storage} (hload : programs[site.index]? = some site.program)
    (seen : site.slotsIn s = some st) (fits : site.machine.Fits new)
    (runs : site.machine.Runs new → site.handle ∈ excused ∨ site.machine.Runs st) :
    Attended programs excused (site.put s new) := by
  refine ⟨fun k program owner st' hk hst => ?_, fun k owner m st' hk hst => ?_, h.closures,
    fun k program owner st' hk hst hruns hexcused => ?_⟩
  · obtain ⟨⟨rfl, rfl⟩, rfl⟩ | ⟨-, hold⟩ := site.storage?_put_cases seen hst
    · obtain rfl : site.program = program := Option.some.inj (hload.symm.trans hk)
      exact fits
    · exact h.stored k program owner st' hk hold
  · obtain ⟨⟨rfl, rfl⟩, -⟩ | ⟨-, hold⟩ := site.storage?_put_cases seen hst
    · cases hload.symm.trans hk
    · exact h.unstored k owner m st' hk hold
  · obtain ⟨⟨rfl, rfl⟩, rfl⟩ | ⟨-, hold⟩ := site.storage?_put_cases seen hst
    · obtain rfl : site.program = program := Option.some.inj (hload.symm.trans hk)
      exact h.awake _ _ _ st hk seen ((runs hruns).resolve_left hexcused) hexcused
    · exact h.awake k program owner st' hk hold hruns hexcused

/-- A write of a slot other than state and status. -/
theorem put_set {st : Storage} (hload : programs[site.index]? = some site.program)
    (seen : site.slotsIn s = some st) (hstate : id ≠ site.machine.stateSlot)
    (hstatus : id ≠ site.machine.statusSlot) (v : Value) :
    Attended programs excused (site.put s { st with slots := st.slots.set id v }) := by
  have hfits := h.stored _ _ _ st hload seen
  refine h.put hload seen ⟨?_, ?_, ?_⟩ fun hruns => Or.inr ⟨hruns.task, ?_⟩
  · exact List.length_set.trans hfits.length
  · obtain ⟨i, hi, hslot⟩ := hfits.state
    exact ⟨i, hi, (List.getElem?_set_ne hstate).trans hslot⟩
  · obtain ⟨code, hslot⟩ := hfits.status
    exact ⟨code, (List.getElem?_set_ne hstatus).trans hslot⟩
  · exact (List.getElem?_set_ne hstatus).symm.trans hruns.status

theorem putField (owner : InstanceId) (name : Name) (v : Value) :
    Attended programs excused (s.putField owner name v) :=
  h.of_storage (fun _ _ => HostState.storage?_putField name v) rfl fun _ hnot =>
    Or.inr ⟨hnot, rfl⟩

theorem pushClosure {c : Closure} {program : Program}
    (hload : programs[c.program]? = some program)
    (plain : PlainBlock program.machine.freePolicy .closure c.body) :
    Attended programs excused { s with closures := s.closures.push c } :=
  ⟨h.stored, h.unstored, PlainClosures.push h.closures hload plain, h.awake⟩

end

theorem procIndex_dispatch_inj {k' : Nat}
    (h : procIndex k .dispatch = procIndex k' .dispatch) : k = k' := by
  have : 2 * k + 1 = 2 * k' + 1 := h
  omega

/-- **An excuse is given back** where the activation does not run, or has its call back. -/
theorem of_excused (h : Attended programs (site.handle :: excused) s)
    (hload : programs[site.index]? = some site.program)
    (idle : ∀ st, site.slotsIn s = some st → site.machine.Runs st →
      s.scheduler.callBacks site.handle = 1) : Attended programs excused s := by
  refine ⟨h.stored, h.unstored, h.closures,
    fun k program owner st hk hst hruns hexcused => ?_⟩
  by_cases heq : handleOf owner k = site.handle
  · obtain ⟨rfl, hindex⟩ := ResumeHandle.mk.inj heq
    obtain rfl := procIndex_dispatch_inj hindex
    obtain rfl : site.program = program := Option.some.inj (hload.symm.trans hk)
    exact idle st hst hruns
  · exact h.awake k program owner st hk hst hruns
      (List.not_mem_cons_of_ne_of_not_mem heq hexcused)

/-- An excuse for what is no dispatch excuses nothing. -/
theorem of_excused_entry {owner : InstanceId}
    (h : Attended programs (⟨owner, procIndex k .entry⟩ :: excused) s) :
    Attended programs excused s := by
  refine ⟨h.stored, h.unstored, h.closures,
    fun k' program owner' st hk hst hruns hexcused => ?_⟩
  refine h.awake k' program owner' st hk hst hruns
    (List.not_mem_cons_of_ne_of_not_mem (fun heq => ?_) hexcused)
  have hindex : 2 * k' + 1 = 2 * k := congrArg ResumeHandle.procedure heq
  omega

/-- A call back was asked for. -/
theorem submit (h : Attended programs (site.handle :: excused) s) (due : Due) :
    Attended programs excused
      { s with scheduler := s.scheduler.submit due (.resume site.handle) } := by
  refine h.of_callBacks rfl rfl fun handle hnot => ?_
  rw [Scheduler.callBacks_submit_resume]
  by_cases heq : handle = site.handle
  · exact Or.inl (if_pos heq)
  · exact Or.inr ⟨List.not_mem_cons_of_ne_of_not_mem heq hnot, if_neg heq⟩

end Attended

/-! ### Plain code -/

/-- **Calls that leave a host attended.**  The handle of the call itself is excused when it
starts, and no longer when it returns. -/
def Caller.Attends (programs : Array Program) (call : Caller) : Prop :=
  ∀ ⦃index owner args s v s'⦄, Returns (call index owner args) s v s' → ∀ excused,
    Attended programs (⟨owner, index⟩ :: excused) s → Attended programs excused s'

section

variable {call : Caller}

section

variable (b : Lowered mode names p site.machine)

include b

/-- A slot that plain code may write holds neither state nor status. -/
theorem Lowered.ne_of_writable (h : site.machine.freePolicy.slots id) :
    id ≠ site.machine.stateSlot ∧ id ≠ site.machine.statusSlot := by
  refine ⟨?_, ?_⟩
  · rintro rfl
    exact b.state_not_writable _ h
  · rintro rfl
    exact b.status_not_writable _ h

theorem Effect.attended (loaded : site.Loaded) (hcall : call.Attends site.image.programs)
    (h : Effect .returned site call site.machine.freePolicy s s')
    (hs : Attended site.image.programs excused s) :
    Attended site.image.programs excused s' := by
  cases h with
  | task kind due notActivation =>
    refine hs.of_callBacks rfl rfl fun handle hnot => Or.inr ⟨hnot, ?_⟩
    exact Scheduler.callBacks_submit_complete _ _ _ _
  | answer | log => exact hs.of_callBacks rfl rfl fun handle hnot => Or.inr ⟨hnot, rfl⟩
  | closure frame body plain => exact hs.pushClosure loaded plain
  | field name v => exact hs.putField _ name v
  | slot st id v seen writable =>
    obtain ⟨hstate, hstatus⟩ := b.ne_of_writable writable
    exact hs.put_set loaded seen hstate hstatus v
  | call name index args r s' allowed found ends covered =>
    cases r with
    | error halt => exact covered.elim
    | ok v => exact hcall ends excused (hs.mono fun _ hmem => List.mem_cons_of_mem _ hmem)

/-- **Plain code leaves a host attended.** -/
theorem Effects.attended (loaded : site.Loaded) (hcall : call.Attends site.image.programs)
    (h : Effects .returned site call site.machine.freePolicy s s')
    (hs : Attended site.image.programs excused s) : Attended site.image.programs excused s' :=
  h.invariant (fun hstep ha => hstep.attended b loaded hcall ha) hs

/-- **An activation that has finished** needs no call back. -/
theorem attended_of_finish (loaded : site.Loaded) {status : TaskStatus}
    (hover : status.code ≠ TaskStatus.running.code) {value : Option Value}
    (h : Returns (finish site status value) s u s')
    (hs : Attended site.image.programs (site.handle :: excused) s) :
    Attended site.image.programs excused s' := by
  obtain ⟨result, st, hst, -, hlt, -, rfl⟩ := Site.finish_eq h
  have hfits := hs.stored _ _ _ st loaded hst
  have hstatus : (site.finishedSlots status value st).slots[site.machine.statusSlot]? =
      some (.int status.code) := Site.finishedSlots_status hlt
  have hput : Attended site.image.programs (site.handle :: excused)
      (site.put s (site.finishedSlots status value st)) := by
    refine hs.put loaded hst ⟨?_, ?_, _, hstatus⟩ fun _ => Or.inl List.mem_cons_self
    · exact List.length_set.trans ((Site.length_withResult _).trans hfits.length)
    · obtain ⟨i, hi, hslot⟩ := hfits.state
      refine ⟨i, hi, (Site.finishedSlots_other b.state_ne_status fun heq => ?_).trans hslot⟩
      exact (b.result_ne heq).1 rfl
  have hdone : Attended site.image.programs excused
      (site.put s (site.finishedSlots status value st)) := by
    refine hput.of_excused loaded fun st' hst' hruns => ?_
    obtain rfl : site.finishedSlots status value st = st' :=
      Option.some.inj ((Site.slotsIn_put hst _).symm.trans hst')
    have hcode := Option.some.inj (hstatus.symm.trans hruns.status)
    exact absurd (Value.int.inj hcode) hover
  exact hdone.of_callBacks (HostState.conclude_instances _ _ _ _)
    (HostState.conclude_closures _ _ _ _)
    fun handle hnot => Or.inr ⟨hnot, by rw [HostState.conclude_scheduler]⟩

end

/-! ### Dispatch -/

section

variable (b : Lowered mode names p site.machine)

include b

/-- A dispatch that returns has found the slots of its machine. -/
theorem slotsIn_of_returns (loaded : site.Loaded)
    (h : Returns (site.dispatch fuel) s v s') : ∃ st, site.slotsIn s = some st := by
  obtain ⟨fuel, flow, frame, rfl, -, hbody⟩ := body_of_returns loaded h
  rw [b.dispatch_eq] at hbody
  obtain ⟨status, mid, hcond⟩ := cond_of_returns_branch hbody
  unfold eval at hcond
  obtain ⟨code, mid, hslot, -⟩ := returns_bind.mp hcond
  unfold eval at hslot
  obtain ⟨hslot, -⟩ := Site.returns_readSlot.mp hslot
  obtain ⟨st, hst, -⟩ := HostState.exists_storage_of_slot? hslot
  exact ⟨st, hst⟩

/-- **An arm gives the excuse of its dispatch back**: it asks for a call back, or the
activation is over. -/
theorem ArmRun.attended (loaded : site.Loaded)
    (hcall : (runProcedure site.image fuel).Attends site.image.programs) {i : Nat}
    {seg : Segment} (hseg : b.segments[i]? = some seg)
    (h : ArmRun site fuel site.machine.freePolicy (b.awaitedBefore i) seg s s')
    (hs : Attended site.image.programs (site.handle :: excused) s) :
    Attended site.image.programs excused s' := by
  cases h with
  | cancelled slot handle requested finish =>
    exact attended_of_finish b loaded (by decide) finish hs
  | waiting slots join ids uncancelled awaits tasks unfinished again =>
    rw [again]
    exact hs.submit _
  | finished last mid v uncancelled effects finish =>
    exact attended_of_finish b loaded (by decide) finish (effects.attended b loaded hcall hs)
  | suspended exit ends mid last st frame due uncancelled body effects slots
      inRange timing request =>
    have hmid := effects.attended b loaded hcall hs
    have hfits := hmid.stored _ _ _ st loaded slots
    have hlt : i < b.points.length := (b.isSome_exit hseg).mp (by rw [ends]; rfl)
    -- The state moves on before the request is made, and the excuse covers the
    -- time in between.
    have hstate : Attended site.image.programs (site.handle :: excused)
      (site.put mid { st with
        slots := st.slots.set site.machine.stateSlot (.int (.ofNat (seg.index + 1))) }) := by
      refine hmid.put loaded slots ⟨?_, ⟨seg.index + 1, ?_, ?_⟩, ?_⟩ fun _ =>
        Or.inl List.mem_cons_self
      · exact List.length_set.trans hfits.length
      · rw [b.stateCount_eq, (b.exit_eq hseg).1]
        exact Nat.succ_lt_succ hlt
      · exact List.getElem?_set_self inRange
      · obtain ⟨code, hcode⟩ := hfits.status
        exact ⟨code, (List.getElem?_set_ne b.state_ne_status).trans hcode⟩
    have hplain := (b.segment_plain (fun _ _ => trivial) hseg).2 exit ends
    have hlast := (dueOf_within (e := .returned) frame hplain).of_returns timing
    rw [request]
    exact (hlast.attended b loaded hcall hstate).submit due

/-- **A dispatch leaves a host attended**, its own activation included. -/
theorem attended_of_dispatch (countable : p.IsCountable) (loaded : site.Loaded)
    (hcall : (runProcedure site.image fuel).Attends site.image.programs)
    (h : Returns (site.dispatch (fuel + 1)) s v s')
    (hs : Attended site.image.programs (site.handle :: excused) s) :
    Attended site.image.programs excused s' := by
  obtain ⟨st, hst⟩ := slotsIn_of_returns b loaded h
  have hfits : site.machine.Fits st := hs.stored _ _ _ st loaded hst
  obtain ⟨i, hi, hstate⟩ := hfits.state
  obtain ⟨code, hstatus⟩ := hfits.status
  rw [← Site.slotIn_eq hst] at hstate hstatus
  rw [b.stateCount_eq] at hi
  by_cases hrunning : code = TaskStatus.running.code
  · rw [hrunning] at hstatus
    obtain ⟨fuel', seg, heq, hseg, hstart⟩ := armStart_of_returns b loaded hstatus hstate
      (b.toInt_ofNat countable (Nat.le_of_lt_succ hi)) (Nat.le_of_lt_succ hi) h
    obtain rfl : fuel = fuel' := Nat.succ.inj heq
    refine (armRun_of_armStart ?_ hstart).attended b loaded hcall hseg hs
    have hplain : PlainBlock site.machine.freePolicy _ seg.body :=
      (b.segment_plain (fun _ _ => trivial) hseg).1
    simp only [b.isSome_exit hseg]
    exact hplain
  · -- Nothing happens, and nothing is missing.
    obtain rfl := eq_of_returns_of_idle b loaded hstatus hstate (Or.inl hrunning) h
    refine hs.of_excused loaded fun st' hst' hruns => ?_
    obtain rfl : st = st' := Option.some.inj (hst.symm.trans hst')
    rw [Site.slotIn_eq hst] at hstatus
    exact absurd (Value.int.inj (Option.some.inj (hstatus.symm.trans hruns.status))) hrunning

end

/-! ### Entry -/

/-- The stores of the parameters are plain. -/
theorem paramStores_plain (b : Lowered mode names p site.machine) :
    PlainBlock site.machine.freePolicy .segment
      (site.machine.layout.slots.filterMap (paramStore p)) := by
  refine Machine.plainBlock_iff.mpr fun stmt hstmt => ?_
  obtain ⟨slot, hslot, hstore⟩ := List.mem_filterMap.mp hstmt
  obtain ⟨k, hk⟩ := List.getElem?_of_mem hslot
  have hid := b.laidOut.numbered k slot hk
  unfold paramStore at hstore
  split at hstore
  case h_1 i hrole =>
    obtain rfl := Option.some.inj hstore
    refine ⟨⟨slot, ?_, by rw [hrole]; rfl⟩, trivial⟩
    rw [hid]
    exact hk
  case h_2 => cases hstore

/-- A write of a slot of the machine while its activation is excused. -/
theorem attended_of_writeSlot (loaded : site.Loaded)
    (h : Returns (site.writeSlot id v) s u s')
    (hstate : id = site.machine.stateSlot →
      ∃ i < site.machine.stateCount, v = .int (.ofNat i))
    (hstatus : id = site.machine.statusSlot → ∃ code, v = .int code)
    (hs : Attended site.image.programs (site.handle :: excused) s) :
    Attended site.image.programs (site.handle :: excused) s' := by
  obtain ⟨st, hst, hlt, rfl⟩ := Site.returns_writeSlot.mp h
  have hfits : site.machine.Fits st := hs.stored _ _ _ st loaded hst
  refine hs.put loaded hst ⟨?_, ?_, ?_⟩ fun _ => Or.inl List.mem_cons_self
  · exact List.length_set.trans hfits.length
  · by_cases hid : id = site.machine.stateSlot
    · obtain ⟨i, hi, rfl⟩ := hstate hid
      rw [← hid]
      exact ⟨i, hi, List.getElem?_set_self hlt⟩
    · obtain ⟨i, hi, hslot⟩ := hfits.state
      exact ⟨i, hi, (List.getElem?_set_ne hid).trans hslot⟩
  · by_cases hid : id = site.machine.statusSlot
    · obtain ⟨code, rfl⟩ := hstatus hid
      rw [← hid]
      exact ⟨code, List.getElem?_set_self hlt⟩
    · obtain ⟨code, hslot⟩ := hfits.status
      exact ⟨code, (List.getElem?_set_ne hid).trans hslot⟩

/-- **The body of an entry** resets the slots and runs the dispatch, which
gives the excuse back. -/
theorem attended_of_entryBody (b : Lowered mode names p site.machine) (loaded : site.Loaded)
    (hcall : call.Attends site.image.programs) {frame : Frame} {x : Flow × Frame}
    (h : Returns (execBlock site call fuel
      (entryBody p site.machine.layout site.machine.dispatch.name) frame) s x s')
    (hs : Attended site.image.programs (site.handle :: excused) s) :
    Attended site.image.programs excused s' := by
  obtain ⟨mid₁, mid₂, mid₃, v, hstate, hstatus, hparams, hdispatch, -⟩ := returns_entryBody h
  have h₁ := attended_of_writeSlot loaded hstate
    (fun _ => ⟨0, by rw [b.stateCount_eq]; exact Nat.succ_pos _, rfl⟩) (fun _ => ⟨_, rfl⟩) hs
  have h₂ := attended_of_writeSlot loaded hstatus
    (fun heq => absurd heq.symm b.state_ne_status) (fun _ => ⟨_, rfl⟩) h₁
  have hleft := execBlock_leaves (e := .returned) fuel _ (paramStores_plain b) frame hparams
    (Ending.covers_ok _ _)
  cases hleft with
  | flow allowed unfinished effects =>
    exact hcall hdispatch excused (effects.attended b loaded hcall h₂)

/-- An activation that was just started is excused until its dispatch has run. -/
theorem attended_of_startActivation (loaded : site.Loaded)
    (h : Returns (startActivation site) s u s')
    (hs : Attended site.image.programs excused s) :
    Attended site.image.programs (site.handle :: excused) s' := by
  obtain ⟨st, hst, rfl⟩ := Site.returns_startActivation.mp h
  have hfits : site.machine.Fits st := hs.stored _ _ _ st loaded hst
  have hpushed : Attended site.image.programs (site.handle :: excused)
      { s with tasks := s.tasks.push ⟨.pending, .activation⟩ } :=
    hs.of_callBacks rfl rfl fun handle hnot =>
      Or.inr ⟨fun hmem => hnot (List.mem_cons_of_mem _ hmem), rfl⟩
  exact hpushed.put loaded hst ⟨hfits.length, hfits.state, hfits.status⟩
    fun _ => Or.inl List.mem_cons_self

end

/-! ### Procedures and closures -/

section

variable {image : Image}

/-- **The call of any procedure leaves a host attended.** -/
theorem runProcedure_attends (lowered : AllLowered image.programs) (fuel : Nat) :
    (runProcedure image fuel).Attends image.programs := by
  induction fuel with
  | zero => exact fun index owner args s v s' h => (not_returns_throw h).elim
  | succ fuel ih =>
    intro index owner args s v s' h excused hs
    obtain ⟨k, program, role, hload, rfl, hargs⟩ := code_of_returns h
    obtain ⟨options, p, names, names', countable, hlower⟩ := lowered k program hload
    obtain ⟨b⟩ := lowered_of_lowerProcedure hlower
    have loaded : (⟨image, k, program, owner⟩ : Site).Loaded := hload
    cases role with
    | dispatch =>
      obtain rfl := List.length_eq_zero_iff.mp hargs
      exact attended_of_dispatch b countable loaded ih h hs
    | entry =>
      rw [runProcedure_entry hload fuel owner hargs] at h
      obtain ⟨_, mid, hstart, hrest⟩ := returns_bind.mp h
      obtain ⟨x, last, hbody, hreturned⟩ := returns_bind.mp hrest
      obtain ⟨-, rfl⟩ := returned_of_returns hreturned
      rw [b.entry_eq] at hbody
      exact attended_of_entryBody b loaded ih hbody
        (attended_of_startActivation loaded hstart hs.of_excused_entry)

/-- **Closures leave a host attended**, whenever they are called. -/
theorem attended_of_runClosure (lowered : AllLowered image.programs) {id : ClosureId}
    (h : Returns (runClosure image fuel id) s v s')
    (hs : Attended image.programs excused s) : Attended image.programs excused s' := by
  unfold runClosure at h
  rw [Returns, ends_get_bind] at h
  cases hc : s.closures[id]? with
  | none =>
    rw [hc] at h
    exact (Run.not_returns_fail h).elim
  | some c =>
    obtain ⟨program, hload, hplain⟩ := hs.closures id c hc
    simp only [hc, hload] at h
    obtain ⟨⟨flow, frame⟩, mid, hbody, hreturned⟩ := returns_bind.mp h
    obtain ⟨-, rfl⟩ := returned_of_returns hreturned
    obtain ⟨options, p, names, names', -, hlower⟩ := lowered c.program program hload
    obtain ⟨b⟩ := lowered_of_lowerProcedure hlower
    have loaded : (⟨image, c.program, program, c.owner⟩ : Site).Loaded := hload
    have hleft :=
      execBlock_leaves (e := .returned) fuel c.body hplain ⟨c.params, c.locals⟩ hbody
      (Ending.covers_ok _ _)
    cases hleft with
    | finished last => cases last
    | flow allowed unfinished effects =>
      exact effects.attended b loaded (runProcedure_attends lowered fuel) hs

end

end Resumable
