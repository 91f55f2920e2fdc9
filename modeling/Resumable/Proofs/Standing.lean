import Resumable.Proofs.Advancing
import Resumable.Proofs.CallBack

/-!
# How an activation stands

**At rest, an activation is where its source is.**  While it runs, its state counts the pauses
that the source has made, and the slots hold the variables of the source.  Once it has
succeeded, the source is over, and the task has the value that the source completes with.

A dispatch takes an activation from one such standing to the next, and leaves everything that
belongs to others alone.

## Main definitions

* `Standing`: where an activation and its source are.
* `Stepped`: what a dispatch leaves to others.
* `Refilled`: a change of slots and tasks only.

## Main statements

* `Standing.of_unchanged`: how an activation stands depends on what is its own.
* `Standing.dispatch`: what a dispatch does to an activation.
-/

namespace Resumable

open Resumable.Bound (Procedure)
open Machine (TaskStatus)

variable {args : List Value} {task : TaskId} {s s' : HostState} {left v : Value}
  {frame : Frame} {a : Activation} {value : Option Value} {site : Site} {σ : Setting}
  {mode : LivenessMode} {names : NameTable} {p : Procedure}

/-- The value is what the slot of the result holds; without a slot it is the unit. -/
structure Site.ResultLeft (site : Site) (s : HostState) (left : Value) : Prop where
  slot : ∀ k v, site.machine.resultSlot = some k → site.slotIn s k = some v → v = left
  noSlot : site.machine.resultSlot = none → left = .unit

/-- **Where an activation and its source are.** -/
inductive Standing (site : Site) (b : Lowered mode names p site.machine) (σ : Setting)
    (args : List Value) (task : TaskId) (s : HostState) : Prop where
  /-- The source waits after as many pauses as the state says. -/
  | running (k : Nat) (a : Activation) (le : k ≤ b.points.length)
    (reaches : Reaches σ p.stmts args k (b.rest k) a)
    (agree : Matches site σ (b.Known k []) (b.Pending k []) ⟨[], .empty⟩ s a)
    (state : site.slotIn s site.machine.stateSlot = some (.int (.ofNat k)))
    (status : site.slotIn s site.machine.statusSlot = some (.int TaskStatus.running.code))
    (result : site.ResultLeft s σ.defaultResult)
    (observed : (site.slotsIn s).map Storage.task = some (some task))
    (pending : s.tasks[task]? = some ⟨.pending, .activation⟩)
  /-- The source is over. -/
  | succeeded (value : Value) (a : Activation)
    (completes : CompletesWith σ p.stmts args value a)
    (agree : Matches site σ (fun _ => False) (fun _ => False) ⟨[], .empty⟩ s a)
    (state : ∃ n, site.slotIn s site.machine.stateSlot = some (.int n))
    (status : site.slotIn s site.machine.statusSlot = some (.int TaskStatus.succeeded.code))
    (result : ∀ slot, site.machine.resultSlot = some slot → site.slotIn s slot = some value)
    (observed : (site.slotsIn s).map Storage.task = some (some task))
    (outcome : s.tasks[task]? = some ⟨.succeeded value, .activation⟩)

namespace Standing

variable {b : Lowered mode names p site.machine}

/-- The task observes the activation. -/
theorem observes (h : Standing site b σ args task s) :
    (site.slotsIn s).map Storage.task = some (some task) := by
  cases h with
  | running _ _ _ _ _ _ _ _ observed _ => exact observed
  | succeeded _ _ _ _ _ _ _ observed _ => exact observed

theorem lt_size (h : Standing site b σ args task s) : task < s.tasks.size := by
  cases h with
  | running _ _ _ _ _ _ _ _ _ pending => exact (Array.getElem?_eq_some_iff.mp pending).1
  | succeeded _ _ _ _ _ _ _ _ outcome => exact (Array.getElem?_eq_some_iff.mp outcome).1

end Standing

theorem Site.ResultLeft.of_slotIn (h : site.ResultLeft s left)
    (hslot : ∀ k, site.machine.resultSlot = some k → site.slotIn s' k = site.slotIn s k) :
    site.ResultLeft s' left :=
  ⟨fun k v hk hv => h.slot k v hk ((hslot k hk).symm.trans hv), h.noSlot⟩

/-- What a dispatch leaves to others: their instances, their tasks and their requests. -/
structure Stepped (site : Site) (task : TaskId) (s s' : HostState) : Prop where
  elsewhere : Elsewhere site.owner s s'
  tasks : ∀ other, other ≠ task → s'.tasks[other]? = s.tasks[other]?
  requests : ∀ r ∈ s'.scheduler.pending, r ∈ s.scheduler.pending ∨
    r.action = .resume site.handle

/-! ### What belongs to an activation -/

theorem Matches.of_unchanged {known pending : LocalId → Prop}
    (h : Matches site σ known pending frame s a)
    (hinstance : s'.instances[site.owner]? = s.instances[site.owner]?)
    (hlog : s'.logOf site.owner = s.logOf site.owner)
    (hcalls : s'.callsOf site.owner = s.callsOf site.owner) :
    Matches site σ known pending frame s' a := by
  refine ⟨fun q hq => ?_, fun x hx => ?_, hlog.trans h.log, hcalls.trans h.calls⟩
  · rw [Site.content?_of_instance hinstance]
    exact h.content q hq
  · rw [Site.content?_of_instance hinstance]
    exact h.pristine x hx

/-- **How an activation stands depends on what is its own**: its instance, what it told the
host, and its task. -/
theorem Standing.of_unchanged {b : Lowered mode names p site.machine}
    (h : Standing site b σ args task s)
    (hinstance : s'.instances[site.owner]? = s.instances[site.owner]?)
    (hlog : s'.logOf site.owner = s.logOf site.owner)
    (hcalls : s'.callsOf site.owner = s.callsOf site.owner)
    (htask : s'.tasks[task]? = s.tasks[task]?) : Standing site b σ args task s' := by
  have hslots : site.slotsIn s' = site.slotsIn s := Site.slotsIn_of_instance hinstance
  have hslot := Site.slotIn_of_slotsIn hslots
  cases h with
  | running k a le reaches agree state status result observed pending =>
    refine .running k a le reaches (agree.of_unchanged hinstance hlog hcalls)
      ((hslot _).trans state)
      ((hslot _).trans status) (result.of_slotIn fun k _ => hslot k) ?_ (htask.trans pending)
    rw [hslots]
    exact observed
  | succeeded value a completes agree state status result observed outcome =>
    obtain ⟨n, hn⟩ := state
    refine .succeeded value a completes (agree.of_unchanged hinstance hlog hcalls)
      ⟨n, (hslot _).trans hn⟩
      ((hslot _).trans status) (fun slot hres => (hslot slot).trans (result slot hres)) ?_
      (htask.trans outcome)
    rw [hslots]
    exact observed

/-! ### Slots of an activation -/

/-- A change of slots and tasks, and of nothing else that an activation is told by. -/
structure Refilled (site : Site) (s s' : HostState) : Prop where
  elsewhere : Elsewhere site.owner s s'
  field : ∀ name, s'.field? site.owner name = s.field? site.owner name
  log : s'.logOf site.owner = s.logOf site.owner
  calls : s'.callsOf site.owner = s.callsOf site.owner
  scheduler : s'.scheduler = s.scheduler

namespace Refilled

variable {s'' : HostState}

theorem refl (s : HostState) : Refilled site s s :=
  ⟨Elsewhere.refl s, fun _ => rfl, rfl, rfl, rfl⟩

theorem trans (h : Refilled site s s') (h' : Refilled site s' s'') : Refilled site s s'' where
  elsewhere := h.elsewhere.trans h'.elsewhere
  field name := (h'.field name).trans (h.field name)
  log := h'.log.trans h.log
  calls := h'.calls.trans h.calls
  scheduler := h'.scheduler.trans h.scheduler

theorem put (s : HostState) (st : Storage) : Refilled site s (site.put s st) :=
  ⟨Elsewhere.of_modify rfl, fun name => HostState.field?_putStorage name, rfl, rfl, rfl⟩

theorem tasks (s : HostState) (table : TaskTable) :
    Refilled site s { s with tasks := table } :=
  ⟨⟨fun _ _ => rfl, fun _ _ => rfl, fun _ _ => rfl, fun _ => rfl⟩,
    fun _ => rfl, rfl, rfl, rfl⟩

end Refilled

/-! ### Finishing -/

section

variable {mid : HostState}

/-- The value that the machine completes with: without one of its own, it is what the slot of
the result still holds. -/
theorem eq_of_completes {st : Storage} (h : site.Completes value st v)
    (hst : site.slotsIn mid = some st) (result : site.ResultLeft mid left) :
    v = value.getD left := by
  unfold Site.Completes at h
  cases value with
  | some w => exact h
  | none =>
    cases hk : site.machine.resultSlot with
    | some k =>
      simp only [hk] at h
      exact result.slot k v hk ((Site.slotIn_eq hst k).trans h)
    | none =>
      simp only [hk] at h
      rw [h, Option.getD_none, result.noSlot hk]

/-- **A finish of the machine completes the source.** -/
theorem standing_of_finish (b : Lowered mode names p site.machine) {n : Int64}
    (state : site.slotIn s site.machine.stateSlot = some (.int n))
    (result : site.ResultLeft s σ.defaultResult)
    (observed : (site.slotsIn s).map Storage.task = some (some task))
    (pending : s.tasks[task]? = some ⟨.pending, .activation⟩)
    (completes : CompletesWith σ p.stmts args (value.getD σ.defaultResult) a)
    (mirrors : Mirrors site σ (fun _ => False) (fun _ => False) s frame mid a)
    (finish : Returns (finish site .succeeded value) mid () s') :
    Standing site b σ args task s' ∧ Stepped site task s s' := by
  obtain ⟨v, st, hst, hcompletes, hstatus, hresultLt, hend⟩ := Site.finish_eq finish
  have htask : st.task = some task := by
    have hmap := mirrors.apart.task.trans observed
    rw [hst] at hmap
    exact Option.some.inj hmap
  -- The code of the source does not touch the slot of the result, which still
  -- holds what it held.
  obtain rfl : v = value.getD σ.defaultResult := eq_of_completes hcompletes hst
    (result.of_slotIn fun k hk => mirrors.apart.books k (b.place_ne_result hk))
  have hslots : site.slotsIn s' = some (site.finishedSlots .succeeded value st) := by
    rw [hend, Site.slotsIn_conclude]
    exact Site.slotsIn_put hst _
  have hkept : ∀ k, k ≠ site.machine.statusSlot → site.machine.resultSlot ≠ some k →
      site.slotIn s' k = site.slotIn mid k := by
    intro k hne hne'
    rw [Site.slotIn_eq hslots, Site.finishedSlots_other hne hne', Site.slotIn_eq hst]
  rw [htask] at hend
  have htasks : s'.tasks = s.tasks.complete task
    (.succeeded (value.getD σ.defaultResult)) := by
    rw [hend, ← mirrors.apart.tasks]
    rfl
  have refilled : Refilled site mid s' := by
    rw [hend]
    exact (Refilled.put mid _).trans (Refilled.tasks _ _)
  refine ⟨.succeeded _ a completes ?_ ⟨n, ?_⟩ ?_ (fun k hk => ?_) ?_ ?_,
    mirrors.apart.elsewhere.trans refilled.elsewhere, fun other hne =>
      ?_, fun r hr => Or.inl ?_⟩
  · refine ⟨fun q hq => ?_, fun x hx => hx.elim, refilled.log.trans mirrors.agree.log,
      refilled.calls.trans mirrors.agree.calls⟩
    rw [← mirrors.agree.content q hq]
    cases q with
    | localVar x => exact hq.elim
    | field name => exact refilled.field name
    | param i =>
      obtain ⟨k, hk⟩ := Option.isSome_iff_exists.mp hq
      have hplace := SlotLayout.place_param hk
      rw [hplace]
      refine hkept k (fun heq => ?_) fun heq => ?_
      · exact b.place_ne_status (.param i) (heq ▸ hplace)
      · exact b.place_ne_result heq (.param i) hplace
  · rw [hkept _ b.state_ne_status fun heq =>
      (b.result_ne heq).1 rfl, mirrors.apart.books _ b.place_ne_state]
    exact state
  · rw [Site.slotIn_eq hslots]
    exact Site.finishedSlots_status hstatus
  · rw [Site.slotIn_eq hslots]
    exact Site.finishedSlots_result hcompletes hk (b.result_ne hk).2 (hresultLt k hk)
  · rw [hslots, ← htask]
    rfl
  · rw [htasks, TaskTable.getElem?_complete pending]
    rfl
  · rw [htasks, TaskTable.complete, Array.getElem?_modify, if_neg fun heq => hne heq.symm]
  · rw [refilled.scheduler, mirrors.apart.scheduler] at hr
    exact hr

end

/-! ### Dispatching -/

/-- Nothing is awaited between the segments of a timed procedure. -/
theorem Lowered.awaitedBefore_eq_none {m : Machine} (b : Lowered mode names p m)
    (timed : p.Timed) (k : Nat) : b.awaitedBefore k = none := by
  cases k with
  | zero => rfl
  | succ k =>
    rw [b.awaitedBefore_succ timed.tree]
    cases hq : b.points[k]? with
    | none => rfl
    | some q =>
      have hkind := (b.pauses timed (List.mem_of_getElem? hq)).kind
      rw [Option.bind_some, if_neg]
      generalize q.kind = kind at hkind
      generalize q.operand = operand at hkind
      cases hkind <;> simp [SuspensionKind.awaitsTasks]

theorem mem_submit {q : Scheduler} {due : Due} {handle : ResumeHandle} {r : Request}
    (h : r ∈ (q.submit due (.resume handle)).pending) :
    r ∈ q.pending ∨ r.action = .resume handle := by
  rcases List.mem_append.mp h with hkept | hnew
  · exact Or.inl (List.mem_filter.mp hkept).1
  · exact Or.inr (by rw [List.mem_singleton.mp hnew])

/-- **A dispatch takes an activation from one standing to the next**, and
leaves others alone. -/
theorem Standing.dispatch {b : Lowered mode names p site.machine}
    (h : Standing site b σ args task s) (timed : p.Timed) (countable : p.IsCountable)
    (loaded : site.Loaded) (staged : Staged site σ s) {fuel : Nat}
    (hret : Returns (site.dispatch fuel) s v s') :
    Standing site b σ args task s' ∧ Stepped site task s s' := by
  cases h with
  | succeeded value a completes agree state status result observed outcome =>
    -- A dispatch of an activation that is over does nothing.
    obtain ⟨n, hn⟩ := state
    obtain rfl := eq_of_returns_of_idle b loaded status hn (Or.inl (by decide)) hret
    exact ⟨.succeeded value a completes agree ⟨n, hn⟩ status result observed outcome,
      Elsewhere.refl _, fun _ _ => rfl, fun _ hr => Or.inl hr⟩
  | running k a le reaches agree state status result observed pending =>
    obtain ⟨fuel, seg, rfl, hseg, hstart⟩ := armStart_of_returns b loaded status state
      (b.toInt_ofNat countable le) le hret
    cases hstart with
    | cancelled slot handle =>
      -- There is no handle to cancel it with.
      have hcancel : site.machine.cancelSlot =
        p.cancellation.bind site.machine.layout.param? :=
        b.laidOut.cancel
      rw [timed.noHandle, handle] at hcancel
      cases hcancel
    | waiting slots mode ids uncancelled awaits =>
      -- It awaits time, and no tasks.
      rw [b.awaitedBefore_eq_none timed] at awaits
      cases awaits
    | runs flow frame uncancelled ready left segment =>
      cases advanced_of_segment b timed hseg staged agree left segment with
      | completed a' value frame mid source mirrors finish =>
        exact standing_of_finish b state result observed pending
          ⟨k, b.rest k, a, fuel, reaches, source⟩ mirrors finish
      | paused a' more source agree' state' books task' tasks elsewhere request =>
        obtain ⟨due, hrequest⟩ := request
        rw [← tasks] at pending
        refine ⟨.running (k + 1) a' more (.next reaches source) agree' state' ?_
          (result.of_slotIn fun slot hslot => ?_)
          (task'.trans observed) pending, elsewhere, fun other _ => by
            rw [tasks], fun r hr => ?_⟩
        · rw [books _ b.state_ne_status.symm b.place_ne_status]
          exact status
        · exact books slot (b.result_ne hslot).1 (b.place_ne_result hslot)
        · rw [hrequest] at hr
          exact mem_submit hr

end Resumable
