import Resumable.Proofs.Accounting
import Resumable.Proofs.Starting
import Resumable.Proofs.Step

/-!
# Dispatching what was never started

The slots of a machine on an instance hold the defaults of their types until something is
written to them.  The default of the status is the code of a running activation, and the
default of the state is the first state.  So the guard of a dispatch does not tell an instance
on which nothing was started from one that is running: **a dispatch that is called before its
entry runs the first segment**, with parameters that hold their defaults and without a task.

## Main statements

* `Lowered.fresh_running`: slots to which nothing was written look like a running activation
  in its first state.
* `unstarted_takes_step`: such a dispatch moves to the second state and asks to be called
  back, or completes.
* `ticker_unstarted`: a ticker that nobody started ticks.
-/

namespace Resumable

open Resumable.Bound (Procedure)
open Machine (SlotId TaskStatus)

section

variable {site : Site} {mode : LivenessMode} {names : NameTable} {p : Procedure}
  {s s' : HostState} {fuel : Nat}

/-- Nothing was written to the slots of the machine on the instance. -/
def Site.Unstarted (site : Site) (s : HostState) : Prop :=
  site.slotsIn s = some (.fresh site.machine)

namespace Lowered

/-- **Slots to which nothing was written** look like a running activation
in its first state. -/
theorem fresh_running (b : Lowered mode names p site.machine) (h : site.Unstarted s) :
    site.slotIn s site.machine.statusSlot = some (.int TaskStatus.running.code) ∧
      site.slotIn s site.machine.stateSlot = some (.int 0) := by
  rw [Site.slotIn_eq h, Site.slotIn_eq h]
  have content : ∀ {k : SlotId} {role : Machine.Role},
    (∃ slot, site.machine.slots[k]? = some slot ∧
      slot.role = role) → role = .status ∨ role = .state →
        (Storage.fresh site.machine).slots[k]? = some (.int 0) := by
    rintro k role ⟨slot, hslot, rfl⟩ hrole
    have hty := b.laidOut.types slot (List.mem_of_getElem? hslot)
    rw [fresh_getElem? hslot]
    rcases hrole with hrole | hrole
    all_goals
      rw [hrole] at hty
      rw [hty]
      rfl
  exact ⟨content b.laidOut.role_status (Or.inl rfl),
    content b.laidOut.role_state (Or.inr rfl)⟩

end Lowered

/-- No type has a cancellation handle as its default. -/
theorem not_cancelRequested_of_unstarted (h : site.Unstarted s) :
    ¬ site.CancelRequested s := by
  rintro ⟨slot, id, -, hslot, -⟩
  rw [Site.slotIn_eq h] at hslot
  obtain ⟨decl, -, hdefault⟩ := List.mem_map.mp (List.mem_of_getElem? hslot)
  cases hty : decl.ty <;> rw [hty] at hdefault <;> cases hdefault

/-- **A dispatch that is called before its entry takes a step** all the same: it runs the
first segment, moves to the second state and asks to be called back, or where there is nothing
to wait for it completes. -/
theorem unstarted_takes_step {options : LowerOptions} {names' : NameTable}
    (lowered : lowerProcedure options p names = (.ok site.machine, names'))
    {points : List SuspensionPoint} (found : suspensionPoints names p = .ok points)
    (tree : p.TreeShaped) (noCalls : p.CallsNoProcedure) (loaded : site.Loaded)
    (unstarted : site.Unstarted s) {v : Value}
    (returns : Returns (site.dispatch fuel) s v s') :
    (∀ q, points[0]? = some q → SuspendsAt p points site 0 q s s') ∧
    (points = [] → CompletesFrom site s s') := by
  obtain ⟨b⟩ := lowered_of_lowerProcedure lowered
  obtain rfl : b.points = points := Except.ok.inj (b.found.symm.trans found)
  obtain ⟨hstatus, hstate⟩ := b.fresh_running unstarted
  have hcancel := not_cancelRequested_of_unstarted unstarted
  have hwaits : ¬ site.Waits b.points 0 s := by
    rintro ⟨j, q, ids, hj, -⟩
    exact absurd hj (Nat.zero_ne_add_one j)
  obtain ⟨fuel, seg, -, hseg, hstart⟩ :=
    armStart_of_returns (i := 0) b loaded hstatus hstate rfl (Nat.zero_le _) returns
  have hrun : ArmRun site fuel (ownPolicy site p) (b.awaitedBefore 0) seg s s' := by
    refine armRun_of_armStart ?_ hstart
    have hplain := (b.segment_plain (fun _ ht => ht) hseg).1
    simp only [b.isSome_exit hseg]
    exact hplain
  refine ⟨fun q hq => suspendsAt_of_armRun b tree noCalls hq hseg hstatus hcancel hwaits hrun,
    fun hnone => ?_⟩
  have hlength : b.points.length = 0 := by rw [hnone, List.length_nil]
  rw [← hlength] at hseg hwaits hrun
  exact completesFrom_of_armRun b tree noCalls hseg hcancel hwaits hrun

end

/-! ### A ticker that nobody started -/

namespace Ticker

/-- A host with a ticker and an instance on which nothing was done. -/
def spawned : Host :=
  (Host.new (lowerProcedure {} procedure names).2 ⟨1.0, 4⟩).after
    [.perform 0 (.load machine), .perform 0 .spawn]

/-- The host after the dispatch of the ticker was resumed on the instance. -/
def resumed : Host := spawned.after [.perform 5 (.resume ⟨0, 1⟩)]

end Ticker

/-- **A ticker that nobody started ticks**: resumed on a new instance it asks to be
called back, logs its line in the next frame and ends up as completed, though no
activation was ever made. -/
theorem ticker_unstarted : Ticker.spawned.state.scheduler.pending.map Request.action = [] ∧
      Ticker.resumed.state.scheduler.pending.map Request.action = [.resume ⟨0, 1⟩] ∧
      (Ticker.resumed.after [.perform 5 .advanceFrame]).state.log.toList = [⟨0, "after"⟩] ∧
      Ticker.status 0 (Ticker.resumed.after [.perform 5 .advanceFrame]) = some .succeeded ∧
      (Ticker.resumed.after [.perform 5 .advanceFrame]).state.tasks.size = 0 :=
  ⟨by decide +kernel, by decide +kernel, by decide +kernel, by decide +kernel, by
    decide +kernel⟩

end Resumable
