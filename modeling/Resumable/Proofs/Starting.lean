import Resumable.Proofs.Standing

/-!
# Starting an activation

**An entry puts an activation where its source starts.**  The entry sets the state and the
status and stores the arguments, and leaves the other slots alone.  On an instance on which
nothing was done these hold the defaults of their types; so a local with a slot finds there
what introducing it without a value would give, and the result slot holds what the source
completes with when it returns no value.

## Main definitions

* `ArgsStored`: what the stores of the arguments do.
* `Begun`: what an entry has done before it calls its dispatch.

## Main statements

* `Lowered.staged`: the code of a lowered procedure runs in the setting of the procedure.
* `begun_of_entry`: an entry that returns has begun an activation and run its dispatch.
* `standing_of_entry`: how an activation stands when its entry returns.
-/

namespace Resumable

open Resumable.Bound (Procedure)
open Machine (Slot SlotId TaskStatus)

variable {m : Machine} {x : LocalId} {k : SlotId} {slot : Slot} {s s' : HostState}
  {call : Caller} {fuel : Nat} {v : Value} {args : List Value} {site : Site} {σ : Setting}
  {mode : LivenessMode} {names : NameTable} {p : Procedure}

/-! ### Defaults -/

namespace Lowered

/-- **A local without a slot** is introduced with the default that the source has for it. -/
theorem defaultLocal_eq (b : Lowered mode names p site.machine)
    (hlocals : σ.locals = p.locals) (hx : site.machine.layout.local? x = none) :
    site.defaultLocal x = σ.defaultLocal x := by
  have hm : site.machine.locals =
      p.locals.filter fun decl => (site.machine.layout.local? decl.id).isNone :=
    congrArg Machine.locals b.machine
  have hfind : site.machine.locals.find? (fun decl => decl.id == x) =
      p.locals.find? fun decl => decl.id == x := by
    rw [hm, List.find?_filter]
    congr 1
    funext decl
    by_cases hdecl : decl.id = x
    · simp [hdecl, hx]
    · simp [hdecl]
  cases hdecl : p.locals.find? (fun decl => decl.id == x) with
  | none => simp only [Site.defaultLocal, Setting.defaultLocal, hfind, hlocals, hdecl]
  | some decl => simp only [Site.defaultLocal, Setting.defaultLocal, hfind, hlocals, hdecl]

theorem fresh_getElem? (h : m.slots[k]? = some slot) :
    (Storage.fresh m).slots[k]? = some (.defaultFor slot.ty) := by
  unfold Storage.fresh
  rw [List.getElem?_map, h]
  rfl

/-- The slot of a local begins with what introducing the local without a value gives. -/
theorem fresh_local (b : Lowered mode names p m) (timed : p.Timed)
    (hlocals : σ.locals = p.locals) (hk : m.layout.local? x = some k) :
    (Storage.fresh m).slots[k]? = some (σ.defaultLocal x) := by
  obtain ⟨slot, decl, hslot, hdecl, hty⟩ := b.ty_of_local? hk
  rw [fresh_getElem? hslot]
  unfold Setting.defaultLocal
  rw [hlocals, timed.find?_locals hdecl, hty]

/-- The result slot begins with what the source completes with when it returns no value. -/
theorem fresh_result (b : Lowered mode names p m) (hresult : σ.result = p.result)
    (hk : m.resultSlot = some k) : (Storage.fresh m).slots[k]? = some σ.defaultResult := by
  obtain ⟨slot, hslot, hrole⟩ := b.laidOut.role_result hk
  have hty := b.laidOut.types slot (List.mem_of_getElem? hslot)
  rw [hrole] at hty
  replace hty : slot.ty = p.result := hty
  replace hslot : m.slots[k]? = some slot := hslot
  rw [fresh_getElem? hslot, Setting.defaultResult, hresult, hty]

/-- **The code of a lowered procedure runs in the setting of the procedure.** -/
theorem staged (b : Lowered mode names p site.machine) (hlocals : σ.locals = p.locals)
    (hnames : site.image.names = σ.names)
    (answers : ∀ function, (s.functions.get? function).map (fun r earlier args =>
      r.answer earlier ⟨function, site.owner, args⟩) = (σ.answer function).map
        fun answer _ args => answer args) : Staged site σ s :=
  ⟨hnames, b.laidOut.numbered, fun _ hx => b.defaultLocal_eq hlocals hx, answers⟩

end Lowered

/-! ### Storing the arguments -/

theorem Site.slotIn_writeSlot {u : Unit} (h : Returns (site.writeSlot k v) s u s')
    (j : SlotId) : site.slotIn s' j = if j = k then some v else site.slotIn s j := by
  refine ((Site.wrote_of_writeSlot h ⟨[], .empty⟩).content (.slot j)).trans ?_
  by_cases hj : j = k
  · rw [if_pos hj, if_pos (congrArg _ hj)]
  · rw [if_neg hj, if_neg fun heq => hj (Machine.Place.slot.inj heq)]
    rfl

theorem Refilled.of_writeSlot {u : Unit} (h : Returns (site.writeSlot k v) s u s') :
    Refilled site s s' ∧
      (site.slotsIn s').map Storage.task = (site.slotsIn s).map Storage.task ∧
      s'.tasks = s.tasks := by
  have wrote := Site.wrote_of_writeSlot h ⟨[], .empty⟩
  obtain ⟨st, -, -, rfl⟩ := Site.returns_writeSlot.mp h
  exact ⟨Refilled.put s _, wrote.task, rfl⟩

/-- **What the stores of the arguments do**: the slots of parameters hold the arguments, and
the other slots what they held. -/
structure ArgsStored (site : Site) (slots : List Slot) (args : List Value)
    (s s' : HostState) : Prop where
  refilled : Refilled site s s'
  task : (site.slotsIn s').map Storage.task = (site.slotsIn s).map Storage.task
  tasks : s'.tasks = s.tasks
  stored : ∀ slot ∈ slots, ∀ i, slot.role = .hoisted (.param i) →
    site.slotIn s' slot.id = args[i]?
  kept : ∀ k, (∀ slot ∈ slots, slot.id = k → ∀ i, slot.role ≠ .hoisted (.param i)) →
    site.slotIn s' k = site.slotIn s k

/-- A slot that stores no argument changes nothing. -/
theorem ArgsStored.skip {rest : List Slot} (h : ArgsStored site rest args s s')
    (hrole : ∀ i, slot.role ≠ .hoisted (.param i)) :
    ArgsStored site (slot :: rest) args s s' := by
  refine ⟨h.refilled, h.task, h.tasks, fun other hother i hi => ?_, fun k hk => ?_⟩
  · rcases List.mem_cons.mp hother with rfl | hother
    · exact absurd hi (hrole i)
    · exact h.stored other hother i hi
  · exact h.kept k fun other hother => hk other (List.mem_cons_of_mem _ hother)

/-- **The stores of the arguments**, by induction on the slots.  Slots of one number are one
slot, so no store undoes another. -/
theorem argsStored_of_returns {slots : List Slot} {frame : Frame} {x : Flow × Frame}
    (distinct : ∀ a ∈ slots, ∀ c ∈ slots, a.id = c.id → a = c)
    (h : Returns (execBlock site call fuel (slots.filterMap (paramStore p)) frame) s x s') :
    ArgsStored site slots frame.params s s' := by
  induction slots generalizing s with
  | nil =>
    obtain ⟨-, rfl⟩ := returns_pure.mp (h : Returns (pure _) s x s')
    exact ⟨Refilled.refl _, rfl, rfl, fun _ hslot => (by cases hslot), fun _ _ => rfl⟩
  | cons slot rest ih =>
    have hdistinct : ∀ a ∈ rest, ∀ c ∈ rest, a.id = c.id → a = c := fun a ha c hc =>
      distinct a (List.mem_cons_of_mem _ ha) c (List.mem_cons_of_mem _ hc)
    by_cases hrole : ∃ i, slot.role = .hoisted (.param i)
    · obtain ⟨i, hi⟩ := hrole
      rw [List.filterMap_cons] at h
      unfold paramStore at h
      simp only [hi] at h
      rw [execBlock_cons] at h
      obtain ⟨_, mid, hstore, hrest⟩ := returns_bind.mp h
      obtain ⟨v, mid', frame', hvalue, hplace, rfl⟩ := returns_exec_assign.mp hstore
      obtain ⟨hv, rfl⟩ := Run.returns_require.mp hvalue
      obtain ⟨hwrite, rfl⟩ := returns_writePlace_slot.mp hplace
      obtain ⟨hrefilled, htask, htasks⟩ := Refilled.of_writeSlot hwrite
      have hstored := ih hdistinct hrest
      refine ⟨hrefilled.trans hstored.refilled, hstored.task.trans htask,
        hstored.tasks.trans htasks, fun other hother j hj => ?_, fun k hk => ?_⟩
      · rcases List.mem_cons.mp hother with rfl | hother
        · obtain rfl : i = j := by
            cases hi.symm.trans hj
            rfl
          -- Should the slot be listed again, the later store puts the same argument there.
          by_cases hagain : other ∈ rest
          · exact hstored.stored other hagain i hi
          · rw [hstored.kept other.id, Site.slotIn_writeSlot hwrite, if_pos rfl]
            · exact hv.symm
            · intro twin htwin hid
              have heq :=
                distinct twin (List.mem_cons_of_mem _ htwin) other List.mem_cons_self hid
              exact absurd (heq ▸ htwin) hagain
        · exact hstored.stored other hother j hj
      · rw [hstored.kept k fun other hother => hk other (List.mem_cons_of_mem _ hother),
          Site.slotIn_writeSlot hwrite, if_neg]
        intro heq
        exact hk slot List.mem_cons_self heq.symm i hi
    · have hnone : paramStore p slot = none := by
        unfold paramStore
        split
        case h_1 i hi => exact absurd ⟨i, hi⟩ hrole
        case h_2 => rfl
      rw [List.filterMap_cons, hnone] at h
      exact (ih hdistinct h).skip fun i hi => hrole ⟨i, hi⟩

/-! ### Entry -/

theorem Lowered.distinct_slots (b : Lowered mode names p m) :
    ∀ a ∈ m.layout.slots, ∀ c ∈ m.layout.slots, a.id = c.id → a = c := by
  intro a ha c hc hid
  obtain ⟨i, hi⟩ := List.getElem?_of_mem ha
  obtain ⟨j, hj⟩ := List.getElem?_of_mem hc
  rw [b.laidOut.numbered i a hi, b.laidOut.numbered j c hj] at hid
  rw [hid] at hi
  exact Option.some.inj (hi.symm.trans hj)

/-- The slots of an instance on which nothing was done. -/
theorem Site.slotsIn_of_empty (h : s.instances[site.owner]? = some .empty) :
    site.slotsIn s = some (.fresh site.machine) := by
  unfold Site.slotsIn HostState.storage?
  rw [h]
  rfl

/-- What an entry has done before it calls its dispatch. -/
structure Begun (site : Site) (args : List Value) (s s' : HostState) : Prop where
  refilled : Refilled site s s'
  observed : (site.slotsIn s').map Storage.task = some (some s.tasks.size)
  tasks : s'.tasks = s.tasks.push ⟨.pending, .activation⟩
  state : site.slotIn s' site.machine.stateSlot = some (.int (.ofNat 0))
  status : site.slotIn s' site.machine.statusSlot = some (.int TaskStatus.running.code)
  param : ∀ i k, site.machine.layout.param? i = some k → site.slotIn s' k = args[i]?
  /-- The other slots hold what they held. -/
  kept : ∀ k slot, site.machine.layout.slots[k]? = some slot →
    slot.role ≠ .state → slot.role ≠ .status →
    (∀ i, slot.role ≠ .hoisted (.param i)) → site.slotIn s' k = site.slotIn s k

/-- The first steps of an entry begin an activation. -/
theorem begun_of_returns (b : Lowered mode names p site.machine)
    {start mid₁ mid₂ : HostState} (hstart : Returns (startActivation site) s () start)
    (hstate : Returns (site.writeSlot site.machine.stateSlot (.int (.ofNat 0))) start () mid₁)
    (hstatus : Returns (site.writeSlot site.machine.statusSlot (.int TaskStatus.running.code))
      mid₁ () mid₂)
    (hargs : Returns (execBlock site call fuel (site.machine.layout.slots.filterMap
      (paramStore p)) ⟨args, .empty⟩) mid₂ (.next, ⟨args, .empty⟩) s') :
    Begun site args s s' := by
  obtain ⟨st, hst, rfl⟩ := Site.returns_startActivation.mp hstart
  have hpushed : site.slotsIn { s with tasks := s.tasks.push ⟨.pending, .activation⟩ } =
    some st := hst
  have hslots := Site.slotsIn_put hpushed { st with task := some s.tasks.size }
  obtain ⟨refilled₁, htask₁, htasks₁⟩ := Refilled.of_writeSlot hstate
  obtain ⟨refilled₂, htask₂, htasks₂⟩ := Refilled.of_writeSlot hstatus
  have stored := argsStored_of_returns b.distinct_slots hargs
  -- A slot with another role has another number than the slots of parameters.
  have hkept : ∀ k slot, site.machine.layout.slots[k]? = some slot →
      (∀ i, slot.role ≠ .hoisted (.param i)) → site.slotIn s' k = site.slotIn mid₂ k := by
    intro k slot hk hrole
    refine stored.kept k fun other hother hid i => ?_
    have heq := b.distinct_slots other hother slot (List.mem_of_getElem? hk)
      (hid.trans (b.laidOut.numbered k slot hk).symm)
    rw [heq]
    exact hrole i
  obtain ⟨stateSlot, hstateSlot, hstateRole⟩ := b.laidOut.role_state
  obtain ⟨statusSlot, hstatusSlot, hstatusRole⟩ := b.laidOut.role_status
  refine ⟨?_, ?_, ?_, ?_, ?_, fun i k hk =>
    ?_, fun k slot hk hnotState hnotStatus hnotParam => ?_⟩
  · exact (((Refilled.tasks s _).trans (Refilled.put _ _)).trans refilled₁).trans
      (refilled₂.trans stored.refilled)
  · rw [stored.task, htask₂, htask₁, hslots]
    rfl
  · rw [stored.tasks, htasks₂, htasks₁]
    rfl
  · refine (hkept _ stateSlot hstateSlot (by rw [hstateRole]; simp)).trans ?_
    refine (Site.slotIn_writeSlot hstatus _).trans ((if_neg b.state_ne_status).trans ?_)
    exact (Site.slotIn_writeSlot hstate _).trans (if_pos rfl)
  · refine (hkept _ statusSlot hstatusSlot (by rw [hstatusRole]; simp)).trans ?_
    exact (Site.slotIn_writeSlot hstatus _).trans (if_pos rfl)
  · obtain ⟨slot, hslot, hrole⟩ := b.laidOut.role_param hk
    rw [← b.laidOut.numbered k slot hslot]
    exact stored.stored slot (List.mem_of_getElem? hslot) i hrole
  · rw [hkept k slot hk hnotParam, Site.slotIn_writeSlot hstatus, if_neg,
      Site.slotIn_writeSlot hstate, if_neg, Site.slotIn_eq hslots, Site.slotIn_eq hst]
    · rintro rfl
      exact hnotState (Option.some.inj (hstateSlot.symm.trans hk) ▸ hstateRole)
    · rintro rfl
      exact hnotStatus (Option.some.inj (hstatusSlot.symm.trans hk) ▸ hstatusRole)

/-- **An entry that returns** has begun an activation and run its dispatch, and returns the
task of the activation. -/
theorem begun_of_entry (b : Lowered mode names p site.machine) (loaded : site.Loaded)
    (h : Returns (runProcedure site.image fuel (procIndex site.index .entry) site.owner args)
      s v s') :
    ∃ mid fuel' w st, Begun site args s mid ∧ Returns (site.dispatch fuel') mid w s' ∧
      site.slotsIn s' = some st ∧
      v = (st.task.map Value.task).getD .unit := by
  cases fuel with
  | zero => exact (not_returns_throw h).elim
  | succ fuel =>
    -- The call has returned, so the number of arguments was right.
    have hcount : args.length = site.program.machine.params.length := by
      obtain ⟨k, program, role, hload, hindex, hcount⟩ := code_of_returns h
      cases role with
      | dispatch =>
        replace hindex : 2 * site.index = 2 * k + 1 := hindex
        omega
      | entry =>
        replace hindex : 2 * site.index = 2 * k := hindex
        obtain rfl : site.index = k := by omega
        obtain rfl := Option.some.inj (loaded.symm.trans hload)
        exact hcount
    rw [runProcedure_entry loaded fuel site.owner hcount] at h
    obtain ⟨_, start, hstart, hrest⟩ := returns_bind.mp h
    obtain ⟨x, last, hbody, hreturned⟩ := returns_bind.mp hrest
    obtain ⟨flow, frame⟩ := x
    obtain ⟨-, rfl⟩ := returned_of_returns hreturned
    have hentry : site.program.machine.entry.body =
        entryBody p site.machine.layout site.machine.dispatch.name := b.entry_eq
    rw [hentry] at hbody
    replace hbody : Returns (execBlock site (runProcedure site.image fuel) fuel
      (entryBody p site.machine.layout site.machine.dispatch.name) ⟨args, .empty⟩) start
      (flow, frame) s' := hbody
    obtain ⟨mid₁, mid₂, mid₃, w, hstate, hstatus, hargs, hdispatch, st, hst, hflow⟩ :=
      returns_entryBody hbody
    obtain rfl : flow = _ := hflow
    exact ⟨mid₃, fuel, w, st, begun_of_returns b hstart hstate hstatus hargs, hdispatch, hst,
      (returns_pure.mp hreturned).1⟩

/-- On an instance on which nothing was done, the slot of the result holds what the source
completes with when it returns no value. -/
theorem Lowered.resultLeft (b : Lowered mode names p site.machine)
    (hresult : σ.result = p.result) (hslots : site.slotsIn s = some (.fresh site.machine)) :
    site.ResultLeft s σ.defaultResult := by
  refine ⟨fun k v hk hv => ?_, fun hnone => ?_⟩
  · rw [Site.slotIn_eq hslots, b.fresh_result hresult hk] at hv
    exact (Option.some.inj hv).symm
  · have hlaid : site.machine.resultSlot = if p.returnsValue then some 2 else none :=
      b.laidOut.result
    rw [hnone] at hlaid
    unfold Procedure.returnsValue at hlaid
    have hunit : p.result = .unit := by
      by_contra hty
      simp [hty] at hlaid
    rw [Setting.defaultResult, hresult, hunit]
    rfl

section

variable (b : Lowered mode names p site.machine) (timed : p.Timed)
  (hlocals : σ.locals = p.locals) (hresult : σ.result = p.result)
  (hinstance : s.instances[site.owner]? = some .empty) (hlog : s.logOf site.owner = [])
  (hcalls : s.callsOf site.owner = [])

include timed hlocals hresult hinstance hlog hcalls

/-- **Before its first dispatch**, an activation stands where its source starts, if nothing
was done on its instance: every slot holds the default of its type. -/
theorem Begun.standing (h : Begun site args s s') :
    Standing site b σ args s.tasks.size s' := by
  have hslots := Site.slotsIn_of_empty hinstance
  refine .running 0 (.start args) (Nat.zero_le _) ?_ ?_ h.state h.status
    ((b.resultLeft hresult hslots).of_slotIn fun k hk => ?_) h.observed ?_
  · have hrest : b.rest 0 = p.stmts := (b.stmts_eq timed.tree 0).symm
    rw [hrest]
    exact .start
  · refine ⟨fun q hq => ?_, fun x hx => ?_, h.refilled.log.trans hlog,
      h.refilled.calls.trans hcalls⟩
    · cases q with
      | localVar x =>
        rcases hq with ⟨-, hmem⟩ | hmem
        · cases hmem
        · cases hmem
      | param i =>
        obtain ⟨k, hk⟩ := Option.isSome_iff_exists.mp hq
        rw [SlotLayout.place_param hk]
        exact h.param i k hk
      | field name =>
        refine (h.refilled.field name).trans ?_
        unfold HostState.field?
        rw [hinstance]
        rfl
    · obtain ⟨k, hk⟩ := Option.isSome_iff_exists.mp hx.1
      obtain ⟨slot, hslot, hrole⟩ := b.laidOut.role_local hk
      rw [SlotLayout.place_local hk, ← b.fresh_local timed hlocals hk,
        ← Site.slotIn_eq hslots]
      exact h.kept k slot hslot (by rw [hrole]; simp)
        (by rw [hrole]; simp) (by rw [hrole]; simp)
  · obtain ⟨slot, hslot, hrole⟩ := b.laidOut.role_result hk
    exact h.kept k slot hslot (by rw [hrole]; simp)
      (by rw [hrole]; simp) (by rw [hrole]; simp)
  · rw [h.tasks, Array.getElem?_push_size]

/-- **How an activation stands when its entry returns**: it was started, and its first
dispatch has run. -/
theorem standing_of_entry (countable : p.IsCountable) (loaded : site.Loaded)
    (staged : Staged site σ s)
    (h : Returns (runProcedure site.image fuel (procIndex site.index .entry) site.owner args)
      s v s') : Standing site b σ args s.tasks.size s' ∧ Stepped site s.tasks.size s s' := by
  obtain ⟨mid, fuel', w, st, begun, hdispatch, -⟩ := begun_of_entry b loaded h
  have standing := begun.standing b timed hlocals hresult hinstance hlog hcalls
  obtain ⟨standing', stepped⟩ := standing.dispatch timed countable loaded
    (staged.of_elsewhere begun.refilled.elsewhere) hdispatch
  refine ⟨standing', begun.refilled.elsewhere.trans stepped.elsewhere, fun other hne =>
    ?_, fun r hr => ?_⟩
  · rw [stepped.tasks other hne, begun.tasks, Array.getElem?_push, if_neg hne]
  · rw [← begun.refilled.scheduler]
    exact stepped.requests r hr

end

end Resumable
