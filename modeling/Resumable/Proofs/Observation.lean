import Resumable.Proofs.Tandem
import Resumable.Proofs.Upkeep

/-!
# The status slot and the task that observes an activation

Each activation has a task that observes it.  **The status slot says `running` exactly while
this task is pending**: an activation that ends gives its task an outcome in the same step,
and no other activation has the same task.  This holds after any operations, also after
those that failed.

## Main definitions

* `Observed`: in a state, the status of each activation agrees with its task.
* `Tandem.observed`: a host beside itself, in a state that is so.

## Main statements

* `upkeep_observed`: each part of a machine keeps this.
* `status_running_iff_pending`: it holds after any sequence of operations.
-/

namespace Resumable

open Resumable.Bound (Procedure)
open Machine (SlotId TaskStatus)

variable {s s' : HostState} {site : Site}

/-- The status slot of a machine shows whether the task is pending. -/
structure Machine.Shows (m : Machine) (slots : List Value) (t : Task) : Prop where
  kind : t.kind = .activation
  status : ∃ status : TaskStatus, slots[m.statusSlot]? = some (.int status.code) ∧
    (status = .running ↔ t.state = .pending)

/-- **The status of each activation agrees with the task that observes it**, and no two
activations have the same task. -/
structure Observed (programs : Array Program) (s : HostState) : Prop where
  stocked : Stocked programs s
  closures : PlainClosures programs s
  shown : ∀ k program owner st id, programs[k]? = some program →
    s.storage? owner k program.machine = some st → st.task = some id →
    ∃ t, s.tasks[id]? = some t ∧ program.machine.Shows st.slots t
  distinct : ∀ k k' program program' owner owner' st st' id, programs[k]? = some program →
    programs[k']? = some program' → s.storage? owner k program.machine = some st →
    s.storage? owner' k' program'.machine = some st' →
      st.task = some id → st'.task = some id →
    owner = owner' ∧ k = k'

namespace Observed

variable {programs : Array Program}

/-- **A change of anything but the slots**: the tasks of activations have to stay. -/
theorem of_storage (h : Observed programs s)
    (same : ∀ owner k m, s'.storage? owner k m = s.storage? owner k m)
    (hclosures : PlainClosures programs s')
    (htasks : ∀ (id : TaskId) (t : Task), s.tasks[id]? = some t → t.kind = .activation →
      s'.tasks[id]? = some t) : Observed programs s' := by
  refine ⟨h.stocked.of_storage same, hclosures, fun k program owner st id hk hst hid => ?_,
    fun k k' program program' owner owner' st st' id hk hk' hst hst' => ?_⟩
  · rw [same] at hst
    obtain ⟨t, ht, hshows⟩ := h.shown k program owner st id hk hst hid
    exact ⟨t, htasks id t ht hshows.kind, hshows⟩
  · rw [same] at hst hst'
    exact h.distinct k k' program program' owner owner' st st' id hk hk' hst hst'

theorem of_tasks (h : Observed programs s) (hinstances : s'.instances = s.instances)
    (hclosures : PlainClosures programs s')
    (htasks : ∀ (id : TaskId) (t : Task), s.tasks[id]? = some t → t.kind = .activation →
      s'.tasks[id]? = some t) : Observed programs s' :=
  h.of_storage (HostState.storage?_congr hinstances) hclosures htasks

theorem pushTask (h : Observed programs s) (task : Task) (q : Scheduler) :
    Observed programs { s with tasks := s.tasks.push task, scheduler := q } :=
  h.of_tasks rfl h.closures fun _ _ ht _ => getElem?_push_of_some ht task

/-- **A write of the slots at a site, and of the tasks**: the slots have to agree with their
task, which no other activation may have, and the tasks of other activations have to stay. -/
theorem update {st new : Storage} (tasks : TaskTable) (h : Observed programs s)
    (hload : programs[site.index]? = some site.program) (seen : site.slotsIn s = some st)
    (hlength : new.slots.length = st.slots.length)
    (hshown : ∀ id, new.task = some id → ∃ t, tasks[id]? = some t ∧
      site.machine.Shows new.slots t)
    (hothers : ∀ (id : TaskId) (t : Task), s.tasks[id]? = some t → t.kind = .activation →
      new.task ≠ some id → tasks[id]? = some t)
    (hdistinct : ∀ k program owner st id, programs[k]? = some program → s.storage? owner k
      program.machine = some st → st.task = some id → new.task = some id → site.owner =
        owner ∧ site.index = k) : Observed programs (site.put { s with tasks } new) := by
  have hseen {owner k m st'} :=
    @Site.storage?_put_cases { s with tasks } owner k m st site seen new st'
  refine ⟨?_, h.closures, fun k program owner st' id hk hst hid => ?_,
    fun k k' program program' owner owner' st₁ st₂ id hk hk' hst hst' hid hid' => ?_⟩
  · have hstocked : Stocked programs { s with tasks } := h.stocked.of_instances rfl
    exact hstocked.put hload seen hlength
  · obtain ⟨⟨rfl, rfl⟩, rfl⟩ | ⟨hne, hold⟩ := hseen hst
    · obtain rfl : site.program = program := Option.some.inj (hload.symm.trans hk)
      exact hshown id hid
    · obtain ⟨t, ht, hshows⟩ := h.shown k program owner st' id hk hold hid
      refine ⟨t, hothers id t ht hshows.kind fun hnew => ?_, hshows⟩
      exact hne (hdistinct k program owner st' id hk hold hid hnew)
  · obtain ⟨⟨rfl, rfl⟩, rfl⟩ | ⟨hne, hold⟩ := hseen hst
    · obtain ⟨hhere, -⟩ | ⟨hne, hold⟩ := hseen hst'
      · exact hhere
      · exact absurd (hdistinct k' program' owner' st₂ id hk' hold hid' hid) hne
    · obtain ⟨-, rfl⟩ | ⟨-, hold'⟩ := hseen hst'
      · exact absurd (hdistinct k program owner st₁ id hk hold hid hid') hne
      · exact h.distinct k k' program program' owner owner' st₁ st₂ id hk
          hk' hold hold' hid hid'

section

variable (h : Observed programs s)

include h

/-- A write of a slot other than the status. -/
theorem put_set {st : Storage} (hload : programs[site.index]? = some site.program)
    (seen : site.slotsIn s = some st) {id : SlotId} (hstatus : id ≠ site.machine.statusSlot)
    (v : Value) : Observed programs (site.put s { st with slots := st.slots.set id v }) := by
  refine h.update s.tasks hload seen List.length_set (fun task htask => ?_)
    (fun _ _ ht _ _ => ht) fun k program owner st' task hk hst hid htask =>
      h.distinct _ k _ program _ owner st st' task hload hk seen hst htask hid
  obtain ⟨t, ht, hkind, status, hslot, hiff⟩ := h.shown _ _ _ st task hload seen htask
  exact ⟨t, ht, hkind, status, (List.getElem?_set_ne hstatus).trans hslot, hiff⟩

theorem putField (owner : InstanceId) (name : Name) (v : Value) :
    Observed programs (s.putField owner name v) :=
  h.of_storage (fun _ _ => HostState.storage?_putField name v) h.closures fun _ _ ht _ => ht

theorem spawn : Observed programs { s with instances := s.instances.push .empty } := by
  refine ⟨h.stocked.spawn, h.closures, fun k program owner st id hk hst hid => ?_,
    fun k k' program program' owner₁ owner₂ st st' id hk hk' hst hst' hid hid' => ?_⟩
  · rcases HostState.storage?_spawn hst with hold | rfl
    · exact h.shown k program owner st id hk hold hid
    · cases hid
  · rcases HostState.storage?_spawn hst with hold | rfl
    · rcases HostState.storage?_spawn hst' with hold' | rfl
      · exact h.distinct k k' program program' owner₁ owner₂ st st' id hk
          hk' hold hold' hid hid'
      · cases hid'
    · cases hid

/-- A program that was just loaded has no activations. -/
theorem load (new : Program) : Observed (programs.push new) s := by
  have hold : ∀ k program owner st id, (programs.push new)[k]? = some program →
      s.storage? owner k program.machine = some st → st.task = some id →
      programs[k]? = some program := by
    intro k program owner st id hk hst hid
    rcases getElem?_push_cases hk with hold | ⟨hnone, rfl⟩
    · exact hold
    · rw [h.stocked.unstored k owner _ st hnone hst] at hid
      cases hid
  refine ⟨h.stocked.load new, fun id c hc => ?_, fun k program owner st id hk hst hid => ?_,
    fun k k' program program' owner owner' st st' id hk hk' hst hst' hid hid' => ?_⟩
  · obtain ⟨program, hk, hplain⟩ := h.closures id c hc
    exact ⟨program, getElem?_push_of_some hk new, hplain⟩
  · exact h.shown k program owner st id (hold k program owner st id hk hst hid) hst hid
  · exact h.distinct k k' program program' owner owner' st st' id
      (hold k program owner st id hk hst hid)
      (hold k' program' owner' st' id hk' hst' hid') hst hst' hid hid'

end

theorem new (config : HostConfig) : Observed #[] (HostState.new config) := by
  refine ⟨Stocked.new config, fun id c hc => ?_, fun k program owner st id hk hst => ?_,
    fun k k' program program' owner owner' st st' id hk hk' hst => ?_⟩
  · cases hc
  · cases hst
  · cases hst

/-- A request that fires completes no activation. -/
theorem completeScheduled (h : Observed programs s) (id : TaskId) :
    Observed programs { s with tasks := s.tasks.completeScheduled id } := by
  refine h.of_tasks rfl h.closures fun other t ht hkind => ?_
  unfold TaskTable.completeScheduled
  cases hid : s.tasks[id]? with
  | none => exact ht
  | some fired =>
    dsimp only
    cases hvalue : TaskTable.scheduledValue? s.tasks fired.kind with
    | none => exact ht
    | some value =>
      have hne : id ≠ other := by
        rintro rfl
        obtain rfl : fired = t := Option.some.inj (hid.symm.trans ht)
        rw [hkind] at hvalue
        cases hvalue
      unfold TaskTable.complete
      rw [Array.getElem?_modify, if_neg hne]
      exact ht

end Observed

/-! ### Machines -/

section

variable {call : Caller} {mode : LivenessMode} {names : NameTable} {p : Procedure}

theorem Observed.of_effect (b : Lowered mode names p site.machine) (loaded : site.Loaded)
    (hcall : ∀ index owner args, Maintains (Observed site.image.programs)
      (call index owner args))
    (h : Effect .any site call site.machine.freePolicy s s')
    (hs : Observed site.image.programs s) : Observed site.image.programs s' := by
  cases h with
  | task kind due notActivation => exact hs.pushTask _ _
  | answer | log => exact hs.of_tasks rfl hs.closures fun _ _ ht _ => ht
  | closure frame body plain =>
    exact hs.of_tasks rfl (hs.closures.push loaded plain) fun _ _ ht _ => ht
  | field name v => exact hs.putField _ name v
  | slot st id v seen writable => exact hs.put_set loaded seen (b.ne_of_writable writable).2 v
  | call name index args r s' allowed found ends covered =>
    exact hcall index site.owner args ends trivial hs

/-- **An activation that ends gives its task an outcome.** -/
theorem Observed.of_finish (loaded : site.Loaded) {status : TaskStatus}
    (hover : status ≠ .running) {value : Option Value}
    (h : Returns (finish site status value) s () s') (hs : Observed site.image.programs s) :
    Observed site.image.programs s' := by
  obtain ⟨result, st, hst, -, hlt, -, rfl⟩ := Site.finish_eq h
  have hlength : (site.finishedSlots status value st).slots.length = st.slots.length :=
    List.length_set.trans (Site.length_withResult _)
  have hstatus : (site.finishedSlots status value st).slots[site.machine.statusSlot]? =
      some (.int status.code) := Site.finishedSlots_status hlt
  have hdistinct : ∀ k program owner st' id, site.image.programs[k]? = some program →
      s.storage? owner k program.machine = some st' → st'.task = some id →
      (site.finishedSlots status value st).task = some id →
        site.owner = owner ∧ site.index = k :=
    fun k program owner st' id hk hst' hid hid' =>
      hs.distinct _ k _ program _ owner st st' id loaded hk hst hst' hid' hid
  cases htask : st.task with
  | none =>
    have hnone : (site.finishedSlots status value st).task = none := htask
    refine hs.update s.tasks loaded hst hlength (fun id hid => ?_)
      (fun _ _ ht _ _ => ht) hdistinct
    rw [hnone] at hid
    cases hid
  | some id =>
    -- The task of this activation is done, and those of all others are as they were.
    have hdone : ∀ outcome : TaskState, outcome ≠ .pending → outcome.isDone = true →
        Observed site.image.programs (site.put { s with tasks := s.tasks.complete id outcome }
          (site.finishedSlots status value st)) := by
      intro outcome hpending hisDone
      refine hs.update _ loaded hst hlength (fun id' hid => ?_)
        (fun id' t ht _ hne => ?_) hdistinct
      · obtain rfl : id = id' := Option.some.inj (htask.symm.trans hid)
        obtain ⟨t, ht, hkind, -⟩ := hs.shown _ _ _ st id loaded hst htask
        refine ⟨_, TaskTable.getElem?_complete ht outcome, ?_, status, hstatus,
          fun hrunning => absurd hrunning hover, fun hpend => ?_⟩
        · split <;> exact hkind
        · split at hpend
          case isTrue hold =>
            rw [hpend] at hold
            cases hold
          case isFalse => exact absurd hpend hpending
      · unfold TaskTable.complete
        rw [Array.getElem?_modify, if_neg]
        · exact ht
        · rintro rfl
          exact hne htask
    cases status with
    | running => exact absurd rfl hover
    | succeeded => exact hdone _ (by simp) rfl
    | cancelled => exact hdone _ (by simp) rfl

/-- **Each part of a machine keeps the statuses in agreement with the tasks.** -/
theorem upkeep_observed (b : Lowered mode names p site.machine) (loaded : site.Loaded)
    (hcall : ∀ index owner args, Maintains (Observed site.image.programs)
      (call index owner args)) : Upkeep site call (Observed site.image.programs) where
  effect := Observed.of_effect b loaded hcall
  calls index args := hcall index site.owner args
  advance state := by
    intro s r s' hend _ hs
    rcases Site.ends_writeSlot hend with rfl | ⟨st, seen, rfl⟩
    · exact hs
    · exact hs.put_set loaded seen b.state_ne_status _
  request due := maintains_modify fun s hs => hs.of_tasks rfl hs.closures fun _ _ ht _ => ht
  finish status value hover := by
    intro s r s' hend _ hs
    rcases ends_finish b (fun st seen => hs.stocked.stored _ _ _ st loaded seen) hend
      with rfl | hret
    · exact hs
    · exact hs.of_finish loaded hover hret
  start := by
    intro s r s' hend _ hs
    rcases ends_activate b (fun st seen => hs.stocked.stored _ _ _ st loaded seen) hend with
      rfl | ⟨st, seen, rfl⟩
    · exact hs.pushTask _ _
    · have hlength := hs.stocked.stored _ _ _ st loaded seen
      refine hs.update _ loaded seen (by rw [List.length_set, List.length_set])
        (fun id hid => ?_) (fun _ _ ht _ _ => getElem?_push_of_some ht _)
          fun k program owner st' id hk hst hid hnew => ?_
      · obtain rfl := Option.some.inj hid
        refine ⟨⟨.pending, .activation⟩, Array.getElem?_push_size, rfl, .running,
          List.getElem?_set_self ?_, iff_of_true rfl rfl⟩
        rw [List.length_set, hlength]
        exact b.lt_length.2.1
      · -- No activation has a task that did not exist.
        obtain rfl := Option.some.inj hnew
        obtain ⟨t, ht, -⟩ := hs.shown k program owner st' _ hk hst hid
        rw [Array.getElem?_size] at ht
        cases ht

end

/-! ### Hosts -/

/-- At each site of the programs the parts of the machine keep it. -/
theorem upkeep_observed_of_made {image : Image} (made : AllMade image.programs) (k : Nat)
    (program : Program) (owner : InstanceId) (call : Caller)
    (hload : image.programs[k]? = some program)
    (hcall : ∀ index owner args,
      Maintains (Observed image.programs) (call index owner args)) :
    Upkeep ⟨image, k, program, owner⟩ call (Observed image.programs) := by
  obtain ⟨_, _, _, _, hlower⟩ := made k program hload
  obtain ⟨b⟩ := lowered_of_lowerProcedure hlower
  exact @upkeep_observed ⟨image, k, program, owner⟩ _ _ _ _ b hload hcall

/-- **A host beside itself, in which the statuses agree with the tasks.** -/
def Tandem.observed : Tandem where
  halts _ := True
  functions _ := True
  machines m n := m = n ∧ m.IsMade
  programs P Q := P = Q ∧ AllMade P
  states P _ s t := s = t ∧ Observed P s
  tolerates _ _ := trivial
  labels h := by rw [h.1]
  common h := by rw [h.1]
  size h := by rw [h.1]
  reschedules h q := ⟨by rw [h.1], h.2.of_tasks rfl h.2.closures fun _ _ ht _ => ht⟩
  retokens h k := ⟨by rw [h.1], h.2.of_tasks rfl h.2.closures fun _ _ ht _ => ht⟩
  completes h id := ⟨by rw [h.1], h.2.completeScheduled id⟩
  registers h name answer _ := ⟨by rw [h.1], h.2.of_tasks rfl h.2.closures fun _ _ ht _ => ht⟩
  fields h owner name v := ⟨by rw [h.1], h.2.putField owner name v⟩
  spawns _ h := ⟨by rw [h.1], h.2.spawn⟩
  checks h := by rw [h.1]; exact ⟨rfl, rfl⟩
  loads := by
    rintro P _ m _ ⟨rfl, made⟩ ⟨rfl, hm⟩ name
    refine ⟨⟨rfl, fun k program hk => ?_⟩, fun h => ⟨h.1, h.2.load _⟩⟩
    rcases getElem?_push_cases hk with hold | ⟨-, rfl⟩
    · exact made k program hold
    · exact hm
  runs := by
    rintro P _ ⟨rfl, made⟩ names fuel index owner args
    exact inStep_self (@runProcedure_maintains _ ⟨P, names⟩ made
      (upkeep_observed_of_made made) fuel index owner args)
  closures := by
    rintro P _ ⟨rfl, made⟩ names fuel id
    exact inStep_self (@runClosure_maintains _ ⟨P, names⟩ made (upkeep_observed_of_made made)
      (fun _ h => h.closures) fuel id)

/-- **The status slot says `running` exactly while the task that observes the activation is
pending**, after any operations, those that failed included. -/
theorem status_running_iff_pending (names : NameTable) (config : HostConfig)
    (operations : List Operation)
    (made : ∀ fuel m, .perform fuel (.load m) ∈ operations → m.IsMade) {k : Nat}
    {program : Program} {owner : InstanceId} {st : Storage} {id : TaskId}
    (loaded : ((Host.new names config).after operations).image.programs[k]? = some program)
    (stored : ((Host.new names config).after operations).state.storage? owner k
      program.machine = some st)
    (task : st.task = some id) : ∃ (status : TaskStatus) (t : Task),
      st.slots[program.machine.statusSlot]? = some (.int status.code) ∧
        ((Host.new names config).after operations).state.tasks[id]? = some t ∧
        (status = .running ↔ t.state = .pending) := by
  have hmatched : List.Forall₂ Tandem.observed.Matched operations operations := by
    refine List.forall₂_same.mpr fun operation hmem => ?_
    cases operation with
    | ask query => exact .ask query
    | perform fuel command =>
      refine .perform fuel ?_
      cases hinstalls : Tandem.installs command with
      | false => exact .same hinstalls
      | true =>
        cases command with
        | load m => exact .load ⟨rfl, made fuel m hmem⟩
        | register => exact .register trivial
        | _ => cases hinstalls
  have hnew : Tandem.observed.Related (Host.new names config) (Host.new names config) :=
    ⟨rfl, ⟨rfl, fun k program hk => by cases hk⟩, rfl, Observed.new config⟩
  obtain ⟨-, -, -, hobserved⟩ := Tandem.related_after hmatched hnew
  obtain ⟨t, ht, -, status, hslot, hiff⟩ :=
    hobserved.shown k program owner st id loaded stored task
  exact ⟨status, t, hslot, ht, hiff⟩

/-! ### A greeter that is entered twice -/

namespace Greeter

/-- Load the greeter, twice; call it on an instance, twice, and then on an instance that does
not exist; and let a frame pass. -/
def session : List Operation :=
  [.perform 0 (.load machine), .perform 0 (.load machine), .perform 0 .spawn,
    .perform 9 (.call 0 "Greet" []), .perform 9 (.call 0 "Greet" []),
    .perform 9 (.call 7 "Greet" []), .perform 9 .advanceFrame]

/-- The host after that. -/
@[irreducible] def greeted : Host :=
  (Host.new (lowerProcedure {} procedure names).2 ⟨1.0, 10⟩).after session

end Greeter

/-- The second activation has succeeded, and its status says so. -/
theorem greeter_status : ∃ program st, ∃ (status : TaskStatus) (t : Task),
    Greeter.greeted.image.programs[0]? = some program ∧
    Greeter.greeted.state.storage? 0 0 program.machine = some st ∧ st.task = some 1 ∧
    st.slots[program.machine.statusSlot]? = some (.int status.code) ∧
    Greeter.greeted.state.tasks[1]? = some t ∧ (status = .running ↔ t.state = .pending) := by
  have hfound : (Greeter.greeted.image.programs[0]?.bind fun program =>
      (Greeter.greeted.state.storage? 0 0 program.machine).bind fun st => st.task) =
        some 1 := by
    decide +kernel
  obtain ⟨program, hload, hfound⟩ := Option.bind_eq_some_iff.mp hfound
  obtain ⟨st, hst, htask⟩ := Option.bind_eq_some_iff.mp hfound
  have hmade : ∀ fuel m, .perform fuel (.load m) ∈ Greeter.session → m.IsMade := by
    intro fuel m hmem
    simp only [Greeter.session, List.mem_cons, Operation.perform.injEq,
      Command.load.injEq, reduceCtorEq, and_false, List.not_mem_nil,
      or_false, or_self] at hmem
    rw [hmem.2]
    exact ⟨{}, Greeter.procedure, Greeter.names, _, Greeter.lowered⟩
  refine ⟨program, st, ?_⟩
  unfold Greeter.greeted at hload hst ⊢
  obtain ⟨status, t, hstatus, ht, hiff⟩ :=
    status_running_iff_pending _ _ Greeter.session hmade hload hst htask
  exact ⟨status, t, hload, hst, htask, hstatus, ht, hiff⟩

end Resumable
