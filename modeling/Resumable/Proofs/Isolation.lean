import Resumable.Proofs.Accounting
import Resumable.Proofs.Coherence

/-!
# Instances are isolated

Code runs on an instance, and with it whatever it calls.  **To other instances it does
nothing**: their fields and slots stay, the requests that call them back stay in their order,
and the tasks of their activations stay as they are.  Code leaves cancellation alone
altogether.  What it adds to the log is marked with its own instance, and the requests that it
adds call its own instance back or complete tasks that it made.

That the tasks of other activations stay needs more than the code: an outcome goes to the task
that the slots name, so it matters that no two activations have the same task, which is so in
every state that a host can get into.

## Main definitions

* `Isolated owner s s'`: between the two states nothing was done to other instances.
* `Host.RunsOn`: a procedure or a closure runs on an instance of a host.

## Main statements

* `Act.isolated`, `Acts.isolated`: code does nothing to other instances.
* `runs_isolated`: so it is with every procedure and closure that runs on a host, whatever was
  done to the host before.
-/

namespace Resumable

open Resumable.Bound (Procedure)

variable {owner other : InstanceId} {s s' : HostState}

/-- Does the request call a dispatch back on the instance? -/
def Request.callsBack (owner : InstanceId) (r : Request) : Bool :=
  match r.action with
  | .resume handle => handle.owner == owner
  | .complete _ => false

/-- The requests that do not call the instance back, in their order. -/
def Scheduler.besides (q : Scheduler) (owner : InstanceId) : List Request :=
  q.pending.filter fun r => !r.callsBack owner

/-- **Nothing was done to other instances.** -/
structure Isolated (owner : InstanceId) (s s' : HostState) : Prop where
  /-- The fields and the slots of other instances. -/
  instances : ∀ other, other ≠ owner → s'.instances[other]? = s.instances[other]?
  tokens : s'.tokens = s.tokens
  /-- Requests that do not call the instance back stay in their order, and new
  ones come after them. -/
  requests : ∃ new, s'.scheduler.besides owner = s.scheduler.besides owner ++ new ∧
    ∀ r ∈ new, ∃ id, r.action = .complete id ∧ s.tasks[id]? = none
  log : ∃ lines, s'.log.toList = s.log.toList ++ lines ∧ ∀ line ∈ lines, line.owner = owner
  tasks : s.tasks.Extends s'.tasks
  /-- The tasks of activations on other instances. -/
  current : ∀ other program id, other ≠ owner → s.task? other program = some id →
    s'.tasks[id]? = s.tasks[id]?

namespace Isolated

variable {s'' : HostState}

theorem refl (s : HostState) : Isolated owner s s where
  instances _ _ := rfl
  tokens := rfl
  requests := ⟨[], (List.append_nil _).symm, fun _ hr => absurd hr List.not_mem_nil⟩
  log := ⟨[], (List.append_nil _).symm, fun _ hline => absurd hline List.not_mem_nil⟩
  tasks := .refl _
  current _ _ _ _ _ := rfl

theorem task?_eq (h : Isolated owner s s') (hother : other ≠ owner) (program : Nat) :
    s'.task? other program = s.task? other program := by
  rw [HostState.task?, HostState.task?, h.instances other hother]

/-- Isolation carries over two steps. -/
theorem trans (h : Isolated owner s s') (h' : Isolated owner s' s'') :
    Isolated owner s s'' where
  instances other hother := (h'.instances other hother).trans (h.instances other hother)
  tokens := h'.tokens.trans h.tokens
  requests := by
    obtain ⟨new, heq, hnew⟩ := h.requests
    obtain ⟨more, heq', hmore⟩ := h'.requests
    refine ⟨new ++ more, by rw [heq', heq, List.append_assoc], fun r hr => ?_⟩
    rcases List.mem_append.mp hr with hr | hr
    · exact hnew r hr
    · obtain ⟨id, haction, hnone⟩ := hmore r hr
      refine ⟨id, haction, Option.eq_none_iff_forall_not_mem.mpr fun t ht => ?_⟩
      obtain ⟨t', ht', -⟩ := h.tasks id t ht
      rw [hnone] at ht'
      cases ht'
  log := by
    obtain ⟨lines, heq, hlines⟩ := h.log
    obtain ⟨more, heq', hmore⟩ := h'.log
    refine ⟨lines ++ more, by rw [heq', heq, List.append_assoc], fun line hline => ?_⟩
    rcases List.mem_append.mp hline with hline | hline
    · exact hlines line hline
    · exact hmore line hline
  tasks := h.tasks.trans h'.tasks
  current other program id hother htask :=
    (h'.current other program id hother ((h.task?_eq hother program).trans htask)).trans
      (h.current other program id hother htask)

/-- Where the queue and the log stay, it is the instances, the tokens and the tasks that have
to be looked at. -/
theorem of_same
    (instances : ∀ other, other ≠ owner → s'.instances[other]? = s.instances[other]?)
    (tokens : s'.tokens = s.tokens) (scheduler : s'.scheduler = s.scheduler)
    (log : s'.log = s.log) (tasks : s.tasks.Extends s'.tasks)
    (current : ∀ other program id, other ≠ owner → s.task? other program = some id →
      s'.tasks[id]? = s.tasks[id]?) : Isolated owner s s' where
  instances := instances
  tokens := tokens
  requests := ⟨[], by rw [scheduler, List.append_nil], fun _ hr => absurd hr List.not_mem_nil⟩
  log := ⟨[], by rw [log, List.append_nil], fun _ hline => absurd hline List.not_mem_nil⟩
  tasks := tasks
  current := current

/-- **Making a task** leaves the tasks that activations have. -/
theorem current_push (hs : s.Coherent) (kind : TaskKind) {program : Nat} {id : TaskId}
    (htask : s.task? other program = some id) :
    (s.tasks.push ⟨.pending, kind⟩)[id]? = s.tasks[id]? := by
  obtain ⟨t, ht, -⟩ := hs.observed htask
  exact (getElem?_push_of_some ht _).trans ht.symm

/-- A new call back of the instance leaves all other requests. -/
theorem besides_callBack (q : Scheduler) (due : Due) (procedure : ProcIndex) :
    (q.submit due (.resume ⟨owner, procedure⟩)).besides owner = q.besides owner := by
  unfold Scheduler.besides Scheduler.submit
  dsimp only
  rw [List.filter_append, List.filter_filter]
  simp only [Request.callsBack, beq_self_eq_true, Bool.not_true, List.filter_cons,
    Bool.false_eq_true, if_false, List.filter_nil, List.append_nil]
  refine List.filter_congr fun r _ => ?_
  cases haction : r.action with
  | complete id => simp
  | resume handle =>
    by_cases hown : handle.owner = owner
    · simp [hown]
    · have hne : handle ≠ ⟨owner, procedure⟩ := fun heq => hown (heq ▸ rfl)
      simp [hne]

end Isolated

/-- **One act of code** does nothing to other instances. -/
theorem Act.isolated {site : Site} (h : Act site s s') (hs : s.Coherent) :
    Isolated site.owner s s' := by
  have hmodify : ∀ (instances : Array Instance) (f : Instance → Instance)
      (other : InstanceId), other ≠ site.owner →
      (instances.modify site.owner f)[other]? = instances[other]? := by
    intro instances f other hother
    rw [Array.getElem?_modify, if_neg (Ne.symm hother)]
  cases h with
  | task kind due fits =>
    refine { Isolated.refl s with
      requests := ⟨[⟨s.scheduler.nextSeq, due, .complete s.tasks.size⟩], ?_, fun r hr => ?_⟩
      tasks := TaskTable.extends_push _ _
      current := fun other program id _ htask => Isolated.current_push hs kind htask }
    · exact List.filter_append ..
    · rw [List.mem_singleton.mp hr]
      exact ⟨_, rfl, Array.getElem?_eq_none (Nat.le_refl _)⟩
  | callBack due =>
    refine { Isolated.refl s with requests :=
      ⟨[], ?_, fun r hr => absurd hr List.not_mem_nil⟩ }
    rw [List.append_nil]
    exact Isolated.besides_callBack s.scheduler due _
  | line message =>
    refine { Isolated.refl s with log :=
      ⟨[⟨site.owner, message⟩], Array.toList_push, fun line hline => ?_⟩ }
    rw [List.mem_singleton.mp hline]
  | answer | closure =>
    exact .of_same (fun _ _ => rfl) rfl rfl rfl (.refl _) fun _ _ _ _ _ => rfl
  | field name v => exact .of_same (hmodify _ _) rfl rfl rfl (.refl _) fun _ _ _ _ _ => rfl
  | slots content seen same =>
    exact .of_same (hmodify _ _) rfl rfl rfl (.refl _) fun _ _ _ _ _ => rfl
  | start seen =>
    exact .of_same (hmodify _ _) rfl rfl rfl (TaskTable.extends_push _ _) fun _ _ _ _ htask =>
      Isolated.current_push hs .activation htask
  | orphan nowhere =>
    exact .of_same (fun _ _ => rfl) rfl rfl rfl
      (TaskTable.extends_push _ _) fun _ _ _ _ htask =>
      Isolated.current_push hs .activation htask
  | outcome state seen observes done =>
    refine .of_same (fun _ _ => rfl) rfl rfl rfl (TaskTable.extends_complete _ _ _)
      fun other program id hother htask => ?_
    -- The task that gets the outcome is that of an activation on this instance,
    -- and of no other.
    have hown := (HostState.task?_eq seen).trans observes
    rw [TaskTable.complete, Array.getElem?_modify, if_neg]
    rintro rfl
    exact hother (hs.apart htask hown).1

/-- **Nor do any number of acts.** -/
theorem Acts.isolated (h : Acts owner s s') (hs : s.Coherent) : Isolated owner s s' := by
  have hboth : s'.Coherent ∧ Isolated owner s s' := by
    refine h.invariant (I := fun t => t.Coherent ∧ Isolated owner s t)
      (fun hsite act hab => ?_) ⟨hs, .refl s⟩
    exact ⟨act.coherent hab.1, hab.2.trans (hsite ▸ act.isolated hab.1)⟩
  exact hboth.2

/-- **Something runs on an instance of a host**: a procedure, or a closure that was made on
the instance, and with it whatever it calls.  The state is the one that the run leaves,
whether it returns or stops. -/
inductive Host.RunsOn (host : Host) (owner : InstanceId) : HostState → Prop where
  | procedure (fuel : Nat) (index : ProcIndex) (args : List Value)
    {r : Except Halt Value} {s' : HostState}
    (ends : Ends (runProcedure host.image fuel index owner args) host.state r s') :
      RunsOn host owner s'
  | closure (fuel : Nat) (id : ClosureId) {c : Closure}
    {r : Except Halt Value} {s' : HostState}
    (made : host.state.closures[id]? = some c) (own : c.owner = owner)
    (ends : Ends (runClosure host.image fuel id) host.state r s') : RunsOn host owner s'

/-- **Instances are isolated.**  Whatever was done to a host, a procedure or a closure that
runs on an instance leaves everything that belongs to other instances, with whatever it calls,
and whether it returns or stops. -/
theorem runs_isolated {names : NameTable} {config : HostConfig} {handlings : List Handling}
    {owner : InstanceId} {s' : HostState}
    (runs : ((Host.new names config).handled handlings).RunsOn owner s') :
    Isolated owner ((Host.new names config).handled handlings).state s' := by
  have hs := Host.coherent_handled names config handlings
  cases runs with
  | procedure fuel index args ends =>
    exact ((confined_runProcedure _ fuel index owner args).acts ends).isolated hs
  | closure fuel id made own ends =>
    subst own
    exact (acts_of_runClosure made ends).isolated hs

/-! ### A relay -/

namespace Relay

/-- The strings of the ticker, and those of a procedure that starts it. -/
def names : NameTable := Ticker.names.internAll ["Lead", "started"]

/-- Start the ticker and log a line. -/
def lead : Procedure where
  name := ⟨4⟩
  params := []
  locals := []
  result := .unit
  cancellation := none
  body := .block [
    .expr ⟨0, .none⟩ (.call ⟨.deferred .unit, .none⟩ (.procedure ⟨1⟩) []),
    .expr ⟨1, .none⟩ (.call ⟨.unit, .none⟩ (.host ⟨2⟩) [.str ⟨.str, .none⟩ ⟨5⟩])]
  span := .none

/-- The machine of the ticker and that of the procedure that starts it. -/
def machines : Except LowerError Machine × Except LowerError Machine × NameTable :=
  let tick := lowerProcedure {} Ticker.procedure names
  let lead := lowerProcedure {} lead tick.2
  (tick.1, lead.1, lead.2)

/-- Two instances are made, and a ticker waits on the second. -/
def handlings : List Handling := [
  .operate (.perform 0 (.load (machines.1.toOption.getD default))),
  .operate (.perform 0 (.load (machines.2.1.toOption.getD default))),
  .operate (.perform 0 .spawn), .operate (.perform 0 .spawn),
  .operate (.perform 5 (.call 1 "Tick" []))]

/-- The host on which the ticker waits. -/
def host : Host := (Host.new machines.2.2 ⟨1.0, 10⟩).handled handlings

/-- The state after the ticker was started on the first instance, too. -/
def started : HostState :=
  (show Except Halt Value × HostState from runProcedure host.image 5
    (procIndex 1 .entry) 0 [] host.state).2

end Relay

theorem relay_isolated :
    Relay.host.state.scheduler.pending.map Request.action = [.resume ⟨1, 1⟩] ∧
      Relay.started.scheduler.pending.map Request.action = [.resume ⟨1, 1⟩, .resume ⟨0, 1⟩] ∧
      Relay.started.log.toList = [⟨0, "started"⟩] ∧
      Relay.host.RunsOn 0 Relay.started ∧ Isolated 0 Relay.host.state Relay.started :=
  ⟨by decide +kernel, by decide +kernel, by decide +kernel, .procedure 5 _ [] rfl,
    runs_isolated (.procedure 5 (procIndex 1 .entry) [] rfl)⟩

end Resumable
