import Resumable.Proofs.Coherence

/-!
# Joins wait for their tasks

A join that is used as a value has a task of its own, and a request that completes it.  The
request becomes due when the tasks of the join are done, but nothing looks at these tasks
again when it fires.  So **a join is done no earlier than its tasks, as long as nobody fires
its request by hand before it is ripe**; and a request that is fired too early gives the join
an outcome that stays, while its tasks are still pending.

This is where a join differs from a wait for tasks: a dispatch that is called back too early
looks at its tasks once more, and asks to be called back again.

## Main definitions

* `TaskTable.Justifies`: the tasks of a join are done, and it delivers what it should.
* `TaskTable.JoinsKept`: this is so for every join that has succeeded.
* `Handling.Patient`, `Host.IsPatient`: no request of a join is fired by hand
  before it is ripe.

## Main statements

* `Deed.joinsKept`: deeds that fire ripe requests only keep this.
* `joins_wait`: it holds whatever is done to a host with patience.
* `join_delivers`: what a join delivers, and where it is not what a wait for its tasks does.
* `gathering_hastened`: without patience, joins do not wait.
-/

namespace Resumable

open Resumable.Bound (Procedure)

variable {tasks tasks' : TaskTable} {kind : TaskKind} {v : Value} {r : Request} {id : TaskId}
  {state : TaskState} {s' : HostState} {handlings : List Handling}

namespace TaskTable

/-- **The tasks of a join are done**, all of them or the one whose position it delivers.  Of
other tasks nothing is asked. -/
def Justifies (tasks : TaskTable) : TaskKind → Value → Prop
  | .join ids .all, v => v = .unit ∧ ∀ id ∈ ids, tasks.isDone id = true
  | .join ids .any, v =>
    ∃ position id, ids[position]? = some id ∧ tasks.isDone id = true ∧
      v = .int (.ofNat position)
  | .activation, _ | .timer, _ => True

/-- **Every join that has succeeded** waited for its tasks. -/
def JoinsKept (tasks : TaskTable) : Prop :=
  ∀ (id : TaskId) (t : Task) (v : Value), tasks[id]? = some t → t.state = .succeeded v →
    tasks.Justifies t.kind v

/-- Tasks that are done stay done. -/
theorem Justifies.mono (h : tasks.Justifies kind v) (later : tasks.Extends tasks') :
    tasks'.Justifies kind v := by
  cases kind with
  | activation | timer => trivial
  | join ids mode =>
    cases mode with
    | all => exact ⟨h.1, fun id hid => later.isDone (h.2 id hid)⟩
    | any =>
      obtain ⟨position, id, hid, hdone, hv⟩ := h
      exact ⟨position, id, hid, later.isDone hdone, hv⟩

/-- **What a request delivers that is ripe** is justified. -/
theorem justifies_of_ripe (fits : kind.Awaits r.due) (ripe : r.Ripe tasks)
    (hvalue : tasks.scheduledValue? kind = some v) : tasks.Justifies kind v := by
  cases kind with
  | activation | timer => trivial
  | join ids mode =>
    have hdone := ripe ids mode fits
    cases mode with
    | all => exact ⟨(Option.some.inj hvalue).symm, List.all_eq_true.mp hdone⟩
    | any =>
      unfold scheduledValue? at hvalue
      cases hfirst : tasks.firstDone? ids with
      | none =>
        -- One of the tasks is done, so there is a first one that is.
        obtain ⟨id, hid, hone⟩ := List.any_eq_true.mp hdone
        have hnone := List.findIdx?_eq_none_iff.mp hfirst id hid
        rw [hone] at hnone
        cases hnone
      | some position =>
        simp only [hfirst] at hvalue
        obtain ⟨hlt, hat, -⟩ := List.findIdx?_eq_some_iff_getElem.mp hfirst
        exact ⟨position, _, List.getElem?_eq_getElem hlt, hat, (Option.some.inj hvalue).symm⟩

namespace JoinsKept

/-- A new task has no outcome yet. -/
theorem push (h : tasks.JoinsKept) (kind : TaskKind) :
    JoinsKept (tasks.push ⟨.pending, kind⟩) := by
  intro id t v ht hstate
  rcases getElem?_push_cases ht with hold | ⟨-, rfl⟩
  · exact (h id t v hold hstate).mono (extends_push _ _)
  · cases hstate

/-- **An outcome** has to be justified where it is given to a join. -/
theorem complete (h : tasks.JoinsKept)
    (justified : ∀ t v, tasks[id]? = some t → state = .succeeded v →
      tasks.Justifies t.kind v) :
    (tasks.complete id state).JoinsKept := by
  have later := extends_complete tasks id state
  intro id' t' v ht' hstate
  rw [TaskTable.complete, Array.getElem?_modify] at ht'
  split at ht'
  case isFalse => exact (h id' t' v ht' hstate).mono later
  case isTrue hid =>
    subst hid
    obtain ⟨t, ht, rfl⟩ := Option.map_eq_some_iff.mp ht'
    split at hstate
    case isTrue hdone =>
      rw [if_pos hdone]
      exact (h id t v ht hstate).mono later
    case isFalse hpending =>
      rw [if_neg hpending]
      exact (justified t v ht hstate).mono later

end JoinsKept

end TaskTable

variable {s : HostState} {handling : Handling} {host : Host}

/-- **Code** gives outcomes to activations only. -/
theorem Act.joinsKept {site : Site} (h : Act site s s') (hs : s.Coherent)
    (kept : s.tasks.JoinsKept) : s'.tasks.JoinsKept := by
  cases h with
  | task kind due fits => exact kept.push kind
  | start seen => exact kept.push .activation
  | orphan nowhere => exact kept.push .activation
  | outcome state seen observes done =>
    refine kept.complete fun t v ht _ => ?_
    obtain ⟨t', ht', hkind⟩ := hs.observed ((HostState.task?_eq seen).trans observes)
    obtain rfl := Option.some.inj (ht.symm.trans ht')
    rw [hkind]
    trivial
  | callBack | answer | line | closure | field | slots => exact kept

/-- **Deeds that fire ripe requests only** let joins wait. -/
theorem Deed.joinsKept {asked : List Nat} (h : Deed asked s s') (hs : s.Coherent)
    (ripe : ∀ r ∈ s.scheduler.pending, ∀ id, r.action = .complete id →
      r.seq ∈ asked → r.Ripe s.tasks)
    (kept : s.tasks.JoinsKept) : s'.tasks.JoinsKept := by
  cases h with
  | code act => exact act.joinsKept hs kept
  | @fire q r id outstanding completes due fewer same =>
    have hripe : r.Ripe s.tasks :=
      due.elim (fun hdue => hdue) (ripe r outstanding id completes)
    obtain ⟨t, ht, fits⟩ := hs.awaited outstanding completes
    show (s.tasks.completeScheduled id).JoinsKept
    rcases s.tasks.completeScheduled_eq id with hsame | ⟨t', value, ht', hvalue, hdone⟩
    · rw [hsame]
      exact kept
    · rw [hdone]
      refine kept.complete fun u v hu hv => ?_
      obtain rfl := Option.some.inj (ht.symm.trans ht')
      obtain rfl := Option.some.inj (ht.symm.trans hu)
      obtain rfl := TaskState.succeeded.inj hv
      exact TaskTable.justifies_of_ripe fits hripe hvalue
  | queue | spawn => exact kept
  | aside scheduler instances tasks => exact tasks ▸ kept

/-! ### Patience -/

/-- **No request of a join is fired by hand** before it is ripe. -/
def Handling.Patient (host : Host) (handling : Handling) : Prop :=
  ∀ fuel index r id, handling = .operate (.perform fuel (.firePending index)) →
    host.state.scheduler.pending[index]? = some r → r.action = .complete id →
    r.Ripe host.state.tasks

/-- This is so for one thing after another. -/
def Host.IsPatient (host : Host) : List Handling → Prop
  | [] => True
  | first :: rest => first.Patient host ∧ (first.after host).IsPatient rest

/-- What is asked for is outstanding. -/
theorem Handling.exists_of_asked {seq : Nat} (h : seq ∈ handling.asked s) :
    ∃ r ∈ s.scheduler.pending, r.seq = seq ∧ (r.due.isTimer = true ∨
      ∃ fuel index, handling = .operate (.perform fuel (.firePending index)) ∧
        s.scheduler.pending[index]? = some r) := by
  cases handling with
  | setSlotValue => cases h
  | operate operation =>
    cases operation with
    | ask query => cases h
    | perform fuel command =>
      cases command with
      | firePending index =>
        obtain ⟨r, hr, rfl⟩ := List.mem_map.mp h
        have hat : s.scheduler.pending[index]? = some r := Option.mem_toList.mp hr
        exact ⟨r, List.mem_of_getElem? hat, rfl, Or.inr ⟨fuel, index, rfl, hat⟩⟩
      | fireTimers =>
        obtain ⟨r, hr, rfl⟩ := List.mem_map.mp h
        obtain ⟨hmem, htimer⟩ := List.mem_filter.mp hr
        exact ⟨r, hmem, rfl, Or.inl htimer⟩
      | _ => cases h

/-- **With patience**, what is asked for and completes a task is ripe. -/
theorem Handling.Patient.ripe (h : handling.Patient host) (hs : host.state.Coherent)
    (outstanding : r ∈ host.state.scheduler.pending) (completes : r.action = .complete id)
    (asked : r.seq ∈ handling.asked host.state) : r.Ripe host.state.tasks := by
  obtain ⟨r', hr', hseq, hwhy⟩ := Handling.exists_of_asked asked
  obtain rfl := hs.ordered.eq_of_seq_eq hr' outstanding hseq
  rcases hwhy with htimer | ⟨fuel, index, heq, hat⟩
  · exact Request.ripe_of_isTimer htimer
  · exact h fuel index r' id heq hat completes

/-- **What is done with patience** lets joins wait. -/
theorem Handling.joinsKept (h : handling.Patient host) (hs : host.state.Coherent)
    (kept : host.state.tasks.JoinsKept) : (handling.after host).state.tasks.JoinsKept := by
  have hall : (handling.after host).state.Coherent ∧
      host.state.scheduler.Since (handling.after host).state.scheduler ∧
      host.state.tasks.Extends (handling.after host).state.tasks ∧
      (handling.after host).state.tasks.JoinsKept := by
    refine (handling.deeds host).invariant
      (I := fun t => t.Coherent ∧ host.state.scheduler.Since t.scheduler ∧
        host.state.tasks.Extends t.tasks ∧
        t.tasks.JoinsKept) (fun {a b} deed hab => ?_) ⟨hs, .refl _, .refl _, kept⟩
    obtain ⟨ha, since, later, kept⟩ := hab
    obtain ⟨made, course⟩ := deed.taskCourse
    refine ⟨deed.coherent ha, since.trans deed.since, later.trans course.tasks_extend,
      deed.joinsKept ha ?_ kept⟩
    -- A request that is asked for was outstanding at the start, and ripe, and its tasks have
    -- stayed done.
    intro r hr id completes asked
    obtain ⟨r', hr', hseq, -⟩ := Handling.exists_of_asked asked
    have hold := since.pending r hr (hseq ▸ hs.ordered.below r' hr')
    exact fun ids mode hdue => later.done (h.ripe hs hold completes asked ids mode hdue)
  exact hall.2.2.2

theorem Host.joinsKept_handled (patient : host.IsPatient handlings) (hs : host.state.Coherent)
    (kept : host.state.tasks.JoinsKept) : (host.handled handlings).state.tasks.JoinsKept := by
  induction handlings generalizing host with
  | nil => exact kept
  | cons first rest ih =>
    exact ih patient.2 ((first.deeds host).invariant Deed.coherent hs)
      (Handling.joinsKept patient.1 hs kept)

/-- **Joins wait for their tasks**, whatever is done to a host with patience: a join of all
tasks that has succeeded has all of them done, and a join of any has one done and delivers the
position of it. -/
theorem joins_wait {names : NameTable} {config : HostConfig}
    (patient : (Host.new names config).IsPatient handlings) :
    ((Host.new names config).handled handlings).state.tasks.JoinsKept :=
  Host.joinsKept_handled patient (HostState.Coherent.new config) fun _ _ _ ht => by cases ht

/-! ### What a join delivers -/

/-- **What a join delivers that is a task of its own**, where a wait for its tasks delivers
`v`.  A wait for all of one task takes the value of that task over, but a join of all has no
value, however many tasks it has. -/
def JoinMode.bound (mode : JoinMode) (ids : List TaskId) (v : Value) : Value :=
  if mode = .all ∧ ids.length = 1 then .unit else v

namespace TaskTable

variable {j : TaskId} {ids : List TaskId} {mode : JoinMode}

/-- This is what its request gives it. -/
theorem scheduledValue?_of_joined? (ready : tasks.joined? ids mode = some v) :
    tasks.scheduledValue? (.join ids mode) = some (mode.bound ids v) := by
  cases mode with
  | any =>
    rw [JoinMode.bound, if_neg (by simp)]
    obtain ⟨position, hfirst, rfl⟩ := Option.map_eq_some_iff.mp ready
    unfold scheduledValue?
    simp only [hfirst]
  | all =>
    match ids with
    | [_] => rfl
    | [] => exact ready
    | _ :: _ :: _ =>
      rw [JoinMode.bound, if_neg (by simp)]
      unfold joined? at ready
      dsimp only at ready
      split at ready
      · exact ready
      · cases ready

/-- A task that is pending takes the outcome it is given. -/
theorem getElem?_complete_of_pending (pending : tasks[j]? = some ⟨.pending, kind⟩) :
    (tasks.complete j state)[j]? = some ⟨state, kind⟩ := by
  rw [TaskTable.complete, Array.getElem?_modify, if_pos rfl, pending]
  rfl

end TaskTable

/-- **A join can be awaited in two ways.**  One can wait for its tasks, or make it a task of
its own and wait for that one.  Where the first way delivers `v`, the request of the join
gives it an outcome, and a wait for the join delivers the same `v`, unless it is a join of all
with a single task: it then delivers the unit value, and not what its task does. -/
theorem join_delivers {tasks : TaskTable} {j : TaskId} {ids : List TaskId} {mode : JoinMode}
    {v : Value} (pending : tasks[j]? = some ⟨.pending, .join ids mode⟩)
    (ready : tasks.joined? ids mode = some v) :
    (tasks.completeScheduled j)[j]? = some ⟨.succeeded (mode.bound ids v), .join ids mode⟩ ∧
      (tasks.completeScheduled j).joined? [j] .all = some (mode.bound ids v) := by
  have hcomplete : tasks.completeScheduled j = tasks.complete j
    (.succeeded (mode.bound ids v)) := by
    unfold TaskTable.completeScheduled
    simp only [pending, TaskTable.scheduledValue?_of_joined? ready]
  have hdone : (tasks.completeScheduled j)[j]? =
    some ⟨.succeeded (mode.bound ids v), .join ids mode⟩ := by
    rw [hcomplete]
    exact TaskTable.getElem?_complete_of_pending pending
  refine ⟨hdone, ?_⟩
  unfold TaskTable.joined?
  simp only [hdone, Option.map_some]

/-- A timer that has not gone off, an activation that gave seven, and a join
of any of the two. -/
def anyOfTwo : TaskTable :=
  #[⟨.pending, .timer⟩, ⟨.succeeded (.int 7), .activation⟩, ⟨.pending, .join [0, 1] .any⟩]

/-- The join delivers the position of the activation in both ways. -/
theorem anyOfTwo_delivers : anyOfTwo[2]? = some ⟨.pending, .join [0, 1] .any⟩ ∧
    anyOfTwo.joined? [0, 1] .any = some (.int 1) ∧
    (anyOfTwo.completeScheduled 2)[2]? = some ⟨.succeeded (.int 1), .join [0, 1] .any⟩ ∧
    (anyOfTwo.completeScheduled 2).joined? [2] .all = some (.int 1) := by
  have pending : anyOfTwo[2]? = some ⟨.pending, .join [0, 1] .any⟩ := rfl
  have ready : anyOfTwo.joined? [0, 1] .any = some (.int 1) := rfl
  exact ⟨pending, ready, join_delivers pending ready⟩

/-- An activation that gave seven, and a join of all that has it alone. -/
def allOfOne : TaskTable := #[⟨.succeeded (.int 7), .activation⟩, ⟨.pending, .join [0] .all⟩]

/-- **A join of all that has one task drops the value of the task**: a wait for the task
delivers seven, and the join gets the unit value. -/
theorem allOfOne_drops :
    ¬ ∀ (tasks : TaskTable) (j : TaskId) (ids : List TaskId) (mode : JoinMode) (v : Value),
    ids ≠ [] → tasks[j]? = some ⟨.pending, .join ids mode⟩ → tasks.joined? ids mode = some v →
      (tasks.completeScheduled j)[j]? = some ⟨.succeeded v, .join ids mode⟩ := by
  intro same
  have hseven := same allOfOne 1 [0] .all (.int 7) (by simp) rfl rfl
  have hunit : (allOfOne.completeScheduled 1)[1]? = some ⟨.succeeded .unit, .join [0] .all⟩ :=
    rfl
  rw [hunit] at hseven
  cases hseven

/-! ### A gathering -/

namespace Gathering

/-- The strings of the procedure. -/
def names : NameTable := .internAll .empty ["Gather"]

/-- Make a join of a delay of five frames, and do not wait for it. -/
def procedure : Procedure where
  name := ⟨1⟩
  params := []
  locals := []
  result := .unit
  cancellation := none
  body := .block [
    .expr ⟨0, .none⟩ (.call ⟨.deferred .unit, .none⟩ (.primitive .whenAll)
      [.call ⟨.deferred .unit, .none⟩ (.primitive .delayFrames) [.int ⟨.int, .none⟩ 5]])]
  span := .none

/-- A host with the machine of the procedure. -/
def fresh : Host := Host.new (lowerProcedure {} procedure names).2 ⟨1.0, 10⟩

/-- The procedure is called on an instance. -/
def start : List Handling := [
  .operate (.perform 0 (.load ((lowerProcedure {} procedure names).1.toOption.getD default))),
  .operate (.perform 0 .spawn),
  .operate (.perform 5 (.call 0 "Gather" []))]

/-- The request of the join is fired at once. -/
def hastily : List Handling := start ++ [.operate (.perform 5 (.firePending 1))]

/-- Has the task succeeded? -/
def succeeded (t : Task) : Bool :=
  match t.state with
  | .succeeded _ => true
  | .pending | .cancelled => false

/-- What the tasks are, and which of them have succeeded. -/
def standing (host : Host) : List (TaskKind × Bool) :=
  host.state.tasks.toList.map fun t => (t.kind, succeeded t)

end Gathering

/-- **A join can be done before its tasks**: the request of the join is fired by hand while
the delay that it joins is still to come. -/
theorem gathering_hastened : Gathering.standing (Gathering.fresh.handled Gathering.hastily) =
        [(.activation, true), (.timer, false), (.join [1] .all, true)] ∧
      ¬ (Gathering.fresh.handled Gathering.hastily).state.tasks.JoinsKept := by
  refine ⟨by decide +kernel, fun kept => ?_⟩
  have hjoin : ((Gathering.fresh.handled Gathering.hastily).state.tasks[2]?.map fun t =>
      (t.kind, Gathering.succeeded t)) = some (.join [1] .all, true) := by decide +kernel
  have hdelay : (Gathering.fresh.handled Gathering.hastily).state.tasks.isDone 1 = false := by
    decide +kernel
  obtain ⟨t, ht, heq⟩ := Option.map_eq_some_iff.mp hjoin
  obtain ⟨hkind, hsucceeded⟩ := Prod.mk.inj heq
  unfold Gathering.succeeded at hsucceeded
  cases hstate : t.state with
  | pending | cancelled =>
    rw [hstate] at hsucceeded
    cases hsucceeded
  | succeeded v =>
    have hdone := kept 2 t v ht hstate
    rw [hkind] at hdone
    rw [hdone.2 1 List.mem_cons_self] at hdelay
    cases hdelay

end Resumable
