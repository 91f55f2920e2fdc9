import Resumable.Proofs.Outcomes

/-!
# The queue, the tasks and the instances agree

Requests stand in the queue in the order of their numbers, and a number is given once.  A
request that completes a task finds a task there, and becomes due the way the task says.  A
task that observes an activation is the task of an activation, and **no two activations have
the same task**.  All this holds in every state that a host can get into.

## Main definitions

* `Scheduler.Ordered`: requests stand in the order of their numbers.
* `Scheduler.Since`: no request got into the queue under an old number.
* `HostState.task?`: the task of the latest activation of a program on an instance.
* `HostState.Coherent`: the queue, the tasks and the instances agree.

## Main statements

* `Deed.since`: deeds give new numbers to new requests.
* `Deed.coherent`: deeds keep a state coherent.
* `Host.coherent_handled`: whatever is done to a new host, its state is coherent.
-/

namespace Resumable

variable {asked : List Nat} {s s' : HostState} {m : Machine} {st : Storage}

/-! ### Numbers of requests -/

/-- **Requests stand in the order of their numbers**, which are all below the next one. -/
structure Scheduler.Ordered (q : Scheduler) : Prop where
  increasing : q.pending.Pairwise fun a b => a.seq < b.seq
  below : ∀ r ∈ q.pending, r.seq < q.nextSeq

/-- **No request got into the queue under an old number.** -/
structure Scheduler.Since (old new : Scheduler) : Prop where
  next : old.nextSeq ≤ new.nextSeq
  pending : ∀ r ∈ new.pending, r.seq < old.nextSeq → r ∈ old.pending

namespace Scheduler

variable {q q' q'' : Scheduler}

/-- What is outstanding after a submission is what was outstanding and the new request. -/
theorem mem_of_mem_submit {due : Due} {action : Action} {r : Request}
    (h : r ∈ (q.submit due action).pending) :
    r ∈ q.pending ∨ r = ⟨q.nextSeq, due, action⟩ := by
  rcases List.mem_append.mp h with hkept | hnew
  · refine Or.inl ?_
    cases action with
    | resume handle => exact (List.mem_filter.mp hkept).1
    | complete id => exact hkept
  · exact Or.inr (List.mem_singleton.mp hnew)

/-- Taking requests away keeps the queue in order. -/
theorem Ordered.sublist (h : q.Ordered) (fewer : q'.pending.Sublist q.pending)
    (same : q'.nextSeq = q.nextSeq) : q'.Ordered where
  increasing := h.increasing.sublist fewer
  below r hr := same ▸ h.below r (fewer.subset hr)

/-- A new request goes to the end of the order. -/
theorem Ordered.submit (h : q.Ordered) (due : Due) (action : Action) :
    (q.submit due action).Ordered := by
  refine ⟨List.pairwise_append.mpr ⟨?_, List.pairwise_singleton .., fun r hr new hnew => ?_⟩,
    fun r hr => ?_⟩
  · cases action with
    | resume handle => exact h.increasing.filter _
    | complete id => exact h.increasing
  · rw [List.mem_singleton.mp hnew]
    cases action with
    | resume handle => exact h.below r (List.mem_filter.mp hr).1
    | complete id => exact h.below r hr
  · show r.seq < q.nextSeq + 1
    rcases mem_of_mem_submit hr with hold | rfl
    · exact Nat.lt_succ_of_lt (h.below r hold)
    · exact Nat.lt_succ_self _

/-- A number belongs to one request. -/
theorem Ordered.eq_of_seq_eq (h : q.Ordered) {a b : Request} (ha : a ∈ q.pending)
    (hb : b ∈ q.pending) (hseq : a.seq = b.seq) : a = b := by
  obtain ⟨i, hi, rfl⟩ := List.getElem_of_mem ha
  obtain ⟨j, hj, rfl⟩ := List.getElem_of_mem hb
  have hlt := List.pairwise_iff_getElem.mp h.increasing
  rcases Nat.lt_trichotomy i j with hij | rfl | hji
  · exact absurd hseq (Nat.ne_of_lt (hlt i j hi hj hij))
  · rfl
  · exact absurd hseq.symm (Nat.ne_of_lt (hlt j i hj hi hji))

theorem Since.refl (q : Scheduler) : q.Since q := ⟨Nat.le_refl _, fun _ hr _ => hr⟩

theorem Since.trans (h : q.Since q') (h' : q'.Since q'') : q.Since q'' where
  next := Nat.le_trans h.next h'.next
  pending r hr hseq := h.pending r (h'.pending r hr (Nat.lt_of_lt_of_le hseq h.next)) hseq

theorem since_of_sublist (fewer : q'.pending.Sublist q.pending)
    (same : q'.nextSeq = q.nextSeq) : q.Since q' :=
  ⟨Nat.le_of_eq same.symm, fun _ hr _ => fewer.subset hr⟩

theorem since_submit (q : Scheduler) (due : Due) (action : Action) :
    q.Since (q.submit due action) := by
  refine ⟨Nat.le_succ _, fun r hr hseq => ?_⟩
  rcases mem_of_mem_submit hr with hold | rfl
  · exact hold
  · exact absurd hseq (Nat.lt_irrefl _)

end Scheduler

/-- **Deeds give new numbers to new requests.** -/
theorem Deed.since (h : Deed asked s s') : s.scheduler.Since s'.scheduler := by
  cases h with
  | code act =>
    cases act with
    | task kind due fits => exact s.scheduler.since_submit due (.complete s.tasks.size)
    | callBack due => exact s.scheduler.since_submit due (.resume (Site.handle _))
    | answer | line | closure | field | slots | start | orphan | outcome => exact .refl _
  | queue fewer same => exact Scheduler.since_of_sublist fewer same
  | fire outstanding completes due fewer same => exact Scheduler.since_of_sublist fewer same
  | spawn => exact .refl _
  | aside scheduler instances tasks => exact scheduler ▸ .refl _

/-! ### Tasks of activations -/

namespace HostState

/-- The task that observes the latest activation of a program on an instance. -/
def task? (s : HostState) (owner : InstanceId) (program : Nat) : Option TaskId :=
  (s.instances[owner]?).bind fun i => (i.storage.get? program).bind Storage.task

variable {owner owner' : InstanceId} {program program' : Nat}

section

variable (h : s.storage? owner program m = some st)

include h

/-- Slots that nothing was written to have no task. -/
theorem task?_eq : s.task? owner program = st.task := by
  obtain ⟨i, hi, rfl⟩ := Option.map_eq_some_iff.mp h
  unfold task?
  rw [hi, Option.bind_some]
  cases i.storage.get? program with
  | none => rfl
  | some stored => rfl

theorem task?_putStorage (new : Storage) :
    (s.putStorage owner program new).task? owner' program' =
      if owner = owner' ∧ program = program' then new.task else s.task? owner' program' := by
  obtain ⟨i, hi, -⟩ := Option.map_eq_some_iff.mp h
  unfold task? putStorage
  rw [Array.getElem?_modify]
  by_cases howner : owner = owner'
  · subst howner
    by_cases hprogram : program = program'
    · subst hprogram
      simp [hi]
    · simp [hi, hprogram, Bindings.get?_insert_of_ne _ _ hprogram]
  · simp [howner]

/-- Writing the slots leaves the task. -/
theorem task?_putSlots (content : List Value) :
    (s.putStorage owner program { st with slots := content }).task? owner' program' =
      s.task? owner' program' := by
  rw [task?_putStorage h]
  split
  case isTrue here =>
    obtain ⟨rfl, rfl⟩ := here
    exact (task?_eq h).symm
  case isFalse => rfl

end

@[simp] theorem task?_putField (name : Name) (v : Value) :
    (s.putField owner name v).task? owner' program = s.task? owner' program := by
  unfold task? putField
  rw [Array.getElem?_modify]
  by_cases howner : owner = owner'
  · rw [if_pos howner, Option.bind_map]
    rfl
  · rw [if_neg howner]

@[simp] theorem task?_spawn :
    ({ s with instances := s.instances.push .empty } : HostState).task? owner program =
      s.task? owner program := by
  unfold task?
  rw [Array.getElem?_push]
  split
  case isTrue hlast =>
    rw [hlast, Array.getElem?_eq_none (Nat.le_refl _)]
    rfl
  case isFalse => rfl

/-- **The queue, the tasks and the instances agree.** -/
structure Coherent (s : HostState) : Prop where
  ordered : s.scheduler.Ordered
  /-- A request completes a task that is there, and becomes due as the task says. -/
  awaited : ∀ {r : Request} {id : TaskId}, r ∈ s.scheduler.pending → r.action = .complete id →
    ∃ t, s.tasks[id]? = some t ∧ t.kind.Awaits r.due
  observed : ∀ {owner : InstanceId} {program : Nat} {id : TaskId}, s.task?
    owner program = some id →
    ∃ t, s.tasks[id]? = some t ∧ t.kind = .activation
  /-- No two activations have the same task. -/
  apart : ∀ {owner owner' : InstanceId} {program program' : Nat} {id : TaskId}, s.task?
    owner program = some id →
    s.task? owner' program' = some id → owner = owner' ∧ program = program'

namespace Coherent

/-- **What has to be looked at where no activation starts**: the order of the queue, and the
requests that are new. -/
theorem of_extends (h : s.Coherent) (ordered : s'.scheduler.Ordered)
    (tasks : s.tasks.Extends s'.tasks)
    (same : ∀ owner program, s'.task? owner program = s.task? owner program)
    (awaited : ∀ {r : Request} {id : TaskId}, r ∈ s'.scheduler.pending → r.action = .complete
      id → r ∈ s.scheduler.pending ∨ ∃ t, s'.tasks[id]? = some t ∧ t.kind.Awaits r.due) :
    s'.Coherent where
  ordered := ordered
  awaited {r id} hr haction := by
    rcases awaited hr haction with hold | hnew
    · obtain ⟨t, ht, hawaits⟩ := h.awaited hold haction
      obtain ⟨t', ht', hkind, -⟩ := tasks id t ht
      exact ⟨t', ht', hkind ▸ hawaits⟩
    · exact hnew
  observed {owner program id} htask := by
    rw [same] at htask
    obtain ⟨t, ht, hactivation⟩ := h.observed htask
    obtain ⟨t', ht', hkind, -⟩ := tasks id t ht
    exact ⟨t', ht', hkind.trans hactivation⟩
  apart htask htask' := by
    rw [same] at htask htask'
    exact h.apart htask htask'

/-- A change that has to do with neither the queue nor the tasks. -/
theorem of_same (h : s.Coherent) (scheduler : s'.scheduler = s.scheduler)
    (tasks : s'.tasks = s.tasks)
    (same : ∀ owner program, s'.task? owner program = s.task? owner program) : s'.Coherent :=
  h.of_extends (scheduler ▸ h.ordered) (tasks ▸ .refl _) same fun hr _ =>
    Or.inl (scheduler ▸ hr)

/-- Giving outcomes to tasks, with the queue losing requests or not. -/
theorem of_sublist (h : s.Coherent) (fewer : s'.scheduler.pending.Sublist s.scheduler.pending)
    (next : s'.scheduler.nextSeq = s.scheduler.nextSeq) (tasks : s.tasks.Extends s'.tasks)
    (same : s'.instances = s.instances) : s'.Coherent :=
  h.of_extends (h.ordered.sublist fewer next) tasks (fun _ _ => by rw [task?, task?, same])
    fun hr _ => Or.inl (fewer.subset hr)

/-- No activation has a task that is yet to be made. -/
theorem fresh (h : s.Coherent) (owner : InstanceId) (program : Nat) :
    s.task? owner program ≠ some s.tasks.size := by
  intro htask
  obtain ⟨t, ht, -⟩ := h.observed htask
  exact absurd (Array.getElem?_eq_some_iff.mp ht).1 (Nat.lt_irrefl _)

/-- **An activation starts** with a task of its own. -/
theorem start {owner : InstanceId} {program : Nat} (h : s.Coherent)
    (seen : s.storage? owner program m = some st) :
    (({ s with tasks := s.tasks.push ⟨.pending, .activation⟩ } : HostState).putStorage
      owner program
      { st with task := some s.tasks.size }).Coherent := by
  have hpushed : Coherent { s with tasks := s.tasks.push ⟨.pending, .activation⟩ } :=
    h.of_extends h.ordered (TaskTable.extends_push _ _) (fun _ _ => rfl) fun hr _ => Or.inl hr
  have hseen : ({ s with tasks := s.tasks.push ⟨.pending, .activation⟩ } : HostState).storage?
    owner program m =
    some st := seen
  have hfresh : ∀ owner' program',
      ({ s with tasks := s.tasks.push ⟨.pending, .activation⟩ } : HostState).task?
        owner' program' ≠
        some s.tasks.size := h.fresh
  refine ⟨hpushed.ordered, hpushed.awaited, fun {owner' program' id} hid => ?_,
    fun {owner₁ owner₂ program₁ program₂ id} h₁ h₂ => ?_⟩
  · rw [task?_putStorage hseen] at hid
    split at hid
    · obtain rfl := Option.some.inj hid
      exact ⟨_, Array.getElem?_push_size, rfl⟩
    · exact hpushed.observed hid
  · rw [task?_putStorage hseen] at h₁ h₂
    split at h₁
    case isTrue here₁ =>
      obtain rfl := Option.some.inj h₁
      split at h₂
      case isTrue here₂ => exact ⟨here₁.1.symm.trans here₂.1, here₁.2.symm.trans here₂.2⟩
      case isFalse => exact absurd h₂ (hfresh _ _)
    case isFalse =>
      split at h₂
      case isTrue =>
        obtain rfl := Option.some.inj h₂
        exact absurd h₁ (hfresh _ _)
      case isFalse => exact hpushed.apart h₁ h₂

end Coherent

end HostState

/-- **An act of code** keeps a state coherent. -/
theorem Act.coherent {site : Site} (h : Act site s s') (hs : s.Coherent) : s'.Coherent := by
  cases h with
  | task kind due fits =>
    refine hs.of_extends (hs.ordered.submit due (.complete s.tasks.size))
      (TaskTable.extends_push _ _) (fun _ _ => rfl) fun {r id} hr haction => ?_
    rcases Scheduler.mem_of_mem_submit hr with hold | rfl
    · exact Or.inl hold
    · obtain rfl := Action.complete.inj haction
      exact Or.inr ⟨_, Array.getElem?_push_size, fits⟩
  | callBack due =>
    refine hs.of_extends (hs.ordered.submit due (.resume site.handle))
      (.refl _) (fun _ _ => rfl) fun {r id} hr haction => ?_
    rcases Scheduler.mem_of_mem_submit hr with hold | rfl
    · exact Or.inl hold
    · cases haction
  | answer | line | closure => exact hs.of_same rfl rfl fun _ _ => rfl
  | field name v => exact hs.of_same rfl rfl fun _ _ => HostState.task?_putField ..
  | slots content seen same =>
    exact hs.of_same rfl rfl fun _ _ => HostState.task?_putSlots seen content
  | start seen => exact hs.start seen
  | orphan nowhere => exact hs.of_sublist (.refl _) rfl (TaskTable.extends_push _ _) rfl
  | outcome state seen observes done =>
    exact hs.of_sublist (.refl _) rfl (TaskTable.extends_complete _ _ _) rfl

/-- **So does a deed.** -/
theorem Deed.coherent (h : Deed asked s s') (hs : s.Coherent) : s'.Coherent := by
  cases h with
  | code act => exact act.coherent hs
  | queue fewer same => exact hs.of_sublist fewer same (.refl _) rfl
  | fire outstanding completes due fewer same =>
    exact hs.of_sublist fewer same (taskCourse_completeScheduled s _).tasks_extend rfl
  | spawn => exact hs.of_same rfl rfl fun _ _ => HostState.task?_spawn
  | aside scheduler instances tasks =>
    exact hs.of_same scheduler tasks fun _ _ => by
      rw [HostState.task?, HostState.task?, instances]

theorem HostState.Coherent.new (config : HostConfig) : (HostState.new config).Coherent where
  ordered := ⟨List.Pairwise.nil, fun _ hr => absurd hr List.not_mem_nil⟩
  awaited hr := absurd hr List.not_mem_nil
  observed htask := by cases htask
  apart htask := by cases htask

/-- **Whatever is done to a new host**, its state is coherent. -/
theorem Host.coherent_handled (names : NameTable) (config : HostConfig)
    (handlings : List Handling) :
    ((Host.new names config).handled handlings).state.Coherent :=
  Host.handled_invariant Deed.coherent (HostState.Coherent.new config) handlings

end Resumable
