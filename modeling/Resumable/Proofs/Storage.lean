import Resumable.Proofs.Ending

/-!
# Slots as code sees them

Slots of a program on an instance come into being with their first write.  The view
`storage?` hides this: it gives the slots that code of the program sees, the defaults where
nothing was written.

## Main definitions

* `HostState.storage?`, `HostState.slot?`: the slots of a program on an
  instance, and one of them.
* `HostState.putStorage`: the state with the slots of a program on an instance replaced.

## Main statements

* `storage?_putStorage`: what is seen after a replacement, at every program and instance.
* `returns_readSlot`, `returns_writeSlot`, `returns_taskSlots`, `returns_finish`: what access
  to slots does, in terms of the view.
-/

namespace Resumable

open Machine (SlotId TaskStatus)

variable {s s' : HostState} {owner : InstanceId} {program k : Nat} {m : Machine}
  {st : Storage} {slot : SlotId} {v result : Value} {f : Storage → Storage} {u : Unit}
  {r : Except Halt Unit} {site : Site} {value : Option Value} {status : TaskStatus}

namespace HostState

/-- The slots of a program on an instance, as its code sees them. -/
def storage? (s : HostState) (owner : InstanceId) (program : Nat)
    (m : Machine) : Option Storage :=
  (s.instances[owner]?).map fun i => (i.storage.get? program).getD (.fresh m)

/-- The content of a slot of a program on an instance. -/
def slot? (s : HostState) (owner : InstanceId) (program : Nat) (m : Machine)
    (slot : SlotId) : Option Value :=
  (s.storage? owner program m).bind fun st => st.slots[slot]?

/-- The fields of an instance. -/
def field? (s : HostState) (owner : InstanceId) (name : Name) : Option Value :=
  (s.instances[owner]?).bind fun i => i.fields.get? name

/-- The state with the slots of a program on an instance replaced. -/
def putStorage (s : HostState) (owner : InstanceId) (program : Nat)
    (st : Storage) : HostState :=
  { s with instances := s.instances.modify owner fun i =>
      { i with storage := i.storage.insert program st } }

/-- The state with a field of an instance written. -/
def putField (s : HostState) (owner : InstanceId) (name : Name) (value : Value) : HostState :=
  { s with instances := s.instances.modify owner fun i =>
      { i with fields := i.fields.insert name value } }

variable {owner' : InstanceId} {program' : Nat}

theorem slot?_eq (h : s.storage? owner program m = some st) (slot : SlotId) :
    s.slot? owner program m slot = st.slots[slot]? := by
  unfold slot?
  rw [h, Option.bind_some]

/-- A slot that is seen belongs to slots that are seen. -/
theorem exists_storage_of_slot? (h : s.slot? owner program m slot = some v) :
    ∃ st, s.storage? owner program m = some st ∧ st.slots[slot]? = some v := by
  unfold slot? at h
  exact Option.bind_eq_some_iff.mp h

/-- **What is seen after a replacement**: the new slots where they were put, and elsewhere
what was seen before. -/
theorem storage?_putStorage (m : Machine) :
    (s.putStorage owner program st).storage? owner' program' m =
      if owner = owner' ∧ program = program' then (s.instances[owner]?).map fun _ => st
      else s.storage? owner' program' m := by
  unfold putStorage storage?
  rw [Array.getElem?_modify]
  by_cases ho : owner = owner'
  · subst ho
    by_cases hp : program = program'
    · subst hp
      simp [Function.comp_def]
    · simp [hp, Bindings.get?_insert_of_ne _ _ hp, Function.comp_def]
  · simp [ho]

/-- A second replacement makes up for the first. -/
theorem putStorage_putStorage (st' : Storage) :
    (s.putStorage owner program st).putStorage owner program st' =
      s.putStorage owner program st' := by
  have hinsert : ∀ (l : List (Nat × Storage)),
      Bindings.insertIn program st' (Bindings.insertIn program st l) =
        Bindings.insertIn program st' l := by
    intro l
    induction l with
    | nil => simp [Bindings.insertIn]
    | cons a rest ih => by_cases ha : a.1 = program <;> simp [Bindings.insertIn, ha, ih]
  unfold putStorage
  congr 1
  refine Array.ext_getElem? fun k => ?_
  rw [Array.getElem?_modify, Array.getElem?_modify, Array.getElem?_modify]
  by_cases hk : owner = k
  · simp only [hk, if_true, Option.map_map]
    refine congrArg (fun f => (s.instances[k]?).map f) (funext fun i => ?_)
    simp [Bindings.insert, hinsert]
  · simp only [hk, if_false]

theorem storage?_putStorage_self (h : s.storage? owner program m = some st) (new : Storage)
    (m' : Machine) :
    (s.putStorage owner program new).storage? owner program m' = some new := by
  obtain ⟨i, hi, -⟩ := Option.map_eq_some_iff.mp h
  rw [storage?_putStorage, if_pos ⟨rfl, rfl⟩, hi, Option.map_some]

/-- Storages of different programs are apart. -/
theorem storage?_putStorage_of_ne (h : ¬ (owner = owner' ∧ program = program'))
    (m' : Machine) :
    (s.putStorage owner program st).storage? owner' program' m' =
      s.storage? owner' program' m' := by
  rw [storage?_putStorage, if_neg h]

/-- Storage and fields are apart. -/
@[simp] theorem field?_putStorage (name : Name) :
    (s.putStorage owner program st).field? owner' name = s.field? owner' name := by
  unfold putStorage field?
  rw [Array.getElem?_modify]
  by_cases ho : owner = owner'
  · rw [if_pos ho, Option.bind_map]
    rfl
  · rw [if_neg ho]

/-- Fields and storage are apart. -/
@[simp] theorem storage?_putField (name : Name) (v : Value) (m : Machine) :
    (s.putField owner name v).storage? owner' program' m = s.storage? owner' program' m := by
  unfold putField storage?
  rw [Array.getElem?_modify]
  by_cases ho : owner = owner' <;> simp [ho, Function.comp_def]

/-- A field that was put is read back; others stay. -/
theorem field?_putField (name name' : Name) (v : Value) :
    (s.putField owner name v).field? owner' name' =
      if owner = owner' ∧ name = name' then (s.instances[owner]?).map fun _ =>
        v else s.field? owner' name' := by
  unfold putField field?
  rw [Array.getElem?_modify]
  by_cases ho : owner = owner'
  · subst ho
    by_cases hn : name = name'
    · subst hn
      cases hi : s.instances[owner]? <;> simp
    · cases hi : s.instances[owner]? <;> simp [hn, Bindings.get?_insert_of_ne _ _ hn]
  · simp [ho]

end HostState

/-- Storage depends on the instances only. -/
theorem HostState.storage?_congr (h : s'.instances = s.instances) (owner : InstanceId)
    (k : Nat) (m : Machine) : s'.storage? owner k m = s.storage? owner k m := by
  unfold storage?
  rw [h]

/-- On a new instance nothing was written. -/
theorem HostState.storage?_spawn
    (h : ({ s with instances := s.instances.push .empty } : HostState).storage? owner k
      m = some st) : s.storage? owner k m = some st ∨ st = .fresh m := by
  unfold storage? at h ⊢
  rw [Array.getElem?_push] at h
  split at h
  · exact Or.inr (Option.some.inj h).symm
  · exact Or.inl h

section

variable {α : Type} {xs : Array α} {a new : α}

/-- What there is after a push was there before, or is new. -/
theorem getElem?_push_cases (h : (xs.push new)[k]? = some a) :
    xs[k]? = some a ∨ xs[k]? = none ∧ a = new := by
  rw [Array.getElem?_push] at h
  split at h
  case isTrue hlast =>
    refine Or.inr ⟨?_, (Option.some.inj h).symm⟩
    rw [hlast]
    exact Array.getElem?_size
  case isFalse => exact Or.inl h

theorem getElem?_of_push_eq_none (h : (xs.push new)[k]? = none) : xs[k]? = none := by
  have hle := Array.getElem?_eq_none_iff.mp h
  rw [Array.size_push] at hle
  exact Array.getElem?_eq_none_iff.mpr (by omega)

/-- What an array holds stays when it grows. -/
theorem getElem?_push_of_some (h : xs[k]? = some a) (new : α) :
    (xs.push new)[k]? = some a := by
  rw [Array.getElem?_push_lt (Array.getElem?_eq_some_iff.mp h).1]
  exact (Array.getElem?_eq_getElem _).symm.trans h

end

namespace Run

/-- Looking up an instance returns it. -/
theorem returns_theInstance {i : Instance} :
    Returns (theInstance owner) s i s' ↔ s.instances[owner]? = some i ∧ s' = s :=
  ends_get_bind.trans returns_require

/-- Looking up a storage returns it. -/
theorem returns_storage :
    Returns (storage owner program m) s st s' ↔
      s.storage? owner program m = some st ∧ s' = s := by
  unfold storage HostState.storage?
  simp only [returns_bind_pure, returns_theInstance, Option.map_eq_some_iff]
  constructor
  · rintro ⟨i, ⟨hi, rfl⟩, rfl⟩
    exact ⟨⟨i, hi, rfl⟩, rfl⟩
  · rintro ⟨⟨i, hi, rfl⟩, rfl⟩
    exact ⟨i, ⟨hi, rfl⟩, rfl⟩

/-- Changing an instance needs it to be there. -/
theorem returns_modifyInstance {f : Instance → Instance} :
    Returns (modifyInstance owner f) s u s' ↔
      (s.instances[owner]?).isSome ∧
        s' = { s with instances := s.instances.modify owner f } := by
  unfold modifyInstance
  rw [returns_bind]
  constructor
  · rintro ⟨i, mid, hi, hmod⟩
    obtain ⟨hi, rfl⟩ := returns_theInstance.mp hi
    exact ⟨Option.isSome_of_mem hi, returns_modify.mp hmod⟩
  · rintro ⟨hi, rfl⟩
    obtain ⟨i, hi⟩ := Option.isSome_iff_exists.mp hi
    exact ⟨i, s, returns_theInstance.mpr ⟨hi, rfl⟩, returns_modify.mpr rfl⟩

/-- Changing a storage needs one to be there. -/
theorem returns_modifyStorage : Returns (modifyStorage owner program m f) s u s' ↔
      ∃ st, s.storage? owner program m = some st ∧
        s' = s.putStorage owner program (f st) := by
  unfold modifyStorage
  rw [returns_bind]
  constructor
  · rintro ⟨st, mid, hst, hmod⟩
    obtain ⟨hst, rfl⟩ := returns_storage.mp hst
    exact ⟨st, hst, (returns_modifyInstance.mp hmod).2⟩
  · rintro ⟨st, hst, rfl⟩
    obtain ⟨i, hi, -⟩ := Option.map_eq_some_iff.mp hst
    exact ⟨st, s, returns_storage.mpr ⟨hst, rfl⟩,
      returns_modifyInstance.mpr ⟨Option.isSome_of_mem hi, rfl⟩⟩

/-- However replacing the slots ends, it has replaced them or done nothing. -/
theorem ends_modifyStorage (h : Ends (modifyStorage owner program m f) s r s') :
    s' = s ∨ ∃ st, s.storage? owner program m = some st ∧
    s' = s.putStorage owner program (f st) := by
  cases hst : s.storage? owner program m with
  | some st =>
    have hret := h.unique ((returns_modifyStorage (u := ())).mpr ⟨st, hst, rfl⟩)
    exact Or.inr ⟨st, rfl, hret.2⟩
  | none =>
    rcases ends_bind.mp h with ⟨_, hread, -⟩ | ⟨st, mid, hread, -⟩
    · exact Or.inl (silent_storage _ _ _ hread)
    · rw [(returns_storage.mp hread).1] at hst
      cases hst

end Run

namespace Site

/-- The slots that code at the site sees. -/
def slotsIn (site : Site) (s : HostState) : Option Storage :=
  s.storage? site.owner site.index site.machine

/-- The content of a slot that code at the site sees. -/
def slotIn (site : Site) (s : HostState) (slot : SlotId) : Option Value :=
  s.slot? site.owner site.index site.machine slot

/-- The state with the slots that code at the site sees replaced. -/
def put (site : Site) (s : HostState) (st : Storage) : HostState :=
  s.putStorage site.owner site.index st

/-- A slot read through the storage seen at the site. -/
theorem slotIn_eq (h : site.slotsIn s = some st) (slot : SlotId) :
    site.slotIn s slot = st.slots[slot]? := HostState.slot?_eq h slot

/-- The storage that was put is the one seen. -/
theorem slotsIn_put (h : site.slotsIn s = some st) (new : Storage) :
    site.slotsIn (site.put s new) = some new := HostState.storage?_putStorage_self h new _

/-- What is stored after a write was written at the site, or was stored elsewhere before. -/
theorem storage?_put_cases (seen : site.slotsIn s = some st) {new st' : Storage}
    (hst : (site.put s new).storage? owner k m = some st') :
    (site.owner = owner ∧ site.index = k) ∧ new = st' ∨
      ¬ (site.owner = owner ∧ site.index = k) ∧ s.storage? owner k m = some st' := by
  by_cases heq : site.owner = owner ∧ site.index = k
  · obtain ⟨rfl, rfl⟩ := heq
    exact Or.inl ⟨⟨rfl, rfl⟩, Option.some.inj
      ((HostState.storage?_putStorage_self seen new _).symm.trans hst)⟩
  · rw [put, HostState.storage?_putStorage_of_ne heq] at hst
    exact Or.inr ⟨heq, hst⟩

/-- The storage that the site reads. -/
theorem returns_storage : Returns site.storage s st s' ↔ site.slotsIn s = some st ∧ s' = s :=
  Run.returns_storage

/-- Reading a slot returns what is in it. -/
theorem returns_readSlot :
    Returns (site.readSlot slot) s v s' ↔ site.slotIn s slot = some v ∧ s' = s := by
  unfold readSlot
  rw [returns_bind]
  constructor
  · rintro ⟨st, mid, hst, hreq⟩
    obtain ⟨hst, rfl⟩ := returns_storage.mp hst
    obtain ⟨hv, rfl⟩ := Run.returns_require.mp hreq
    rw [slotIn_eq hst]
    exact ⟨hv, rfl⟩
  · rintro ⟨hv, rfl⟩
    obtain ⟨st, hst, hv⟩ := HostState.exists_storage_of_slot? hv
    exact ⟨st, _, returns_storage.mpr ⟨hst, rfl⟩, Run.returns_require.mpr ⟨hv, rfl⟩⟩

/-- Reading a slot touches nothing. -/
theorem silent_readSlot (slot : SlotId) : Silent (site.readSlot slot) :=
  silent_bind (Run.silent_storage _ _ _) fun _ => Run.silent_require _ _

/-- **Writing a slot** replaces its content in the slots that are seen, where it exists. -/
theorem returns_writeSlot : Returns (site.writeSlot slot v) s u s' ↔
      ∃ st, site.slotsIn s = some st ∧ slot < st.slots.length ∧
        s' = site.put s { st with slots := st.slots.set slot v } := by
  unfold writeSlot
  rw [returns_bind]
  constructor
  · rintro ⟨st, mid, hst, hw⟩
    obtain ⟨hst, rfl⟩ := returns_storage.mp hst
    rcases returns_ite.mp hw with ⟨hlt, hmod⟩ | ⟨-, hfail⟩
    · obtain ⟨st', hst', rfl⟩ := Run.returns_modifyStorage.mp hmod
      obtain rfl : st = st' := Option.some.inj (hst.symm.trans hst')
      exact ⟨st, hst, hlt, rfl⟩
    · exact (Run.not_returns_fail hfail).elim
  · rintro ⟨st, hst, hlt, rfl⟩
    refine ⟨st, s, returns_storage.mpr ⟨hst, rfl⟩, returns_ite.mpr (Or.inl ⟨hlt, ?_⟩)⟩
    exact Run.returns_modifyStorage.mpr ⟨st, hst, rfl⟩

/-- However writing a slot ends, it has replaced its content or done nothing. -/
theorem ends_writeSlot (h : Ends (site.writeSlot slot v) s r s') :
    s' = s ∨ ∃ st, site.slotsIn s = some st ∧
    s' = site.put s { st with slots := st.slots.set slot v } := by
  unfold writeSlot at h
  rcases ends_bind.mp h with ⟨_, hst, -⟩ | ⟨st, mid, hst, hw⟩
  · exact Or.inl (Run.silent_storage _ _ _ hst)
  · obtain ⟨-, rfl⟩ := returns_storage.mp hst
    by_cases hlt : slot < st.slots.length
    · rw [if_pos hlt] at hw
      exact Run.ends_modifyStorage hw
    · rw [if_neg hlt] at hw
      exact Or.inl (Run.silent_fail _ hw)

/-- **The tasks in slots** are read off the slots one by one. -/
theorem returns_taskSlots {slots : List SlotId} {ids : List TaskId} :
    Returns (site.taskSlots slots) s ids s' ↔
      slots.map (site.slotIn s) = ids.map (fun id => some (.task id)) ∧ s' = s := by
  induction slots generalizing ids s s' with
  | nil =>
    unfold taskSlots
    rw [returns_pure, List.map_nil, eq_comm (a := []), List.map_eq_nil_iff]
  | cons slot rest ih =>
    unfold taskSlots
    simp only [returns_bind, returns_readSlot, Run.returns_expectTask, ih, returns_pure]
    constructor
    · rintro ⟨v, _, ⟨hv, rfl⟩, id, _, ⟨rfl, rfl⟩, others, _, ⟨hothers, rfl⟩, rfl, rfl⟩
      exact ⟨by rw [List.map_cons, List.map_cons, hv, hothers], rfl⟩
    · rintro ⟨heq, rfl⟩
      cases ids with
      | nil => cases heq
      | cons id others =>
        rw [List.map_cons, List.map_cons] at heq
        obtain ⟨hv, hothers⟩ := List.cons.inj heq
        exact ⟨_, _, ⟨hv, rfl⟩, id, _, ⟨rfl, rfl⟩, others, _, ⟨hothers, rfl⟩, rfl, rfl⟩

/-- Reading the tasks waited for touches nothing. -/
theorem silent_taskSlots (slots : List SlotId) : Silent (site.taskSlots slots) := by
  induction slots with
  | nil => exact silent_pure _
  | cons slot rest ih =>
    unfold taskSlots
    exact silent_bind (silent_readSlot slot) fun v =>
      silent_bind (Run.silent_require _ _) fun id => silent_bind ih fun ids => silent_pure _

/-- A site knows one dispatch procedure, its own. -/
theorem returns_ownDispatch {target : Name} {index : ProcIndex} :
    Returns (site.ownDispatch target) s index s' ↔
      target = site.machine.dispatch.name ∧
      index = procIndex site.index .dispatch ∧ s' = s := by
  unfold ownDispatch
  rw [returns_ite, returns_pure]
  constructor
  · rintro (⟨rfl, rfl, rfl⟩ | ⟨-, hfail⟩)
    · exact ⟨rfl, rfl, rfl⟩
    · exact (Run.not_returns_fail hfail).elim
  · rintro ⟨rfl, rfl, rfl⟩
    exact Or.inl ⟨rfl, rfl, rfl⟩

/-! ### Finishing -/

/-- **The value an activation completes with** is the one given, which the result slot then
holds as well, or else what the result slot holds. -/
theorem returns_resultOf : Returns (resultOf site value) s result s' ↔
      match site.machine.resultSlot, value with
      | some slot, some v => result = v ∧ Returns (site.writeSlot slot v) s () s'
      | some slot, none => site.slotIn s slot = some result ∧ s' = s
      | none, v => result = v.getD .unit ∧ s' = s := by
  unfold resultOf
  cases site.machine.resultSlot with
  | none => exact returns_pure
  | some slot =>
    cases value with
    | none => exact returns_readSlot
    | some v =>
      simp only [returns_bind, returns_pure]
      constructor
      · rintro ⟨u, mid, hw, rfl, rfl⟩
        exact ⟨rfl, hw⟩
      · rintro ⟨rfl, hw⟩
        exact ⟨(), s', hw, rfl, rfl⟩

end Site

/-- The state in which an activation with the given task has ended. -/
def HostState.conclude (s : HostState) (task : Option TaskId) (status : TaskStatus)
    (result : Value) : HostState :=
  match task, status with
  | some id, .succeeded => { s with tasks := s.tasks.complete id (.succeeded result) }
  | some id, .cancelled => { s with tasks := s.tasks.complete id .cancelled }
  | _, _ => s

section

variable (s : HostState) (task : Option TaskId) (status : TaskStatus) (result : Value)

@[simp] theorem HostState.conclude_instances :
    (s.conclude task status result).instances = s.instances := by
  cases task <;> cases status <;> rfl

@[simp] theorem HostState.conclude_scheduler :
    (s.conclude task status result).scheduler = s.scheduler := by
  cases task <;> cases status <;> rfl

@[simp] theorem HostState.conclude_closures :
    (s.conclude task status result).closures = s.closures := by
  cases task <;> cases status <;> rfl

end

theorem Site.slotsIn_conclude (s : HostState) (task : Option TaskId) (status : TaskStatus)
    (result : Value) : site.slotsIn (s.conclude task status result) = site.slotsIn s := by
  unfold Site.slotsIn HostState.storage?
  rw [HostState.conclude_instances]

/-- The first outcome of a task stays. -/
theorem TaskTable.getElem?_complete {tasks : TaskTable} {id : TaskId} {t : Task}
    (h : tasks[id]? = some t) (state : TaskState) :
    (tasks.complete id state)[id]? = some
      (if t.state.isDone then t else { t with state }) := by
  unfold TaskTable.complete
  rw [Array.getElem?_modify, if_pos rfl, h]
  rfl

/-- **Finishing** takes the result, writes the status and then gives the task its outcome. -/
theorem Site.returns_finish : Returns (finish site status value) s u s' ↔
      ∃ result mid st, Returns (resultOf site value) s result mid ∧
        site.slotsIn mid = some st ∧
        site.machine.statusSlot < st.slots.length ∧ s' = (site.put mid { st with
          slots := st.slots.set site.machine.statusSlot (.int status.code) }).conclude
            st.task status
            result := by
  unfold finish
  simp only [returns_bind, Site.returns_writeSlot, Site.returns_storage]
  constructor
  · rintro ⟨result, mid, hres, _, _, ⟨st, hst, hlt, rfl⟩, st', _, ⟨hst', rfl⟩, hend⟩
    rw [Site.slotsIn_put hst, Option.some.injEq] at hst'
    subst hst'
    refine ⟨result, mid, st, hres, hst, hlt, ?_⟩
    unfold HostState.conclude
    cases htask : st.task with
    | none =>
      rw [htask] at hend
      exact (returns_pure.mp hend).2
    | some id =>
      rw [htask] at hend
      cases status with
      | running => exact (returns_pure.mp hend).2
      | succeeded | cancelled => exact returns_modify.mp hend
  · rintro ⟨result, mid, st, hres, hst, hlt, rfl⟩
    refine ⟨result, mid, hres, (), _, ⟨st, hst, hlt, rfl⟩, _, _,
      ⟨Site.slotsIn_put hst _, rfl⟩, ?_⟩
    unfold HostState.conclude
    cases htask : st.task with
    | none => exact returns_pure.mpr ⟨rfl, rfl⟩
    | some id =>
      cases status with
      | running => exact returns_pure.mpr ⟨rfl, rfl⟩
      | succeeded | cancelled => exact returns_modify.mpr rfl

/-- The slots with a value in the result slot, where there are both. -/
def Site.withResult (site : Site) (value : Option Value) (slots : List Value) : List Value :=
  match site.machine.resultSlot, value with
  | some slot, some v => slots.set slot v
  | _, _ => slots

/-- The slots after an activation has been finished with a status and possibly a value. -/
def Site.finishedSlots (site : Site) (status : TaskStatus) (value : Option Value)
    (st : Storage) : Storage :=
  { st with
    slots := (site.withResult value st.slots).set site.machine.statusSlot (.int status.code) }

/-- The value an activation completes with, where the value given may be none. -/
def Site.Completes (site : Site) (value : Option Value) (st : Storage)
    (result : Value) : Prop :=
  match value with
  | some v => result = v
  | none =>
    match site.machine.resultSlot with
    | some slot => st.slots[slot]? = some result
    | none => result = .unit

/-- A result does not change how many slots there are. -/
theorem Site.length_withResult (slots : List Value) :
    (site.withResult value slots).length = slots.length := by
  unfold Site.withResult
  split
  · exact List.length_set
  · rfl

/-- Finishing writes the status. -/
theorem Site.finishedSlots_status (h : site.machine.statusSlot < st.slots.length) :
    (site.finishedSlots status value st).slots[site.machine.statusSlot]? =
      some (.int status.code) := by
  refine List.getElem?_set_self ?_
  rw [Site.length_withResult]
  exact h

/-- The result slot holds what the activation completes with. -/
theorem Site.finishedSlots_result (h : site.Completes value st result)
    (hslot : site.machine.resultSlot = some slot) (hne : slot ≠ site.machine.statusSlot)
    (hlt : slot < st.slots.length) :
    (site.finishedSlots status value st).slots[slot]? = some result := by
  refine (List.getElem?_set_ne hne.symm).trans ?_
  unfold Site.Completes at h
  unfold Site.withResult
  rw [hslot] at h ⊢
  cases value with
  | none => exact h
  | some v =>
    obtain rfl := h
    exact List.getElem?_set_self hlt

theorem Site.finishedSlots_other (hstatus : slot ≠ site.machine.statusSlot)
    (hresult : site.machine.resultSlot ≠ some slot) :
    (site.finishedSlots status value st).slots[slot]? = st.slots[slot]? := by
  refine (List.getElem?_set_ne hstatus.symm).trans ?_
  unfold Site.withResult
  split
  case h_1 _ _ _ v hslot =>
    refine List.getElem?_set_ne ?_
    rintro rfl
    exact hresult hslot
  case h_2 => rfl

/-- **Finishing changes the slots and the task, and nothing else.** -/
theorem Site.finish_eq (h : Returns (finish site status value) s u s') :
    ∃ result st, site.slotsIn s = some st ∧ site.Completes value st result ∧
      site.machine.statusSlot < st.slots.length ∧
      (∀ slot, site.machine.resultSlot = some slot → slot < st.slots.length) ∧
      s' = (site.put s (site.finishedSlots status value st)).conclude
        st.task status result := by
  obtain ⟨result, mid, st, hresult, hst, hlt, rfl⟩ := Site.returns_finish.mp h
  rw [Site.returns_resultOf] at hresult
  unfold Site.finishedSlots Site.withResult Site.Completes
  cases hslot : site.machine.resultSlot with
  | none =>
    rw [hslot] at hresult
    obtain ⟨rfl, rfl⟩ := hresult
    refine ⟨_, st, hst, ?_, hlt, fun _ heq => (by cases heq), rfl⟩
    cases value <;> rfl
  | some slot =>
    rw [hslot] at hresult
    cases value with
    | none =>
      obtain ⟨hread, rfl⟩ := hresult
      rw [Site.slotIn_eq hst] at hread
      refine ⟨result, st, hst, hread, hlt, fun _ heq => ?_, rfl⟩
      obtain rfl := Option.some.inj heq
      exact (List.getElem?_eq_some_iff.mp hread).1
    | some v =>
      obtain ⟨rfl, hwrite⟩ := hresult
      obtain ⟨st₀, hst₀, hlt₀, rfl⟩ := Site.returns_writeSlot.mp hwrite
      rw [Site.slotsIn_put hst₀, Option.some.injEq] at hst
      subst hst
      rw [List.length_set] at hlt
      refine ⟨result, st₀, hst₀, rfl, hlt, fun _ heq => ?_, ?_⟩
      · obtain rfl := Option.some.inj heq
        exact hlt₀
      · unfold Site.put
        rw [HostState.putStorage_putStorage]

/-- **Starting an activation** makes its task and records it beside the slots. -/
theorem Site.returns_startActivation :
    Returns (startActivation site) s u s' ↔ ∃ st, site.slotsIn s = some st ∧
      s' = site.put { s with tasks := s.tasks.push ⟨.pending, .activation⟩ }
        { st with task := some s.tasks.size } := by
  have hnew : Returns (Run.newTask .activation) s s.tasks.size
      { s with tasks := s.tasks.push ⟨.pending, .activation⟩ } := rfl
  unfold startActivation
  refine Iff.trans hnew.ends_bind ?_
  exact Run.returns_modifyStorage

end Resumable
