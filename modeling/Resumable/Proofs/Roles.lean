import Resumable.Proofs.BlockScope

/-!
# The slots of two machines

A procedure can be lowered to more than one machine: with another judgement of which locals
outlive a suspension, or with other names known beforehand.  The machines have the same
suspension points, but a slot need not stand at the same position in both.  What tells the
slots of one machine apart is their role, so that **slots are compared by their roles**.

## Main definitions

* `Machine.role?`: the role of a slot.
* `SameRole`: slots of two machines with the same role.
* `Matching`: contents of the slots of two machines that agree wherever the roles do.

## Main statements

* `Lowered.points_eq`: the suspension points do not depend on the mode and the names.
* `Lowered.eq_of_role?`: a machine has one slot for each role.
* `Lowered.matching_fresh`: fresh slots agree.
* `Matching.set`, `Matching.set_left`, `Matching.set_right`: writes to slots with the same
  role, or to one that the other machine does not have.
-/

namespace Resumable

open Resumable.Bound (Procedure)
open Machine (Origin Role Slot SlotId)

variable {names names' : NameTable} {p : Procedure} {q : SuspensionPoint}
  {mode mode' : LivenessMode} {m m' : Machine} {a a' : SlotId} {role : Role} {slot : Slot}
  {i : Nat} {x : LocalId}

/-! ### Points -/

theorem SuspensionSite.point_congr {site : SuspensionSite} {index : Nat}
    {q' : SuspensionPoint} (h : site.point names p index = .ok q)
    (h' : site.point names' p index = .ok q') : q = q' := by
  obtain ⟨kind, carriesValue, hkind, -, rfl⟩ := eq_of_point h
  obtain ⟨kind', carriesValue', hkind', -, rfl⟩ := eq_of_point h'
  obtain ⟨rfl, rfl⟩ :=
    (classified_of_classify hkind).1.unique (classified_of_classify hkind').1
  rfl

/-- **The suspension points of a body do not depend on the names.** -/
theorem suspensionPoints_congr {points points' : List SuspensionPoint}
    (h : suspensionPoints names p = .ok points)
    (h' : suspensionPoints names' p = .ok points') : points = points' := by
  obtain ⟨hlength, hpoint⟩ := point_of_points h
  obtain ⟨hlength', hpoint'⟩ := point_of_points h'
  refine List.ext_getElem (hlength.trans hlength'.symm) fun i hi hi' => ?_
  obtain ⟨site, hsite, hq⟩ := hpoint i _ (List.getElem?_eq_getElem hi)
  obtain ⟨site', hsite', hq'⟩ := hpoint' i _ (List.getElem?_eq_getElem hi')
  obtain rfl := Option.some.inj (hsite.symm.trans hsite')
  exact SuspensionSite.point_congr hq hq'

/-! ### Roles -/

/-- The parameter that a slot is for. -/
def Machine.Role.param? : Machine.Role → Option Nat
  | .hoisted (.param i) => some i
  | _ => none

/-- The role of a slot. -/
def Machine.role? (m : Machine) (id : SlotId) : Option Role := (m.slots[id]?).map Slot.role

/-- The type of a variable. -/
def Bound.Procedure.tyOf? (p : Procedure) : Origin → Option Ty
  | .param i => (p.param? i).map Param.ty
  | .localVar x => (p.local? x).map LocalDecl.ty

theorem tyOf?_of_mem {points : List SuspensionPoint} {v : Variable}
    (h : v ∈ hoistedVariables p mode points) : p.tyOf? v.origin = some v.ty := by
  obtain ⟨i, param, hparam, rfl⟩ | ⟨x, decl, hdecl, rfl⟩ := declares_of_mem h
  · exact congrArg (Option.map Param.ty) hparam
  · exact congrArg (Option.map LocalDecl.ty) hdecl

/-- No variable is hoisted twice. -/
theorem nodup_hoistedVariables (p : Procedure) (mode : LivenessMode)
    (points : List SuspensionPoint) :
    ((hoistedVariables p mode points).map Variable.origin).Nodup := by
  have hids : ∀ s : IdSet, s.elems.Nodup := fun s => s.increasing.imp Nat.ne_of_lt
  unfold hoistedVariables
  split
  case h_1 => exact List.nodup_nil
  case h_2 stmts =>
    unfold hoistedParams hoistedLocals
    rw [List.map_append, List.map_filterMap, List.map_filterMap]
    refine List.nodup_append.mpr ⟨(hids _).filterMap ?_, (hids _).filterMap ?_, ?_⟩
    · intro i j origin hi hj
      simp only [Option.mem_def, Option.map_map, Option.map_eq_some_iff] at hi hj
      obtain ⟨_, -, rfl⟩ := hi
      obtain ⟨_, -, heq⟩ := hj
      exact (Origin.param.inj heq).symm
    · intro x y origin hx hy
      simp only [Option.mem_def, Option.map_map, Option.map_eq_some_iff] at hx hy
      obtain ⟨_, -, rfl⟩ := hx
      obtain ⟨_, -, heq⟩ := hy
      exact (Origin.localVar.inj heq).symm
    · intro a ha c hc heq
      obtain ⟨i, -, hi⟩ := List.mem_filterMap.mp ha
      obtain ⟨x, -, hx⟩ := List.mem_filterMap.mp hc
      simp only [Option.map_map, Option.map_eq_some_iff] at hi hx
      obtain ⟨_, -, rfl⟩ := hi
      obtain ⟨_, -, rfl⟩ := hx
      cases heq

namespace Lowered

/-- **Every slot has a role of its own.** -/
theorem nodup_roles (b : Lowered mode names p m) : (m.slots.map Slot.role).Nodup := by
  have hroles : m.slots.map Slot.role = _ := b.laidOut.roles
  rw [hroles]
  have hhoisted : (b.hoisted.map fun h => Role.hoisted h.origin).Nodup := by
    have horigins := nodup_hoistedVariables p mode b.points
    rw [← b.hoisting, List.map_map] at horigins
    have hmap : (b.hoisted.map fun h => Role.hoisted h.origin) =
        (b.hoisted.map (Variable.origin ∘ Hoisted.toVariable)).map Role.hoisted := by
      rw [List.map_map]
      rfl
    rw [hmap]
    exact horigins.map fun _ _ h => Role.hoisted.inj h
  have hawaited : (b.points.flatMap fun q =>
      (List.range q.kind.awaited.length).map (Role.awaited q.index)).Nodup := by
    refine List.nodup_flatMap.mpr ⟨fun q _ => ?_, ?_⟩
    · exact List.nodup_range.map fun _ _ h => (Role.awaited.inj h).2
    · refine List.pairwise_iff_getElem.mpr fun i j hi hj hij => ?_
      have hindex := b.index_eq (List.getElem?_eq_getElem hi)
      have hindex' := b.index_eq (List.getElem?_eq_getElem hj)
      refine List.disjoint_left.mpr fun role hrole hrole' => ?_
      obtain ⟨_, -, rfl⟩ := List.mem_map.mp hrole
      obtain ⟨_, -, heq⟩ := List.mem_map.mp hrole'
      have hsame := (Role.awaited.inj heq).1
      omega
  have hbooks : ([Role.state, Role.status] ++ if p.returnsValue then
    [Role.result] else []).Nodup := by
    cases p.returnsValue <;> decide
  refine List.nodup_append.mpr ⟨List.nodup_append.mpr ⟨hbooks, hhoisted, ?_⟩, hawaited, ?_⟩
  · intro a ha c hc heq
    obtain ⟨_, -, rfl⟩ := List.mem_map.mp hc
    subst heq
    cases hvalue : p.returnsValue <;> simp [hvalue] at ha
  · intro a ha c hc heq
    obtain ⟨q, -, hmem⟩ := List.mem_flatMap.mp hc
    obtain ⟨_, -, rfl⟩ := List.mem_map.mp hmem
    subst heq
    cases hvalue : p.returnsValue <;> simp [hvalue] at ha

/-- **A machine has one slot for each role.** -/
theorem eq_of_role? (b : Lowered mode names p m) (h : m.role? a = some role)
    (h' : m.role? a' = some role) : a = a' := by
  unfold Machine.role? at h h'
  rw [← List.getElem?_map] at h h'
  obtain ⟨hlt, hrole⟩ := List.getElem?_eq_some_iff.mp h
  obtain ⟨hlt', hrole'⟩ := List.getElem?_eq_some_iff.mp h'
  exact (b.nodup_roles.getElem_inj_iff).mp (hrole.trans hrole'.symm)

/-- The role of a slot, from the slot itself. -/
theorem role?_of_exists (h : ∃ slot, m.slots[a]? = some slot ∧ slot.role = role) :
    m.role? a = some role := by
  obtain ⟨slot, hslot, rfl⟩ := h
  exact congrArg (Option.map Slot.role) hslot

variable (b : Lowered mode names p m)

include b

/-- The type of a slot, by its role. -/
theorem ty_eq (b' : Lowered mode' names' p m') (hpoints : b.points = b'.points)
    {slot' : Slot} (h : slot ∈ m.slots) (h' : slot' ∈ m'.slots)
    (hrole : slot.role = slot'.role) : slot.ty = slot'.ty := by
  have hty := b.laidOut.types slot h
  have hty' := b'.laidOut.types slot' h'
  rw [← hrole, ← hpoints] at hty'
  have horigin : ∀ {mode names m} (b : Lowered mode names p m) (v : Hoisted), v ∈ b.hoisted →
      p.tyOf? v.origin = some v.ty := fun b v hv =>
    tyOf?_of_mem (by rw [← b.hoisting]; exact List.mem_map.mpr ⟨v, hv, rfl⟩)
  cases hslot : slot.role with
  | state | status | result =>
    rw [hslot] at hty hty'
    exact Eq.trans hty (Eq.symm hty')
  | hoisted origin =>
    rw [hslot] at hty hty'
    obtain ⟨v, hv, rfl, hvty⟩ := hty
    obtain ⟨v', hv', horigin', hvty'⟩ := hty'
    have hsome := horigin b v hv
    rw [← horigin', horigin b' v' hv'] at hsome
    rw [hvty, hvty', Option.some.inj hsome]
  | awaited point operand =>
    rw [hslot] at hty hty'
    obtain ⟨q, hq, hindex, hsome⟩ := hty
    obtain ⟨q', hq', hindex', hsome'⟩ := hty'
    obtain ⟨i, hi⟩ := List.getElem?_of_mem hq
    obtain ⟨j, hj⟩ := List.getElem?_of_mem hq'
    obtain rfl : i = j := by rw [← b.index_eq hi, ← b.index_eq hj, hindex, hindex']
    obtain rfl : q = q' := Option.some.inj (hi.symm.trans hj)
    exact Option.some.inj (hsome.symm.trans hsome')

/-- **The parameters with slots, in the order of the slots.**  They do not depend on how
locals are kept. -/
theorem filterMap_param? : m.slots.filterMap (fun slot => slot.role.param?) =
      (hoistedParams p (Bound.accessesOf p.stmts)).filterMap fun v =>
        Role.param? (.hoisted v.origin) := by
  have hroles : m.slots.map Slot.role = _ := b.laidOut.roles
  have hmap : m.slots.filterMap (fun slot => slot.role.param?) =
      (m.slots.map Slot.role).filterMap Role.param? := by
    rw [List.filterMap_map]
    rfl
  have hhoisted : b.hoisted.map (fun h => Role.hoisted h.origin) =
      (hoistedParams p (Bound.accessesOf p.stmts)).map (fun v => Role.hoisted v.origin) ++
        (hoistedLocals p mode b.points).map fun v => Role.hoisted v.origin := by
    rw [← List.map_append, ← hoistedVariables_eq b.block, ← b.hoisting, List.map_map]
    rfl
  have hbooks : ([Role.state, Role.status] ++ if p.returnsValue then
    [Role.result] else []).filterMap
      Role.param? = [] := by
    cases p.returnsValue <;> rfl
  have hlocals : ((hoistedLocals p mode b.points).map fun v =>
    Role.hoisted v.origin).filterMap
      Role.param? = [] := by
    refine List.filterMap_eq_nil_iff.mpr fun role hrole => ?_
    obtain ⟨v, hv, rfl⟩ := List.mem_map.mp hrole
    obtain ⟨x, -, decl, -, rfl⟩ := mem_hoistedLocals.mp hv
    rfl
  have hawaited : (b.points.flatMap fun q =>
      (List.range q.kind.awaited.length).map (Role.awaited q.index)).filterMap
        Role.param? = [] := by
    refine List.filterMap_eq_nil_iff.mpr fun role hrole => ?_
    obtain ⟨q, -, hmem⟩ := List.mem_flatMap.mp hrole
    obtain ⟨_, -, rfl⟩ := List.mem_map.mp hmem
    rfl
  rw [hmap, hroles, hhoisted, List.filterMap_append, List.filterMap_append, hbooks,
    List.filterMap_append, hlocals, hawaited, List.nil_append, List.append_nil,
    List.append_nil, List.filterMap_map]
  rfl

/-- A parameter that has a slot is one that the procedure takes. -/
theorem lt_of_param_role (hslot : slot ∈ m.slots) (hrole : slot.role.param? = some i) :
    i < m.params.length := by
  have hmem : i ∈ m.slots.filterMap fun slot => slot.role.param? :=
    List.mem_filterMap.mpr ⟨slot, hslot, hrole⟩
  rw [b.filterMap_param?] at hmem
  obtain ⟨v, hv, horigin⟩ := List.mem_filterMap.mp hmem
  obtain ⟨j, -, hsome⟩ := List.mem_filterMap.mp hv
  obtain ⟨param, hparam, rfl⟩ := Option.map_eq_some_iff.mp hsome
  obtain rfl : j = i := Option.some.inj horigin
  rw [congrArg Machine.params b.machine]
  exact (List.getElem?_eq_some_iff.mp hparam).1

theorem role?_of_mem (hslot : slot ∈ m.slots) : m.role? slot.id = some slot.role := by
  obtain ⟨k, hk⟩ := List.getElem?_of_mem hslot
  have hid : slot.id = k := b.laidOut.numbered k slot hk
  rw [hid]
  exact congrArg (Option.map Slot.role) hk

end Lowered

/-! ### Slots with the same role -/

/-- Slots of two machines with the same role. -/
def SameRole (m m' : Machine) (a a' : SlotId) : Prop :=
  ∃ role, m.role? a = some role ∧ m'.role? a' = some role

theorem SameRole.symm (h : SameRole m m' a a') : SameRole m' m a' a := by
  obtain ⟨role, hrole, hrole'⟩ := h
  exact ⟨role, hrole', hrole⟩

namespace Lowered

section

variable (b : Lowered mode names p m)

include b

section

variable (b' : Lowered mode' names' p m')

include b'

/-- Both machines have the same points. -/
theorem points_eq : b.points = b'.points :=
  suspensionPoints_congr b.found b'.found

/-- State slots have one role. -/
theorem sameRole_state : SameRole m m' m.stateSlot m'.stateSlot :=
  ⟨.state, role?_of_exists b.laidOut.role_state, role?_of_exists b'.laidOut.role_state⟩

/-- Status slots have one role. -/
theorem sameRole_status : SameRole m m' m.statusSlot m'.statusSlot :=
  ⟨.status, role?_of_exists b.laidOut.role_status, role?_of_exists b'.laidOut.role_status⟩

theorem resultSlot_eq : m.resultSlot = m'.resultSlot :=
  b.laidOut.result.trans b'.laidOut.result.symm

theorem sameRole_result {id : SlotId} (h : m.resultSlot = some id) : SameRole m m' id id :=
  ⟨.result, role?_of_exists (b.laidOut.role_result h),
    role?_of_exists (b'.laidOut.role_result ((b.resultSlot_eq b').symm.trans h))⟩

/-- The same parameters have slots. -/
theorem isSome_param?_iff (i : Nat) :
    (m.layout.param? i).isSome ↔ (m'.layout.param? i).isSome := by
  rw [b.laidOut.isSome_param?, b.exists_hoisted, exists_hoisted_param_iff b.block,
    b'.laidOut.isSome_param?, b'.exists_hoisted, exists_hoisted_param_iff b'.block]

theorem sameRole_param (h : m.layout.param? i = some a) (h' : m'.layout.param? i = some a') :
    SameRole m m' a a' :=
  ⟨_, role?_of_exists (b.laidOut.role_param h), role?_of_exists (b'.laidOut.role_param h')⟩

theorem sameRole_local (h : m.layout.local? x = some a) (h' : m'.layout.local? x = some a') :
    SameRole m m' a a' :=
  ⟨_, role?_of_exists (b.laidOut.role_local h), role?_of_exists (b'.laidOut.role_local h')⟩

end

/-- The slot of a local that the other machine does not keep has a role
that it does not have. -/
theorem not_sameRole_of_local (h : m.layout.local? x = some a)
    (hnone : m'.layout.local? x = none) (a' : SlotId) : ¬ SameRole m m' a a' := by
  rintro ⟨role, hrole, hrole'⟩
  obtain rfl : role = .hoisted (.localVar x) :=
    Option.some.inj (hrole.symm.trans (role?_of_exists (b.laidOut.role_local h)))
  obtain ⟨slot, hslot, hrole⟩ := Option.map_eq_some_iff.mp hrole'
  have hsome : (m'.layout.local? x).isSome :=
    isSome_slotWithRole?.mpr (List.mem_map.mpr ⟨slot, List.mem_of_getElem? hslot, hrole⟩)
  rw [hnone] at hsome
  cases hsome

/-- Both machines have a slot for the cancellation token, or none. -/
theorem sameRole_cancel (b' : Lowered mode' names' p m') :
    m.cancelSlot = none ∧ m'.cancelSlot = none ∨
      ∃ a a', m.cancelSlot = some a ∧ m'.cancelSlot = some a' ∧ SameRole m m' a a' := by
  have hcancel : m.cancelSlot = p.cancellation.bind m.layout.param? := b.laidOut.cancel
  have hcancel' : m'.cancelSlot = p.cancellation.bind m'.layout.param? := b'.laidOut.cancel
  rw [hcancel, hcancel']
  cases p.cancellation with
  | none => exact Or.inl ⟨rfl, rfl⟩
  | some i =>
    rw [Option.bind_some, Option.bind_some]
    have hiff := b.isSome_param?_iff b' i
    cases ha : m.layout.param? i with
    | none =>
      rw [ha] at hiff
      exact Or.inl ⟨rfl, Option.not_isSome_iff_eq_none.mp fun hsome => by
        cases hiff.mpr hsome⟩
    | some a =>
      rw [ha] at hiff
      obtain ⟨a', ha'⟩ := Option.isSome_iff_exists.mp (hiff.mp rfl)
      exact Or.inr ⟨a, a', rfl, ha', b.sameRole_param b' ha ha'⟩

theorem role?_awaits (hq : b.points[i]? = some q) {k : Nat}
    (ha : (m.layout.awaits i)[k]? = some a) : m.role? a = some (.awaited i k) := by
  have hroles : (m.layout.awaits i).map m.role? = _ :=
    b.laidOut.map_role_awaits (fun _ _ hk => b.index_eq hk) hq
  have hk := congrArg (fun l => l[k]?) hroles
  simp only [List.getElem?_map, ha, Option.map_some] at hk
  obtain ⟨j, hj, hrole⟩ := Option.map_eq_some_iff.mp hk.symm
  obtain ⟨_, hjk⟩ := List.getElem?_eq_some_iff.mp hj
  rw [← hrole, ← hjk, List.getElem_range]

/-- The tasks awaited at a point have slots with the same roles, in order. -/
theorem sameRole_awaits (b' : Lowered mode' names' p m') (hq : b.points[i]? = some q) :
    List.Forall₂ (SameRole m m') (m.layout.awaits i) (m'.layout.awaits i) := by
  have hq' : b'.points[i]? = some q := b.points_eq b' ▸ hq
  refine List.forall₂_iff_get.mpr ⟨(b.length_awaits hq).trans (b'.length_awaits hq').symm,
    fun k hk hk' => ⟨.awaited i k, ?_, ?_⟩⟩
  · exact b.role?_awaits hq (List.getElem?_eq_getElem hk)
  · exact b'.role?_awaits hq' (List.getElem?_eq_getElem hk')

end

end Lowered

/-! ### Matching contents -/

/-- **Contents of the slots of two machines that agree** wherever the roles do. -/
structure Matching (m m' : Machine) (st st' : Storage) : Prop where
  task : st.task = st'.task
  slots : ∀ a a', SameRole m m' a a' → st.slots[a]? = st'.slots[a']?

namespace Matching

variable {st st' : Storage}

/-- Fresh slots agree. -/
theorem fresh (b : Lowered mode names p m) (b' : Lowered mode' names' p m') :
    Matching m m' (.fresh m) (.fresh m') := by
  refine ⟨rfl, ?_⟩
  rintro a a' ⟨role, hrole, hrole'⟩
  obtain ⟨slot, hslot, rfl⟩ := Option.map_eq_some_iff.mp hrole
  obtain ⟨slot', hslot', hsame⟩ := Option.map_eq_some_iff.mp hrole'
  show (m.slots.map _)[a]? = (m'.slots.map _)[a']?
  rw [List.getElem?_map, List.getElem?_map, hslot, hslot', Option.map_some, Option.map_some,
    b.ty_eq b' (b.points_eq b') (List.mem_of_getElem? hslot)
      (List.mem_of_getElem? hslot') hsame.symm]

/-- A write to slots with the same role. -/
theorem set (h : Matching m m' st st') (b : Lowered mode names p m)
    (b' : Lowered mode' names' p m') (hroles : SameRole m m' a a') (v : Value) :
    Matching m m' { st with slots := st.slots.set a v }
      { st' with slots := st'.slots.set a' v } := by
  refine ⟨h.task, fun c c' hc => ?_⟩
  have hiff : a = c ↔ a' = c' := by
    obtain ⟨role, hrole, hrole'⟩ := hroles
    obtain ⟨other, hother, hother'⟩ := hc
    constructor
    · rintro rfl
      obtain rfl := Option.some.inj (hrole.symm.trans hother)
      exact b'.eq_of_role? hrole' hother'
    · rintro rfl
      obtain rfl := Option.some.inj (hrole'.symm.trans hother')
      exact b.eq_of_role? hrole hother
  have hlength : a < st.slots.length ↔ a' < st'.slots.length := by
    rw [← isSome_getElem? st.slots a, ← isSome_getElem? st'.slots a', h.slots a a' hroles]
  simp only [List.getElem?_set, hiff, hlength, h.slots c c' hc]

/-- A write to a slot of the first machine whose role the other does not have. -/
theorem set_left (h : Matching m m' st st') (hnone : ∀ a', ¬ SameRole m m' a a') (v : Value) :
    Matching m m' { st with slots := st.slots.set a v } st' := by
  refine ⟨h.task, fun c c' hc => ?_⟩
  have hne : a ≠ c := by
    rintro rfl
    exact hnone c' hc
  exact (List.getElem?_set_ne hne).trans (h.slots c c' hc)

/-- A write to a slot of the second machine whose role the other does not have. -/
theorem set_right (h : Matching m m' st st') (hnone : ∀ a, ¬ SameRole m m' a a')
    (v : Value) : Matching m m' st { st' with slots := st'.slots.set a' v } := by
  refine ⟨h.task, fun c c' hc => ?_⟩
  have hne : a' ≠ c' := by
    rintro rfl
    exact hnone c hc
  exact (h.slots c c' hc).trans (List.getElem?_set_ne hne).symm

end Matching

end Resumable
