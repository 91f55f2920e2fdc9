import Resumable.Proofs.Body

/-!
# Slots and their roles

A slot stands at the position that is its number, and its role says what it is for.  So two
slots with different roles are different slots, and what is kept in one is not disturbed by
writing the other.

## Main definitions

* `Numbered`: slots that stand at the position of their number.
* `LaidOut`: what a layout consists of.

## Main statements

* `LaidOut.role_of_local?`, `LaidOut.isSome_local?`: which slots are those of hoisted locals.
* `LaidOut.map_role_awaits`: a point has one slot for each task it awaits, in order.
-/

namespace Resumable

open Resumable.Bound (Expr Procedure)
open Machine (Role Slot SlotId)

variable {slot id : SlotId} {slots : List Slot} {role : Role} {l : SlotLayout} {point i : Nat}
  {p : Procedure} {points : List SuspensionPoint} {namer namer' : SlotNamer}
  {mode : LivenessMode} {vars : List Variable} {hoisted : List Hoisted} {spec : SlotSpec}
  {q : SuspensionPoint}

/-- Slots that stand at the position of their number. -/
def Numbered (slots : List Slot) : Prop :=
  ∀ k (slot : Slot), slots[k]? = some slot → slot.id = k

theorem getElem?_numberSlots (specs : List SlotSpec) (k : Nat) : (numberSlots specs)[k]? =
      (specs[k]?).map fun spec => ⟨k, spec.name, spec.ty, spec.role⟩ := List.getElem?_mapIdx

theorem numbered_numberSlots (specs : List SlotSpec) : Numbered (numberSlots specs) := by
  intro k slot h
  rw [getElem?_numberSlots] at h
  obtain ⟨spec, -, rfl⟩ := Option.map_eq_some_iff.mp h
  rfl

theorem map_numberSlots {α : Type} {f : Slot → α} {g : SlotSpec → α}
    (h : ∀ k spec, f ⟨k, spec.name, spec.ty, spec.role⟩ = g spec) (specs : List SlotSpec) :
    (numberSlots specs).map f = specs.map g := by
  refine List.ext_getElem? fun k => ?_
  rw [List.getElem?_map, getElem?_numberSlots, List.getElem?_map, Option.map_map]
  exact Option.map_congr fun spec _ => h k spec

theorem mem_numberSlots {specs : List SlotSpec} {slot : Slot} (h : slot ∈ numberSlots specs) :
    ∃ spec ∈ specs, spec.ty = slot.ty ∧ spec.role = slot.role := by
  obtain ⟨k, hk, rfl⟩ := List.mem_mapIdx.mp h
  exact ⟨specs[k], List.getElem_mem hk, rfl, rfl⟩

/-- A slot that is found by its role has that role. -/
theorem Numbered.role_of_slotWithRole? (h : Numbered slots)
    (hid : slotWithRole? slots role = some id) :
    ∃ slot, slots[id]? = some slot ∧ slot.role = role := by
  obtain ⟨slot, hfound, rfl⟩ := Option.map_eq_some_iff.mp hid
  obtain ⟨k, hk⟩ := List.getElem?_of_mem (List.mem_of_find?_eq_some hfound)
  have hrole : slot.role = role := by simpa using List.find?_some hfound
  rw [h k slot hk]
  exact ⟨slot, hk, hrole⟩

/-- A slot found among those of a point has the role of a task awaited there. -/
theorem Numbered.role_of_awaits (h : Numbered l.slots) (hslot : slot ∈ l.awaits point) :
    ∃ s operand, l.slots[slot]? = some s ∧ s.role = .awaited point operand := by
  obtain ⟨s, hs, hsome⟩ := List.mem_filterMap.mp hslot
  obtain ⟨k, hk⟩ := List.getElem?_of_mem hs
  cases hrole : s.role with
  | awaited i operand =>
    rw [hrole] at hsome
    dsimp only at hsome
    split at hsome
    case isFalse => cases hsome
    case isTrue hi =>
      obtain rfl := Option.some.inj hsome
      rw [h k s hk]
      exact ⟨s, operand, hk, by rw [hrole, hi]⟩
  | state | status | result | hoisted _ =>
    rw [hrole] at hsome
    cases hsome

/-- A slot is found for just the roles that there are. -/
theorem isSome_slotWithRole? :
    (slotWithRole? slots role).isSome ↔ role ∈ slots.map Slot.role := by
  unfold slotWithRole?
  rw [Option.isSome_map, List.find?_isSome, List.mem_map]
  simp only [beq_iff_eq]

/-! ### Hoisted variables -/

/-- The variable is a parameter or a local of the procedure, with the name and the type
it is declared with. -/
def Bound.Procedure.Declares (p : Procedure) (v : Variable) : Prop :=
  (∃ i param, p.param? i = some param ∧ v = ⟨.param i, param.name, param.ty, param.span⟩) ∨
    ∃ x decl, p.local? x = some decl ∧ v = ⟨.localVar x, decl.name, decl.ty, decl.span⟩

/-- Parameters are hoisted first, and then locals. -/
theorem hoistedVariables_eq (block : p.body = .block p.stmts) (mode : LivenessMode)
    (points : List SuspensionPoint) : hoistedVariables p mode points =
      hoistedParams p (Bound.accessesOf p.stmts) ++ hoistedLocals p mode points := by
  unfold hoistedVariables
  rw [block]

/-- What is hoisted is declared. -/
theorem declares_of_mem {v : Variable} (hv : v ∈ hoistedVariables p mode points) :
    p.Declares v := by
  unfold hoistedVariables at hv
  split at hv
  case h_1 => cases hv
  case h_2 =>
    rcases List.mem_append.mp hv with hv | hv
    · obtain ⟨i, -, hsome⟩ := List.mem_filterMap.mp hv
      obtain ⟨param, hparam, rfl⟩ := Option.map_eq_some_iff.mp hsome
      exact Or.inl ⟨i, param, hparam, rfl⟩
    · obtain ⟨x, -, hsome⟩ := List.mem_filterMap.mp hv
      obtain ⟨decl, hdecl, rfl⟩ := Option.map_eq_some_iff.mp hsome
      exact Or.inr ⟨x, decl, hdecl, rfl⟩

/-- The hoisted variables are the ones to hoist, when none of them is a problem. -/
theorem toVariable_of_nameSlots (h : (nameSlots namer vars).1 = []) :
    (nameSlots namer vars).2.1.map Hoisted.toVariable = vars := by
  induction vars generalizing namer with
  | nil => rfl
  | cons v rest ih =>
    unfold nameSlots at h ⊢
    by_cases hty : v.ty.isPersistable
    · rw [if_pos hty] at h ⊢
      exact congrArg (List.cons v) (ih h)
    · rw [if_neg hty] at h
      cases h

/-- **Naming slots is a problem** for the variables whose type cannot be stored. -/
theorem nameSlots_eq_nil_iff :
    (nameSlots namer vars).1 = [] ↔ ∀ v ∈ vars, v.ty.isPersistable = true := by
  induction vars generalizing namer with
  | nil => simp [nameSlots]
  | cons v rest ih =>
    unfold nameSlots
    by_cases hty : v.ty.isPersistable <;> simp [hty, ih]

theorem toVariable_of_hoist (h : hoist p points mode namer = (.ok hoisted, namer')) :
    hoisted.map Hoisted.toVariable = hoistedVariables p mode points := by
  unfold hoist at h
  dsimp only at h
  obtain ⟨hok, -⟩ := Prod.mk.inj h
  split at hok
  case isFalse => cases hok
  case isTrue hempty =>
    obtain rfl := Except.ok.inj hok
    exact toVariable_of_nameSlots (List.isEmpty_iff.mp hempty)

/-! ### Roles of a layout -/

theorem map_role_awaitSpecsFrom (point count : Nat) (operands : List Expr)
    (namer : SlotNamer) (operand : Nat) :
    (awaitSpecsFrom point count namer operand operands).1.map SlotSpec.role =
      (List.range' operand operands.length).map (Role.awaited point) := by
  induction operands generalizing namer operand with
  | nil => rfl
  | cons e rest ih =>
    unfold awaitSpecsFrom
    dsimp only
    rw [List.map_cons, ih, List.length_cons, List.range'_succ, List.map_cons]

theorem map_role_awaitSpecs (points : List SuspensionPoint) (namer : SlotNamer) :
    (awaitSpecs namer points).1.map SlotSpec.role =
      points.flatMap fun q => (List.range q.kind.awaited.length).map
        (Role.awaited q.index) := by
  induction points generalizing namer with
  | nil => rfl
  | cons q rest ih =>
    unfold awaitSpecs
    dsimp only
    rw [List.map_append, map_role_awaitSpecsFrom, ih, List.flatMap_cons, List.range_eq_range']

theorem mem_awaitSpecsFrom {count : Nat} {operands : List Expr} {first : Nat}
    (h : spec ∈ (awaitSpecsFrom point count namer first operands).1) :
    ∃ operand, spec.role = .awaited point (first + operand) ∧
      (operands[operand]?).map Expr.ty = some spec.ty := by
  induction operands generalizing namer first with
  | nil => cases h
  | cons e rest ih =>
    unfold awaitSpecsFrom at h
    rcases List.mem_cons.mp h with rfl | h
    · exact ⟨0, rfl, rfl⟩
    · obtain ⟨operand, hrole, hty⟩ := ih h
      refine ⟨operand + 1, ?_, hty⟩
      rw [hrole, Nat.add_right_comm, Nat.add_assoc]

/-- The slot of an awaited task has the type of the operand that produces the task. -/
theorem mem_awaitSpecs (h : spec ∈ (awaitSpecs namer points).1) :
    ∃ q ∈ points, ∃ operand, spec.role = .awaited q.index operand ∧
      (q.kind.awaited[operand]?).map Expr.ty = some spec.ty := by
  induction points generalizing namer with
  | nil => cases h
  | cons q rest ih =>
    unfold awaitSpecs at h
    rcases List.mem_append.mp h with h | h
    · obtain ⟨operand, hrole, hty⟩ := mem_awaitSpecsFrom h
      rw [Nat.zero_add] at hrole
      exact ⟨q, List.mem_cons_self, operand, hrole, hty⟩
    · obtain ⟨r, hr, hspec⟩ := ih h
      exact ⟨r, List.mem_cons_of_mem _ hr, hspec⟩

/-- What the type of a slot is, by its role. -/
def SlotTy (p : Procedure) (points : List SuspensionPoint) (hoisted : List Hoisted)
    (ty : Ty) : Role → Prop
  | .state | .status => ty = .int
  | .result => ty = p.result
  | .hoisted origin => ∃ h ∈ hoisted, h.origin = origin ∧ ty = h.ty
  | .awaited point operand =>
    ∃ q ∈ points, q.index = point ∧ (q.kind.awaited[operand]?).map Expr.ty = some ty

/-- A layout with what it was made from. -/
structure LaidOut (p : Procedure) (points : List SuspensionPoint) (hoisted : List Hoisted)
    (l : SlotLayout) : Prop where
  numbered : Numbered l.slots
  roles : l.slots.map Slot.role =
    [.state, .status] ++ (if p.returnsValue then [.result] else []) ++
      hoisted.map (fun h => .hoisted h.origin) ++
      points.flatMap fun q => (List.range q.kind.awaited.length).map (Role.awaited q.index)
  types : ∀ slot ∈ l.slots, SlotTy p points hoisted slot.ty slot.role
  state : l.state = 0
  status : l.status = 1
  result : l.result = if p.returnsValue then some 2 else none
  cancel : l.cancel = p.cancellation.bind l.param?

/-- What a layout made with success looks like. -/
theorem laidOut_of_layOut {books : BookkeepingNames}
    (h : layOut p points hoisted books namer = (.ok l, namer')) :
    LaidOut p points hoisted l := by
  unfold layOut at h
  dsimp only at h
  split at h
  case isTrue => cases (Prod.mk.inj h).1
  case isFalse =>
    obtain rfl := Except.ok.inj (Prod.mk.inj h).1
    refine ⟨numbered_numberSlots _, ?_, fun slot hslot => ?_, rfl, rfl, rfl, rfl⟩
    · dsimp only
      rw [map_numberSlots (g := SlotSpec.role) fun _ _ =>
        rfl, List.map_append, List.map_append, List.map_append,
        map_role_awaitSpecs, List.map_map]
      cases p.returnsValue <;> rfl
    · obtain ⟨spec, hspec, hty, hrole⟩ := mem_numberSlots hslot
      rw [← hty, ← hrole]
      rcases List.mem_append.mp hspec with hspec | hawaited
      · rcases List.mem_append.mp hspec with hspec | hhoisted
        · have hbooks : spec ∈ [⟨books.state, .int, .state⟩, ⟨books.status, .int, .status⟩] ∨
              spec = ⟨books.result, p.result, .result⟩ := by
            rcases List.mem_append.mp hspec with hspec | hspec
            · exact Or.inl hspec
            · right
              cases hvalue : p.returnsValue <;> simp_all
          rcases hbooks with hbooks | rfl
          · simp only [List.mem_cons, List.not_mem_nil, or_false] at hbooks
            rcases hbooks with rfl | rfl <;> rfl
          · rfl
        · obtain ⟨v, hv, rfl⟩ := List.mem_map.mp hhoisted
          exact ⟨v, hv, rfl, rfl⟩
      · obtain ⟨q, hq, operand, hrole, hty⟩ := mem_awaitSpecs hawaited
        rw [hrole]
        exact ⟨q, hq, rfl, hty⟩

namespace LaidOut

private theorem slot_of_role {k : Nat} (h : (l.slots.map Slot.role)[k]? = some role) :
    ∃ slot, l.slots[k]? = some slot ∧ slot.role = role := by
  rw [List.getElem?_map] at h
  exact Option.map_eq_some_iff.mp h

section

variable (h : LaidOut p points hoisted l)

include h

/-- The state slot holds the state. -/
theorem role_state : ∃ slot, l.slots[l.state]? = some slot ∧ slot.role = .state := by
  refine slot_of_role ?_
  rw [h.state, h.roles]
  rfl

/-- The status slot holds the status. -/
theorem role_status : ∃ slot, l.slots[l.status]? = some slot ∧ slot.role = .status := by
  refine slot_of_role ?_
  rw [h.status, h.roles]
  rfl

/-- The result slot, where there is one, holds the result. -/
theorem role_result (hid : l.result = some id) :
    ∃ slot, l.slots[id]? = some slot ∧ slot.role = .result := by
  rw [h.result] at hid
  split at hid
  case isFalse => cases hid
  case isTrue hvalue =>
    obtain rfl := Option.some.inj hid
    refine slot_of_role ?_
    rw [h.roles, if_pos hvalue]
    rfl

/-- The slot of a local holds that local. -/
theorem role_local {id : LocalId} (hslot : l.local? id = some slot) :
    ∃ s, l.slots[slot]? = some s ∧ s.role = .hoisted (.localVar id) :=
  h.numbered.role_of_slotWithRole? hslot

theorem role_param (hslot : l.param? i = some slot) :
    ∃ s, l.slots[slot]? = some s ∧ s.role = .hoisted (.param i) :=
  h.numbered.role_of_slotWithRole? hslot

/-- **A local is hoisted** exactly when it is one of the variables to hoist. -/
theorem isSome_local? (id : LocalId) :
    (l.local? id).isSome ↔ ∃ v ∈ hoisted, v.origin = .localVar id := by
  unfold SlotLayout.local?
  rw [isSome_slotWithRole?, h.roles]
  cases p.returnsValue <;> simp

/-- A parameter has a slot just when it is hoisted. -/
theorem isSome_param? (i : Nat) :
    (l.param? i).isSome ↔ ∃ v ∈ hoisted, v.origin = .param i := by
  unfold SlotLayout.param?
  rw [isSome_slotWithRole?, h.roles]
  cases p.returnsValue <;> simp

end

/-- Is this the role of a task awaited at the point? -/
private def isAwaitedAt (point : Nat) : Role → Bool
  | .awaited i _ => i == point
  | _ => false

/-- The roles of one point are those of its own tasks. -/
private theorem filter_point (q : SuspensionPoint) (point : Nat) :
    ((List.range q.kind.awaited.length).map (Role.awaited q.index)).filter
      (isAwaitedAt point) =
      if q.index = point then (List.range q.kind.awaited.length).map (Role.awaited point)
        else [] := by
  rw [List.filter_map]
  by_cases h : q.index = point <;> simp [isAwaitedAt, Function.comp_def, h]

/-- Points numbered in order have, each, the roles of its own tasks. -/
private theorem filter_points (base : Nat)
    (hindex : ∀ k (q : SuspensionPoint), points[k]? = some q → q.index = base + k) (i : Nat) :
    (points.flatMap fun q => (List.range q.kind.awaited.length).map
      (Role.awaited q.index)).filter
        (isAwaitedAt (base + i)) = ((points[i]?).map fun q =>
        (List.range q.kind.awaited.length).map (Role.awaited (base + i))).getD [] := by
  induction points generalizing base i with
  | nil => rfl
  | cons q rest ih =>
    have hq : q.index = base := hindex 0 q rfl
    have hrest : ∀ k (r : SuspensionPoint), rest[k]? = some r → r.index = base + 1 + k := by
      intro k r hr
      rw [hindex (k + 1) r hr]
      omega
    rw [List.flatMap_cons, List.filter_append, filter_point, hq]
    cases i with
    | zero =>
      -- The later points have larger numbers.
      have hnone : (rest.flatMap fun r => (List.range r.kind.awaited.length).map
          (Role.awaited r.index)).filter (isAwaitedAt base) = [] := by
        refine List.filter_eq_nil_iff.mpr fun role hrole => ?_
        obtain ⟨r, hr, hmem⟩ := List.mem_flatMap.mp hrole
        obtain ⟨k, hk⟩ := List.getElem?_of_mem hr
        obtain ⟨operand, -, rfl⟩ := List.mem_map.mp hmem
        have hlater := hrest k r hk
        simp only [isAwaitedAt, beq_iff_eq]
        omega
      rw [Nat.add_zero, if_pos rfl, hnone, List.append_nil]
      rfl
    | succ i =>
      have hshift : base + (i + 1) = base + 1 + i := by omega
      rw [if_neg (by omega), List.nil_append, hshift, ih (base + 1) hrest i]
      rfl

section

variable (h : LaidOut p points hoisted l)
  (hindex : ∀ k (q : SuspensionPoint), points[k]? = some q → q.index = k)
  (hq : points[i]? = some q)

include h hindex hq

/-- **The slots of a point have the roles of the tasks it awaits**, in order. -/
theorem map_role_awaits : (l.awaits i).map (fun id => (l.slots[id]?).map Slot.role) =
      (List.range q.kind.awaited.length).map fun k => some (Role.awaited i k) := by
  have hawaits : (l.awaits i).map (fun id => (l.slots[id]?).map Slot.role) =
      ((l.slots.map Slot.role).filter (isAwaitedAt i)).map some := by
    have hids : l.awaits i = (l.slots.filter fun s => isAwaitedAt i s.role).map Slot.id := by
      unfold SlotLayout.awaits
      rw [← List.filterMap_eq_map, ← List.filterMap_eq_filter, List.filterMap_filterMap]
      refine List.filterMap_congr fun s _ => ?_
      cases hrole : s.role with
      | awaited k operand =>
        by_cases hk : k = i <;> simp [isAwaitedAt, hrole, hk, Option.guard]
      | state | status | result | hoisted _ => simp [isAwaitedAt, hrole, Option.guard]
    rw [hids, List.map_map, List.filter_map, List.map_map]
    refine List.map_congr_left fun s hs => ?_
    -- A slot stands at the position of its number.
    obtain ⟨k, hk⟩ := List.getElem?_of_mem (List.mem_filter.mp hs).1
    have hat : l.slots[s.id]? = some s := by rw [h.numbered k s hk, hk]
    simp [hat]
  have hhoisted : (hoisted.map fun v => Role.hoisted v.origin).filter
    (isAwaitedAt i) = [] := by
    simp [List.filter_map, Function.comp_def, isAwaitedAt]
  have hbooks : ([Role.state, Role.status] ++ if p.returnsValue then
    [Role.result] else []).filter
      (isAwaitedAt i) = [] := by
    cases p.returnsValue <;> rfl
  have hpoints := filter_points 0 (by simpa using hindex) i
  rw [Nat.zero_add, hq] at hpoints
  rw [hawaits, h.roles, List.filter_append, List.filter_append, hhoisted, hbooks, hpoints]
  simp

/-- **A point has one slot for each task it awaits.** -/
theorem length_awaits : (l.awaits i).length = q.kind.awaited.length := by
  simpa using congrArg List.length (h.map_role_awaits hindex hq)

end

end LaidOut

end Resumable
