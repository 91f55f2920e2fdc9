import Resumable.Proofs.Freshness
import Resumable.Proofs.HoistingModes
import Resumable.Proofs.Roles
import Resumable.Proofs.Segmentable

/-!
# The slot table of a machine

The slots of a machine are found in three ways: by number, by name and by role.  **The
three agree for every machine that lowering gives**, whatever the prefix of the names and
however the variables of the procedure are called.  A slot has the number of its position.
Its name is a string that no other slot has, since a namer hands out no name twice.  No
other slot has its role.

## Main definitions

* `tasksAt`: the number of tasks that a suspension point awaits.
* `SlotTable`: what is asked of the slots of a machine.

## Main statements

* `deferred_of_points`: what is awaited is deferred.
* `slotNames_of_lowerProcedure`: the names of the slots are different strings.
* `slotTable_of_lowerProcedure`: the slot table of a lowered procedure.
-/

namespace Resumable

open Resumable.Bound (Procedure)
open Machine (Role Slot SlotId)

variable {p : Procedure} {mode : LivenessMode} {m : Machine} {hoisted : List Hoisted}
  {slots : List Slot}

/-- The number of tasks that the point with the number awaits; none, if
there is no such point. -/
def tasksAt (points : List SuspensionPoint) (point : Nat) : Nat :=
  (points[point]?).elim 0 fun q => q.kind.awaited.length

/-- **What is asked of the slots of a machine**, where the names of its slots
start with a base. -/
structure SlotTable (base : String) (names : NameTable) (p : Procedure)
    (points : List SuspensionPoint) (m : Machine) : Prop where
  /-- Slots are numbered in order. -/
  ids : m.slots.map Slot.id = List.range m.slots.length
  /-- The names of slots are different strings. -/
  texts : (m.slots.map fun slot => names.lookup slot.name).Nodup
  /-- No two slots have the same role. -/
  roles : (m.slots.map Slot.role).Nodup
  /-- Every slot can be stored. -/
  storable : ∀ slot ∈ m.slots, slot.ty.isPersistable = true
  state : ∃ slot, m.slots[m.stateSlot]? = some slot ∧ slot.role = .state ∧
    names.lookup slot.name = base ++ "state"
  status : ∃ slot, m.slots[m.statusSlot]? = some slot ∧ slot.role = .status ∧
    names.lookup slot.name = base ++ "status"
  result : ∀ id, m.resultSlot = some id →
    ∃ slot, m.slots[id]? = some slot ∧ slot.role = .result ∧
    names.lookup slot.name = base ++ "result"
  /-- There is a slot for the result where there is one. -/
  hasResult : m.resultSlot.isSome ↔ p.returnsValue = true
  cancel : ∀ id, m.cancelSlot = some id →
    ∃ i slot, p.cancellation = some i ∧ m.slots[id]? = some slot ∧
    slot.role = .hoisted (.param i)
  /-- There is a slot for the handle where there is one. -/
  hasCancel : m.cancelSlot.isSome ↔ p.cancellation.isSome
  /-- A point has one slot for each task that it awaits. -/
  awaited : ∀ point operand, (m.slots.map Slot.role).count (.awaited point operand) =
    if operand < tasksAt points point then 1 else 0
  /-- A local has one slot, or none and is a local of the machine. -/
  locals : (∀ (j : Nat) (decl : LocalDecl), p.locals[j]? = some decl → decl.id = j) →
    ∀ (j : Nat) (decl : LocalDecl), p.locals[j]? = some decl →
      decl ∈ m.locals ∧ (m.slots.map Slot.role).count (.hoisted (.localVar j)) = 0 ∨
        decl ∉ m.locals ∧ (m.slots.map Slot.role).count (.hoisted (.localVar j)) = 1

/-! ### Types -/

section

variable {names : NameTable} {points : List SuspensionPoint}

/-- **What is awaited is deferred.** -/
theorem deferred_of_points (found : suspensionPoints names p = .ok points)
    {q : SuspensionPoint} (hq : q ∈ points) :
    ∀ e ∈ q.kind.awaited, e.ty.isDeferred = true := by
  obtain ⟨i, hi⟩ := List.getElem?_of_mem hq
  obtain ⟨site, -, hpoint⟩ := (point_of_points found).2 i q hi
  obtain ⟨kind, carriesValue, hkind, -, rfl⟩ := SuspensionSite.eq_of_point hpoint
  exact (classified_of_classify hkind).2

theorem Ty.isPersistable_of_isDeferred {ty : Ty} (h : ty.isDeferred = true) :
    ty.isPersistable = true := by
  cases ty with
  | deferred => rfl
  | _ => cases h

namespace Lowered

variable {names : NameTable}

/-- **Every slot can be stored**, when every variable and the result can. -/
theorem storable (b : Lowered mode names p m) (lowerable : Lowerable mode names p b.points) :
    ∀ slot ∈ m.slots, slot.ty.isPersistable = true := by
  intro slot hslot
  have hty := b.laidOut.types slot hslot
  cases hrole : slot.role with
  | state | status =>
    rw [hrole] at hty
    rw [show slot.ty = .int from hty]
    rfl
  | result =>
    have hvalue : p.returnsValue = true := by
      have hmem : Role.result ∈ m.layout.slots.map Slot.role :=
        List.mem_map.mpr ⟨slot, hslot, hrole⟩
      rw [b.laidOut.roles] at hmem
      by_contra hnone
      simp [hnone] at hmem
    rw [hrole] at hty
    rw [show slot.ty = p.result from hty]
    exact lowerable.result hvalue
  | hoisted origin =>
    rw [hrole] at hty
    obtain ⟨v, hv, -, hty⟩ := hty
    rw [hty]
    refine lowerable.storable v.toVariable ?_
    rw [← b.hoisting]
    exact List.mem_map_of_mem hv
  | awaited point operand =>
    rw [hrole] at hty
    obtain ⟨q, hq, -, hty⟩ := hty
    obtain ⟨e, he, hety⟩ := Option.map_eq_some_iff.mp hty
    rw [← hety]
    exact Ty.isPersistable_of_isDeferred
      (deferred_of_points b.found hq e (List.mem_of_getElem? he))

/-! ### Roles -/

variable (b : Lowered mode names p m)

include b

/-- There is one slot with a role, or none. -/
theorem count_role (role : Role) :
    (m.slots.map Slot.role).count role = if role ∈ m.slots.map Slot.role then 1 else 0 := by
  split
  case isTrue hmem => exact List.count_eq_one_of_mem b.nodup_roles hmem
  case isFalse hnot => exact List.count_eq_zero_of_not_mem hnot

/-- There is an await slot for each task of a point. -/
theorem awaited_mem_iff {point operand : Nat} :
    .awaited point operand ∈ m.slots.map Slot.role ↔ operand < tasksAt b.points point := by
  have hroles : m.slots.map Slot.role = _ := b.laidOut.roles
  have hmem : .awaited point operand ∈ m.slots.map Slot.role ↔
      ∃ q ∈ b.points, operand < q.kind.awaited.length ∧ q.index = point := by
    rw [hroles]
    cases p.returnsValue <;> simp
  rw [hmem]
  unfold tasksAt
  constructor
  · rintro ⟨q, hq, hlt, rfl⟩
    obtain ⟨i, hi⟩ := List.getElem?_of_mem hq
    rw [index_of_points b.found hi, hi]
    exact hlt
  · intro hlt
    cases hq : b.points[point]? with
    | none =>
      rw [hq] at hlt
      cases hlt
    | some q =>
      rw [hq] at hlt
      exact ⟨q, List.mem_of_getElem? hq, hlt, index_of_points b.found hq⟩

/-- A local has a slot, or it is a local of the machine. -/
theorem mem_locals_iff {decl : LocalDecl} (hdecl : decl ∈ p.locals) :
    decl ∈ m.locals ↔ .hoisted (.localVar decl.id) ∉ m.slots.map Slot.role := by
  have hlocals : m.locals = p.locals.filter fun decl => (m.layout.local? decl.id).isNone :=
    congrArg Machine.locals b.machine
  rw [hlocals, List.mem_filter, and_iff_right hdecl, ← isSome_slotWithRole?,
    Option.isNone_iff_eq_none, Option.not_isSome_iff_eq_none]
  rfl

/-- **The handle has a slot.** -/
theorem isSome_cancelSlot : m.cancelSlot.isSome ↔ p.cancellation.isSome := by
  have hcancel : m.cancelSlot = p.cancellation.bind m.layout.param? := b.laidOut.cancel
  rw [hcancel]
  cases hhandle : p.cancellation with
  | none => rfl
  | some i =>
    obtain ⟨param, hparam, -⟩ := (shapeProblems_eq_nil_iff.mp b.shape).handle i hhandle
    have hlt : i < p.params.length := (List.getElem?_eq_some_iff.mp hparam).1
    have hslot : (m.layout.param? i).isSome := by
      rw [b.laidOut.isSome_param?, b.exists_hoisted, exists_hoisted_param_iff b.block]
      exact ⟨hlt, Or.inr hhandle⟩
    simpa using hslot

end Lowered

/-! ### Names -/

theorem map_name_of_layOut {books : BookkeepingNames} {namer namer' : SlotNamer}
    {l : SlotLayout} (h : layOut p points hoisted books namer = (.ok l, namer')) :
    l.slots.map Slot.name = [books.state, books.status] ++
      (if p.returnsValue then [books.result] else []) ++
        (hoisted.map Hoisted.slotName ++ (awaitSpecs namer points).1.map SlotSpec.name) ∧
      namer' = (awaitSpecs namer points).2 := by
  unfold layOut at h
  dsimp only at h
  split at h
  case isTrue => cases (Prod.mk.inj h).1
  case isFalse =>
    obtain ⟨hl, rfl⟩ := Prod.mk.inj h
    obtain rfl := Except.ok.inj hl
    refine ⟨?_, rfl⟩
    dsimp only
    rw [map_numberSlots (g := SlotSpec.name) fun _ _ =>
      rfl, List.map_append, List.map_append, List.map_append, List.map_map, List.append_assoc]
    cases p.returnsValue <;> rfl

theorem SlotNamer.precedes_dispatch (n : SlotNamer) : n.Precedes n.dispatch.2 :=
  ⟨rfl, n.names.precedes_intern _⟩

/-- The names of hoisted variables are handed out in turn. -/
theorem hands_hoist {namer : SlotNamer} (h : (hoist p points mode namer).1 = .ok hoisted) :
    namer.Hands (hoisted.map Hoisted.slotName) (hoist p points mode namer).2 := by
  unfold hoist at h ⊢
  dsimp only at h ⊢
  split at h
  case isFalse => cases h
  case isTrue =>
    obtain rfl := Except.ok.inj h
    exact namer.hands_nameSlots _

/-- **The names of the slots of a lowered procedure** are handed out in turn, after the ones
of the state, the status and the result. -/
theorem slotNames_of_lowerProcedure {options : LowerOptions} {names' : NameTable}
    (h : lowerProcedure options p names = (.ok m, names')) :
    ∃ (books : BookkeepingNames) (later : List Name),
      m.slots.map Slot.name = [books.state, books.status] ++
        (if p.returnsValue then [books.result] else []) ++ later ∧
      (([books.state, books.status, books.result] ++ later).map names'.lookup).Nodup ∧
      [books.state, books.status, books.result].map names'.lookup =
        ["state", "status", "result"].map (options.slotPrefix ++
          names.lookup p.name ++ "_" ++ ·) := by
  obtain ⟨-, points, -, hlower⟩ := points_of_lowerSteps (steps_of_lowerProcedure h)
  unfold lowerPoints at hlower
  dsimp only at hlower
  split at hlower
  case h_1 => cases (Prod.mk.inj hlower).1
  case h_2 hoisted hhoisted =>
    split at hlower
    case h_1 => cases (Prod.mk.inj hlower).1
    case h_2 layout hlayout =>
      split at hlower
      case h_1 => cases (Prod.mk.inj hlower).1
      case h_2 =>
        obtain ⟨hm, rfl⟩ := Prod.mk.inj hlower
        obtain rfl := Except.ok.inj hm
        obtain ⟨hnames, hnamer⟩ := map_name_of_layOut (Prod.ext hlayout rfl)
        -- From the first name to the last, the namer has handed out one after the other.
        have hbooks :=
          (SlotNamer.new names options.slotPrefix (names.lookup p.name)).hands_bookkeeping
        have hlater := (hands_hoist hhoisted).trans (SlotNamer.hands_awaitSpecs _ points)
        rw [← hnamer] at hlater
        refine ⟨_, _, hnames, (hbooks.trans hlater).nodup_texts (SlotNamer.wellUsed_new ..)
          (SlotNamer.precedes_dispatch _).names, ?_⟩
        obtain ⟨hstate, hstatus, hresult⟩ :=
          SlotNamer.find?_bookkeeping (n := .new names options.slotPrefix _) rfl
        have hgrown := (hlater.precedes.trans (SlotNamer.precedes_dispatch _)).names
        simp only [List.map_cons, List.map_nil]
        rw [NameTable.lookup_of_find? (hgrown.find? hstate), NameTable.lookup_of_find?
          (hgrown.find? hstatus), NameTable.lookup_of_find? (hgrown.find? hresult)]
        rfl

/-- A slot that is known by its number has the name that stands there. -/
theorem exists_named {id : SlotId} {role : Role} {name : Name} {text : String}
    (hrole : ∃ slot, slots[id]? = some slot ∧ slot.role = role)
    (hname : (slots.map Slot.name)[id]? = some name) (htext : names.lookup name = text) :
    ∃ slot, slots[id]? = some slot ∧ slot.role = role ∧ names.lookup slot.name = text := by
  obtain ⟨slot, hslot, hrole⟩ := hrole
  rw [List.getElem?_map, hslot] at hname
  obtain rfl := Option.some.inj hname
  exact ⟨slot, hslot, hrole, htext⟩

theorem Numbered.map_id (h : Numbered slots) :
    slots.map Slot.id = List.range slots.length := by
  refine List.ext_getElem (by simp) fun k hk _ => ?_
  rw [List.getElem_map, List.getElem_range]
  exact h k _ (List.getElem?_eq_getElem _)

end

/-- **The slot table of a lowered procedure**, for every prefix of the names. -/
theorem slotTable_of_lowerProcedure {options : LowerOptions} {p : Procedure}
    {names names' : NameTable} {m : Machine}
    (h : lowerProcedure options p names = (.ok m, names')) :
    ∃ points, suspensionPoints names p = .ok points ∧
      SlotTable (options.slotPrefix ++ names.lookup p.name ++ "_") names' p points m := by
  obtain ⟨b⟩ := lowered_of_lowerProcedure h
  obtain ⟨-, points, found, hlower⟩ := points_of_lowerSteps (steps_of_lowerProcedure h)
  obtain rfl : b.points = points := Except.ok.inj (b.found.symm.trans found)
  have lowerable := (exists_lowerPoints_iff b.shape b.found).mp ⟨m, congrArg Prod.fst hlower⟩
  obtain ⟨books, later, hnames, hnodup, htexts⟩ := slotNames_of_lowerProcedure h
  simp only [List.map_cons, List.map_nil, List.cons.injEq, and_true] at htexts
  obtain ⟨hstate, hstatus, hresult⟩ := htexts
  have hresultSlot : m.resultSlot = if p.returnsValue then some 2 else none :=
    b.laidOut.result
  refine ⟨b.points, b.found, ?_⟩
  constructor
  case ids => exact b.laidOut.numbered.map_id
  case texts =>
    -- The result has a name also where it has no slot.
    have hsub : (m.slots.map Slot.name).Sublist
      ([books.state, books.status, books.result] ++ later) := by
      rw [hnames]
      cases p.returnsValue with
      | true => exact .refl _
      | false =>
        exact ((List.Sublist.refl later).cons books.result).cons_cons _ |>.cons_cons _
    rw [← Function.comp_def, ← List.map_map]
    exact hnodup.sublist (hsub.map _)
  case roles => exact b.nodup_roles
  case storable => exact b.storable lowerable
  case state =>
    have hat : m.stateSlot = 0 := b.laidOut.state
    refine exists_named b.laidOut.role_state ?_ hstate
    show (m.slots.map Slot.name)[m.stateSlot]? = _
    rw [hat, hnames]
    rfl
  case status =>
    have hat : m.statusSlot = 1 := b.laidOut.status
    refine exists_named b.laidOut.role_status ?_ hstatus
    show (m.slots.map Slot.name)[m.statusSlot]? = _
    rw [hat, hnames]
    rfl
  case result =>
    intro id hid
    refine exists_named (b.laidOut.role_result hid) ?_ hresult
    show (m.slots.map Slot.name)[id]? = _
    rw [hresultSlot] at hid
    split at hid
    case isFalse => cases hid
    case isTrue hvalue =>
      obtain rfl := Option.some.inj hid
      rw [hnames, if_pos hvalue]
      rfl
  case hasResult =>
    rw [hresultSlot]
    cases p.returnsValue <;> simp
  case cancel =>
    intro id hid
    have hcancel : m.cancelSlot = p.cancellation.bind m.layout.param? := b.laidOut.cancel
    rw [hcancel] at hid
    obtain ⟨i, hi, hslot⟩ := Option.bind_eq_some_iff.mp hid
    obtain ⟨slot, hslot, hrole⟩ := b.laidOut.role_param hslot
    exact ⟨i, slot, hi, hslot, hrole⟩
  case hasCancel => exact b.isSome_cancelSlot
  case awaited =>
    intro point operand
    rw [b.count_role]
    exact if_congr b.awaited_mem_iff rfl rfl
  case locals =>
    intro hids j decl hdecl
    have hmem := b.mem_locals_iff (List.mem_of_getElem? hdecl)
    rw [hids j decl hdecl] at hmem
    rw [b.count_role, hmem]
    by_cases hrole : .hoisted (.localVar j) ∈ m.slots.map Slot.role
    · exact Or.inr ⟨not_not.mpr hrole, if_pos hrole⟩
    · exact Or.inl ⟨hrole, if_neg hrole⟩

/-! ### Variables that are called like slots -/

namespace Masquerade

/-- The strings that the procedure uses. -/
def names : NameTable :=
  .internAll .empty ["act", "state", "state_1", "result", "await0", "work"]

/-- Read a local. -/
def read (x : LocalId) : Bound.Expr := .localVar ⟨.int, .none⟩ x

/-- Keep three locals over a wait, and return their sum. -/
def procedure : Procedure where
  name := ⟨1⟩
  params := [⟨⟨4⟩, .int, .none⟩]
  locals := [⟨0, ⟨2⟩, .int, .none⟩, ⟨1, ⟨3⟩, .int, .none⟩, ⟨2, ⟨5⟩, .int, .none⟩]
  result := .int
  cancellation := none
  body := .block [
    .bind ⟨0, .none⟩ 0 (.param ⟨.int, .none⟩ 0),
    .bind ⟨1, .none⟩ 1 (.int ⟨.int, .none⟩ 1),
    .bind ⟨2, .none⟩ 2 (.int ⟨.int, .none⟩ 2),
    .expr ⟨3, .none⟩ (.suspend ⟨.unit, .none⟩
      (.call ⟨.deferred .unit, .none⟩ (.procedure ⟨6⟩) [])),
    .ret ⟨4, .none⟩ (.binary ⟨.int, .none⟩ .add (read 0)
      (.binary ⟨.int, .none⟩ .add (read 1) (read 2)))]
  span := .none

/-- Names without a prefix. -/
def options : LowerOptions := { slotPrefix := "" }

/-- The table after lowering. -/
def names' : NameTable := (lowerProcedure options procedure names).2

/-- The machine of the procedure. -/
@[irreducible] def machine : Machine :=
  (lowerProcedure options procedure names).1.toOption.getD default

theorem lowered : lowerProcedure options procedure names = (.ok machine, names') := by
  unfold machine
  exact eq_mk_ok_of_isOk (by decide +kernel)

end Masquerade

/-- Variables called `state`, `state_1`, `result` and `await0` are steered around the names
that are taken. -/
theorem masquerade_slotTable :
    lowerProcedure Masquerade.options Masquerade.procedure Masquerade.names =
        (.ok Masquerade.machine, Masquerade.names') ∧
      (Masquerade.machine.slots.map fun slot => Masquerade.names'.lookup slot.name) =
        ["act_state", "act_status", "act_result", "act_result_1", "act_state_1",
          "act_state_1_1", "act_await0", "act_await0_1"] ∧
      ∃ points, suspensionPoints Masquerade.names Masquerade.procedure = .ok points ∧
        SlotTable ("" ++ Masquerade.names.lookup ⟨1⟩ ++ "_") Masquerade.names'
          Masquerade.procedure points Masquerade.machine := by
  refine ⟨Masquerade.lowered, ?_, slotTable_of_lowerProcedure Masquerade.lowered⟩
  unfold Masquerade.machine
  decide +kernel

end Resumable
