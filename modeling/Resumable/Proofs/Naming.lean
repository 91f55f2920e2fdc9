import Resumable.Proofs.Lowered

/-!
# Names in a table that grows

Lowering puts names of its own into the table that a program shares.  A table only grows:
names that were handed out keep their meaning, and a string that is asked for again has the
name that it had.  So **the dispatch of a procedure has the same name each time the procedure
is lowered**, in whichever mode, as long as the same table is used.

## Main definitions

* `NameTable.Precedes`: a table that has grown into another.

## Main statements

* `NameTable.Precedes.find?`: a string keeps its name.
* `find?_dispatch_of_lowerProcedure`: the dispatch is found under the text made from the name
  of its procedure.
-/

namespace Resumable

open Resumable.Bound (Procedure)

/-! ### Tables -/

namespace NameTable

/-- **A table that has grown into another**: its strings are the first ones of the other. -/
def Precedes (t u : NameTable) : Prop := t.strings.toList <+: u.strings.toList

variable {t u v : NameTable}

theorem Precedes.refl (t : NameTable) : t.Precedes t := List.prefix_rfl

/-- Growing twice is growing. -/
theorem Precedes.trans (h : t.Precedes u) (h' : u.Precedes v) : t.Precedes v :=
  List.IsPrefix.trans h h'

/-- **A name is found under the string that it stands for**, and under no other. -/
theorem find?_eq_some_iff {s : String} {name : Name} :
    t.find? s = some name ↔ t.strings[name.index]? = some s := by
  rw [find?, ← t.inverse, Option.map_eq_some_iff]
  constructor
  · rintro ⟨i, hi, rfl⟩
    exact hi
  · exact fun h => ⟨name.index, h, rfl⟩

/-- **Interning finds the name of a string, or adds the string at the end.** -/
theorem intern_cases (t : NameTable) (s : String) :
    t.find? s = some (t.intern s).1 ∧ (t.intern s).2.strings = t.strings ∨
      t.find? s = none ∧ (t.intern s).1 = ⟨t.size⟩ ∧
        (t.intern s).2.strings = t.strings.push s := by
  obtain ⟨hfound, hsame⟩ | ⟨hnone, hnew⟩ := t.toInternTable.intern_cases s
  · exact Or.inl ⟨congrArg (Option.map Name.mk) hfound, congrArg InternTable.strings hsame⟩
  · exact Or.inr ⟨congrArg (Option.map Name.mk) hnone, congrArg Prod.fst hnew,
      congrArg (fun found => found.2.strings) hnew⟩

/-- Interning only adds to the table. -/
theorem precedes_intern (t : NameTable) (s : String) : t.Precedes (t.intern s).2 := by
  unfold Precedes
  obtain ⟨-, hsame⟩ | ⟨-, -, hpush⟩ := t.intern_cases s
  · exact hsame ▸ List.prefix_rfl
  · rw [hpush, Array.toList_push]
    exact List.prefix_append _ _

/-- An interned text is found again. -/
theorem find?_intern (t : NameTable) (s : String) :
    (t.intern s).2.find? s = some (t.intern s).1 := by
  rw [find?_eq_some_iff]
  obtain ⟨hfound, hsame⟩ | ⟨-, hname, hpush⟩ := t.intern_cases s
  · rw [hsame]
    exact find?_eq_some_iff.mp hfound
  · rw [hname, hpush]
    exact Array.getElem?_push_size

/-- **A string keeps its name.** -/
theorem Precedes.find? (h : t.Precedes u) {s : String} {name : Name}
    (hname : t.find? s = some name) : u.find? s = some name := by
  rw [find?_eq_some_iff] at hname ⊢
  obtain ⟨hlt, hs⟩ := Array.getElem?_eq_some_iff.mp hname
  have hsome := List.prefix_iff_getElem?.mp h name.index hlt
  rw [Array.getElem?_toList, Array.getElem_toList, hs] at hsome
  exact hsome

/-- A name keeps its meaning. -/
theorem Precedes.lookup (h : t.Precedes u) {name : Name} (known : name.index < t.size) :
    u.lookup name = t.lookup name := by
  have hsome := List.prefix_iff_getElem?.mp h name.index known
  rw [Array.getElem?_toList] at hsome
  unfold NameTable.lookup
  rw [hsome, Array.getElem?_eq_getElem known]
  rfl

end NameTable

/-! ### Naming slots -/

namespace SlotNamer

/-- A namer that has handed out more names, with the same start. -/
structure Precedes (n n' : SlotNamer) : Prop where
  base : n'.base = n.base
  names : n.names.Precedes n'.names

theorem Precedes.refl (n : SlotNamer) : n.Precedes n := ⟨rfl, .refl _⟩

/-- Naming more, twice. -/
theorem Precedes.trans {n n' n'' : SlotNamer} (h : n.Precedes n') (h' : n'.Precedes n'') :
    n.Precedes n'' := ⟨h'.base.trans h.base, h.names.trans h'.names⟩

theorem precedes_search (base stem : String) (used : List Name) (tries k : Nat)
    (names : NameTable) : names.Precedes (search base stem used tries k names).2 := by
  induction tries generalizing k names with
  | zero => exact names.precedes_intern _
  | succ tries ih =>
    unfold search
    have hintern := names.precedes_intern (candidate base stem k)
    dsimp only
    split
    · exact hintern.trans (ih (k + 1) _)
    · exact hintern

/-- A fresh name only adds to the table. -/
theorem precedes_fresh (n : SlotNamer) (stem : String) : n.Precedes (n.fresh stem).2 :=
  ⟨rfl, precedes_search _ _ _ _ _ _⟩

theorem precedes_bookkeeping (n : SlotNamer) : n.Precedes n.bookkeeping.2 := by
  rw [bookkeeping_eq]
  dsimp only
  exact ((n.precedes_fresh _).trans (precedes_fresh _ _)).trans (precedes_fresh _ _)

/-- Naming the slots only adds to the table. -/
theorem precedes_nameSlots (n : SlotNamer) (vars : List Variable) :
    n.Precedes (nameSlots n vars).2.2 := by
  induction vars generalizing n with
  | nil => exact .refl n
  | cons v rest ih =>
    unfold nameSlots
    split
    · exact (n.precedes_fresh _).trans (ih _)
    · exact ih n

theorem precedes_hoist (p : Procedure) (points : List SuspensionPoint) (mode : LivenessMode)
    (n : SlotNamer) : n.Precedes (hoist p points mode n).2 := n.precedes_nameSlots _

theorem precedes_awaitSpecsFrom (point count : Nat) (n : SlotNamer) (operand : Nat)
    (operands : List Bound.Expr) :
    n.Precedes (awaitSpecsFrom point count n operand operands).2 := by
  induction operands generalizing n operand with
  | nil => exact .refl n
  | cons e rest ih => exact (n.precedes_fresh _).trans (ih _ _)

theorem precedes_awaitSpecs (n : SlotNamer) (points : List SuspensionPoint) :
    n.Precedes (awaitSpecs n points).2 := by
  induction points generalizing n with
  | nil => exact .refl n
  | cons q rest ih => exact (precedes_awaitSpecsFrom _ _ n 0 _).trans (ih _)

theorem precedes_layOut (p : Procedure) (points : List SuspensionPoint)
    (hoisted : List Hoisted) (books : BookkeepingNames) (n : SlotNamer) :
    n.Precedes (layOut p points hoisted books n).2 := by
  have hawaits := precedes_awaitSpecs n points
  unfold layOut
  dsimp only
  split
  · exact hawaits
  · exact hawaits

end SlotNamer

/-! ### Lowering -/

/-- The text under which the dispatch of a procedure is known. -/
def dispatchText (slotPrefix procedure : String) : String :=
  slotPrefix ++ procedure ++ "_" ++ "dispatch"

/-- A namer that started at a procedure names its dispatch by that text. -/
theorem SlotNamer.Precedes.dispatch {names : NameTable} {slotPrefix procedure : String}
    {n : SlotNamer} (h : (SlotNamer.new names slotPrefix procedure).Precedes n) :
    names.Precedes n.dispatch.2.names ∧
      n.dispatch.2.names.find? (dispatchText slotPrefix procedure) = some n.dispatch.1 := by
  have hbase : n.base ++ "dispatch" = dispatchText slotPrefix procedure := by
    rw [h.base]
    rfl
  unfold SlotNamer.dispatch
  rw [hbase]
  exact ⟨h.names.trans (NameTable.precedes_intern _ _), NameTable.find?_intern _ _⟩

/-- **The dispatch of a lowered procedure is found under its text.** -/
theorem find?_dispatch_of_lowerProcedure {options : LowerOptions} {p : Procedure}
    {names names' : NameTable} {m : Machine}
    (h : lowerProcedure options p names = (.ok m, names')) :
    names.Precedes names' ∧
      names'.find? (dispatchText options.slotPrefix (names.lookup p.name)) =
        some m.dispatch.name := by
  obtain ⟨-, points, -, hlower⟩ := points_of_lowerSteps (steps_of_lowerProcedure h)
  unfold lowerPoints at hlower
  dsimp only at hlower
  split at hlower
  case h_1 => cases (Prod.mk.inj hlower).1
  case h_2 hoisted _ =>
    split at hlower
    case h_1 => cases (Prod.mk.inj hlower).1
    case h_2 layout _ =>
      split at hlower
      case h_1 => cases (Prod.mk.inj hlower).1
      case h_2 =>
        obtain ⟨hm, rfl⟩ := Prod.mk.inj hlower
        obtain rfl := Except.ok.inj hm
        -- The namer has grown in each step before the dispatch is named.
        exact (((SlotNamer.precedes_bookkeeping _).trans
          (SlotNamer.precedes_hoist p points _ _)).trans
          (SlotNamer.precedes_layOut p points hoisted _ _)).dispatch

end Resumable
