import Resumable.Lower.Hoist

/-!
# Slot layout

The persistent slots of a machine: the state, the status and, where the procedure completes
with a value, the result; then the hoisted variables; then one slot for each task awaited at
each suspension point.
-/

namespace Resumable

open Resumable.Bound (Expr Procedure)
open Machine (Role Slot SlotId)

/-- The slots of a machine and the ones with a fixed purpose. -/
structure SlotLayout where
  slots : List Slot
  state : SlotId
  status : SlotId
  result : Option SlotId
  cancel : Option SlotId
  deriving DecidableEq, Repr

/-- The slot of a given role. -/
def slotWithRole? (slots : List Slot) (role : Role) : Option SlotId :=
  (slots.find? fun s => s.role == role).map Slot.id

namespace SlotLayout

/-- The slot of a hoisted parameter. -/
def param? (l : SlotLayout) (index : Nat) : Option SlotId :=
  slotWithRole? l.slots (.hoisted (.param index))

/-- The slot of a hoisted local. -/
def local? (l : SlotLayout) (id : LocalId) : Option SlotId :=
  slotWithRole? l.slots (.hoisted (.localVar id))

/-- The slots of the tasks awaited at a point. -/
def awaits (l : SlotLayout) (point : Nat) : List SlotId :=
  l.slots.filterMap fun s =>
    match s.role with
    | .awaited i _ => if i = point then some s.id else none
    | _ => none

end SlotLayout

/-- What a slot is to be, before it has a number. -/
structure SlotSpec where
  name : Name
  ty : Ty
  role : Role
  deriving DecidableEq, Repr

/-- The stem of the name of an awaited task, which is numbered only where a point awaits
several. -/
def awaitStem (point count operand : Nat) : String :=
  if count = 1 then s!"await{point}" else s!"await{point}_{operand}"

/-- The slots of the tasks awaited at one point, from the operand of the given number on. -/
def awaitSpecsFrom (point count : Nat) (namer : SlotNamer) :
    Nat → List Expr → List SlotSpec × SlotNamer
  | _, [] => ([], namer)
  | operand, e :: rest =>
    let (name, namer) := namer.fresh (awaitStem point count operand)
    let (specs, namer) := awaitSpecsFrom point count namer (operand + 1) rest
    (⟨name, e.ty, .awaited point operand⟩ :: specs, namer)

/-- The slots of the tasks awaited at all points. -/
def awaitSpecs (namer : SlotNamer) : List SuspensionPoint → List SlotSpec × SlotNamer
  | [] => ([], namer)
  | p :: rest =>
    let operands := p.kind.awaited
    let (here, namer) := awaitSpecsFrom p.index operands.length namer 0 operands
    let (later, namer) := awaitSpecs namer rest
    (here ++ later, namer)

/-- Slots numbered by position. -/
def numberSlots (specs : List SlotSpec) : List Slot :=
  specs.mapIdx fun id spec => ⟨id, spec.name, spec.ty, spec.role⟩

/-- The slot of a hoisted variable. -/
def Hoisted.spec (h : Hoisted) : SlotSpec := ⟨h.slotName, h.ty, .hoisted h.origin⟩

/-- The layout of a procedure, or the problem that its result cannot be stored. -/
def layOut (p : Procedure) (points : List SuspensionPoint) (hoisted : List Hoisted)
    (books : BookkeepingNames) (namer : SlotNamer) :
    Except (List Problem) SlotLayout × SlotNamer :=
  let fixed : List SlotSpec := [⟨books.state, .int, .state⟩, ⟨books.status, .int, .status⟩]
  let result : List SlotSpec :=
    if p.returnsValue then [⟨books.result, p.result, .result⟩] else []
  let (awaited, namer) := awaitSpecs namer points
  let slots := numberSlots (fixed ++ result ++ hoisted.map Hoisted.spec ++ awaited)
  if p.returnsValue && !p.result.isPersistable then
    (.error [.unpersistableSlot "<result>" (p.result.text namer.names) p.span], namer)
  else
    (.ok
      { slots, state := 0, status := 1
        result := if p.returnsValue then some 2 else none
        cancel := p.cancellation.bind fun i => slotWithRole? slots (.hoisted (.param i)) },
     namer)

end Resumable
