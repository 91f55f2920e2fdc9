/-!
# Handles and list ranges

Nodes, locals and slots are numbered by 32-bit handles; the largest number stands for an
absent node. Lists of handles are stored as ranges whose length has sixteen bits.

## Main definitions

* `HandleKind.text`: a handle as shown in messages.
* `ListRange.allocate`: the range of a new list, or the failure when the list is too long.
-/

namespace Resumable

/-- What a handle numbers. -/
inductive HandleKind where
  | expr
  | stmt
  | localVar
  | machineExpr
  | machineStmt
  | slot
  deriving DecidableEq, Repr

/-- The number that stands for an absent node. -/
def absentHandle : Nat := 4294967295

namespace HandleKind

/-- The word that introduces a handle of this kind. -/
def label : HandleKind → String
  | .expr => "ExprId"
  | .stmt => "StmtId"
  | .localVar => "LocalId"
  | .machineExpr => "MachExprId"
  | .machineStmt => "MachStmtId"
  | .slot => "SlotId"

/-- A handle as shown in messages. -/
def text (kind : HandleKind) (raw : Nat) : String :=
  if raw = absentHandle then kind.label ++ "::INVALID"
  else s!"{kind.label}({raw})"

end HandleKind

/-- The longest list that can be stored. -/
def listLimit : Nat := 65535

/-- A list that is too long to be stored. -/
structure Oversized where
  length : Nat
  deriving DecidableEq, Repr

/-- What is reported about a list that is too long. -/
def Oversized.message (o : Oversized) : String :=
  s!"list of {o.length} entries exceeds u16::MAX"

/-- Refuses a list that is too long to be stored. -/
def checkLength {α : Type} (list : List α) : Except Oversized Unit :=
  if list.length ≤ listLimit then .ok () else .error ⟨list.length⟩

/-- A stored list: where it starts and how long it is. -/
structure ListRange where
  start : Nat
  length : Nat
  deriving DecidableEq, Repr

namespace ListRange

/-- The range of a list of the given length, stored after `start` entries. -/
def allocate (start length : Nat) : Except Oversized ListRange :=
  if length ≤ listLimit then .ok ⟨start, length⟩ else .error ⟨length⟩

/-- Does the range hold no entry? -/
def isEmpty (r : ListRange) : Bool := r.length == 0

/-- A range as shown in messages, after the word for what it lists. -/
def text (r : ListRange) (label : String) : String :=
  s!"{label}({r.start}..{r.start + r.length})"

end ListRange

end Resumable
