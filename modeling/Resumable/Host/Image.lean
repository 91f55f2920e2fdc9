import Resumable.Host.Error
import Resumable.Host.Scheduler
import Resumable.Machine.Check

/-!
# Loaded programs

An image has the machines that are loaded and the names they use. Each loaded machine has two
procedures, its entry and its dispatch, which are numbered in the order of loading.

## Main definitions

* `Image.load`: load a machine that breaks no rule and whose procedure names are not taken.
* `Image.procedure?`: the procedure of a name.
-/

namespace Resumable

/-- The two procedures of a machine. -/
inductive ProcRole where
  | entry
  | dispatch
  deriving DecidableEq, Repr

/-- A loaded machine, under the name of the procedure it was made from. -/
structure Program where
  name : String
  machine : Machine

/-- The loaded machines and the names they use. -/
structure Image where
  programs : Array Program
  names : NameTable

/-- The number of a procedure of the program at a position. -/
def procIndex (program : Nat) : ProcRole → ProcIndex
  | .entry => 2 * program
  | .dispatch => 2 * program + 1

namespace Image

/-- An image without machines. -/
def empty (names : NameTable) : Image := ⟨#[], names⟩

/-- The program and the role of a procedure. -/
def proc? (image : Image) (index : ProcIndex) : Option (Nat × Program × ProcRole) :=
  (image.programs[index / 2]?).map fun program =>
    (index / 2, program, if index % 2 = 0 then .entry else .dispatch)

/-- The procedure of a name. Where a machine has one name for both of its procedures, that is
the dispatch. -/
def procedure? (image : Image) (name : Name) : Option ProcIndex :=
  match image.programs.findIdx? fun p => p.machine.dispatch.name == name with
  | some program => some (procIndex program .dispatch)
  | none =>
    (image.programs.findIdx? fun p => p.machine.entry.name == name).map fun program =>
      procIndex program .entry

/-- The procedure whose name has the given text. -/
def resolve (image : Image) (procedure : String) : Except HostError ProcIndex :=
  match (image.names.find? procedure).bind image.procedure? with
  | some index => .ok index
  | none => .error (.unknownProcedure procedure)

/-- The first program of the given name. -/
def program (image : Image) (procedure : String) : Except HostError Nat :=
  match image.programs.findIdx? fun p => p.name == procedure with
  | some index => .ok index
  | none => .error (.unknownProcedure procedure)

/-- Load a machine. -/
def load (image : Image) (m : Machine) : Except HostError Image :=
  let name := image.names.lookup m.procedure
  let violations := m.violations
  if violations.isEmpty then
    match [m.entry.name, m.dispatch.name].find? fun n => (image.procedure? n).isSome with
    | some taken => .error (.duplicateProcedure (image.names.lookup taken))
    | none => .ok { image with programs := image.programs.push ⟨name, m⟩ }
  else .error (.invalidMachine name (violations.map Machine.Violation.text))

end Image

end Resumable
