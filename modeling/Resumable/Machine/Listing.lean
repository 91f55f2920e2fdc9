import Resumable.Listing
import Resumable.Machine.Syntax

/-!
# Listings of machines

One line per node in preorder. Branches, loop bodies and arms are introduced by a line of
their own at the depth of the statement and stand one deeper. An absent expression has no
line.
-/

namespace Resumable.Machine

/-- A place in a listing. -/
def Place.text (names : NameTable) : Place → String
  | .localVar id => s!"local {id}"
  | .param i => s!"param {i}"
  | .field name => "field " ++ names.lookup name
  | .slot id => s!"slot {id}"

mutual

/-- The lines of an expression. -/
def Expr.listing (names : NameTable) (depth : Nat) : Expr → List Line
  | .int i v => [⟨depth, s!"int {v.toInt}" ++ i.text names⟩]
  | .float i bits => [⟨depth, "float " ++ bitsText bits ++ i.text names⟩]
  | .bool i v => [⟨depth, s!"bool {v}" ++ i.text names⟩]
  | .str i s => [⟨depth, "str " ++ names.lookup s ++ i.text names⟩]
  | .unit i => [⟨depth, "unit" ++ i.text names⟩]
  | .localVar i id => [⟨depth, s!"local {id}" ++ i.text names⟩]
  | .param i p => [⟨depth, s!"param {p}" ++ i.text names⟩]
  | .field i name => [⟨depth, "field " ++ names.lookup name ++ i.text names⟩]
  | .slot i id => [⟨depth, s!"slot {id}" ++ i.text names⟩]
  | .binary i op left right =>
    ⟨depth, "bin " ++ op.word ++ i.text names⟩ ::
      (left.listing names (depth + 1) ++ right.listing names (depth + 1))
  | .unary i op operand =>
    ⟨depth, "un " ++ op.word ++ i.text names⟩ :: operand.listing names (depth + 1)
  | .call i target args =>
    ⟨depth, s!"call {target.text names} {args.length}" ++ i.text names⟩ ::
      listingOfArgs names (depth + 1) args
  | .lambda i body =>
    ⟨depth, s!"lambda {body.length}" ++ i.text names⟩ :: listingOf names (depth + 1) body
  | .tasksDone i tasks mode =>
    [⟨depth, s!"tasks_done {mode.word} {slotList tasks}" ++ i.text names⟩]
  | .taskValue i tasks mode =>
    [⟨depth, s!"task_value {mode.word} {slotList tasks}" ++ i.text names⟩]
  | .cancelRequested i slot => [⟨depth, s!"cancel_requested {slot}" ++ i.text names⟩]
  | .error i => [⟨depth, "error" ++ i.text names⟩]
  | .absent => []

/-- The lines of a list of expressions. -/
def listingOfArgs (names : NameTable) (depth : Nat) : List Expr → List Line
  | [] => []
  | e :: rest => e.listing names depth ++ listingOfArgs names depth rest

/-- The lines of a statement. -/
def Stmt.listing (names : NameTable) (depth : Nat) : Stmt → List Line
  | .expr span e => ⟨depth, "expr @" ++ span.text⟩ :: e.listing names (depth + 1)
  | .bind span id init => ⟨depth, s!"let {id} @{span.text}"⟩ :: init.listing names (depth + 1)
  | .assign span target value =>
    ⟨depth, s!"assign {target.text names} @{span.text}"⟩ :: value.listing names (depth + 1)
  | .branch span cond onTrue onFalse =>
    ⟨depth, "if @" ++ span.text⟩ ::
      (cond.listing names (depth + 1) ++ ⟨depth, "then"⟩ ::
        listingOf names (depth + 1) onTrue ++
        ⟨depth, "else"⟩ :: listingOf names (depth + 1) onFalse)
  | .loop span cond body =>
    ⟨depth, "while @" ++ span.text⟩ ::
      (cond.listing names (depth + 1) ++ ⟨depth, "do"⟩ :: listingOf names (depth + 1) body)
  | .breakLoop span => [⟨depth, "break @" ++ span.text⟩]
  | .continueLoop span => [⟨depth, "continue @" ++ span.text⟩]
  | .ret span value => ⟨depth, "return @" ++ span.text⟩ :: value.listing names (depth + 1)
  | .setState span state => [⟨depth, s!"set_state {state} @{span.text}"⟩]
  | .schedule span target timing => timing.listing names depth span target
  | .invoke span target => [⟨depth, s!"invoke {names.lookup target} @{span.text}"⟩]
  | .finish span status value =>
    ⟨depth, s!"finish {status.word} @{span.text}"⟩ :: value.listing names (depth + 1)
  | .returnTask span => [⟨depth, "return_task @" ++ span.text⟩]
  | .switch span scrutinee arms =>
    ⟨depth, s!"switch slot {scrutinee} @{span.text}"⟩ :: listingOfArms names depth arms
  | .unresolved number => [⟨depth, s!"unresolved {number}"⟩]

/-- The lines of a schedule statement. -/
def Timing.listing (names : NameTable) (depth : Nat) (span : Span) (target : Name) :
    Timing → List Line
  | .seconds e =>
    ⟨depth, s!"schedule {names.lookup target} seconds @{span.text}"⟩ ::
      e.listing names (depth + 1)
  | .frames e =>
    ⟨depth, s!"schedule {names.lookup target} frames @{span.text}"⟩ ::
      e.listing names (depth + 1)
  | .nextFrame => [⟨depth, s!"schedule {names.lookup target} next_frame @{span.text}"⟩]
  | .completion tasks mode =>
    [⟨depth,
      s!"schedule {names.lookup target} completion {mode.word} {slotList tasks} @{span.text}"⟩]

/-- The lines of a list of statements. -/
def listingOf (names : NameTable) (depth : Nat) : List Stmt → List Line
  | [] => []
  | s :: rest => s.listing names depth ++ listingOf names depth rest

/-- The lines of an arm, after the line of its state. -/
def Arm.listing (names : NameTable) (depth : Nat) : Arm → List Line
  | .mk value body => ⟨depth, s!"case {value}"⟩ :: listingOf names (depth + 1) body

/-- The lines of a list of arms. -/
def listingOfArms (names : NameTable) (depth : Nat) : List Arm → List Line
  | [] => []
  | a :: rest => a.listing names depth ++ listingOfArms names depth rest

end

/-- A hoisted variable in listings. -/
def Origin.text : Origin → String
  | .param i => s!"param {i}"
  | .localVar id => s!"local {id}"

/-- What a slot is for, in listings. -/
def Role.text : Role → String
  | .state => "state"
  | .status => "status"
  | .result => "result"
  | .hoisted origin => "hoisted " ++ origin.text
  | .awaited point operand => s!"awaited {point} {operand}"

end Resumable.Machine
