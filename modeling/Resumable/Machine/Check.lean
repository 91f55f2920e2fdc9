import Resumable.Handle
import Resumable.Machine.Numbering

/-!
# Checking machines

`Machine.violations` lists every rule that a machine breaks, in a fixed order: the slot table,
the entry, the dispatch.

* Slots are numbered by position, and every slot that is named exists.
* The entry starts at state zero and hands back its task.
* The dispatch has a switch on the state slot with one arm per state, in order.
* An arm that is not the last advances the state by one, makes one request and returns.
* The last arm finishes.
* Requests and calls of the dispatch name the machine's own dispatch.
* Expressions and statements that are required are there.
-/

namespace Resumable.Machine

/-- A rule that a machine breaks. -/
inductive Violation where
  /-- A slot whose number is not its position. -/
  | slotNumber (position id : Nat)
  /-- A slot that does not exist. -/
  | slotRange (slot count : Nat)
  /-- The entry does not start at state zero. The statement found is the one where it is
  written. -/
  | entryStart (found : Option Located)
  /-- The entry does not hand back its task. -/
  | entryEnd (found : Option Located)
  | noSwitch
  /-- The dispatch switches on another slot than the state. -/
  | switchSlot (slot : SlotId)
  | armCount (arms states : Nat)
  /-- An arm that stands at another position than its state. -/
  | armValue (position value : Nat)
  | terminalArm (state : Nat)
  | armEnd (state : Nat)
  | armRequests (state count : Nat)
  | unresolvedStmt (number : Nat)
  | foreignSchedule (target : Name)
  | foreignInvoke (target : Name)
  | missingExpr

/-! ### Statements as shown in violations -/

/-- An expression by its number, given what stands before it. -/
def exprNumberText (before : Tally) (e : Expr) : String :=
  HandleKind.machineExpr.text
    (if e.isAbsent then absentHandle else before.exprs + e.tally.exprs - 1)

/-- A list of statements by its range, given what stands before it. -/
def rangeText (before : Tally) (body : List Stmt) : String :=
  ListRange.text ⟨before.entries + (tallyOf body).entries - body.length, body.length⟩
    "MachStmtRange"

/-- Slots as shown in violations. -/
def slotHandles (slots : List SlotId) : String :=
  "[" ++ ", ".intercalate (slots.map HandleKind.slot.text) ++ "]"

/-- A callee as shown in violations. -/
def targetText (target : Name) : String :=
  s!"DispatchTarget \x7b procedure: {target.text} \x7d"

/-- A join mode as shown in violations. -/
def modeText : JoinMode → String
  | .all => "All"
  | .any => "Any"

/-- A status as shown in violations. -/
def TaskStatus.text : TaskStatus → String
  | .running => "Running"
  | .succeeded => "Succeeded"
  | .cancelled => "Cancelled"

/-- A place as shown in violations. -/
def Place.handleText : Place → String
  | .localVar id => s!"Local({HandleKind.localVar.text id})"
  | .param i => s!"Param({i})"
  | .field name => s!"Field({name.text})"
  | .slot id => s!"Slot({HandleKind.slot.text id})"

/-- A timing as shown in violations. -/
def Timing.headText (before : Tally) : Timing → String
  | .seconds e => s!"Seconds({exprNumberText before e})"
  | .frames e => s!"Frames({exprNumberText before e})"
  | .nextFrame => "NextFrame"
  | .completion tasks mode =>
    s!"Completion \x7b tasks: {slotHandles tasks}, mode: {modeText mode} \x7d"

/-- The arms of a switch as shown in violations. -/
def armsText (before : Tally) : List Arm → List String
  | [] => []
  | .mk value body :: rest =>
    s!"SwitchArm \x7b value: {value}, body: {rangeText before body} \x7d" ::
      armsText (before + tallyOf body) rest

/-- A statement as shown in violations: its kind, with children by number. -/
def Stmt.headText (before : Tally) : Stmt → String
  | .expr _ e => s!"Expr({exprNumberText before e})"
  | .bind _ id init =>
    s!"Let \x7b local: {HandleKind.localVar.text id}, init: {exprNumberText before init} \x7d"
  | .assign _ target value =>
    s!"Assign \x7b target: {target.handleText}, value: {exprNumberText before value} \x7d"
  | .branch _ cond onTrue onFalse =>
    let afterCond := before + cond.tally
    let afterTrue := afterCond + tallyOf onTrue
    s!"If \x7b cond: {exprNumberText before cond}, then_branch: {rangeText afterCond onTrue}, " ++
      s!"else_branch: {rangeText afterTrue onFalse} \x7d"
  | .loop _ cond body =>
    let afterCond := before + cond.tally
    s!"While \x7b cond: {exprNumberText before cond}, body: {rangeText afterCond body} \x7d"
  | .breakLoop _ => "Break"
  | .continueLoop _ => "Continue"
  | .ret _ value => s!"Return({exprNumberText before value})"
  | .setState _ state => s!"SetState({state})"
  | .schedule _ target timing =>
    s!"Schedule \x7b target: {targetText target}, timing: {timing.headText before} \x7d"
  | .invoke _ target => s!"Invoke({targetText target})"
  | .finish _ status value =>
    s!"Finish \x7b status: {status.text}, value: {exprNumberText before value} \x7d"
  | .returnTask _ => "ReturnTask"
  | .switch _ scrutinee arms =>
    let shown := ", ".intercalate (armsText before arms)
    s!"Switch \x7b scrutinee: {HandleKind.slot.text scrutinee}, arms: [{shown}] \x7d"
  | .unresolved number => HandleKind.machineStmt.text number

/-- A statement that may be missing, as shown in violations. -/
def foundText : Option Located → String
  | none => "None"
  | some s => s!"Some({s.stmt.headText s.before})"

namespace Violation

/-- The violation as reported. -/
def text : Violation → String
  | .slotNumber position id => s!"slot at {position} has id {HandleKind.slot.text id}"
  | .slotRange slot count => s!"{HandleKind.slot.text slot} out of bounds ({count} slots)"
  | .entryStart found => s!"entry must start with SetState(0), found {foundText found}"
  | .entryEnd found => s!"entry must end with ReturnTask, found {foundText found}"
  | .noSwitch => "dispatch has no state switch"
  | .switchSlot slot =>
    s!"dispatch switches on {HandleKind.slot.text slot}, not the state slot"
  | .armCount arms states => s!"{arms} arms for {states} states"
  | .armValue position value => s!"arm {position} matches state {value}"
  | .terminalArm state => s!"terminal arm {state} does not finish"
  | .armEnd state => s!"arm {state} must end with SetState({state + 1}), Schedule, Return"
  | .armRequests state count => s!"arm {state} issues {count} schedule requests"
  | .unresolvedStmt number => s!"{HandleKind.machineStmt.text number} out of bounds"
  | .foreignSchedule target => s!"schedule targets {targetText target}, not own dispatch"
  | .foreignInvoke target => s!"entry invokes {targetText target}, not own dispatch"
  | .missingExpr => "missing expression"

end Violation

/-! ### Walking the code -/

/-- What references are checked against: the number of slots and the dispatch. -/
structure Scope where
  slotCount : Nat
  dispatch : Name

namespace Scope

/-- A slot has to exist. -/
def slotRef (scope : Scope) (slot : SlotId) : List Violation :=
  if slot < scope.slotCount then [] else [.slotRange slot scope.slotCount]

/-- Slots have to exist. -/
def slotRefs (scope : Scope) (slots : List SlotId) : List Violation :=
  slots.flatMap scope.slotRef

/-- A slot that is assigned has to exist. -/
def placeRef (scope : Scope) : Place → List Violation
  | .slot id => scope.slotRef id
  | .localVar _ | .param _ | .field _ => []

mutual

/-- The violations in an expression that has to be there. -/
def expr (scope : Scope) : Expr → List Violation
  | .absent => [.missingExpr]
  | .slot _ id | .cancelRequested _ id => scope.slotRef id
  | .tasksDone _ tasks _ | .taskValue _ tasks _ => scope.slotRefs tasks
  | .binary _ _ left right => scope.expr left ++ scope.expr right
  | .unary _ _ operand => scope.expr operand
  | .call _ _ args => scope.args args
  | .lambda _ body => scope.block body
  | .int .. | .float .. | .bool .. | .str .. | .unit .. | .localVar .. | .param .. | .field ..
  | .error .. => []

/-- The violations in arguments. -/
def args (scope : Scope) : List Expr → List Violation
  | [] => []
  | e :: rest => scope.expr e ++ scope.args rest

/-- The violations in a statement. -/
def stmt (scope : Scope) : Stmt → List Violation
  | .expr _ e => scope.expr e
  | .bind _ _ init => if init.isAbsent then [] else scope.expr init
  | .assign _ target value => scope.placeRef target ++ scope.expr value
  | .branch _ cond onTrue onFalse =>
    scope.expr cond ++ scope.block onTrue ++ scope.block onFalse
  | .loop _ cond body => scope.expr cond ++ scope.block body
  | .ret _ value | .finish _ _ value => if value.isAbsent then [] else scope.expr value
  | .schedule _ target timing =>
    (if target = scope.dispatch then [] else [.foreignSchedule target]) ++ scope.timing timing
  | .invoke _ target => if target = scope.dispatch then [] else [.foreignInvoke target]
  | .switch _ scrutinee arms => scope.slotRef scrutinee ++ scope.arms arms
  | .breakLoop _ | .continueLoop _ | .setState .. | .returnTask _ => []
  | .unresolved number => [.unresolvedStmt number]

/-- The violations in a timing. -/
def timing (scope : Scope) : Timing → List Violation
  | .seconds e | .frames e => scope.expr e
  | .nextFrame => []
  | .completion tasks _ => scope.slotRefs tasks

/-- The violations in a list of statements. -/
def block (scope : Scope) : List Stmt → List Violation
  | [] => []
  | s :: rest => scope.stmt s ++ scope.block rest

/-- The violations in a list of arms. -/
def arms (scope : Scope) : List Arm → List Violation
  | [] => []
  | .mk _ body :: rest => scope.block body ++ scope.arms rest

end

end Scope

/-! ### The rules of a machine -/

/-- What the references of a machine are checked against. -/
def scope (m : Machine) : Scope := ⟨m.slots.length, m.dispatch.name⟩

/-- Slots are numbered by position, starting at `position`. -/
def slotNumbering : Nat → List Slot → List Violation
  | _, [] => []
  | position, slot :: rest =>
    (if slot.id = position then [] else [.slotNumber position slot.id]) ++
      slotNumbering (position + 1) rest

/-- The violations of the slot table. -/
def slotViolations (m : Machine) : List Violation :=
  slotNumbering 0 m.slots ++
    m.scope.slotRefs
      ([m.stateSlot, m.statusSlot] ++ m.resultSlot.toList ++ m.cancelSlot.toList)

/-- The tally of statements before they are entries of a list. -/
def tallyOfLoose (stmts : List Stmt) : Tally := stmts.foldl (fun t s => t + s.tally) .zero

/-- The first statement of the entry, where it is written. -/
def firstOfEntry (m : Machine) : Option Located :=
  m.entry.written.head?.map fun s => m.whereWritten ⟨s, .zero⟩

/-- The last statement of the entry, where it is written. -/
def lastOfEntry (m : Machine) : Option Located :=
  m.entry.written.getLast?.map fun s =>
    m.whereWritten ⟨s, tallyOfLoose m.entry.written.dropLast⟩

/-- The violations of the entry. -/
def entryViolations (m : Machine) : List Violation :=
  (match m.entry.body.head? with
    | some (.setState _ 0) => []
    | _ => [.entryStart m.firstOfEntry]) ++
  (match m.entry.body.getLast? with
    | some (.returnTask _) => []
    | _ => [.entryEnd m.lastOfEntry]) ++
  m.scope.block m.entry.body

/-- Is this a request? -/
def Stmt.isSchedule : Stmt → Bool
  | .schedule .. => true
  | _ => false

/-- Is this a finish? -/
def Stmt.isFinish : Stmt → Bool
  | .finish .. => true
  | _ => false

/-- Does the body end by advancing to `next`, making a request and returning? -/
def advancesTo (next : Nat) (body : List Stmt) : Bool :=
  match body.reverse with
  | .ret .. :: .schedule .. :: .setState _ state :: _ => state == next
  | _ => false

/-- The violations of an arm that is not the last. -/
def innerArmViolations (state : Nat) (body : List Stmt) : List Violation :=
  (if advancesTo (state + 1) body then [] else [.armEnd state]) ++
    (if body.countP Stmt.isSchedule = 1 then []
     else [.armRequests state (body.countP Stmt.isSchedule)])

/-- The violations of the last arm. -/
def lastArmViolations (state : Nat) (body : List Stmt) : List Violation :=
  match body.getLast? with
  | some s => if s.isFinish then [] else [.terminalArm state]
  | none => [.terminalArm state]

/-- The violations of the arms from a position on, for a given last state. -/
def armViolations (lastState : Nat) : Nat → List Arm → List Violation
  | _, [] => []
  | position, .mk value body :: rest =>
    (if value = position then [] else [.armValue position value]) ++
      (if value = lastState then lastArmViolations value body
       else innerArmViolations value body) ++
      armViolations lastState (position + 1) rest

/-- The first switch of a body. -/
def firstSwitch : List Stmt → Option (SlotId × List Arm)
  | [] => none
  | .switch _ scrutinee arms :: _ => some (scrutinee, arms)
  | _ :: rest => firstSwitch rest

/-- The violations of the dispatch. -/
def dispatchViolations (m : Machine) : List Violation :=
  m.scope.block m.dispatch.body ++
    match firstSwitch m.dispatch.body with
    | none => [.noSwitch]
    | some (scrutinee, arms) =>
      (if scrutinee = m.stateSlot then [] else [.switchSlot scrutinee]) ++
      (if arms.length = m.stateCount then [] else [.armCount arms.length m.stateCount]) ++
      armViolations (m.stateCount - 1) 0 arms

/-- Every rule the machine breaks. -/
def violations (m : Machine) : List Violation :=
  m.slotViolations ++ m.entryViolations ++ m.dispatchViolations

end Resumable.Machine
