import Resumable.Lower.Layout

/-!
# Slotted code

Bound code with its hoisted variables moved into slots. Reads and writes of a hoisted variable
become slot accesses, and the introduction of a hoisted local becomes a store. A return
outside closures ends the activation. Types and spans stay.

Suspensions and unstructured statements have no slotted form. Where a body was accepted by the
shape rules none is left between the suspension points; `strays` lists them otherwise.

## Main definitions

* `slottedExpr`, `slottedStmt`, `slottedBlock`: the code with slots.
* `exprStrays`, `stmtStrays`, `blockStrays`: what has no slotted form.
-/

namespace Resumable

namespace SlotLayout

/-- Where a place of the source is kept. -/
def place (l : SlotLayout) : Bound.Place → Machine.Place
  | .localVar id =>
    match l.local? id with
    | some slot => .slot slot
    | none => .localVar id
  | .param i =>
    match l.param? i with
    | some slot => .slot slot
    | none => .param i
  | .field name => .field name

end SlotLayout

mutual

/-- An expression with its hoisted variables in slots. -/
def slottedExpr (l : SlotLayout) : Bound.Expr → Machine.Expr
  | .int info v => .int info v
  | .float info bits => .float info bits
  | .bool info v => .bool info v
  | .str info v => .str info v
  | .unit info => .unit info
  | .localVar info id =>
    match l.local? id with
    | some slot => .slot info slot
    | none => .localVar info id
  | .param info i =>
    match l.param? i with
    | some slot => .slot info slot
    | none => .param info i
  | .field info name => .field info name
  | .binary info op left right => .binary info op (slottedExpr l left) (slottedExpr l right)
  | .unary info op operand => .unary info op (slottedExpr l operand)
  | .call info target args => .call info target (slottedArgs l args)
  | .lambda info body => .lambda info (slottedBlock l true body)
  | .suspend info _ => .error info
  | .error info => .error info

/-- Arguments with their hoisted variables in slots. -/
def slottedArgs (l : SlotLayout) : List Bound.Expr → List Machine.Expr
  | [] => []
  | e :: rest => slottedExpr l e :: slottedArgs l rest

/-- A statement with its hoisted variables in slots; none when nothing is left of it. A return
in a closure leaves the closure, any other finishes the activation. -/
def slottedStmt (l : SlotLayout) (inClosure : Bool) : Bound.Stmt → Option Machine.Stmt
  | .expr info e => some (.expr info.span (slottedExpr l e))
  | .declare info id =>
    match l.local? id with
    | some _ => none
    | none => some (.bind info.span id .absent)
  | .bind info id init =>
    match l.local? id with
    | some slot => some (.assign info.span (.slot slot) (slottedExpr l init))
    | none => some (.bind info.span id (slottedExpr l init))
  | .assign info target value =>
    some (.assign info.span (l.place target) (slottedExpr l value))
  | .branch info cond onTrue onFalse =>
    some (.branch info.span (slottedExpr l cond) (slottedBlock l inClosure onTrue)
      (slottedBlock l inClosure onFalse))
  | .loop info cond body =>
    some (.loop info.span (slottedExpr l cond) (slottedBlock l inClosure body))
  | .breakLoop info => some (.breakLoop info.span)
  | .continueLoop info => some (.continueLoop info.span)
  | .leave info =>
    if inClosure then some (.ret info.span .absent)
    else some (.finish info.span .succeeded .absent)
  | .ret info value =>
    if inClosure then some (.ret info.span (slottedExpr l value))
    else some (.finish info.span .succeeded (slottedExpr l value))
  | .goto .. | .label .. | .yield .. => none

/-- Statements with their hoisted variables in slots. -/
def slottedBlock (l : SlotLayout) (inClosure : Bool) : List Bound.Stmt → List Machine.Stmt
  | [] => []
  | s :: rest =>
    match slottedStmt l inClosure s with
    | some s' => s' :: slottedBlock l inClosure rest
    | none => slottedBlock l inClosure rest

end

/-! ### What has no slotted form -/

mutual

/-- The suspensions and unstructured statements in an expression, outermost ones only. -/
def exprStrays : Bound.Expr → List Problem
  | .suspend info _ => [.internalError "suspension outside a segment boundary" info.span]
  | .binary _ _ left right => exprStrays left ++ exprStrays right
  | .unary _ _ operand => exprStrays operand
  | .call _ _ args => argStrays args
  | .lambda _ body => blockStrays body
  | .int .. | .float .. | .bool .. | .str .. | .unit .. | .localVar .. | .param .. | .field ..
  | .error .. => []

/-- The strays in arguments. -/
def argStrays : List Bound.Expr → List Problem
  | [] => []
  | e :: rest => exprStrays e ++ argStrays rest

/-- The strays in a statement. -/
def stmtStrays : Bound.Stmt → List Problem
  | .expr _ e | .bind _ _ e | .assign _ _ e | .ret _ e => exprStrays e
  | .branch _ cond onTrue onFalse =>
    exprStrays cond ++ blockStrays onTrue ++ blockStrays onFalse
  | .loop _ cond body => exprStrays cond ++ blockStrays body
  | .declare .. | .breakLoop _ | .continueLoop _ | .leave _ => []
  | .goto info _ | .label info _ | .yield info _ =>
    [.internalError "unstructured statement reached the segmenter" info.span]

/-- The strays in statements. -/
def blockStrays : List Bound.Stmt → List Problem
  | [] => []
  | s :: rest => stmtStrays s ++ blockStrays rest

end

end Resumable
