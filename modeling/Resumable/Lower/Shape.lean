import Resumable.Bound.Syntax
import Resumable.Lower.Problem

/-!
# The shape of a procedure

Lowering cuts the top-level statements of a body at its suspensions, so a body has to be a
block in which every suspension is a whole statement: `suspend E;`, `let x = suspend E;` or
`x = suspend E;`. `shapeProblems` lists what stands in the way.

A body is first read into *findings*, in the order of the source. A finding is what a rule is
about: a jump, a break without a loop, a suspension and where it stands, a return, a yield.
The rules are then functions of the findings of each top-level statement.

## Main definitions

* `Finding`, `Stmt.findings`: what a statement contains, given the constructs around it.
* `shapeProblems`: the problems of a procedure, in order.
-/

namespace Resumable

open Resumable.Bound (Expr Stmt Procedure)

/-- What the rules on shape look at. -/
inductive Finding where
  | jump (what : Jump) (label : Name) (span : Span)
  | strayLoopControl (keyword : LoopControl) (span : Span)
  /-- A suspension in a closure, with the innermost one. -/
  | suspendInClosure (suspend closure : Span)
  /-- A suspension below an `if` or `while`, with the outermost one of its statement. -/
  | suspendInControlFlow (suspend : Span) (construct : Construct) (constructSpan : Span)
  /-- Any other suspension; `whole` tells whether it is all of its statement's value. -/
  | suspend (span : Span) (whole : Bool)
  /-- A return outside closures. -/
  | ret (span : Span)
  /-- A generator's yield outside closures. -/
  | yield (span : Span)
  deriving DecidableEq, Repr

/-- The constructs around a node of a top-level statement. -/
structure Surroundings where
  /-- The outermost `if` or `while`. -/
  control : Option (Construct × Span)
  /-- The innermost closure. -/
  closure : Option Span
  /-- Is there a loop, within the innermost closure? -/
  inLoop : Bool
  deriving DecidableEq, Repr

namespace Surroundings

/-- Directly in the body. -/
def top : Surroundings := ⟨none, none, false⟩

/-- Inside an `if`. -/
def inBranch (c : Surroundings) (span : Span) : Surroundings :=
  { c with control := c.control.or (some (.branch, span)) }

/-- Inside a `while`. -/
def inLoopBody (c : Surroundings) (span : Span) : Surroundings :=
  { c with control := c.control.or (some (.loop, span)), inLoop := true }

/-- Inside a closure. -/
def inClosure (c : Surroundings) (span : Span) : Surroundings :=
  { c with closure := some span, inLoop := false }

/-- What a suspension counts as. -/
def suspendFinding (c : Surroundings) (span : Span) (whole : Bool) : Finding :=
  match c.closure, c.control with
  | some closure, _ => .suspendInClosure span closure
  | none, some (construct, constructSpan) =>
    .suspendInControlFlow span construct constructSpan
  | none, none => .suspend span whole

/-- Break and continue need a loop. -/
def loopControlFindings (c : Surroundings) (keyword : LoopControl) (span : Span) :
    List Finding :=
  if c.inLoop then [] else [.strayLoopControl keyword span]

/-- A return counts outside closures. -/
def retFindings (c : Surroundings) (span : Span) : List Finding :=
  if c.closure.isSome then [] else [.ret span]

/-- A yield counts outside closures. -/
def yieldFindings (c : Surroundings) (span : Span) : List Finding :=
  if c.closure.isSome then [] else [.yield span]

end Surroundings

mutual

/-- The findings of an expression. `whole` tells whether it is all of its statement's
value. -/
def exprFindings (c : Surroundings) (whole : Bool) : Expr → List Finding
  | .int .. | .float .. | .bool .. | .str .. | .unit .. | .localVar .. | .param .. | .field ..
  | .error .. => []
  | .binary _ _ left right => exprFindings c false left ++ exprFindings c false right
  | .unary _ _ operand => exprFindings c false operand
  | .call _ _ args => argsFindings c args
  | .lambda info body => blockFindings (c.inClosure info.span) body
  | .suspend info operand => c.suspendFinding info.span whole :: exprFindings c false operand

/-- The findings of arguments. -/
def argsFindings (c : Surroundings) : List Expr → List Finding
  | [] => []
  | e :: rest => exprFindings c false e ++ argsFindings c rest

/-- The findings of a statement. -/
def stmtFindings (c : Surroundings) : Stmt → List Finding
  | .expr _ e => exprFindings c true e
  | .declare .. => []
  | .bind _ _ init => exprFindings c true init
  | .assign _ _ value => exprFindings c true value
  | .branch info cond onTrue onFalse =>
    let inner := c.inBranch info.span
    exprFindings inner false cond ++ blockFindings inner onTrue ++ blockFindings inner onFalse
  | .loop info cond body =>
    let inner := c.inLoopBody info.span
    exprFindings inner false cond ++ blockFindings inner body
  | .breakLoop info => c.loopControlFindings .breakLoop info.span
  | .continueLoop info => c.loopControlFindings .continueLoop info.span
  | .leave info => c.retFindings info.span
  | .ret info value => c.retFindings info.span ++ exprFindings c false value
  | .goto info label => [.jump .goto label info.span]
  | .label info label => [.jump .label label info.span]
  | .yield info value => c.yieldFindings info.span ++ exprFindings c false value

/-- The findings of a list of statements. -/
def blockFindings (c : Surroundings) : List Stmt → List Finding
  | [] => []
  | s :: rest => stmtFindings c s ++ blockFindings c rest

end

/-- The findings of a top-level statement. -/
def topFindings (s : Stmt) : List Finding := stmtFindings .top s

namespace Finding

/-- The problem that a finding is by itself. -/
def problem? (names : NameTable) : Finding → Option Problem
  | .jump what label span => some (.unstructuredJump what (names.lookup label) span)
  | .strayLoopControl keyword span => some (.strayLoopControl keyword span)
  | .suspendInClosure span closure => some (.suspendInClosure span closure)
  | .suspendInControlFlow span construct constructSpan =>
    some (.suspendInControlFlow span construct constructSpan)
  | .suspend .. | .ret _ | .yield _ => none

/-- A suspension outside closures. -/
def suspension? : Finding → Option Span
  | .suspend span _ | .suspendInControlFlow span _ _ => some span
  | _ => none

/-- A suspension outside closures, branches and loops. -/
def plainSuspension? : Finding → Option Span
  | .suspend span _ => some span
  | _ => none

/-- A suspension inside a larger expression. -/
def buried? : Finding → Option Span
  | .suspend span false => some span
  | _ => none

/-- A return outside closures. -/
def ret? : Finding → Option Span
  | .ret span => some span
  | _ => none

/-- A yield outside closures. -/
def yield? : Finding → Option Span
  | .yield span => some span
  | _ => none

end Finding

/-- The rule on how suspensions stand in one top-level statement: at most one, and that a
whole value. -/
def placementProblems (s : Stmt) (findings : List Finding) : List Problem :=
  let suspensions := findings.filterMap Finding.plainSuspension?
  if 1 < suspensions.length then [.multipleSuspends s.span suspensions.length]
  else (findings.filterMap Finding.buried?).map .buriedSuspend

/-- The problems within one top-level statement. -/
def stmtProblems (names : NameTable) (s : Stmt) : List Problem :=
  (topFindings s).filterMap (Finding.problem? names) ++ placementProblems s (topFindings s)

/-- What a body contains, with the position of the top-level statement that contains it. -/
def located (find : Finding → Option Span) (stmts : List Stmt) : List (Nat × Span) :=
  stmts.zipIdx.flatMap fun (s, position) =>
    ((topFindings s).filterMap find).map fun span => (position, span)

/-- The rule on returns: none before the statement of the last suspension. -/
def returnProblems (stmts : List Stmt) : List Problem :=
  match (located Finding.suspension? stmts).getLast? with
  | none => []
  | some (lastPosition, lastSuspend) =>
    ((located Finding.ret? stmts).filter (·.1 < lastPosition)).map fun (_, ret) =>
      .earlyReturn ret lastSuspend

/-- The rule on generators: no yield beside a suspension. -/
def generatorProblems (stmts : List Stmt) : List Problem :=
  match (located Finding.yield? stmts).head?, (located Finding.suspension? stmts).head? with
  | some (_, yieldSpan), some (_, suspend) => [.generatorMix yieldSpan suspend]
  | _, _ => []

/-- The rule on cancellation: the position names a parameter of the handle type. -/
def cancellationProblems (names : NameTable) (p : Procedure) : List Problem :=
  match p.cancellation with
  | none => []
  | some index =>
    match p.param? index with
    | some param =>
      if param.ty = .cancellation then []
      else [.cancellationParam index param.span (some (param.ty.text names))]
    | none => [.cancellationParam index p.span none]

/-- The problems of a procedure's shape, in the order they are reported. -/
def shapeProblems (names : NameTable) (p : Procedure) : List Problem :=
  cancellationProblems names p ++
    match p.body with
    | .expr e => [.expressionBody e.span]
    | .block stmts =>
      stmts.flatMap (stmtProblems names) ++ returnProblems stmts ++ generatorProblems stmts

/-- The suspension that a top-level statement consists of, apart from a target: its
information and operand. -/
def suspensionOf : Stmt → Option (ExprInfo × Expr)
  | .expr _ (.suspend info operand) | .bind _ _ (.suspend info operand)
  | .assign _ _ (.suspend info operand) => some (info, operand)
  | _ => none

end Resumable
