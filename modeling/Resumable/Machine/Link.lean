import Resumable.Machine.Numbering

/-!
# Linking statements by number

A machine given by hand may name a statement by its number instead of writing it out.
`Machine.link` puts the named statements in place in the bodies that run, and leaves the
bodies as written. Numbers of no statement stay unresolved.
-/

namespace Resumable.Machine

mutual

/-- An expression with the references inside it resolved. -/
def Expr.resolve (find : Nat → Stmt) : Expr → Expr
  | .binary i op left right => .binary i op (left.resolve find) (right.resolve find)
  | .unary i op operand => .unary i op (operand.resolve find)
  | .call i target args => .call i target (resolveArgs find args)
  | .lambda i body => .lambda i (resolveBlock find body)
  | e => e

/-- Arguments with the references inside them resolved. -/
def resolveArgs (find : Nat → Stmt) : List Expr → List Expr
  | [] => []
  | e :: rest => e.resolve find :: resolveArgs find rest

/-- A statement with the references inside it resolved. -/
def Stmt.resolve (find : Nat → Stmt) : Stmt → Stmt
  | .expr span e => .expr span (e.resolve find)
  | .bind span id init => .bind span id (init.resolve find)
  | .assign span target value => .assign span target (value.resolve find)
  | .branch span cond onTrue onFalse =>
    .branch span (cond.resolve find) (resolveBlock find onTrue) (resolveBlock find onFalse)
  | .loop span cond body => .loop span (cond.resolve find) (resolveBlock find body)
  | .ret span value => .ret span (value.resolve find)
  | .schedule span target timing => .schedule span target (timing.resolve find)
  | .finish span status value => .finish span status (value.resolve find)
  | .switch span scrutinee arms => .switch span scrutinee (resolveArms find arms)
  | .unresolved number => find number
  | s => s

/-- A timing with the references inside it resolved. -/
def Timing.resolve (find : Nat → Stmt) : Timing → Timing
  | .seconds e => .seconds (e.resolve find)
  | .frames e => .frames (e.resolve find)
  | t => t

/-- Statements with the references among and inside them resolved. -/
def resolveBlock (find : Nat → Stmt) : List Stmt → List Stmt
  | [] => []
  | s :: rest => s.resolve find :: resolveBlock find rest

/-- Arms with the references inside them resolved. -/
def resolveArms (find : Nat → Stmt) : List Arm → List Arm
  | [] => []
  | .mk value body :: rest => .mk value (resolveBlock find body) :: resolveArms find rest

end

/-- The numbered statements after some rounds of resolving: each round follows references one
step further. -/
def resolvedPool (pool : Array Stmt) : Nat → Nat → Stmt
  | 0, number => (pool[number]?).getD (.unresolved number)
  | rounds + 1, number =>
    match pool[number]? with
    | some s => s.resolve (resolvedPool pool rounds)
    | none => .unresolved number

/-- The machine with every statement that is named by number put in place. -/
def link (m : Machine) : Machine :=
  let pool := (m.located.map Located.stmt).toArray
  let find := resolvedPool pool pool.size
  { m with
    entry := { m.entry with body := resolveBlock find m.entry.written }
    dispatch := { m.dispatch with body := resolveBlock find m.dispatch.written } }

end Resumable.Machine
