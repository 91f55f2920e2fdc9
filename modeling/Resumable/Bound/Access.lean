import Resumable.Bound.Syntax

/-!
# Accesses in evaluation order

The hoisting analyses look at a body as the sequence of what it does to its variables, in the
order in which evaluation meets them: a `let` introduces its local before its first value is
computed, an assignment computes the value before it writes, and the body of a lambda counts
where it stands.

## Main definitions

* `Bound.Access`: one event.
* `Bound.Expr.accesses`, `Bound.Stmt.accesses`, `Bound.accessesOf`: the events of a tree.
-/

namespace Resumable.Bound

/-- What evaluation does to a variable, or that it suspends. -/
inductive Access where
  | declare (id : LocalId)
  | readLocal (id : LocalId)
  | writeLocal (id : LocalId)
  | readParam (index : Nat)
  | writeParam (index : Nat)
  | suspend
  deriving DecidableEq, Repr

namespace Access

/-- The local that is read or written, but not one that is introduced. -/
def referenced? : Access → Option LocalId
  | .readLocal id | .writeLocal id => some id
  | _ => none

/-- The local that is read. -/
def read? : Access → Option LocalId
  | .readLocal id => some id
  | _ => none

/-- The local that is introduced. -/
def declared? : Access → Option LocalId
  | .declare id => some id
  | _ => none

/-- The parameter that is read or written. -/
def param? : Access → Option Nat
  | .readParam i | .writeParam i => some i
  | _ => none

end Access

/-- Writing to a place, where that is a variable of the procedure. -/
def Place.accesses : Place → List Access
  | .localVar id => [.writeLocal id]
  | .param i => [.writeParam i]
  | .field _ => []

mutual

/-- The accesses of an expression. -/
def Expr.accesses : Expr → List Access
  | .int .. | .float .. | .bool .. | .str .. | .unit .. | .field .. | .error .. => []
  | .localVar _ id => [.readLocal id]
  | .param _ i => [.readParam i]
  | .binary _ _ left right => left.accesses ++ right.accesses
  | .unary _ _ operand => operand.accesses
  | .call _ _ args => accessesOfArgs args
  | .lambda _ body => accessesOf body
  | .suspend _ operand => .suspend :: operand.accesses

/-- The accesses of a list of expressions. -/
def accessesOfArgs : List Expr → List Access
  | [] => []
  | e :: rest => e.accesses ++ accessesOfArgs rest

/-- The accesses of a statement. -/
def Stmt.accesses : Stmt → List Access
  | .expr _ e | .ret _ e | .yield _ e => e.accesses
  | .declare _ id => [.declare id]
  | .bind _ id init => .declare id :: init.accesses
  | .assign _ target value => value.accesses ++ target.accesses
  | .branch _ cond onTrue onFalse => cond.accesses ++ accessesOf onTrue ++ accessesOf onFalse
  | .loop _ cond body => cond.accesses ++ accessesOf body
  | .breakLoop _ | .continueLoop _ | .leave _ | .goto .. | .label .. => []

/-- The accesses of a list of statements. -/
def accessesOf : List Stmt → List Access
  | [] => []
  | s :: rest => s.accesses ++ accessesOf rest

end

end Resumable.Bound
