import Resumable.Handle
import Resumable.Machine.Syntax

/-!
# List lengths

The lists of a machine are stored with a length of limited size, so a machine with a longer
list cannot be stored. `Machine.overlong?` finds the first list that is too long, inner lists
before the lists around them.
-/

namespace Resumable.Machine

mutual

/-- The lengths of the lists in an expression. -/
def Expr.listLengths : Expr → List Nat
  | .binary _ _ left right => left.listLengths ++ right.listLengths
  | .unary _ _ operand => operand.listLengths
  | .call _ _ args => listLengthsOfArgs args ++ [args.length]
  | .lambda _ body => listLengthsOf body ++ [body.length]
  | .int .. | .float .. | .bool .. | .str .. | .unit .. | .localVar .. | .param .. | .field ..
  | .slot .. | .tasksDone .. | .taskValue .. | .cancelRequested .. | .error .. | .absent => []

/-- The lengths of the lists in arguments. -/
def listLengthsOfArgs : List Expr → List Nat
  | [] => []
  | e :: rest => e.listLengths ++ listLengthsOfArgs rest

/-- The lengths of the lists in a statement. -/
def Stmt.listLengths : Stmt → List Nat
  | .expr _ e | .bind _ _ e | .assign _ _ e | .ret _ e | .finish _ _ e => e.listLengths
  | .branch _ cond onTrue onFalse =>
    cond.listLengths ++ listLengthsOf onTrue ++ [onTrue.length] ++ listLengthsOf onFalse ++
      [onFalse.length]
  | .loop _ cond body => cond.listLengths ++ listLengthsOf body ++ [body.length]
  | .schedule _ _ timing => timing.listLengths
  | .switch _ _ arms => listLengthsOfArms arms
  | .breakLoop _ | .continueLoop _ | .setState .. | .invoke .. | .returnTask _
  | .unresolved _ => []

/-- The lengths of the lists in statements, but not of the statements as a list. -/
def listLengthsOf : List Stmt → List Nat
  | [] => []
  | s :: rest => s.listLengths ++ listLengthsOf rest

/-- The lengths of the lists in arms. -/
def listLengthsOfArms : List Arm → List Nat
  | [] => []
  | .mk _ body :: rest => listLengthsOf body ++ [body.length] ++ listLengthsOfArms rest

/-- The lengths of the lists in a timing. -/
def Timing.listLengths : Timing → List Nat
  | .seconds e | .frames e => e.listLengths
  | .nextFrame | .completion .. => []

end

/-- The first list that is too long to be stored. -/
def overlong? (m : Machine) : Option Oversized :=
  let lengths := listLengthsOf m.entry.body ++ [m.entry.body.length] ++
    listLengthsOf m.dispatch.body ++ [m.dispatch.body.length]
  (lengths.find? fun n => decide (listLimit < n)).map Oversized.mk

end Resumable.Machine
