import Resumable.Machine.Syntax

/-!
# Counting nodes

How many statements and expressions a tree has, and how many entries its lists have together.
Nodes are numbered in the order in which they are finished, children first, so these counts
are also the numbers under which nodes are shown.
-/

namespace Resumable.Machine

/-- Numbers of nodes and of list entries. -/
structure Tally where
  exprs : Nat
  stmts : Nat
  /-- Entries of statement lists. -/
  entries : Nat
  deriving DecidableEq, Repr

namespace Tally

/-- Nothing. -/
def zero : Tally := ⟨0, 0, 0⟩

/-- Both together. -/
def add (a b : Tally) : Tally := ⟨a.exprs + b.exprs, a.stmts + b.stmts, a.entries + b.entries⟩

instance : Add Tally := ⟨add⟩

/-- One expression on top of its children. -/
def oneExpr (children : Tally) : Tally := { children with exprs := children.exprs + 1 }

/-- One statement on top of its children. -/
def oneStmt (children : Tally) : Tally := { children with stmts := children.stmts + 1 }

end Tally

mutual

/-- The tally of an expression. -/
def Expr.tally : Expr → Tally
  | .absent => .zero
  | .binary _ _ left right => (left.tally + right.tally).oneExpr
  | .unary _ _ operand => operand.tally.oneExpr
  | .call _ _ args => (tallyOfArgs args).oneExpr
  | .lambda _ body => (tallyOf body).oneExpr
  | .int .. | .float .. | .bool .. | .str .. | .unit .. | .localVar .. | .param .. | .field ..
  | .slot .. | .tasksDone .. | .taskValue .. | .cancelRequested .. | .error .. => ⟨1, 0, 0⟩

/-- The tally of arguments, without their list. -/
def tallyOfArgs : List Expr → Tally
  | [] => .zero
  | e :: rest => e.tally + tallyOfArgs rest

/-- The tally of a statement. -/
def Stmt.tally : Stmt → Tally
  | .expr _ e | .bind _ _ e | .assign _ _ e | .ret _ e | .finish _ _ e => e.tally.oneStmt
  | .branch _ cond onTrue onFalse =>
    (cond.tally + tallyOf onTrue + tallyOf onFalse).oneStmt
  | .loop _ cond body => (cond.tally + tallyOf body).oneStmt
  | .schedule _ _ timing => timing.tally.oneStmt
  | .switch _ _ arms => (tallyOfArms arms).oneStmt
  | .breakLoop _ | .continueLoop _ | .setState .. | .invoke .. | .returnTask _ => ⟨0, 1, 0⟩
  | .unresolved _ => .zero

/-- The tally of a timing. -/
def Timing.tally : Timing → Tally
  | .seconds e | .frames e => e.tally
  | .nextFrame | .completion .. => .zero

/-- A list of statements: its members, and one entry for each. -/
def tallyOf : List Stmt → Tally
  | [] => .zero
  | s :: rest => s.tally + ⟨0, 0, 1⟩ + tallyOf rest

/-- The tally of an arm. -/
def Arm.tally : Arm → Tally
  | .mk _ body => tallyOf body

/-- The tally of arms. -/
def tallyOfArms : List Arm → Tally
  | [] => .zero
  | a :: rest => a.tally + tallyOfArms rest

end

/-- Number of statements of a machine, those inside lambdas included. -/
def stmtCount (m : Machine) : Nat :=
  (tallyOf m.entry.written + tallyOf m.dispatch.written).stmts

end Resumable.Machine
