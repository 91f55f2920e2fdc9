import Resumable.Bound.Syntax
import Resumable.Handle

/-!
# Node tables

A binder may also hand over its nodes in tables, where children are given by their numbers. A
node may have several parents and may stand after its parents. `NodeTable.expr` and
`NodeTable.stmt` unfold a numbered node into its tree; a number that leads nowhere unfolds to
an error node.

Unfolding is bounded by the number of nodes: in a table without cycles no path is longer.
-/

namespace Resumable.Bound

/-- An expression whose children are numbers. -/
inductive ExprNode where
  | int (value : Int64)
  | float (bits : UInt64)
  | bool (value : Bool)
  | str (value : Name)
  | unit
  | localVar (id : LocalId)
  | param (index : Nat)
  | field (name : Name)
  | binary (op : BinaryOp) (left right : Nat)
  | unary (op : UnaryOp) (operand : Nat)
  | call (target : CallTarget) (args : List Nat)
  | lambda (body : List Nat)
  | suspend (operand : Nat)
  | error

/-- A statement whose children are numbers. -/
inductive StmtNode where
  | expr (value : Nat)
  | bind (id : LocalId) (init : Nat)
  | assign (target : Place) (value : Nat)
  | branch (cond : Nat) (onTrue onFalse : List Nat)
  | loop (cond : Nat) (body : List Nat)
  | breakLoop
  | continueLoop
  | ret (value : Nat)
  | goto (label : Name)
  | label (label : Name)
  | yield (value : Nat)

/-- Expressions and statements by number. -/
structure NodeTable where
  exprs : Array (ExprNode × ExprInfo)
  stmts : Array (StmtNode × Span)

namespace NodeTable

mutual

/-- The tree of an expression, down to a depth. -/
def exprTo (t : NodeTable) : Nat → Nat → Expr
  | 0, _ => default
  | depth + 1, id =>
    match t.exprs[id]? with
    | none => default
    | some (node, info) =>
      match node with
      | .int v => .int info v
      | .float bits => .float info bits
      | .bool v => .bool info v
      | .str n => .str info n
      | .unit => .unit info
      | .localVar l => .localVar info l
      | .param i => .param info i
      | .field n => .field info n
      | .binary op l r => .binary info op (t.exprTo depth l) (t.exprTo depth r)
      | .unary op e => .unary info op (t.exprTo depth e)
      | .call target args => .call info target (args.map (t.exprTo depth))
      | .lambda body => .lambda info (body.map (t.stmtTo depth))
      | .suspend e => .suspend info (t.exprTo depth e)
      | .error => .error info

/-- The tree of a statement, down to a depth. -/
def stmtTo (t : NodeTable) : Nat → Nat → Stmt
  | 0, _ => default
  | depth + 1, id =>
    match t.stmts[id]? with
    | none => default
    | some (node, span) =>
      match node with
      | .expr e => .expr ⟨id, span⟩ (t.exprTo depth e)
      | .bind l init =>
        if init = absentHandle then .declare ⟨id, span⟩ l
        else .bind ⟨id, span⟩ l (t.exprTo depth init)
      | .assign target value => .assign ⟨id, span⟩ target (t.exprTo depth value)
      | .branch cond onTrue onFalse =>
        .branch ⟨id, span⟩ (t.exprTo depth cond) (onTrue.map (t.stmtTo depth))
          (onFalse.map (t.stmtTo depth))
      | .loop cond body => .loop ⟨id, span⟩ (t.exprTo depth cond) (body.map (t.stmtTo depth))
      | .breakLoop => .breakLoop ⟨id, span⟩
      | .continueLoop => .continueLoop ⟨id, span⟩
      | .ret value =>
        if value = absentHandle then .leave ⟨id, span⟩ else
          .ret ⟨id, span⟩ (t.exprTo depth value)
      | .goto l => .goto ⟨id, span⟩ l
      | .label l => .label ⟨id, span⟩ l
      | .yield value => .yield ⟨id, span⟩ (t.exprTo depth value)

end

/-- The longest path in a table without cycles, and one more. -/
def depth (t : NodeTable) : Nat := t.exprs.size + t.stmts.size + 1

/-- The tree of a numbered expression. -/
def expr (t : NodeTable) (id : Nat) : Expr := t.exprTo t.depth id

/-- The tree of a numbered statement. -/
def stmt (t : NodeTable) (id : Nat) : Stmt := t.stmtTo t.depth id

end NodeTable

end Resumable.Bound
