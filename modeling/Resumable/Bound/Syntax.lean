import Resumable.Signature

/-!
# Bound procedures

The trees that a binder hands to lowering: every identifier is resolved to a local, a
parameter position, a field or a callee, and every node carries its type and span. Statements
also carry the number under which the binder stored them; a body may use a statement more than
once, and then the same number occurs more than once.

## Main definitions

* `Bound.Expr`, `Bound.Stmt`: the trees.
* `Bound.Procedure`: a signature with a body.
-/

namespace Resumable.Bound

/-- The number and the span of a statement. -/
structure StmtInfo where
  id : Nat
  span : Span
  deriving DecidableEq, Repr, Inhabited

/-- A location that can be assigned. -/
inductive Place where
  | localVar (id : LocalId)
  | param (index : Nat)
  /-- A field of the instance that owns the procedure. -/
  | field (name : Name)
  deriving DecidableEq, Repr

mutual

/-- A bound expression. -/
inductive Expr where
  | int (info : ExprInfo) (value : Int64)
  /-- A float literal, as the bits of the number. -/
  | float (info : ExprInfo) (bits : UInt64)
  | bool (info : ExprInfo) (value : Bool)
  | str (info : ExprInfo) (value : Name)
  | unit (info : ExprInfo)
  | localVar (info : ExprInfo) (id : LocalId)
  | param (info : ExprInfo) (index : Nat)
  | field (info : ExprInfo) (name : Name)
  | binary (info : ExprInfo) (op : BinaryOp) (left right : Expr)
  | unary (info : ExprInfo) (op : UnaryOp) (operand : Expr)
  | call (info : ExprInfo) (target : CallTarget) (args : List Expr)
  /-- An anonymous procedure. -/
  | lambda (info : ExprInfo) (body : List Stmt)
  /-- Pause here and resume when the operand completes. -/
  | suspend (info : ExprInfo) (operand : Expr)
  /-- What a binder leaves behind after an error it has reported. -/
  | error (info : ExprInfo)

/-- A bound statement. -/
inductive Stmt where
  | expr (info : StmtInfo) (value : Expr)
  /-- Introduction of a local without a value. -/
  | declare (info : StmtInfo) (id : LocalId)
  /-- Introduction of a local with its first value. -/
  | bind (info : StmtInfo) (id : LocalId) (init : Expr)
  | assign (info : StmtInfo) (target : Place) (value : Expr)
  | branch (info : StmtInfo) (cond : Expr) (onTrue onFalse : List Stmt)
  | loop (info : StmtInfo) (cond : Expr) (body : List Stmt)
  | breakLoop (info : StmtInfo)
  | continueLoop (info : StmtInfo)
  /-- Return without a value. -/
  | leave (info : StmtInfo)
  | ret (info : StmtInfo) (value : Expr)
  | goto (info : StmtInfo) (label : Name)
  | label (info : StmtInfo) (label : Name)
  /-- A generator's `yield return`. -/
  | yield (info : StmtInfo) (value : Expr)

end

/-- The type and span of an expression. -/
def Expr.info : Expr → ExprInfo
  | .int i _ | .float i _ | .bool i _ | .str i _ | .unit i | .localVar i _ | .param i _
  | .field i _ | .binary i _ _ _ | .unary i _ _ | .call i _ _ | .lambda i _ | .suspend i _
  | .error i => i

/-- The static type of an expression. -/
def Expr.ty (e : Expr) : Ty := e.info.ty

/-- The span of an expression. -/
def Expr.span (e : Expr) : Span := e.info.span

/-- The number and span of a statement. -/
def Stmt.info : Stmt → StmtInfo
  | .expr i _ | .declare i _ | .bind i _ _ | .assign i _ _ | .branch i _ _ _ | .loop i _ _
  | .breakLoop i | .continueLoop i | .leave i | .ret i _ | .goto i
      _ | .label i _ | .yield i _ => i

/-- The number of a statement. -/
def Stmt.id (s : Stmt) : Nat := s.info.id

/-- The span of a statement. -/
def Stmt.span (s : Stmt) : Span := s.info.span

instance : Inhabited Expr := ⟨.error default⟩

instance : Inhabited Stmt := ⟨.expr default default⟩

/-- The body of a procedure: a block of statements or one expression. -/
inductive Body where
  | block (stmts : List Stmt)
  | expr (value : Expr)

/-- A bound procedure that may suspend. -/
structure Procedure where
  name : Name
  params : List Param
  locals : List LocalDecl
  /-- The type of the value it completes with. -/
  result : Ty
  /-- Position of the cancellation handle, if there is one. -/
  cancellation : Option Nat
  body : Body
  span : Span

namespace Procedure

/-- Does completion carry a value? -/
def returnsValue (p : Procedure) : Bool := p.result != .unit

/-- Does the procedure take a cancellation handle? -/
def acceptsCancellation (p : Procedure) : Bool := p.cancellation.isSome

/-- The parameter at a position. -/
def param? (p : Procedure) (index : Nat) : Option Param := p.params[index]?

/-- The declaration of a local, by position. -/
def local? (p : Procedure) (id : LocalId) : Option LocalDecl := p.locals[id]?

/-- The statements of a block body; none for an expression body. -/
def stmts (p : Procedure) : List Stmt :=
  match p.body with
  | .block stmts => stmts
  | .expr _ => []

end Procedure

end Resumable.Bound
