import Resumable.Bound.Syntax
import Resumable.Handle

/-!
# Building bound procedures

A `Builder` makes a bound procedure node by node, without source text. Spans come from a
cursor: every node that stands for a piece of text of its own takes the next unit of offsets,
and every other node covers its children. So nodes that are built in source order get spans in
source order.

## Main definitions

* `Bound.Pool`: what the procedures of one program share, the names and the numbers of nodes
  made.
* `Bound.Builder`: the procedure under construction.
* `Bound.Build`: computations that make nodes; a list that is too long to be stored ends them.
-/

namespace Resumable.Bound

/-- What the procedures of one program share while they are built. -/
structure Pool where
  names : NameTable
  exprCount : Nat
  stmtCount : Nat
  deriving Inhabited

/-- A pool in which nothing has been built. -/
def Pool.empty : Pool := ⟨.empty, 0, 0⟩

/-- A procedure under construction. -/
structure Builder where
  pool : Pool
  name : Name
  params : Array Param
  locals : Array LocalDecl
  result : Ty
  cancellation : Option Nat
  /-- Where the next piece of text starts. -/
  cursor : Nat

/-- Computations that make nodes. -/
abbrev Build := StateT Builder (Except Oversized)

/-- Start a procedure of the given name. -/
def Builder.start (pool : Pool) (name : String) : Builder :=
  let (n, names) := pool.names.intern name
  { pool := { pool with names }, name := n, params := #[], locals := #[], result := .unit,
    cancellation := none, cursor := 0 }

namespace Build

/-! ### Names, spans and numbers -/

/-- The name of a string. -/
def intern (s : String) : Build Name := fun b =>
  let (n, names) := b.pool.names.intern s
  .ok (n, { b with pool := { b.pool with names } })

/-- Continue with spans from `offset` on. -/
def atOffset (offset : Nat) : Build Unit := modify fun b => { b with cursor := offset }

/-- The span of the next piece of text. -/
def nextSpan : Build Span := fun b =>
  .ok (⟨b.cursor, b.cursor + 1⟩, { b with cursor := b.cursor + 2 })

/-- Store an expression. -/
def storeExpr (make : ExprInfo → Expr) (ty : Ty) (span : Span) : Build Expr := fun b =>
  .ok (make ⟨ty, span⟩, { b with pool := { b.pool with exprCount := b.pool.exprCount + 1 } })

/-- Store a statement under the next number. -/
def storeStmt (make : StmtInfo → Stmt) (span : Span) : Build Stmt := fun b =>
  .ok (make ⟨b.pool.stmtCount, span⟩,
    { b with pool := { b.pool with stmtCount := b.pool.stmtCount + 1 } })

/-- Store a list of nodes. -/
def storeList {α : Type} (list : List α) : Build Unit := fun b =>
  match checkLength list with
  | .ok () => .ok ((), b)
  | .error e => .error e

/-! ### Signature -/

/-- Declare the next parameter. -/
def param (name : String) (ty : Ty) : Build Unit := do
  let span ← nextSpan
  let n ← intern name
  modify fun b => { b with params := b.params.push ⟨n, ty, span⟩ }

/-- Declare the next parameter as the cancellation handle. -/
def cancellationParam (name : String) : Build Unit := do
  let index := (← get).params.size
  param name .cancellation
  modify fun b => { b with cancellation := some index }

/-- Take the parameter at a position as the cancellation handle. -/
def setCancellation (index : Nat) : Build Unit :=
  modify fun b => { b with cancellation := some index }

/-- Set the type of the value the procedure completes with. -/
def returns (ty : Ty) : Build Unit := modify fun b => { b with result := ty }

/-- Declare the next local. A statement has to introduce it. -/
def declareLocal (name : String) (ty : Ty) : Build Unit := do
  let span ← nextSpan
  let n ← intern name
  modify fun b => { b with locals := b.locals.push ⟨b.locals.size, n, ty, span⟩ }

/-! ### Expressions -/

/-- A node without children. -/
def leaf (make : ExprInfo → Expr) (ty : Ty) : Build Expr := do
  let span ← nextSpan
  storeExpr make ty span

/-- An integer literal. -/
def int (value : Int64) : Build Expr := leaf (.int · value) .int

/-- A float literal, by its bits. -/
def float (bits : UInt64) : Build Expr := leaf (.float · bits) .float

/-- A boolean literal. -/
def bool (value : Bool) : Build Expr := leaf (.bool · value) .bool

/-- A string literal. -/
def str (value : String) : Build Expr := do
  let n ← intern value
  leaf (.str · n) .str

/-- The value that carries nothing. -/
def unit : Build Expr := leaf .unit .unit

/-- A local, with the type of its declaration. -/
def localVar (id : LocalId) : Build Expr := do
  let ty := ((← get).locals[id]?.map LocalDecl.ty).getD .unit
  leaf (.localVar · id) ty

/-- A parameter, with the type of its declaration. -/
def paramVar (index : Nat) : Build Expr := do
  let ty := ((← get).params[index]?.map Param.ty).getD .unit
  leaf (.param · index) ty

/-- A field of the instance. -/
def field (name : String) (ty : Ty) : Build Expr := do
  let n ← intern name
  leaf (.field · n) ty

/-- A binary operation, over the span of its operands. -/
def binary (op : BinaryOp) (left right : Expr) (ty : Ty) : Build Expr :=
  storeExpr (.binary · op left right) ty (left.span.merge right.span)

/-- A unary operation, with the type and span of its operand. -/
def unary (op : UnaryOp) (operand : Expr) : Build Expr :=
  storeExpr (.unary · op operand) operand.ty operand.span

/-- A span grown to cover a list of others. -/
def mergeAll (span : Span) (others : List Span) : Span := others.foldl Span.merge span

/-- A call, over its own text and its arguments. -/
def call (target : CallTarget) (args : List Expr) (ty : Ty) : Build Expr := do
  let span ← nextSpan
  storeList args
  storeExpr (.call · target args) ty (mergeAll span (args.map Expr.span))

/-- A call of a host function. -/
def callHost (name : String) (args : List Expr) (ty : Ty) : Build Expr := do
  let n ← intern name
  call (.host n) args ty

/-- A call of a procedure that completes later with a value of type `result`. -/
def callProcedure (name : String) (args : List Expr) (result : Ty) : Build Expr := do
  let n ← intern name
  call (.procedure n) args (.deferred result)

/-- A call of a plain procedure. -/
def callSync (name : String) (args : List Expr) (ty : Ty) : Build Expr := do
  let n ← intern name
  call (.procedure n) args ty

/-- The result type of a primitive. -/
def primitiveTy : Primitive → Ty
  | .whenAny => .deferred .int
  | .delay | .delayFrames | .yield | .whenAll => .deferred .unit

/-- A scheduling primitive. -/
def primitive (p : Primitive) (args : List Expr) : Build Expr :=
  call (.primitive p) args (primitiveTy p)

/-- A primitive with whatever type the binder gave it. -/
def primitiveAs (p : Primitive) (args : List Expr) (ty : Ty) : Build Expr :=
  call (.primitive p) args ty

/-- A wait for a number of seconds. -/
def delay (seconds : UInt64) : Build Expr := do
  let arg ← float seconds
  primitive .delay [arg]

/-- A wait for a number of frames. -/
def delayFrames (frames : Int64) : Build Expr := do
  let arg ← int frames
  primitive .delayFrames [arg]

/-- A wait for the next frame. -/
def yieldFrame : Build Expr := primitive .yield []

/-- A closure. -/
def lambda (body : List Stmt) : Build Expr := do
  let span ← nextSpan
  storeList body
  storeExpr (.lambda · body) .closure (mergeAll span (body.map Stmt.span))

/-- A suspension, with the type its operand delivers. -/
def suspend (operand : Expr) : Build Expr := do
  let span ← nextSpan
  storeExpr (.suspend · operand) (operand.ty.output?.getD .unit) (span.merge operand.span)

/-! ### Statements -/

/-- An expression for its effect. -/
def exprStmt (e : Expr) : Build Stmt := storeStmt (.expr · e) e.span

/-- A suspension for its own sake. -/
def suspendStmt (operand : Expr) : Build Stmt := do
  let e ← suspend operand
  exprStmt e

/-- A call of the built-in `log`. -/
def log (message : String) : Build Stmt := do
  let arg ← str message
  let e ← callHost "log" [arg] .unit
  exprStmt e

/-- The introduction of a local with a value. -/
def bindLocal (id : LocalId) (init : Expr) : Build Stmt := do
  let span ← nextSpan
  storeStmt (.bind · id init) (span.merge init.span)

/-- The introduction of a local without a value. -/
def introduceLocal (id : LocalId) : Build Stmt := do
  let span ← nextSpan
  storeStmt (.declare · id) span

/-- An assignment. -/
def assign (target : Place) (value : Expr) : Build Stmt := do
  let span ← nextSpan
  storeStmt (.assign · target value) (span.merge value.span)

/-- A conditional, over the span of its parts. -/
def branch (cond : Expr) (onTrue onFalse : List Stmt) : Build Stmt := do
  storeList onTrue
  storeList onFalse
  storeStmt (.branch · cond onTrue onFalse)
    (mergeAll cond.span ((onTrue ++ onFalse).map Stmt.span))

/-- A loop, over the span of its parts. -/
def loop (cond : Expr) (body : List Stmt) : Build Stmt := do
  storeList body
  storeStmt (.loop · cond body) (mergeAll cond.span (body.map Stmt.span))

/-- Leave the innermost loop. -/
def breakLoop : Build Stmt := do
  let span ← nextSpan
  storeStmt .breakLoop span

/-- Go on with the innermost loop. -/
def continueLoop : Build Stmt := do
  let span ← nextSpan
  storeStmt .continueLoop span

/-- A return without a value. -/
def leave : Build Stmt := do
  let span ← nextSpan
  storeStmt .leave span

/-- A return of a value. -/
def ret (value : Expr) : Build Stmt := do
  let span ← nextSpan
  storeStmt (.ret · value) (span.merge value.span)

/-- A jump. -/
def goto (label : String) : Build Stmt := do
  let span ← nextSpan
  let n ← intern label
  storeStmt (.goto · n) span

/-- The target of jumps. -/
def label (label : String) : Build Stmt := do
  let span ← nextSpan
  let n ← intern label
  storeStmt (.label · n) span

/-- A yield of a generator. -/
def yieldReturn (value : Expr) : Build Stmt := do
  let span ← nextSpan
  storeStmt (.yield · value) (span.merge value.span)

/-! ### Finishing -/

/-- The procedure built so far, with the given body. -/
def finish (body : Body) : Build Procedure := do
  let b ← get
  return { name := b.name, params := b.params.toList, locals := b.locals.toList,
           result := b.result, cancellation := b.cancellation, body, span := ⟨0, b.cursor⟩ }

/-- The procedure with a block as its body. -/
def finishBlock (stmts : List Stmt) : Build Procedure := do
  storeList stmts
  finish (.block stmts)

/-- The procedure with an expression as its body. -/
def finishExpr (e : Expr) : Build Procedure := finish (.expr e)

end Build

end Resumable.Bound
