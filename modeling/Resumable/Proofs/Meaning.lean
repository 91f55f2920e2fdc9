import Resumable.Lower.Shape
import Resumable.Proofs.Ending

/-!
# The direct meaning of a procedure

What a procedure says, without machines, slots or a scheduler: its statements run in order
on its variables, and where a suspension for time stands, it pauses.  Only the order of the
pauses matters here and not their length, since it is the host that decides when an
activation goes on.

## Main definitions

* `Setting`, `Activation`: what an activation reads, and what it changes.
* `Bound.Expr.value`, `Bound.Stmt.perform`: the meaning of expressions and statements.
* `advance`: the meaning of top-level statements, up to the next pause or to completion.
* `Reaches`, `CompletesWith`: an activation after a number of pauses, and one that is over.

## Main statements

* `Activation.returns_write`: what the places of an activation hold after a write.

## Design notes

Only bodies that wait for time and call functions of the host have a meaning here.  Calls of
procedures, closures and joins stop the run as something that is not there.  The bound on
loops is that of a run of a machine, so the two can be compared turn by turn.
-/

namespace Resumable

open Resumable.Bound (Place Stmt)

/-- What an activation reads and does not change. -/
structure Setting where
  names : NameTable
  /-- What the registered functions answer to calls of the instance. -/
  answer : Name → Option (List Value → Except HostError Value)
  locals : List LocalDecl
  /-- The type of the value it completes with. -/
  result : Ty

namespace Setting

/-- What a local holds when it is introduced without a value. -/
def defaultLocal (σ : Setting) (id : LocalId) : Value :=
  match σ.locals.find? fun decl => decl.id == id with
  | some decl => .defaultFor decl.ty
  | none => .unit

/-- What an activation completes with when it returns no value. -/
def defaultResult (σ : Setting) : Value := .defaultFor σ.result

end Setting

/-- What an activation changes: its variables, the fields of its instance, and
what the host is told. -/
structure Activation where
  params : List Value
  locals : Bindings LocalId Value
  fields : Bindings Name Value
  log : List String
  calls : List (Name × List Value)

/-- An activation that was just called with arguments, on an instance on
which nothing was done. -/
def Activation.start (args : List Value) : Activation := ⟨args, .empty, .empty, [], []⟩

/-- Computations of an activation. -/
abbrev Direct := ExceptT Halt (StateM Activation)

namespace Direct

/-- End with an error. -/
def fail {α : Type} (why : HostError) : Direct α := throw (.error why)

/-- A result that may be an error. -/
def ofExcept {α : Type} : Except HostError α → Direct α
  | .ok a => pure a
  | .error why => fail why

/-- A value, or an error where there is none. -/
def require {α : Type} (why : HostError) : Option α → Direct α
  | some a => pure a
  | none => fail why

/-- The boolean that a value has to be. -/
def expectBool (v : Value) : Direct Bool := require (.mismatch .bool v) v.bool?

/-- The integer that a value has to be. -/
def expectInt (v : Value) : Direct Int64 := require (.mismatch .int v) v.int?

/-- The number that a value has to stand for. -/
def expectNumber (v : Value) : Direct Float := require (.mismatch .number v) v.number?

/-- The call of a function of the host: a registered one, or the built-in log. -/
def callHost (σ : Setting) (function : Name) (args : List Value) : Direct Value :=
  match σ.answer function with
  | some answer => do
    modify fun a => { a with calls := a.calls ++ [(function, args)] }
    ofExcept (answer args)
  | none =>
    if σ.names.lookup function = "log" then do
      modify fun a => { a with log := a.log ++ [" ".intercalate (Value.texts args)] }
      return .unit
    else fail (.unknownFunction (σ.names.lookup function))

/-- Write a place. -/
def write (value : Value) : Place → Direct Unit
  | .localVar id => modify fun a => { a with locals := a.locals.insert id value }
  | .param i => do
    if i < (← get).params.length then modify fun a =>
      { a with params := a.params.set i value }
    else fail (.missingParam i)
  | .field name => modify fun a => { a with fields := a.fields.insert name value }

/-- Repeat a body while a condition holds, a bounded number of times. -/
def repeatWhile (cond : Direct Bool) (body : Direct Flow) : Nat → Direct Flow
  | 0 => throw .outOfFuel
  | fuel + 1 => do
    if ← cond then
      match ← body with
      | .next | .continueLoop => repeatWhile cond body fuel
      | .breakLoop => return .next
      | .ret value => return .ret value
      | .finished => return .finished
    else return .next

end Direct

/-! ### Expressions and statements -/

namespace Bound

mutual

/-- The value of an expression. -/
def Expr.value (σ : Setting) : Expr → Direct Value
  | .int _ v => return .int v
  | .float _ bits => return .float (Float.ofBits bits)
  | .bool _ v => return .bool v
  | .str _ name => return .str (σ.names.lookup name)
  | .unit _ => return .unit
  | .localVar _ id => do Direct.require .uninitializedLocal ((← get).locals.get? id)
  | .param _ i => do Direct.require (.missingParam i) (← get).params[i]?
  | .field _ name => do
    Direct.require (.unknownField (σ.names.lookup name)) ((← get).fields.get? name)
  | .binary _ .and left right => do
    if ← Direct.expectBool (← left.value σ) then
      return .bool (← Direct.expectBool (← right.value σ))
    else return .bool false
  | .binary _ .or left right => do
    if ← Direct.expectBool (← left.value σ) then return .bool true
    else return .bool (← Direct.expectBool (← right.value σ))
  | .binary _ op left right => do
    let a ← left.value σ
    let b ← right.value σ
    Direct.ofExcept (binaryOp op a b)
  | .unary _ op operand => do Direct.ofExcept (unaryOp op (← operand.value σ))
  | .call _ (.host function) args => do Direct.callHost σ function (← valuesOf σ args)
  | .call _ (.procedure _) _ | .call _ (.primitive _) _ | .lambda .. | .suspend .. =>
    throw .absentNode
  | .error _ => Direct.fail .errorNode

/-- The values of arguments, from left to right. -/
def valuesOf (σ : Setting) : List Expr → Direct (List Value)
  | [] => return []
  | e :: rest => do
    let v ← e.value σ
    return v :: (← valuesOf σ rest)

end

mutual

/-- The effect of a statement that does not suspend.  A return leaves with the value that the
activation completes with. -/
def Stmt.perform (σ : Setting) (fuel : Nat) : Stmt → Direct Flow
  | .expr _ e => do
    let _ ← e.value σ
    return .next
  | .declare _ id => do
    Direct.write (σ.defaultLocal id) (.localVar id)
    return .next
  | .bind _ id init => do
    Direct.write (← init.value σ) (.localVar id)
    return .next
  | .assign _ target e => do
    Direct.write (← e.value σ) target
    return .next
  | .branch _ cond onTrue onFalse => do
    if ← Direct.expectBool (← cond.value σ) then performAll σ fuel onTrue
    else performAll σ fuel onFalse
  | .loop _ cond body =>
    Direct.repeatWhile (do Direct.expectBool (← cond.value σ)) (performAll σ fuel body) fuel
  | .breakLoop _ => return .breakLoop
  | .continueLoop _ => return .continueLoop
  | .leave _ => return .ret σ.defaultResult
  | .ret _ e => do return .ret (← e.value σ)
  | .goto .. | .label .. | .yield .. => throw .absentNode

/-- The effect of statements in order, up to one that leaves the block. -/
def performAll (σ : Setting) (fuel : Nat) : List Stmt → Direct Flow
  | [] => return .next
  | s :: rest => do
    match ← s.perform σ fuel with
    | .next => performAll σ fuel rest
    | flow => return flow

end

/-- What a suspension for time evaluates before it waits. -/
def Expr.pause (σ : Setting) : Expr → Direct Unit
  | .call _ (.primitive .delay) [seconds] => do
    let _ ← Direct.expectNumber (← seconds.value σ)
  | .call _ (.primitive .delayFrames) [frames] => do
    let _ ← Direct.expectInt (← frames.value σ)
  | .call _ (.primitive .yield) [] => return ()
  | _ => throw .absentNode

end Bound

/-! ### From pause to pause -/

/-- Where top-level statements stop. -/
inductive Stop where
  /-- At a pause, with the statements after it. -/
  | paused (rest : List Stmt)
  /-- At the end, with the value that the activation completes with. -/
  | completed (value : Value)

/-- The effect of top-level statements up to the next pause or to completion. -/
def advance (σ : Setting) (fuel : Nat) : List Stmt → Direct Stop
  | [] => return .completed σ.defaultResult
  | s :: rest =>
    match suspensionOf s with
    | some (_, operand) => do
      operand.pause σ
      return .paused rest
    | none => do
      match ← s.perform σ fuel with
      | .next => advance σ fuel rest
      | .ret value => return .completed value
      | .breakLoop | .continueLoop | .finished => Direct.fail .strayLoopControl

/-- **An activation after a number of pauses**, with the statements that are left. -/
inductive Reaches (σ : Setting) (stmts : List Stmt) (args : List Value) :
    Nat → List Stmt → Activation → Prop where
  | start : Reaches σ stmts args 0 stmts (.start args)
  | next {count fuel : Nat} {rest later : List Stmt} {a a' : Activation}
    (before : Reaches σ stmts args count rest a)
    (run : Returns (advance σ fuel rest) a (.paused later) a') :
    Reaches σ stmts args (count + 1) later a'

/-- **An activation that is over**, with the value it completes with. -/
def CompletesWith (σ : Setting) (stmts : List Stmt) (args : List Value) (value : Value)
    (a : Activation) : Prop :=
  ∃ count rest before fuel, Reaches σ stmts args count rest before ∧
    Returns (advance σ fuel rest) before (.completed value) a

/-! ### Places -/

/-- What a place holds. -/
def Activation.content? (a : Activation) : Place → Option Value
  | .localVar id => a.locals.get? id
  | .param i => a.params[i]?
  | .field name => a.fields.get? name

/-- A write and what it leaves: the place holds the value, and every other
place what it held. -/
structure Activation.Written (a : Activation) (target : Place) (v : Value) (a' : Activation) :
    Prop where
  content : ∀ place, a'.content? place = if place = target then some v else a.content? place
  log : a'.log = a.log
  calls : a'.calls = a.calls

/-- **What the places of an activation hold after a write.**  Only a parameter has
to be there before. -/
theorem Activation.returns_write {a : Activation} {target : Place} (v : Value)
    (h : ∀ i, target = .param i → (a.content? target).isSome) :
    ∃ a', Returns (Direct.write v target) a () a' ∧ a.Written target v a' := by
  cases target with
  | localVar id =>
    refine ⟨_, returns_modify.mpr rfl, fun place => ?_, rfl, rfl⟩
    cases place with
    | localVar other =>
      show (a.locals.insert id v).get? other = _
      simp only [Bindings.get?_insert, Place.localVar.injEq, eq_comm (a := id)]
      rfl
    | param | field => simp [Activation.content?]
  | field name =>
    refine ⟨_, returns_modify.mpr rfl, fun place => ?_, rfl, rfl⟩
    cases place with
    | field other =>
      show (a.fields.insert name v).get? other = _
      simp only [Bindings.get?_insert, Place.field.injEq, eq_comm (a := name)]
      rfl
    | localVar | param => simp [Activation.content?]
  | param i =>
    have hlt : i < a.params.length := by
      have hsome := h i rfl
      unfold Activation.content? at hsome
      simpa using hsome
    refine ⟨{ a with params := a.params.set i v }, ?_, fun place => ?_, rfl, rfl⟩
    · refine returns_bind.mpr ⟨a, a, returns_get.mpr ⟨rfl, rfl⟩, ?_⟩
      exact returns_ite.mpr (Or.inl ⟨hlt, returns_modify.mpr rfl⟩)
    · cases place with
      | param j =>
        show (a.params.set i v)[j]? = _
        rw [List.getElem?_set]
        by_cases hj : i = j
        · subst hj
          simp [hlt]
        · have hne : j ≠ i := fun heq => hj heq.symm
          simp [hj, hne, Activation.content?]
      | localVar | field => simp [Activation.content?]

/-! ### Primitives -/

namespace Direct

variable {α : Type} {a : Activation}

theorem returns_require {why : HostError} {o : Option α} {v : α} (h : o = some v) :
    Returns (require why o) a v a := by
  subst h
  exact returns_pure.mpr ⟨rfl, rfl⟩

theorem returns_ofExcept {r : Except HostError α} {v : α} (h : r = .ok v) :
    Returns (ofExcept r) a v a := by
  subst h
  exact returns_pure.mpr ⟨rfl, rfl⟩

end Direct

end Resumable
