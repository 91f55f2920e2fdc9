import Resumable.Proofs.SlottedCode

/-!
# Slotted code and its source

Slotted code keeps the hoisted variables of its source in slots.  To *restore* code is to
put the variables back in the place of their slots.  **Restored code is a copy of the
source**: the same constructs with the same operators, callees, types and spans, in nested
blocks and in closures too.  Only three things differ.  An introduction of a hoisted local
without a value is dropped, one with a value is an assignment, and a return outside closures
finishes the activation.

What can be restored was not there before: **slotted code does not mention a hoisted
variable** but by its slot.

## Main definitions

* `Machine.Stmt.restored`: code with hoisted variables in the place of their slots.
* `ExprCopy`, `StmtCopy`, `BlockCopy`: code that is a copy of a source, up to the
  three differences.
* `Machine.Stmt.variables`: the parameters and locals that code mentions.

## Main statements

* `slotwise_copy`: restored code is a copy.
* `slotwise_unhoisted`: slotted code mentions no hoisted variable.
-/

namespace Resumable

open Resumable.Bound (StmtInfo)
open Resumable.Machine (Expr Origin Slot SlotId Stmt)

variable {inClosure : Bool} {stmts : List Bound.Stmt}

/-- The variable that is kept in a slot. -/
def SlotLayout.origin? (l : SlotLayout) (id : SlotId) : Option Origin :=
  match (l.slots[id]?).map Slot.role with
  | some (.hoisted origin) => some origin
  | _ => none

/-- The local is kept in a slot. -/
def SlotLayout.Keeps (l : SlotLayout) (x : LocalId) : Prop := (l.local? x).isSome = true

/-- The slot of a variable. -/
def SlotLayout.slotOf? (l : SlotLayout) (origin : Origin) : Option SlotId :=
  slotWithRole? l.slots (.hoisted origin)

/-! ### Restored code -/

namespace Machine

/-- A place with the variable in the place of its slot. -/
def Place.restored (l : SlotLayout) : Place → Place
  | .slot id =>
    match l.origin? id with
    | some (.param i) => .param i
    | some (.localVar x) => .localVar x
    | none => .slot id
  | .localVar x => .localVar x
  | .param i => .param i
  | .field name => .field name

mutual

/-- An expression with variables in the place of their slots. -/
def Expr.restored (l : SlotLayout) : Expr → Expr
  | .slot info id =>
    match l.origin? id with
    | some (.param i) => .param info i
    | some (.localVar x) => .localVar info x
    | none => .slot info id
  | .int info value => .int info value
  | .float info bits => .float info bits
  | .bool info value => .bool info value
  | .str info value => .str info value
  | .unit info => .unit info
  | .localVar info x => .localVar info x
  | .param info i => .param info i
  | .field info name => .field info name
  | .binary info op left right => .binary info op (left.restored l) (right.restored l)
  | .unary info op operand => .unary info op (operand.restored l)
  | .call info target args => .call info target (restoredArgs l args)
  | .lambda info body => .lambda info (restoredBlock l body)
  | .tasksDone info tasks mode => .tasksDone info tasks mode
  | .taskValue info tasks mode => .taskValue info tasks mode
  | .cancelRequested info slot => .cancelRequested info slot
  | .error info => .error info
  | .absent => .absent

/-- Arguments with variables in the place of their slots. -/
def restoredArgs (l : SlotLayout) : List Expr → List Expr
  | [] => []
  | e :: rest => e.restored l :: restoredArgs l rest

/-- A statement with variables in the place of their slots. -/
def Stmt.restored (l : SlotLayout) : Stmt → Stmt
  | .expr span value => .expr span (value.restored l)
  | .bind span x init => .bind span x (init.restored l)
  | .assign span target value => .assign span (target.restored l) (value.restored l)
  | .branch span cond onTrue onFalse =>
    .branch span (cond.restored l) (restoredBlock l onTrue) (restoredBlock l onFalse)
  | .loop span cond body => .loop span (cond.restored l) (restoredBlock l body)
  | .breakLoop span => .breakLoop span
  | .continueLoop span => .continueLoop span
  | .ret span value => .ret span (value.restored l)
  | .setState span state => .setState span state
  | .schedule span target timing => .schedule span target (timing.restored l)
  | .invoke span target => .invoke span target
  | .finish span status value => .finish span status (value.restored l)
  | .returnTask span => .returnTask span
  | .switch span scrutinee arms => .switch span scrutinee (restoredArms l arms)
  | .unresolved number => .unresolved number

/-- Statements with variables in the place of their slots. -/
def restoredBlock (l : SlotLayout) : List Stmt → List Stmt
  | [] => []
  | s :: rest => s.restored l :: restoredBlock l rest

/-- Arms with variables in the place of their slots. -/
def restoredArms (l : SlotLayout) : List Arm → List Arm
  | [] => []
  | .mk value body :: rest => .mk value (restoredBlock l body) :: restoredArms l rest

/-- A timing with variables in the place of their slots. -/
def Timing.restored (l : SlotLayout) : Timing → Timing
  | .seconds duration => .seconds (duration.restored l)
  | .frames count => .frames (count.restored l)
  | .nextFrame => .nextFrame
  | .completion tasks mode => .completion tasks mode

end

theorem restoredBlock_eq_map (l : SlotLayout) (stmts : List Stmt) :
    restoredBlock l stmts = stmts.map (Stmt.restored l) := by
  induction stmts with
  | nil => rfl
  | cons s rest ih => rw [restoredBlock, ih, List.map_cons]

/-! ### The variables that code mentions -/

/-- The variable that a place is. -/
def Place.variables : Place → List Origin
  | .localVar x => [.localVar x]
  | .param i => [.param i]
  | .field _ | .slot _ => []

mutual

/-- The variables that an expression mentions. -/
def Expr.variables : Expr → List Origin
  | .localVar _ x => [.localVar x]
  | .param _ i => [.param i]
  | .binary _ _ left right => left.variables ++ right.variables
  | .unary _ _ operand => operand.variables
  | .call _ _ args => variablesOfArgs args
  | .lambda _ body => variablesOf body
  | .int .. | .float .. | .bool .. | .str .. | .unit .. | .field ..
  | .slot .. | .tasksDone .. | .taskValue .. | .cancelRequested .. | .error .. | .absent => []

/-- The variables that arguments mention. -/
def variablesOfArgs : List Expr → List Origin
  | [] => []
  | e :: rest => e.variables ++ variablesOfArgs rest

/-- The variables that a statement mentions, introductions included. -/
def Stmt.variables : Stmt → List Origin
  | .expr _ value | .ret _ value | .finish _ _ value => value.variables
  | .bind _ x init => .localVar x :: init.variables
  | .assign _ target value => target.variables ++ value.variables
  | .branch _ cond onTrue onFalse =>
    cond.variables ++ variablesOf onTrue ++ variablesOf onFalse
  | .loop _ cond body => cond.variables ++ variablesOf body
  | .schedule _ _ timing => timing.variables
  | .switch _ _ arms => variablesOfArms arms
  | .breakLoop _ | .continueLoop _ | .setState .. | .invoke .. | .returnTask
      _ | .unresolved _ => []

/-- The variables that statements mention. -/
def variablesOf : List Stmt → List Origin
  | [] => []
  | s :: rest => s.variables ++ variablesOf rest

/-- The variables that arms mention. -/
def variablesOfArms : List Arm → List Origin
  | [] => []
  | .mk _ body :: rest => variablesOf body ++ variablesOfArms rest

/-- The variables that a timing mentions. -/
def Timing.variables : Timing → List Origin
  | .seconds duration => duration.variables
  | .frames count => count.variables
  | .nextFrame | .completion .. => []

end

theorem variablesOf_eq_flatMap (stmts : List Stmt) :
    variablesOf stmts = stmts.flatMap Stmt.variables := by
  induction stmts with
  | nil => rfl
  | cons s rest ih => rw [variablesOf, ih, List.flatMap_cons]

end Machine

/-! ### Copies -/

/-- The place of the source, in code. -/
def Bound.Place.copied : Bound.Place → Machine.Place
  | .localVar x => .localVar x
  | .param i => .param i
  | .field name => .field name

mutual

/-- **An expression is a copy of another.**  `kept` are the hoisted locals, which make a
difference in closures. -/
inductive ExprCopy (kept : LocalId → Prop) : Bound.Expr → Expr → Prop where
  | int (info : ExprInfo) (value : Int64) : ExprCopy kept (.int info value) (.int info value)
  | float (info : ExprInfo) (bits : UInt64) :
    ExprCopy kept (.float info bits) (.float info bits)
  | bool (info : ExprInfo) (value : Bool) :
    ExprCopy kept (.bool info value) (.bool info value)
  | str (info : ExprInfo) (value : Name) : ExprCopy kept (.str info value) (.str info value)
  | unit (info : ExprInfo) : ExprCopy kept (.unit info) (.unit info)
  | localVar (info : ExprInfo) (x : LocalId) :
    ExprCopy kept (.localVar info x) (.localVar info x)
  | param (info : ExprInfo) (i : Nat) : ExprCopy kept (.param info i) (.param info i)
  | field (info : ExprInfo) (name : Name) :
    ExprCopy kept (.field info name) (.field info name)
  | binary (info : ExprInfo) (op : BinaryOp) {left right : Bound.Expr} {left' right' : Expr}
    (onLeft : ExprCopy kept left left') (onRight : ExprCopy kept right right') :
    ExprCopy kept (.binary info op left right) (.binary info op left' right')
  | unary (info : ExprInfo) (op : UnaryOp) {operand : Bound.Expr} {operand' : Expr}
    (inside : ExprCopy kept operand operand') : ExprCopy kept (.unary info op operand)
      (.unary info op operand')
  | call (info : ExprInfo) (target : CallTarget) {args : List Bound.Expr} {args' : List Expr}
    (inside : ArgsCopy kept args args') : ExprCopy kept (.call info target args)
      (.call info target args')
  | lambda (info : ExprInfo) {body : List Bound.Stmt} {body' : List Stmt}
    (inside : BlockCopy kept true body body') :
      ExprCopy kept (.lambda info body) (.lambda info body')
  | error (info : ExprInfo) : ExprCopy kept (.error info) (.error info)

/-- Arguments are copies, one by one. -/
inductive ArgsCopy (kept : LocalId → Prop) : List Bound.Expr → List Expr → Prop where
  | nil : ArgsCopy kept [] []
  | cons {e : Bound.Expr} {e' : Expr} {rest : List Bound.Expr} {rest' : List Expr}
    (first : ExprCopy kept e e') (others : ArgsCopy kept rest rest') :
      ArgsCopy kept (e :: rest) (e' :: rest')

/-- **A statement is a copy of another**, in a closure or outside closures.  An introduction
of a hoisted local is an assignment, and a return outside closures finishes the activation. -/
inductive StmtCopy (kept : LocalId → Prop) : Bool → Bound.Stmt → Stmt → Prop where
  | expr {inClosure : Bool} (info : StmtInfo) {e : Bound.Expr} {e' : Expr}
    (value : ExprCopy kept e e') :
    StmtCopy kept inClosure (.expr info e) (.expr info.span e')
  | declare {inClosure : Bool} (info : StmtInfo) {x : LocalId} (free : ¬ kept x) :
    StmtCopy kept inClosure (.declare info x) (.bind info.span x .absent)
  | bind {inClosure : Bool} (info : StmtInfo) {x : LocalId} {e : Bound.Expr}
    {e' : Expr} (free : ¬ kept x)
    (value : ExprCopy kept e e') : StmtCopy kept inClosure (.bind info x e)
      (.bind info.span x e')
  | store {inClosure : Bool} (info : StmtInfo) {x : LocalId} {e : Bound.Expr} {e' : Expr}
    (hoisted : kept x) (value : ExprCopy kept e e') :
    StmtCopy kept inClosure (.bind info x e) (.assign info.span (.localVar x) e')
  | assign {inClosure : Bool} (info : StmtInfo) (target : Bound.Place)
    {e : Bound.Expr} {e' : Expr}
    (value : ExprCopy kept e e') : StmtCopy kept inClosure (.assign info target e)
      (.assign info.span target.copied e')
  | branch {inClosure : Bool} (info : StmtInfo) {e : Bound.Expr} {e' : Expr}
    {onTrue onFalse : List Bound.Stmt} {onTrue' onFalse' : List Stmt}
      (cond : ExprCopy kept e e')
    (first : BlockCopy kept inClosure onTrue onTrue')
      (second : BlockCopy kept inClosure onFalse onFalse') :
    StmtCopy kept inClosure (.branch info e onTrue onFalse)
      (.branch info.span e' onTrue' onFalse')
  | loop {inClosure : Bool} (info : StmtInfo) {e : Bound.Expr} {e' : Expr}
    {body : List Bound.Stmt}
    {body' : List Stmt} (cond : ExprCopy kept e e')
      (inside : BlockCopy kept inClosure body body') :
    StmtCopy kept inClosure (.loop info e body) (.loop info.span e' body')
  | breakLoop {inClosure : Bool} (info : StmtInfo) :
    StmtCopy kept inClosure (.breakLoop info) (.breakLoop info.span)
  | continueLoop {inClosure : Bool} (info : StmtInfo) :
    StmtCopy kept inClosure (.continueLoop info) (.continueLoop info.span)
  | leave (info : StmtInfo) : StmtCopy kept true (.leave info) (.ret info.span .absent)
  | ret (info : StmtInfo) {e : Bound.Expr} {e' : Expr} (value : ExprCopy kept e e') :
    StmtCopy kept true (.ret info e) (.ret info.span e')
  | finish (info : StmtInfo) : StmtCopy kept false (.leave info)
    (.finish info.span .succeeded .absent)
  | finishWith (info : StmtInfo) {e : Bound.Expr} {e' : Expr} (value : ExprCopy kept e e') :
    StmtCopy kept false (.ret info e) (.finish info.span .succeeded e')

/-- **Statements are copies of others.**  An introduction of a hoisted local without
a value is dropped. -/
inductive BlockCopy (kept : LocalId → Prop) : Bool → List Bound.Stmt → List Stmt → Prop where
  | nil {inClosure : Bool} : BlockCopy kept inClosure [] []
  | keep {inClosure : Bool} {s : Bound.Stmt} {s' : Stmt}
    {rest : List Bound.Stmt} {rest' : List Stmt}
    (first : StmtCopy kept inClosure s s') (others : BlockCopy kept inClosure rest rest') :
    BlockCopy kept inClosure (s :: rest) (s' :: rest')
  | drop {inClosure : Bool} (info : StmtInfo) {x : LocalId}
    {rest : List Bound.Stmt} {rest' : List Stmt}
    (hoisted : kept x) (others : BlockCopy kept inClosure rest rest') :
    BlockCopy kept inClosure (.declare info x :: rest) rest'

end

/-! ### Slots and their variables -/

section

variable {l : SlotLayout}

theorem origin?_of_slotOf? (numbered : Numbered l.slots) {origin : Origin} {id : SlotId}
    (h : l.slotOf? origin = some id) : l.origin? id = some origin := by
  obtain ⟨slot, hslot, hrole⟩ := numbered.role_of_slotWithRole? h
  unfold SlotLayout.origin?
  rw [hslot, Option.map_some, hrole]

/-- A place that was slotted is restored. -/
theorem restored_place (numbered : Numbered l.slots) (target : Bound.Place) :
    (l.place target).restored l = target.copied := by
  generalize hplace : l.place target = place
  cases SlotLayout.placed hplace with
  | localVar | param | field => rfl
  | @localSlot x _ kept =>
    simp only [Machine.Place.restored, origin?_of_slotOf? numbered
      (show l.slotOf? (.localVar x) = _ from kept)]
    rfl
  | @paramSlot i _ kept =>
    simp only [Machine.Place.restored, origin?_of_slotOf? numbered
      (show l.slotOf? (.param i) = _ from kept)]
    rfl

theorem restored_read (info : ExprInfo) (place : Machine.Place) :
    (place.read info).restored l = (place.restored l).read info := by
  cases place with
  | slot id =>
    simp only [Machine.Place.read, Expr.restored, Machine.Place.restored]
    rcases l.origin? id with _ | _ | _ <;> rfl
  | localVar | param | field => rfl

/-! ### Restored code is a copy -/

/-- What is dropped introduces a hoisted local without a value. -/
theorem declares_of_slottedStmt {s : Bound.Stmt} (strays : stmtStrays s = [])
    (h : slottedStmt l inClosure s = none) : ∃ info x, s = .declare info x ∧ l.Keeps x := by
  cases s with
  | declare info x =>
    refine ⟨info, x, rfl, ?_⟩
    unfold slottedStmt at h
    cases hslot : l.local? x <;> simp_all [SlotLayout.Keeps]
  | bind info x e =>
    unfold slottedStmt at h
    cases hslot : l.local? x <;> simp [hslot] at h
  | leave | ret => cases inClosure <;> cases h
  | expr | assign | branch | loop | breakLoop | continueLoop => cases h
  | goto | label | yield => cases strays

/-- **Restored blocks are copies** when their statements are. -/
theorem Slotwise.Block.copy
    (h : Slotwise.Block l (fun c s s' => stmtStrays s = [] →
      StmtCopy l.Keeps c s (s'.restored l)) inClosure stmts)
    (strays : blockStrays stmts = []) :
    BlockCopy l.Keeps inClosure stmts (Machine.restoredBlock l
      (slottedBlock l inClosure stmts)) := by
  induction stmts with
  | nil => exact .nil
  | cons s rest ih =>
    obtain ⟨hs, hrest⟩ := List.append_eq_nil_iff.mp strays
    obtain ⟨hfirst, hothers⟩ := List.forall_mem_cons.mp h
    unfold slottedBlock
    cases heq : slottedStmt l inClosure s with
    | some s' => exact .keep (hfirst s' heq hs) (ih hothers hrest)
    | none =>
      obtain ⟨info, x, rfl, hkept⟩ := declares_of_slottedStmt hs heq
      exact .drop info hkept (ih hothers hrest)

/-- **Restored code is a copy**, where all of its source has a slotted form. -/
theorem slotwise_copy (numbered : Numbered l.slots) :
    Slotwise l (fun e => exprStrays e = [] →
      ExprCopy l.Keeps e ((slottedExpr l e).restored l))
      (fun args => argStrays args = [] → ArgsCopy l.Keeps args
        (Machine.restoredArgs l (slottedArgs l args)))
      fun c s s' => stmtStrays s = [] → StmtCopy l.Keeps c s (s'.restored l) where
  constant {e} h strays := by
    cases e with
    | int info value => exact .int info value
    | float info bits => exact .float info bits
    | bool info value => exact .bool info value
    | str info value => exact .str info value
    | unit info => exact .unit info
    | error info => exact .error info
    | suspend => cases strays
    | _ => cases h
  read info target _ := by
    rw [slottedExpr_read, restored_read, restored_place numbered]
    cases target with
    | localVar x => exact .localVar info x
    | param i => exact .param info i
    | field name => exact .field info name
  binary onLeft onRight strays := by
    obtain ⟨hleft, hright⟩ := List.append_eq_nil_iff.mp strays
    exact .binary _ _ (onLeft hleft) (onRight hright)
  unary inside strays := .unary _ _ (inside strays)
  call inside strays := .call _ _ (inside strays)
  lambda inside strays := .lambda _ (inside.copy strays)
  noArgs _ := .nil
  args first others strays := by
    obtain ⟨hfirst, hothers⟩ := List.append_eq_nil_iff.mp strays
    exact .cons (first hfirst) (others hothers)
  expr value strays := .expr _ (value strays)
  declare free _ := .declare _ (by simp [SlotLayout.Keeps, free])
  bind free value strays := .bind _ (by simp [SlotLayout.Keeps, free]) (value strays)
  store {_ _ x _ _} kept value strays := by
    have hplace := restored_place numbered (.localVar x)
    rw [SlotLayout.place_local kept] at hplace
    rw [Stmt.restored, hplace]
    exact .store _ (by simp [SlotLayout.Keeps, kept]) (value strays)
  assign value strays := by
    rw [Stmt.restored, restored_place numbered]
    exact .assign _ _ (value strays)
  branch cond first second strays := by
    obtain ⟨strays, hsecond⟩ := List.append_eq_nil_iff.mp strays
    obtain ⟨hcond, hfirst⟩ := List.append_eq_nil_iff.mp strays
    exact .branch _ (cond hcond) (first.copy hfirst) (second.copy hsecond)
  loop cond inside strays := by
    obtain ⟨hcond, hinside⟩ := List.append_eq_nil_iff.mp strays
    exact .loop _ (cond hcond) (inside.copy hinside)
  breakLoop _ := .breakLoop _
  continueLoop _ := .continueLoop _
  leave _ := .leave _
  ret value strays := .ret _ (value strays)
  finish _ := .finish _
  finishWith value strays := .finishWith _ (value strays)

/-! ### Hoisted variables are not mentioned -/

theorem unhoisted_place (target : Bound.Place) :
    ∀ o ∈ (l.place target).variables, l.slotOf? o = none := by
  generalize hplace : l.place target = place
  cases SlotLayout.placed hplace with
  | localSlot | paramSlot | field => exact List.forall_mem_nil _
  | localVar free | param free => exact List.forall_mem_singleton.mpr free

theorem variables_read (info : ExprInfo) (place : Machine.Place) :
    (place.read info).variables = place.variables := by
  cases place <;> rfl

/-- Blocks mention no hoisted variable when their statements do not. -/
theorem Slotwise.Block.unhoisted
    (h : Slotwise.Block l (fun _ _ s' => ∀ o ∈ s'.variables, l.slotOf? o = none)
      inClosure stmts) :
    ∀ o ∈ Machine.variablesOf (slottedBlock l inClosure stmts), l.slotOf? o = none := by
  intro o ho
  rw [Machine.variablesOf_eq_flatMap] at ho
  obtain ⟨s', hs', ho⟩ := List.mem_flatMap.mp ho
  obtain ⟨_, _, hs⟩ := h.forall_mem hs'
  exact hs o ho

/-- **Slotted code mentions no hoisted variable.** -/
theorem slotwise_unhoisted :
    Slotwise l (fun e => ∀ o ∈ (slottedExpr l e).variables, l.slotOf? o = none)
    (fun args => ∀ o ∈ Machine.variablesOfArgs (slottedArgs l args), l.slotOf? o = none)
    fun _ _ s' => ∀ o ∈ s'.variables, l.slotOf? o = none where
  constant {e} h o ho := by cases e <;> first | cases ho | cases h
  read info target := by
    rw [slottedExpr_read, variables_read]
    exact unhoisted_place target
  binary onLeft onRight := List.forall_mem_append.mpr ⟨onLeft, onRight⟩
  unary inside := inside
  call inside := inside
  lambda inside := inside.unhoisted
  noArgs := List.forall_mem_nil _
  args first others := List.forall_mem_append.mpr ⟨first, others⟩
  expr value := value
  declare free := List.forall_mem_singleton.mpr free
  bind free value := List.forall_mem_cons.mpr ⟨free, value⟩
  store _ value := value
  assign value := List.forall_mem_append.mpr ⟨unhoisted_place _, value⟩
  branch cond first second := List.forall_mem_append.mpr
    ⟨List.forall_mem_append.mpr ⟨cond, first.unhoisted⟩, second.unhoisted⟩
  loop cond inside := List.forall_mem_append.mpr ⟨cond, inside.unhoisted⟩
  breakLoop := List.forall_mem_nil _
  continueLoop := List.forall_mem_nil _
  leave := List.forall_mem_nil _
  ret value := value
  finish := List.forall_mem_nil _
  finishWith value := value

end

end Resumable
