import Resumable.Proofs.Body

/-!
# Machines up to names

A machine mentions strings by their numbers in a table.  Two machines that were made with
different tables mention the same strings when they are equal after a renaming of each.  This
module says what renaming does to a machine, and proves that **the code of a procedure depends
on the table only through the names of slots and of the dispatch**: segments, entry and
dispatch that are made from the same procedure, with layouts that differ in names only, are
equal after renaming.

## Main definitions

* `Machine.renamed f`: the machine with the function applied to every name in it.
* `Bound.Procedure.names`: the names that occur in a procedure.
* `AgreeOn f g names`: two functions agree on names.

## Main statements

* `overlong?_renamed`: renaming leaves the lengths of lists.
* `renamed_slottedExpr`, `renamed_slottedBlock`: slotted code of the same source.
* `renamed_segments`: the segments of the same body.
* `renamed_assemble`: the machines around them.
-/

namespace Resumable

open Resumable.Bound (Procedure)

variable {f g : Name → Name} {l l' : SlotLayout} {e : Bound.Expr} {q : SuspensionPoint}

/-! ### Renaming -/

/-- A type with its names renamed. -/
def Ty.renamed (f : Name → Name) : Ty → Ty
  | .object name => .object (f name)
  | .foreign name => .foreign (f name)
  | .array elem => .array (elem.renamed f)
  | .deferred output => .deferred (output.renamed f)
  | .byRef target => .byRef (target.renamed f)
  | .unit => .unit
  | .bool => .bool
  | .int => .int
  | .float => .float
  | .str => .str
  | .cancellation => .cancellation
  | .closure => .closure

/-- A parameter with its names renamed. -/
def Param.renamed (f : Name → Name) (p : Param) : Param :=
  { p with name := f p.name, ty := p.ty.renamed f }

/-- A declaration with its names renamed. -/
def LocalDecl.renamed (f : Name → Name) (d : LocalDecl) : LocalDecl :=
  { d with name := f d.name, ty := d.ty.renamed f }

/-- The information of an expression with its names renamed. -/
def ExprInfo.renamed (f : Name → Name) (i : ExprInfo) : ExprInfo :=
  { i with ty := i.ty.renamed f }

/-- A callee with its name renamed. -/
def CallTarget.renamed (f : Name → Name) : CallTarget → CallTarget
  | .primitive which => .primitive which
  | .procedure name => .procedure (f name)
  | .host name => .host (f name)

namespace Machine

/-- A place with its name renamed. -/
def Place.renamed (f : Name → Name) : Place → Place
  | .field name => .field (f name)
  | .localVar id => .localVar id
  | .param index => .param index
  | .slot id => .slot id

mutual

/-- An expression with its names renamed. -/
def Expr.renamed (f : Name → Name) : Expr → Expr
  | .int info value => .int (info.renamed f) value
  | .float info bits => .float (info.renamed f) bits
  | .bool info value => .bool (info.renamed f) value
  | .str info value => .str (info.renamed f) (f value)
  | .unit info => .unit (info.renamed f)
  | .localVar info id => .localVar (info.renamed f) id
  | .param info index => .param (info.renamed f) index
  | .field info name => .field (info.renamed f) (f name)
  | .slot info id => .slot (info.renamed f) id
  | .binary info op left right =>
    .binary (info.renamed f) op (left.renamed f) (right.renamed f)
  | .unary info op operand => .unary (info.renamed f) op (operand.renamed f)
  | .call info target args => .call (info.renamed f) (target.renamed f) (renamedArgs f args)
  | .lambda info body => .lambda (info.renamed f) (renamedBlock f body)
  | .tasksDone info tasks mode => .tasksDone (info.renamed f) tasks mode
  | .taskValue info tasks mode => .taskValue (info.renamed f) tasks mode
  | .cancelRequested info slot => .cancelRequested (info.renamed f) slot
  | .error info => .error (info.renamed f)
  | .absent => .absent

/-- Arguments with their names renamed. -/
def renamedArgs (f : Name → Name) : List Expr → List Expr
  | [] => []
  | e :: rest => e.renamed f :: renamedArgs f rest

/-- A statement with its names renamed. -/
def Stmt.renamed (f : Name → Name) : Stmt → Stmt
  | .expr span value => .expr span (value.renamed f)
  | .bind span id init => .bind span id (init.renamed f)
  | .assign span target value => .assign span (target.renamed f) (value.renamed f)
  | .branch span cond onTrue onFalse =>
    .branch span (cond.renamed f) (renamedBlock f onTrue) (renamedBlock f onFalse)
  | .loop span cond body => .loop span (cond.renamed f) (renamedBlock f body)
  | .breakLoop span => .breakLoop span
  | .continueLoop span => .continueLoop span
  | .ret span value => .ret span (value.renamed f)
  | .setState span state => .setState span state
  | .schedule span target timing => .schedule span (f target) (timing.renamed f)
  | .invoke span target => .invoke span (f target)
  | .finish span status value => .finish span status (value.renamed f)
  | .returnTask span => .returnTask span
  | .switch span scrutinee arms => .switch span scrutinee (renamedArms f arms)
  | .unresolved number => .unresolved number

/-- Statements with their names renamed. -/
def renamedBlock (f : Name → Name) : List Stmt → List Stmt
  | [] => []
  | s :: rest => s.renamed f :: renamedBlock f rest

/-- Arms with their names renamed. -/
def renamedArms (f : Name → Name) : List Arm → List Arm
  | [] => []
  | .mk value body :: rest => .mk value (renamedBlock f body) :: renamedArms f rest

/-- A timing with its names renamed. -/
def Timing.renamed (f : Name → Name) : Timing → Timing
  | .seconds duration => .seconds (duration.renamed f)
  | .frames count => .frames (count.renamed f)
  | .nextFrame => .nextFrame
  | .completion tasks mode => .completion tasks mode

end

/-- A slot with its names renamed. -/
def Slot.renamed (f : Name → Name) (s : Slot) : Slot :=
  { s with name := f s.name, ty := s.ty.renamed f }

/-- Code with its names renamed. -/
def Code.renamed (f : Name → Name) (c : Code) : Code :=
  ⟨f c.name, renamedBlock f c.body, renamedBlock f c.written⟩

/-- **A machine with every name in it renamed.** -/
def renamed (f : Name → Name) (m : Machine) : Machine :=
  { m with
    procedure := f m.procedure
    params := m.params.map (Param.renamed f)
    locals := m.locals.map (LocalDecl.renamed f)
    result := m.result.renamed f
    slots := m.slots.map (Slot.renamed f)
    entry := m.entry.renamed f
    dispatch := m.dispatch.renamed f }

theorem renamedBlock_eq_map (block : List Stmt) :
    renamedBlock f block = block.map (Stmt.renamed f) := by
  induction block with
  | nil => rfl
  | cons s rest ih => rw [renamedBlock, ih, List.map_cons]

@[simp] theorem renamedBlock_append (first rest : List Stmt) :
    renamedBlock f (first ++ rest) = renamedBlock f first ++ renamedBlock f rest := by
  simp only [renamedBlock_eq_map, List.map_append]

@[simp] theorem length_renamedBlock (block : List Stmt) :
    (renamedBlock f block).length = block.length := by
  rw [renamedBlock_eq_map, List.length_map]

theorem length_renamedArgs (args : List Expr) :
    (renamedArgs f args).length = args.length := by
  induction args with
  | nil => rfl
  | cons e rest ih => rw [renamedArgs, List.length_cons, List.length_cons, ih]

/-! ### Lengths -/

mutual

/-- Renaming keeps the lengths of the lists in an expression. -/
theorem Expr.listLengths_renamed : (e : Expr) → (e.renamed f).listLengths = e.listLengths
  | .int .. | .float .. | .bool .. | .str .. | .unit .. | .localVar ..
  | .param .. | .field .. | .slot .. | .tasksDone .. | .taskValue .. | .cancelRequested ..
  | .error .. | .absent => by
    simp only [Expr.renamed, Expr.listLengths]
  | .binary _ _ left right => by
    simp only [Expr.renamed, Expr.listLengths, left.listLengths_renamed,
      right.listLengths_renamed]
  | .unary _ _ operand => by
      simp only [Expr.renamed, Expr.listLengths, operand.listLengths_renamed]
  | .call _ _ args => by
    simp only [Expr.renamed, Expr.listLengths,
      listLengthsOfArgs_renamed args, length_renamedArgs]
  | .lambda _ body => by
    simp only [Expr.renamed, Expr.listLengths,
      listLengthsOf_renamed body, length_renamedBlock]

theorem listLengthsOfArgs_renamed :
    (args : List Expr) → listLengthsOfArgs (renamedArgs f args) = listLengthsOfArgs args
  | [] => rfl
  | e :: rest => by
    simp only [renamedArgs, listLengthsOfArgs, e.listLengths_renamed,
      listLengthsOfArgs_renamed rest]

/-- Renaming keeps the lengths of the lists in a statement. -/
theorem Stmt.listLengths_renamed : (s : Stmt) → (s.renamed f).listLengths = s.listLengths
  | .expr _ e | .bind _ _ e | .assign _ _ e | .ret _ e | .finish _ _ e => by
    simp only [Stmt.renamed, Stmt.listLengths, e.listLengths_renamed]
  | .branch _ cond onTrue onFalse => by
    simp only [Stmt.renamed, Stmt.listLengths, cond.listLengths_renamed,
      listLengthsOf_renamed onTrue, listLengthsOf_renamed onFalse, length_renamedBlock]
  | .loop _ cond body => by
    simp only [Stmt.renamed, Stmt.listLengths, cond.listLengths_renamed,
      listLengthsOf_renamed body, length_renamedBlock]
  | .schedule _ _ timing => by
      simp only [Stmt.renamed, Stmt.listLengths, timing.listLengths_renamed]
  | .switch _ _ arms => by
      simp only [Stmt.renamed, Stmt.listLengths, listLengthsOfArms_renamed arms]
  | .breakLoop _ | .continueLoop _ | .setState .. | .invoke .. | .returnTask
      _ | .unresolved _ => by
    simp only [Stmt.renamed, Stmt.listLengths]

theorem listLengthsOf_renamed :
    (block : List Stmt) → listLengthsOf (renamedBlock f block) = listLengthsOf block
  | [] => rfl
  | s :: rest => by
      simp only [renamedBlock, listLengthsOf, s.listLengths_renamed,
        listLengthsOf_renamed rest]

theorem listLengthsOfArms_renamed :
    (arms : List Arm) → listLengthsOfArms (renamedArms f arms) = listLengthsOfArms arms
  | [] => rfl
  | .mk _ body :: rest => by
    simp only [renamedArms, listLengthsOfArms,
      listLengthsOf_renamed body, length_renamedBlock, listLengthsOfArms_renamed rest]

theorem Timing.listLengths_renamed :
    (timing : Timing) → (timing.renamed f).listLengths = timing.listLengths
  | .seconds e | .frames e => by
      simp only [Timing.renamed, Timing.listLengths, e.listLengths_renamed]
  | .nextFrame | .completion .. => by simp only [Timing.renamed, Timing.listLengths]

end

/-- **Renaming leaves the lengths of lists**, so that it does not matter for whether a
machine can be stored. -/
theorem overlong?_renamed (m : Machine) : (m.renamed f).overlong? = m.overlong? := by
  simp only [overlong?, renamed, Code.renamed, listLengthsOf_renamed, length_renamedBlock]

end Machine

/-! ### Names that occur -/

/-- The names in a type. -/
def Ty.names : Ty → List Name
  | .object name | .foreign name => [name]
  | .array inner | .deferred inner | .byRef inner => inner.names
  | .unit | .bool | .int | .float | .str | .cancellation | .closure => []

/-- The name in a callee. -/
def CallTarget.names : CallTarget → List Name
  | .procedure name | .host name => [name]
  | .primitive _ => []

namespace Bound

/-- The name in a place. -/
def Place.names : Place → List Name
  | .field name => [name]
  | .localVar _ | .param _ => []

mutual

/-- The names in an expression. -/
def Expr.names : Expr → List Name
  | .int info _ | .float info _ | .bool info _ | .unit info | .localVar info _ | .param
      info _ | .error info =>
    info.ty.names
  | .str info name | .field info name => name :: info.ty.names
  | .binary info _ left right => info.ty.names ++ left.names ++ right.names
  | .unary info _ operand | .suspend info operand => info.ty.names ++ operand.names
  | .call info target args => info.ty.names ++ target.names ++ namesOfArgs args
  | .lambda info body => info.ty.names ++ namesOf body

/-- The names in arguments. -/
def namesOfArgs : List Expr → List Name
  | [] => []
  | e :: rest => e.names ++ namesOfArgs rest

/-- The names in a statement. -/
def Stmt.names : Stmt → List Name
  | .expr _ e | .bind _ _ e | .ret _ e | .yield _ e => e.names
  | .assign _ target value => target.names ++ value.names
  | .branch _ cond onTrue onFalse => cond.names ++ namesOf onTrue ++ namesOf onFalse
  | .loop _ cond body => cond.names ++ namesOf body
  | .goto _ label | .label _ label => [label]
  | .declare .. | .breakLoop _ | .continueLoop _ | .leave _ => []

/-- The names in statements. -/
def namesOf : List Stmt → List Name
  | [] => []
  | s :: rest => s.names ++ namesOf rest

end

/-- The names in a body. -/
def Body.names : Body → List Name
  | .block stmts => namesOf stmts
  | .expr e => e.names

/-- **The names that occur in a procedure.** -/
def Procedure.names (p : Procedure) : List Name :=
  p.name :: p.params.flatMap (fun param => param.name :: param.ty.names) ++
    p.locals.flatMap (fun decl => decl.name :: decl.ty.names) ++
      p.result.names ++ p.body.names

end Bound

/-- Two functions agree on names. -/
def AgreeOn {α : Type} (f g : Name → α) (names : List Name) : Prop :=
  ∀ name ∈ names, f name = g name

section

variable {α : Type} {f g : Name → α}

@[simp] theorem agreeOn_cons {name : Name} {rest : List Name} :
    AgreeOn f g (name :: rest) ↔ f name = g name ∧ AgreeOn f g rest := List.forall_mem_cons

@[simp] theorem agreeOn_append {first rest : List Name} :
    AgreeOn f g (first ++ rest) ↔ AgreeOn f g first ∧ AgreeOn f g rest :=
  List.forall_mem_append

/-- Agreeing on more names is agreeing on fewer. -/
theorem AgreeOn.of_subset {names fewer : List Name} (h : AgreeOn f g names)
    (hsub : fewer ⊆ names) : AgreeOn f g fewer :=
  fun name hname => h name (hsub hname)

end

/-- A type is renamed by what happens to its names. -/
theorem Ty.renamed_congr {t : Ty} (h : AgreeOn f g t.names) : t.renamed f = t.renamed g := by
  induction t with
  | object name | foreign name => simp_all [Ty.names, Ty.renamed]
  | array elem ih => exact congrArg Ty.array (ih h)
  | deferred output ih => exact congrArg Ty.deferred (ih h)
  | byRef target ih => exact congrArg Ty.byRef (ih h)
  | unit | bool | int | float | str | cancellation | closure => rfl

theorem ExprInfo.renamed_congr {i : ExprInfo} (h : AgreeOn f g i.ty.names) :
    i.renamed f = i.renamed g := by
  rw [ExprInfo.renamed, ExprInfo.renamed, Ty.renamed_congr h]

theorem CallTarget.renamed_congr {t : CallTarget} (h : AgreeOn f g t.names) :
    t.renamed f = t.renamed g := by
  cases t with
  | primitive which => rfl
  | procedure name | host name => simp_all [CallTarget.names, CallTarget.renamed]

theorem Param.renamed_congr {p : Param} (h : AgreeOn f g (p.name :: p.ty.names)) :
    p.renamed f = p.renamed g := by
  obtain ⟨hname, hty⟩ := agreeOn_cons.mp h
  rw [Param.renamed, Param.renamed, hname, Ty.renamed_congr hty]

theorem LocalDecl.renamed_congr {d : LocalDecl} (h : AgreeOn f g (d.name :: d.ty.names)) :
    d.renamed f = d.renamed g := by
  obtain ⟨hname, hty⟩ := agreeOn_cons.mp h
  rw [LocalDecl.renamed, LocalDecl.renamed, hname, Ty.renamed_congr hty]

/-! ### Layouts -/

namespace SlotLayout

/-- A layout with its names renamed. -/
def renamed (f : Name → Name) (l : SlotLayout) : SlotLayout :=
  { l with slots := l.slots.map (Machine.Slot.renamed f) }

theorem slotWithRole?_renamed (f : Name → Name) (slots : List Machine.Slot)
    (role : Machine.Role) :
    slotWithRole? (slots.map (Machine.Slot.renamed f)) role = slotWithRole? slots role := by
  rw [slotWithRole?, slotWithRole?, List.find?_map, Option.map_map]
  rfl

variable (alike : l.renamed f = l'.renamed g)

include alike

/-- Layouts that differ in names only have the same slots for variables and tasks. -/
theorem local?_eq (id : LocalId) : l.local? id = l'.local? id := by
  have hslots :=
    congrArg (fun l : SlotLayout => slotWithRole? l.slots (.hoisted (.localVar id))) alike
  simpa only [renamed, slotWithRole?_renamed, local?] using hslots

theorem param?_eq (i : Nat) : l.param? i = l'.param? i := by
  have hslots :=
    congrArg (fun l : SlotLayout => slotWithRole? l.slots (.hoisted (.param i))) alike
  simpa only [renamed, slotWithRole?_renamed, param?] using hslots

theorem awaits_eq (point : Nat) : l.awaits point = l'.awaits point := by
  have hslots := congrArg (fun l : SlotLayout => l.awaits point) alike
  simp only [awaits, renamed, List.filterMap_map] at hslots
  exact hslots

theorem place_eq (target : Bound.Place) : l.place target = l'.place target := by
  cases target with
  | localVar id => rw [place, place, local?_eq alike]
  | param i => rw [place, place, param?_eq alike]
  | field name => rfl

theorem place_renamed {target : Bound.Place} (h : AgreeOn f g target.names) :
    (l.place target).renamed f = (l'.place target).renamed g := by
  rw [place_eq alike]
  cases target with
  | localVar id =>
    unfold place
    dsimp only
    split <;> rfl
  | param i =>
    unfold place
    dsimp only
    split <;> rfl
  | field name => exact congrArg Machine.Place.field (h name List.mem_cons_self)

end SlotLayout

/-! ### Slotted code -/

section

open Resumable.Machine (Expr Stmt renamedArgs renamedBlock renamedBlock_append
  renamedBlock_eq_map)

mutual

/-- **An expression of the same source** is the same after renaming. -/
theorem renamed_slottedExpr (alike : l.renamed f = l'.renamed g) :
    (e : Bound.Expr) → AgreeOn f g e.names →
      (slottedExpr l e).renamed f = (slottedExpr l' e).renamed g
  | .int .., h | .float .., h | .bool .., h | .unit .., h | .error .., h => by
    simp only [slottedExpr, Expr.renamed, ExprInfo.renamed_congr h]
  | .str .., h | .field .., h => by
    obtain ⟨hname, hinfo⟩ := agreeOn_cons.mp h
    simp only [slottedExpr, Expr.renamed, ExprInfo.renamed_congr hinfo, hname]
  | .localVar _ id, h => by
    simp only [slottedExpr, SlotLayout.local?_eq alike]
    cases l'.local? id <;> simp only [Expr.renamed, ExprInfo.renamed_congr h]
  | .param _ i, h => by
    simp only [slottedExpr, SlotLayout.param?_eq alike]
    cases l'.param? i <;> simp only [Expr.renamed, ExprInfo.renamed_congr h]
  | .binary _ _ left right, h => by
    simp only [Bound.Expr.names, agreeOn_append] at h
    simp only [slottedExpr, Expr.renamed, ExprInfo.renamed_congr h.1.1,
      renamed_slottedExpr alike left h.1.2, renamed_slottedExpr alike right h.2]
  | .unary _ _ operand, h => by
    simp only [Bound.Expr.names, agreeOn_append] at h
    simp only [slottedExpr, Expr.renamed, ExprInfo.renamed_congr h.1,
      renamed_slottedExpr alike operand h.2]
  | .suspend _ _, h => by
    simp only [Bound.Expr.names, agreeOn_append] at h
    simp only [slottedExpr, Expr.renamed, ExprInfo.renamed_congr h.1]
  | .call _ target args, h => by
    simp only [Bound.Expr.names, agreeOn_append] at h
    simp only [slottedExpr, Expr.renamed, ExprInfo.renamed_congr h.1.1,
      CallTarget.renamed_congr h.1.2, renamed_slottedArgs alike args h.2]
  | .lambda _ body, h => by
    simp only [Bound.Expr.names, agreeOn_append] at h
    simp only [slottedExpr, Expr.renamed, ExprInfo.renamed_congr h.1,
      renamed_slottedBlock alike true body h.2]

theorem renamed_slottedArgs (alike : l.renamed f = l'.renamed g) :
    (args : List Bound.Expr) → AgreeOn f g (Bound.namesOfArgs args) →
      renamedArgs f (slottedArgs l args) = renamedArgs g (slottedArgs l' args)
  | [], _ => rfl
  | e :: rest, h => by
    simp only [Bound.namesOfArgs, agreeOn_append] at h
    simp only [slottedArgs, renamedArgs, renamed_slottedExpr alike e h.1,
      renamed_slottedArgs alike rest h.2]

/-- **So is a statement**, where anything is left of it. -/
theorem renamed_slottedStmt (alike : l.renamed f = l'.renamed g) (inClosure : Bool) :
    (s : Bound.Stmt) → AgreeOn f g s.names →
    (slottedStmt l inClosure s).map (Stmt.renamed f) =
        (slottedStmt l' inClosure s).map (Stmt.renamed g)
  | .expr _ e, h => by
    simp only [slottedStmt, Option.map_some, Stmt.renamed, renamed_slottedExpr alike e h]
  | .declare _ id, _ => by
    simp only [slottedStmt, SlotLayout.local?_eq alike]
    cases l'.local? id <;> simp only [Option.map_some, Option.map_none,
      Stmt.renamed, Expr.renamed]
  | .bind _ id init, h => by
    simp only [slottedStmt, SlotLayout.local?_eq alike]
    cases l'.local? id <;>
      simp only [Option.map_some, Stmt.renamed, Machine.Place.renamed,
        renamed_slottedExpr alike init h]
  | .assign _ target value, h => by
    simp only [Bound.Stmt.names, agreeOn_append] at h
    simp only [slottedStmt, Option.map_some, Stmt.renamed, SlotLayout.place_renamed alike h.1,
      renamed_slottedExpr alike value h.2]
  | .branch _ cond onTrue onFalse, h => by
    simp only [Bound.Stmt.names, agreeOn_append] at h
    simp only [slottedStmt, Option.map_some, Stmt.renamed,
      renamed_slottedExpr alike cond h.1.1, renamed_slottedBlock alike inClosure onTrue h.1.2,
      renamed_slottedBlock alike inClosure onFalse h.2]
  | .loop _ cond body, h => by
    simp only [Bound.Stmt.names, agreeOn_append] at h
    simp only [slottedStmt, Option.map_some, Stmt.renamed, renamed_slottedExpr alike cond h.1,
      renamed_slottedBlock alike inClosure body h.2]
  | .ret _ value, h => by
    cases inClosure <;>
      simp [slottedStmt, Stmt.renamed, renamed_slottedExpr alike value h]
  | .leave _, _ => by cases inClosure <;> simp [slottedStmt, Stmt.renamed, Expr.renamed]
  | .breakLoop _, _ | .continueLoop _, _ | .goto .., _ | .label .., _ | .yield .., _ => by
    simp only [slottedStmt, Option.map_some, Option.map_none, Stmt.renamed]

/-- Blocks whose names agree are slotted alike. -/
theorem renamed_slottedBlock (alike : l.renamed f = l'.renamed g) (inClosure : Bool) :
    (block : List Bound.Stmt) → AgreeOn f g (Bound.namesOf block) →
      renamedBlock f (slottedBlock l inClosure block) =
        renamedBlock g (slottedBlock l' inClosure block)
  | [], _ => rfl
  | s :: rest, h => by
    simp only [Bound.namesOf, agreeOn_append] at h
    have hfirst := renamed_slottedStmt alike inClosure s h.1
    have hrest := renamed_slottedBlock alike inClosure rest h.2
    simp only [slottedBlock]
    cases hs : slottedStmt l inClosure s <;> cases hs' : slottedStmt l' inClosure s <;>
      rw [hs, hs'] at hfirst
    · exact hrest
    · cases hfirst
    · cases hfirst
    · simp only [renamedBlock, Option.some.inj hfirst, hrest]

end

/-! ### Segments -/

/-- A request with its names renamed. -/
def Resumption.renamed (f : Name → Name) : Resumption → Resumption
  | .seconds duration => .seconds (duration.renamed f)
  | .frames count => .frames (count.renamed f)
  | .nextFrame => .nextFrame
  | .join mode tasks => .join mode tasks
  | .delegate task => .delegate task

/-- The end of a segment with its names renamed. -/
def SegmentExit.renamed (f : Name → Name) (e : SegmentExit) : SegmentExit :=
  { e with request := e.request.renamed f }

/-- A segment with its names renamed. -/
def Segment.renamed (f : Name → Name) (s : Segment) : Segment :=
  { s with body := renamedBlock f s.body, exit := s.exit.map (SegmentExit.renamed f) }

/-- The names that a point brings into the code: those of its operands, of its value and of
where that goes. -/
def SuspensionPoint.names (q : SuspensionPoint) : List Name :=
  Bound.namesOfArgs q.kind.operands ++ q.valueTy.names ++
    (q.delivery.map fun d => d.target.names).getD []

/-- Two functions agree on the names of a stretch. -/
structure Stretch.Agrees (f g : Name → Name) (st : Stretch) : Prop where
  stmts : ∀ s ∈ st.stmts, AgreeOn f g s.names
  opening : ∀ q, st.opening = some q → AgreeOn f g q.names
  closing : ∀ q, st.closing = some q → AgreeOn f g q.names

/-- The names of an argument are among those of the call. -/
theorem Bound.names_subset_namesOfArgs {args : List Bound.Expr} (he : e ∈ args) :
    e.names ⊆ Bound.namesOfArgs args := by
  induction args with
  | nil => cases he
  | cons first rest ih =>
    rcases List.mem_cons.mp he with rfl | he
    · exact List.subset_append_left _ _
    · exact List.Subset.trans (ih he) (List.subset_append_right _ _)

/-- The operands of a point are among what it brings in. -/
theorem SuspensionPoint.agree_operand (h : AgreeOn f g q.names) (he : e ∈ q.kind.operands) :
    AgreeOn f g e.names :=
  (agreeOn_append.mp (agreeOn_append.mp h).1).1.of_subset (Bound.names_subset_namesOfArgs he)

theorem Usage.accessAll_eq (alike : l.renamed f = l'.renamed g) (u : Usage)
    (accesses : List Bound.Access) : u.accessAll l accesses = u.accessAll l' accesses := by
  have haccess : Usage.access l = Usage.access l' := by
    funext u a
    cases a <;> simp only [Usage.access, SlotLayout.local?_eq alike]
  rw [Usage.accessAll, Usage.accessAll, haccess]

theorem firstAssigned?_eq (alike : l.renamed f = l'.renamed g) (u : Usage) (s : Bound.Stmt) :
    firstAssigned? l u s = firstAssigned? l' u s := by
  unfold firstAssigned?
  split
  · rw [SlotLayout.local?_eq alike]
  · rfl

/-- A top-level statement, and what it leaves to be introduced. -/
theorem renamed_topStmt (alike : l.renamed f = l'.renamed g) (u : Usage) {s : Bound.Stmt}
    (h : AgreeOn f g s.names) :
    (topStmt l u s).1.map (Stmt.renamed f) = (topStmt l' u s).1.map (Stmt.renamed g) ∧
      (topStmt l u s).2 = (topStmt l' u s).2 := by
  unfold topStmt
  rw [← firstAssigned?_eq alike]
  cases hfirst : firstAssigned? l u s with
  | none => exact ⟨renamed_slottedStmt alike false s h, Usage.accessAll_eq alike u _⟩
  | some assigned =>
    obtain ⟨span, id, value⟩ := assigned
    obtain ⟨info, rfl, -⟩ := eq_assign_of_firstAssigned? hfirst
    have hvalue :=
      renamed_slottedExpr alike value (h.of_subset (List.subset_append_right _ _))
    refine ⟨?_, congrArg (Usage.declare · id) (Usage.accessAll_eq alike u _)⟩
    simp only [Option.map_some, Stmt.renamed, hvalue]

theorem renamedBlock_toList (s? : Option Stmt) :
    renamedBlock f s?.toList = (s?.map (Stmt.renamed f)).toList := by
  cases s? <;> rfl

section

variable (alike : l.renamed f = l'.renamed g)

include alike

theorem renamed_topStmts (u : Usage) {stmts : List Bound.Stmt}
    (h : ∀ s ∈ stmts, AgreeOn f g s.names) :
    renamedBlock f (topStmts l u stmts).1 = renamedBlock g (topStmts l' u stmts).1 ∧
      (topStmts l u stmts).2 = (topStmts l' u stmts).2 := by
  induction stmts generalizing u with
  | nil => exact ⟨rfl, rfl⟩
  | cons s rest ih =>
    obtain ⟨hs, hrest⟩ := List.forall_mem_cons.mp h
    obtain ⟨hfirst, husage⟩ := renamed_topStmt alike u hs
    obtain ⟨hothers, hafter⟩ := ih (topStmt l' u s).2 hrest
    simp only [topStmts, renamedBlock_append, renamedBlock_toList, hfirst, husage,
      hothers, hafter, and_self]

/-- The delivery of a value, and what it leaves to be introduced. -/
theorem renamed_deliveryStmt (u : Usage) (h : AgreeOn f g q.names) :
    (deliveryStmt l q u).1.map (Stmt.renamed f) =
      (deliveryStmt l' q u).1.map (Stmt.renamed g) ∧
      (deliveryStmt l q u).2 = (deliveryStmt l' q u).2 := by
  obtain ⟨hvalue, htarget⟩ := agreeOn_append.mp h
  replace hvalue := (agreeOn_append.mp hvalue).2
  unfold deliveryStmt
  cases hdelivery : q.delivery with
  | none => exact ⟨rfl, rfl⟩
  | some delivery =>
    rw [hdelivery] at htarget
    have hplace : (l'.place delivery.target).renamed f =
      (l'.place delivery.target).renamed g :=
      SlotLayout.place_eq alike delivery.target ▸ SlotLayout.place_renamed alike htarget
    dsimp only
    rw [SlotLayout.place_eq alike]
    rw [SlotLayout.awaits_eq alike]
    split
    case isFalse => exact ⟨rfl, rfl⟩
    case isTrue =>
      split
      case h_1 id _ =>
        simp only [Option.map_some, Stmt.renamed, Expr.renamed, ExprInfo.renamed,
          Ty.renamed_congr hvalue, and_self]
      case h_2 =>
        simp only [Option.map_some, Stmt.renamed, Expr.renamed, ExprInfo.renamed,
          Ty.renamed_congr hvalue, hplace, and_self]

theorem taskStores_eq (q : SuspensionPoint) : taskStores l q = taskStores l' q := by
  rw [taskStores, taskStores, SlotLayout.awaits_eq alike]

theorem closingOperands_eq (q : SuspensionPoint) :
    closingOperands l q = closingOperands l' q := by
  unfold closingOperands
  rw [taskStores_eq alike]

/-- What an operand is asked for, by the operands of the point. -/
theorem renamed_resumptionOf (h : AgreeOn f g q.names) :
    (resumptionOf l q).renamed f = (resumptionOf l' q).renamed g := by
  have hoperands (e : Bound.Expr) (he : e ∈ q.kind.operands) := q.agree_operand h he
  unfold resumptionOf
  rw [SlotLayout.awaits_eq alike]
  cases hkind : q.kind with
  | timedDelay e | frameDelay e =>
    rw [hkind] at hoperands
    simp only [Resumption.renamed, renamed_slottedExpr alike e
      (hoperands e List.mem_cons_self)]
  | yieldStep | joinAll | joinAny => rfl
  | delegate e => cases l'.awaits q.index <;> rfl

end

namespace Stretch

variable {st : Stretch}

theorem strays_eq (alike : l.renamed f = l'.renamed g) (st : Stretch) :
    st.strays l = st.strays l' := by
  unfold strays closingStrays
  simp only [closingOperands_eq alike, SlotLayout.awaits_eq alike]

theorem renamed_stores (alike : l.renamed f = l'.renamed g) (h : st.Agrees f g) :
    renamedBlock f (st.stores l) = renamedBlock g (st.stores l') := by
  unfold stores
  cases hclosing : st.closing with
  | none => rfl
  | some q =>
    dsimp only
    rw [renamedBlock_eq_map, renamedBlock_eq_map, List.map_map,
      List.map_map, taskStores_eq alike]
    refine List.map_congr_left fun store hstore => ?_
    have he := q.agree_operand (h.closing q hclosing)
      (SuspensionKind.mem_operands_of_awaited (List.of_mem_zip hstore).1)
    simp only [Function.comp_apply, taskStore, Stmt.renamed, Machine.Place.renamed,
      renamed_slottedExpr alike _ he]

theorem renamed_delivery (alike : l.renamed f = l'.renamed g) (h : st.Agrees f g) :
    (st.delivery l).1.map (Stmt.renamed f) = (st.delivery l').1.map (Stmt.renamed g) ∧
      (st.delivery l).2 = (st.delivery l').2 := by
  unfold delivery
  cases hopening : st.opening with
  | none => exact ⟨rfl, rfl⟩
  | some q => exact renamed_deliveryStmt alike .none (h.opening q hopening)

theorem renamedBlock_introduce (ids : List LocalId) :
    renamedBlock f (ids.map introduce) = ids.map introduce := by
  rw [renamedBlock_eq_map, List.map_map]
  rfl

/-- **The segment of a stretch.** -/
theorem renamed_segment (alike : l.renamed f = l'.renamed g) (index : Nat)
    (h : st.Agrees f g) :
    (st.segment l index).renamed f = (st.segment l' index).renamed g := by
  obtain ⟨hdelivered, hopen⟩ := renamed_delivery alike h
  obtain ⟨hstmts, hafter⟩ := renamed_topStmts alike (st.delivery l').2 h.stmts
  have haccesses : st.closingAccesses l = st.closingAccesses l' := by
    unfold closingAccesses
    simp only [closingOperands_eq alike]
  have hexit : (st.exit? l).map (SegmentExit.renamed f) = (st.exit? l').map
    (SegmentExit.renamed g) := by
    unfold exit?
    cases hclosing : st.closing with
    | none => rfl
    | some q =>
      simp only [Option.map_some, SegmentExit.renamed, renamed_resumptionOf alike
        (h.closing q hclosing)]
  simp only [segment, Segment.renamed, renamedBlock_append, renamedBlock_toList,
    renamedBlock_introduce, hdelivered, hopen, hstmts, hafter, haccesses,
    Usage.accessAll_eq alike, renamed_stores alike h, hexit]

end Stretch

/-- **The segments of the same body** are the same after renaming, and so are the reasons why
there are none. -/
theorem renamed_segments (alike : l.renamed f = l'.renamed g) (p : Procedure)
    {points : List SuspensionPoint} (h : ∀ st ∈ cut p.stmts points, st.Agrees f g) :
    (segments p points l).map (List.map (Segment.renamed f)) =
      (segments p points l').map (List.map (Segment.renamed g)) := by
  unfold segments
  unfold Procedure.stmts at h
  cases hbody : p.body with
  | expr e => rfl
  | block stmts =>
    rw [hbody] at h
    simp only [Stretch.strays_eq alike]
    split
    case isFalse => rfl
    case isTrue =>
      simp only [Except.map]
      congr 1
      refine List.ext_getElem? fun i => ?_
      rw [List.getElem?_map, List.getElem?_map, List.getElem?_mapIdx, List.getElem?_mapIdx]
      cases hst : (cut stmts points)[i]? with
      | none => rfl
      | some st =>
        exact congrArg some (st.renamed_segment alike i (h st (List.mem_of_getElem? hst)))

/-! ### Entry and dispatch

Around the segments, renaming commutes with the construction. -/

theorem renamed_timing (r : Resumption) : r.timing.renamed f = (r.renamed f).timing := by
  cases r <;> rfl

theorem awaited?_renamed (r : Resumption) : (r.renamed f).awaited? = r.awaited? := by
  cases r <;> rfl

theorem renamedBlock_armEnd (span : Span) (dispatch : Name) (s : Segment) :
    renamedBlock f (armEnd span dispatch s) = armEnd span (f dispatch) (s.renamed f) := by
  obtain ⟨index, body, exit⟩ := s
  cases exit with
  | none => rfl
  | some exit =>
    simp only [armEnd, leaveProcedure, renamedBlock, Segment.renamed,
      Option.map_some, SegmentExit.renamed, Stmt.renamed, Expr.renamed, renamed_timing]

/-- The arm of a segment is the arm of the renamed one. -/
theorem renamedArms_armsFrom (span : Span) (l : SlotLayout) (dispatch : Name)
    (previous : Option Segment) (segs : List Segment) :
    Machine.renamedArms f (armsFrom span l dispatch previous segs) =
      armsFrom span (l.renamed f) (f dispatch) (previous.map (Segment.renamed f))
        (segs.map (Segment.renamed f)) := by
  induction segs generalizing previous with
  | nil => rfl
  | cons s rest ih =>
    have hawaited : ((previous.map (Segment.renamed f)).bind Segment.exit).bind
      (fun exit => exit.request.awaited?) =
        (previous.bind Segment.exit).bind fun exit => exit.request.awaited? := by
      cases previous with
      | none => rfl
      | some earlier =>
        obtain ⟨index, body, exit⟩ := earlier
        cases exit with
        | none => rfl
        | some exit => exact awaited?_renamed exit.request
    have hcancel : renamedBlock f (l.cancel.map (cancelCheck span)).toList =
        (l.cancel.map (cancelCheck span)).toList := by
      cases l.cancel <;> rfl
    simp only [armsFrom, armOf, Machine.renamedArms, renamedBlock_append,
      renamedBlock_armEnd, ih, hawaited, hcancel, List.map_cons, Option.map_some]
    cases (previous.bind Segment.exit).bind fun exit => exit.request.awaited? <;> rfl

theorem renamedBlock_dispatchBody (span : Span) (segs : List Segment) (l : SlotLayout)
    (dispatch : Name) :
    renamedBlock f (dispatchBody span segs l dispatch) =
      dispatchBody span (segs.map (Segment.renamed f)) (l.renamed f) (f dispatch) := by
  simp only [dispatchBody, renamedBlock, Stmt.renamed, renamedArms_armsFrom]
  rfl

theorem renamedBlock_paramStores (p : Procedure) (slots : List Machine.Slot) :
    renamedBlock f (slots.filterMap (paramStore p)) =
      (slots.map (Machine.Slot.renamed f)).filterMap
        (paramStore { p with params := p.params.map (Param.renamed f) }) := by
  rw [renamedBlock_eq_map, List.map_filterMap, List.filterMap_map]
  refine List.filterMap_congr fun slot _ => ?_
  obtain ⟨id, name, ty, role⟩ := slot
  cases role with
  | hoisted origin =>
    cases origin with
    | localVar id => rfl
    | param i =>
      simp only [Function.comp_apply, Machine.Slot.renamed, paramStore,
        Procedure.param?, List.getElem?_map]
      cases p.params[i]? <;> rfl
  | state | status | result | awaited => rfl

theorem renamedBlock_entryBody (p : Procedure) (l : SlotLayout) (dispatch : Name) :
    renamedBlock f (entryBody p l dispatch) =
      entryBody { p with params := p.params.map (Param.renamed f) }
        (l.renamed f) (f dispatch) := by
  simp only [entryBody, renamedBlock_append, renamedBlock_paramStores]
  rfl

/-- **The machines around the segments of the same procedure.** -/
theorem renamed_assemble {p : Procedure} {segs segs' : List Segment}
    {dispatch dispatch' : Name} (alike : l.renamed f = l'.renamed g)
    (hsegs : segs.map (Segment.renamed f) = segs'.map (Segment.renamed g))
    (hdispatch : f dispatch = g dispatch') (h : AgreeOn f g p.names) :
    (assemble p segs l dispatch).renamed f = (assemble p segs' l' dispatch').renamed g := by
  simp only [Procedure.names, List.cons_append, agreeOn_cons, agreeOn_append] at h
  obtain ⟨hname, ⟨⟨hparams, hlocals⟩, hresult⟩, -⟩ := h
  have hparams : p.params.map (Param.renamed f) = p.params.map (Param.renamed g) :=
    List.map_congr_left fun param hparam =>
      Param.renamed_congr (hparams.of_subset fun _ hmem =>
        List.mem_flatMap.mpr ⟨param, hparam, hmem⟩)
  have hlocals (keep : LocalDecl → Bool) :
      (p.locals.filter keep).map (LocalDecl.renamed f) = (p.locals.filter keep).map
        (LocalDecl.renamed g) :=
    List.map_congr_left fun decl hdecl => LocalDecl.renamed_congr
      (hlocals.of_subset fun _ hmem => List.mem_flatMap.mpr
        ⟨decl, List.mem_of_mem_filter hdecl, hmem⟩)
  have hcount : segs.length = segs'.length := by simpa using congrArg List.length hsegs
  obtain ⟨hslots, hstate, hstatus, hresultSlot, hcancel⟩ := SlotLayout.mk.inj alike
  simp only [assemble, Machine.renamed, Machine.Code.renamed, renamedBlock_entryBody,
    renamedBlock_dispatchBody, SlotLayout.local?_eq alike, hname, hparams, hlocals,
    Ty.renamed_congr hresult, hslots, hstate, hstatus, hresultSlot,
    hcancel, hdispatch, hsegs, hcount, alike]

end

end Resumable
