import Resumable.Proofs.Layout
import Resumable.Proofs.Effect

/-!
# Slotted code is plain

Moving variables into slots makes plain code: the slots it writes are those of variables and
of awaited tasks, what it calls the source called, and it finishes the activation only where
the source returns.

## Main definitions

* `SlotLayout.policy`: what the code of a machine may write and call.
* `CodeKind.Hosts`: may code of a kind hold statements of the source?
* `Slotwise`: what holds of slotted code when it holds of its parts.
* `Stretch.Holds`, `SuspensionPoint.Requests`: what stands in a segment, and what it
  asks for as it ends.

## Main statements

* `Slotwise.onExpr`, `Slotwise.onStmt`: it then holds of all slotted code.
* `slotwise_plain`: slotted code is plain.
* `Stretch.segment_plain`: the body of a segment is plain.
-/

namespace Resumable

open Resumable.Bound (Expr Place Stmt returnsIn)
open Machine (Role SlotId)

variable {kind : CodeKind} {inClosure : Bool} {l : SlotLayout} {target : Place}
  {stmts : List Stmt} {s' : Machine.Stmt} {slot : SlotId}

/-- Is the slot one of the machine itself, and not one of a variable or an awaited task? -/
def Machine.Role.isFixed : Role → Bool
  | .state | .status | .result => true
  | .hoisted _ | .awaited .. => false

/-- What the code of a machine may write and call: the slots of variables and awaited tasks,
and the callees of its source. -/
def SlotLayout.policy (l : SlotLayout) (targets : CallTarget → Prop) : Policy where
  slots id := ∃ slot, l.slots[id]? = some slot ∧ slot.role.isFixed = false
  targets

/-- Strays are found statement by statement. -/
theorem blockStrays_eq_flatMap (stmts : List Stmt) :
    blockStrays stmts = stmts.flatMap stmtStrays := by
  induction stmts with
  | nil => rfl
  | cons s rest ih => rw [blockStrays, ih, List.flatMap_cons]

/-- May code of a kind hold statements of the source that are, or are not, in a closure, and
that return or do not? -/
def CodeKind.Hosts (kind : CodeKind) (inClosure returns : Bool) : Prop :=
  if inClosure then kind = .closure else returns = true → kind = .lastSegment

theorem CodeKind.Hosts.mono {a b : Bool} (h : kind.Hosts inClosure a)
    (hab : b = true → a = true) : kind.Hosts inClosure b := by
  cases inClosure with
  | true => exact h
  | false => exact fun hb => h (hab hb)

/-! ### Places -/

namespace SlotLayout

variable {x : LocalId} {i : Nat} {k : SlotId}

/-- A hoisted local is its slot. -/
theorem place_local (h : l.local? x = some k) : l.place (.localVar x) = .slot k := by
  simp only [place, h]

/-- A local with no slot stays where it is. -/
theorem place_local_of_none (h : l.local? x = none) :
    l.place (.localVar x) = .localVar x := by
  simp only [place, h]

/-- A hoisted parameter is its slot. -/
theorem place_param (h : l.param? i = some k) : l.place (.param i) = .slot k := by
  simp only [place, h]

theorem place_param_of_none (h : l.param? i = none) : l.place (.param i) = .param i := by
  simp only [place, h]

/-- **Where a place is kept**: in the slot of its variable, or where it was. -/
inductive Placed (l : SlotLayout) : Place → Machine.Place → Prop where
  | localSlot {x : LocalId} {slot : SlotId} (kept : l.local? x = some slot) :
    l.Placed (.localVar x) (.slot slot)
  | localVar {x : LocalId} (free : l.local? x = none) : l.Placed (.localVar x) (.localVar x)
  | paramSlot {i : Nat} {slot : SlotId} (kept : l.param? i = some slot) :
    l.Placed (.param i) (.slot slot)
  | param {i : Nat} (free : l.param? i = none) : l.Placed (.param i) (.param i)
  | field (name : Name) : l.Placed (.field name) (.field name)

/-- Every place is where the layout puts it. -/
theorem placed {place : Machine.Place} (h : l.place target = place) :
    l.Placed target place := by
  subst h
  cases target with
  | field name => exact .field name
  | localVar x =>
    cases h : l.local? x with
    | none => exact place_local_of_none h ▸ .localVar h
    | some slot => exact place_local h ▸ .localSlot h
  | param i =>
    cases h : l.param? i with
    | none => exact place_param_of_none h ▸ .param h
    | some slot => exact place_param h ▸ .paramSlot h

/-- A slot in which a variable is kept has its role. -/
theorem role_of_place (numbered : Numbered l.slots) (h : l.place target = .slot k) :
    ∃ slot origin, l.slots[k]? = some slot ∧ slot.role = .hoisted origin := by
  cases placed h with
  | localSlot kept | paramSlot kept =>
    obtain ⟨slot, hslot, hrole⟩ := numbered.role_of_slotWithRole? kept
    exact ⟨slot, _, hslot, hrole⟩

end SlotLayout

/-- Is the expression a constant in code?  A suspension that is left stands for an error. -/
def Bound.Expr.isConstant : Expr → Bool
  | .int .. | .float .. | .bool .. | .str .. | .unit .. | .error .. | .suspend .. => true
  | _ => false

/-- The place as it is read. -/
def Bound.Place.read (info : ExprInfo) : Place → Expr
  | .localVar x => .localVar info x
  | .param i => .param info i
  | .field name => .field info name

/-- The place as it is read. -/
def Machine.Place.read (info : ExprInfo) : Machine.Place → Machine.Expr
  | .localVar x => .localVar info x
  | .param i => .param info i
  | .field name => .field info name
  | .slot id => .slot info id

/-- A read of a place becomes a read of where it was put. -/
theorem slottedExpr_read (l : SlotLayout) (info : ExprInfo) (target : Place) :
    slottedExpr l (target.read info) = (l.place target).read info := by
  generalize hplace : l.place target = place
  cases SlotLayout.placed hplace <;> simp_all [Place.read, Machine.Place.read, slottedExpr]

/-! ### What holds of slotted code -/

theorem mem_slottedBlock :
    s' ∈ slottedBlock l inClosure stmts ↔
    ∃ s ∈ stmts, slottedStmt l inClosure s = some s' := by
  induction stmts with
  | nil => simp [slottedBlock]
  | cons s rest ih =>
    unfold slottedBlock
    cases hs : slottedStmt l inClosure s <;> simp [hs, ih, eq_comm]

/-- What is left of statements is as said, one by one. -/
def Slotwise.Block (l : SlotLayout) (S : Bool → Stmt → Machine.Stmt → Prop) (inClosure : Bool)
    (stmts : List Stmt) : Prop :=
  ∀ s ∈ stmts, ∀ s' ∈ slottedStmt l inClosure s, S inClosure s s'

/-- **What holds of slotted code when it holds of its parts**, construct by construct:
of the expressions, given by their source, and of the statements that are left, in
closures or outside. -/
structure Slotwise (l : SlotLayout) (E : Expr → Prop) (A : List Expr → Prop)
    (S : Bool → Stmt → Machine.Stmt → Prop) : Prop where
  constant {e} (h : e.isConstant = true) : E e
  read (info : ExprInfo) (target : Place) : E (target.read info)
  binary {info op left right} (onLeft : E left) (onRight : E right) :
    E (.binary info op left right)
  unary {info op operand} (inside : E operand) : E (.unary info op operand)
  call {info target args} (inside : A args) : E (.call info target args)
  lambda {info body} (inside : Slotwise.Block l S true body) : E (.lambda info body)
  noArgs : A []
  args {e rest} (first : E e) (others : A rest) : A (e :: rest)
  expr {c info e} (value : E e) : S c (.expr info e) (.expr info.span (slottedExpr l e))
  declare {c info x} (free : l.local? x = none) :
    S c (.declare info x) (.bind info.span x .absent)
  bind {c info x e} (free : l.local? x = none) (value : E e) :
    S c (.bind info x e) (.bind info.span x (slottedExpr l e))
  store {c info x slot e} (kept : l.local? x = some slot) (value : E e) :
    S c (.bind info x e) (.assign info.span (.slot slot) (slottedExpr l e))
  assign {c info target e} (value : E e) :
    S c (.assign info target e) (.assign info.span (l.place target) (slottedExpr l e))
  branch {c info e onTrue onFalse} (cond : E e) (first : Slotwise.Block l S c onTrue)
    (second : Slotwise.Block l S c onFalse) : S c (.branch info e onTrue onFalse)
      (.branch info.span (slottedExpr l e) (slottedBlock l c onTrue)
        (slottedBlock l c onFalse))
  loop {c info e body} (cond : E e) (inside : Slotwise.Block l S c body) :
    S c (.loop info e body) (.loop info.span (slottedExpr l e) (slottedBlock l c body))
  breakLoop {c info} : S c (.breakLoop info) (.breakLoop info.span)
  continueLoop {c info} : S c (.continueLoop info) (.continueLoop info.span)
  leave {info} : S true (.leave info) (.ret info.span .absent)
  ret {info e} (value : E e) : S true (.ret info e) (.ret info.span (slottedExpr l e))
  finish {info} : S false (.leave info) (.finish info.span .succeeded .absent)
  finishWith {info e} (value : E e) : S false (.ret info e)
    (.finish info.span .succeeded (slottedExpr l e))

namespace Slotwise

variable {E : Expr → Prop} {A : List Expr → Prop} {S : Bool → Stmt → Machine.Stmt → Prop}

/-- What is said of each statement that is left holds throughout the code. -/
theorem Block.forall_mem (h : Block l S inClosure stmts)
    (hs' : s' ∈ slottedBlock l inClosure stmts) : ∃ s ∈ stmts, S inClosure s s' := by
  obtain ⟨s, hs, heq⟩ := mem_slottedBlock.mp hs'
  exact ⟨s, hs, h s hs s' heq⟩

mutual

/-- What holds slot by slot holds of every expression. -/
theorem onExpr (h : Slotwise l E A S) : (e : Expr) → E e
  | .int .. | .float .. | .bool .. | .str .. | .unit .. | .error .. | .suspend .. =>
    h.constant rfl
  | .localVar info x => h.read info (.localVar x)
  | .param info i => h.read info (.param i)
  | .field info name => h.read info (.field name)
  | .binary _ _ left right => h.binary (h.onExpr left) (h.onExpr right)
  | .unary _ _ operand => h.unary (h.onExpr operand)
  | .call _ _ args => h.call (h.onArgs args)
  | .lambda _ body => h.lambda (h.onBlock true body)

theorem onArgs (h : Slotwise l E A S) : (args : List Expr) → A args
  | [] => h.noArgs
  | e :: rest => h.args (h.onExpr e) (h.onArgs rest)

/-- What holds slot by slot holds of every placed statement. -/
theorem onStmt (h : Slotwise l E A S) (inClosure : Bool) :
    (s : Stmt) → ∀ s' ∈ slottedStmt l inClosure s, S inClosure s s'
  | .expr _ e, s', hs' => Option.some.inj hs' ▸ h.expr (h.onExpr e)
  | .declare _ x, s', hs' => by
    unfold slottedStmt at hs'
    cases hslot : l.local? x with
    | some slot => simp [hslot] at hs'
    | none =>
      simp only [hslot, Option.mem_def, Option.some.injEq] at hs'
      exact hs' ▸ h.declare hslot
  | .bind _ x e, s', hs' => by
    unfold slottedStmt at hs'
    cases hslot : l.local? x with
    | some slot =>
      simp only [hslot, Option.mem_def, Option.some.injEq] at hs'
      exact hs' ▸ h.store hslot (h.onExpr e)
    | none =>
      simp only [hslot, Option.mem_def, Option.some.injEq] at hs'
      exact hs' ▸ h.bind hslot (h.onExpr e)
  | .assign _ _ e, s', hs' => Option.some.inj hs' ▸ h.assign (h.onExpr e)
  | .branch _ cond onTrue onFalse, s', hs' =>
    Option.some.inj hs' ▸ h.branch (h.onExpr cond) (h.onBlock inClosure onTrue)
      (h.onBlock inClosure onFalse)
  | .loop _ cond body, s', hs' =>
    Option.some.inj hs' ▸ h.loop (h.onExpr cond) (h.onBlock inClosure body)
  | .breakLoop _, s', hs' => Option.some.inj hs' ▸ h.breakLoop
  | .continueLoop _, s', hs' => Option.some.inj hs' ▸ h.continueLoop
  | .leave _, s', hs' => by
    cases inClosure with
    | true => exact Option.some.inj hs' ▸ h.leave
    | false => exact Option.some.inj hs' ▸ h.finish
  | .ret _ e, s', hs' => by
    cases inClosure with
    | true => exact Option.some.inj hs' ▸ h.ret (h.onExpr e)
    | false => exact Option.some.inj hs' ▸ h.finishWith (h.onExpr e)

theorem onBlock (h : Slotwise l E A S) (inClosure : Bool) :
    (stmts : List Stmt) → Block l S inClosure stmts
  | [] => List.forall_mem_nil _
  | s :: rest => List.forall_mem_cons.mpr ⟨h.onStmt inClosure s, h.onBlock inClosure rest⟩

end

end Slotwise

theorem Bound.returnsIn_of_mem {s : Stmt} (hs : s ∈ stmts) (h : s.returns = true) :
    returnsIn stmts = true :=
  Bool.of_not_eq_false fun hnone => Bool.false_ne_true
    ((Bound.returnsIn_eq_false.mp hnone _ hs).symm.trans h)

section

variable {targets : CallTarget → Prop}

theorem policy_slots_of_role (numbered : Numbered l.slots) {origin : Machine.Origin}
    (h : slotWithRole? l.slots (.hoisted origin) = some slot) :
    (l.policy targets).slots slot := by
  obtain ⟨s, hs, hrole⟩ := numbered.role_of_slotWithRole? h
  exact ⟨s, hs, by rw [hrole]; rfl⟩

theorem place_plain (numbered : Numbered l.slots) (target : Place) :
    (l.place target).Plain (l.policy targets) := by
  generalize hplace : l.place target = place
  cases SlotLayout.placed hplace with
  | localSlot kept | paramSlot kept => exact policy_slots_of_role numbered kept
  | localVar | param | field => trivial

/-- A statement is plain in code of every kind that may hold its source. -/
def PlainIn (P : Policy) (inClosure : Bool) (s : Stmt) (s' : Machine.Stmt) : Prop :=
  ∀ kind : CodeKind, kind.Hosts inClosure s.returns →
    (∀ t ∈ s.callees, P.targets t) → s'.Plain P kind

theorem Slotwise.Block.plain {P : Policy} (h : Slotwise.Block l (PlainIn P) inClosure stmts)
    (hosts : kind.Hosts inClosure (returnsIn stmts))
    (htargets : ∀ t ∈ Bound.calleesOf stmts, P.targets t) :
    Machine.PlainBlock P kind (slottedBlock l inClosure stmts) := by
  refine Machine.plainBlock_iff.mpr fun s' hs' => ?_
  obtain ⟨s, hs, hplain⟩ := h.forall_mem hs'
  exact hplain kind (hosts.mono (Bound.returnsIn_of_mem hs)) fun t ht =>
    htargets t (Bound.mem_calleesOf.mpr ⟨s, hs, ht⟩)

/-- **Code with variables in slots is plain.** -/
theorem slotwise_plain (numbered : Numbered l.slots) (targets : CallTarget → Prop) :
    Slotwise l (fun e => (∀ t ∈ e.callees, targets t) →
      (slottedExpr l e).Plain (l.policy targets))
      (fun args => (∀ t ∈ Bound.calleesOfArgs args, targets t) →
        Machine.PlainArgs (l.policy targets) (slottedArgs l args))
          (PlainIn (l.policy targets)) where
  constant {e} h _ := by cases e <;> trivial
  read info target _ := by
    rw [slottedExpr_read]
    cases l.place target <;> trivial
  binary onLeft onRight h :=
    ⟨onLeft fun t ht => h t (List.mem_append_left _ ht), onRight fun t ht =>
      h t (List.mem_append_right _ ht)⟩
  unary inside h := inside h
  call inside h :=
    ⟨h _ List.mem_cons_self, inside fun t ht => h t (List.mem_cons_of_mem _ ht)⟩
  lambda inside h := inside.plain rfl h
  noArgs _ := trivial
  args first others h :=
    ⟨first fun t ht => h t (List.mem_append_left _ ht), others fun t ht =>
      h t (List.mem_append_right _ ht)⟩
  expr value _ _ h := value h
  declare _ _ _ _ := trivial
  bind _ value _ _ h := value h
  store kept value _ _ h := ⟨policy_slots_of_role numbered kept, value h⟩
  assign value _ _ h := ⟨place_plain numbered _, value h⟩
  branch cond first second kind hosts h := by
    refine ⟨cond fun t ht => ?_, first.plain (hosts.mono fun hr => ?_) fun t ht => ?_,
      second.plain (hosts.mono fun hr => ?_) fun t ht => ?_⟩
    · exact h t (List.mem_append_left _ (List.mem_append_left _ ht))
    · exact Bool.or_eq_true_iff.mpr (Or.inl hr)
    · exact h t (List.mem_append_left _ (List.mem_append_right _ ht))
    · exact Bool.or_eq_true_iff.mpr (Or.inr hr)
    · exact h t (List.mem_append_right _ ht)
  loop cond inside kind hosts h := ⟨cond fun t ht => h t (List.mem_append_left _ ht),
    inside.plain hosts fun t ht => h t (List.mem_append_right _ ht)⟩
  breakLoop _ _ _ := trivial
  continueLoop _ _ _ := trivial
  leave _ hosts _ := ⟨hosts, trivial⟩
  ret value _ hosts h := ⟨hosts, value h⟩
  finish _ hosts _ := ⟨hosts rfl, rfl, trivial⟩
  finishWith value _ hosts h := ⟨hosts rfl, rfl, value h⟩

/-! ### Segments -/

/-- **What stands in a segment**: the delivery that opens it, introductions, statements of the
source, of which an assignment may introduce its local, and the stores of the tasks that are
awaited after it. -/
inductive Stretch.Holds (l : SlotLayout) (st : Stretch) : Machine.Stmt → Prop where
  | binds (q : SuspensionPoint) (id : LocalId) (target : Place)
    (place : l.place target = .localVar id) :
    st.Holds l (.bind q.span id (.taskValue ⟨q.valueTy, q.span⟩
      (l.awaits q.index) q.kind.mode))
  | delivers (q : SuspensionPoint) (target : Place) :
    st.Holds l (.assign q.span (l.place target)
      (.taskValue ⟨q.valueTy, q.span⟩ (l.awaits q.index) q.kind.mode))
  | introduces (id : LocalId) (used : id ∈
      ((topStmts l (st.delivery l).2 st.stmts).2.accessAll l
        (st.closingAccesses l)).undeclared) :
    st.Holds l (introduce id)
  | slotted {s : Stmt} {s' : Machine.Stmt} (mem : s ∈ st.stmts)
    (eq : slottedStmt l false s = some s') :
    st.Holds l s'
  | first (info : Bound.StmtInfo) (id : LocalId) (value : Expr) (free : l.local? id = none)
    (mem : .assign info (.localVar id) value ∈ st.stmts) :
      st.Holds l (.bind info.span id (slottedExpr l value))
  | stores (q : SuspensionPoint) (operand : Expr) (slot : SlotId)
    (closes : st.closing = some q)
    (mem : operand ∈ q.kind.operands) (awaited : slot ∈ l.awaits q.index) :
      st.Holds l (taskStore l operand slot)

/-- **What a suspension asks for.** -/
inductive SuspensionPoint.Requests (l : SlotLayout) (q : SuspensionPoint) :
    Machine.Timing → Prop where
  | seconds (e : Expr) (mem : e ∈ q.kind.operands) : q.Requests l (.seconds (slottedExpr l e))
  | frames (e : Expr) (mem : e ∈ q.kind.operands) : q.Requests l (.frames (slottedExpr l e))
  | nextFrame : q.Requests l .nextFrame
  | completion (tasks : List SlotId) (mode : JoinMode) (awaited : tasks ⊆ l.awaits q.index) :
    q.Requests l (.completion tasks mode)

/-- Statements at the top are placed, or bind a new local. -/
theorem mem_topStmts {u : Usage} (h : s' ∈ (topStmts l u stmts).1) :
    (∃ s ∈ stmts, slottedStmt l false s = some s') ∨ ∃ info id value, l.local? id = none ∧
      Stmt.assign info (.localVar id) value ∈ stmts ∧
      s' = .bind info.span id (slottedExpr l value) := by
  induction stmts generalizing u with
  | nil => cases h
  | cons s rest ih =>
    rcases List.mem_append.mp h with h | h
    · replace h : (topStmt l u s).1 = some s' := Option.mem_toList.mp h
      unfold topStmt firstAssigned? at h
      grind [Option.isNone_iff_eq_none]
    · grind

/-- What stands in a segment comes from its stretch. -/
theorem Stretch.holds_of_mem {st : Stretch} {index : Nat}
    (h : s' ∈ (st.segment l index).body) : st.Holds l s' := by
  simp only [Stretch.segment, List.mem_append] at h
  rcases h with ((h | h) | h) | h
  · unfold Stretch.delivery deliveryStmt at h
    grind [Stretch.Holds]
  · obtain ⟨id, hid, rfl⟩ := List.mem_map.mp h
    exact .introduces id hid
  · rcases mem_topStmts h with ⟨s, hs, heq⟩ | ⟨info, id, value, free, hmem, rfl⟩
    · exact .slotted hs heq
    · exact .first info id value free hmem
  · unfold Stretch.stores at h
    split at h
    case h_2 => cases h
    case h_1 q hq =>
      obtain ⟨⟨operand, slot⟩, hmem, rfl⟩ := List.mem_map.mp h
      obtain ⟨hoperand, hslot⟩ := List.of_mem_zip hmem
      exact .stores q operand slot hq (SuspensionKind.mem_operands_of_awaited hoperand) hslot

/-- A resumption asks for what its point waits for. -/
theorem SuspensionPoint.requests_resumptionOf (l : SlotLayout) (q : SuspensionPoint) :
    q.Requests l (resumptionOf l q).timing := by
  have hoperands : ∀ kind, q.kind = kind → ∀ e ∈ kind.operands, e ∈ q.kind.operands :=
    fun _ heq e he => heq ▸ he
  unfold resumptionOf
  cases hkind : q.kind with
  | timedDelay e => exact .seconds e (hoperands _ hkind e List.mem_cons_self)
  | frameDelay e => exact .frames e (hoperands _ hkind e List.mem_cons_self)
  | yieldStep => exact .nextFrame
  | joinAll | joinAny => exact .completion _ _ (List.Subset.refl _)
  | delegate =>
    dsimp only
    cases hslots : l.awaits q.index with
    | nil => exact .nextFrame
    | cons slot rest =>
      exact .completion _ _ (List.cons_subset.mpr
        ⟨hslots ▸ List.mem_cons_self, List.nil_subset _⟩)

theorem policy_slots_of_awaits (numbered : Numbered l.slots) {point : Nat}
    (h : slot ∈ l.awaits point) : (l.policy targets).slots slot := by
  obtain ⟨s, operand, hs, hrole⟩ := numbered.role_of_awaits h
  exact ⟨s, hs, by rw [hrole]; rfl⟩

/-- **The body of a segment is plain**, and so is the timing that ends it. -/
theorem Stretch.segment_plain (numbered : Numbered l.slots) (st : Stretch) (index : Nat)
    (hosts : kind.Hosts false (returnsIn st.stmts))
    (hstmts : ∀ t ∈ Bound.calleesOf st.stmts, targets t)
    (hclosing : ∀ q ∈ st.closing, ∀ e ∈ q.kind.operands, ∀ t ∈ e.callees, targets t) :
    Machine.PlainBlock (l.policy targets) kind (st.segment l index).body ∧
      ∀ exit ∈ (st.segment l index).exit, exit.request.timing.Plain (l.policy targets) := by
  have hcallees : ∀ {s : Stmt}, s ∈ st.stmts → ∀ t ∈ s.callees, targets t :=
    fun hs t ht => hstmts t (Bound.mem_calleesOf.mpr ⟨_, hs, ht⟩)
  have hplain := slotwise_plain numbered targets
  constructor
  · refine Machine.plainBlock_iff.mpr fun s' hs' => ?_
    cases holds_of_mem hs' with
    | binds | introduces => trivial
    | delivers q target => exact ⟨place_plain numbered target, trivial⟩
    | slotted mem eq =>
      exact hplain.onStmt false _ s' eq kind (hosts.mono (Bound.returnsIn_of_mem mem))
        (hcallees mem)
    | first info id value free mem => exact hplain.onExpr value (hcallees mem)
    | stores q operand slot closes mem awaited =>
      exact ⟨policy_slots_of_awaits numbered awaited,
        hplain.onExpr operand (hclosing q closes operand mem)⟩
  · intro exit hexit
    obtain ⟨q, hq, rfl⟩ := Option.map_eq_some_iff.mp hexit
    generalize htiming : (resumptionOf l q).timing = timing
    cases htiming ▸ q.requests_resumptionOf l with
    | seconds e mem | frames e mem => exact hplain.onExpr e (hclosing q hq e mem)
    | nextFrame | completion => trivial

end

end Resumable
