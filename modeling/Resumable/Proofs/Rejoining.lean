import Resumable.Proofs.Await
import Resumable.Proofs.Hoisting
import Resumable.Proofs.Restoring

/-!
# Segments and their source

**The segments of a body, restored and put together, are the body.**  Between two suspensions
stand copies of the statements of the source, in their order, none left out and none twice.  A
suspending statement is there only by what its operand asks for, at the end of a segment, and
by the delivery that opens the next one.  A segment may also start with introductions of
locals that live for one run, and where such a local is assigned at the top level before
anything else in the segment mentions it, the assignment is its introduction.

## Main definitions

* `TopCopy`: copies of the top-level statements of a segment.
* `Opening`, `Asks`: what a suspending statement leaves at the start of a segment, and at the
  end of the one before.
* `Rejoins`: segments that are the source, cut at its suspensions.

## Main statements

* `topCopy_topStmts`: the restored top-level statements of a segment are copies.
* `Lowered.rejoins`: the restored segments of a machine are its source.
* `segments_rejoin`: so are the segments of every tree-shaped procedure that lowers, and none
  mentions a hoisted variable.
-/

namespace Resumable

open Resumable.Bound (Access Expr Place Procedure Stmt StmtInfo)
open Resumable.Machine (Origin SlotId restoredBlock)

variable {l : SlotLayout} {u : Usage} {earlier : List LocalId} {q : SuspensionPoint}
  {stmts : List Stmt} {operand : Expr} {info : ExprInfo}

/-! ### Occurrences of locals -/

/-- The local that is introduced, read or written. -/
def Bound.Access.local? : Access → Option LocalId
  | .declare x | .readLocal x | .writeLocal x => some x
  | .readParam _ | .writeParam _ | .suspend => none

/-- The locals that occur in a statement. -/
def Bound.Stmt.locals (s : Stmt) : List LocalId := s.accesses.filterMap Access.local?

/-! ### Restored segments -/

/-- A request with variables in the place of their slots. -/
def Resumption.restored (l : SlotLayout) : Resumption → Resumption
  | .seconds duration => .seconds (duration.restored l)
  | .frames count => .frames (count.restored l)
  | .nextFrame => .nextFrame
  | .join mode tasks => .join mode tasks
  | .delegate task => .delegate task

/-- A segment with variables in the place of their slots. -/
def Segment.restored (l : SlotLayout) (s : Segment) : Segment :=
  ⟨s.index, restoredBlock l s.body, s.exit.map fun exit =>
    ⟨exit.point, exit.request.restored l⟩⟩

/-- The variables that a segment mentions, in its statements and in what it asks for. -/
def Segment.variables (s : Segment) : List Origin :=
  Machine.variablesOf s.body ++
    ((s.exit.map fun exit => exit.request.timing.variables).getD [])

/-! ### Segments and their source -/

/-- **Copies of the top-level statements of a segment**, where `earlier` are the locals that
occur before them in the segment.  The first occurrence of a local that lives for one run may
be an assignment, which then introduces it. -/
inductive TopCopy (kept : LocalId → Prop) :
    List LocalId → List Stmt → List Machine.Stmt → Prop where
  | nil {earlier : List LocalId} : TopCopy kept earlier [] []
  | keep {earlier : List LocalId} {s : Stmt} {s' : Machine.Stmt} {rest : List Stmt}
    {rest' : List Machine.Stmt}
    (known : ∀ info x e, s = .assign info (.localVar x) e → kept x ∨ x ∈ earlier)
    (copy : StmtCopy kept false s s')
      (others : TopCopy kept (earlier ++ s.locals) rest rest') :
    TopCopy kept earlier (s :: rest) (s' :: rest')
  | introduce {earlier : List LocalId} (info : StmtInfo) {x : LocalId}
    {e : Expr} {e' : Machine.Expr}
    {rest : List Stmt} {rest' : List Machine.Stmt} (free : ¬ kept x) (new : x ∉ earlier)
      (value : ExprCopy kept e e')
    (others : TopCopy kept (earlier ++ Stmt.locals (.assign info (.localVar x) e))
      rest rest') :
    TopCopy kept earlier (.assign info (.localVar x) e :: rest)
      (.bind info.span x e' :: rest')
  | drop {earlier : List LocalId} (info : StmtInfo) {x : LocalId} {rest : List Stmt}
    {rest' : List Machine.Stmt}
    (hoisted : kept x) (others : TopCopy kept
      (earlier ++ Stmt.locals (.declare info x)) rest rest') :
    TopCopy kept earlier (.declare info x :: rest) rest'

/-- How the tasks of an operand are joined. -/
def Bound.Expr.joinMode : Expr → JoinMode
  | .call _ (.primitive .whenAny) _ => .any
  | _ => .all

/-- The value of the tasks of a suspension. -/
def SlotLayout.value (l : SlotLayout) (i : Nat) (info : ExprInfo) (operand : Expr) :
    Machine.Expr :=
  .taskValue ⟨operand.ty.output?.getD .unit, info.span⟩ (l.awaits i) operand.joinMode

/-- **What a suspending statement leaves at the start of the segment after it**: the delivery
of its value, if it takes one.  The first list has the local that the delivery introduces. -/
inductive Opening (l : SlotLayout) :
    Option (Nat × Stmt) → List LocalId → List Machine.Stmt → Prop where
  | start : Opening l none [] []
  | silent (i : Nat) (info : StmtInfo) (info' : ExprInfo) (operand : Expr) :
    Opening l (some (i, .expr info (.suspend info' operand))) [] []
  | introduce (i : Nat) {s : Stmt} {info : ExprInfo} {operand : Expr} {x : LocalId}
    (suspends : suspensionOf s = some (info, operand))
    (target : (deliveryOf s).map Delivery.target = some (.localVar x))
    (free : ¬ l.Keeps x) : Opening l (some (i, s)) [x]
      [.bind info.span x (l.value i info operand)]
  | store (i : Nat) {s : Stmt} {info : ExprInfo} {operand : Expr} {place : Place}
    (suspends : suspensionOf s = some (info, operand))
      (target : (deliveryOf s).map Delivery.target = some place)
    (hoisted : ∀ x, place = .localVar x → l.Keeps x) :
    Opening l (some (i, s)) [] [.assign info.span place.copied (l.value i info operand)]

/-- Stores of operands into slots, one each. -/
inductive StoresCopy (kept : LocalId → Prop) :
    List Expr → List SlotId → List Machine.Stmt → Prop where
  | nil : StoresCopy kept [] [] []
  | cons (slot : SlotId) {e : Expr} {e' : Machine.Expr}
    {rest : List Expr} {slots : List SlotId}
    {stores : List Machine.Stmt} (value : ExprCopy kept e e')
      (others : StoresCopy kept rest slots stores) :
    StoresCopy kept (e :: rest) (slot :: slots) (.assign e.span (.slot slot) e' :: stores)

/-- **What a suspending statement leaves at the end of the segment before it**: stores of the
tasks of its operand into their slots, and what the host is asked for. -/
inductive Asks (kept : LocalId → Prop) :
    List SlotId → Expr → List Machine.Stmt → Resumption → Prop where
  | delay (info : ExprInfo) {e : Expr} {e' : Machine.Expr} (duration : ExprCopy kept e e') :
    Asks kept [] (.call info (.primitive .delay) [e]) [] (.seconds e')
  | delayFrames (info : ExprInfo) {e : Expr} {e' : Machine.Expr}
    (count : ExprCopy kept e e') :
    Asks kept [] (.call info (.primitive .delayFrames) [e]) [] (.frames e')
  | yield (info : ExprInfo) : Asks kept [] (.call info (.primitive .yield) []) [] .nextFrame
  | whenAll (info : ExprInfo) {args : List Expr} {slots : List SlotId}
    {stores : List Machine.Stmt}
    (tasks : StoresCopy kept args slots stores) :
    Asks kept slots (.call info (.primitive .whenAll) args) stores (.join .all slots)
  | whenAny (info : ExprInfo) {args : List Expr} {slots : List SlotId}
    {stores : List Machine.Stmt}
    (tasks : StoresCopy kept args slots stores) :
    Asks kept slots (.call info (.primitive .whenAny) args) stores (.join .any slots)
  | delegate {operand : Expr} (slot : SlotId) {stores : List Machine.Stmt}
    (other : ∀ info which args, operand ≠ .call info (.primitive which) args)
    (tasks : StoresCopy kept [operand] [slot] stores) :
      Asks kept [slot] operand stores (.delegate slot)

/-- **Segments that are the source, cut at its suspensions.**  The first one has the given
number, and follows the suspending statement that is given with the number of its point. -/
inductive Rejoins (l : SlotLayout) :
    Nat → Option (Nat × Stmt) → List Stmt → List Segment → Prop where
  | last (i : Nat) {opening : Option (Nat × Stmt)}
    {earlier ids : List LocalId} {stmts : List Stmt}
    {delivery code : List Machine.Stmt} (plain : ∀ s ∈ stmts, suspensionOf s = none)
    (delivers : Opening l opening earlier delivery) (free : ∀ x ∈ ids, ¬ l.Keeps x)
    (copy : TopCopy l.Keeps earlier stmts code) :
    Rejoins l i opening stmts [⟨i, delivery ++ ids.map introduce ++ code, none⟩]
  | next (i : Nat) {opening : Option (Nat × Stmt)} {earlier ids : List LocalId}
    {stmts later : List Stmt} {s : Stmt}
    {info : ExprInfo} {operand : Expr} {delivery code stores : List Machine.Stmt}
      {request : Resumption}
    {segs : List Segment} (plain : ∀ s ∈ stmts, suspensionOf s = none)
    (delivers : Opening l opening earlier delivery) (free : ∀ x ∈ ids, ¬ l.Keeps x)
    (copy : TopCopy l.Keeps earlier stmts code)
      (suspends : suspensionOf s = some (info, operand))
    (asks : Asks l.Keeps (l.awaits i) operand stores request)
      (others : Rejoins l (i + 1) (some (i, s)) later segs) :
    Rejoins l i opening (stmts ++ s :: later)
      (⟨i, delivery ++ ids.map introduce ++ code ++ stores, some ⟨i, request⟩⟩ :: segs)

/-! ### Locals that a segment knows -/

/-- A segment knows the locals that have occurred in it, as far as they live for one run. -/
def Usage.Knows (l : SlotLayout) (u : Usage) (earlier : List LocalId) : Prop :=
  ∀ x, ¬ l.Keeps x → (u.knows x = true ↔ x ∈ earlier)

namespace Usage

theorem knows_iff (u : Usage) (x : LocalId) :
    u.knows x = true ↔ x ∈ u.declared ∨ x ∈ u.undeclared := by
  simp [knows]

theorem knows_declare (x y : LocalId) :
    (u.declare y).knows x = true ↔ u.knows x = true ∨ x = y := by
  rw [knows_iff, knows_iff, declare, List.mem_cons, or_assoc, or_comm]

theorem knows_touch (x y : LocalId) :
    (u.touch y).knows x = true ↔ u.knows x = true ∨ x = y := by
  unfold touch
  split
  case isTrue h =>
    refine ⟨Or.inl, fun hx => hx.elim id ?_⟩
    rintro rfl
    exact h
  case isFalse => rw [knows_iff, knows_iff, List.mem_append, List.mem_singleton, or_assoc]

theorem knows_none (l : SlotLayout) : Usage.none.Knows l [] :=
  fun x _ => by simp [knows, Usage.none]

variable (h : u.Knows l earlier)

include h

theorem Knows.declare (y : LocalId) : (u.declare y).Knows l (earlier ++ [y]) := by
  intro x hx
  rw [knows_declare, h x hx, List.mem_append, List.mem_singleton]

theorem Knows.touch (y : LocalId) : (u.touch y).Knows l (earlier ++ [y]) := by
  intro x hx
  rw [knows_touch, h x hx, List.mem_append, List.mem_singleton]

/-- A hoisted local does not count. -/
theorem Knows.skip {y : LocalId} (hy : l.Keeps y) : u.Knows l (earlier ++ [y]) := by
  intro x hx
  rw [h x hx, List.mem_append, List.mem_singleton, or_iff_left]
  rintro rfl
  exact hx hy

theorem Knows.access (a : Access) : (u.access l a).Knows l (earlier ++ a.local?.toList) := by
  unfold Usage.access
  cases a with
  | declare y =>
    dsimp only
    split
    case isTrue hy => exact h.skip hy
    case isFalse => exact h.declare y
  | readLocal y | writeLocal y =>
    dsimp only
    split
    case isTrue hy => exact h.skip hy
    case isFalse => exact h.touch y
  | readParam | writeParam | suspend =>
    show u.Knows l (earlier ++ [])
    rw [List.append_nil]
    exact h

theorem Knows.accessAll (accesses : List Access) :
    (u.accessAll l accesses).Knows l (earlier ++ accesses.filterMap Access.local?) := by
  induction accesses generalizing u earlier with
  | nil =>
    rw [List.filterMap_nil, List.append_nil]
    exact h
  | cons a rest ih =>
    have hrest := ih (h.access a)
    rw [List.append_assoc] at hrest
    cases ha : a.local? <;> simpa [ha, Usage.accessAll] using hrest

end Usage

/-! ### The parts of a segment -/

section

theorem locals_assign (info : StmtInfo) (x : LocalId) (e : Expr) :
    Stmt.locals (.assign info (.localVar x) e) = e.accesses.filterMap Access.local? ++ [x] :=
  List.filterMap_append

variable {s : Stmt}

/-- Any other assignment to a local has a slot to go to, or its local has occurred. -/
theorem known_of_firstAssigned? (knows : u.Knows l earlier)
    (h : firstAssigned? l u s = none) :
    ∀ info x e, s = .assign info (.localVar x) e → l.Keeps x ∨ x ∈ earlier := by
  rintro info x e rfl
  refine or_iff_not_imp_left.mpr fun hfree => (knows x hfree).mp ?_
  have hslot : (l.local? x).isNone = true := by simpa [SlotLayout.Keeps] using hfree
  simpa [firstAssigned?, hslot] using h

/-- **The restored top-level statements of a segment are copies.** -/
theorem topCopy_topStmts (numbered : Numbered l.slots) (knows : u.Knows l earlier)
    (strays : blockStrays stmts = []) :
    TopCopy l.Keeps earlier stmts (restoredBlock l (topStmts l u stmts).1) := by
  induction stmts generalizing u earlier with
  | nil => exact .nil
  | cons s rest ih =>
    obtain ⟨hs, hrest⟩ := List.append_eq_nil_iff.mp strays
    unfold topStmts
    dsimp only
    unfold topStmt
    cases hfirst : firstAssigned? l u s with
    | some triple =>
      obtain ⟨span, x, e⟩ := triple
      obtain ⟨info, rfl, rfl, hfree, hnew⟩ := eq_assign_of_firstAssigned? hfirst
      have hothers := ih ((knows.accessAll e.accesses).declare x) hrest
      rw [List.append_assoc, ← locals_assign info] at hothers
      replace hfree : ¬ l.Keeps x := by simp [SlotLayout.Keeps, hfree]
      refine .introduce info hfree (fun hmem => ?_)
        ((slotwise_copy numbered).onExpr e hs) hothers
      rw [(knows x hfree).mpr hmem] at hnew
      cases hnew
    | none =>
      have hothers := ih (knows.accessAll s.accesses) hrest
      have hknown := known_of_firstAssigned? knows hfirst
      dsimp only
      cases heq : slottedStmt l false s with
      | some s' =>
        exact .keep hknown ((slotwise_copy numbered).onStmt false s s' heq hs) hothers
      | none =>
        obtain ⟨info, x, rfl, hkept⟩ := declares_of_slottedStmt hs heq
        exact .drop info hkept hothers

/-- What a point says about its statement, and what the layout has for it. -/
structure SuspensionPoint.Stands (l : SlotLayout) (q : SuspensionPoint) : Prop where
  suspends : ∃ info, suspensionOf q.stmt = some (info, q.operand) ∧ q.span = info.span
  kind : Classified q.operand q.kind q.carriesValue
  delivery : q.delivery = deliveryOf q.stmt
  carries : q.delivery.isSome → q.carriesValue = true ∧ q.kind.awaitsTasks = true
  valueTy : q.carriesValue = true → q.valueTy = q.operand.ty.output?.getD .unit
  slots : (l.awaits q.index).length = q.kind.awaited.length
  operands : ∀ e ∈ q.kind.operands, exprStrays e = []

theorem joinMode_of_classified {kind : SuspensionKind} {carries : Bool}
    (h : Classified operand kind carries) : kind.mode = operand.joinMode := by
  cases h with
  | delay | delayFrames | yield | whenAll | whenAny => rfl
  | delegate operand _ other =>
    unfold Expr.joinMode
    split
    · exact absurd rfl (other _ _ _)
    · rfl

/-- A suspension that takes no value is a statement of its own. -/
theorem eq_expr_of_deliveryOf (suspends : suspensionOf s = some (info, operand))
    (h : deliveryOf s = none) : ∃ info', s = .expr info' (.suspend info operand) := by
  cases suspending_of_suspensionOf suspends with
  | expr info' => exact ⟨info', rfl⟩
  | bind | assign => cases h

/-- A place of the source is a local that lives for one run, or what stands
for it is no local. -/
theorem SlotLayout.place_cases (l : SlotLayout) (target : Place) :
    (∃ x, target = .localVar x ∧ l.place target = .localVar x ∧ ¬ l.Keeps x) ∨
      (∀ x, l.place target ≠ .localVar x) ∧ ∀ x, target = .localVar x → l.Keeps x := by
  generalize hplace : l.place target = place
  cases SlotLayout.placed hplace with
  | localVar free => exact .inl ⟨_, rfl, rfl, by simp [SlotLayout.Keeps, free]⟩
  | localSlot kept =>
    refine .inr ⟨by simp, fun y heq => ?_⟩
    obtain rfl := Place.localVar.inj heq
    exact Option.isSome_of_mem kept
  | paramSlot | param | field => exact .inr ⟨by simp, by simp⟩

/-- The delivery of a point, and the locals that the segment after it knows from then on. -/
theorem SuspensionPoint.Stands.deliveryStmt_eq (stands : q.Stands l) {d : Delivery}
    (hd : q.delivery = some d) (hspan : q.span = info.span) :
    (∀ x, l.place d.target = .localVar x →
        deliveryStmt l q .none = (some (.bind info.span x (l.value q.index info q.operand)),
          Usage.none.declare x)) ∧
      ((∀ x, l.place d.target ≠ .localVar x) → deliveryStmt l q .none =
          (some (.assign info.span (l.place d.target) (l.value q.index info q.operand)),
            .none)) := by
  obtain ⟨hcarries, hawaits⟩ := stands.carries (by rw [hd]; rfl)
  have hvalue : Machine.Expr.taskValue ⟨q.valueTy, q.span⟩ (l.awaits q.index) q.kind.mode =
      l.value q.index info q.operand := by
    rw [stands.valueTy hcarries, joinMode_of_classified stands.kind, hspan]
    rfl
  unfold deliveryStmt
  rw [hd]
  dsimp only
  rw [if_pos (by rw [hcarries, hawaits]; rfl), hvalue, hspan]
  constructor
  · intro x hplace
    rw [hplace]
  · intro hplace
    cases htarget : l.place d.target with
    | localVar x => exact absurd htarget (hplace x)
    | slot | param | field => rfl

/-- **The restored delivery of a point** is what its statement leaves at the
start of a segment. -/
theorem opening_deliveryStmt (numbered : Numbered l.slots) (stands : q.Stands l) :
    ∃ earlier, Opening l (some (q.index, q.stmt)) earlier
      (restoredBlock l (deliveryStmt l q .none).1.toList) ∧
      (deliveryStmt l q .none).2.Knows l earlier := by
  obtain ⟨info, hsuspends, hspan⟩ := stands.suspends
  cases hd : q.delivery with
  | none =>
    obtain ⟨info', hstmt⟩ := eq_expr_of_deliveryOf hsuspends (stands.delivery.symm.trans hd)
    unfold deliveryStmt
    rw [hd, hstmt]
    exact ⟨[], .silent .., Usage.knows_none l⟩
  | some d =>
    have htarget : (deliveryOf q.stmt).map Delivery.target = some d.target := by
      rw [← stands.delivery, hd]
      rfl
    obtain ⟨hbind, hassign⟩ := stands.deliveryStmt_eq hd hspan
    rcases l.place_cases d.target with ⟨x, hx, hplace, hfree⟩ | ⟨hplace, hhoisted⟩
    · rw [hbind x hplace]
      rw [hx] at htarget
      exact ⟨[x], .introduce q.index hsuspends htarget hfree, (Usage.knows_none l).declare x⟩
    · rw [hassign hplace]
      have hstore := Opening.store (l := l) q.index hsuspends htarget hhoisted
      rw [← restored_place numbered] at hstore
      exact ⟨[], hstore, Usage.knows_none l⟩

/-- The restored stores of operands keep their slots, and store copies of the operands. -/
theorem storesCopy_taskStores (numbered : Numbered l.slots) {operands : List Expr}
    {slots : List SlotId} (hlength : slots.length = operands.length)
    (hslots : ∀ slot ∈ slots, l.origin? slot = none)
    (hclean : ∀ e ∈ operands, exprStrays e = []) : StoresCopy l.Keeps operands slots
      (restoredBlock l ((operands.zip slots).map fun (operand, slot) =>
        taskStore l operand slot)) := by
  induction operands generalizing slots with
  | nil =>
    obtain rfl := List.length_eq_zero_iff.mp hlength
    exact .nil
  | cons e rest ih =>
    cases slots with
    | nil => cases hlength
    | cons slot slots =>
      have hothers :=
        ih (Nat.succ.inj hlength) (fun s hs => hslots s (List.mem_cons_of_mem _ hs))
        fun e he => hclean e (List.mem_cons_of_mem _ he)
      have hplace : (Machine.Place.slot slot).restored l = .slot slot := by
        simp only [Machine.Place.restored, hslots slot List.mem_cons_self]
      have hstore : (taskStore l e slot).restored l =
          .assign e.span (.slot slot) ((slottedExpr l e).restored l) := by
        rw [taskStore, Machine.Stmt.restored, hplace]
      show StoresCopy _ _ _ ((taskStore l e slot).restored l :: _)
      rw [hstore]
      exact .cons slot ((slotwise_copy numbered).onExpr e
        (hclean e List.mem_cons_self)) hothers

/-- The slots of awaited tasks are those of no variable. -/
theorem origin?_of_awaits (numbered : Numbered l.slots) {point : Nat} {slot : SlotId}
    (h : slot ∈ l.awaits point) : l.origin? slot = none := by
  obtain ⟨s, operand, hs, hrole⟩ := numbered.role_of_awaits h
  unfold SlotLayout.origin?
  rw [hs, Option.map_some, hrole]

/-- **What a point asks for, restored**, is what its statement leaves at
the end of a segment. -/
theorem asks_resumptionOf (numbered : Numbered l.slots) (stands : q.Stands l) :
    Asks l.Keeps (l.awaits q.index) q.operand
      (restoredBlock l ((taskStores l q).map fun (operand, slot) => taskStore l operand slot))
      ((resumptionOf l q).restored l) := by
  have hstores := fun hclean => storesCopy_taskStores numbered stands.slots
    (fun slot hslot => origin?_of_awaits numbered hslot)
      (hclean : ∀ e ∈ q.kind.awaited, exprStrays e = [])
  have hlength := stands.slots
  have hclean := stands.operands
  have hkind := stands.kind
  unfold resumptionOf taskStores
  generalize q.kind = kind at *
  generalize q.operand = operand at *
  generalize q.carriesValue = carries at *
  cases hkind with
  | delay info e =>
    rw [List.length_eq_zero_iff.mp hlength]
    exact .delay info ((slotwise_copy numbered).onExpr e (hclean e List.mem_cons_self))
  | delayFrames info e =>
    rw [List.length_eq_zero_iff.mp hlength]
    exact .delayFrames info ((slotwise_copy numbered).onExpr e (hclean e List.mem_cons_self))
  | yield info =>
    rw [List.length_eq_zero_iff.mp hlength]
    exact .yield info
  | whenAll info args => exact .whenAll info (hstores hclean)
  | whenAny info args => exact .whenAny info (hstores hclean)
  | delegate operand _ other =>
    obtain ⟨slot, hslot⟩ := List.length_eq_one_iff.mp hlength
    have htasks := hstores hclean
    rw [hslot] at htasks ⊢
    exact .delegate slot other htasks

/-! ### Introductions without a value -/

/-- The locals that are used first live for one run. -/
def Usage.Free (l : SlotLayout) (u : Usage) : Prop := ∀ x ∈ u.undeclared, ¬ l.Keeps x

theorem Usage.stays_free (l : SlotLayout) : Usage.Stays l (Usage.Free l) where
  declare _ hu := hu
  touch free hu := by
    unfold Usage.touch
    split
    case isTrue => exact hu
    case isFalse =>
      intro y hy
      rcases List.mem_append.mp hy with hy | hy
      · exact hu y hy
      · obtain rfl := List.mem_singleton.mp hy
        exact free

/-- **What a segment introduces without a value lives for one run.** -/
theorem Stretch.free_introductions (l : SlotLayout) (st : Stretch) :
    ∀ x ∈ st.introductions l, ¬ l.Keeps x := by
  have hnone : Usage.none.Free l := fun x hx => absurd hx List.not_mem_nil
  have hdelivery : (st.delivery l).2.Free l := by
    unfold Stretch.delivery
    cases st.opening with
    | none => exact hnone
    | some q =>
      show (deliveryStmt l q .none).2.Free l
      unfold deliveryStmt
      repeat' split
      all_goals exact hnone
  have stays := Usage.stays_free l
  exact stays.accessAll (stays.topStmts hdelivery st.stmts) (st.closingAccesses l)

/-! ### Whole segments -/

/-- A restored segment has its parts restored. -/
theorem Stretch.restored_segment (l : SlotLayout) (i : Nat) (st : Stretch) :
    (st.segment l i).restored l =
      ⟨i, restoredBlock l (st.delivery l).1.toList ++ (st.introductions l).map introduce ++
          restoredBlock l (topStmts l (st.delivery l).2 st.stmts).1 ++
            restoredBlock l (st.stores l),
        st.closing.map fun q => ⟨q.index, (resumptionOf l q).restored l⟩⟩ := by
  have hintroduce : Machine.Stmt.restored l ∘ introduce = introduce := rfl
  have hbody : restoredBlock l (st.segment l i).body =
      restoredBlock l (st.delivery l).1.toList ++ (st.introductions l).map introduce ++
        restoredBlock l (topStmts l (st.delivery l).2 st.stmts).1 ++
          restoredBlock l (st.stores l) := by
    simp only [Stretch.segment_body, Stretch.userCode, Machine.restoredBlock_eq_map,
      List.map_append, List.map_map, hintroduce, List.append_assoc]
  unfold Segment.restored
  rw [hbody]
  exact congrArg (Segment.mk i _) (Option.map_map ..)

/-- What opens the segment of a stretch, and what it knows before its first statement. -/
theorem Stretch.opens (numbered : Numbered l.slots) (st : Stretch)
    (stands : ∀ q ∈ st.opening, q.Stands l) :
    ∃ earlier, Opening l (st.opening.map fun q => (q.index, q.stmt)) earlier
        (restoredBlock l (st.delivery l).1.toList) ∧ (st.delivery l).2.Knows l earlier := by
  unfold Stretch.delivery
  cases hopening : st.opening with
  | none => exact ⟨[], .start, Usage.knows_none l⟩
  | some q => exact opening_deliveryStmt numbered (stands q hopening)

/-- **Stretches become segments that are the source.** -/
theorem Sliced.rejoins (numbered : Numbered l.slots)
    {close : SuspensionPoint → SuspensionPoint} {opening : Option SuspensionPoint}
    {points : List SuspensionPoint} {stretches : List Stretch}
    (sliced : Sliced close opening stmts points stretches) (i : Nat)
    (before : ∀ q ∈ opening, q.Stands l)
    (stands : ∀ k q, points[k]? = some q → q.index = i + k ∧ q.Stands l ∧ close q = q)
    (clean : ∀ st ∈ stretches, blockStrays st.stmts = []) :
    Rejoins l i (opening.map fun q => (q.index, q.stmt)) stmts
      ((stretches.mapIdx fun k st => st.segment l (i + k)).map (Segment.restored l)) := by
  induction sliced generalizing i with
  | @last opening stmts plain =>
    obtain ⟨earlier, hopens, hknows⟩ := Stretch.opens numbered ⟨opening, stmts, none⟩ before
    have hcopy := topCopy_topStmts numbered hknows (clean _ List.mem_cons_self)
    rw [List.mapIdx_cons, List.map_cons, Stretch.restored_segment]
    show Rejoins l i _ stmts [⟨i, _ ++ _ ++ _ ++ [], none⟩]
    rw [List.append_nil]
    exact .last i plain hopens (Stretch.free_introductions l _) hcopy
  | @next opening stmts later q rest stretches plain suspends tail ih =>
    obtain ⟨rfl, hstands, hclose⟩ := stands 0 q rfl
    obtain ⟨info, hsuspends, -⟩ := hstands.suspends
    obtain ⟨earlier, hopens, hknows⟩ :=
      Stretch.opens numbered ⟨opening, stmts, some (close q)⟩ before
    have hcopy := topCopy_topStmts numbered hknows (clean _ List.mem_cons_self)
    have hothers := ih (q.index + 1) (fun r hr => Option.some.inj hr ▸ hstands)
      (fun k r hr => Nat.add_right_comm q.index 1 k ▸ stands (k + 1) r hr)
      fun st hst => clean st (List.mem_cons_of_mem _ hst)
    rw [List.mapIdx_cons, List.map_cons, Stretch.restored_segment, hclose]
    simp only [Nat.add_right_comm _ 1] at hothers
    exact .next q.index plain hopens (Stretch.free_introductions l _) hcopy hsuspends
      (asks_resumptionOf numbered hstands) hothers

/-! ### Hoisted variables are not mentioned -/

/-- **A segment mentions no hoisted variable.** -/
theorem Stretch.unhoisted_segment (l : SlotLayout) (i : Nat) (st : Stretch) :
    ∀ o ∈ (st.segment l i).variables, l.slotOf? o = none := by
  intro o ho
  rcases List.mem_append.mp ho with ho | ho
  · rw [Machine.variablesOf_eq_flatMap] at ho
    obtain ⟨s, hs, ho⟩ := List.mem_flatMap.mp ho
    cases holds_of_mem hs with
    | binds q id target place =>
      refine unhoisted_place (l := l) target o ?_
      rwa [place]
    | delivers q target =>
      simp only [Machine.Stmt.variables, Machine.Expr.variables, List.append_nil] at ho
      exact unhoisted_place target o ho
    | introduces id used =>
      obtain rfl := List.mem_singleton.mp ho
      exact Option.not_isSome_iff_eq_none.mp (st.free_introductions l id used)
    | slotted _ eq => exact slotwise_unhoisted.onStmt false _ s eq o ho
    | first info id value free =>
      rcases List.mem_cons.mp ho with rfl | ho
      · exact free
      · exact slotwise_unhoisted.onExpr value o ho
    | stores q operand => exact slotwise_unhoisted.onExpr operand o ho
  · have hexit : (st.segment l i).exit = st.closing.map fun q =>
      ⟨q.index, resumptionOf l q⟩ := rfl
    rw [hexit] at ho
    cases hclosing : st.closing with
    | none =>
      rw [hclosing] at ho
      cases ho
    | some q =>
      rw [hclosing] at ho
      replace ho : o ∈ (resumptionOf l q).timing.variables := ho
      generalize htiming : (resumptionOf l q).timing = timing at ho
      cases htiming ▸ q.requests_resumptionOf l with
      | seconds e | frames e => exact slotwise_unhoisted.onExpr e o ho
      | nextFrame | completion => cases ho

end

/-! ### Segments of a machine -/

namespace Lowered

variable {mode : LivenessMode} {names : NameTable} {p : Procedure} {m : Machine}

variable (b : Lowered mode names p m)

/-- Every point stands for its statement. -/
theorem stands (tree : p.TreeShaped) {i : Nat} (hq : b.points[i]? = some q) :
    q.Stands m.layout := by
  obtain ⟨site, hsite, hpoint⟩ := (point_of_points b.found).2 i q hq
  have gives := SuspensionSite.point_gives hpoint
  obtain ⟨hspan, hvalue⟩ := SuspensionSite.value_of_point hpoint
  obtain ⟨-, hsuspends⟩ := suspends_of_mem_suspensionSites (List.mem_of_getElem? hsite)
  obtain ⟨st, hst⟩ := b.exists_stretch (Nat.le_of_lt (List.getElem?_eq_some_iff.mp hq).1)
  exact {
    suspends := ⟨site.info, by rw [gives.stmt, gives.operand, hsuspends], hspan⟩
    kind := by
      rw [gives.operand]
      exact gives.kind
    delivery := by rw [gives.stmt, gives.delivery]
    carries := b.carries_of_delivery (List.mem_of_getElem? hq)
    valueTy := by
      rw [gives.operand]
      exact hvalue
    slots := by rw [b.index_eq hq, b.length_awaits hq]
    operands := fun e he => b.exprStrays_operand tree hst
      ((b.closing_eq tree hst).trans hq) he }

/-- **The restored segments of a machine are its source.** -/
theorem rejoins (tree : p.TreeShaped) :
    Rejoins m.layout 0 none p.stmts (b.segments.map (Segment.restored m.layout)) := by
  have hrejoins := b.sliced.rejoins b.laidOut.numbered 0 nofun
    (fun k q hq => ⟨by rw [b.index_eq hq, Nat.zero_add], b.stands tree hq,
      pointOfStmt_eq_self b.found tree (List.mem_of_getElem? hq)⟩)
    fun st hst => (List.append_eq_nil_iff.mp (b.noStrays st hst)).1
  simp only [Nat.zero_add] at hrejoins
  exact hrejoins

/-- No segment of a machine mentions a hoisted variable. -/
theorem unhoisted_segments :
    ∀ seg ∈ b.segments, ∀ o ∈ seg.variables, m.layout.slotOf? o = none := by
  intro seg hseg
  obtain ⟨i, hi, rfl⟩ := List.mem_mapIdx.mp hseg
  exact Stretch.unhoisted_segment m.layout i _

end Lowered

/-- **Segments rejoin to their source.**  A tree-shaped procedure that lowers has one segment
more than it has suspensions.  With the hoisted variables in the place of their slots, the
segments one after the other are the body of the procedure, and without that no segment
mentions a hoisted variable. -/
theorem segments_rejoin {options : LowerOptions} {p : Procedure} {names names' : NameTable}
    {m : Machine} (h : lowerProcedure options p names = (.ok m, names'))
    (tree : p.TreeShaped) :
    ∃ points segs, suspensionPoints names p = .ok points ∧
      segments p points m.layout = .ok segs ∧
      segs.length = points.length + 1 ∧
      Rejoins m.layout 0 none p.stmts (segs.map (Segment.restored m.layout)) ∧
      ∀ seg ∈ segs, ∀ o ∈ seg.variables, m.layout.slotOf? o = none := by
  obtain ⟨b⟩ := lowered_of_lowerProcedure h
  exact ⟨b.points, b.segments, b.found, b.segments_eq, b.length_segments,
    b.rejoins tree, b.unhoisted_segments⟩

/-! ### A collector -/

namespace Collector

/-- The strings that the collector uses. -/
def names : NameTable :=
  .internAll .empty ["Collect", "bonus", "total", "got", "sum", "best",
    "Fetch", "later", "log"]

/-- Take the total from the argument, wait for a value, work with it in locals that
live for one run, give the host a closure that reads the total, wait for the next
frame, and return the total. -/
def procedure : Procedure where
  name := ⟨1⟩
  params := [⟨⟨2⟩, .int, .none⟩]
  locals := [⟨0, ⟨3⟩, .int, .none⟩, ⟨1, ⟨4⟩, .int, .none⟩, ⟨2, ⟨5⟩, .int, .none⟩,
    ⟨3, ⟨6⟩, .int, .none⟩]
  result := .int
  cancellation := none
  body := .block [
    .declare ⟨0, .none⟩ 0,
    .assign ⟨1, .none⟩ (.localVar 0) (.param ⟨.int, .none⟩ 0),
    .bind ⟨2, .none⟩ 1 (.suspend ⟨.int, .none⟩
      (.call ⟨.deferred .int, .none⟩ (.procedure ⟨7⟩) [])),
    .assign ⟨3, .none⟩ (.localVar 2)
      (.binary ⟨.int, .none⟩ .add (.localVar ⟨.int, .none⟩ 1) (.param ⟨.int, .none⟩ 0)),
    .branch ⟨4, .none⟩ (.binary ⟨.bool, .none⟩ .lt (.localVar ⟨.int, .none⟩ 0)
      (.localVar ⟨.int, .none⟩ 2)) [
      .assign ⟨5, .none⟩ (.localVar 3) (.localVar ⟨.int, .none⟩ 2),
      .assign ⟨6, .none⟩ (.localVar 0) (.localVar ⟨.int, .none⟩ 2)] [],
    .expr ⟨7, .none⟩ (.call ⟨.unit, .none⟩ (.host ⟨8⟩) [.lambda ⟨.closure, .none⟩ [
      .expr ⟨8, .none⟩ (.call ⟨.unit, .none⟩ (.host ⟨9⟩) [.localVar ⟨.int, .none⟩ 0])]]),
    .expr ⟨9, .none⟩ (.suspend ⟨.unit, .none⟩
      (.call ⟨.deferred .unit, .none⟩ (.primitive .yield) [])),
    .ret ⟨10, .none⟩ (.localVar ⟨.int, .none⟩ 0)]
  span := .none

/-- By dataflow, fewer locals are hoisted. -/
def options : LowerOptions := { liveness := .dataflow }

/-- The machine of the collector. -/
@[irreducible] def machine : Machine :=
  (lowerProcedure options procedure names).1.toOption.getD default

theorem lowered :
    lowerProcedure options procedure names =
      (.ok machine, (lowerProcedure options procedure names).2) := by
  unfold machine
  exact eq_mk_ok_of_isOk (by decide +kernel)

end Collector

/-- The argument and the total of the collector are hoisted, its other locals are not, and its
segments rejoin. -/
theorem collector_rejoins :
    ([.param 0, .localVar 0, .localVar 1, .localVar 2, .localVar 3].map
      Collector.machine.layout.slotOf?) =
        [some 3, some 4, none, none, none] ∧
      Collector.procedure.TreeShaped ∧
      ∃ points segs, suspensionPoints Collector.names Collector.procedure = .ok points ∧
        segments Collector.procedure points Collector.machine.layout = .ok segs ∧
        segs.length = points.length + 1 ∧
        Rejoins Collector.machine.layout 0 none Collector.procedure.stmts
          (segs.map (Segment.restored Collector.machine.layout)) ∧
        ∀ seg ∈ segs, ∀ o ∈ seg.variables, Collector.machine.layout.slotOf? o = none := by
  have htree : Collector.procedure.TreeShaped := by decide +kernel
  refine ⟨?_, htree, segments_rejoin Collector.lowered htree⟩
  unfold Collector.machine
  decide +kernel

end Resumable
