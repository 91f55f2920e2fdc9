import Resumable.Proofs.Await

/-!
# The slots of awaited tasks

The tasks that are awaited between two segments pass through four hands.  The first segment
stores them, and asks to be called back when they are done; the arm of the next one tests
whether they are; and its delivery takes their value.  Each of the four goes by slots.  The
first three are made from the point that closes the first segment, which was looked up by the
number of its statement; the fourth is made from the point that opens the next segment, which
is known by its position.

The two are the same point **exactly when no statement number suspends twice**.  A statement
that stands at two positions of a body has two points, and the lookup finds the last one, so
that the tasks of the earlier point are stored in the slots of the later one and their value
is taken from slots in which nothing was stored.

## Main definitions

* `Machine.Stmt.storedTask?`, `Machine.Stmt.requestedTasks?`, `Machine.Stmt.testedTasks?`,
  `Machine.Stmt.takenTasks?`:  the slots of awaited tasks that a statement deals with.
* `Dealings`, `dealings`: what a list of statements does with awaited tasks.

## Main statements

* `Lowered.handover`: the slots that two arms in a row deal with, for every body.
* `Lowered.handover_of_tree`: they are the same ones where no statement is used twice.
* `Lowered.exits_in_order_iff`: segments end at the points that follow them exactly when no
  number suspends twice.
* `doubled_handover`: a body that uses a statement twice, and mixes the slots up.
-/

namespace Resumable

open Resumable.Bound (Stmt Procedure)
open Resumable.Machine (Arm Expr SlotId)

variable {l : SlotLayout} {q r : SuspensionPoint} {i : Nat}

/-! ### What a statement does with awaited tasks -/

namespace Machine

/-- The tasks that an expression asks about. -/
def Expr.doneTasks? : Expr → Option (List SlotId × JoinMode)
  | .tasksDone _ tasks mode => some (tasks, mode)
  | _ => none

/-- The tasks that an expression has its value from. -/
def Expr.valueTasks? : Expr → Option (List SlotId × JoinMode)
  | .taskValue _ tasks mode => some (tasks, mode)
  | _ => none

/-- The slot of an awaited task that a statement stores into. -/
def Stmt.storedTask? (l : SlotLayout) : Stmt → Option SlotId
  | .assign _ (.slot id) _ =>
    match (l.slots[id]?).map Slot.role with
    | some (.awaited ..) => some id
    | _ => none
  | _ => none

/-- The tasks after which a statement asks to be called back. -/
def Stmt.requestedTasks? : Stmt → Option (List SlotId × JoinMode)
  | .schedule _ _ (.completion tasks mode) => some (tasks, mode)
  | _ => none

/-- The tasks that a statement tests, to wait again when they are not done. -/
def Stmt.testedTasks? : Stmt → Option (List SlotId × JoinMode)
  | .branch _ (.unary _ .not cond) _ _ => cond.doneTasks?
  | _ => none

/-- The tasks whose value a statement takes. -/
def Stmt.takenTasks? : Stmt → Option (List SlotId × JoinMode)
  | .bind _ _ value | .assign _ _ value => value.valueTasks?
  | _ => none

/-- The statement has nothing to do with awaited tasks. -/
structure Stmt.Taskless (l : SlotLayout) (s : Stmt) : Prop where
  stored : s.storedTask? l = none
  requested : s.requestedTasks? = none
  tested : s.testedTasks? = none
  taken : s.takenTasks? = none

end Machine

/-- **What statements do with awaited tasks.** -/
structure Dealings where
  /-- The slots that tasks are stored into. -/
  stored : List SlotId := []
  /-- The tasks after which to be called back. -/
  requested : List (List SlotId × JoinMode) := []
  /-- The tasks that are tested, to wait again. -/
  tested : List (List SlotId × JoinMode) := []
  /-- The tasks whose value is taken. -/
  taken : List (List SlotId × JoinMode) := []
  deriving DecidableEq

instance : Append Dealings where
  append a b := ⟨a.stored ++ b.stored, a.requested ++ b.requested,
    a.tested ++ b.tested, a.taken ++ b.taken⟩

theorem Dealings.append_eq (a b : Dealings) : a ++ b =
    ⟨a.stored ++ b.stored, a.requested ++ b.requested, a.tested ++ b.tested,
      a.taken ++ b.taken⟩ :=
  rfl

/-- What statements do with awaited tasks, in order. -/
def dealings (l : SlotLayout) (stmts : List Machine.Stmt) : Dealings where
  stored := stmts.filterMap (Machine.Stmt.storedTask? l)
  requested := stmts.filterMap Machine.Stmt.requestedTasks?
  tested := stmts.filterMap Machine.Stmt.testedTasks?
  taken := stmts.filterMap Machine.Stmt.takenTasks?

/-- The tasks of a point, by their slots. -/
def SlotLayout.tasksOf? (l : SlotLayout) (q : SuspensionPoint) :
    Option (List SlotId × JoinMode) :=
  if q.kind.awaitsTasks then some (l.awaits q.index, q.kind.mode) else none

/-! ### Statements of the source -/

/-- The source does not look at awaited tasks. -/
theorem slottedExpr_taskless (l : SlotLayout) (e : Bound.Expr) :
    (slottedExpr l e).doneTasks? = none ∧ (slottedExpr l e).valueTasks? = none := by
  cases e with
  | localVar | param =>
    simp only [slottedExpr]
    split <;> exact ⟨rfl, rfl⟩
  | _ => exact ⟨rfl, rfl⟩

theorem tested_slottedExpr (l : SlotLayout) (span : Span) (cond : Bound.Expr)
    (onTrue onFalse : List Machine.Stmt) :
    (Machine.Stmt.branch span (slottedExpr l cond) onTrue onFalse).testedTasks? = none := by
  cases cond with
  | unary info op operand =>
    cases op with
    | not => exact (slottedExpr_taskless l operand).1
    | neg => rfl
  | localVar | param =>
    simp only [slottedExpr]
    split <;> rfl
  | _ => rfl

/-- Variables are not kept in the slots of awaited tasks. -/
theorem storedTask?_place (numbered : Numbered l.slots) (span : Span) (target : Bound.Place)
    (value : Expr) :
    (Machine.Stmt.assign span (l.place target) value).storedTask? l = none := by
  cases hplace : l.place target with
  | slot id =>
    obtain ⟨slot, origin, hslot, hrole⟩ := SlotLayout.role_of_place numbered hplace
    simp [Machine.Stmt.storedTask?, hslot, hrole]
  | localVar | param | field => rfl

/-- **A statement of the source has nothing to do with awaited tasks.** -/
theorem slottedStmt_taskless (numbered : Numbered l.slots) {inClosure : Bool} {s : Stmt}
    {s' : Machine.Stmt} (h : slottedStmt l inClosure s = some s') : s'.Taskless l := by
  cases s with
  | expr | breakLoop | continueLoop | loop =>
    obtain rfl := Option.some.inj h
    exact ⟨rfl, rfl, rfl, rfl⟩
  | declare info id =>
    simp only [slottedStmt] at h
    split at h
    case h_1 => cases h
    case h_2 =>
      obtain rfl := Option.some.inj h
      exact ⟨rfl, rfl, rfl, rfl⟩
  | bind info id init =>
    simp only [slottedStmt] at h
    split at h
    case h_1 slot hslot =>
      obtain rfl := Option.some.inj h
      have hplace : l.place (.localVar id) = .slot slot := by
        simp only [SlotLayout.place, hslot]
      exact ⟨hplace ▸ storedTask?_place numbered info.span (.localVar id) _, rfl, rfl,
        (slottedExpr_taskless l init).2⟩
    case h_2 =>
      obtain rfl := Option.some.inj h
      exact ⟨rfl, rfl, rfl, (slottedExpr_taskless l init).2⟩
  | assign info target value =>
    obtain rfl := Option.some.inj h
    exact ⟨storedTask?_place numbered _ _ _, rfl, rfl, (slottedExpr_taskless l value).2⟩
  | branch info cond =>
    obtain rfl := Option.some.inj h
    exact ⟨rfl, rfl, tested_slottedExpr l _ cond _ _, rfl⟩
  | leave | ret =>
    simp only [slottedStmt] at h
    split at h <;> obtain rfl := Option.some.inj h <;> exact ⟨rfl, rfl, rfl, rfl⟩
  | goto | label | yield => cases h

theorem topStmts_taskless (numbered : Numbered l.slots) (u : Usage) (stmts : List Stmt) :
    ∀ s ∈ (topStmts l u stmts).1, s.Taskless l := by
  intro s' hs'
  rcases mem_topStmts hs' with ⟨s, -, heq⟩ | ⟨info, id, value, -, -, rfl⟩
  · exact slottedStmt_taskless numbered heq
  · exact ⟨rfl, rfl, rfl, (slottedExpr_taskless l value).2⟩

/-! ### The parts of an arm -/

theorem dealings_append (l : SlotLayout) (first rest : List Machine.Stmt) :
    dealings l (first ++ rest) = dealings l first ++ dealings l rest := by
  rw [Dealings.append_eq]
  unfold dealings
  simp only [List.filterMap_append]

theorem dealings_of_taskless {stmts : List Machine.Stmt} (h : ∀ s ∈ stmts, s.Taskless l) :
    dealings l stmts = {} := by
  unfold dealings
  rw [List.filterMap_eq_nil_iff.mpr fun s hs => (h s hs).stored,
    List.filterMap_eq_nil_iff.mpr fun s hs => (h s hs).requested,
    List.filterMap_eq_nil_iff.mpr fun s hs =>
      (h s hs).tested, List.filterMap_eq_nil_iff.mpr fun s hs => (h s hs).taken]

theorem dealings_cancelCheck (span : Span) (token? : Option SlotId) :
    dealings l (token?.map (cancelCheck span)).toList = {} := by
  cases token? <;> rfl

theorem dealings_awaitGuard (span : Span) (dispatch : Name)
    (awaited? : Option (List SlotId × JoinMode)) :
    dealings l (awaited?.map fun (tasks, mode) =>
      awaitGuard span dispatch tasks mode).toList =
      { tested := awaited?.toList } := by
  cases awaited? <;> rfl

theorem dealings_introductions (ids : List LocalId) :
    dealings l (ids.map introduce) = {} := by
  refine dealings_of_taskless fun s hs => ?_
  obtain ⟨id, -, rfl⟩ := List.mem_map.mp hs
  exact ⟨rfl, rfl, rfl, rfl⟩

/-- A delivery takes the value of the tasks of its own point. -/
theorem dealings_deliveryStmt (numbered : Numbered l.slots)
    (carries : q.delivery.isSome → q.carriesValue = true ∧ q.kind.awaitsTasks = true)
    (u : Usage) :
    dealings l (deliveryStmt l q u).1.toList =
      { taken := (q.delivery.bind fun _ => l.tasksOf? q).toList } := by
  cases hd : q.delivery with
  | none =>
    unfold deliveryStmt
    rw [hd]
    rfl
  | some d =>
    obtain ⟨hcarries, hawaits⟩ := carries (by rw [hd]; rfl)
    have hstored := storedTask?_place numbered q.span d.target
      (.taskValue ⟨q.valueTy, q.span⟩ (l.awaits q.index) q.kind.mode)
    have htasks : l.tasksOf? q = some (l.awaits q.index, q.kind.mode) := if_pos hawaits
    rw [(deliveryStmt_eq hd hcarries hawaits u).1, Option.bind_some, htasks]
    cases hplace : l.place d.target with
    | slot id =>
      rw [hplace] at hstored
      simp [deliveryTo, dealings, hstored, Machine.Stmt.requestedTasks?,
        Machine.Stmt.testedTasks?, Machine.Stmt.takenTasks?, Expr.valueTasks?]
    | localVar | param | field => rfl

/-- Stores go to the slots of the point that closes the stretch. -/
theorem dealings_stores (numbered : Numbered l.slots) {st : Stretch}
    (hlength : ∀ r ∈ st.closing, (l.awaits r.index).length = r.kind.awaited.length) :
    dealings l (st.stores l) = { stored :=
      (st.closing.map fun r => l.awaits r.index).getD [] } := by
  unfold Stretch.stores
  cases hclosing : st.closing with
  | none => rfl
  | some r =>
    have hstore : ∀ pair ∈ taskStores l r,
      (taskStore l pair.1 pair.2).storedTask? l = some pair.2 := by
      intro pair hpair
      obtain ⟨slot, operand, hslot, hrole⟩ :=
        numbered.role_of_awaits (List.of_mem_zip hpair).2
      simp [taskStore, Machine.Stmt.storedTask?, hslot, hrole]
    have htaken : ∀ pair ∈ taskStores l r, (taskStore l pair.1 pair.2).takenTasks? = none :=
      fun pair _ => (slottedExpr_taskless l pair.1).2
    have hslots : (taskStores l r).map Prod.snd = l.awaits r.index :=
      List.map_snd_zip (Nat.le_of_eq (hlength r hclosing))
    unfold dealings
    simp only [List.filterMap_map, Option.map_some, Option.getD_some, ← hslots]
    congr 1
    · rw [← List.filterMap_eq_map]
      exact List.filterMap_congr hstore
    · exact List.filterMap_eq_nil_iff.mpr fun _ _ => rfl
    · exact List.filterMap_eq_nil_iff.mpr fun _ _ => rfl
    · exact List.filterMap_eq_nil_iff.mpr htaken

/-- An arm asks to be called back as its segment ends. -/
theorem dealings_armEnd (span : Span) (dispatch : Name) (s : Segment) :
    dealings l (armEnd span dispatch s) = { requested :=
      (s.exit.bind fun exit => exit.request.awaited?).toList } := by
  unfold armEnd
  cases s.exit with
  | none => rfl
  | some exit =>
    obtain ⟨point, request⟩ := exit
    cases request <;> rfl

/-! ### Arms -/

theorem getElem?_armsFrom (span : Span) (l : SlotLayout) (dispatch : Name)
    (previous : Option Segment) (segs : List Segment) (i : Nat) :
    (armsFrom span l dispatch previous segs)[i]? =
      (segs[i]?).map (armOf span l dispatch (if i = 0 then previous else segs[i - 1]?)) := by
  induction segs generalizing previous i with
  | nil => rfl
  | cons seg rest ih =>
    cases i with
    | zero => rfl
    | succ i =>
      rw [armsFrom, List.getElem?_cons_succ, List.getElem?_cons_succ, ih]
      cases i <;> rfl

namespace Lowered

variable {mode : LivenessMode} {names : NameTable} {p : Procedure} {m : Machine}

/-- The arms of the dispatch. -/
def arms (b : Lowered mode names p m) : List Arm :=
  armsFrom p.span m.layout m.dispatch.name none b.segments

/-- The point at which a segment says that it ends. -/
def closing? (b : Lowered mode names p m) (i : Nat) : Option SuspensionPoint :=
  (b.points[i]?).map (pointOfStmt b.points)

variable (b : Lowered mode names p m)

theorem length_awaits_closing (h : b.closing? i = some r) :
    (m.layout.awaits r.index).length = r.kind.awaited.length := by
  obtain ⟨q, hq, rfl⟩ := Option.map_eq_some_iff.mp h
  exact b.length_awaits (pointOfStmt_last (fun _ _ hk => b.index_eq hk) hq).1

/-- What a segment asks for. -/
theorem awaited?_exit {seg : Segment} (h : b.segments[i]? = some seg) :
    (seg.exit.bind fun exit => exit.request.awaited?) =
      (b.closing? i).bind m.layout.tasksOf? := by
  rw [(b.exit_eq h).2]
  cases hq : b.points[i]? with
  | none => simp [closing?, hq]
  | some q =>
    have hr : b.closing? i = some (pointOfStmt b.points q) := by rw [closing?, hq]; rfl
    rw [hr]
    exact awaited?_resumptionOf (b.length_awaits_closing hr)

theorem awaitedBefore_eq (i : Nat) :
    b.awaitedBefore i = (if i = 0 then none else b.closing? (i - 1)).bind
      m.layout.tasksOf? := by
  cases i with
  | zero => rfl
  | succ j =>
    show (b.segments[j]?.bind Segment.exit).bind _ = (b.closing? j).bind _
    cases hseg : b.segments[j]? with
    | some seg => exact b.awaited?_exit hseg
    | none =>
      have hle := List.getElem?_eq_none_iff.mp hseg
      rw [b.length_segments] at hle
      rw [closing?, List.getElem?_eq_none_iff.mpr (by omega)]
      rfl

/-- **What an arm does with awaited tasks.**  It stores the tasks of the point that was looked
up for its end and asks to be called back after them, tests those of the point that was looked
up for the segment before it, and takes the value of those of the point before it. -/
theorem dealings_arm {arm : Arm} (h : b.arms[i]? = some arm) : dealings m.layout arm.body = {
        stored := ((b.closing? i).map fun r => m.layout.awaits r.index).getD []
        requested := ((b.closing? i).bind m.layout.tasksOf?).toList
        tested := ((if i = 0 then none else b.closing? (i - 1)).bind m.layout.tasksOf?).toList
        taken := ((if i = 0 then none else b.points[i - 1]?).bind fun q =>
          q.delivery.bind fun _ => m.layout.tasksOf? q).toList } := by
  rw [arms, getElem?_armsFrom] at h
  obtain ⟨seg, hseg, rfl⟩ := Option.map_eq_some_iff.mp h
  have hasked := b.awaited?_exit hseg
  rw [b.segments_getElem?] at hseg
  obtain ⟨st, hst, rfl⟩ := Option.map_eq_some_iff.mp hseg
  obtain ⟨hopening, hclosing⟩ := b.sliced.between hst
  have numbered := b.laidOut.numbered
  have hdelivery : dealings m.layout (st.delivery m.layout).1.toList =
      { taken := ((if i = 0 then none else b.points[i - 1]?).bind fun q =>
          q.delivery.bind fun _ => m.layout.tasksOf? q).toList } := by
    rw [← hopening]
    unfold Stretch.delivery
    cases hq : st.opening with
    | none => rfl
    | some q =>
      obtain ⟨j, -, hpoint⟩ := b.point_of_opening hst hq
      exact dealings_deliveryStmt numbered
        (b.carries_of_delivery (List.mem_of_getElem? hpoint)) .none
  have hstores : dealings m.layout (st.stores m.layout) =
      { stored := ((b.closing? i).map fun r => m.layout.awaits r.index).getD [] } := by
    rw [dealings_stores numbered fun r hr =>
      b.length_awaits_closing (hclosing.symm.trans hr), hclosing]
    rfl
  have hbody : dealings m.layout (st.segment m.layout i).body =
      { stored := ((b.closing? i).map fun r => m.layout.awaits r.index).getD []
        taken := ((if i = 0 then none else b.points[i - 1]?).bind fun q =>
          q.delivery.bind fun _ => m.layout.tasksOf? q).toList } := by
    rw [Stretch.segment_body, Stretch.userCode, dealings_append, dealings_append,
      dealings_append, hdelivery, hstores, dealings_introductions,
      dealings_of_taskless (topStmts_taskless numbered _ _)]
    simp only [Dealings.append_eq, List.nil_append, List.append_nil]
  have hguard := b.awaitedBefore_eq i
  unfold awaitedBefore at hguard
  unfold armOf Arm.body
  dsimp only
  rw [dealings_append, dealings_append, dealings_append, dealings_cancelCheck, hguard,
    dealings_awaitGuard, hbody, dealings_armEnd, hasked]
  simp only [Dealings.append_eq, List.nil_append, List.append_nil]

theorem exists_arm (h : i ≤ b.points.length) : ∃ arm, b.arms[i]? = some arm := by
  obtain ⟨seg, hseg⟩ := b.exists_segment h
  rw [arms, getElem?_armsFrom, hseg]
  exact ⟨_, rfl⟩

/-- **The tasks that are awaited between two segments**, where `r` is the last point with the
statement number of the point `q` between them.  The first segment says that it ends at `r`,
stores into the slots of `r` and asks to be called back after them; the next arm tests the
slots of `r`; but what is delivered is taken from the slots of `q`. -/
theorem handover (hq : b.points[i]? = some q) (hr : pointOfStmt b.points q = r) :
    ∃ seg arm next, b.segments[i]? = some seg ∧ b.arms[i]? = some arm ∧
      b.arms[i + 1]? = some next ∧
      seg.exit = some ⟨r.index, resumptionOf m.layout r⟩ ∧
      (dealings m.layout arm.body).stored = m.layout.awaits r.index ∧
      (dealings m.layout arm.body).requested = (m.layout.tasksOf? r).toList ∧
      (dealings m.layout next.body).tested = (m.layout.tasksOf? r).toList ∧
      (dealings m.layout next.body).taken =
        (q.delivery.bind fun _ => m.layout.tasksOf? q).toList := by
  have hlt := (List.getElem?_eq_some_iff.mp hq).1
  have hclosing : b.closing? i = some r := by rw [closing?, hq, Option.map_some, hr]
  obtain ⟨seg, hseg⟩ := b.exists_segment (Nat.le_of_lt hlt)
  obtain ⟨arm, harm⟩ := b.exists_arm (Nat.le_of_lt hlt)
  obtain ⟨next, hnext⟩ := b.exists_arm hlt
  refine ⟨seg, arm, next, hseg, harm, hnext, ?_⟩
  rw [b.dealings_arm harm, b.dealings_arm hnext, (b.exit_eq hseg).2, hq, Option.map_some, hr]
  dsimp only
  rw [if_neg (Nat.succ_ne_zero i), if_neg (Nat.succ_ne_zero i),
    Nat.succ_sub_one, hclosing, hq]
  exact ⟨rfl, rfl, rfl, rfl, rfl⟩

/-- **In a tree-shaped body everything lines up**: all four hands go by the slots of the point
between the segments. -/
theorem handover_of_tree (tree : p.TreeShaped) (hq : b.points[i]? = some q) :
    ∃ seg arm next, b.segments[i]? = some seg ∧ b.arms[i]? = some arm ∧
      b.arms[i + 1]? = some next ∧
      seg.exit = some ⟨i, resumptionOf m.layout q⟩ ∧
      (dealings m.layout arm.body).stored = m.layout.awaits i ∧
      (dealings m.layout arm.body).requested = (m.layout.tasksOf? q).toList ∧
      (dealings m.layout next.body).tested = (m.layout.tasksOf? q).toList ∧
      (dealings m.layout next.body).taken =
        (q.delivery.bind fun _ => m.layout.tasksOf? q).toList := by
  have hindex := b.index_eq hq
  have hself := pointOfStmt_eq_self b.found tree (List.mem_of_getElem? hq)
  rw [← hindex] at hq ⊢
  exact b.handover hq hself

/-- **Segments end at the points that follow them** exactly when no statement
number suspends twice. -/
theorem exits_in_order_iff :
    (∀ (i : Nat) (seg : Segment) (exit : SegmentExit), b.segments[i]? = some seg →
      seg.exit = some exit →
      exit.point = i) ↔ (b.points.map fun q => q.stmt.id).Nodup := by
  have hindex : ∀ k (q : SuspensionPoint), b.points[k]? = some q → q.index = k :=
    fun _ _ hk => b.index_eq hk
  constructor
  · intro h
    refine List.nodup_iff_getElem?_ne_getElem?.mpr fun i j hlt hj hsame => ?_
    rw [List.length_map] at hj
    rw [List.getElem?_map, List.getElem?_map, List.getElem?_eq_getElem hj,
      List.getElem?_eq_getElem (Nat.lt_trans hlt hj)] at hsame
    have hq := List.getElem?_eq_getElem (Nat.lt_trans hlt hj)
    obtain ⟨seg, -, -, hseg, -, -, hexit, -⟩ := b.handover hq rfl
    have hlast := (pointOfStmt_last hindex hq).2.2 j _ (List.getElem?_eq_getElem hj)
      (Option.some.inj hsame).symm
    have hpoint : (pointOfStmt b.points b.points[i]).index = i := h i seg _ hseg hexit
    rw [hpoint] at hlast
    exact Nat.not_lt_of_le hlast hlt
  · intro hnodup i seg exit hseg hexit
    rw [(b.exit_eq hseg).2] at hexit
    obtain ⟨q, hq, rfl⟩ := Option.map_eq_some_iff.mp hexit
    obtain ⟨hat, hid, -⟩ := pointOfStmt_last hindex hq
    have hself := List.inj_on_of_nodup_map hnodup (List.mem_of_getElem? hat)
      (List.mem_of_getElem? hq) hid
    show (pointOfStmt b.points q).index = i
    rw [hself, hindex i q hq]

end Lowered

/-! ### A statement that is used twice -/

namespace Doubled

/-- The strings that the procedure uses. -/
def names : NameTable := .internAll .empty ["Main", "x", "Work", "log"]

/-- Wait for the value of another procedure. -/
def wait : Stmt :=
  .bind ⟨0, .none⟩ 0 (.suspend ⟨.int, .none⟩
    (.call ⟨.deferred .int, .none⟩ (.procedure ⟨3⟩) []))

/-- Wait twice, with one statement, and log what came last. -/
def procedure : Procedure where
  name := ⟨1⟩
  params := []
  locals := [⟨0, ⟨2⟩, .int, .none⟩]
  result := .unit
  cancellation := none
  body := .block [wait, wait,
    .expr ⟨1, .none⟩ (.call ⟨.unit, .none⟩ (.host ⟨4⟩) [.localVar ⟨.int, .none⟩ 0])]
  span := .none

/-- The machine of the procedure. -/
@[irreducible] def machine : Machine :=
  (lowerProcedure {} procedure names).1.toOption.getD default

theorem lowered :
    lowerProcedure {} procedure names =
      (.ok machine, (lowerProcedure {} procedure names).2) := by
  unfold machine
  exact eq_mk_ok_of_isOk (by decide +kernel)

/-- What the arms of the machine do with awaited tasks. -/
def arms : List Dealings :=
  match machine.dispatch.body with
  | [_, .switch _ _ arms] => arms.map fun arm => dealings machine.layout arm.body
  | _ => []

end Doubled

/-- **A body that uses a statement twice** mixes up its slots: the first segment stores its
task in the slot of the second point and waits for it there, and the second segment takes the
value of the task in the slot of the first point, in which no task is ever stored. -/
theorem doubled_handover : lowerProcedure {} Doubled.procedure Doubled.names =
        (.ok Doubled.machine, (lowerProcedure {} Doubled.procedure Doubled.names).2) ∧
      Doubled.machine.layout.awaits 0 = [3] ∧
        Doubled.machine.layout.awaits 1 = [4] ∧ Doubled.arms = [
        { stored := [4], requested := [([4], .all)] },
        { stored := [4], requested :=
          [([4], .all)], tested := [([4], .all)], taken := [([3], .all)] },
        { tested := [([4], .all)], taken := [([4], .all)] }] := by
  refine ⟨Doubled.lowered, ?_⟩
  unfold Doubled.arms Doubled.machine
  decide +kernel

end Resumable
