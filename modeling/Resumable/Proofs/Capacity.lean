import Resumable.Proofs.Segmentable

/-!
# Lists that grow

The lists of a procedure and those of its machine are stored with lengths of the same limited
size.  Slotted code has no list that is longer than the list of the source that it comes from.
But the lists around it are new: the entry stores the hoisted parameters, and an arm holds a
segment with what the machine does before and after it.  **These are the only lists that can
become too long**, and they do: a procedure may have as many statements as can be stored, and
then there is no room for the one that ends the arm.

## Main definitions

* `Bound.Node.Storable`, `Bound.Procedure.Storable`: every list of a body can be stored.

## Main statements

* `slotwise_storable`: the lists of slotted code can be stored.
* `oversized_iff`: lowering gives up on a machine exactly if its entry or one of
  its arms is too long.
* `brimful_oversized`: it gives up on a procedure that is as long as a list may be.
-/

namespace Resumable

open Resumable.Machine (Arm Expr SlotId Stmt listLengthsOf)
open Resumable.Bound (Procedure Node)

variable {seg : Segment} {p : Procedure} {m : Machine}

namespace Bound

/-- The lengths of the lists directly below a node. -/
def Node.listLengths : Node → List Nat
  | .expr (.call _ _ args) => [args.length]
  | .expr (.lambda _ body) | .stmt (.loop _ _ body) => [body.length]
  | .stmt (.branch _ _ onTrue onFalse) => [onTrue.length, onFalse.length]
  | _ => []

/-- Can every list of a tree be stored? -/
def Node.Storable (root : Node) : Prop := root.All fun n => ∀ k ∈ n.listLengths, k ≤ listLimit

/-- Can every list of a body be stored? -/
structure Procedure.Storable (p : Procedure) : Prop where
  block : p.stmts.length ≤ listLimit
  stmts : ∀ s ∈ p.stmts, (Node.stmt s).Storable

end Bound

/-- Can lists of these lengths be stored? -/
def Fit (lengths : List Nat) : Prop := ∀ k ∈ lengths, k ≤ listLimit

theorem fit_append {first second : List Nat} :
    Fit (first ++ second) ↔ Fit first ∧ Fit second :=
  List.forall_mem_append

theorem fit_singleton {k : Nat} : Fit [k] ↔ k ≤ listLimit := List.forall_mem_singleton

namespace Machine

theorem fit_listLengthsOf {stmts : List Stmt} :
    Fit (listLengthsOf stmts) ↔ ∀ s ∈ stmts, Fit s.listLengths := by
  induction stmts with
  | nil => simp [listLengthsOf, Fit]
  | cons s rest ih => rw [listLengthsOf, fit_append, ih, List.forall_mem_cons]

theorem fit_listLengthsOfArms {arms : List Arm} :
    Fit (listLengthsOfArms arms) ↔ ∀ arm ∈ arms, Fit (listLengthsOf arm.body) ∧
    arm.body.length ≤ listLimit := by
  induction arms with
  | nil => simp [listLengthsOfArms, Fit]
  | cons arm rest ih =>
    obtain ⟨value, body⟩ := arm
    rw [listLengthsOfArms, fit_append, fit_append, fit_singleton, ih, List.forall_mem_cons]
    rfl

end Machine

/-! ### Slotted code -/

section

variable {l : SlotLayout}

theorem length_slottedArgs (l : SlotLayout) (args : List Bound.Expr) :
    (slottedArgs l args).length = args.length := by
  induction args with
  | nil => rfl
  | cons e rest ih => exact congrArg (· + 1) ih

theorem length_slottedBlock_le (l : SlotLayout) (inClosure : Bool) (stmts : List Bound.Stmt) :
    (slottedBlock l inClosure stmts).length ≤ stmts.length := by
  induction stmts with
  | nil => exact Nat.le_refl _
  | cons s rest ih =>
    unfold slottedBlock
    cases slottedStmt l inClosure s with
    | some s' => exact Nat.succ_le_succ ih
    | none => exact Nat.le_succ_of_le ih

/-- A block can be stored when its statements can and its source is short enough. -/
theorem Slotwise.Block.fit {inClosure : Bool} {stmts : List Bound.Stmt} {n : Node}
    (h : Slotwise.Block l (fun _ s s' => (Node.stmt s).Storable → Fit s'.listLengths)
      inClosure stmts)
    (storable : n.Storable) (below : stmts.map Node.stmt ⊆ n.children)
    (mem : stmts.length ∈ n.listLengths) :
    Fit (listLengthsOf (slottedBlock l inClosure stmts)) ∧
      (slottedBlock l inClosure stmts).length ≤ listLimit := by
  refine ⟨Machine.fit_listLengthsOf.mpr fun s' hs' => ?_, ?_⟩
  · obtain ⟨s, hs, hfit⟩ := h.forall_mem hs'
    exact hfit (Node.All.child storable (below (List.mem_map_of_mem hs)))
  · exact Nat.le_trans (length_slottedBlock_le l inClosure stmts)
      ((Node.all_iff.mp storable).1 _ mem)

/-- **The lists of slotted code can be stored** when those of its source can. -/
theorem slotwise_storable :
    Slotwise l (fun e => (Node.expr e).Storable → Fit (slottedExpr l e).listLengths)
    (fun args => (∀ e ∈ args, (Node.expr e).Storable) →
      Fit (Machine.listLengthsOfArgs (slottedArgs l args)))
    fun _ s s' => (Node.stmt s).Storable → Fit s'.listLengths where
  constant {e} h _ k hk := by cases e <;> first | cases hk | cases h
  read info target _ := by
    rw [slottedExpr_read]
    cases l.place target <;> exact List.forall_mem_nil _
  binary onLeft onRight h := fit_append.mpr ⟨onLeft (h.child List.mem_cons_self),
    onRight (h.child (List.mem_cons_of_mem _ List.mem_cons_self))⟩
  unary inside h := inside (h.child List.mem_cons_self)
  call inside h := by
    refine fit_append.mpr ⟨inside fun e he =>
      h.child (List.mem_map_of_mem he), fit_singleton.mpr ?_⟩
    rw [length_slottedArgs]
    exact (Node.all_iff.mp h).1 _ List.mem_cons_self
  lambda inside h := by
    obtain ⟨hbody, hlength⟩ := inside.fit h (List.Subset.refl _) List.mem_cons_self
    exact fit_append.mpr ⟨hbody, fit_singleton.mpr hlength⟩
  noArgs _ := List.forall_mem_nil _
  args first others h := fit_append.mpr ⟨first (h _ List.mem_cons_self),
    others fun e he => h e (List.mem_cons_of_mem _ he)⟩
  expr value h := value (h.child List.mem_cons_self)
  declare _ _ := List.forall_mem_nil _
  bind _ value h := value (h.child List.mem_cons_self)
  store _ value h := value (h.child List.mem_cons_self)
  assign value h := value (h.child List.mem_cons_self)
  branch cond first second h := by
    obtain ⟨hfirst, hlength⟩ :=
      first.fit h (fun n hn => List.mem_cons_of_mem _ (List.mem_append_left _ hn))
      List.mem_cons_self
    obtain ⟨hsecond, hlength'⟩ :=
      second.fit h (fun n hn => List.mem_cons_of_mem _ (List.mem_append_right _ hn))
      (List.mem_cons_of_mem _ List.mem_cons_self)
    simp only [Stmt.listLengths, fit_append, fit_singleton]
    exact ⟨⟨⟨⟨cond (h.child List.mem_cons_self), hfirst⟩, hlength⟩, hsecond⟩, hlength'⟩
  loop cond inside h := by
    obtain ⟨hbody, hlength⟩ :=
      inside.fit h (fun n hn => List.mem_cons_of_mem _ hn) List.mem_cons_self
    simp only [Stmt.listLengths, fit_append, fit_singleton]
    exact ⟨⟨cond (h.child List.mem_cons_self), hbody⟩, hlength⟩
  breakLoop _ := List.forall_mem_nil _
  continueLoop _ := List.forall_mem_nil _
  leave _ := List.forall_mem_nil _
  ret value h := value (h.child List.mem_cons_self)
  finish _ := List.forall_mem_nil _
  finishWith value h := value (h.child List.mem_cons_self)

end

/-! ### Machines -/

theorem fit_cancelCheck (span : Span) (token : SlotId) :
    Fit (cancelCheck span token).listLengths := by
  simp [cancelCheck, Stmt.listLengths, Expr.listLengths, listLengthsOf, Fit, listLimit]

theorem fit_awaitGuard (span : Span) (dispatch : Name) (tasks : List SlotId)
    (mode : JoinMode) : Fit (awaitGuard span dispatch tasks mode).listLengths := by
  simp [awaitGuard, leaveProcedure, Stmt.listLengths, Expr.listLengths,
    Machine.Timing.listLengths, listLengthsOf, Fit, listLimit]

theorem fit_armEnd {span : Span} {dispatch : Name}
    (h : ∀ exit ∈ seg.exit, Fit exit.request.timing.listLengths) :
    ∀ s ∈ armEnd span dispatch seg, Fit s.listLengths := by
  unfold armEnd
  cases heq : seg.exit with
  | none => exact List.forall_mem_singleton.mpr (List.forall_mem_nil _)
  | some exit =>
    have htiming : Fit exit.request.timing.listLengths := h exit heq
    simpa [Stmt.listLengths, Expr.listLengths, leaveProcedure, Fit] using htiming

namespace Lowered

variable {mode : LivenessMode} {names : NameTable} (b : Lowered mode names p m)

/-- What a suspension evaluates can be stored. -/
theorem storable_operand (storable : p.Storable) {q : SuspensionPoint} (hq : q ∈ b.points)
    {e : Bound.Expr} (he : e ∈ q.kind.operands) : (Node.expr e).Storable := by
  obtain ⟨site, i, gives, hstmt, hsuspends⟩ := site_of_mem b.found hq
  exact (gives.kind.partOf he).all (all_of_suspensionOf hsuspends (storable.stmts _ hstmt))

/-- **The lists inside a segment** can be stored. -/
theorem fit_segment (storable : p.Storable) {i : Nat} (h : b.segments[i]? = some seg) :
    Fit (listLengthsOf seg.body) ∧ ∀ exit ∈ seg.exit, Fit
      exit.request.timing.listLengths := by
  rw [b.segments_getElem?] at h
  obtain ⟨st, hst, rfl⟩ := Option.map_eq_some_iff.mp h
  have hstmts : ∀ {s : Bound.Stmt}, s ∈ st.stmts → (Node.stmt s).Storable := fun hs =>
    storable.stmts _ (b.sliced.mem_stmts (List.mem_of_getElem? hst) hs).1
  have hoperands : ∀ {q : SuspensionPoint}, st.closing = some q →
    ∀ e ∈ q.kind.operands, (Node.expr e).Storable := by
    intro q hq e he
    rw [(b.sliced.between hst).2] at hq
    obtain ⟨q', hq', rfl⟩ := Option.map_eq_some_iff.mp hq
    exact b.storable_operand storable (pointOfStmt_mem (List.mem_of_getElem? hq')) he
  constructor
  · refine Machine.fit_listLengthsOf.mpr fun s' hs' => ?_
    cases Stretch.holds_of_mem hs' with
    | binds | delivers | introduces => exact List.forall_mem_nil _
    | slotted mem eq => exact slotwise_storable.onStmt false _ s' eq (hstmts mem)
    | first _ _ value _ mem =>
      exact slotwise_storable.onExpr value (Node.All.child (hstmts mem) List.mem_cons_self)
    | stores q operand _ closes mem =>
      exact slotwise_storable.onExpr operand (hoperands closes operand mem)
  · intro exit hexit
    obtain ⟨q, hq, rfl⟩ := Option.map_eq_some_iff.mp hexit
    generalize htiming : (resumptionOf m.layout q).timing = timing
    cases htiming ▸ q.requests_resumptionOf m.layout with
    | seconds e mem | frames e mem => exact slotwise_storable.onExpr e (hoperands hq e mem)
    | nextFrame | completion => exact List.forall_mem_nil _

/-- **The lists inside an arm** can be stored. -/
theorem fit_arm (storable : p.Storable) {previous : Option Segment} {segs : List Segment}
    (sub : segs ⊆ b.segments) {arm : Arm}
    (h : arm ∈ armsFrom p.span m.layout m.dispatch.name previous segs) :
    Fit (listLengthsOf arm.body) := by
  induction segs generalizing previous with
  | nil => cases h
  | cons seg rest ih =>
    rcases List.mem_cons.mp h with rfl | h
    · obtain ⟨i, hi⟩ := List.getElem?_of_mem (sub List.mem_cons_self)
      obtain ⟨hbody, hexit⟩ := b.fit_segment storable hi
      refine Machine.fit_listLengthsOf.mpr fun s hs => ?_
      simp only [armOf, Arm.body, List.mem_append, Option.mem_toList,
        Option.map_eq_some_iff] at hs
      obtain ((⟨token, -, rfl⟩ | ⟨awaited, -, rfl⟩) | hs) | hs := hs
      · exact fit_cancelCheck p.span token
      · exact fit_awaitGuard p.span _ awaited.1 awaited.2
      · exact Machine.fit_listLengthsOf.mp hbody s hs
      · exact fit_armEnd hexit s hs
    · exact ih (List.Subset.trans (List.subset_cons_self _ _) sub) h

end Lowered

variable {options : LowerOptions} {names names' : NameTable}

theorem overlong?_eq_none_iff : m.overlong? = none ↔
    Fit (listLengthsOf m.entry.body) ∧ m.entry.body.length ≤ listLimit ∧
      Fit (listLengthsOf m.dispatch.body) ∧ m.dispatch.body.length ≤ listLimit := by
  have hnone : m.overlong? = none ↔
    Fit (listLengthsOf m.entry.body ++ [m.entry.body.length] ++
      listLengthsOf m.dispatch.body ++ [m.dispatch.body.length]) := by
    rw [Machine.overlong?, Option.map_eq_none_iff, List.find?_eq_none]
    simp only [decide_eq_true_eq, Nat.not_lt]
    rfl
  rw [hnone, fit_append, fit_append, fit_append, fit_singleton,
    fit_singleton, and_assoc, and_assoc]

theorem fit_entryBody (p : Procedure) (l : SlotLayout) (dispatch : Name) :
    Fit (listLengthsOf (entryBody p l dispatch)) := by
  have hparams : ∀ s ∈ l.slots.filterMap (paramStore p), Fit s.listLengths := by
    intro s hs
    obtain ⟨slot, -, hslot⟩ := List.mem_filterMap.mp hs
    unfold paramStore at hslot
    split at hslot
    · obtain rfl := Option.some.inj hslot
      exact List.forall_mem_nil _
    · cases hslot
  refine Machine.fit_listLengthsOf.mpr fun s hs => ?_
  simp only [entryBody, List.mem_append, List.mem_cons, List.not_mem_nil, or_false] at hs
  rcases hs with ((rfl | rfl) | hs) | rfl | rfl
  · exact List.forall_mem_nil _
  · exact List.forall_mem_nil _
  · exact hparams s hs
  · exact List.forall_mem_nil _
  · exact List.forall_mem_nil _

/-- **What becomes too long.**  Where every list of a procedure can be stored and its lowering
gives a machine, that machine cannot be stored exactly if its entry or one of the arms of its
dispatch is too long. -/
theorem oversized_iff (storable : p.Storable)
    (steps : lowerSteps options p names = (.ok m, names')) :
    ∃ arms, Machine.firstSwitch m.dispatch.body = some (m.stateSlot, arms) ∧
      ((∃ list, lowerProcedure options p names = (.error (.oversized list), names')) ↔
        listLimit < m.entry.body.length ∨ ∃ arm ∈ arms, listLimit < arm.body.length) := by
  obtain ⟨b⟩ := lowered_of_lowerSteps steps
  refine ⟨armsFrom p.span m.layout m.dispatch.name none
    b.segments, by rw [b.dispatch_eq]; rfl, ?_⟩
  have hlower : (∃ list, lowerProcedure options p names =
    (.error (.oversized list), names')) ↔ ¬ m.overlong? = none := by
    unfold lowerProcedure
    rw [steps]
    dsimp only
    cases m.overlong? <;> simp
  have harms : Fit (listLengthsOf m.dispatch.body) ↔
      ∀ arm ∈ armsFrom p.span m.layout m.dispatch.name none b.segments,
        arm.body.length ≤ listLimit := by
    rw [b.dispatch_eq]
    refine Iff.trans (b := Fit (Machine.listLengthsOfArms _)) ?_
      (Machine.fit_listLengthsOfArms.trans
      (forall₂_congr fun arm harm => and_iff_right
        (b.fit_arm storable (List.Subset.refl _) harm)))
    simp [dispatchBody, statusGuard, statusCode, leaveProcedure,
      listLengthsOf, Stmt.listLengths, Expr.listLengths, Fit, listLimit]
  have hlength : m.dispatch.body.length ≤ listLimit := by
    rw [b.dispatch_eq]
    simp [dispatchBody, listLimit]
  have hentry : Fit (listLengthsOf m.entry.body) := b.entry_eq ▸ fit_entryBody p m.layout _
  rw [hlower, overlong?_eq_none_iff, harms]
  simp only [hentry, hlength, true_and, and_true, not_and_or, not_forall,
    Nat.not_le, exists_prop]

/-! ### A full procedure -/

namespace Brimful

/-- A statement that does nothing. -/
def idle : Bound.Stmt := .expr ⟨0, .none⟩ (.unit ⟨.unit, .none⟩)

/-- A procedure of `n` statements that do nothing. -/
def procedure (n : Nat) : Procedure :=
  ⟨⟨0⟩, [], [], .unit, none, .block (.replicate n idle), .none⟩

/-- Its only segment. -/
def segment (l : SlotLayout) (n : Nat) : Segment :=
  Stretch.segment l 0 ⟨none, .replicate n idle, none⟩

variable (n : Nat) (names : NameTable)

variable {n} in
theorem eq_idle {x : Bound.Stmt × Nat} (h : x ∈ (List.replicate n idle).zipIdx) :
    x = (idle, x.2) :=
  Prod.ext (List.eq_of_mem_replicate (List.fst_mem_of_mem_zipIdx h)) rfl

theorem shapeProblems_eq : shapeProblems names (procedure n) = [] := by
  have hlocated : ∀ find, located find (.replicate n idle) = [] := by
    refine fun find => List.flatMap_eq_nil_iff.mpr fun x hx => ?_
    rw [eq_idle hx]
    rfl
  have hstmt : stmtProblems names idle = [] := rfl
  simp [shapeProblems, cancellationProblems, procedure, returnProblems,
    generatorProblems, hlocated, hstmt]

theorem suspensionPoints_eq : suspensionPoints names (procedure n) = .ok [] := by
  have hsites : suspensionSites (procedure n).stmts = [] := by
    refine List.filterMap_eq_nil_iff.mpr fun x hx => ?_
    rw [eq_idle hx]
    rfl
  rw [suspensionPoints, hsites]
  rfl

theorem lowerSteps_eq (options : LowerOptions) :
    ∃ l dispatch names', lowerSteps options (procedure n) names =
    (.ok (assemble (procedure n) [segment l n] l dispatch), names') := by
  have hnone : hoistedVariables (procedure n) options.liveness [] = [] := by
    simp [hoistedVariables, hoistedParams, hoistedLocals, procedure,
      Procedure.param?, Procedure.local?]
  have hhoist : ∀ namer, hoist (procedure n) [] options.liveness namer = (.ok [], namer) := by
    intro namer
    rw [hoist, hnone]
    rfl
  have hsegments : ∀ l, segments (procedure n) [] l = .ok [segment l n] := by
    have hidle : stmtStrays idle = [] := rfl
    simp [segments, segment, procedure, cut, cutFrom, Stretch.strays,
      blockStrays_eq_flatMap, hidle]
  unfold lowerSteps lowerPoints
  simp only [shapeProblems_eq, suspensionPoints_eq, hhoist, hsegments, layOut]
  exact ⟨_, _, _, rfl⟩

theorem le_length_segment (l : SlotLayout) : n ≤ (segment l n).body.length := by
  have hlength : ∀ u, (topStmts l u (.replicate n idle)).1.length = n := by
    induction n with
    | zero => exact fun _ => rfl
    | succ n ih => exact fun u => congrArg (· + 1) (ih u)
  simp only [segment, Stretch.segment, List.length_append, hlength]
  omega

theorem storable (h : n ≤ listLimit) : (procedure n).Storable := by
  refine ⟨List.length_replicate ▸ h, fun s hs => ?_⟩
  obtain rfl : s = idle := List.eq_of_mem_replicate hs
  have hunit : (Node.expr (.unit ⟨.unit, .none⟩)).Storable :=
    Node.all_iff.mpr ⟨List.forall_mem_nil _, List.forall_mem_nil _⟩
  exact Node.all_iff.mpr ⟨List.forall_mem_nil _, List.forall_mem_singleton.mpr hunit⟩

end Brimful

open Brimful in
/-- **A procedure that is as long as it may be** cannot be lowered: the arm for it has one
statement more. -/
theorem brimful_oversized {n : Nat} (full : n = listLimit) (options : LowerOptions)
    (names : NameTable) :
    (procedure n).Storable ∧
      ∃ list names',
        lowerProcedure options (procedure n) names = (.error (.oversized list), names') := by
  have hstorable := storable n (Nat.le_of_eq full)
  obtain ⟨l, dispatch, names', hsteps⟩ := lowerSteps_eq n names options
  obtain ⟨arms, harms, hiff⟩ := oversized_iff hstorable hsteps
  obtain rfl := (Prod.mk.inj (Option.some.inj harms)).2
  have hlong : listLimit < (armOf (procedure n).span l dispatch none
    (segment l n)).body.length := by
    have hlength := le_length_segment n l
    have hexit : (segment l n).exit = none := rfl
    simp only [armOf, Arm.body, armEnd, hexit, List.length_append, List.length_singleton]
    omega
  obtain ⟨list, hlist⟩ := hiff.mpr (Or.inr ⟨_, List.mem_cons_self, hlong⟩)
  exact ⟨hstorable, list, names', hlist⟩

end Resumable
