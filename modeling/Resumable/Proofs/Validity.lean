import Resumable.Proofs.Lowered

/-!
# Machines that break no rule

A host refuses a machine that breaks one of the rules of `Machine.violations`.  **The
machines that lowering makes break none of them**, so a host can refuse such a machine only
for a name that is taken.

The rules are of two kinds.  Those about single references hold because every slot that is
written into the code was looked up in the layout.  Those about the shape of the two
procedures hold because segments are numbered in order and plain: none of them makes a
request of its own.

## Main definitions

* `Segment.Clean`: a segment whose references are there.

## Main statements

* `Machine.Scope.slotwise_clean`: code with its variables in slots refers to slots that exist.
* `Stretch.clean_segment`: so do the segments.
* `Lowered.violations_eq_nil`: a lowered machine breaks no rule.
-/

namespace Resumable

open Resumable.Bound (Procedure)
open Resumable.Machine (Scope Slot SlotId Stmt)

variable {slot : SlotId} {l : SlotLayout} {role : Machine.Role} {tasks : List SlotId}
  {mode : JoinMode} {seg : Segment} {segs : List Segment} {state position : Nat}
  {before : List Stmt}

/-! ### References -/

namespace Machine.Scope

variable {scope : Scope}

theorem slotRef_eq_nil (h : slot < scope.slotCount) : scope.slotRef slot = [] := if_pos h

theorem slotRefs_eq_nil {slots : List SlotId} (h : ∀ slot ∈ slots, slot < scope.slotCount) :
    scope.slotRefs slots = [] :=
  List.flatMap_eq_nil_iff.mpr fun slot hslot => slotRef_eq_nil (h slot hslot)

/-- An expression that need not be there. -/
theorem optional_eq_nil {e : Expr} (h : scope.expr e = []) :
    (if e.isAbsent then [] else scope.expr e) = [] := by
  rw [h, ite_self]

/-- A block passes when its statements do. -/
theorem block_eq_nil {stmts : List Stmt} :
    scope.block stmts = [] ↔ ∀ s ∈ stmts, scope.stmt s = [] := by
  induction stmts with
  | nil => simp [block]
  | cons s rest ih => simp only [block, List.append_eq_nil_iff, ih, List.forall_mem_cons]

theorem block_append {first second : List Stmt} (hfirst : scope.block first = [])
    (hsecond : scope.block second = []) : scope.block (first ++ second) = [] := by
  rw [block_eq_nil] at hfirst hsecond ⊢
  exact List.forall_mem_append.mpr ⟨hfirst, hsecond⟩

theorem expr_read (info : ExprInfo) (place : Place) :
    scope.expr (place.read info) = scope.placeRef place := by
  cases place <;> rfl

theorem block_slotted {inClosure : Bool} {stmts : List Bound.Stmt}
    (h : Slotwise.Block l (fun _ _ s' => scope.stmt s' = []) inClosure stmts) :
    scope.block (slottedBlock l inClosure stmts) = [] := by
  refine block_eq_nil.mpr fun s' hs' => ?_
  obtain ⟨_, _, hs⟩ := h.forall_mem hs'
  exact hs

end Machine.Scope

section

variable {scope : Scope}

theorem Numbered.lt_of_slotWithRole? (numbered : Numbered l.slots)
    (h : slotWithRole? l.slots role = some slot) : slot < l.slots.length := by
  obtain ⟨s, hs, -⟩ := numbered.role_of_slotWithRole? h
  exact (List.getElem?_eq_some_iff.mp hs).1

theorem Numbered.lt_of_awaits (numbered : Numbered l.slots) {point : Nat}
    (h : slot ∈ l.awaits point) : slot < l.slots.length := by
  obtain ⟨s, -, hs, -⟩ := numbered.role_of_awaits h
  exact (List.getElem?_eq_some_iff.mp hs).1

theorem Numbered.lt_of_mem (numbered : Numbered l.slots) {slot : Slot} (h : slot ∈ l.slots) :
    slot.id < l.slots.length := by
  obtain ⟨k, hk⟩ := List.getElem?_of_mem h
  rw [numbered k slot hk]
  exact (List.getElem?_eq_some_iff.mp hk).1

/-! ### Code with slots -/

namespace Machine.Scope

section

variable (numbered : Numbered l.slots) (hcount : scope.slotCount = l.slots.length)

include numbered hcount

theorem slotRef_of_role (h : slotWithRole? l.slots role = some slot) :
    scope.slotRef slot = [] := slotRef_eq_nil (hcount ▸ numbered.lt_of_slotWithRole? h)

theorem slotRefs_awaits (point : Nat) : scope.slotRefs (l.awaits point) = [] :=
  slotRefs_eq_nil fun _ hslot => hcount ▸ numbered.lt_of_awaits hslot

theorem placeRef_place (target : Bound.Place) : scope.placeRef (l.place target) = [] := by
  generalize hplace : l.place target = place
  cases SlotLayout.placed hplace with
  | localSlot kept | paramSlot kept => exact slotRef_of_role numbered hcount kept
  | localVar | param | field => rfl

/-- **Code with variables in slots refers to slots that exist.** -/
theorem slotwise_clean : Slotwise l (fun e => scope.expr (slottedExpr l e) = [])
    (fun args => scope.args (slottedArgs l args) = []) fun _ _ s' => scope.stmt s' = [] where
  constant {e} h := by cases e <;> trivial
  read info target := by rw [slottedExpr_read, expr_read, placeRef_place numbered hcount]
  binary onLeft onRight := List.append_eq_nil_iff.mpr ⟨onLeft, onRight⟩
  unary inside := inside
  call inside := inside
  lambda inside := block_slotted inside
  noArgs := rfl
  args first others := List.append_eq_nil_iff.mpr ⟨first, others⟩
  expr value := value
  declare _ := rfl
  bind _ value := optional_eq_nil value
  store kept value := List.append_eq_nil_iff.mpr ⟨slotRef_of_role numbered hcount kept, value⟩
  assign value := List.append_eq_nil_iff.mpr ⟨placeRef_place numbered hcount _, value⟩
  branch cond first second := List.append_eq_nil_iff.mpr
    ⟨List.append_eq_nil_iff.mpr ⟨cond, block_slotted first⟩, block_slotted second⟩
  loop cond inside := List.append_eq_nil_iff.mpr ⟨cond, block_slotted inside⟩
  breakLoop := rfl
  continueLoop := rfl
  leave := rfl
  ret value := optional_eq_nil value
  finish := rfl
  finishWith value := optional_eq_nil value

end

end Machine.Scope

/-! ### Segments -/

/-- A segment whose references are there, in its code and in what it asks for. -/
structure Segment.Clean (scope : Scope) (seg : Segment) : Prop where
  body : scope.block seg.body = []
  timing : ∀ exit ∈ seg.exit, scope.timing exit.request.timing = []

/-- Every segment passes the checks of the scope. -/
theorem Stretch.clean_segment (numbered : Numbered l.slots)
    (hcount : scope.slotCount = l.slots.length) (st : Stretch) (index : Nat) :
    (st.segment l index).Clean scope := by
  have hclean := Scope.slotwise_clean numbered hcount
  constructor
  · refine Scope.block_eq_nil.mpr fun s' hs' => ?_
    cases holds_of_mem hs' with
    | binds q => exact Scope.slotRefs_awaits numbered hcount q.index
    | delivers q target =>
      exact List.append_eq_nil_iff.mpr ⟨Scope.placeRef_place numbered hcount target,
        Scope.slotRefs_awaits numbered hcount q.index⟩
    | introduces => rfl
    | slotted _ eq => exact hclean.onStmt false _ s' eq
    | first _ _ value => exact Scope.optional_eq_nil (hclean.onExpr value)
    | stores q operand slot _ _ awaited =>
      exact List.append_eq_nil_iff.mpr ⟨Scope.slotRef_eq_nil
        (hcount ▸ numbered.lt_of_awaits awaited), hclean.onExpr operand⟩
  · intro exit hexit
    obtain ⟨q, -, rfl⟩ := Option.map_eq_some_iff.mp hexit
    generalize htiming : (resumptionOf l q).timing = timing
    cases htiming ▸ q.requests_resumptionOf l with
    | seconds e | frames e => exact hclean.onExpr e
    | nextFrame => rfl
    | completion tasks mode awaited =>
      exact Scope.slotRefs_eq_nil fun slot hslot =>
        hcount ▸ numbered.lt_of_awaits (awaited hslot)

/-- Where tasks end a wait, the request is for their completion. -/
theorem Resumption.timing_of_awaited? {r : Resumption}
    (h : r.awaited? = some (tasks, mode)) : r.timing = .completion tasks mode := by
  cases r with
  | seconds _ | frames _ | nextFrame => cases h
  | join _ _ | delegate _ =>
    obtain ⟨rfl, rfl⟩ := Prod.mk.inj (Option.some.inj h)
    rfl

/-! ### Arms -/

variable {span : Span} {dispatch : Name} {previous : Option Segment}

theorem Segment.Clean.armEnd (h : seg.Clean scope) :
    scope.block (armEnd span scope.dispatch seg) = [] := by
  unfold Resumable.armEnd
  cases hexit : seg.exit with
  | none => rfl
  | some exit =>
    have htarget : scope.stmt (.schedule span scope.dispatch exit.request.timing) = [] :=
      List.append_eq_nil_iff.mpr ⟨if_pos rfl, h.timing exit hexit⟩
    refine Scope.block_eq_nil.mpr fun s hs => ?_
    simp only [List.mem_cons, List.not_mem_nil, or_false] at hs
    rcases hs with rfl | rfl | rfl
    · rfl
    · exact htarget
    · rfl

/-- The slots that an arm waits for exist, since the segment before it asked for them. -/
theorem Segment.Clean.awaitGuard (h : seg.Clean scope)
    (hawaited : seg.exit.bind (fun exit => exit.request.awaited?) = some (tasks, mode)) :
    scope.stmt (awaitGuard span scope.dispatch tasks mode) = [] := by
  obtain ⟨exit, hexit, hrequest⟩ := Option.bind_eq_some_iff.mp hawaited
  have htasks : scope.slotRefs tasks = [] := by
    have htiming := h.timing exit hexit
    rw [Resumption.timing_of_awaited? hrequest] at htiming
    exact htiming
  have hschedule : scope.stmt (.schedule span scope.dispatch (.completion tasks mode)) = [] :=
    List.append_eq_nil_iff.mpr ⟨if_pos rfl, htasks⟩
  refine List.append_eq_nil_iff.mpr ⟨List.append_eq_nil_iff.mpr ⟨htasks, ?_⟩, rfl⟩
  exact List.append_eq_nil_iff.mpr ⟨hschedule, rfl⟩

theorem block_armOf (hcancel : ∀ token ∈ l.cancel, token < scope.slotCount)
    (hprevious : ∀ seg ∈ previous, seg.Clean scope) (hseg : seg.Clean scope) :
    scope.block (armOf span l scope.dispatch previous seg).body = [] := by
  refine Scope.block_append (Scope.block_append (Scope.block_append ?_ ?_) hseg.body)
    hseg.armEnd
  · refine Scope.block_eq_nil.mpr fun s hs => ?_
    obtain ⟨token, htoken, rfl⟩ := Option.map_eq_some_iff.mp (Option.mem_toList.mp hs)
    have hslot := Scope.slotRef_eq_nil (hcancel token htoken)
    exact List.append_eq_nil_iff.mpr ⟨List.append_eq_nil_iff.mpr ⟨hslot, rfl⟩, rfl⟩
  · refine Scope.block_eq_nil.mpr fun s hs => ?_
    obtain ⟨⟨tasks, mode⟩, hawaited, rfl⟩ :=
      Option.map_eq_some_iff.mp (Option.mem_toList.mp hs)
    cases previous with
    | none => cases hawaited
    | some before => exact (hprevious before rfl).awaitGuard hawaited

/-- **The arms of clean segments refer to slots that exist.** -/
theorem arms_armsFrom (hcancel : ∀ token ∈ l.cancel, token < scope.slotCount)
    (hprevious : ∀ seg ∈ previous, seg.Clean scope) (h : ∀ seg ∈ segs, seg.Clean scope) :
    scope.arms (armsFrom span l scope.dispatch previous segs) = [] := by
  induction segs generalizing previous with
  | nil => rfl
  | cons seg rest ih =>
    obtain ⟨hseg, hrest⟩ := List.forall_mem_cons.mp h
    refine List.append_eq_nil_iff.mpr ⟨block_armOf hcancel hprevious hseg, ih ?_ hrest⟩
    exact fun before hbefore => Option.some.inj hbefore ▸ hseg

/-! ### The shape of arms -/

theorem Machine.Stmt.Plain.isSchedule_eq {P : Policy} {kind : CodeKind} {s : Stmt}
    (h : s.Plain P kind) : s.isSchedule = false := by
  cases s with
  | schedule => exact h.elim
  | _ => rfl

theorem innerArmViolations_eq_nil (h : ∀ s ∈ before, s.isSchedule = false)
    (timing : Machine.Timing) : Machine.innerArmViolations state
      (before ++ [.setState span (state + 1), .schedule span dispatch timing,
        leaveProcedure span]) = [] := by
  have hcount : before.countP Stmt.isSchedule = 0 :=
    List.countP_eq_zero.mpr fun s hs => by rw [h s hs]; exact Bool.false_ne_true
  refine List.append_eq_nil_iff.mpr ⟨if_pos ?_, if_pos ?_⟩
  · unfold Machine.advancesTo
    rw [List.reverse_append]
    exact beq_self_eq_true _
  · rw [List.countP_append, hcount]
    rfl

theorem lastArmViolations_eq_nil :
    Machine.lastArmViolations state (before ++ [.finish span .succeeded .absent]) = [] := by
  unfold Machine.lastArmViolations
  rw [List.getLast?_concat]
  rfl

/-- **The arms of segments that are numbered in order, of which only the last one does not
suspend, keep the rules of arms.** -/
theorem armViolations_armsFrom {lastState : Nat}
    (h : ∀ j seg, segs[j]? = some seg → seg.index = position + j ∧
      (seg.exit.isSome ↔ position + j ≠ lastState) ∧ ∀ s ∈ seg.body, s.isSchedule = false) :
    Machine.armViolations lastState position
      (armsFrom span l dispatch previous segs) = [] := by
  induction segs generalizing position previous with
  | nil => rfl
  | cons seg rest ih =>
    obtain ⟨hindex, hexit, hbody⟩ := h 0 seg rfl
    rw [Nat.add_zero] at hindex hexit
    have hrest : ∀ j seg, rest[j]? = some seg → seg.index = position + 1 + j ∧
        (seg.exit.isSome ↔ position + 1 + j ≠ lastState) ∧
        ∀ s ∈ seg.body, s.isSchedule = false := by
      intro j seg hseg
      have hlater := h (j + 1) seg hseg
      rwa [Nat.add_comm j 1, ← Nat.add_assoc] at hlater
    -- What stands before the end of an arm makes no request.
    have hbefore : ∀ s ∈ (l.cancel.map (cancelCheck span)).toList ++
        (((previous.bind Segment.exit).bind fun exit => exit.request.awaited?).map
          fun awaited => awaitGuard span dispatch awaited.1 awaited.2).toList ++ seg.body,
        s.isSchedule = false := by
      refine List.forall_mem_append.mpr ⟨List.forall_mem_append.mpr
        ⟨fun s hs => ?_, fun s hs => ?_⟩, hbody⟩
      · obtain ⟨token, -, rfl⟩ := Option.map_eq_some_iff.mp (Option.mem_toList.mp hs)
        rfl
      · obtain ⟨awaited, -, rfl⟩ := Option.map_eq_some_iff.mp (Option.mem_toList.mp hs)
        rfl
    refine List.append_eq_nil_iff.mpr
      ⟨List.append_eq_nil_iff.mpr ⟨if_pos hindex, ?_⟩, ih hrest⟩
    dsimp only
    unfold armEnd
    cases hend : seg.exit with
    | none =>
      rw [hend] at hexit
      rw [if_pos (hindex.trans (not_not.mp fun hne => Bool.false_ne_true (hexit.mpr hne)))]
      exact lastArmViolations_eq_nil
    | some exit =>
      rw [hend] at hexit
      rw [if_neg (hindex ▸ hexit.mp rfl)]
      exact innerArmViolations_eq_nil hbefore exit.request.timing

/-! ### Slots -/

theorem slotNumbering_eq_nil {slots : List Slot}
    (h : ∀ k (slot : Slot), slots[k]? = some slot → slot.id = position + k) :
    Machine.slotNumbering position slots = [] := by
  induction slots generalizing position with
  | nil => rfl
  | cons slot rest ih =>
    refine List.append_eq_nil_iff.mpr ⟨if_pos (h 0 slot rfl), ih fun k slot hk => ?_⟩
    rw [h (k + 1) slot hk, Nat.add_comm k 1, Nat.add_assoc]

end

/-! ### Machines -/

namespace Lowered

variable {mode : LivenessMode} {names : NameTable} {p : Procedure} {m : Machine}

variable (b : Lowered mode names p m)

include b

theorem lt_of_cancel {token : SlotId} (h : m.cancelSlot = some token) :
    token < m.slots.length := by
  have hcancel : m.cancelSlot = p.cancellation.bind m.layout.param? := b.laidOut.cancel
  obtain ⟨i, -, hi⟩ := Option.bind_eq_some_iff.mp (hcancel.symm.trans h)
  exact b.laidOut.numbered.lt_of_slotWithRole? hi

theorem clean_segments : ∀ seg ∈ b.segments, seg.Clean m.scope := by
  intro seg hseg
  obtain ⟨i, hi, rfl⟩ := List.mem_mapIdx.mp hseg
  exact Stretch.clean_segment b.laidOut.numbered rfl _ i

theorem slotViolations_eq_nil : m.slotViolations = [] := by
  obtain ⟨hstate, hstatus, hresult⟩ := b.lt_length
  refine List.append_eq_nil_iff.mpr ⟨slotNumbering_eq_nil fun k slot hk => ?_,
    Scope.slotRefs_eq_nil fun slot hslot => ?_⟩
  · rw [Nat.zero_add]
    exact b.laidOut.numbered k slot hk
  · simp only [List.mem_append, List.mem_cons, List.not_mem_nil, or_false,
      Option.mem_toList] at hslot
    rcases hslot with ((rfl | rfl) | hslot) | hslot
    · exact hstate
    · exact hstatus
    · exact hresult slot hslot
    · exact b.lt_of_cancel hslot

/-- The entry of a lowered machine passes its checks. -/
theorem entryViolations_eq_nil : m.entryViolations = [] := by
  unfold Machine.entryViolations
  rw [b.entry_eq]
  refine List.append_eq_nil_iff.mpr ⟨List.append_eq_nil_iff.mpr ⟨rfl, ?_⟩, ?_⟩
  · rw [entryBody, List.getLast?_append]
    rfl
  · refine Scope.block_append (Scope.block_append ?_ ?_) ?_
    · refine List.append_eq_nil_iff.mpr ⟨rfl, List.append_eq_nil_iff.mpr ⟨?_, rfl⟩⟩
      exact List.append_eq_nil_iff.mpr ⟨Scope.slotRef_eq_nil b.lt_length.2.1, rfl⟩
    · refine Scope.block_eq_nil.mpr fun s hs => ?_
      obtain ⟨slot, hslot, hstore⟩ := List.mem_filterMap.mp hs
      unfold paramStore at hstore
      split at hstore
      case h_2 => cases hstore
      case h_1 =>
        obtain rfl := Option.some.inj hstore
        have hlt : slot.id < m.slots.length := b.laidOut.numbered.lt_of_mem hslot
        exact List.append_eq_nil_iff.mpr ⟨Scope.slotRef_eq_nil hlt, rfl⟩
    · exact List.append_eq_nil_iff.mpr ⟨if_pos rfl, rfl⟩

/-- The dispatch procedure of a lowered machine passes its checks. -/
theorem dispatchViolations_eq_nil : m.dispatchViolations = [] := by
  obtain ⟨hstate, hstatus, -⟩ := b.lt_length
  have hcount : m.stateCount = b.segments.length := congrArg Machine.stateCount b.machine
  have hguard : m.scope.stmt (statusGuard p.span m.statusSlot) = [] := by
    refine List.append_eq_nil_iff.mpr ⟨List.append_eq_nil_iff.mpr ⟨?_, rfl⟩, rfl⟩
    exact List.append_eq_nil_iff.mpr ⟨Scope.slotRef_eq_nil hstatus, rfl⟩
  have hlength : ∀ (segs : List Segment) previous,
      (armsFrom p.span m.layout m.dispatch.name previous segs).length = segs.length := by
    intro segs
    induction segs with
    | nil => exact fun _ => rfl
    | cons seg rest ih => exact fun previous => congrArg (· + 1) (ih (some seg))
  unfold Machine.dispatchViolations
  rw [b.dispatch_eq]
  refine List.append_eq_nil_iff.mpr ⟨?_, ?_⟩
  · have harms :
        m.scope.arms (armsFrom p.span m.layout m.dispatch.name none b.segments) = [] :=
      arms_armsFrom (fun token htoken => b.lt_of_cancel htoken)
        (fun _ h => by cases h) b.clean_segments
    refine List.append_eq_nil_iff.mpr ⟨hguard, List.append_eq_nil_iff.mpr ⟨?_, rfl⟩⟩
    exact List.append_eq_nil_iff.mpr ⟨Scope.slotRef_eq_nil hstate, harms⟩
  · refine List.append_eq_nil_iff.mpr ⟨List.append_eq_nil_iff.mpr ⟨if_pos rfl, if_pos ?_⟩, ?_⟩
    · rw [hlength, hcount]
    · refine armViolations_armsFrom fun j seg hseg => ?_
      have hlt := (List.getElem?_eq_some_iff.mp hseg).1
      have hplain :=
        (b.segment_plain (fun _ _ => trivial : ∀ t ∈ Bound.calleesOf p.stmts, True) hseg).1
      rw [Nat.zero_add, b.isSome_exit hseg]
      refine ⟨(b.exit_eq hseg).1, ?_, fun s hs =>
        (Machine.plainBlock_iff.mp hplain s hs).isSchedule_eq⟩
      rw [hcount, b.length_segments] at *
      omega

/-- **A lowered machine breaks no rule.** -/
theorem violations_eq_nil : m.violations = [] :=
  List.append_eq_nil_iff.mpr ⟨List.append_eq_nil_iff.mpr
    ⟨b.slotViolations_eq_nil, b.entryViolations_eq_nil⟩, b.dispatchViolations_eq_nil⟩

end Lowered

end Resumable
