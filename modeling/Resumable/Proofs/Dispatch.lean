import Resumable.Proofs.Lowered

/-!
# Running a dispatch

The parts that every dispatch has, one by one: the guard on the status, the choice of an arm
by the state, and in an arm the check for cancellation, the guard on awaited tasks, and the
request at its end.

## Main definitions

* `Site.cancelState?`: what a cancellation handle in a slot says.

## Main statements

* `ends_execBlock_branch`: a branch whose condition is known goes on with one of its blocks.
* `execArm_armsFrom`: the arm that a state selects.
* `ends_dispatchBody`: a dispatch whose activation is running runs the arm of its state.
* `returns_armEnd`: what the end of an arm that suspends does.
-/

namespace Resumable

open Resumable.Machine (Expr SlotId Stmt TaskStatus Timing)

variable {s s' : HostState} {cond : Expr} {onTrue onFalse : List Stmt} {timing : Timing}
  {due : Due} {previous : Option Segment} {code : Int64} {v : Value} {flow : Flow}
  {p : Bound.Procedure} {args : List Value}

section

variable {site : Site} {call : Caller} {fuel : Nat} {frame : Frame} {mid : HostState}
  {r : Except Halt (Flow × Frame)}

/-! ### Blocks -/

/-- What runs after statements: the rest, unless they left the block. -/
def andThen (rest : Frame → Run (Flow × Frame)) (x : Flow × Frame) : Run (Flow × Frame) :=
  match x.1 with
  | .next => rest x.2
  | _ => pure x

/-- A block runs its first statement and then, if that goes on, the rest. -/
theorem execBlock_cons (stmt : Stmt) (rest : List Stmt) (frame : Frame) :
    execBlock site call fuel (stmt :: rest) frame =
      exec site call fuel stmt frame >>= andThen (execBlock site call fuel rest) := by
  rw [execBlock]
  refine congrArg _ (funext fun left => ?_)
  obtain ⟨flow, frame⟩ := left
  cases flow <;> rfl

/-- Running a list of statements is running its parts in turn. -/
theorem execBlock_append (first rest : List Stmt) (frame : Frame) :
    execBlock site call fuel (first ++ rest) frame =
      execBlock site call fuel first frame >>= andThen (execBlock site call fuel rest) := by
  induction first generalizing frame with
  | nil =>
    rw [List.nil_append, execBlock, pure_bind]
    rfl
  | cons stmt first ih =>
    rw [List.cons_append, execBlock_cons, execBlock_cons, bind_assoc]
    refine congrArg _ (funext fun left => ?_)
    obtain ⟨flow, frame⟩ := left
    cases flow with
    | next => exact ih frame
    | breakLoop | continueLoop | ret | finished => exact (pure_bind _ _).symm

/-- Statements that are alone in their block leave it as they do. -/
theorem execBlock_singleton (stmt : Stmt) (frame : Frame) :
    execBlock site call fuel [stmt] frame = exec site call fuel stmt frame := by
  rw [execBlock_cons]
  conv_rhs => rw [← bind_pure (exec site call fuel stmt frame)]
  refine congrArg _ (funext fun left => ?_)
  obtain ⟨flow, frame⟩ := left
  cases flow <;> rfl

variable {span : Span} {rest : List Stmt} {x : Flow × Frame} {l : SlotLayout}
  {dispatch : Name} {segs : List Segment} {seg : Segment} {state : Int64} {slot : SlotId}
  {slots : List SlotId} {mode : JoinMode} {ids : List TaskId} {frame' : Frame}

/-- **A branch whose condition is known** goes on with one of its blocks. -/
theorem ends_execBlock_branch {b : Bool}
    (h : Returns (eval site call frame cond) s (.bool b) mid) :
    Ends (execBlock site call fuel (.branch span cond onTrue onFalse :: rest) frame) s r s' ↔
      Ends (execBlock site call fuel ((if b then onTrue else onFalse) ++ rest) frame)
        mid r s' := by
  have hbool : Returns (Run.expectBool (.bool b)) mid b mid :=
    Run.returns_expectBool.mpr ⟨rfl, rfl⟩
  rw [execBlock_cons, exec, bind_assoc, h.ends_bind, bind_assoc,
    hbool.ends_bind, execBlock_append]
  cases b <;> rfl

/-- A branch that returns has evaluated its condition. -/
theorem cond_of_returns_branch
    (h : Returns (execBlock site call fuel (.branch span cond onTrue onFalse :: rest) frame) s
      x s') : ∃ v mid, Returns (eval site call frame cond) s v mid := by
  rw [execBlock_cons, exec, bind_assoc] at h
  obtain ⟨v, mid, hcond, -⟩ := returns_bind.mp h
  exact ⟨v, mid, hcond⟩

/-- A block left at once runs nothing more. -/
theorem ends_execBlock_leave :
    Ends (execBlock site call fuel (leaveProcedure span :: rest) frame) s r s' ↔
      r = .ok (.ret .unit, frame) ∧ s' = s := by
  have h : Returns (execBlock site call fuel (leaveProcedure span :: rest) frame) s
      (.ret .unit, frame) s := rfl
  constructor
  · intro hend
    obtain ⟨rfl, rfl⟩ := Ends.unique hend h
    exact ⟨rfl, rfl⟩
  · rintro ⟨rfl, rfl⟩
    exact h

/-! ### Requests -/

/-- When a call back is due, by the kind of its timing. -/
theorem returns_dueOf : Returns (dueOf site call frame timing) s due s' ↔
      match timing with
      | .seconds e => ∃ v d, Returns (eval site call frame e) s v s' ∧ v.number? = some d ∧
          due = s'.scheduler.afterSeconds d
      | .frames e => ∃ n, Returns (eval site call frame e) s (.int n) s' ∧
          due = s'.scheduler.afterFrames n
      | .nextFrame => due = s.scheduler.afterFrames 1 ∧ s' = s
      | .completion slots mode => ∃ ids : List TaskId,
          slots.map (site.slotIn s) = ids.map (fun id => some (.task id)) ∧
            due = .completion ids mode ∧ s' = s := by
  cases timing with
  | seconds e =>
    simp only [dueOf, returns_bind, Run.expectNumber, Run.returns_require,
      returns_get, returns_pure]
    constructor
    · rintro ⟨v, mid, hv, d, _, ⟨hd, rfl⟩, _, _, ⟨rfl, rfl⟩, rfl, rfl⟩
      exact ⟨v, d, hv, hd, rfl⟩
    · rintro ⟨v, d, hv, hd, rfl⟩
      exact ⟨v, s', hv, d, s', ⟨hd, rfl⟩, s', s', ⟨rfl, rfl⟩, rfl, rfl⟩
  | frames e =>
    simp only [dueOf, returns_bind, Run.returns_expectInt, returns_get, returns_pure]
    constructor
    · rintro ⟨v, mid, hv, n, _, ⟨rfl, rfl⟩, _, _, ⟨rfl, rfl⟩, rfl, rfl⟩
      exact ⟨n, hv, rfl⟩
    · rintro ⟨n, hv, rfl⟩
      exact ⟨_, s', hv, n, s', ⟨rfl, rfl⟩, s', s', ⟨rfl, rfl⟩, rfl, rfl⟩
  | nextFrame =>
    simp only [dueOf, returns_bind, returns_get, returns_pure]
    constructor
    · rintro ⟨_, _, ⟨rfl, rfl⟩, rfl, rfl⟩
      exact ⟨rfl, rfl⟩
    · rintro ⟨rfl, rfl⟩
      exact ⟨_, _, ⟨rfl, rfl⟩, rfl, rfl⟩
  | completion slots mode =>
    simp only [dueOf, returns_bind, Site.returns_taskSlots, returns_pure]
    constructor
    · rintro ⟨ids, _, ⟨hids, rfl⟩, rfl, rfl⟩
      exact ⟨ids, hids, rfl, rfl⟩
    · rintro ⟨ids, hids, rfl, rfl⟩
      exact ⟨ids, _, ⟨hids, rfl⟩, rfl, rfl⟩

/-- The handle under which the dispatch of a site is called back. -/
def Site.handle (site : Site) : ResumeHandle := ⟨site.owner, procIndex site.index .dispatch⟩

/-- A request for a call back is submitted once it is known when it is due. -/
theorem ends_execBlock_schedule (h : Returns (dueOf site call frame timing) s due mid) :
    Ends (execBlock site call fuel
        (.schedule span site.machine.dispatch.name timing :: rest) frame) s r s' ↔
      Ends (execBlock site call fuel rest frame)
        { mid with scheduler := mid.scheduler.submit due (.resume site.handle) } r s' := by
  have hown : Returns (site.ownDispatch site.machine.dispatch.name) s
      (procIndex site.index .dispatch) s := Site.returns_ownDispatch.mpr ⟨rfl, rfl, rfl⟩
  have hsubmit : Returns (Run.submit due (.resume site.handle)) mid ()
      { mid with scheduler := mid.scheduler.submit due (.resume site.handle) } :=
    returns_modify.mpr rfl
  rw [execBlock_cons, exec, bind_assoc, hown.ends_bind, bind_assoc, h.ends_bind, bind_assoc]
  exact hsubmit.ends_bind

/-! ### Arms -/

/-- **The arm that a state selects** is the one of its segment. -/
theorem execArm_armsFrom (base : Nat)
    (hindex : ∀ k seg, segs[k]? = some seg → seg.index = base + k) {i : Nat}
    (hseg : segs[i]? = some seg) (hstate : state.toInt = (base + i : Nat)) :
    execArm site call fuel (armsFrom span l dispatch previous segs) state frame =
      execBlock site call fuel
        (armOf span l dispatch (if i = 0 then previous else segs[i - 1]?) seg).body
          frame := by
  induction segs generalizing base previous i with
  | nil => cases hseg
  | cons first rest ih =>
    have hfirst : first.index = base := hindex 0 first rfl
    rw [armsFrom, armOf, execArm]
    cases i with
    | zero =>
      obtain rfl := Option.some.inj hseg
      rw [if_pos (by rw [hfirst, hstate]; rfl)]
      rfl
    | succ i =>
      rw [if_neg (by rw [hfirst, hstate]; omega)]
      have hrest : ∀ k seg, rest[k]? = some seg → seg.index = base + 1 + k := by
        intro k seg hk
        rw [hindex (k + 1) seg hk]
        omega
      rw [ih (base + 1) hrest hseg (by rw [hstate]; omega), if_neg (Nat.succ_ne_zero i)]
      cases i <;> rfl

/-- A state without an arm does nothing. -/
theorem execArm_armsFrom_of_ne (h : ∀ seg ∈ segs, (seg.index : Int) ≠ state.toInt) :
    execArm site call fuel (armsFrom span l dispatch previous segs) state frame =
      pure (.next, frame) := by
  induction segs generalizing previous with
  | nil => rfl
  | cons first rest ih =>
    rw [armsFrom, armOf, execArm, if_neg (h first List.mem_cons_self)]
    exact ih fun seg hseg => h seg (List.mem_cons_of_mem _ hseg)

/-! ### The guard on the status -/

private theorem returns_statusTest {status : SlotId}
    (h : site.slotIn s status = some (.int code)) :
    Returns (eval site call frame (.binary ⟨.bool, span⟩ .ne (.slot ⟨.int, span⟩ status)
      (statusCode span .running))) s (.bool (code != TaskStatus.running.code)) s := by
  have hread : Returns (eval site call frame (.slot ⟨.int, span⟩ status)) s (.int code) s :=
    Site.returns_readSlot.mpr ⟨h, rfl⟩
  rw [eval]
  · exact hread.ends_bind.mpr rfl
  · simp
  · simp

/-- A dispatch whose activation is over does nothing. -/
theorem ends_dispatchBody_of_over (h : site.slotIn s l.status = some (.int code))
    (hover : code ≠ TaskStatus.running.code) :
    Ends (execBlock site call fuel (dispatchBody span segs l dispatch) frame) s r s' ↔
      r = .ok (.ret .unit, frame) ∧ s' = s := by
  unfold dispatchBody statusGuard
  rw [ends_execBlock_branch (returns_statusTest h), if_pos (by simpa using hover)]
  exact ends_execBlock_leave

/-- **A dispatch whose activation is running** runs the arm of its state. -/
theorem ends_dispatchBody_of_running
    (hstatus : site.slotIn s l.status = some (.int TaskStatus.running.code))
    (hstate : site.slotIn s l.state = some (.int state)) :
    Ends (execBlock site call fuel (dispatchBody span segs l dispatch) frame) s r s' ↔
      Ends (execArm site call fuel (armsFrom span l dispatch none segs) state frame)
        s r s' := by
  have hread : Returns (site.readSlot l.state) s (.int state) s :=
    Site.returns_readSlot.mpr ⟨hstate, rfl⟩
  have hint : Returns (Run.expectInt (.int state)) s state s :=
    Run.returns_expectInt.mpr ⟨rfl, rfl⟩
  unfold dispatchBody statusGuard
  rw [ends_execBlock_branch (returns_statusTest hstatus), if_neg (by simp), List.nil_append,
    execBlock_singleton, exec, hread.ends_bind, hint.ends_bind]

/-! ### Cancellation -/

/-- What the handle in a slot says: whether cancellation was requested, where the slot holds a
token or nothing. -/
def Site.cancelState? (site : Site) (s : HostState) (slot : SlotId) : Option Bool :=
  match site.slotIn s slot with
  | some (.token id) => some (s.tokens[id]?.getD false)
  | some .unit => some false
  | _ => none

/-- Asking for cancellation reads one flag. -/
theorem returns_cancelRequested : Returns (cancelRequested site slot) s v s' ↔
      ∃ b, site.cancelState? s slot = some b ∧ v = .bool b ∧ s' = s := by
  unfold cancelRequested Site.cancelState?
  rw [returns_bind]
  simp only [Site.returns_readSlot]
  constructor
  · rintro ⟨handle, mid, ⟨hslot, rfl⟩, hret⟩
    rw [hslot]
    cases handle with
    | unit => exact ⟨false, rfl, returns_pure.mp hret⟩
    | token id => exact ⟨_, rfl, returns_pure.mp (ends_get_bind.mp hret)⟩
    | bool | int | float | str | array | task | closure =>
      exact (Run.not_returns_fail hret).elim
  · rintro ⟨b, hb, rfl, rfl⟩
    cases hslot : site.slotIn s' slot with
    | none =>
      rw [hslot] at hb
      cases hb
    | some handle =>
      rw [hslot] at hb
      refine ⟨handle, s', ⟨rfl, rfl⟩, ?_⟩
      cases handle with
      | unit =>
        obtain rfl := Option.some.inj hb
        rfl
      | token id =>
        obtain rfl := Option.some.inj hb
        rfl
      | bool | int | float | str | array | task | closure => cases hb

theorem returns_cancelTest {b : Bool} (h : site.cancelState? s slot = some b) :
    Returns (eval site call frame (.cancelRequested ⟨.bool, span⟩ slot)) s (.bool b) s := by
  rw [eval]
  exact returns_cancelRequested.mpr ⟨b, h, rfl, rfl⟩

/-- A check for cancellation that returns has found a handle, or nothing. -/
theorem cancelState?_of_returns
    (h : Returns (execBlock site call fuel (cancelCheck span slot :: rest) frame) s x s') :
    ∃ b, site.cancelState? s slot = some b := by
  obtain ⟨v, mid, hcond⟩ := cond_of_returns_branch h
  rw [eval] at hcond
  obtain ⟨b, hb, -⟩ := returns_cancelRequested.mp hcond
  exact ⟨b, hb⟩

/-- Cancellation that was requested ends the activation. -/
theorem ends_cancelCheck_of_requested (h : site.cancelState? s slot = some true) :
    Ends (execBlock site call fuel (cancelCheck span slot :: rest) frame) s r s' ↔
      Ends (finish site .cancelled none >>= fun _ => pure (.finished, frame)) s r s' := by
  unfold cancelCheck
  rw [ends_execBlock_branch (returns_cancelTest h), if_pos rfl,
    List.singleton_append, execBlock_cons, exec]
  have habsent : Returns (eval? site call frame .absent) s none s := rfl
  rw [bind_assoc, habsent.ends_bind, bind_assoc]
  rfl

/-- Cancellation that was not requested changes nothing. -/
theorem ends_cancelCheck_of_not_requested (h : site.cancelState? s slot = some false) :
    Ends (execBlock site call fuel (cancelCheck span slot :: rest) frame) s r s' ↔
      Ends (execBlock site call fuel rest frame) s r s' := by
  unfold cancelCheck
  rw [ends_execBlock_branch (returns_cancelTest h),
    if_neg Bool.false_ne_true, List.nil_append]

/-! ### Awaited tasks -/

private theorem returns_awaitTest
    (h : slots.map (site.slotIn s) = ids.map fun id => some (.task id)) :
    Returns (eval site call frame (.unary ⟨.bool, span⟩ .not
      (.tasksDone ⟨.bool, span⟩ slots mode)))
      s (.bool (!s.tasks.done ids mode)) s := by
  have hids : Returns (site.taskSlots slots) s ids s := Site.returns_taskSlots.mpr ⟨h, rfl⟩
  rw [eval, eval, bind_assoc]
  exact hids.ends_bind.mpr rfl

/-- A guard on awaited tasks that returns has found tasks in their slots. -/
theorem tasks_of_returns_awaitGuard
    (h : Returns (execBlock site call fuel
      (awaitGuard span dispatch slots mode :: rest) frame) s x s') :
    ∃ ids : List TaskId, slots.map (site.slotIn s) = ids.map fun id => some (.task id) := by
  obtain ⟨v, mid, hcond⟩ := cond_of_returns_branch h
  rw [eval, eval, bind_assoc] at hcond
  obtain ⟨ids, _, hids, -⟩ := returns_bind.mp hcond
  exact ⟨ids, (Site.returns_taskSlots.mp hids).1⟩

/-- **Tasks that are not done are waited for again**: the request for them
is all that happens. -/
theorem ends_awaitGuard_of_not_done
    (h : slots.map (site.slotIn s) = ids.map fun id => some (.task id))
    (hdone : s.tasks.done ids mode = false) : Ends (execBlock site call fuel
        (awaitGuard span site.machine.dispatch.name slots mode :: rest) frame) s r s' ↔
          r = .ok (.ret .unit, frame) ∧
        s' = { s with scheduler :=
          s.scheduler.submit (.completion ids mode) (.resume site.handle) } := by
  have hdue : Returns (dueOf site call frame (.completion slots mode)) s
    (.completion ids mode) s :=
    returns_dueOf.mpr ⟨ids, h, rfl, rfl⟩
  unfold awaitGuard
  rw [ends_execBlock_branch (returns_awaitTest h), hdone, if_pos (by rfl), List.cons_append,
    ends_execBlock_schedule hdue]
  exact ends_execBlock_leave

/-- Tasks that are done are not waited for. -/
theorem ends_awaitGuard_of_done
    (h : slots.map (site.slotIn s) = ids.map fun id => some (.task id))
    (hdone : s.tasks.done ids mode = true) :
    Ends (execBlock site call fuel (awaitGuard span dispatch slots mode :: rest) frame)
      s r s' ↔
      Ends (execBlock site call fuel rest frame) s r s' := by
  unfold awaitGuard
  rw [ends_execBlock_branch (returns_awaitTest h), hdone, if_neg (by simp), List.nil_append]

/-! ### Ends of arms -/

/-- **The end of an arm that suspends** moves to the next state, finds out when it is due to
go on, and asks to be called back then. -/
theorem returns_armEnd {exit : SegmentExit} (hexit : seg.exit = some exit)
    (h : Returns (execBlock site call fuel (armEnd span site.machine.dispatch.name seg) frame)
      s (flow, frame') s') :
    ∃ st due mid, site.slotsIn s = some st ∧ site.machine.stateSlot < st.slots.length ∧
      Returns (dueOf site call frame exit.request.timing) (site.put s { st with
        slots := st.slots.set site.machine.stateSlot (.int (.ofNat (seg.index + 1))) })
          due mid ∧
      s' = { mid with scheduler := mid.scheduler.submit due (.resume site.handle) } := by
  unfold armEnd at h
  rw [hexit] at h
  dsimp only at h
  rw [execBlock_cons, exec, bind_assoc] at h
  obtain ⟨_, _, hwrite, h⟩ := returns_bind.mp h
  obtain ⟨st, hst, hlt, rfl⟩ := Site.returns_writeSlot.mp hwrite
  replace h : Returns (execBlock site call fuel [.schedule span site.machine.dispatch.name
    exit.request.timing, leaveProcedure span] frame) _ _ _ := h
  -- Only a timing that was found lets the request go through.
  obtain ⟨due, mid, hdue⟩ : ∃ due mid, Returns (dueOf site call frame exit.request.timing)
      (site.put s { st with
        slots := st.slots.set site.machine.stateSlot (.int (.ofNat (seg.index + 1))) })
          due mid := by
    rw [execBlock_cons, exec, bind_assoc] at h
    obtain ⟨_, _, hown, h⟩ := returns_bind.mp h
    obtain ⟨-, -, rfl⟩ := Site.returns_ownDispatch.mp hown
    rw [bind_assoc] at h
    obtain ⟨due, mid, hdue, -⟩ := returns_bind.mp h
    exact ⟨due, mid, hdue⟩
  exact ⟨st, due, mid, hst, hlt, hdue,
    (ends_execBlock_leave.mp ((ends_execBlock_schedule hdue).mp h)).2⟩

/-- The end of the last arm finishes the activation. -/
theorem returns_armEnd_of_last (hexit : seg.exit = none)
    (h : Returns (execBlock site call fuel (armEnd span dispatch seg) frame) s
      (flow, frame') s') : Returns (finish site .succeeded none) s () s' := by
  unfold armEnd at h
  rw [hexit] at h
  dsimp only at h
  rw [execBlock_singleton, exec] at h
  have habsent : Returns (eval? site call frame .absent) s none s := rfl
  obtain ⟨_, hfinish, -⟩ := returns_bind_pure.mp (habsent.ends_bind.mp h)
  exact hfinish

/-! ### Entry -/

/-- An assignment evaluates and then writes. -/
theorem returns_exec_assign {target : Machine.Place} {e : Expr} :
    Returns (exec site call fuel (.assign span target e) frame) s x s' ↔
      ∃ v mid frame', Returns (eval site call frame e) s v mid ∧
        Returns (writePlace site frame v target) mid frame' s' ∧ x = (.next, frame') := by
  unfold exec
  simp only [returns_bind, returns_pure]
  constructor
  · rintro ⟨v, mid, he, frame', _, hplace, rfl, rfl⟩
    exact ⟨v, mid, frame', he, hplace, rfl⟩
  · rintro ⟨v, mid, frame', he, hplace, rfl⟩
    exact ⟨v, mid, he, frame', s', hplace, rfl, rfl⟩

/-- Writing to a slot leaves the frame as it is. -/
theorem returns_writePlace_slot {id : SlotId} :
    Returns (writePlace site frame v (.slot id)) s frame' s' ↔
      Returns (site.writeSlot id v) s () s' ∧ frame' = frame := by
  unfold writePlace
  simp only [returns_bind, returns_pure]
  constructor
  · rintro ⟨_, _, hwrite, rfl, rfl⟩
    exact ⟨hwrite, rfl⟩
  · rintro ⟨hwrite, rfl⟩
    exact ⟨(), s', hwrite, rfl, rfl⟩

/-- The stores of parameters leave the frame as it is, and nothing keeps
them from going on. -/
theorem next_of_paramStores {slots : List Machine.Slot}
    (h : Returns (execBlock site call fuel (slots.filterMap (paramStore p)) frame) s x s') :
    x = (.next, frame) := by
  induction slots generalizing s with
  | nil => exact (returns_pure.mp h).1
  | cons slot rest ih =>
    rw [List.filterMap_cons] at h
    unfold paramStore at h
    cases hrole : slot.role with
    | hoisted origin =>
      cases origin with
      | param i =>
        simp only [hrole] at h
        rw [execBlock_cons] at h
        obtain ⟨_, mid, hstore, hrest⟩ := returns_bind.mp h
        obtain ⟨v, _, frame', -, hplace, rfl⟩ := returns_exec_assign.mp hstore
        obtain ⟨-, rfl⟩ := returns_writePlace_slot.mp hplace
        exact ih hrest
      | localVar id =>
        simp only [hrole] at h
        exact ih h
    | state | status | result | awaited =>
      simp only [hrole] at h
      exact ih h

/-- **The body of an entry**: the state and the status are set, the parameters stored, the
dispatch is called, and the task that observes the activation is returned. -/
theorem returns_entryBody
    (h : Returns (execBlock site call fuel (entryBody p l site.machine.dispatch.name) frame)
      s x s') :
    ∃ mid₁ mid₂ mid₃ v, Returns (site.writeSlot site.machine.stateSlot (.int (.ofNat 0)))
      s () mid₁ ∧
      Returns (site.writeSlot l.status (.int TaskStatus.running.code)) mid₁ () mid₂ ∧
      Returns (execBlock site call fuel (l.slots.filterMap (paramStore p)) frame) mid₂
        (.next, frame) mid₃ ∧
      Returns (call (procIndex site.index .dispatch) site.owner []) mid₃ v s' ∧
      ∃ st, site.slotsIn s' = some st ∧ x.1 = .ret ((st.task.map Value.task).getD .unit) := by
  unfold entryBody at h
  rw [List.append_assoc, List.cons_append, execBlock_cons, exec, bind_assoc] at h
  obtain ⟨_, mid₁, hstate, h₁⟩ := returns_bind.mp h
  replace h₁ : Returns (execBlock site call fuel (storeSlot p.span l.status
    (statusCode p.span .running) :: (l.slots.filterMap (paramStore p) ++
      [.invoke p.span site.machine.dispatch.name, .returnTask p.span])) frame) mid₁ x s' := h₁
  rw [execBlock_cons] at h₁
  obtain ⟨_, mid₂, hstore, h₂⟩ := returns_bind.mp h₁
  obtain ⟨code, _, frame', hcode, hplace, rfl⟩ := returns_exec_assign.mp hstore
  obtain ⟨rfl, rfl⟩ := returns_pure.mp hcode
  obtain ⟨hstatus, rfl⟩ := returns_writePlace_slot.mp hplace
  replace h₂ : Returns (execBlock site call fuel (l.slots.filterMap (paramStore p) ++
      [.invoke p.span site.machine.dispatch.name, .returnTask p.span]) frame') mid₂ x s' := h₂
  rw [execBlock_append] at h₂
  obtain ⟨_, mid₃, hparams, h₃⟩ := returns_bind.mp h₂
  obtain rfl := next_of_paramStores hparams
  replace h₃ : Returns (execBlock site call fuel
      [.invoke p.span site.machine.dispatch.name, .returnTask p.span] frame') mid₃ x s' := h₃
  rw [execBlock_cons, exec, bind_assoc] at h₃
  obtain ⟨_, _, hown, h₄⟩ := returns_bind.mp h₃
  obtain ⟨-, rfl, rfl⟩ := Site.returns_ownDispatch.mp hown
  rw [bind_assoc] at h₄
  obtain ⟨v, mid₄, hcall, h₅⟩ := returns_bind.mp h₄
  replace h₅ : Returns (execBlock site call fuel [.returnTask p.span] frame') mid₄ x s' := h₅
  rw [execBlock_singleton, exec] at h₅
  obtain ⟨st, _, hstorage, hpure⟩ := returns_bind.mp h₅
  obtain ⟨hst, rfl⟩ := Site.returns_storage.mp hstorage
  obtain ⟨rfl, rfl⟩ := returns_pure.mp hpure
  exact ⟨_, _, _, v, hstate, hstatus, hparams, hcall, st, hst, rfl⟩

end

/-! ### Procedures -/

variable {image : Image} {index : Nat} {program : Program}

section

variable (h : image.programs[index]? = some program)

include h

/-- The index of a role leads back to it. -/
theorem proc?_procIndex (role : ProcRole) :
    image.proc? (procIndex index role) = some (index, program, role) := by
  unfold Image.proc? procIndex
  cases role with
  | entry =>
    have hdiv : 2 * index / 2 = index := by omega
    have hmod : 2 * index % 2 = 0 := by omega
    simp only [hdiv, hmod, h, Option.map_some, if_true]
  | dispatch =>
    have hdiv : (2 * index + 1) / 2 = index := by omega
    have hmod : (2 * index + 1) % 2 ≠ 0 := by omega
    simp only [hdiv, hmod, h, Option.map_some, if_false]

/-- **Running a dispatch** runs its body and gives back what that returned. -/
theorem runProcedure_dispatch (fuel : Nat) (owner : InstanceId) :
    runProcedure image (fuel + 1) (procIndex index .dispatch) owner [] =
      execBlock ⟨image, index, program, owner⟩ (runProcedure image fuel) fuel
          program.machine.dispatch.body ⟨[], .empty⟩ >>= fun x => returned x.1 := by
  rw [runProcedure, proc?_procIndex h]
  rfl

/-- **Running an entry** starts an activation and then runs its body. -/
theorem runProcedure_entry (fuel : Nat) (owner : InstanceId)
    (hargs : args.length = program.machine.params.length) :
    runProcedure image (fuel + 1) (procIndex index .entry) owner args =
      startActivation ⟨image, index, program, owner⟩ >>= fun _ =>
        execBlock ⟨image, index, program, owner⟩ (runProcedure image fuel) fuel
          program.machine.entry.body ⟨args, .empty⟩ >>= fun x => returned x.1 := by
  rw [runProcedure, proc?_procIndex h]
  show (if args.length = program.machine.params.length then _ else _) = _
  rw [if_pos hargs]
  rfl

end

/-- An index names one program and one role in it. -/
theorem procIndex_of_proc? {k : Nat} {role : ProcRole}
    (h : image.proc? index = some (k, program, role)) :
    image.programs[k]? = some program ∧ index = procIndex k role := by
  obtain ⟨program', hprogram, heq⟩ := Option.map_eq_some_iff.mp h
  obtain ⟨rfl, hpair⟩ := Prod.mk.inj heq
  obtain ⟨rfl, rfl⟩ := Prod.mk.inj hpair
  refine ⟨hprogram, ?_⟩
  by_cases hmod : index % 2 = 0
  · rw [if_pos hmod]
    show index = 2 * (index / 2)
    omega
  · rw [if_neg hmod]
    show index = 2 * (index / 2) + 1
    omega

/-- A procedure that returns is one that is loaded, and was given as many
arguments as it takes. -/
theorem code_of_returns {fuel : Nat} {index : ProcIndex} {owner : InstanceId}
    (h : Returns (runProcedure image (fuel + 1) index owner args) s v s') :
    ∃ k program role, image.programs[k]? = some program ∧ index = procIndex k role ∧
      args.length = (program.code role).2 := by
  unfold runProcedure at h
  obtain ⟨⟨k, program, role⟩, mid, hproc, hrun⟩ := returns_bind.mp h
  obtain ⟨hfound, rfl⟩ := Run.returns_require.mp hproc
  obtain ⟨hprogram, hindex⟩ := procIndex_of_proc? hfound
  rcases returns_ite.mp hrun with ⟨hargs, -⟩ | ⟨-, hfail⟩
  · exact ⟨k, program, role, hprogram, hindex, hargs⟩
  · exact (Run.not_returns_fail hfail).elim

end Resumable
