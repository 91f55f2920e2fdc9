import Resumable.Proofs.Step

/-!
# Dispatches that fail

A dispatch can fail wherever its code can.  It writes the state of the machine once, after its
segment and before the request for the call back.  So **a dispatch that fails leaves the
machine in its state**, with one exception: the segment has run to its end, and what fails is
to find out when the call back is due.  Then the machine is in the next state already, and
nothing will call it back.  Whatever fails, no call back is requested and none is taken away.

## Main definitions

* `Stays`: the machine is in the state it was in, and the outstanding call backs
  are those there were.
* `Stranded`: the machine was moved on, and its call back could not be requested.

## Main statements

* `finish_stays`: finishing leaves the machine in its state, also where it fails.
* `stays_or_stranded`: how an arm fails that is not the last.
* `dispatch_failed`: what a dispatch that fails has done.
-/

namespace Resumable

open Resumable.Bound (Procedure)
open Resumable.Machine (SlotId Stmt TaskStatus)

variable {fuel : Nat} {frame : Frame} {s s' : HostState} {r : Except Halt (Flow × Frame)}
  {slot : SlotId} {seg : Segment} {state : Value}

/-- The machine is in the state it was in, and the outstanding call backs
are those there were. -/
structure Stays (site : Site) (s s' : HostState) : Prop where
  state : site.slotIn s' site.machine.stateSlot = site.slotIn s site.machine.stateSlot
  resumes : s'.scheduler.resumes = s.scheduler.resumes

/-- **A machine that was left behind**: its segment has run to its end, the machine was moved
to the next state, and then it could not be found out when the call back is due. -/
inductive Stranded (site : Site) (fuel : Nat) (seg : Segment) (halt : Halt)
    (s s' : HostState) : Prop where
  | intro (exit : SegmentExit) (frame : Frame) (mid : HostState) (st : Storage)
    (ends : seg.exit = some exit)
    (body : Returns (execBlock site (runProcedure site.image fuel) fuel seg.body ⟨[], .empty⟩)
      s (.next, frame) mid)
    (slots : site.slotsIn mid = some st)
    (inRange : site.machine.stateSlot < st.slots.length)
    (timing : Ends (dueOf site (runProcedure site.image fuel) frame exit.request.timing)
      (site.put mid { st with
        slots := st.slots.set site.machine.stateSlot (.int (.ofNat (seg.index + 1))) })
          (.error halt) s')

/-- **Ends of statements that make a dispatch fail**: a halt, or loop
control without a loop. -/
def Aborted : Except Halt (Flow × Frame) → Prop
  | .error _ | .ok (.breakLoop, _) | .ok (.continueLoop, _) => True
  | .ok (.next, _) | .ok (.ret _, _) | .ok (.finished, _) => False

section

variable {site : Site} {call : Caller} {mid : HostState}

namespace Stays

theorem refl (s : HostState) : Stays site s s := ⟨rfl, rfl⟩

theorem trans {a b c : HostState} (hab : Stays site a b) (hbc : Stays site b c) :
    Stays site a c :=
  ⟨hbc.state.trans hab.state, hbc.resumes.trans hab.resumes⟩

end Stays

theorem Kept.stays {P : Policy} (h : Kept site P s s')
    (hfixed : ¬ P.slots site.machine.stateSlot) : Stays site s s' :=
  ⟨h.slot _ hfixed, h.resumes⟩

/-! ### Finishing -/

theorem writeSlot_stays (hne : slot ≠ site.machine.stateSlot) (v : Value) :
    Within .any (Stays site) (site.writeSlot slot v) := by
  intro s r s' h _
  rcases Site.ends_writeSlot h with rfl | ⟨st, seen, rfl⟩
  · exact .refl _
  · exact ⟨slotIn_put_set seen hne v, rfl⟩

/-- **Finishing leaves the machine in its state**, also where it fails. -/
theorem finish_stays (hstatus : site.machine.statusSlot ≠ site.machine.stateSlot)
    (hresult : ∀ slot, site.machine.resultSlot = some slot → slot ≠ site.machine.stateSlot)
    (status : TaskStatus) (value : Option Value) :
    Within .any (Stays site) (finish site status value) := by
  have result_stays : Within .any (Stays site) (resultOf site value) := by
    unfold resultOf
    cases hslot : site.machine.resultSlot with
    | none => exact (silent_pure _).within .refl
    | some slot =>
      cases value with
      | none => exact (Site.silent_readSlot slot).within .refl
      | some v =>
        exact within_bind .trans (writeSlot_stays (hresult slot hslot) v) fun _ =>
          (silent_pure _).within .refl
  unfold finish
  refine within_bind .trans result_stays fun result => ?_
  refine within_bind .trans (writeSlot_stays hstatus _) fun _ => ?_
  refine within_bind .trans ((Run.silent_storage _ _ _).within .refl) fun st => ?_
  cases st.task with
  | none => exact (silent_pure _).within .refl
  | some id =>
    cases status with
    | running => exact (silent_pure _).within .refl
    | succeeded | cancelled => exact within_modify fun s => ⟨rfl, rfl⟩

/-! ### The parts of an arm -/

variable {span : Span} {rest : List Stmt}

/-- A branch whose condition changes nothing: it goes no further than the condition, or the
condition is known. -/
theorem cond_of_ends_branch {cond : Machine.Expr} {onTrue onFalse : List Stmt}
    (hcond : Silent (eval site call frame cond))
    (h : Ends (execBlock site call fuel (.branch span cond onTrue onFalse :: rest) frame) s r
      s') : s' = s ∨ ∃ b, Returns (eval site call frame cond) s (.bool b) s := by
  rw [execBlock_cons, exec, bind_assoc] at h
  rcases ends_bind.mp h with ⟨_, hfails, -⟩ | ⟨v, mid, hv, hrest⟩
  · exact Or.inl (hcond hfails)
  · obtain rfl := hcond hv
    rw [bind_assoc] at hrest
    rcases ends_bind.mp hrest with ⟨_, hfails, -⟩ | ⟨b, _, hb, -⟩
    · exact Or.inl (Run.silent_require _ _ hfails)
    · obtain ⟨rfl, -⟩ := Run.returns_expectBool.mp hb
      exact Or.inr ⟨b, hv⟩

/-- A check for cancellation, before something that goes wrong or going wrong itself. -/
theorem aborted_after_cancelCheck
    (hfinish : Within .any (Stays site) (finish site .cancelled none))
    (h : Ends (execBlock site call fuel (cancelCheck span slot :: rest) frame) s r s') :
    Stays site s s' ∨ Ends (execBlock site call fuel rest frame) s r s' := by
  have hsilent : Silent (eval site call frame (.cancelRequested ⟨.bool, span⟩ slot)) := by
    rw [eval]
    exact silent_cancelRequested slot
  rcases cond_of_ends_branch hsilent h with rfl | ⟨b, hb⟩
  · exact Or.inl (.refl _)
  · rw [eval] at hb
    obtain ⟨requested, hrequested, -⟩ := returns_cancelRequested.mp hb
    cases requested with
    | false => exact Or.inr ((ends_cancelCheck_of_not_requested hrequested).mp h)
    | true =>
      left
      exact within_bind .trans hfinish (fun _ => (silent_pure _).within .refl)
        ((ends_cancelCheck_of_requested hrequested).mp h) trivial

/-- A guard on awaited tasks.  Waiting again does not go wrong. -/
theorem aborted_after_awaitGuard {slots : List SlotId} {mode : JoinMode} (hr : Aborted r)
    (h : Ends (execBlock site call fuel
      (awaitGuard span site.machine.dispatch.name slots mode :: rest) frame) s r s') :
    Stays site s s' ∨ Ends (execBlock site call fuel rest frame) s r s' := by
  have hsilent : Silent (eval site call frame
      (.unary ⟨.bool, span⟩ .not (.tasksDone ⟨.bool, span⟩ slots mode))) := by
    rw [eval, eval]
    exact silent_bind (silent_bind (Site.silent_taskSlots _) fun _ =>
      silent_bind silent_get fun _ =>
      silent_pure _) fun _ => Run.silent_ofExcept _
  rcases cond_of_ends_branch hsilent h with rfl | ⟨b, hb⟩
  · exact Or.inl (.refl _)
  · rw [eval, eval, bind_assoc] at hb
    obtain ⟨ids, _, hids, -⟩ := returns_bind.mp hb
    have htasks := (Site.returns_taskSlots.mp hids).1
    cases hdone : s.tasks.done ids mode with
    | true => exact Or.inr ((ends_awaitGuard_of_done htasks hdone).mp h)
    | false =>
      obtain ⟨rfl, -⟩ := (ends_awaitGuard_of_not_done htasks hdone).mp h
      exact hr.elim

/-- **The end of an arm goes wrong** only where it cannot be found out when
the call back is due. -/
theorem untimed_of_aborted {exit : SegmentExit} (hexit : seg.exit = some exit)
    {st : Storage} (hst : site.slotsIn s = some st)
    (hlt : site.machine.stateSlot < st.slots.length) (hr : Aborted r)
    (h : Ends (execBlock site call fuel (armEnd span site.machine.dispatch.name seg) frame)
      s r s') :
    ∃ halt, r = .error halt ∧ Ends (dueOf site call frame exit.request.timing)
      (site.put s { st with
        slots := st.slots.set site.machine.stateSlot (.int (.ofNat (seg.index + 1))) })
      (.error halt) s' := by
  have hwrite : Returns (site.writeSlot site.machine.stateSlot
    (.int (.ofNat (seg.index + 1)))) s ()
      (site.put s { st with
        slots := st.slots.set site.machine.stateSlot (.int (.ofNat (seg.index + 1))) }) :=
    Site.returns_writeSlot.mpr ⟨st, hst, hlt, rfl⟩
  unfold armEnd at h
  rw [hexit] at h
  dsimp only at h
  rw [execBlock_cons, exec, bind_assoc, hwrite.ends_bind] at h
  replace h : Ends (execBlock site call fuel [.schedule span site.machine.dispatch.name
    exit.request.timing, leaveProcedure span] frame) _ _ _ := h
  have hown : Returns (site.ownDispatch site.machine.dispatch.name) (site.put s { st with
        slots := st.slots.set site.machine.stateSlot (.int (.ofNat (seg.index + 1))) })
      (procIndex site.index .dispatch) _ := Site.returns_ownDispatch.mpr ⟨rfl, rfl, rfl⟩
  have hrequest := h
  rw [execBlock_cons, exec, bind_assoc, hown.ends_bind, bind_assoc] at hrequest
  rcases ends_bind.mp hrequest with ⟨halt, hfails, rfl⟩ | ⟨due, last, hdue, -⟩
  · exact ⟨halt, rfl, hfails⟩
  · obtain ⟨rfl, -⟩ := ends_execBlock_leave.mp ((ends_execBlock_schedule hdue).mp h)
    exact hr.elim

end

/-! ### Arms -/

section

variable {mode : LivenessMode} {names : NameTable} {p : Procedure} {site : Site} {i : Nat}
  {halt : Halt}

section

variable (b : Lowered mode names p site.machine)

include b

theorem Lowered.finish_stays (status : TaskStatus) (value : Option Value) :
    Within .any (Stays site) (finish site status value) :=
  Resumable.finish_stays b.state_ne_status.symm
    (fun _ hslot => (b.result_ne hslot).1) status value

variable (noCalls : p.CallsNoProcedure) (hseg : b.segments[i]? = some seg)

include noCalls hseg

/-- **A segment leaves the machine in its state**, however it ends. -/
theorem stays_of_segment
    (h : Ends (execBlock site (runProcedure site.image fuel) fuel seg.body frame) s r s') :
    Stays site s s' := by
  have hfixed := b.state_not_writable fun t => t ∈ Bound.calleesOf p.stmts
  have hplain := (b.segment_plain (fun _ ht => ht) hseg).1
  cases execBlock_leaves (e := .any) fuel seg.body hplain frame h trivial with
  | flow _ _ effects => exact (effects.kept (P := ownPolicy site p) noCalls).stays hfixed
  | halted effects => exact (effects.kept (P := ownPolicy site p) noCalls).stays hfixed
  | finished _ effects finish =>
    exact ((effects.kept (P := ownPolicy site p) noCalls).stays hfixed).trans
      ((b.finish_stays _ _).of_returns finish)
  | stuck effects finish =>
    exact ((effects.kept (P := ownPolicy site p) noCalls).stays hfixed).trans
      (b.finish_stays _ _ finish trivial)

/-- A segment with the end of its arm: the segment goes wrong, or the end does. -/
theorem stranded_of_aborted (hi : i < b.points.length)
    (hstate : site.slotIn s site.machine.stateSlot = some state) (hr : Aborted r)
    (h : Ends (execBlock site (runProcedure site.image fuel) fuel
      (seg.body ++ armEnd p.span site.machine.dispatch.name seg) ⟨[], .empty⟩) s r s') :
    Stays site s s' ∨ ∃ halt, r = .error halt ∧ Stranded site fuel seg halt s s' := by
  obtain ⟨exit, hexit⟩ := Option.isSome_iff_exists.mp ((b.isSome_exit hseg).mpr hi)
  rw [execBlock_append] at h
  rcases ends_bind.mp h with ⟨_, hfails, -⟩ | ⟨⟨flow, frame⟩, mid, hbody, hend⟩
  · exact Or.inl (stays_of_segment b noCalls hseg hfails)
  · have hmid := stays_of_segment b noCalls hseg hbody
    cases flow with
    | next =>
      obtain ⟨st, hst, hslot⟩ := HostState.exists_storage_of_slot? (hmid.state.trans hstate)
      have hlt := (List.getElem?_eq_some_iff.mp hslot).1
      obtain ⟨halt, rfl, huntimed⟩ := untimed_of_aborted hexit hst hlt hr hend
      exact Or.inr ⟨halt, rfl, .intro exit frame mid st hexit hbody hst hlt huntimed⟩
    | breakLoop | continueLoop | ret | finished =>
      rw [silent_pure _ hend]
      exact Or.inl hmid

/-- **How an arm goes wrong that is not the last**: before it has moved the machine
on, or after that. -/
theorem stays_or_stranded (hi : i < b.points.length)
    (hstate : site.slotIn s site.machine.stateSlot = some state) {previous : Option Segment}
    (hr : Aborted r)
    (h : Ends (execBlock site (runProcedure site.image fuel) fuel
      (armOf p.span site.machine.layout site.machine.dispatch.name previous seg).body
        ⟨[], .empty⟩) s r s') :
    Stays site s s' ∨ ∃ halt, r = .error halt ∧ Stranded site fuel seg halt s s' := by
  have past_guard : ∀ awaited : Option (List SlotId × JoinMode),
      Ends (execBlock site (runProcedure site.image fuel) fuel
        ((awaited.map fun wait =>
            awaitGuard p.span site.machine.dispatch.name wait.1 wait.2).toList ++
          (seg.body ++ armEnd p.span site.machine.dispatch.name seg)) ⟨[], .empty⟩) s r s' →
      Stays site s s' ∨ ∃ halt, r = .error halt ∧ Stranded site fuel seg halt s s' := by
    intro awaited h
    cases awaited with
    | none => exact stranded_of_aborted b noCalls hseg hi hstate hr h
    | some wait =>
      rcases aborted_after_awaitGuard hr h with hstays | h
      · exact Or.inl hstays
      · exact stranded_of_aborted b noCalls hseg hi hstate hr h
  unfold armOf Machine.Arm.body at h
  dsimp only at h
  rw [List.append_assoc, List.append_assoc] at h
  cases hcancel : site.machine.layout.cancel with
  | none =>
    rw [hcancel] at h
    exact past_guard _ h
  | some slot =>
    rw [hcancel] at h
    rcases aborted_after_cancelCheck (b.finish_stays _ _) h with hstays | h
    · exact Or.inl hstays
    · exact past_guard _ h

/-- A machine that was left behind is in the next state, without a call back. -/
theorem Stranded.outcome (h : Stranded site fuel seg halt s s') :
    site.slotIn s' site.machine.stateSlot = some (.int (.ofNat (i + 1))) ∧
      s'.scheduler.resumes = s.scheduler.resumes := by
  obtain ⟨exit, frame, mid, st, hexit, hbody, hst, hlt, htiming⟩ := h
  have hfixed := b.state_not_writable fun t => t ∈ Bound.calleesOf p.stmts
  have hplain := (b.segment_plain (fun _ ht => ht) hseg).2 exit hexit
  have hlast :=
    ((dueOf_within (e := .any) frame hplain htiming trivial).kept (P := ownPolicy site p)
    noCalls).stays hfixed
  refine ⟨hlast.state.trans ?_, hlast.resumes.trans
    (stays_of_segment b noCalls hseg hbody).resumes⟩
  rw [Site.slotIn_eq (Site.slotsIn_put hst _), (b.exit_eq hseg).1]
  exact List.getElem?_set_self hlt

end

/-! ### Dispatches -/

/-- A dispatch that fails has run a body that went wrong, or nothing. -/
theorem body_of_fails (loaded : site.Loaded)
    (h : Ends (site.dispatch fuel) s (.error halt) s') :
    s' = s ∨ ∃ depth r, (∀ why, r = .error why → why = halt) ∧ Aborted r ∧
      Ends (execBlock site (runProcedure site.image depth) depth site.machine.dispatch.body
        ⟨[], .empty⟩) s r s' := by
  unfold Site.dispatch at h
  cases fuel with
  | zero => exact Or.inl (silent_throw _ h)
  | succ depth =>
    right
    rw [runProcedure_dispatch loaded] at h
    rcases ends_bind.mp h with ⟨why, hbody, heq⟩ | ⟨⟨flow, frame⟩, mid, hbody, hreturned⟩
    · refine ⟨depth, .error why, fun why' heq' => ?_, trivial, hbody⟩
      exact (Except.error.inj heq').symm.trans (Except.error.inj heq).symm
    · refine ⟨depth, .ok (flow, frame), fun _ heq => (by cases heq), ?_, ?_⟩
      · cases flow with
        | breakLoop | continueLoop => trivial
        | next | ret | finished => cases (Prod.mk.inj hreturned).1
      · cases flow with
        | breakLoop | continueLoop =>
          rw [Run.silent_fail _ hreturned]
          exact hbody
        | next | ret | finished => cases (Prod.mk.inj hreturned).1

/-- **What a dispatch that fails has done.**  A machine that calls no procedure is running in
a state before the last.  If its dispatch fails, no call back was requested or taken away, and
the machine is in the state it was in, unless its segment has run to its end and then it could
not be found out when the call back is due. -/
theorem dispatch_failed {options : LowerOptions} {names' : NameTable}
    (lowered : lowerProcedure options p names = (.ok site.machine, names'))
    {points : List SuspensionPoint} (found : suspensionPoints names p = .ok points)
    (noCalls : p.CallsNoProcedure) (loaded : site.Loaded) {state : Int64}
    (hstatus : site.slotIn s site.machine.statusSlot = some (.int TaskStatus.running.code))
    (hstate : site.slotIn s site.machine.stateSlot = some (.int state))
    (hi : state.toInt = i) (hlt : i < points.length)
    (fails : Ends (site.dispatch fuel) s (.error halt) s') :
    s'.scheduler.resumes = s.scheduler.resumes ∧
    (site.slotIn s' site.machine.stateSlot = some (.int state) ∨
        site.slotIn s' site.machine.stateSlot = some (.int (.ofNat (i + 1))) ∧
          ∃ depth segs seg, segments p points site.machine.layout = .ok segs ∧
            segs[i]? = some seg ∧ Stranded site depth seg halt s s') := by
  obtain ⟨b⟩ := lowered_of_lowerProcedure lowered
  obtain rfl : b.points = points := Except.ok.inj (b.found.symm.trans found)
  rcases body_of_fails loaded fails with rfl | ⟨depth, r, hwhy, hr, hbody⟩
  · exact ⟨rfl, Or.inl hstate⟩
  · obtain ⟨seg, hseg⟩ := b.exists_segment (Nat.le_of_lt hlt)
    have harm := (ends_body_of_running b hstatus hstate hi hseg).mp hbody
    rcases stays_or_stranded b noCalls hseg hlt hstate hr harm
      with hstays | ⟨why, rfl, hstranded⟩
    · exact ⟨hstays.resumes, Or.inl (hstays.state.trans hstate)⟩
    · obtain rfl := hwhy why rfl
      obtain ⟨hnext, hresumes⟩ := hstranded.outcome b noCalls hseg
      exact ⟨hresumes, Or.inr ⟨hnext, depth, b.segments, seg, b.segments_eq, hseg, hstranded⟩⟩

end

/-! ### A stumbler -/

namespace Stumbler

/-- The strings that the stumbler uses. -/
def names : NameTable := .internAll .empty ["Stumble", "log", "after"]

/-- Wait for a number of frames that cannot be computed, and log a line. -/
def procedure : Procedure where
  name := ⟨1⟩
  params := []
  locals := []
  result := .unit
  cancellation := none
  body := .block [
    .expr ⟨0, .none⟩ (.suspend ⟨.unit, .none⟩
      (.call ⟨.deferred .unit, .none⟩ (.primitive .delayFrames)
      [.binary ⟨.int, .none⟩ .div (.int ⟨.int, .none⟩ 1) (.int ⟨.int, .none⟩ 0)])),
    .expr ⟨1, .none⟩ (.call ⟨.unit, .none⟩ (.host ⟨2⟩) [.str ⟨.str, .none⟩ ⟨3⟩])]
  span := .none

/-- The machine of the stumbler. -/
@[irreducible] def machine : Machine :=
  (lowerProcedure {} procedure names).1.toOption.getD default

theorem lowered :
    lowerProcedure {} procedure names =
      (.ok machine, (lowerProcedure {} procedure names).2) := by
  unfold machine
  exact eq_mk_ok_of_isOk (by decide +kernel)

/-- The stumbler waits once. -/
theorem suspends_once :
    ∃ points, suspensionPoints names procedure = .ok points ∧ points.length = 1 := by
  have hlength : ((suspensionPoints names procedure).toOption.map List.length) = some 1 := by
    decide +kernel
  cases hpoints : suspensionPoints names procedure with
  | error why =>
    rw [hpoints] at hlength
    cases hlength
  | ok points =>
    rw [hpoints] at hlength
    exact ⟨points, rfl, Option.some.inj hlength⟩

/-- The stumbler on the first instance, alone in its image. -/
def site : Site where
  image := ⟨#[⟨"Stumble", machine⟩], (lowerProcedure {} procedure names).2⟩
  index := 0
  program := ⟨"Stumble", machine⟩
  owner := 0

/-- A host in which the stumbler was just started. -/
def started : HostState :=
  { HostState.new ⟨1.0, 10⟩ with
    instances :=
      #[⟨.empty, Bindings.empty.insert 0 { Storage.fresh machine with task := some 0 }⟩]
    tasks := #[⟨.pending, .activation⟩] }

/-- The stumbler is running in its first state. -/
theorem running :
    site.slotIn started site.machine.statusSlot = some (.int TaskStatus.running.code) ∧
    site.slotIn started site.machine.stateSlot = some (.int 0) :=
  ⟨eq_some_int (by decide +kernel), eq_some_int (by decide +kernel)⟩

/-- The host after the dispatch was called. -/
@[irreducible] def fallen : HostState :=
  (show Except Halt Value × HostState from site.dispatch 5 started).2

theorem fails : Ends (site.dispatch 5) started (.error (.error .divisionByZero)) fallen := by
  unfold fallen
  exact ends_of_stopped? (by decide +kernel)

end Stumbler

theorem stumbler_failed :
    ∃ points, suspensionPoints Stumbler.names Stumbler.procedure = .ok points ∧
    Ends (Stumbler.site.dispatch 5) Stumbler.started
      (.error (.error .divisionByZero)) Stumbler.fallen ∧
    Stumbler.fallen.scheduler.resumes = Stumbler.started.scheduler.resumes ∧
      (Stumbler.site.slotIn Stumbler.fallen Stumbler.site.machine.stateSlot = some (.int 0) ∨
        Stumbler.site.slotIn Stumbler.fallen Stumbler.site.machine.stateSlot =
          some (.int (.ofNat (0 + 1))) ∧
          ∃ depth segs seg,
            segments Stumbler.procedure points Stumbler.site.machine.layout = .ok segs ∧
            segs[0]? = some seg ∧
            Stranded Stumbler.site depth seg (.error .divisionByZero)
              Stumbler.started Stumbler.fallen) := by
  obtain ⟨points, hpoints, hlength⟩ := Stumbler.suspends_once
  have hloaded : Stumbler.site.Loaded := rfl
  exact ⟨points, hpoints, Stumbler.fails, dispatch_failed Stumbler.lowered hpoints
    (by decide +kernel) hloaded
    Stumbler.running.1 Stumbler.running.2 rfl (hlength ▸ Nat.one_pos) Stumbler.fails⟩

/-- **A dispatch that fails can have moved the machine on**: the stumbler calls no procedure
and is running in the first of its two states; its dispatch fails, and then it is in the next
one and nothing calls it back. -/
theorem stumbler_moved_on :
    lowerProcedure {} Stumbler.procedure Stumbler.names =
        (.ok Stumbler.site.machine, (lowerProcedure {} Stumbler.procedure Stumbler.names).2) ∧
      (∃ points, suspensionPoints Stumbler.names Stumbler.procedure = .ok points ∧
        points.length = 1) ∧
      Stumbler.procedure.CallsNoProcedure ∧ Stumbler.site.Loaded ∧
      Stumbler.site.slotIn Stumbler.started Stumbler.site.machine.statusSlot =
        some (.int TaskStatus.running.code) ∧
      Stumbler.site.slotIn Stumbler.started Stumbler.site.machine.stateSlot = some (.int 0) ∧
      Ends (Stumbler.site.dispatch 5) Stumbler.started
        (.error (.error .divisionByZero)) Stumbler.fallen ∧
      Stumbler.site.slotIn Stumbler.fallen Stumbler.site.machine.stateSlot = some (.int 1) ∧
      Stumbler.fallen.scheduler.pending.length = 0 :=
  ⟨Stumbler.lowered, Stumbler.suspends_once, by decide +kernel, rfl,
    Stumbler.running.1, Stumbler.running.2, Stumbler.fails,
    eq_some_int (by decide +kernel), by decide +kernel⟩

end Resumable
