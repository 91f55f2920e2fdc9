import Resumable.Proofs.CallBack

/-!
# What running machines keeps, however it ends

A run that fails leaves what it did before.  So **a property of the state that is to hold
after every operation has to survive each part of a machine on its own**: the effects of the
code that the source wrote, the write of the state, the request for a call back, the finish of
an activation, and its start.  What survives these survives every call of a procedure, whether
it returns or stops half-way.

## Main definitions

* `Maintains I x`: each end of the run keeps `I`.
* `Upkeep site call I`: each part of the machine at a site keeps `I`.

## Main statements

* `Upkeep.dispatchBody`, `Upkeep.entryRun`: dispatch and entry keep it.
* `runProcedure_maintains`, `runClosure_maintains`: so does the call of any
  procedure or closure.
-/

namespace Resumable

open Resumable.Bound (Procedure)
open Resumable.Machine (Arm Stmt TaskStatus)

variable {I : HostState → Prop} {site : Site} {call : Caller} {fuel : Nat}
  {mode : LivenessMode} {names : NameTable} {p : Procedure} {status : TaskStatus}
  {seg : Segment} {image : Image} {s s' : HostState} {st : Storage} {r : Except Halt Unit}

/-! ### Runs that keep a property -/

/-- Each end of the run, with a value or without, keeps a property of the state. -/
abbrev Maintains {α : Type} (I : HostState → Prop) (x : Run α) : Prop :=
  Within .any (fun s s' => I s → I s') x

section

variable {α β : Type} {x : Run α} {f : α → Run β}

/-- Runs that maintain the invariant do so in sequence. -/
theorem Maintains.bind (hx : Maintains I x) (hf : ∀ a, Maintains I (f a)) :
    Maintains I (x >>= f) :=
  within_bind (fun hab hbc ha => hbc (hab ha)) hx hf

/-- A silent run maintains everything. -/
theorem Maintains.of_silent (hx : Silent x) : Maintains I x := hx.within fun _ h => h

theorem maintains_modify {u : HostState → HostState} (h : ∀ s, I s → I (u s)) :
    Maintains I (modify u : Run PUnit) := by
  intro s r s' hend _ hs
  obtain ⟨-, rfl⟩ := hend.unique ((returns_modify (u := ⟨⟩)).mpr rfl)
  exact h s hs

end

theorem maintains_append {first rest : List Stmt}
    (hfirst : ∀ frame, Maintains I (execBlock site call fuel first frame))
    (hrest : ∀ frame, Maintains I (execBlock site call fuel rest frame)) (frame : Frame) :
    Maintains I (execBlock site call fuel (first ++ rest) frame) := by
  rw [execBlock_append]
  refine (hfirst frame).bind fun x => ?_
  obtain ⟨flow, frame⟩ := x
  cases flow with
  | next => exact hrest frame
  | breakLoop | continueLoop | ret | finished => exact .of_silent (silent_pure _)

theorem maintains_cons {stmt : Stmt} {rest : List Stmt}
    (hfirst : ∀ frame, Maintains I (exec site call fuel stmt frame))
    (hrest : ∀ frame, Maintains I (execBlock site call fuel rest frame)) (frame : Frame) :
    Maintains I (execBlock site call fuel (stmt :: rest) frame) := by
  rw [← List.singleton_append]
  refine maintains_append (fun frame => ?_) hrest frame
  rw [execBlock_singleton]
  exact hfirst frame

theorem maintains_toList {stmt : Option Stmt}
    (h : ∀ x ∈ stmt, ∀ frame, Maintains I (exec site call fuel x frame)) (frame : Frame) :
    Maintains I (execBlock site call fuel stmt.toList frame) := by
  cases stmt with
  | none => exact .of_silent (silent_pure _)
  | some x =>
    rw [Option.toList_some, execBlock_singleton]
    exact h x rfl frame

theorem maintains_branch {span : Span} {cond : Machine.Expr} {onTrue onFalse : List Stmt}
    (hcond : ∀ frame, Maintains I (eval site call frame cond))
    (htrue : ∀ frame, Maintains I (execBlock site call fuel onTrue frame))
    (hfalse : ∀ frame, Maintains I (execBlock site call fuel onFalse frame)) (frame : Frame) :
    Maintains I (exec site call fuel (.branch span cond onTrue onFalse) frame) := by
  unfold exec
  exact (hcond frame).bind fun _ =>
    (Maintains.of_silent (Run.silent_require _ _)).bind fun _ =>
    within_ite (htrue frame) (hfalse frame)

theorem maintains_leave (span : Span) (frame : Frame) :
    Maintains I (execBlock site call fuel [leaveProcedure span] frame) := by
  rw [execBlock_singleton]
  exact .of_silent (silent_bind (silent_pure _) fun _ => silent_pure _)

theorem maintains_execArm {arms : List Arm} {state : Int64}
    (h : ∀ value body, .mk value body ∈ arms →
      ∀ frame, Maintains I (execBlock site call fuel body frame))
    (frame : Frame) : Maintains I (execArm site call fuel arms state frame) := by
  induction arms with
  | nil =>
    unfold execArm
    exact .of_silent (silent_pure _)
  | cons arm rest ih =>
    obtain ⟨value, body⟩ := arm
    unfold execArm
    exact within_ite (h value body List.mem_cons_self frame)
      (ih fun value body hmem => h value body (List.mem_cons_of_mem _ hmem))

/-- What follows the body of a procedure leaves the state alone. -/
theorem silent_returned (flow : Flow) : Silent (returned flow) := by
  cases flow with
  | next | finished | ret => exact silent_pure _
  | breakLoop | continueLoop => exact Run.silent_fail _

theorem silent_ownDispatch (target : Name) : Silent (site.ownDispatch target) := by
  unfold Site.ownDispatch
  split
  · exact silent_pure _
  · exact Run.silent_fail _

/-! ### The parts of a machine -/

/-- The start of an activation: its task is made, and the state and the status are set. -/
def Site.activate (site : Site) : Run Unit := do
  startActivation site
  site.writeSlot site.machine.stateSlot (.int (.ofNat 0))
  site.writeSlot site.machine.statusSlot (.int TaskStatus.running.code)

/-- **Each part of the machine at a site keeps a property of the state.** -/
structure Upkeep (site : Site) (call : Caller) (I : HostState → Prop) : Prop where
  effect : ∀ {a b : HostState}, Effect .any site call site.machine.freePolicy a b → I a → I b
  calls : ∀ index args, Maintains I (call index site.owner args)
  advance : ∀ state : Nat, Maintains I
    (site.writeSlot site.machine.stateSlot (.int (.ofNat state)))
  request : ∀ due, Maintains I (Run.submit due (.resume site.handle))
  finish : ∀ status value, status ≠ .running → Maintains I (finish site status value)
  start : Maintains I site.activate

namespace Upkeep

section

variable (u : Upkeep site call I)

include u

theorem of_effects {α : Type} {x : Run α}
    (h : Within .any (Effects .any site call site.machine.freePolicy) x) : Maintains I x :=
  fun _ _ _ hend covered => (h hend covered).invariant u.effect

/-- The code that the source wrote keeps it. -/
theorem plain {kind : CodeKind} {body : List Stmt}
    (h : Machine.PlainBlock site.machine.freePolicy kind body) (frame : Frame) :
    Maintains I (execBlock site call fuel body frame) := by
  intro s r s' hend _ hs
  cases execBlock_leaves (e := .any) fuel body h frame hend trivial with
  | flow allowed unfinished effects => exact effects.invariant u.effect hs
  | finished last effects finish =>
    exact u.finish _ _ (by simp) finish trivial (effects.invariant u.effect hs)
  | halted effects => exact effects.invariant u.effect hs
  | stuck effects finish =>
    exact u.finish _ _ (by simp) finish trivial (effects.invariant u.effect hs)

theorem finishStmt (span : Span) (h : status ≠ .running) (frame : Frame) :
    Maintains I (execBlock site call fuel [.finish span status .absent] frame) := by
  rw [execBlock_singleton, exec]
  exact (Maintains.of_silent (silent_pure _)).bind fun _ =>
    (u.finish status _ h).bind fun _ =>
    .of_silent (silent_pure _)

theorem schedule (span : Span) (timing : Machine.Timing)
    (h : timing.Plain site.machine.freePolicy) (frame : Frame) :
    Maintains I (exec site call fuel (.schedule span site.machine.dispatch.name timing)
      frame) := by
  unfold exec Site.ownDispatch
  rw [if_pos rfl, pure_bind]
  exact (u.of_effects (dueOf_within frame h)).bind fun due => (u.request due).bind fun _ =>
    .of_silent (silent_pure _)

/-- The end of an arm keeps it: a request for the next state, or a finish. -/
theorem armEnd (span : Span)
    (h : ∀ exit ∈ seg.exit, exit.request.timing.Plain site.machine.freePolicy)
    (frame : Frame) :
    Maintains I (execBlock site call fuel
      (armEnd span site.machine.dispatch.name seg) frame) := by
  unfold Resumable.armEnd
  cases hexit : seg.exit with
  | none => exact u.finishStmt span (by simp) frame
  | some exit =>
    refine maintains_cons (fun frame => ?_) (maintains_cons
      (u.schedule span _ (h exit hexit)) (maintains_leave span)) frame
    unfold exec
    exact (u.advance _).bind fun _ => .of_silent (silent_pure _)

end

section

variable (u : Upkeep site call I) (b : Lowered mode names p site.machine)

include u b

/-- **An arm keeps it**: its check, its guard, its segment and its end. -/
theorem arm {i : Nat} (hseg : b.segments[i]? = some seg) (previous : Option Segment)
    (frame : Frame) :
    Maintains I (execBlock site call fuel
      (armOf p.span site.machine.layout site.machine.dispatch.name previous seg).body
        frame) := by
  obtain ⟨hbody, htiming⟩ := b.segment_plain (fun _ _ => trivial) hseg
  unfold armOf Arm.body
  refine maintains_append (maintains_append (maintains_append (maintains_toList ?_)
    (maintains_toList ?_)) (u.plain hbody)) (u.armEnd _ htiming) frame
  · intro stmt hstmt frame
    obtain ⟨slot, -, rfl⟩ := Option.map_eq_some_iff.mp hstmt
    refine maintains_branch (fun frame => .of_silent ?_)
      (u.finishStmt _ (by simp)) (fun frame => .of_silent (silent_pure _)) frame
    unfold eval
    exact silent_cancelRequested slot
  · intro stmt hstmt frame
    obtain ⟨⟨tasks, join⟩, -, rfl⟩ := Option.map_eq_some_iff.mp hstmt
    refine maintains_branch (fun frame => .of_silent ?_) (fun frame => ?_)
      (fun frame => .of_silent (silent_pure _)) frame
    · unfold eval
      refine silent_bind ?_ fun _ => Run.silent_ofExcept _
      unfold eval
      exact silent_bind (Site.silent_taskSlots _) fun _ =>
        silent_bind silent_get fun _ => silent_pure _
    · refine maintains_cons (fun frame => ?_) (maintains_leave _) frame
      exact u.schedule _ (.completion tasks join) trivial frame

theorem arms :
    ∀ (segs : List Segment) (previous : Option Segment), (∀ seg ∈ segs, seg ∈ b.segments) →
      ∀ value body, .mk value body ∈ armsFrom p.span site.machine.layout
        site.machine.dispatch.name previous segs →
        ∀ frame, Maintains I (execBlock site call fuel body frame)
  | [], _, _, _, _, harm, _ => by cases harm
  | seg :: rest, previous, hsegs, value, body, harm, frame => by
    rcases List.mem_cons.mp harm with heq | harm
    · obtain ⟨i, hi⟩ := List.getElem?_of_mem (hsegs seg List.mem_cons_self)
      have harm : Maintains I (execBlock site call fuel _ frame) := u.arm b hi previous frame
      rw [← heq] at harm
      exact harm
    · exact arms rest (some seg) (fun seg hseg => hsegs seg (List.mem_cons_of_mem _ hseg))
        value body harm frame

/-- **A dispatch keeps it.** -/
theorem dispatchBody (frame : Frame) :
    Maintains I (execBlock site call fuel site.machine.dispatch.body frame) := by
  rw [b.dispatch_eq]
  refine maintains_cons (maintains_branch (fun frame => .of_silent ?_)
    (maintains_leave _) fun frame => .of_silent (silent_pure _)) (fun frame => ?_) frame
  · unfold eval
    refine silent_bind ?_ fun _ => silent_bind ?_ fun _ => Run.silent_ofExcept _
    · unfold eval
      exact Site.silent_readSlot _
    · exact silent_pure _
  · rw [execBlock_singleton, exec]
    exact (Maintains.of_silent (Site.silent_readSlot _)).bind fun _ =>
      (Maintains.of_silent (Run.silent_require _ _)).bind fun _ =>
        maintains_execArm (u.arms b b.segments none fun _ h => h) frame

end

/-- An entry starts its activation first, and then stores the arguments and dispatches. -/
theorem startActivation_entry (b : Lowered mode names p site.machine) (frame : Frame) :
    (startActivation site >>= fun _ =>
      execBlock site call fuel site.machine.entry.body frame) =
      site.activate >>= fun _ => execBlock site call fuel
        (site.machine.layout.slots.filterMap (paramStore p) ++
          [.invoke p.span site.machine.dispatch.name, .returnTask p.span]) frame := by
  unfold Site.activate
  rw [b.entry_eq, entryBody, bind_assoc]
  refine congrArg _ (funext fun _ => ?_)
  rw [List.append_assoc, List.cons_append, execBlock_cons, exec, bind_assoc, bind_assoc]
  refine congrArg _ (funext fun _ => ?_)
  rw [pure_bind]
  show execBlock site call fuel (storeSlot p.span site.machine.layout.status _ :: _) frame = _
  rw [execBlock_cons]
  unfold storeSlot exec statusCode eval writePlace
  rw [pure_bind, bind_assoc, bind_assoc]
  refine congrArg _ (funext fun _ => ?_)
  rw [pure_bind, pure_bind]
  rfl

/-- **An entry keeps it**: the start of its activation, the stores of its
arguments and its dispatch. -/
theorem entryRun (u : Upkeep site call I) (b : Lowered mode names p site.machine)
    (frame : Frame) :
    Maintains I (startActivation site >>= fun _ =>
      execBlock site call fuel site.machine.entry.body frame) := by
  rw [startActivation_entry b]
  refine u.start.bind fun _ => maintains_append (u.plain (paramStores_plain b))
    (maintains_cons (fun frame => ?_) fun frame => ?_) frame
  · unfold exec
    exact (Maintains.of_silent (silent_ownDispatch _)).bind fun _ =>
      (u.calls _ _).bind fun _ =>
      .of_silent (silent_pure _)
  · rw [execBlock_singleton, exec]
    exact .of_silent (silent_bind (Run.silent_storage _ _ _) fun _ => silent_pure _)

end Upkeep

/-! ### Procedures and closures -/

/-- A machine that lowering made. -/
def Machine.IsMade (m : Machine) : Prop :=
  ∃ options p names names', lowerProcedure options p names = (.ok m, names')

/-- Programs whose machines lowering made. -/
def AllMade (programs : Array Program) : Prop :=
  ∀ (k : Nat) (program : Program), programs[k]? = some program → program.machine.IsMade

section

variable {index : ProcIndex} {owner : InstanceId} {args : List Value}

/-- A procedure that does not exist is not run. -/
theorem runProcedure_unknown (h : image.proc? index = none) (fuel : Nat) :
    runProcedure image (fuel + 1) index owner args =
      Run.fail (.unknownProcedure s!"ProcIndex({index})") := by
  rw [runProcedure, h]
  rfl

/-- A procedure is not run with more or fewer arguments than it takes. -/
theorem runProcedure_arity {k : Nat} {program : Program} {role : ProcRole}
    (h : image.proc? index = some (k, program, role))
    (hargs : args.length ≠ (program.code role).2) (fuel : Nat) :
    runProcedure image (fuel + 1) index owner args =
      Run.fail (.arityMismatch program.name (program.code role).2 args.length) := by
  rw [runProcedure, h]
  show (if args.length = (program.code role).2 then _ else _) = _
  rw [if_neg hargs]
  rfl

end

section

variable (made : AllMade image.programs)
  (upkeep : ∀ k program owner call, image.programs[k]? = some program →
    (∀ index owner args, Maintains I (call index owner args)) →
    Upkeep ⟨image, k, program, owner⟩ call I)

include made upkeep

/-- **Calling a procedure keeps what the parts of the machines keep**, by induction on the
depth of calls. -/
theorem runProcedure_maintains (fuel : Nat) (index : ProcIndex) (owner : InstanceId)
    (args : List Value) : Maintains I (runProcedure image fuel index owner args) := by
  induction fuel generalizing index owner args with
  | zero => exact .of_silent (silent_throw _)
  | succ fuel ih =>
    cases hproc : image.proc? index with
    | none =>
      rw [runProcedure_unknown hproc]
      exact .of_silent (Run.silent_fail _)
    | some found =>
      obtain ⟨k, program, role⟩ := found
      by_cases hargs : args.length = (program.code role).2
      case neg =>
        rw [runProcedure_arity hproc hargs]
        exact .of_silent (Run.silent_fail _)
      case pos =>
        obtain ⟨hload, rfl⟩ := procIndex_of_proc? hproc
        obtain ⟨_, _, _, _, hlower⟩ := made k program hload
        obtain ⟨b⟩ := lowered_of_lowerProcedure hlower
        have u := upkeep k program owner (runProcedure image fuel) hload ih
        cases role with
        | dispatch =>
          obtain rfl := List.length_eq_zero_iff.mp hargs
          rw [runProcedure_dispatch hload]
          exact (u.dispatchBody b _).bind fun _ => .of_silent (silent_returned _)
        | entry =>
          rw [runProcedure_entry hload fuel owner hargs, ← bind_assoc]
          exact (u.entryRun b _).bind fun _ => .of_silent (silent_returned _)

/-- **Calling a closure keeps it too**, where closures hold code that the source wrote. -/
theorem runClosure_maintains (plain : ∀ s, I s → PlainClosures image.programs s)
    (fuel : Nat) (id : ClosureId) : Maintains I (runClosure image fuel id) := by
  intro s r s' hend _ hs
  unfold runClosure at hend
  rw [ends_get_bind] at hend
  cases hc : s.closures[id]? with
  | none =>
    rw [hc] at hend
    rw [Run.silent_fail _ hend]
    exact hs
  | some c =>
    obtain ⟨program, hload, hplain⟩ := plain s hs id c hc
    simp only [hc, hload] at hend
    have u := upkeep c.program program c.owner (runProcedure image fuel) hload
      (runProcedure_maintains made upkeep fuel)
    exact ((u.plain hplain _).bind fun _ => .of_silent (silent_returned _)) hend trivial hs

end

/-! ### Slots that are there -/

/-- **The stored slots fit the machines**: one value for each slot of a loaded program, and
nothing for programs that are not loaded. -/
structure Stocked (programs : Array Program) (s : HostState) : Prop where
  stored : ∀ k program owner st, programs[k]? = some program →
    s.storage? owner k program.machine = some st →
      st.slots.length = program.machine.slots.length
  unstored : ∀ k owner m st, programs[k]? = none →
    s.storage? owner k m = some st → st = .fresh m

namespace Stocked

variable {programs : Array Program}

section

variable (h : Stocked programs s)

include h

theorem of_storage (same : ∀ owner k m, s'.storage? owner k m = s.storage? owner k m) :
    Stocked programs s' :=
  ⟨fun k program owner st hk hst => h.stored k program owner st hk ((same ..).symm.trans hst),
    fun k owner m st hk hst => h.unstored k owner m st hk ((same ..).symm.trans hst)⟩

/-- Being stocked is about the instances only. -/
theorem of_instances (hinstances : s'.instances = s.instances) : Stocked programs s' :=
  h.of_storage (HostState.storage?_congr hinstances)

/-- Putting as many slots keeps it stocked. -/
theorem put {new : Storage} (hload : programs[site.index]? = some site.program)
    (seen : site.slotsIn s = some st) (hlength : new.slots.length = st.slots.length) :
    Stocked programs (site.put s new) := by
  refine ⟨fun k program owner st' hk hst => ?_, fun k owner m st' hk hst => ?_⟩
  · obtain ⟨⟨rfl, rfl⟩, rfl⟩ | ⟨-, hold⟩ := site.storage?_put_cases seen hst
    · obtain rfl : site.program = program := Option.some.inj (hload.symm.trans hk)
      exact hlength.trans (h.stored _ _ _ st hload seen)
    · exact h.stored k program owner st' hk hold
  · obtain ⟨⟨rfl, rfl⟩, -⟩ | ⟨-, hold⟩ := site.storage?_put_cases seen hst
    · cases hload.symm.trans hk
    · exact h.unstored k owner m st' hk hold

theorem putField (owner : InstanceId) (name : Name) (v : Value) :
    Stocked programs (s.putField owner name v) :=
  h.of_storage fun _ _ => HostState.storage?_putField name v

/-- A new instance keeps it stocked. -/
theorem spawn : Stocked programs { s with instances := s.instances.push .empty } := by
  refine ⟨fun k program owner st hk hst => ?_, fun k owner m st hk hst => ?_⟩
  · rcases HostState.storage?_spawn hst with hold | rfl
    · exact h.stored k program owner st hk hold
    · exact List.length_map _
  · rcases HostState.storage?_spawn hst with hold | rfl
    · exact h.unstored k owner m st hk hold
    · rfl

/-- Loading a program keeps the host stocked. -/
theorem load (new : Program) : Stocked (programs.push new) s := by
  refine ⟨fun k program owner st hk hst => ?_, fun k owner m st hk hst =>
    h.unstored k owner m st (getElem?_of_push_eq_none hk) hst⟩
  rcases getElem?_push_cases hk with hold | ⟨hnone, rfl⟩
  · exact h.stored k program owner st hold hst
  · rw [h.unstored k owner _ st hnone hst]
    exact List.length_map _

end

/-- A new host is stocked. -/
theorem new (config : HostConfig) : Stocked #[] (HostState.new config) := by
  refine ⟨fun k program owner st hk hst => ?_, fun k owner m st hk hst => ?_⟩
  · cases hst
  · cases hst

end Stocked

section

variable (b : Lowered mode names p site.machine)

include b

/-- Where the slots are there, an activation can be finished. -/
theorem exists_returns_finish (seen : site.slotsIn s = some st)
    (hlength : st.slots.length = site.machine.slots.length) (status : TaskStatus)
    (value : Option Value) : ∃ s', Returns (finish site status value) s () s' := by
  obtain ⟨-, hstatus, hresult⟩ := b.lt_length
  rw [← hlength] at hstatus hresult
  have hread : ∃ result mid st', Returns (resultOf site value) s result mid ∧
      site.slotsIn mid = some st' ∧ site.machine.statusSlot < st'.slots.length := by
    simp only [Site.returns_resultOf]
    cases hslot : site.machine.resultSlot with
    | none => exact ⟨_, s, st, ⟨rfl, rfl⟩, seen, hstatus⟩
    | some slot =>
      cases value with
      | none =>
        refine ⟨st.slots.get ⟨slot, hresult slot hslot⟩, s, st, ⟨?_, rfl⟩, seen, hstatus⟩
        rw [Site.slotIn_eq seen]
        exact List.getElem?_eq_getElem _
      | some v =>
        refine ⟨v, _, _,
          ⟨rfl, Site.returns_writeSlot.mpr ⟨st, seen, hresult slot hslot, rfl⟩⟩,
          Site.slotsIn_put seen _, ?_⟩
        rw [List.length_set]
        exact hstatus
  obtain ⟨result, mid, st', hresult, hst', hlt⟩ := hread
  exact ⟨_, Site.returns_finish.mpr ⟨result, mid, st', hresult, hst', hlt, rfl⟩⟩

/-- **A finish happens as a whole or not at all**, where the slots are there. -/
theorem ends_finish
    (stocked : ∀ st, site.slotsIn s = some st → st.slots.length = site.machine.slots.length)
    {value : Option Value} (h : Ends (finish site status value) s r s') :
    s' = s ∨ Returns (finish site status value) s () s' := by
  cases hst : site.slotsIn s with
  | some st =>
    obtain ⟨last, hret⟩ := exists_returns_finish b hst (stocked st hst) status value
    obtain ⟨-, rfl⟩ := Ends.unique h hret
    exact Or.inr hret
  | none =>
    -- Without an instance there is nothing to write.
    have hwrite (slot v) : Maintains (· = s) (site.writeSlot slot v) := by
      rintro _ r s' hw _ rfl
      rcases Site.ends_writeSlot hw with heq | ⟨st, hseen, -⟩
      · exact heq
      · cases hst.symm.trans hseen
    have hresult : Maintains (· = s) (resultOf site value) := by
      unfold resultOf
      cases site.machine.resultSlot with
      | none => exact .of_silent (silent_pure _)
      | some slot =>
        cases value with
        | none => exact .of_silent (Site.silent_readSlot _)
        | some v => exact (hwrite slot v).bind fun _ => .of_silent (silent_pure _)
    left
    rcases ends_bind.mp h with ⟨_, hr, -⟩ | ⟨_, mid, hr, hrest⟩
    · exact hresult hr trivial rfl
    · obtain rfl := hresult hr trivial rfl
      rcases ends_bind.mp hrest with ⟨_, hw, -⟩ | ⟨_, _, hw, -⟩
      · exact hwrite _ _ hw trivial rfl
      · obtain ⟨st, hseen, -⟩ := Site.returns_writeSlot.mp hw
        cases hst.symm.trans hseen

/-- Where there is an instance to start it on, an activation starts with a new task, in the
first state and running. -/
theorem returns_activate (seen : site.slotsIn s = some st)
    (hlength : st.slots.length = site.machine.slots.length) :
    Returns site.activate s ()
      (site.put { s with tasks := s.tasks.push ⟨.pending, .activation⟩ }
        ⟨(st.slots.set site.machine.stateSlot (.int (.ofNat 0))).set site.machine.statusSlot
          (.int TaskStatus.running.code), some s.tasks.size⟩) := by
  obtain ⟨hstate, hstatus, -⟩ := b.lt_length
  rw [← hlength] at hstate hstatus
  unfold Site.activate
  refine returns_bind.mpr ⟨(), _, Site.returns_startActivation.mpr ⟨st, seen, rfl⟩, ?_⟩
  have hstarted := Site.slotsIn_put
    (s := { s with tasks := s.tasks.push ⟨.pending, .activation⟩ }) seen
    { st with task := some s.tasks.size }
  refine returns_bind.mpr ⟨(), _, Site.returns_writeSlot.mpr ⟨_, hstarted, hstate, rfl⟩, ?_⟩
  refine Site.returns_writeSlot.mpr ⟨_, Site.slotsIn_put hstarted _, ?_, ?_⟩
  · rw [List.length_set]
    exact hstatus
  · unfold Site.put
    rw [HostState.putStorage_putStorage, HostState.putStorage_putStorage]

/-- **The start of an activation happens as a whole**, where there is an instance to start it
on; otherwise a task is made that nobody observes. -/
theorem ends_activate
    (stocked : ∀ st, site.slotsIn s = some st → st.slots.length = site.machine.slots.length)
    (h : Ends site.activate s r s') :
    s' = { s with tasks := s.tasks.push ⟨.pending, .activation⟩ } ∨
      ∃ st, site.slotsIn s = some st ∧
        s' = site.put { s with tasks := s.tasks.push ⟨.pending, .activation⟩ }
          ⟨(st.slots.set site.machine.stateSlot (.int (.ofNat 0))).set site.machine.statusSlot
            (.int TaskStatus.running.code), some s.tasks.size⟩ := by
  cases hst : site.slotsIn s with
  | some st => exact Or.inr ⟨st, rfl, (h.unique (returns_activate b hst (stocked st hst))).2⟩
  | none =>
    left
    have hnew : Returns (Run.newTask .activation) s s.tasks.size
        { s with tasks := s.tasks.push ⟨.pending, .activation⟩ } := rfl
    have hunseen : ∀ st, ({ s with tasks := s.tasks.push ⟨.pending, .activation⟩ } :
      HostState).storage?
        site.owner site.index site.machine ≠ some st := by
      intro st hseen
      have hnone : site.slotsIn s = some st := hseen
      rw [hst] at hnone
      cases hnone
    unfold Site.activate startActivation at h
    rw [bind_assoc] at h
    rcases ends_bind.mp (hnew.ends_bind.mp h) with ⟨_, hmod, -⟩ | ⟨_, _, hmod, -⟩
    · rcases ends_bind.mp hmod with ⟨_, hread, -⟩ | ⟨st, mid, hread, -⟩
      · exact Run.silent_storage _ _ _ hread
      · exact absurd (Run.returns_storage.mp hread).1 (hunseen st)
    · obtain ⟨st, hseen, -⟩ := Run.returns_modifyStorage.mp hmod
      exact absurd hseen (hunseen st)

end

end Resumable
