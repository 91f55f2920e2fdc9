import Resumable.Proofs.Session
import Resumable.Proofs.Upkeep

/-!
# What any code upholds

A host runs the code of every machine that breaks no rule, whoever wrote it.  This module says
once what such code can do: **what survives each act of code survives every run of it**, of a
procedure, a closure or the action of a request, and what is asked of each reason to stop is
asked of the run.

## Main definitions

* `Halt.isFault`: the run stops for something that the rules of a machine rule out.
* `Act site`: one act of code that runs in a site.
* `Stable site I E`: each act of code in the site upholds `I`, and each reason it has
  to stop is in `E`.
* `Upheld image I E`: so it is wherever code of the image runs.
* `Command.runsCode`: the commands of a host that run code.

## Main statements

* `Stable.eval`, `Stable.exec`, `Stable.execBlock`: code upholds it.
* `upholds_runProcedure`, `Upheld.runClosure`, `Upheld.perform`: so does the call of a
  procedure or closure.
* `Upheld.reply`: so does every command that runs code.

## Design notes

The rules of a machine enter in one way only.  `Excused I E found` says of the violations
found in a piece of code that there are none, or that the statement is one about runs that
may stop for any reason.  So the same induction serves invariants of all code and the
soundness of the rules.
-/

namespace Resumable

open Resumable.Machine (Expr Scope SlotId Stmt TaskStatus Violation)

variable {why : HostError} {I : HostState → Prop} {E : Halt → HostState → Prop}
  {v : Violation} {slots : List SlotId} {α : Type} {call : Caller} {image : Image}
  {owner : InstanceId} {fuel : Nat}

/-- Does the run stop for something that the rules of a machine rule out?  That is a slot that
does not exist, a dispatch that is not the machine's own, or code that is not there. -/
def Halt.isFault : Halt → Bool
  | .absentNode | .error (.unknownSlot ..) | .error (.foreignDispatch ..) => true
  | .outOfFuel | .error _ => false

theorem Halt.isFault_of_isStructural (h : why.isStructural = false) :
    (Halt.error why).isFault = false := by
  cases why with
  | unknownSlot | foreignDispatch => cases h
  | _ => rfl

/-! ### The acts of code -/

/-- The run may stop for any reason. -/
def Lax (I : HostState → Prop) (E : Halt → HostState → Prop) : Prop :=
  ∀ halt s, I s → E halt s

/-- No violation was found, or the run may stop for any reason. -/
def Excused (I : HostState → Prop) (E : Halt → HostState → Prop)
    (found : List Violation) : Prop :=
  ∀ v ∈ found, Lax I E

section

@[simp] theorem excused_nil : Excused I E [] := fun _ h => nomatch h

/-- Violations are excused list by list. -/
@[simp] theorem excused_append {first second : List Violation} :
    Excused I E (first ++ second) ↔ Excused I E first ∧ Excused I E second :=
  List.forall_mem_append

@[simp] theorem excused_singleton : Excused I E [v] ↔ Lax I E := List.forall_mem_singleton

variable {scope : Scope}

theorem Excused.slot {slot : SlotId} (h : Excused I E (scope.slotRef slot)) :
    slot < scope.slotCount ∨ Lax I E := by
  unfold Scope.slotRef at h
  split at h
  · exact Or.inl ‹_›
  · exact Or.inr (excused_singleton.mp h)

theorem Excused.of_mem {slot : SlotId} (h : Excused I E (scope.slotRefs slots))
    (hmem : slot ∈ slots) : Excused I E (scope.slotRef slot) :=
  fun v hv => h v (List.mem_flatMap.mpr ⟨slot, hmem, hv⟩)

theorem own_of_excused {target dispatch : Name}
    (h : Excused I E (if target = dispatch then [] else [v])) :
    target = dispatch ∨ Lax I E := by
  split at h
  · exact Or.inl ‹_›
  · exact Or.inr (excused_singleton.mp h)

/-- An expression that need not be there. -/
theorem Excused.optional {e : Expr}
    (h : Excused I E (if e.isAbsent then [] else scope.expr e)) (there : e.isAbsent = false) :
    Excused I E (scope.expr e) := by
  rw [there] at h
  exact h

end

/-- When the request for a task of a kind is due: a timer by the clock, and a join with its
own tasks.  No request completes an activation. -/
def TaskKind.Awaits : TaskKind → Due → Prop
  | .activation, _ => False
  | .timer, due => due.isTimer = true
  | .join tasks mode, due => due = .completion tasks mode

/-- **One act of code that runs in a site.**  Where it touches an instance, a call back or a
line of the log, these belong to the instance of the site. -/
inductive Act (site : Site) : HostState → HostState → Prop where
  /-- A primitive makes a task, with the request that completes it. -/
  | task (s : HostState) (kind : TaskKind) (due : Due) (fits : kind.Awaits due) :
    Act site s
      { s with
        tasks := s.tasks.push ⟨.pending, kind⟩
        scheduler := s.scheduler.submit due (.complete s.tasks.size) }
  | callBack (s : HostState) (due : Due) :
    Act site s { s with scheduler := s.scheduler.submit due (.resume site.handle) }
  | answer (s : HostState) (registered : Registration) (call : HostCall)
    (own : call.owner = site.owner) :
    Act site s (s.consult registered call)
  | line (s : HostState) (message : String) :
    Act site s { s with log := s.log.push ⟨site.owner, message⟩ }
  | closure (s : HostState) (c : Closure) (own : c.owner = site.owner) :
    Act site s { s with closures := s.closures.push c }
  | field (s : HostState) (name : Name) (v : Value) :
    Act site s (s.putField site.owner name v)
  /-- Slots keep their number. -/
  | slots {s : HostState} {st : Storage} (content : List Value)
    (seen : site.slotsIn s = some st)
    (same : content.length = st.slots.length) :
      Act site s (site.put s { st with slots := content })
  /-- An activation starts: its task is made and recorded beside the slots. -/
  | start {s : HostState} {st : Storage} (seen : site.slotsIn s = some st) :
    Act site s
      (site.put { s with tasks := s.tasks.push ⟨.pending, .activation⟩ }
        { st with task := some s.tasks.size })
  /-- Without an instance to start on, a task is made that nothing observes. -/
  | orphan (s : HostState) (nowhere : s.instances[site.owner]? = none) :
    Act site s { s with tasks := s.tasks.push ⟨.pending, .activation⟩ }
  /-- An activation ends: the task that observes it gets an outcome. -/
  | outcome {s : HostState} {st : Storage} {id : TaskId} (state : TaskState)
    (seen : site.slotsIn s = some st)
    (observes : st.task = some id) (done : state.isDone = true) :
    Act site s { s with tasks := s.tasks.complete id state }

/-- A run may stop for each reason that is not a fault. -/
def Ordinary (I : HostState → Prop) (E : Halt → HostState → Prop) : Prop :=
  ∀ ⦃halt s⦄, halt.isFault = false → I s → E halt s

/-- **Each act of code in a site upholds a property**, and each reason that the code has to
stop is admitted. -/
structure Stable (site : Site) (I : HostState → Prop)
    (E : Halt → HostState → Prop) : Prop where
  ordinary : Ordinary I E
  acts : ∀ {s s' : HostState}, Act site s s' → s'.closures = s.closures → I s → I s'
  /-- A registered function may stop a run for a reason of its own. -/
  answer : ∀ {s : HostState} {registered : Registration} {call : HostCall} {why : HostError},
    call.owner = site.owner → registered.answer registered.earlier call = .error why → I s →
    E (.error why) (s.consult registered call)
  closure : ∀ {s : HostState} (body : List Stmt) (frame : Frame),
    Excused I E (site.machine.scope.block body) → I s →
    I { s with closures :=
      s.closures.push ⟨site.owner, site.index, body, frame.params, frame.locals⟩ }
  /-- The slots that the rules count are there. -/
  slots : ∀ {s : HostState} {st : Storage}, site.slotsIn s = some st → I s →
    st.slots.length = site.machine.slots.length ∨ Lax I E
  machine : Excused I E site.machine.violations

namespace Ordinary

variable (ordinary : Ordinary I E)

include ordinary

/-- An error that is no fault upholds the invariant. -/
theorem fail (h : (Halt.error why).isFault = false) :
    Upholds I E (Run.fail why : Run α) := upholds_throw fun _ => ordinary h

/-- A requirement that fails without fault upholds the invariant. -/
theorem require (h : (Halt.error why).isFault = false)
    (o : Option α) : Upholds I E (Run.require why o) :=
  Run.upholds_require (fun _ => ordinary h) o

theorem theInstance (owner : InstanceId) : Upholds I E (Run.theInstance owner) :=
  upholds_bind upholds_get fun _ => ordinary.require rfl _

theorem returned (flow : Flow) : Upholds I E (returned flow) := by
  cases flow with
  | next | finished | ret => exact upholds_pure _
  | breakLoop | continueLoop => exact ordinary.fail rfl

theorem repeatWhile {cond : Frame → Run Bool} {body : Frame → Run (Flow × Frame)}
    (hcond : ∀ frame, Upholds I E (cond frame)) (hbody : ∀ frame, Upholds I E (body frame))
    (fuel : Nat) (frame : Frame) : Upholds I E (repeatWhile cond body fuel frame) := by
  induction fuel generalizing frame with
  | zero => exact upholds_throw fun _ => ordinary rfl
  | succ fuel ih =>
    unfold Resumable.repeatWhile
    refine upholds_bind (hcond frame) fun _ =>
      upholds_ite (upholds_bind (hbody frame) fun x => ?_)
      (upholds_pure _)
    obtain ⟨flow, frame⟩ := x
    cases flow with
    | next | continueLoop => exact ih frame
    | breakLoop | ret | finished => exact upholds_pure _

end Ordinary

namespace Stable

variable {site : Site}

/-- The dispatch that code schedules or calls is the machine's own. -/
theorem ownDispatch {target : Name} (h : target = site.machine.dispatch.name ∨ Lax I E)
    {f : ProcIndex → Run α} (hf : Upholds I E (f (procIndex site.index .dispatch))) :
    Upholds I E (site.ownDispatch target >>= f) := by
  intro s r s' hend hs
  rcases ends_bind.mp hend with ⟨halt, hhalt, rfl⟩ | ⟨index, mid, hown, hrest⟩
  · unfold Site.ownDispatch at hhalt
    split at hhalt
    · cases (Ends.unique hhalt (returns_pure.mpr ⟨rfl, rfl⟩)).1
    · rw [(ends_throw.mp hhalt).2]
      exact h.resolve_left ‹_› _ _ hs
  · obtain ⟨-, rfl, rfl⟩ := Site.returns_ownDispatch.mp hown
    exact hf hrest hs

section

variable (stable : Stable site I E)

include stable

theorem storage : Upholds I E site.storage :=
  upholds_bind (stable.ordinary.theInstance _) fun _ => upholds_pure _

/-- An act that a run consists of. -/
theorem modify {u : HostState → HostState} (act : ∀ s, Act site s (u s))
    (same : ∀ s, (u s).closures = s.closures) : Upholds I E (modify u : Run PUnit) :=
  upholds_modify fun s => stable.acts (act s) (same s)

/-! ### Slots -/

variable {slot : SlotId}

section

variable (excused : Excused I E (site.machine.scope.slotRef slot))

include excused

/-- A slot whose reference is excused is among the slots that are stored. -/
theorem lt_length {s : HostState} {st : Storage} (hst : site.slotsIn s = some st)
    (hs : I s) : slot < st.slots.length ∨ Lax I E := by
  rcases stable.slots hst hs with hlength | lax
  · rw [hlength]
    exact excused.slot
  · exact Or.inr lax

/-- Reading a slot upholds the invariant. -/
theorem readSlot : Upholds I E (site.readSlot slot) := by
  intro s r s' h hs
  rcases ends_bind.mp h with ⟨halt, hhalt, rfl⟩ | ⟨st, mid, hst, hend⟩
  · exact stable.storage hhalt hs
  · obtain ⟨hst, rfl⟩ := Site.returns_storage.mp hst
    rcases stable.lt_length excused hst hs with hlt | lax
    · rw [List.getElem?_eq_getElem hlt] at hend
      exact upholds_pure _ hend hs
    · exact Run.upholds_require (fun t => lax _ t) _ hend hs

/-- Writing a slot upholds the invariant. -/
theorem writeSlot (v : Value) : Upholds I E (site.writeSlot slot v) := by
  intro s r s' h hs
  rcases ends_bind.mp h with ⟨halt, hhalt, rfl⟩ | ⟨st, mid, hst, hend⟩
  · exact stable.storage hhalt hs
  · obtain ⟨hst, rfl⟩ := Site.returns_storage.mp hst
    by_cases hlt : slot < st.slots.length
    · rw [if_pos hlt] at hend
      obtain ⟨rfl, rfl⟩ :=
        Ends.unique hend ((Run.returns_modifyStorage (u := ())).mpr ⟨st, hst, rfl⟩)
      exact stable.acts (.slots _ hst List.length_set) rfl hs
    · rw [if_neg hlt] at hend
      have lax := (stable.lt_length excused hst hs).resolve_left hlt
      exact upholds_throw (fun t => lax _ t) hend hs

end

theorem taskSlots (excused : Excused I E (site.machine.scope.slotRefs slots)) :
    Upholds I E (site.taskSlots slots) := by
  induction slots with
  | nil => exact upholds_pure _
  | cons slot rest ih =>
    unfold Site.taskSlots
    have hrest := ih fun v hv => excused v (List.mem_append_right _ hv)
    exact upholds_bind (stable.readSlot (excused.of_mem List.mem_cons_self)) fun _ =>
      upholds_bind (stable.ordinary.require rfl _) fun _ =>
        upholds_bind hrest fun _ => upholds_pure _

/-- The slots that a machine names outside its code are there. -/
theorem fixed_slot
    (h : slot ∈ [site.machine.stateSlot, site.machine.statusSlot] ++
      site.machine.resultSlot.toList ++ site.machine.cancelSlot.toList) :
    Excused I E (site.machine.scope.slotRef slot) := by
  have hviolations := stable.machine
  unfold Machine.violations Machine.slotViolations at hviolations
  simp only [excused_append] at hviolations
  exact hviolations.1.1.2.of_mem h

/-! ### Calls -/

theorem scheduledTask {kind : TaskKind} {due : Due} (fits : kind.Awaits due) :
    Upholds I E (Run.scheduledTask kind due) := by
  intro s r s' hend hs
  have hmade : Returns (Run.scheduledTask kind due) s (.task s.tasks.size) _ := rfl
  obtain ⟨rfl, rfl⟩ := Ends.unique hend hmade
  exact stable.acts (.task s kind due fits) rfl hs

theorem callPrimitive (which : Primitive) (args : List Value) :
    Upholds I E (callPrimitive which args) := by
  have tasks : ∀ l : List Value, Upholds I E (l.mapM Run.expectTask) := by
    intro l
    induction l with
    | nil => exact upholds_pure _
    | cons v rest ih =>
      rw [List.mapM_cons]
      exact upholds_bind (stable.ordinary.require rfl _) fun _ =>
        upholds_bind ih fun _ => upholds_pure _
  unfold Resumable.callPrimitive
  cases which with
  | delay | delayFrames =>
    exact upholds_bind (stable.ordinary.require rfl _) fun _ =>
      upholds_bind upholds_get fun _ =>
      stable.scheduledTask rfl
  | yield => exact upholds_bind upholds_get fun _ => stable.scheduledTask rfl
  | whenAll | whenAny => exact upholds_bind (tasks args) fun _ => stable.scheduledTask rfl

/-- A function of the host upholds the invariant. -/
theorem callHost (names : NameTable) (function : Name) (args : List Value) :
    Upholds I E (callHost names site.owner function args) := by
  intro s r s' hend hs
  unfold Resumable.callHost at hend
  rw [ends_get_bind] at hend
  cases hf : s.functions.get? function with
  | some registered =>
    rw [hf] at hend
    -- The call is recorded before the function answers.
    have hanswer := ends_modify_bind.mp hend
    cases hresult : registered.answer registered.earlier ⟨function, site.owner, args⟩ with
    | ok v =>
      simp only [hresult] at hanswer
      exact upholds_pure v hanswer
        (stable.acts (.answer s registered ⟨function, site.owner, args⟩ rfl) rfl hs)
    | error why =>
      simp only [hresult] at hanswer
      obtain ⟨rfl, rfl⟩ := ends_throw.mp hanswer
      exact stable.answer rfl hresult hs
  | none =>
    rw [hf] at hend
    refine upholds_ite ?_ (stable.ordinary.fail rfl) hend hs
    exact upholds_bind (stable.modify (.line · _) fun _ => rfl) fun _ => upholds_pure _

theorem makeClosure (frame : Frame) {body : List Stmt}
    (excused : Excused I E (site.machine.scope.block body)) :
    Upholds I E (makeClosure site frame body) :=
  upholds_bind upholds_get fun _ =>
    upholds_bind (upholds_modify fun _ => stable.closure body frame excused) fun _ =>
      upholds_pure _

theorem cancelRequested {slot : SlotId}
    (excused : Excused I E (site.machine.scope.slotRef slot)) :
    Upholds I E (cancelRequested site slot) := by
  refine upholds_bind (stable.readSlot excused) fun v => ?_
  cases v with
  | token id => exact upholds_bind upholds_get fun _ => upholds_pure _
  | unit => exact upholds_pure _
  | _ => exact stable.ordinary.fail rfl

/-! ### Places and ends -/

theorem writePlace (frame : Frame) (v : Value)
    {place : Machine.Place} (excused : Excused I E (site.machine.scope.placeRef place)) :
    Upholds I E (writePlace site frame v place) := by
  unfold Resumable.writePlace
  cases place with
  | localVar id => exact upholds_pure _
  | param index => exact upholds_ite (upholds_pure _) (stable.ordinary.fail rfl)
  | field name =>
    exact upholds_bind (upholds_bind (stable.ordinary.theInstance _) fun _ =>
      stable.modify (.field · name v) fun _ => rfl) fun _ => upholds_pure _
  | slot id => exact upholds_bind (stable.writeSlot excused v) fun _ => upholds_pure _

theorem resultOf (value : Option Value) : Upholds I E (resultOf site value) := by
  unfold Resumable.resultOf
  cases hslot : site.machine.resultSlot with
  | none => exact upholds_pure _
  | some slot =>
    have excused : Excused I E (site.machine.scope.slotRef slot) :=
      stable.fixed_slot (by simp [hslot])
    cases value with
    | some v => exact upholds_bind (stable.writeSlot excused v) fun _ => upholds_pure _
    | none => exact stable.readSlot excused

/-- Finishing an activation upholds the invariant. -/
theorem finish (status : TaskStatus) (value : Option Value) :
    Upholds I E (finish site status value) := by
  have excused : Excused I E (site.machine.scope.slotRef site.machine.statusSlot) :=
    stable.fixed_slot (by simp)
  refine upholds_bind (stable.resultOf value) fun result =>
    upholds_bind (stable.writeSlot excused _) fun _ => ?_
  intro s r s' hend hs
  rcases ends_bind.mp hend with ⟨halt, hhalt, rfl⟩ | ⟨st, mid, hst, hrest⟩
  · exact stable.storage hhalt hs
  · obtain ⟨hst, rfl⟩ := Site.returns_storage.mp hst
    cases htask : st.task with
    | none =>
      rw [htask] at hrest
      exact upholds_pure () hrest hs
    | some id =>
      rw [htask] at hrest
      have hdone : ∀ state : TaskState, state.isDone = true →
        I { mid with tasks := mid.tasks.complete id state } :=
        fun state done => stable.acts (.outcome state hst htask done) rfl hs
      cases status with
      | running => exact upholds_pure () hrest hs
      | succeeded | cancelled =>
        obtain ⟨rfl, rfl⟩ := Ends.unique hrest ((returns_modify (u := ⟨⟩)).mpr rfl)
        exact hdone _ rfl

/-- **An activation starts** on its instance, or nowhere. -/
theorem startActivation : Upholds I E (startActivation site) := by
  intro s r s' hend hs
  cases hst : site.slotsIn s with
  | some st =>
    obtain ⟨rfl, rfl⟩ :=
      hend.unique ((Site.returns_startActivation (u := ())).mpr ⟨st, hst, rfl⟩)
    exact stable.acts (.start hst) rfl hs
  | none =>
    have hnew : Returns (Run.newTask .activation) s s.tasks.size
        { s with tasks := s.tasks.push ⟨.pending, .activation⟩ } := rfl
    unfold Resumable.startActivation at hend
    rcases ends_bind.mp (hnew.ends_bind.mp hend) with ⟨halt, hread, rfl⟩ | ⟨st, mid, hread, -⟩
    · exact stable.storage hread
        (stable.acts (.orphan s (Option.map_eq_none_iff.mp hst)) rfl hs)
    · have hseen : site.slotsIn s = some st := (Run.returns_storage.mp hread).1
      rw [hst] at hseen
      cases hseen

end

/-! ### Expressions -/

theorem callTarget (stable : Stable site I E)
    (hcall : ∀ index args, Upholds I E (call index site.owner args)) (target : CallTarget)
    (args : List Value) : Upholds I E (callTarget site call target args) := by
  cases target with
  | primitive which => exact stable.callPrimitive which args
  | host name => exact stable.callHost _ name args
  | procedure name =>
    unfold Resumable.callTarget
    cases hfound : site.image.procedure? name with
    | none => simpa only [hfound] using stable.ordinary.fail rfl
    | some index => simpa only [hfound] using hcall index args

mutual

/-- **Evaluating an expression** upholds what the acts of code uphold. -/
theorem eval (stable : Stable site I E)
    (hcall : ∀ index args, Upholds I E (call index site.owner args)) (frame : Frame) :
    (x : Expr) → Excused I E (site.machine.scope.expr x) →
    Upholds I E (eval site call frame x)
  | .int .., _ | .float .., _ | .bool .., _ | .str .., _ | .unit .., _ => by
    unfold Resumable.eval
    exact upholds_pure _
  | .localVar .., _ | .param .., _ => by
    unfold Resumable.eval
    exact stable.ordinary.require rfl _
  | .field .., _ => by
    unfold Resumable.eval
    exact upholds_bind (stable.ordinary.theInstance _) fun _ => stable.ordinary.require rfl _
  | .slot .., excused => by
    unfold Resumable.eval
    exact stable.readSlot excused
  | .binary _ op left right, excused => by
    unfold Scope.expr at excused
    obtain ⟨hleft, hright⟩ := excused_append.mp excused
    have hleft := stable.eval hcall frame left hleft
    have hright := stable.eval hcall frame right hright
    have expect : ∀ v : Value, Upholds I E (Run.expectBool v) :=
      fun v => stable.ordinary.require rfl _
    cases op
    case and =>
      unfold Resumable.eval
      exact upholds_bind hleft fun a => upholds_bind (expect a) fun _ => upholds_ite
        (upholds_bind hright fun b => upholds_bind (expect b) fun _ => upholds_pure _)
          (upholds_pure _)
    case or =>
      unfold Resumable.eval
      exact upholds_bind hleft fun a => upholds_bind (expect a) fun _ =>
        upholds_ite (upholds_pure _)
        (upholds_bind hright fun b => upholds_bind (expect b) fun _ => upholds_pure _)
    all_goals
      unfold Resumable.eval
      exact upholds_bind hleft fun _ => upholds_bind hright fun _ =>
        Run.upholds_ofExcept fun why s h =>
        stable.ordinary (Halt.isFault_of_isStructural (isStructural_binaryOp h))
  | .unary _ op operand, excused => by
    unfold Resumable.eval
    exact upholds_bind (stable.eval hcall frame operand excused) fun _ =>
      Run.upholds_ofExcept fun why s h =>
      stable.ordinary (Halt.isFault_of_isStructural (isStructural_unaryOp h))
  | .call _ target args, excused => by
    unfold Resumable.eval
    exact upholds_bind (stable.evalArgs hcall frame args excused) fun values =>
      stable.callTarget hcall target values
  | .lambda _ body, excused => by
    unfold Resumable.eval
    exact stable.makeClosure frame excused
  | .tasksDone .., excused => by
    unfold Resumable.eval
    exact upholds_bind (stable.taskSlots excused) fun _ => upholds_bind upholds_get fun _ =>
      upholds_pure _
  | .taskValue .., excused => by
    unfold Resumable.eval
    exact upholds_bind (stable.taskSlots excused) fun _ => upholds_bind upholds_get fun _ =>
      stable.ordinary.require rfl _
  | .cancelRequested .., excused => by
    unfold Resumable.eval
    exact stable.cancelRequested excused
  | .error .., _ => by
    unfold Resumable.eval
    exact stable.ordinary.fail rfl
  | .absent, excused => by
    unfold Resumable.eval
    exact upholds_throw (excused_singleton.mp excused _)

/-- Evaluating arguments does, too. -/
theorem evalArgs (stable : Stable site I E)
    (hcall : ∀ index args, Upholds I E (call index site.owner args)) (frame : Frame) :
    (args : List Expr) → Excused I E (site.machine.scope.args args) →
      Upholds I E (evalArgs site call frame args)
  | [], _ => by
    unfold Resumable.evalArgs
    exact upholds_pure _
  | x :: rest, excused => by
    unfold Scope.args at excused
    obtain ⟨hfirst, hrest⟩ := excused_append.mp excused
    unfold Resumable.evalArgs
    exact upholds_bind (stable.eval hcall frame x hfirst) fun _ =>
      upholds_bind (stable.evalArgs hcall frame rest hrest) fun _ => upholds_pure _

end

/-! ### Statements -/

theorem eval? (stable : Stable site I E)
    (hcall : ∀ index args, Upholds I E (call index site.owner args))
    (frame : Frame) {x : Expr}
    (excused : Excused I E (if x.isAbsent then [] else site.machine.scope.expr x)) :
    Upholds I E (eval? site call frame x) := by
  unfold Resumable.eval?
  split
  · exact upholds_pure _
  · rw [← bind_pure_comp]
    refine upholds_bind (stable.eval hcall frame x (excused.optional ?_)) fun _ =>
      upholds_pure _
    exact Bool.eq_false_iff.mpr ‹_›

theorem dueOf (stable : Stable site I E)
    (hcall : ∀ index args, Upholds I E (call index site.owner args)) (frame : Frame)
    {timing : Machine.Timing} (excused : Excused I E (site.machine.scope.timing timing)) :
    Upholds I E (dueOf site call frame timing) := by
  unfold Resumable.dueOf
  cases timing with
  | seconds x | frames x =>
    exact upholds_bind (stable.eval hcall frame x excused) fun _ =>
      upholds_bind (stable.ordinary.require rfl _) fun _ =>
        upholds_bind upholds_get fun _ => upholds_pure _
  | nextFrame => exact upholds_bind upholds_get fun _ => upholds_pure _
  | completion slots mode =>
    exact upholds_bind (stable.taskSlots excused) fun _ => upholds_pure _

mutual

/-- **Running a statement** upholds what the acts of code uphold. -/
theorem exec (stable : Stable site I E)
    (hcall : ∀ index args, Upholds I E (call index site.owner args)) (fuel : Nat) :
    (x : Stmt) → Excused I E (site.machine.scope.stmt x) → (frame : Frame) →
      Upholds I E (exec site call fuel x frame)
  | .expr _ value, excused, frame => by
    unfold Resumable.exec
    exact upholds_bind (stable.eval hcall frame value excused) fun _ => upholds_pure _
  | .bind _ id init, excused, frame => by
    unfold Resumable.exec
    exact upholds_bind (stable.eval? hcall frame excused) fun _ => upholds_pure _
  | .assign _ target value, excused, frame => by
    unfold Scope.stmt at excused
    obtain ⟨htarget, hvalue⟩ := excused_append.mp excused
    unfold Resumable.exec
    exact upholds_bind (stable.eval hcall frame value hvalue) fun v =>
      upholds_bind (stable.writePlace frame v htarget) fun _ => upholds_pure _
  | .branch _ cond onTrue onFalse, excused, frame => by
    unfold Scope.stmt at excused
    obtain ⟨hcondTrue, hfalse⟩ := excused_append.mp excused
    obtain ⟨hcond, htrue⟩ := excused_append.mp hcondTrue
    unfold Resumable.exec
    exact upholds_bind (stable.eval hcall frame cond hcond) fun _ =>
      upholds_bind (stable.ordinary.require rfl _) fun _ =>
        upholds_ite (stable.execBlock hcall fuel onTrue htrue frame)
          (stable.execBlock hcall fuel onFalse hfalse frame)
  | .loop _ cond body, excused, frame => by
    unfold Scope.stmt at excused
    obtain ⟨hcond, hbody⟩ := excused_append.mp excused
    unfold Resumable.exec
    refine stable.ordinary.repeatWhile (fun frame => ?_)
      (fun frame => stable.execBlock hcall fuel body hbody frame) fuel frame
    exact upholds_bind (stable.eval hcall frame cond hcond) fun _ =>
      stable.ordinary.require rfl _
  | .breakLoop _, _, frame | .continueLoop _, _, frame => by
    unfold Resumable.exec
    exact upholds_pure _
  | .ret _ value, excused, frame => by
    unfold Resumable.exec
    exact upholds_bind (stable.eval? hcall frame excused) fun _ => upholds_pure _
  | .setState _ state, _, frame => by
    unfold Resumable.exec
    exact upholds_bind (stable.writeSlot (stable.fixed_slot (by simp)) _) fun _ =>
      upholds_pure _
  | .schedule _ target timing, excused, frame => by
    unfold Scope.stmt at excused
    obtain ⟨htarget, htiming⟩ := excused_append.mp excused
    unfold Resumable.exec
    exact ownDispatch (own_of_excused htarget)
      (upholds_bind (stable.dueOf hcall frame htiming) fun due =>
      upholds_bind (stable.modify (.callBack · due) fun _ => rfl) fun _ => upholds_pure _)
  | .invoke _ target, excused, frame => by
    unfold Resumable.exec
    exact ownDispatch (own_of_excused excused)
      (upholds_bind (hcall _ []) fun _ => upholds_pure _)
  | .finish _ status value, excused, frame => by
    unfold Resumable.exec
    exact upholds_bind (stable.eval? hcall frame excused) fun v =>
      upholds_bind (stable.finish status v) fun _ => upholds_pure _
  | .returnTask _, _, frame => by
    unfold Resumable.exec
    exact upholds_bind stable.storage fun _ => upholds_pure _
  | .switch _ slot arms, excused, frame => by
    unfold Scope.stmt at excused
    obtain ⟨hslot, harms⟩ := excused_append.mp excused
    unfold Resumable.exec
    exact upholds_bind (stable.readSlot hslot) fun _ =>
      upholds_bind (stable.ordinary.require rfl _) fun state =>
      stable.execArm hcall fuel arms harms state frame
  | .unresolved _, excused, _ => by
    unfold Resumable.exec
    exact upholds_throw (excused_singleton.mp excused _)

/-- **Running statements** in order does, too. -/
theorem execBlock (stable : Stable site I E)
    (hcall : ∀ index args, Upholds I E (call index site.owner args)) (fuel : Nat) :
    (stmts : List Stmt) → Excused I E (site.machine.scope.block stmts) → (frame : Frame) →
      Upholds I E (execBlock site call fuel stmts frame)
  | [], _, frame => by
    unfold Resumable.execBlock
    exact upholds_pure _
  | x :: rest, excused, frame => by
    unfold Scope.block at excused
    obtain ⟨hfirst, hrest⟩ := excused_append.mp excused
    unfold Resumable.execBlock
    refine upholds_bind (stable.exec hcall fuel x hfirst frame) fun y => ?_
    obtain ⟨flow, frame⟩ := y
    cases flow with
    | next => exact stable.execBlock hcall fuel rest hrest frame
    | breakLoop | continueLoop | ret | finished => exact upholds_pure _

theorem execArm (stable : Stable site I E)
    (hcall : ∀ index args, Upholds I E (call index site.owner args)) (fuel : Nat) :
    (arms : List Machine.Arm) → Excused I E (site.machine.scope.arms arms) → (state : Int64) →
      (frame : Frame) → Upholds I E (execArm site call fuel arms state frame)
  | [], _, _, frame => by
    unfold Resumable.execArm
    exact upholds_pure _
  | .mk value body :: rest, excused, state, frame => by
    unfold Scope.arms at excused
    obtain ⟨hbody, hrest⟩ := excused_append.mp excused
    unfold Resumable.execArm
    exact upholds_ite (stable.execBlock hcall fuel body hbody frame)
      (stable.execArm hcall fuel rest hrest state frame)

end

end Stable

/-! ### Procedures, closures and requests -/

/-- Run the code of a procedure, with a way to call others. -/
def runBody (image : Image) (fuel : Nat) (call : Caller) : Caller :=
  fun index owner args => do
  let (position, program, role) ←
    Run.require (.unknownProcedure s!"ProcIndex({index})") (image.proc? index)
  let (body, arity) := program.code role
  if args.length = arity then
    let site : Site := ⟨image, position, program, owner⟩
    if role = .entry then startActivation site
    let (flow, _) ← execBlock site call fuel body ⟨args, .empty⟩
    returned flow
  else Run.fail (.arityMismatch program.name arity args.length)

/-- **Running the code of a procedure**, where calls on the same instance
are taken care of. -/
theorem upholds_runBody (ordinary : Ordinary I E)
    (hcall : ∀ index args, Upholds I E (call index owner args)) {index : ProcIndex}
    (stable : ∀ {k program role}, image.programs[k]? = some program →
      index = procIndex k role → Stable ⟨image, k, program, owner⟩ I E)
    (args : List Value) : Upholds I E (runBody image fuel call index owner args) := by
  intro s r s' hend hs
  rcases ends_bind.mp hend with ⟨halt, hhalt, rfl⟩ | ⟨⟨k, program, role⟩, mid, hproc, hrun⟩
  · have hstop := ordinary.require rfl (image.proc? index) hhalt hs
    exact hstop
  · obtain ⟨hfound, rfl⟩ := Run.returns_require.mp hproc
    obtain ⟨loaded, hindex⟩ := procIndex_of_proc? hfound
    have stable := stable loaded hindex
    have excused := stable.machine
    unfold Machine.violations Machine.entryViolations Machine.dispatchViolations at excused
    simp only [excused_append] at excused
    obtain ⟨⟨-, -, hentry⟩, hdispatch, -⟩ := excused
    have hbody : ∀ body, Excused I E (program.machine.scope.block body) →
        Upholds I E (execBlock ⟨image, k, program, owner⟩ call fuel body ⟨args, .empty⟩ >>=
          fun x => returned x.1) :=
      fun body hbody => upholds_bind (stable.execBlock hcall fuel body hbody _) fun _ =>
        ordinary.returned _
    cases role with
    | dispatch => exact upholds_ite (hbody _ hdispatch) (ordinary.fail rfl) hrun hs
    | entry =>
      exact upholds_ite (upholds_bind stable.startActivation fun _ => hbody _ hentry)
        (ordinary.fail rfl) hrun hs

/-- **Calling a procedure**, by induction on the depth of calls. -/
theorem upholds_runProcedure (ordinary : Ordinary I E)
    (stable : ∀ {k program}, image.programs[k]? = some program →
      Stable ⟨image, k, program, owner⟩ I E)
    (fuel : Nat) (index : ProcIndex) (args : List Value) :
    Upholds I E (runProcedure image fuel index owner args) := by
  induction fuel generalizing index args with
  | zero => exact upholds_throw fun _ => ordinary rfl
  | succ fuel ih => exact upholds_runBody ordinary ih (fun loaded _ => stable loaded) args

/-- **Wherever code of an image runs**, each act of it upholds a property, and so does
completing a task. -/
structure Upheld (image : Image) (I : HostState → Prop)
    (E : Halt → HostState → Prop) : Prop where
  ordinary : Ordinary I E
  sites : ∀ {k : Nat} {program : Program} (owner : InstanceId),
    image.programs[k]? = some program →
    Stable ⟨image, k, program, owner⟩ I E
  closures : ∀ {s : HostState} {id : ClosureId} {c : Closure},
    s.closures[id]? = some c → I s →
    (∃ program, image.programs[c.program]? = some program ∧
      Excused I E (program.machine.scope.block c.body)) ∨
      Lax I E
  completes : ∀ {s : HostState} (task : TaskId), I s →
    I { s with tasks := s.tasks.completeScheduled task }

namespace Upheld

theorem runProcedure (h : Upheld image I E) (fuel : Nat) (index : ProcIndex)
    (owner : InstanceId) (args : List Value) :
    Upholds I E (runProcedure image fuel index owner args) :=
  upholds_runProcedure h.ordinary (h.sites owner) fuel index args

/-- **Calling a closure.** -/
theorem runClosure (h : Upheld image I E) (fuel : Nat) (id : ClosureId) :
    Upholds I E (runClosure image fuel id) := by
  intro s r s' hend hs
  unfold Resumable.runClosure at hend
  rw [ends_get_bind] at hend
  cases hc : s.closures[id]? with
  | none =>
    rw [hc] at hend
    exact h.ordinary.fail rfl hend hs
  | some c =>
    have hclosure := h.closures hc hs
    cases loaded : image.programs[c.program]? with
    | none =>
      simp only [hc, loaded] at hend
      rcases hclosure with ⟨program, hprogram, -⟩ | lax
      · rw [loaded] at hprogram
        cases hprogram
      · exact upholds_throw (lax _) hend hs
    | some program =>
      simp only [hc, loaded] at hend
      have excused : Excused I E (program.machine.scope.block c.body) := by
        rcases hclosure with ⟨program', hprogram, excused⟩ | lax
        · obtain rfl : program = program' := Option.some.inj (loaded.symm.trans hprogram)
          exact excused
        · exact fun _ _ => lax
      exact upholds_bind ((h.sites c.owner loaded).execBlock
        (fun index => h.runProcedure fuel index c.owner) fuel
        c.body excused _) (fun _ => h.ordinary.returned _) hend hs

/-- **Performing the action of a request.** -/
theorem perform (h : Upheld image I E) (fuel : Nat) (action : Action) :
    Upholds I E (perform image fuel action) := by
  cases action with
  | resume handle => exact upholds_bind (h.runProcedure fuel _ _ _) fun _ => upholds_pure _
  | complete task => exact upholds_modify fun _ => h.completes task

end Upheld

/-! ### Commands -/

/-- A host with the given machines, whose state has a property. -/
def Host.On (image : Image) (P : HostState → Prop) (host : Host) : Prop :=
  host.image = image ∧ P host.state

/-- A run on the machines of a host upholds what it does on their state. -/
theorem Host.upholds_run {action : Image → Run α} (h : Upholds I E (action image)) :
    Upholds (Host.On image I) (fun halt => Host.On image (E halt)) (Host.run action) := by
  rintro ⟨_, s⟩ r host' hend ⟨rfl, hs⟩
  cases hrun : (show Except Halt α × HostState from action _ s) with
  | mk r₀ s' =>
    have hpair : ((action _ s).1, Host.mk _ (action _ s).2) = (r, host') := hend
    have hlanded := h hrun hs
    rw [show action _ s = (r₀, s') from hrun] at hpair
    obtain ⟨rfl, rfl⟩ := Prod.mk.inj hpair
    cases r₀ with
    | ok a => exact ⟨rfl, hlanded⟩
    | error halt => exact ⟨rfl, hlanded⟩

/-- Does the command run code? -/
def Command.runsCode : Command → Bool
  | .call .. | .resume _ | .callClosure _ | .advanceFrame | .advanceSeconds
    _ | .firePending _ | .fireTimers
  | .runUntilIdle => true
  | .load _ | .spawn | .register .. | .newToken | .cancel _ | .setField .. => false

theorem Upheld.resolve (h : Upheld image I E) (procedure : String) :
    Upholds (Host.On image I) (fun halt => Host.On image (E halt))
      (Host.look fun host => host.image.resolve procedure) := by
  rintro ⟨_, s⟩ r host' hend ⟨rfl, hs⟩
  unfold Host.look Image.resolve Ends at hend
  dsimp only at hend
  split at hend
  case h_1 =>
    obtain ⟨rfl, rfl⟩ := Prod.mk.inj hend
    exact ⟨rfl, hs⟩
  case h_2 why hresolve =>
    obtain ⟨rfl, rfl⟩ := Prod.mk.inj hend
    refine ⟨rfl, h.ordinary ?_ hs⟩
    split at hresolve
    · cases hresolve
    · rw [← Except.error.inj hresolve]
      rfl

/-- **Commands that run code** uphold what code and requests do. -/
theorem Upheld.reply (h : Upheld image I E) (serves : Serves image fuel I E)
    {command : Command} (runs : command.runsCode) :
    Upholds (Host.On image I) (fun halt => Host.On image (E halt)) (command.reply fuel) := by
  cases command with
  | load | spawn | register | newToken | cancel | setField => cases runs
  | call owner procedure args =>
    refine upholds_bind ?_ fun _ => upholds_pure _
    refine upholds_bind (h.resolve procedure) fun index => Host.upholds_run ?_
    exact upholds_bind (h.ordinary.theInstance owner) fun _ =>
      upholds_bind (h.runProcedure fuel index owner args) fun _ =>
        upholds_bind serves.settle fun _ => upholds_pure _
  | resume handle =>
    refine upholds_bind (Host.upholds_run ?_) fun _ => upholds_pure _
    exact upholds_bind (h.perform fuel _) fun _ => serves.settle
  | callClosure closure =>
    refine upholds_bind (Host.upholds_run ?_) fun _ => upholds_pure _
    cases closure with
    | closure id =>
      exact upholds_bind (h.runClosure fuel id) fun _ => upholds_bind serves.settle fun _ =>
        upholds_pure _
    | _ => exact h.ordinary.fail rfl
  | advanceFrame =>
    exact upholds_bind (Host.upholds_run serves.advanceFrame) fun _ => upholds_pure _
  | advanceSeconds seconds =>
    exact upholds_bind (Host.upholds_run (serves.advanceSeconds seconds)) fun _ =>
      upholds_pure _
  | firePending index =>
    exact upholds_bind (Host.upholds_run (serves.firePending index)) fun _ => upholds_pure _
  | fireTimers =>
    exact upholds_bind (Host.upholds_run serves.fireTimers) fun _ => upholds_pure _
  | runUntilIdle =>
    exact upholds_bind (Host.upholds_run serves.runUntilIdle) fun _ => upholds_pure _

end Resumable
