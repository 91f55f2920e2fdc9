import Resumable.Proofs.Upholding

/-!
# Runs of a host, event by event

A host that is driven by calls and by the clock runs code for two reasons only: a procedure is
called from outside, or a request is fired.  This module tells such a run as the list of these
**events**, with the states between which each of them leads, cut into **strides**: a stride
begins with a call or a move of the clock and goes on until there is nothing left to fire.

Statements about one activation have to say that its procedures are called by nobody else,
however deep in the code of others the call would be.  `Event.Apart` says this by a run that
is not allowed to make such calls: it does the same.

## Main definitions

* `Event`: a call or the firing of a request.
* `Drains image fuel select s events s'`: requests are selected and fired until none is left.
* `Stride.Goes`, `Walk`: one stride, and strides in turn.
* `Site.runWithout`: calling a procedure where the entry and the dispatch of the site
  may not be called.
* `Event.Apart site`: the event calls neither.

## Main statements

* `Event.apart_of_owner`: what happens on another instance keeps away from the site.
* `drains_of_drain`: a loop that selects requests and returns has fired them one by one.
* `walk_of_performAll`: so commands that are accepted are a walk.
-/

namespace Resumable

variable {image : Image} {s s' : HostState} {host host' : Host}

/-! ### Events -/

/-- Why a host runs code. -/
inductive Cause where
  | call (index : ProcIndex) (owner : InstanceId) (args : List Value)
  | fire (r : Request)

/-- What is run, given how procedures are called. -/
def Cause.run (call : Caller) : Cause → Run Unit
  | .call index owner args => do let _ ← call index owner args
  | .fire ⟨_, _, .resume handle⟩ => do let _ ← call handle.procedure handle.owner []
  | .fire ⟨_, _, .complete task⟩ =>
    modify fun s => { s with tasks := s.tasks.completeScheduled task }

/-- **One thing that happens to a host**: code is run, which leads from
one state to another. -/
structure Event where
  before : HostState
  cause : Cause
  after : HostState

/-- Requests are selected and fired until none is left. -/
inductive Drains (image : Image) (fuel : Nat)
    (select : HostState → Option (Request × HostState)) :
    HostState → List Event → HostState → Prop where
  | rest {s : HostState} (nothing : select s = none) : Drains image fuel select s [] s
  | fire {s u t s' : HostState} {r : Request} {events : List Event}
    (selected : select s = some (r, u))
    (fires : Returns (perform image fuel r.action) u () t)
      (rest : Drains image fuel select t events s') :
    Drains image fuel select s (⟨u, .fire r, t⟩ :: events) s'

/-- What begins a stride: a call from outside, the next frame, time that
passes, or nothing. -/
inductive Impulse where
  | call (index : ProcIndex) (owner : InstanceId) (args : List Value)
  | frame
  | seconds (passed : Float)
  | rest

/-- What happens from an impulse on until nothing is left to fire, with the bound on the depth
of calls and the length of loops. -/
structure Stride where
  fuel : Nat
  impulse : Impulse
  events : List Event

/-- **How a stride goes.**  After a call only what waits for tasks is fired, and otherwise the
timers as well. -/
inductive Stride.Goes (image : Image) : Stride → HostState → HostState → Prop where
  | call {fuel : Nat} {index : ProcIndex} {owner : InstanceId} {args : List Value}
    {v : Value} {s t s' : HostState}
    {events : List Event} (runs : Returns (runProcedure image fuel index owner args) s v t)
    (drains : Drains image fuel HostState.takeReady? t events s') :
    Stride.Goes image ⟨fuel, .call index owner args,
      ⟨s, .call index owner args, t⟩ :: events⟩ s s'
  | frame {fuel : Nat} {s s' : HostState} {events : List Event}
    (drains : Drains image fuel HostState.takeDue?
      { s with scheduler := s.scheduler.advanceFrame } events s') :
    Stride.Goes image ⟨fuel, .frame, events⟩ s s'
  | seconds {fuel : Nat} (passed : Float) {s s' : HostState} {events : List Event}
    (drains : Drains image fuel HostState.takeDue?
      { s with scheduler := s.scheduler.advanceSeconds passed } events s') :
    Stride.Goes image ⟨fuel, .seconds passed, events⟩ s s'
  | rest {fuel : Nat} {s s' : HostState} {events : List Event}
    (drains : Drains image fuel HostState.takeDue? s events s') :
      Stride.Goes image ⟨fuel, .rest, events⟩ s s'

/-- **Strides in turn.** -/
inductive Walk (image : Image) : HostState → List Stride → HostState → Prop where
  | done (s : HostState) : Walk image s [] s
  | step {s t s' : HostState} {stride : Stride} {strides : List Stride}
    (goes : stride.Goes image s t)
    (rest : Walk image t strides s') : Walk image s (stride :: strides) s'

/-! ### Code calls on its own instance -/

/-- Do callers do the same on an instance? -/
def AgreeOnOwner (owner : InstanceId) (call call' : Caller) : Prop :=
  ∀ index args, call index owner args = call' index owner args

section

variable {site : Site} {call call' : Caller}

mutual

/-- **An expression calls on its own instance only**: what callers do on
others does not matter. -/
theorem eval_congr (h : AgreeOnOwner site.owner call call') (frame : Frame) :
    (x : Machine.Expr) → eval site call frame x = eval site call' frame x
  | .int .. | .float .. | .bool .. | .str .. | .unit .. | .localVar .. | .param .. | .field ..
  | .slot .. | .lambda .. | .tasksDone .. | .taskValue .. | .cancelRequested .. | .error ..
  | .absent => by simp only [eval]
  | .binary _ op left right => by
    cases op <;> simp only [eval, eval_congr h frame left, eval_congr h frame right]
  | .unary _ _ operand => by simp only [eval, eval_congr h frame operand]
  | .call _ target args => by
    have htarget (values : List Value) :
        callTarget site call target values = callTarget site call' target values := by
      unfold callTarget
      simp only [h _ values]
    simp only [eval, evalArgs_congr h frame args, htarget]

theorem evalArgs_congr (h : AgreeOnOwner site.owner call call') (frame : Frame) :
    (args : List Machine.Expr) →
      evalArgs site call frame args = evalArgs site call' frame args
  | [] => by simp only [evalArgs]
  | x :: rest => by simp only [evalArgs, eval_congr h frame x, evalArgs_congr h frame rest]

end

mutual

/-- **So does a statement.** -/
theorem exec_congr (h : AgreeOnOwner site.owner call call') (fuel : Nat) :
    (x : Machine.Stmt) → (frame : Frame) →
      exec site call fuel x frame = exec site call' fuel x frame
  | .expr _ e, frame | .assign _ _ e, frame => by simp only [exec, eval_congr h frame e]
  | .bind _ _ e, frame | .ret _ e, frame | .finish _ _ e, frame => by
    simp only [exec, eval?, eval_congr h frame e]
  | .branch _ cond onTrue onFalse, frame => by
    simp only [exec, eval_congr h frame cond, execBlock_congr h fuel onTrue,
      execBlock_congr h fuel onFalse]
  | .loop _ cond body, frame => by
    simp only [exec, eval_congr h _ cond, funext (execBlock_congr h fuel body)]
  | .schedule _ _ timing, frame => by
    cases timing <;> simp only [exec, dueOf, eval_congr h]
  | .invoke .., frame => by simp only [exec, h _ []]
  | .switch _ _ arms, frame => by simp only [exec, execArm_congr h fuel arms]
  | .breakLoop _, _ | .continueLoop _, _ | .setState .., _ | .returnTask _, _
  | .unresolved _, _ => by simp only [exec]

theorem execBlock_congr (h : AgreeOnOwner site.owner call call') (fuel : Nat) :
    (stmts : List Machine.Stmt) → (frame : Frame) →
      execBlock site call fuel stmts frame = execBlock site call' fuel stmts frame
  | [], _ => by simp only [execBlock]
  | x :: rest, frame => by
    simp only [execBlock, exec_congr h fuel x, execBlock_congr h fuel rest]

theorem execArm_congr (h : AgreeOnOwner site.owner call call') (fuel : Nat) :
    (arms : List Machine.Arm) → (state : Int64) → (frame : Frame) →
      execArm site call fuel arms state frame = execArm site call' fuel arms state frame
  | [], _, _ => by simp only [execArm]
  | .mk _ body :: rest, state, frame => by
    simp only [execArm, execBlock_congr h fuel body, execArm_congr h fuel rest]

end

theorem runBody_congr {owner : InstanceId} (h : AgreeOnOwner owner call call') (fuel : Nat) :
    AgreeOnOwner owner (runBody image fuel call) (runBody image fuel call') := by
  intro index args
  unfold runBody
  have hblock (position : Nat) (program : Program) :=
    @execBlock_congr ⟨image, position, program, owner⟩ call call' h fuel
  simp only [hblock]

end

/-! ### Calls that may not be made -/

/-- Calling a procedure, where the entry and the dispatch of the site may not be
called on its instance. -/
def Site.runWithout (site : Site) : Nat → Caller
  | 0 => fun _ _ _ => throw .outOfFuel
  | fuel + 1 => fun index owner args =>
    if owner = site.owner ∧ (index = procIndex site.index .entry ∨
      index = procIndex site.index .dispatch) then
      throw .absentNode
    else runBody site.image fuel (site.runWithout fuel) index owner args

/-- **The event calls neither the entry nor the dispatch of the site** on its instance:
without them it would have been the same. -/
def Event.Apart (site : Site) (e : Event) : Prop :=
  ∃ fuel, Returns (e.cause.run (site.runWithout fuel)) e.before () e.after

/-- **On other instances nothing is forbidden.** -/
theorem Site.runWithout_eq (site : Site) {owner : InstanceId} (other : owner ≠ site.owner)
    (fuel : Nat) :
    AgreeOnOwner owner (site.runWithout fuel) (runProcedure site.image fuel) := by
  induction fuel with
  | zero => exact fun _ _ => rfl
  | succ fuel ih =>
    intro index args
    unfold Site.runWithout
    rw [if_neg fun h => other h.1]
    exact runBody_congr ih fuel index args

/-- The instance on which an event calls a procedure. -/
def Cause.owner? : Cause → Option InstanceId
  | .call _ owner _ | .fire ⟨_, _, .resume ⟨owner, _⟩⟩ => some owner
  | .fire ⟨_, _, .complete _⟩ => none

theorem Cause.run_congr {call call' : Caller} {cause : Cause}
    (h : ∀ owner, cause.owner? = some owner → AgreeOnOwner owner call call') :
    cause.run call = cause.run call' := by
  cases cause with
  | call index owner args => simp only [Cause.run, h owner rfl index args]
  | fire r =>
    obtain ⟨seq, due, action⟩ := r
    cases action with
    | complete task => rfl
    | resume handle => simp only [Cause.run, h handle.owner rfl handle.procedure []]

/-- **What happens on another instance keeps away from the site.** -/
theorem Event.apart_of_owner {site : Site} {fuel : Nat} {e : Event}
    (runs : Returns (e.cause.run (runProcedure site.image fuel)) e.before () e.after)
    (other : e.cause.owner? ≠ some site.owner) : e.Apart site := by
  have hsame : e.cause.run (site.runWithout fuel) =
    e.cause.run (runProcedure site.image fuel) :=
    Cause.run_congr fun owner howner =>
      site.runWithout_eq (fun heq => other (heq ▸ howner)) fuel
  exact ⟨fuel, hsame ▸ runs⟩

/-- **What code of other sites upholds** is upheld by calls that keep away from the site. -/
theorem upholds_runWithout (site : Site) {I : HostState → Prop}
    {E : Halt → HostState → Prop} (lax : Lax I E)
    (stable : ∀ {k program owner}, ¬ (owner = site.owner ∧ k = site.index) →
      Stable ⟨site.image, k, program, owner⟩ I E)
    (fuel : Nat) (index : ProcIndex) (owner : InstanceId) (args : List Value) :
    Upholds I E (site.runWithout fuel index owner args) := by
  induction fuel generalizing index args with
  | zero => exact upholds_throw (lax _)
  | succ fuel ih =>
    unfold Site.runWithout
    split
    case isTrue => exact upholds_throw (lax _)
    case isFalse hallowed =>
      refine upholds_runBody (fun _ _ _ => lax _ _) ih
        (fun {k program role} _ hindex => stable fun hown => ?_) args
      obtain ⟨howner, rfl⟩ := hown
      cases role with
      | entry => exact hallowed ⟨howner, Or.inl hindex⟩
      | dispatch => exact hallowed ⟨howner, Or.inr hindex⟩

/-! ### Commands -/

section

variable {fuel n : Nat} {select : HostState → Option (Request × HostState)}

/-- **Draining**, by induction on the budget: what is missing of the budget was fired. -/
theorem drains_of_drain {budget left : Nat}
    (h : Returns (drain image fuel select budget) s left s') :
    ∃ events, Drains image fuel select s events s' ∧ events.length + left = budget := by
  induction budget generalizing s with
  | zero =>
    unfold drain at h
    have h := ends_get_bind.mp h
    cases hselected : select s with
    | none =>
      rw [hselected] at h
      obtain ⟨rfl, rfl⟩ := returns_pure.mp h
      exact ⟨[], .rest hselected, rfl⟩
    | some taken =>
      rw [hselected] at h
      cases (ends_runaway.mp (ends_set_bind.mp h)).1
  | succ budget ih =>
    unfold drain at h
    have h := ends_get_bind.mp h
    cases hselected : select s with
    | none =>
      rw [hselected] at h
      obtain ⟨rfl, rfl⟩ := returns_pure.mp h
      exact ⟨[], .rest hselected, Nat.zero_add _⟩
    | some taken =>
      obtain ⟨r, u⟩ := taken
      rw [hselected] at h
      obtain ⟨_, t, fires, hdrain⟩ := returns_bind.mp (ends_set_bind.mp h)
      obtain ⟨events, drains, hcount⟩ := ih hdrain
      exact ⟨_, .fire hselected fires drains, by rw [List.length_cons]; omega⟩

theorem drains_of_fireDue (h : Returns (fireDue image fuel) s n s') :
    ∃ events, Drains image fuel HostState.takeDue? s events s' := by
  obtain ⟨left, hdrain, -⟩ := returns_bind_pure.mp (ends_get_bind.mp h)
  obtain ⟨events, drains, -⟩ := drains_of_drain hdrain
  exact ⟨events, drains⟩

theorem goes_of_advanceFrame (h : Returns (advanceFrame image fuel) s n s') :
    ∃ events, Stride.Goes image ⟨fuel, .frame, events⟩ s s' := by
  obtain ⟨events, drains⟩ := drains_of_fireDue (ends_modify_bind.mp h)
  exact ⟨events, .frame drains⟩

/-- **Advancing frame by frame**, by induction on the frames that are left. -/
theorem walk_of_advanceUntilIdle {frames before : Nat}
    (h : Returns (advanceUntilIdle image fuel frames before) s n s') :
    ∃ strides count, Walk image s strides s' ∧
      strides.map Stride.impulse = List.replicate count .frame ∧
      ∀ stride ∈ strides, stride.fuel = fuel := by
  induction frames generalizing s before with
  | zero =>
    unfold advanceUntilIdle at h
    have h := ends_get_bind.mp h
    rcases returns_ite.mp h with ⟨-, hfail⟩ | ⟨-, hpure⟩
    · exact (Run.not_returns_fail hfail).elim
    · obtain ⟨-, rfl⟩ := returns_pure.mp hpure
      exact ⟨[], 0, .done _, rfl, fun _ h => absurd h List.not_mem_nil⟩
  | succ frames ih =>
    unfold advanceUntilIdle at h
    have h := ends_get_bind.mp h
    rcases returns_ite.mp h with ⟨-, hadvance⟩ | ⟨-, hpure⟩
    · obtain ⟨count, t, hframe, hrest⟩ := returns_bind.mp hadvance
      obtain ⟨events, goes⟩ := goes_of_advanceFrame hframe
      obtain ⟨strides, count, walk, himpulses, hfuel⟩ := ih hrest
      exact ⟨_, count + 1, .step goes walk, congrArg (Impulse.frame :: ·) himpulses,
        List.forall_mem_cons.mpr ⟨rfl, hfuel⟩⟩
    · obtain ⟨-, rfl⟩ := returns_pure.mp hpure
      exact ⟨[], 0, .done _, rfl, fun _ h => absurd h List.not_mem_nil⟩

end

/-- The impulses of the commands that call a procedure or move the clock. -/
def Command.Impulses (image : Image) : Command → List Impulse → Prop
  | .call owner name args, impulses =>
    ∃ index, image.resolve name = .ok index ∧ impulses = [.call index owner args]
  | .advanceFrame, impulses => impulses = [.frame]
  | .advanceSeconds passed, impulses => impulses = [.seconds passed]
  | .runUntilIdle, impulses => ∃ count, impulses = .rest :: List.replicate count .frame
  | _, _ => False

/-- The strides are those of the command, with its bound. -/
def Strode (image : Image) (command : Nat × Command) (strides : List Stride) : Prop :=
  command.2.Impulses image (strides.map Stride.impulse) ∧
    ∀ stride ∈ strides, stride.fuel = command.1

/-- Does the command call a procedure or move the clock? -/
def Command.drives : Command → Bool
  | .call .. | .advanceFrame | .advanceSeconds _ | .runUntilIdle => true
  | _ => false

/-- Performing a command is a walk, a stride at a time. -/
theorem walk_of_perform {fuel : Nat} {command : Command} (drives : command.drives)
    (h : Returns (command.perform fuel) host () host') :
    host'.image = host.image ∧ ∃ strides,
      Walk host.image host.state strides host'.state ∧
      Strode host.image (fuel, command) strides := by
  cases command with
  | call owner name args =>
    obtain ⟨_, hcall, -⟩ := returns_bind_pure.mp h
    obtain ⟨index, _, hlook, hrun⟩ := returns_bind.mp hcall
    obtain ⟨hindex, rfl⟩ := Host.returns_look.mp hlook
    obtain ⟨s', hcode, rfl⟩ := Host.returns_run.mp hrun
    obtain ⟨_, _, hinstance, hcode⟩ := returns_bind.mp hcode
    obtain ⟨-, rfl⟩ := Run.returns_theInstance.mp hinstance
    obtain ⟨v, t, hprocedure, hrest⟩ := returns_bind.mp hcode
    obtain ⟨_, hsettle, -⟩ := returns_bind_pure.mp hrest
    obtain ⟨_, hdrain, -⟩ := returns_bind_pure.mp (ends_get_bind.mp hsettle)
    obtain ⟨events, drains, -⟩ := drains_of_drain hdrain
    exact ⟨rfl, _, .step (.call hprocedure drains) (.done _), ⟨index, hindex, rfl⟩,
      List.forall_mem_singleton.mpr rfl⟩
  | advanceFrame =>
    obtain ⟨_, hrun, -⟩ := returns_bind_pure.mp h
    obtain ⟨s', hcode, rfl⟩ := Host.returns_run.mp hrun
    obtain ⟨events, goes⟩ := goes_of_advanceFrame hcode
    exact ⟨rfl, _, .step goes (.done _), rfl, List.forall_mem_singleton.mpr rfl⟩
  | advanceSeconds passed =>
    obtain ⟨_, hrun, -⟩ := returns_bind_pure.mp h
    obtain ⟨s', hcode, rfl⟩ := Host.returns_run.mp hrun
    obtain ⟨events, drains⟩ := drains_of_fireDue (ends_modify_bind.mp hcode)
    exact ⟨rfl, _, .step (.seconds passed drains) (.done _), rfl,
      List.forall_mem_singleton.mpr rfl⟩
  | runUntilIdle =>
    obtain ⟨_, hrun, -⟩ := returns_bind_pure.mp h
    obtain ⟨s', hcode, rfl⟩ := Host.returns_run.mp hrun
    obtain ⟨_, t, hdue, hrest⟩ := returns_bind.mp hcode
    obtain ⟨events, drains⟩ := drains_of_fireDue hdue
    obtain ⟨strides, count, walk, himpulses, hfuel⟩ := walk_of_advanceUntilIdle hrest
    exact ⟨rfl, _, .step (.rest drains) walk, ⟨count, congrArg (Impulse.rest :: ·) himpulses⟩,
      List.forall_mem_cons.mpr ⟨rfl, hfuel⟩⟩
  | load | spawn | register | resume | callClosure | newToken | cancel | setField
  | firePending | fireTimers => cases drives

theorem Walk.trans {t : HostState} {strides more : List Stride} (h : Walk image s strides t)
    (h' : Walk image t more s') : Walk image s (strides ++ more) s' := by
  induction h with
  | done => exact h'
  | step goes _ ih => exact .step goes (ih h')

/-- **Commands that are accepted are a walk**, with the strides of each command in turn. -/
theorem walk_of_performAll {commands : List (Nat × Command)}
    (drives : ∀ c ∈ commands, c.2.drives)
    (h : Returns (Host.performAll commands) host () host') : ∃ parts : List (List Stride),
      Walk host.image host.state parts.flatten host'.state ∧
      List.Forall₂ (Strode host.image) commands parts := by
  induction commands generalizing host with
  | nil =>
    obtain ⟨-, rfl⟩ := returns_pure.mp h
    exact ⟨[], .done _, .nil⟩
  | cons c rest ih =>
    obtain ⟨hc, hrest⟩ := List.forall_mem_cons.mp drives
    obtain ⟨_, mid, hfirst, hlater⟩ := returns_bind.mp h
    obtain ⟨himage, strides, walk, hstrode⟩ := walk_of_perform hc hfirst
    obtain ⟨parts, walk', hparts⟩ := ih hrest hlater
    rw [himage] at walk' hparts
    exact ⟨strides :: parts, walk.trans walk', .cons hstrode hparts⟩

end Resumable
