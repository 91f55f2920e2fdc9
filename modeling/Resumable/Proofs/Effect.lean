import Mathlib.Logic.Relation
import Resumable.Proofs.PlainCode

/-!
# What plain code does

**Each effect of plain code is one of seven.**  It makes a task with the request that
completes it, has a registered function answer, writes a line of the log, makes a closure,
writes a field of its instance, writes a slot it may write, or calls a procedure.  Everything
that running plain code preserves follows from what these preserve.

## Main definitions

* `Consults`: the relations that hold of what a call of the host does.
* `Effect`: one effect; `Effects`: any number of them in turn.
* `Leaves`: how a run of statements leaves: having had effects only, or having
  finished after them.
* `Kept`: what code that calls no procedure leaves alone.

## Main statements

* `eval_within`: evaluating a plain expression has effects only.
* `execBlock_leaves`: plain statements have effects, up to a finish of the activation.
* `Effects.kept`: effects without calls of procedures change neither the state, the status,
  the clock nor the outstanding call backs.
-/

namespace Resumable

open Resumable.Machine (Expr PlainBlock SlotId Stmt)

variable {a b c s s' : HostState} {α : Type}

/-! ### Calls of the host -/

/-- The state after a registered function was called. -/
def HostState.consult (s : HostState) (registered : Registration)
    (call : HostCall) : HostState :=
  { s with
    calls := s.calls.push call
    functions := s.functions.insert call.function
      { registered with earlier := call :: registered.earlier } }

/-- A relation, closed under sequencing, that holds of **what a call of the host does**: it
makes a task with the request that completes it, has a registered function answer, or writes a
line of the log. -/
structure Consults (owner : InstanceId) (R : HostState → HostState → Prop) : Prop where
  refl : ∀ s, R s s
  trans : ∀ {a b c}, R a b → R b c → R a c
  task : ∀ (s : HostState) (kind : TaskKind) (due : Due), kind ≠ .activation →
    R s { s with
      tasks := s.tasks.push ⟨.pending, kind⟩
      scheduler := s.scheduler.submit due (.complete s.tasks.size) }
  answer : ∀ {s : HostState} {function : Name} {registered : Registration}
    (args : List Value), s.functions.get? function = some registered →
    R s (s.consult registered ⟨function, owner, args⟩)
  log : ∀ (s : HostState) (message : String), R s
    { s with log := s.log.push ⟨owner, message⟩ }

namespace Consults

variable {e : Ending} {owner : InstanceId} {R : HostState → HostState → Prop}
  (h : Consults owner R)

include h

theorem scheduledTask {kind : TaskKind} (due : Due) (hkind : kind ≠ .activation) :
    Within e R (Run.scheduledTask kind due) := by
  intro s r s' hend _
  have heq : s' = _ := (congrArg Prod.snd hend).symm
  rw [heq]
  exact h.task s kind due hkind

/-- Primitives keep within the relation. -/
theorem callPrimitive (which : Primitive) (args : List Value) :
    Within e R (callPrimitive which args) := by
  have silent_mapM : ∀ l : List Value, Silent (l.mapM Run.expectTask) := by
    intro l
    induction l with
    | nil => exact silent_pure _
    | cons v rest ih =>
      rw [List.mapM_cons]
      exact silent_bind (Run.silent_require _ _) fun _ =>
        silent_bind ih fun _ => silent_pure _
  unfold Resumable.callPrimitive
  cases which with
  | delay | delayFrames =>
    exact within_bind h.trans ((Run.silent_require _ _).within h.refl) fun _ =>
      within_bind h.trans (silent_get.within h.refl) fun _ => h.scheduledTask _ (by simp)
  | yield =>
    exact within_bind h.trans (silent_get.within h.refl) fun _ => h.scheduledTask _ (by simp)
  | whenAll | whenAny =>
    exact within_bind h.trans ((silent_mapM args).within h.refl) fun _ =>
      h.scheduledTask _ (by simp)

/-- A function of the host keeps within the relation. -/
theorem callHost (names : NameTable) (function : Name) (args : List Value) :
    Within e R (callHost names owner function args) := by
  intro s r s' hend covered
  unfold Resumable.callHost at hend
  rw [ends_get_bind] at hend
  cases hf : s.functions.get? function with
  | some registered =>
    rw [hf] at hend
    have heq := Run.silent_ofExcept _ (ends_modify_bind.mp hend)
    rw [heq]
    exact h.answer args hf
  | none =>
    rw [hf] at hend
    refine within_ite ?_ ((Run.silent_fail _).within h.refl) hend covered
    exact within_bind h.trans (within_modify fun s => h.log s _) fun _ =>
      (silent_pure _).within h.refl

end Consults

/-! ### Effects -/

/-- One effect of plain code at a site.  A call of a procedure counts with its ends
of the given kind. -/
inductive Effect (e : Ending) (site : Site) (call : Caller) (P : Policy) :
    HostState → HostState → Prop where
  | task (s : HostState) (kind : TaskKind) (due : Due) (notActivation : kind ≠ .activation) :
    Effect e site call P s
      { s with
        tasks := s.tasks.push ⟨.pending, kind⟩
        scheduler := s.scheduler.submit due (.complete s.tasks.size) }
  | answer (s : HostState) (function : Name) (args : List Value) (registered : Registration)
    (found : s.functions.get? function = some registered) :
    Effect e site call P s
      { s with
        calls := s.calls.push ⟨function, site.owner, args⟩
        functions := s.functions.insert function
          { registered with earlier := ⟨function, site.owner, args⟩ :: registered.earlier } }
  | log (s : HostState) (message : String) :
    Effect e site call P s { s with log := s.log.push ⟨site.owner, message⟩ }
  | closure (s : HostState) (frame : Frame) (body : List Stmt)
    (plain : PlainBlock P .closure body) :
    Effect e site call P s
      { s with
        closures :=
          s.closures.push ⟨site.owner, site.index, body, frame.params, frame.locals⟩ }
  | field (s : HostState) (name : Name) (v : Value) :
    Effect e site call P s (s.putField site.owner name v)
  | slot (s : HostState) (st : Storage) (id : SlotId) (v : Value)
    (seen : site.slotsIn s = some st) (writable : P.slots id) :
    Effect e site call P s (site.put s { st with slots := st.slots.set id v })
  | call (s : HostState) (name : Name) (index : ProcIndex) (args : List Value)
    (r : Except Halt Value) (s' : HostState) (allowed : P.targets (.procedure name))
    (found : site.image.procedure? name = some index)
    (ends : Ends (call index site.owner args) s r s') (covered : e.Covers r) :
    Effect e site call P s s'

/-- Any number of effects in turn. -/
def Effects (e : Ending) (site : Site) (call : Caller) (P : Policy) :
    HostState → HostState → Prop :=
  Relation.ReflTransGen (Effect e site call P)

section

variable {e : Ending} {site : Site} {call : Caller} {P : Policy}

theorem Effects.refl (s : HostState) : Effects e site call P s s := Relation.ReflTransGen.refl

theorem Effects.trans (hab : Effects e site call P a b)
    (hbc : Effects e site call P b c) : Effects e site call P a c :=
  Relation.ReflTransGen.trans hab hbc

theorem Effect.effects (h : Effect e site call P a b) :
    Effects e site call P a b := Relation.ReflTransGen.single h

/-- **What each effect preserves, effects preserve.** -/
theorem Effects.invariant {I : HostState → Prop}
    (step : ∀ {a b}, Effect e site call P a b → I a → I b) (h : Effects e site call P a b)
    (ha : I a) : I b := by
  induction h with
  | refl => exact ha
  | tail _ hstep ih => exact step hstep ih

/-! ### Parts of expressions -/

/-- A silent run has only the effects allowed. -/
theorem silent_effects {x : Run α} (hx : Silent x) :
    Within e (Effects e site call P) x := hx.within Effects.refl

/-- Effects add up in sequence. -/
theorem effects_bind {β : Type} {x : Run α} {f : α → Run β}
    (hx : Within e (Effects e site call P) x)
    (hf : ∀ a, Within e (Effects e site call P) (f a)) :
    Within e (Effects e site call P) (x >>= f) :=
  within_bind Effects.trans hx hf

theorem consults_effects : Consults site.owner (Effects e site call P) where
  refl := Effects.refl
  trans := Effects.trans
  task s kind due h := (Effect.task s kind due h).effects
  answer args found := (Effect.answer _ _ args _ found).effects
  log s message := (Effect.log s message).effects

theorem callTarget_within {target : CallTarget} (allowed : P.targets target)
    (args : List Value) :
    Within e (Effects e site call P) (callTarget site call target args) := by
  cases target with
  | primitive which => exact consults_effects.callPrimitive which args
  | host name => exact consults_effects.callHost _ name args
  | procedure name =>
    unfold callTarget
    cases hfound : site.image.procedure? name with
    | none => simpa only [hfound] using silent_effects (Run.silent_fail _)
    | some index =>
      simp only [hfound]
      intro s r s' hend covered
      exact (Effect.call s name index args r s' allowed hfound hend covered).effects

theorem makeClosure_within (frame : Frame) {body : List Stmt}
    (plain : PlainBlock P .closure body) :
    Within e (Effects e site call P) (makeClosure site frame body) := by
  intro s r s' hend _
  unfold makeClosure at hend
  have hpure := ends_modify_bind.mp (ends_get_bind.mp hend)
  rw [silent_pure _ hpure]
  exact (Effect.closure s frame body plain).effects

/-- Asking for cancellation touches nothing. -/
theorem silent_cancelRequested (slot : SlotId) : Silent (cancelRequested site slot) := by
  unfold cancelRequested
  refine silent_bind (Site.silent_readSlot slot) fun v => ?_
  cases v with
  | token id => exact silent_bind silent_get fun _ => silent_pure _
  | unit => exact silent_pure _
  | _ => exact Run.silent_fail _

/-! ### Expressions -/

mutual

/-- **Evaluating a plain expression has effects only.** -/
theorem eval_within (frame : Frame) :
    (x : Expr) → x.Plain P → Within e (Effects e site call P) (eval site call frame x)
  | .int .., _ | .float .., _ | .bool .., _ | .str .., _ | .unit .., _ => by
    unfold eval
    exact silent_effects (silent_pure _)
  | .localVar .., _ | .param .., _ => by
    unfold eval
    exact silent_effects (Run.silent_require _ _)
  | .field .., _ => by
    unfold eval
    exact silent_effects (silent_bind (Run.silent_theInstance _) fun _ =>
      Run.silent_require _ _)
  | .slot .., _ => by
    unfold eval
    exact silent_effects (Site.silent_readSlot _)
  | .binary _ op left right, plain => by
    have hleft := eval_within frame left plain.1
    have hright := eval_within frame right plain.2
    have expect : ∀ v : Value, Within e (Effects e site call P) (Run.expectBool v) :=
      fun v => silent_effects (Run.silent_require _ _)
    cases op
    case and =>
      unfold eval
      exact effects_bind hleft fun a => effects_bind (expect a) fun _ => within_ite
        (effects_bind hright fun b => effects_bind (expect b) fun _ =>
          silent_effects (silent_pure _))
        (silent_effects (silent_pure _))
    case or =>
      unfold eval
      exact effects_bind hleft fun a => effects_bind (expect a) fun _ => within_ite
        (silent_effects (silent_pure _))
        (effects_bind hright fun b => effects_bind (expect b) fun _ =>
          silent_effects (silent_pure _))
    all_goals
      unfold eval
      exact effects_bind hleft fun _ => effects_bind hright fun _ =>
        silent_effects (Run.silent_ofExcept _)
  | .unary _ op operand, plain => by
    unfold eval
    exact effects_bind (eval_within frame operand plain) fun _ =>
      silent_effects (Run.silent_ofExcept _)
  | .call _ target args, plain => by
    unfold eval
    exact effects_bind (evalArgs_within frame args plain.2) fun values =>
      callTarget_within plain.1 values
  | .lambda _ body, plain => by
    unfold eval
    exact makeClosure_within frame plain
  | .tasksDone .., _ => by
    unfold eval
    exact silent_effects (silent_bind (Site.silent_taskSlots _) fun _ =>
      silent_bind silent_get fun _ => silent_pure _)
  | .taskValue .., _ => by
    unfold eval
    exact silent_effects (silent_bind (Site.silent_taskSlots _) fun _ =>
      silent_bind silent_get fun _ => Run.silent_require _ _)
  | .cancelRequested .., _ => by
    unfold eval
    exact silent_effects (silent_cancelRequested _)
  | .error .., _ => by
    unfold eval
    exact silent_effects (Run.silent_fail _)
  | .absent, _ => by
    unfold eval
    exact silent_effects (silent_throw _)

/-- Evaluating plain arguments has effects only. -/
theorem evalArgs_within (frame : Frame) : (args : List Expr) → Machine.PlainArgs P args →
      Within e (Effects e site call P) (evalArgs site call frame args)
  | [], _ => by
    unfold evalArgs
    exact silent_effects (silent_pure _)
  | x :: rest, plain => by
    unfold evalArgs
    exact effects_bind (eval_within frame x plain.1) fun _ =>
      effects_bind (evalArgs_within frame rest plain.2) fun _ =>
        silent_effects (silent_pure _)

end

/-! ### Statements -/

/-- May plain code of a kind leave like this? -/
def CodeKind.Allows (kind : CodeKind) : Flow → Prop
  | .next | .breakLoop | .continueLoop => True
  | .ret _ => kind = .closure
  | .finished => kind = .lastSegment

/-- How plain statements end that were started in `s`. -/
inductive Left (e : Ending) (site : Site) (call : Caller) (P : Policy) (kind : CodeKind)
    (s : HostState) : Except Halt (Flow × Frame) → HostState → Prop where
  /-- After effects only. -/
  | flow {flow : Flow} {frame : Frame} {s' : HostState} (allowed : kind.Allows flow)
    (unfinished : flow ≠ .finished) (effects : Effects e site call P s s') :
    Left e site call P kind s (.ok (flow, frame)) s'
  /-- By finishing the activation after effects. -/
  | finished {frame : Frame} {mid s' : HostState} {v : Option Value}
    (last : kind = .lastSegment)
    (effects : Effects e site call P s mid)
    (finish : Returns (finish site .succeeded v) mid () s') :
    Left e site call P kind s (.ok (.finished, frame)) s'
  /-- By a halt after effects. -/
  | halted {h : Halt} {s' : HostState} (effects : Effects e site call P s s') :
    Left e site call P kind s (.error h) s'
  /-- By a halt while finishing. -/
  | stuck {h : Halt} {mid s' : HostState} {v : Option Value}
    (effects : Effects e site call P s mid)
    (finish : Ends (finish site .succeeded v) mid (.error h) s') :
    Left e site call P kind s (.error h) s'

/-- Every end of the run that counts is one of plain statements. -/
def Leaves (e : Ending) (site : Site) (call : Caller) (P : Policy) (kind : CodeKind)
    (x : Run (Flow × Frame)) : Prop :=
  ∀ ⦃s r s'⦄, Ends x s r s' → e.Covers r → Left e site call P kind s r s'

variable {kind : CodeKind}

/-- Effects before do not matter. -/
theorem Left.after {r : Except Halt (Flow × Frame)} (hab : Effects e site call P a b)
    (h : Left e site call P kind b r c) : Left e site call P kind a r c := by
  cases h with
  | flow allowed unfinished effects => exact .flow allowed unfinished (hab.trans effects)
  | finished last effects finish => exact .finished last (hab.trans effects) finish
  | halted effects => exact .halted (hab.trans effects)
  | stuck effects finish => exact .stuck (hab.trans effects) finish

theorem leaves_bind {x : Run α} {f : α → Run (Flow × Frame)}
    (hx : Within e (Effects e site call P) x) (hf : ∀ a, Leaves e site call P kind (f a)) :
    Leaves e site call P kind (x >>= f) := by
  intro s r s'' h covered
  rcases ends_bind.mp h with ⟨halt, hhalt, rfl⟩ | ⟨a, s', hret, hend⟩
  · exact .halted (hx hhalt (Ending.covers_error covered))
  · exact (hf a hend covered).after (hx.of_returns hret)

theorem leaves_pure {flow : Flow} (frame : Frame) (allowed : kind.Allows flow)
    (unfinished : flow ≠ .finished) : Leaves e site call P kind (pure (flow, frame)) := by
  intro s r s' h _
  obtain ⟨rfl, rfl⟩ :=
    Prod.mk.inj (h : ((Except.ok (flow, frame) : Except Halt _), s) = (r, s'))
  exact .flow allowed unfinished (Effects.refl s)

theorem leaves_throw (h : Halt) : Leaves e site call P kind (throw h) := by
  intro s r s' hend _
  obtain ⟨rfl, rfl⟩ := Prod.mk.inj (hend : ((Except.error h : Except Halt _), s) = (r, s'))
  exact .halted (Effects.refl s)

theorem leaves_ite {c : Prop} [Decidable c] {x y : Run (Flow × Frame)}
    (hx : Leaves e site call P kind x) (hy : Leaves e site call P kind y) :
    Leaves e site call P kind (if c then x else y) := by
  by_cases hc : c
  · rw [if_pos hc]; exact hx
  · rw [if_neg hc]; exact hy

/-- **What follows statements** runs after their effects, and not at all once
they have finished. -/
theorem leaves_then {x : Run (Flow × Frame)} {f : Flow × Frame → Run (Flow × Frame)}
    (hx : Leaves e site call P kind x)
    (hf : ∀ flow frame, kind.Allows flow → flow ≠ .finished →
      Leaves e site call P kind (f (flow, frame)))
    (hfin : ∀ frame, f (.finished, frame) = pure (.finished, frame)) :
    Leaves e site call P kind (x >>= f) := by
  intro s r s'' h covered
  rcases ends_bind.mp h with ⟨halt, hhalt, rfl⟩ | ⟨⟨flow, frame⟩, s', hret, hend⟩
  · exact hx hhalt covered
  · cases hx hret (e.covers_ok _) with
    | flow allowed unfinished effects =>
      exact (hf flow frame allowed unfinished hend covered).after effects
    | finished last effects finish =>
      rw [hfin] at hend
      obtain ⟨rfl, rfl⟩ :=
        Prod.mk.inj (hend : ((Except.ok (.finished, frame) : Except Halt _), s') = (r, s''))
      exact .finished last effects finish

/-- A loop leaves what its body leaves. -/
theorem repeatWhile_leaves {cond : Frame → Run Bool} {body : Frame → Run (Flow × Frame)}
    (hcond : ∀ frame, Within e (Effects e site call P) (cond frame))
    (hbody : ∀ frame, Leaves e site call P kind (body frame)) :
    ∀ (fuel : Nat) (frame : Frame),
      Leaves e site call P kind (repeatWhile cond body fuel frame) := by
  intro fuel
  induction fuel with
  | zero =>
    intro frame
    unfold repeatWhile
    exact leaves_throw _
  | succ fuel ih =>
    intro frame
    unfold repeatWhile
    refine leaves_bind (hcond frame) fun b => leaves_ite ?_ (leaves_pure _ trivial (by simp))
    refine leaves_then (hbody frame) ?_ fun _ => rfl
    intro flow frame allowed unfinished
    cases flow with
    | next | continueLoop => exact ih frame
    | breakLoop => exact leaves_pure _ trivial (by simp)
    | ret v => exact leaves_pure _ allowed (by simp)
    | finished => exact absurd rfl unfinished

theorem writePlace_within {target : Machine.Place} (plain : target.Plain P) (frame : Frame)
    (v : Value) : Within e (Effects e site call P) (writePlace site frame v target) := by
  cases target with
  | localVar id => exact silent_effects (silent_pure _)
  | param index =>
    exact within_ite (silent_effects (silent_pure _)) (silent_effects (Run.silent_fail _))
  | field name =>
    refine effects_bind ?_ fun _ => silent_effects (silent_pure _)
    unfold Run.modifyInstance
    refine effects_bind (silent_effects (Run.silent_theInstance _)) fun _ => ?_
    exact within_modify fun s => (Effect.field s name v).effects
  | slot id =>
    refine effects_bind ?_ fun _ => silent_effects (silent_pure _)
    intro s r s' hend _
    rcases Site.ends_writeSlot hend with rfl | ⟨st, seen, rfl⟩
    · exact Effects.refl s'
    · exact (Effect.slot s st id v seen plain).effects

theorem eval?_within (frame : Frame) {x : Expr} (plain : x.Plain P) :
    Within e (Effects e site call P) (eval? site call frame x) := by
  unfold eval?
  refine within_ite (silent_effects (silent_pure _)) ?_
  rw [← bind_pure_comp]
  exact effects_bind (eval_within frame x plain) fun _ => silent_effects (silent_pure _)

/-- Working out when a request is due has allowed effects only. -/
theorem dueOf_within (frame : Frame) {timing : Machine.Timing} (plain : timing.Plain P) :
    Within e (Effects e site call P) (dueOf site call frame timing) := by
  cases timing with
  | seconds x | frames x =>
    exact effects_bind (eval_within frame x plain) fun _ =>
      effects_bind (silent_effects (Run.silent_require _ _)) fun _ =>
        effects_bind (silent_effects silent_get) fun _ => silent_effects (silent_pure _)
  | nextFrame =>
    exact effects_bind (silent_effects silent_get) fun _ => silent_effects (silent_pure _)
  | completion slots mode =>
    exact effects_bind (silent_effects (Site.silent_taskSlots _)) fun _ =>
      silent_effects (silent_pure _)

theorem finish_leaves (frame : Frame) (v : Option Value) : Leaves e site call P .lastSegment
      (finish site .succeeded v >>= fun _ => pure (.finished, frame)) := by
  intro s r s'' h _
  rcases ends_bind.mp h with ⟨halt, hhalt, rfl⟩ | ⟨_, s', hret, hend⟩
  · exact .stuck (Effects.refl s) hhalt
  · obtain ⟨rfl, rfl⟩ :=
      Prod.mk.inj (hend : ((Except.ok (.finished, frame) : Except Halt _), s') = (r, s''))
    exact .finished rfl (Effects.refl s) hret

mutual

/-- **A plain statement has effects**, and may finish the activation after them where
its kind allows that. -/
theorem exec_leaves (fuel : Nat) : (x : Stmt) → x.Plain P kind → (frame : Frame) →
      Leaves e site call P kind (exec site call fuel x frame)
  | .expr _ value, plain, frame => by
    unfold exec
    exact leaves_bind (eval_within frame value plain) fun _ => leaves_pure _ trivial (by simp)
  | .bind _ id init, plain, frame => by
    unfold exec
    exact leaves_bind (eval?_within frame plain) fun _ => leaves_pure _ trivial (by simp)
  | .assign _ target value, plain, frame => by
    unfold exec
    exact leaves_bind (eval_within frame value plain.2) fun v =>
      leaves_bind (writePlace_within plain.1 frame v) fun _ => leaves_pure _ trivial (by simp)
  | .branch _ cond onTrue onFalse, plain, frame => by
    unfold exec
    exact leaves_bind (eval_within frame cond plain.1) fun v =>
      leaves_bind (silent_effects (Run.silent_require _ _)) fun _ =>
        leaves_ite (execBlock_leaves fuel onTrue plain.2.1 frame)
          (execBlock_leaves fuel onFalse plain.2.2 frame)
  | .loop _ cond body, plain, frame => by
    unfold exec
    refine repeatWhile_leaves (fun frame => ?_)
      (fun frame => execBlock_leaves fuel body plain.2 frame) fuel frame
    exact effects_bind (eval_within frame cond plain.1) fun _ =>
      silent_effects (Run.silent_require _ _)
  | .breakLoop _, _, frame | .continueLoop _, _, frame => by
    unfold exec
    exact leaves_pure _ trivial (by simp)
  | .ret _ value, plain, frame => by
    unfold exec
    exact leaves_bind (eval?_within frame plain.2) fun _ => leaves_pure _ plain.1 (by simp)
  | .finish _ status value, plain, frame => by
    obtain ⟨rfl, rfl, plain⟩ := plain
    unfold exec
    exact leaves_bind (eval?_within frame plain) fun v => finish_leaves frame v

/-- **Plain statements have effects**, up to a finish of the activation where
their kind allows one. -/
theorem execBlock_leaves (fuel : Nat) :
    (stmts : List Stmt) → PlainBlock P kind stmts → (frame : Frame) →
      Leaves e site call P kind (execBlock site call fuel stmts frame)
  | [], _, frame => by
    unfold execBlock
    exact leaves_pure _ trivial (by simp)
  | x :: rest, plain, frame => by
    unfold execBlock
    refine leaves_then (exec_leaves fuel x plain.1 frame) ?_ fun _ => rfl
    intro flow frame allowed unfinished
    cases flow with
    | next => exact execBlock_leaves fuel rest plain.2 frame
    | breakLoop | continueLoop => exact leaves_pure _ trivial (by simp)
    | ret v => exact leaves_pure _ allowed (by simp)
    | finished => exact absurd rfl unfinished

end

/-! ### What effects leave alone -/

/-- Is it a call back of a dispatch? -/
def Action.isResume : Action → Bool
  | .resume _ => true
  | .complete _ => false

/-- The outstanding call backs. -/
def Scheduler.resumes (q : Scheduler) : List Request :=
  q.pending.filter fun r => r.action.isResume

/-- What code at a site leaves as it was when it writes slots of a policy and
calls no procedure. -/
structure Kept (site : Site) (P : Policy) (s s' : HostState) : Prop where
  slot : ∀ k, ¬ P.slots k → site.slotIn s' k = site.slotIn s k
  /-- The task that observes the activation is still the same. -/
  task : (site.slotsIn s').map Storage.task = (site.slotsIn s).map Storage.task
  tasks : ∀ (id : TaskId) (t : Task), s.tasks[id]? = some t → s'.tasks[id]? = some t
  now : s'.scheduler.now = s.scheduler.now
  frame : s'.scheduler.frame = s.scheduler.frame
  resumes : s'.scheduler.resumes = s.scheduler.resumes

namespace Kept

theorem refl (s : HostState) : Kept site P s s :=
  ⟨fun _ _ => rfl, rfl, fun _ _ h => h, rfl, rfl, rfl⟩

theorem trans (hab : Kept site P a b) (hbc : Kept site P b c) : Kept site P a c where
  slot k hk := (hbc.slot k hk).trans (hab.slot k hk)
  task := hbc.task.trans hab.task
  tasks id t h := hbc.tasks id t (hab.tasks id t h)
  now := hbc.now.trans hab.now
  frame := hbc.frame.trans hab.frame
  resumes := hbc.resumes.trans hab.resumes

end Kept

/-- Setting one slot leaves the others. -/
theorem slotIn_put_set {st : Storage} (h : site.slotsIn s = some st) {id k : SlotId}
    (hne : id ≠ k) (v : Value) :
    site.slotIn (site.put s { st with slots := st.slots.set id v }) k = site.slotIn s k := by
  rw [Site.slotIn_eq (Site.slotsIn_put h _), Site.slotIn_eq h, List.getElem?_set_ne hne]

/-- An effect other than a call of a procedure leaves this alone. -/
theorem Effect.kept (noCalls : ∀ name, ¬ P.targets (.procedure name))
    (h : Effect e site call P s s') : Kept site P s s' := by
  cases h with
  | task kind due _ =>
    exact ⟨fun _ _ => rfl, rfl, fun id t ht => getElem?_push_of_some ht _, rfl, rfl,
      by simp [Scheduler.resumes, Scheduler.submit, Action.isResume]⟩
  | answer | log | closure => exact ⟨fun _ _ => rfl, rfl, fun _ _ h => h, rfl, rfl, rfl⟩
  | field name v =>
    have hslots : site.slotsIn (s.putField site.owner name v) = site.slotsIn s :=
      HostState.storage?_putField name v _
    refine ⟨fun k _ => ?_, by rw [hslots], fun _ _ h => h, rfl, rfl, rfl⟩
    exact congrArg (fun st => st.bind fun st => st.slots[k]?) hslots
  | slot st id v seen writable =>
    refine ⟨fun k hk => slotIn_put_set seen ?_ v, ?_, fun _ _ h => h, rfl, rfl, rfl⟩
    · rintro rfl
      exact hk writable
    · rw [Site.slotsIn_put seen, seen]
      rfl
  | call name index args r s' allowed => exact absurd allowed (noCalls name)

/-- **Code that calls no procedure** leaves alone the slots it may not write, the tasks there
are, the clock and the outstanding call backs. -/
theorem Effects.kept (noCalls : ∀ name, ¬ P.targets (.procedure name))
    (h : Effects e site call P s s') : Kept site P s s' :=
  h.invariant (I := Kept site P s) (fun hstep hkept => hkept.trans (hstep.kept noCalls))
    (Kept.refl s)

end

end Resumable
