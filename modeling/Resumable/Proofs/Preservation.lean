import Resumable.Proofs.Interleaving

/-!
# Lowering preserves meaning

**Under any interleaving of timed resumptions, every activation of a lowered procedure is
where its source is.**  A timed procedure is lowered and loaded alone in a new host, with
functions that answer by the instance and the arguments.  Instances are made, each is called
at most once, and time passes and dispatches are resumed in any order.  As long as every
operation returns, an activation that is running in state `i` shows what its source shows
after `i` pauses, and one that has succeeded what its source shows when it is over.

## Main definitions

* `registrations`, `setUp`: the operations that make a host ready.
* `Agrees`: what can be seen of an activation is what its source says.

## Main statements

* `agrees_of_plays`: lowering preserves meaning.
-/

namespace Resumable

open Resumable.Bound (Procedure Stmt)
open Machine (TaskStatus)

variable {host host' : Host} {u : Unit} {mode : LivenessMode} {p : Procedure}
  {program : Program}

/-! ### Setting up a host -/

/-- A function that answers by the instance and the arguments. -/
abbrev PureFn := InstanceId → List Value → Except HostError Value

/-- Make functions callable, each under its name. -/
def registrations (functions : List (String × PureFn)) : List (Nat × Command) :=
  functions.map fun f => (0, .register f.1 fun _ call => f.2 call.owner call.args)

/-- Load a machine, and make functions callable before and after that. -/
def setUp (before : List (String × PureFn)) (m : Machine) (after : List (String × PureFn)) :
    List (Nat × Command) :=
  registrations before ++ (0, .load m) :: registrations after

theorem Host.returns_performAll_append {first rest : List (Nat × Command)}
    (h : Returns (Host.performAll (first ++ rest)) host u host') :
    ∃ mid, Returns (Host.performAll first) host () mid ∧
      Returns (Host.performAll rest) mid u host' := by
  induction first generalizing host with
  | nil => exact ⟨host, returns_pure.mpr ⟨rfl, rfl⟩, h⟩
  | cons command first ih =>
    obtain ⟨_, mid, hcommand, hrest⟩ := returns_bind.mp h
    obtain ⟨mid', hfirst, hrest⟩ := ih hrest
    exact ⟨mid', returns_bind.mpr ⟨_, mid, hcommand, hfirst⟩, hrest⟩

/-- A host in which nothing was made, called or written, and whose functions are pure. -/
structure Host.Untouched (host : Host) : Prop where
  instances : host.state.instances = #[]
  log : host.state.log = #[]
  calls : host.state.calls = #[]
  pending : host.state.scheduler.pending = []
  pureFunctions : host.state.PureFunctions

namespace Host.Untouched

theorem new (names : NameTable) (config : HostConfig) :
    (Host.new names config).Untouched where
  instances := rfl
  log := rfl
  calls := rfl
  pending := rfl
  pureFunctions function r h := by cases h

/-- Making a pure function callable. -/
theorem register {fuel : Nat} {name : String} {answer : PureFn}
    (h : Returns ((Command.register name fun _ call => answer call.owner call.args).perform
      fuel) host u host')
    (hhost : host.Untouched) :
    host'.Untouched ∧ host'.image.programs = host.image.programs := by
  obtain ⟨hprograms, function, hstate⟩ := Host.returns_register h
  obtain ⟨image, s⟩ := host'
  obtain rfl : s = _ := hstate
  refine ⟨⟨hhost.instances, hhost.log, hhost.calls, hhost.pending,
    fun other r hr earlier call => ?_⟩, hprograms⟩
  rw [Bindings.get?_insert] at hr
  split at hr
  · obtain rfl := Option.some.inj hr
    rfl
  · exact hhost.pureFunctions other r hr earlier call

/-- Making pure functions callable, by induction on them. -/
theorem registrations {functions : List (String × PureFn)}
    (h : Returns (Host.performAll (registrations functions)) host u host')
    (hhost : host.Untouched) :
    host'.Untouched ∧ host'.image.programs = host.image.programs := by
  induction functions generalizing host with
  | nil =>
    obtain ⟨-, rfl⟩ := returns_pure.mp h
    exact ⟨hhost, rfl⟩
  | cons first rest ih =>
    obtain ⟨_, mid, hfirst, hrest⟩ := returns_bind.mp h
    obtain ⟨hmid, hprograms⟩ := hhost.register hfirst
    obtain ⟨hhost', hprograms'⟩ := ih hrest hmid
    exact ⟨hhost', hprograms'.trans hprograms⟩

/-- **A host that was set up** has the machine as its only program, and
nothing was done in it. -/
theorem setUp {before after : List (String × PureFn)} {m : Machine} {names : NameTable}
    {config : HostConfig}
    (h : Returns (Host.performAll (setUp before m after)) (Host.new names config) u host) :
    host.Untouched ∧ ∃ name, host.image.programs = #[⟨name, m⟩] := by
  obtain ⟨first, hbefore, hrest⟩ := Host.returns_performAll_append h
  obtain ⟨_, second, hload, hafter⟩ := returns_bind.mp hrest
  obtain ⟨hfirst, hprograms⟩ := (new names config).registrations hbefore
  obtain ⟨hstate, name, hpush⟩ := Host.returns_load hload
  have hsecond : second.Untouched := by
    obtain ⟨hinstances, hlog, hcalls, hpending, hpure⟩ := hfirst
    rw [← hstate] at hinstances hlog hcalls hpending hpure
    exact ⟨hinstances, hlog, hcalls, hpending, hpure⟩
  obtain ⟨hhost, hprograms'⟩ := hsecond.registrations hafter
  refine ⟨hhost, name, ?_⟩
  rw [hprograms', hpush, hprograms]
  rfl

/-- Before anything is called, a host is at play. -/
theorem isPlaying {names : NameTable} (hhost : host.Untouched)
    (b : Lowered mode names p program.machine) :
    Host.IsPlaying host b (fun _ => none) host := by
  have hinstance : ∀ owner : InstanceId, host.state.instances[owner]? = none :=
    fun owner => by
    rw [hhost.instances]
    rfl
  refine ⟨rfl, fun _ => rfl, fun owner _ => ⟨fun i hi => ?_, ?_, ?_⟩,
    fun owner args hsome => ?_, fun owner other task howner _ => ?_, fun r hr => ?_⟩
  · cases (hinstance owner).symm.trans hi
  · unfold HostState.logOf
    rw [hhost.log]
    rfl
  · unfold HostState.callsOf
    rw [hhost.calls]
    rfl
  · cases hsome
  · obtain ⟨st, hst, -⟩ := Option.map_eq_some_iff.mp howner
    obtain ⟨i, hi, -⟩ := Option.map_eq_some_iff.mp hst
    cases (hinstance owner).symm.trans hi
  · rw [hhost.pending] at hr
    cases hr

end Host.Untouched

/-! ### What can be seen -/

/-- What can be seen of an instance from outside: its fields, what it wrote,
and what it called. -/
structure Visible (owner : InstanceId) (s : HostState) (a : Activation) : Prop where
  fields : ∀ name, s.field? owner name = a.fields.get? name
  log : s.logOf owner = a.log
  calls : s.callsOf owner = a.calls

/-- **What can be seen of an activation is what its source says.**  The activation is one of
the only program of a host, and `ready` is the host before anything was called. -/
inductive Agrees (ready : Host) (p : Procedure) (program : Program) (owner : InstanceId)
    (args : List Value) (s : HostState) : Prop where
  /-- It runs in state `i`, and the source waits after `i` pauses.  The hoisted
  parameters hold what they hold in the source, and so do the hoisted locals that the
  source has introduced. -/
  | running (i : Nat) (done rest : List Stmt) (a : Activation) (task : TaskId)
    (status : (ready.site program owner).slotIn s program.machine.statusSlot =
      some (.int TaskStatus.running.code))
    (state : (ready.site program owner).slotIn s program.machine.stateSlot =
      some (.int (.ofNat i)))
    (observed : ((ready.site program owner).slotsIn s).map Storage.task = some (some task))
    (pending : s.tasks[task]? = some ⟨.pending, .activation⟩)
    (split : p.stmts = done ++ rest)
    (reaches : Reaches (ready.setting p owner) p.stmts args i rest a)
    (visible : Visible owner s a)
    (params : ∀ j k, program.machine.layout.param? j = some k →
      (ready.site program owner).slotIn s k = a.params[j]?)
    (locals : ∀ x k, program.machine.layout.local? x = some k → x ∈ Bound.introducedBy done →
      (ready.site program owner).slotIn s k = a.locals.get? x)
  /-- It has succeeded, and the source is over.  The task has the value that the source
  completes with, and so has the slot of the result. -/
  | succeeded (v : Value) (a : Activation) (task : TaskId)
    (status : (ready.site program owner).slotIn s program.machine.statusSlot =
      some (.int TaskStatus.succeeded.code))
    (observed : ((ready.site program owner).slotsIn s).map Storage.task = some (some task))
    (outcome : s.tasks[task]? = some ⟨.succeeded v, .activation⟩)
    (result : ∀ k, program.machine.resultSlot = some k →
      (ready.site program owner).slotIn s k = some v)
    (completes : CompletesWith (ready.setting p owner) p.stmts args v a)
    (visible : Visible owner s a)

section

variable {names : NameTable} {ready : Host} {owner : InstanceId} {s : HostState}
  {a : Activation} {known pending : LocalId → Prop}

theorem Matches.visible
    (h : Matches (ready.site program owner)
      (ready.setting p owner) known pending ⟨[], .empty⟩ s a) : Visible owner s a where
  fields name := h.content (.field name) trivial
  log := h.log
  calls := h.calls

/-- How an activation stands shows that it agrees with its source. -/
theorem Standing.agrees {b : Lowered mode names p (ready.site program owner).machine}
    (tree : p.TreeShaped) {args : List Value} {task : TaskId}
    (h : Standing (ready.site program owner) b (ready.setting p owner) args task s) :
    Agrees ready p program owner args s := by
  cases h with
  | running i a le reaches agree state status result observed pending =>
    refine .running i (b.before i) (b.rest i) a task status state observed pending
      (b.stmts_eq tree i)
      reaches agree.visible (fun j k hk => agree.slotIn_param hk) fun x k hk hx => ?_
    exact agree.slotIn_local (Or.inl ⟨Option.isSome_of_mem hk, hx⟩) hk
  | succeeded value a completes agree state status result observed outcome =>
    exact .succeeded _ a task status observed outcome result completes agree.visible

end

/-- **Lowering preserves meaning.**  A timed procedure is lowered, loaded alone in a new host
and made ready with pure functions; then operations are performed that call each instance at
most once, resume only what was called, and let time pass at will.  When all of them returned,
everything that was called agrees with its source. -/
theorem agrees_of_plays {options : LowerOptions} {p : Procedure}
    {names names' table : NameTable} {m : Machine} (timed : p.Timed)
    (countable : p.IsCountable) (lowered : lowerProcedure options p names = (.ok m, names'))
    {config : HostConfig} {before after : List (String × PureFn)} {ready host : Host}
    (madeReady : Returns (Host.performAll (setUp before m after))
      (Host.new table config) () ready)
    {commands : List (Nat × Command)} (plays : Plays ready.image (fun _ => none) commands)
    (accepted : Returns (Host.performAll commands) ready () host) {fuel : Nat}
    {owner : InstanceId} {procedure : String} {args : List Value}
    (called : (fuel, .call owner procedure args) ∈ commands) :
    ∃ program, host.image.programs = #[program] ∧ program.machine = m ∧
      Agrees ready p program owner args host.state := by
  obtain ⟨untouched, name, hprograms⟩ := Host.Untouched.setUp madeReady
  obtain ⟨b⟩ := lowered_of_lowerProcedure lowered
  have b' : Lowered options.liveness names p (Program.mk name m).machine := b
  have hplaying := (untouched.isPlaying b').performAll
    ⟨hprograms, untouched.pureFunctions⟩ timed countable plays accepted
  obtain ⟨task, standing⟩ :=
    hplaying.playing.standing owner args (plays.startedBy_of_mem called)
  exact ⟨⟨name, m⟩, by rw [hplaying.image, hprograms], rfl, standing.agrees timed.tree⟩

/-! ### Two greeters -/

namespace Greeter

theorem timed : procedure.Timed where
  simple := by decide +kernel
  noHandle := rfl
  params := by decide +kernel
  numbered := by decide +kernel
  declared := by decide +kernel
  once := by decide +kernel
  scopes := by decide +kernel
  tree := by decide +kernel

/-- A host with the greeter alone. -/
@[irreducible] def ready : Host :=
  (show Except Halt Unit × Host from
    Host.performAll (setUp [] machine [])
      (.new (lowerProcedure {} procedure names).2 ⟨1.0, 10⟩)).2

theorem madeReady :
    Returns (Host.performAll (setUp [] machine []))
      (.new (lowerProcedure {} procedure names).2 ⟨1.0, 10⟩) ()
      ready := by
  have hok : (show Except Halt Unit × Host from Host.performAll (setUp [] machine [])
      (.new (lowerProcedure {} procedure names).2 ⟨1.0, 10⟩)).1.isOk = true := by
        decide +kernel
  unfold ready
  exact eq_mk_ok_of_isOk hok

/-- Call the greeter on an instance and let a frame pass; then call it on another, and resume
the first once more.  The first has succeeded, and the second waits. -/
def turns : List (Nat × Command) :=
  [(0, .spawn), (9, .call 0 "Greet" []), (9, .advanceFrame), (0, .spawn),
    (9, .call 1 "Greet" []), (9, .resume ⟨0, procIndex 0 .dispatch⟩)]

theorem resolve_eq : ready.image.resolve "Greet" = .ok (procIndex 0 .entry) := by
  have hfound : (ready.image.resolve "Greet").toOption = some (procIndex 0 .entry) := by
    decide +kernel
  cases hresolve : ready.image.resolve "Greet" with
  | error why =>
    rw [hresolve] at hfound
    cases hfound
  | ok index =>
    rw [hresolve] at hfound
    exact congrArg Except.ok (Option.some.inj hfound)

theorem plays : Plays ready.image (fun _ => none) turns :=
  ⟨trivial, ⟨resolve_eq, rfl⟩, trivial, trivial, ⟨resolve_eq, rfl⟩, ⟨rfl, rfl⟩, trivial⟩

end Greeter

theorem greeter_agrees :
    ∃ host, Returns (Host.performAll Greeter.turns) Greeter.ready () host ∧
    (∃ program, host.image.programs = #[program] ∧ program.machine = Greeter.machine ∧
      Agrees Greeter.ready Greeter.procedure program 0 [] host.state) ∧
    ∃ program, host.image.programs = #[program] ∧ program.machine = Greeter.machine ∧
      Agrees Greeter.ready Greeter.procedure program 1 [] host.state := by
  obtain ⟨_, host, accepted⟩ : ∃ u host, Returns
    (Host.performAll Greeter.turns) Greeter.ready u host :=
    exists_returns_of_isOk (by decide +kernel)
  have hplayed : ∀ owner, (9, .call owner "Greet" []) ∈ Greeter.turns →
      ∃ program, host.image.programs = #[program] ∧ program.machine = Greeter.machine ∧
        Agrees Greeter.ready Greeter.procedure program owner [] host.state :=
          fun owner called =>
    agrees_of_plays Greeter.timed (by decide) Greeter.lowered Greeter.madeReady
      Greeter.plays accepted called
  refine ⟨host, accepted, hplayed 0 ?_, hplayed 1 ?_⟩
  · simp [Greeter.turns]
  · simp [Greeter.turns]

end Resumable
