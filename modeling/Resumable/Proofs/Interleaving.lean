import Resumable.Proofs.Command
import Resumable.Proofs.Starting

/-!
# Any interleaving of resumptions

A timed procedure is loaded alone in a host and is called on any number of instances.
**However time passes then, and in whatever order requests fire, every activation stands where
its source stands.**

Activations do not see each other.  Each owns its instance, its task and its requests, and a
dispatch of one is `Elsewhere` for the others; so what has to be shown of a whole host comes
down to one dispatch.

## Main definitions

* `Host.setting`: the setting of the activations of an instance.
* `Playing`: a host in which every activation stands where its source stands.
* `Command.Fits`, `Plays`: the operations that are admitted, and sequences of these.

## Main statements

* `Playing.move`: one activation moves, and the others stay.
* `Playing.dispatch`, `Playing.entry`, `Playing.spawn`: what can be done to an instance keeps
  a host playing.
* `served_playing`: taking a request and performing it keeps a host playing.
* `Command.keeps_playing`: so does every admitted operation.
* `Host.IsPlaying.performAll`: a sequence that calls every instance at most once
  keeps a host playing.
-/

namespace Resumable

open Resumable.Bound (Procedure)

variable {ready : Host} {started : InstanceId → Option (List Value)} {owner : InstanceId}
  {task : TaskId} {args : List Value} {fuel : Nat} {command : Command}
  {commands : List (Nat × Command)} {procedure : String}

/-! ### Hosts at play -/

/-- The registered functions answer by the instance and the arguments only. -/
def HostState.PureFunctions (s : HostState) : Prop :=
  ∀ function r, s.functions.get? function = some r →
    ∀ earlier call, r.answer earlier call = r.answer [] call

/-- The setting of the activations of a procedure on an instance. -/
def Host.setting (host : Host) (p : Procedure) (owner : InstanceId) : Setting where
  names := host.image.names
  answer function := (host.state.functions.get? function).map fun r args =>
    r.answer [] ⟨function, owner, args⟩
  locals := p.locals
  result := p.result

/-- The site of the only program of a host on an instance. -/
def Host.site (host : Host) (program : Program) (owner : InstanceId) : Site :=
  ⟨host.image, 0, program, owner⟩

variable {mode : LivenessMode} {names : NameTable} {p : Procedure} {program : Program}

/-- **A host in which every activation stands where its source stands.**  The host
`ready` is the one before anything was called, and `started` has the arguments of the
instances that were called. -/
structure Playing (ready : Host) (b : Lowered mode names p program.machine)
    (started : InstanceId → Option (List Value)) (s : HostState) : Prop where
  answers : ∀ function, (s.functions.get? function).map Registration.answer =
    (ready.state.functions.get? function).map Registration.answer
  /-- Nothing was done on the other instances. -/
  fresh : ∀ owner, started owner = none → (∀ i, s.instances[owner]? = some i → i = .empty) ∧
    s.logOf owner = [] ∧ s.callsOf owner = []
  standing : ∀ owner args, started owner = some args →
    ∃ task, Standing (ready.site program owner) b (ready.setting p owner) args task s
  /-- No two activations have a task in common. -/
  distinct : ∀ owner other task,
    ((ready.site program owner).slotsIn s).map Storage.task = some (some task) →
      ((ready.site program other).slotsIn s).map Storage.task =
        some (some task) → owner = other
  requests : ∀ r ∈ s.scheduler.pending, ∃ owner, (started owner).isSome ∧
    r.action = .resume ⟨owner, procIndex 0 .dispatch⟩

/-- A host that is ready: the program is its only one, and its functions are pure. -/
structure Host.Ready (ready : Host) (program : Program) : Prop where
  programs : ready.image.programs = #[program]
  pureFunctions : ready.state.PureFunctions

theorem Host.Ready.loaded (h : ready.Ready program) (owner : InstanceId) :
    (ready.site program owner).Loaded := by
  show ready.image.programs[0]? = some program
  rw [h.programs]
  rfl

namespace Playing

variable {b : Lowered mode names p program.machine} {s s' : HostState}

theorem staged (h : Playing ready b started s) (hready : ready.Ready program)
    (owner : InstanceId) : Staged (ready.site program owner) (ready.setting p owner) s := by
  have here : Lowered mode names p (ready.site program owner).machine := b
  refine here.staged rfl rfl fun function => ?_
  have hmap := congrArg (Option.map fun (answer : HostFn) earlier args =>
    answer earlier ⟨function, owner, args⟩) (h.answers function)
  rw [Option.map_map, Option.map_map] at hmap
  refine hmap.trans ?_
  show _ = Option.map _ (Option.map _ (ready.state.functions.get? function))
  rw [Option.map_map]
  cases hfunction : ready.state.functions.get? function with
  | none => rfl
  | some r =>
    refine congrArg some (funext fun earlier => funext fun args => ?_)
    exact hready.pureFunctions function r hfunction earlier _

/-- The task of an activation is in the table. -/
theorem lt_size (h : Playing ready b started s)
    (observed : ((ready.site program owner).slotsIn s).map Storage.task = some (some task)) :
    task < s.tasks.size := by
  cases hstarted : started owner with
  | none =>
    obtain ⟨st, hst, htask⟩ := Option.map_eq_some_iff.mp observed
    obtain ⟨i, hi, rfl⟩ := Option.map_eq_some_iff.mp hst
    rw [(h.fresh owner hstarted).1 i hi] at htask
    cases htask
  | some args =>
    obtain ⟨task', standing⟩ := h.standing owner args hstarted
    obtain rfl : task' = task :=
      Option.some.inj (Option.some.inj (standing.observes.symm.trans observed))
    exact standing.lt_size

/-- **One activation moves, and the others stay.** -/
theorem move (h : Playing ready b started s)
    (standing : Standing (ready.site program owner) b (ready.setting p owner) args task s')
    (stepped : Stepped (ready.site program owner) task s s') (apart : ∀ other, other ≠ owner →
      ((ready.site program other).slotsIn s).map Storage.task ≠ some (some task)) :
    Playing ready b (Function.update started owner (some args)) s' := by
  have hslots : ∀ other, other ≠ owner →
      (ready.site program other).slotsIn s' = (ready.site program other).slotsIn s :=
        fun other hne => Site.slotsIn_of_instance (stepped.elsewhere.instances other hne)
  have hobserved := standing.observes
  refine ⟨fun function => (stepped.elsewhere.answers function).trans (h.answers function),
    fun other hnone => ?_, fun other args' hsome =>
      ?_, fun first second t hfirst hsecond => ?_,
    fun r hr => ?_⟩
  -- What was not started is on another instance, and nothing was done there.
  · have hne : other ≠ owner := by
      rintro rfl
      rw [Function.update_self] at hnone
      cases hnone
    rw [Function.update_of_ne hne] at hnone
    rw [stepped.elsewhere.instances other hne, stepped.elsewhere.log other hne,
      stepped.elsewhere.calls other hne]
    exact h.fresh other hnone
  · by_cases hne : other = owner
    · subst hne
      rw [Function.update_self] at hsome
      obtain rfl := Option.some.inj hsome
      exact ⟨task, standing⟩
    · rw [Function.update_of_ne hne] at hsome
      obtain ⟨task', standing'⟩ := h.standing other args' hsome
      refine ⟨task', standing'.of_unchanged (stepped.elsewhere.instances other hne)
        (stepped.elsewhere.log other hne) (stepped.elsewhere.calls other hne)
          (stepped.tasks task' ?_)⟩
      -- The task that has changed is not the one of the other activation.
      intro heq
      have hobserved' := standing'.observes
      rw [heq] at hobserved'
      exact apart other hne hobserved'
  · by_cases hone : first = owner
    · by_cases htwo : second = owner
      · rw [hone, htwo]
      · rw [hone, hobserved] at hfirst
        rw [hslots second htwo] at hsecond
        exact absurd (Option.some.inj (Option.some.inj hfirst) ▸ hsecond) (apart second htwo)
    · by_cases htwo : second = owner
      · rw [htwo, hobserved] at hsecond
        rw [hslots first hone] at hfirst
        exact absurd (Option.some.inj (Option.some.inj hsecond) ▸ hfirst) (apart first hone)
      · rw [hslots first hone] at hfirst
        rw [hslots second htwo] at hsecond
        exact h.distinct first second t hfirst hsecond
  · rcases stepped.requests r hr with hold | hnew
    · obtain ⟨other, hsome, haction⟩ := h.requests r hold
      refine ⟨other, ?_, haction⟩
      by_cases hne : other = owner
      · rw [hne, Function.update_self]
        rfl
      · rw [Function.update_of_ne hne]
        exact hsome
    · exact ⟨owner, by rw [Function.update_self]; rfl, hnew⟩

/-! ### Dispatching and calling -/

section

variable {v : Value}

variable (h : Playing ready b started s)

include h

/-- **A dispatch of a started instance** keeps a host playing. -/
theorem dispatch (hready : ready.Ready program) (timed : p.Timed) (countable : p.IsCountable)
    (hstarted : started owner = some args)
    (hret : Returns (runProcedure ready.image fuel (procIndex 0 .dispatch) owner []) s v s') :
    Playing ready b started s' := by
  obtain ⟨task, standing⟩ := h.standing owner args hstarted
  obtain ⟨standing', stepped⟩ := standing.dispatch timed countable (hready.loaded owner)
    (h.staged hready owner) hret
  have hmoved := h.move standing' stepped fun other hne hother =>
    hne (h.distinct other owner task hother standing.observes)
  rw [← hstarted, Function.update_eq_self] at hmoved
  exact hmoved

/-- **A call** of an instance on which nothing was done keeps a host playing. -/
theorem entry (hready : ready.Ready program) (timed : p.Timed) (countable : p.IsCountable)
    {i : Instance} (hi : s.instances[owner]? = some i) (hnone : started owner = none)
    (hret : Returns (runProcedure ready.image fuel (procIndex 0 .entry) owner args) s v s') :
    Playing ready b (Function.update started owner (some args)) s' := by
  obtain ⟨hempty, hlog, hcalls⟩ := h.fresh owner hnone
  obtain rfl := hempty i hi
  obtain ⟨standing, stepped⟩ : Standing (ready.site program owner) b
    (ready.setting p owner) args _ s' ∧
      Stepped (ready.site program owner) _ s s' :=
    standing_of_entry _ timed rfl rfl hi hlog hcalls countable (hready.loaded owner)
      (h.staged hready owner) hret
  exact h.move standing stepped fun other _ hother =>
    Nat.lt_irrefl s.tasks.size (h.lt_size hother)

/-- **A new instance** keeps a host playing: nothing was done on it. -/
theorem spawn : Playing ready b started { s with instances := s.instances.push .empty } := by
  have hold : ∀ {owner : InstanceId} {i : Instance}, s.instances[owner]? = some i →
      (s.instances.push .empty)[owner]? = s.instances[owner]? :=
        fun hi => (getElem?_push_of_some hi _).trans hi.symm
  have hnew : ∀ {owner : InstanceId} {i : Instance},
    (s.instances.push .empty)[owner]? = some i →
      s.instances[owner]? = some i ∨ i = .empty :=
        fun hi => (getElem?_push_cases hi).imp_right And.right
  -- An activation is not on the new instance, since no task observes what was not started.
  have hobserved : ∀ {owner : InstanceId} {task : TaskId},
      ((ready.site program owner).slotsIn { s with instances := s.instances.push .empty }).map
        Storage.task = some (some task) →
      ((ready.site program owner).slotsIn s).map Storage.task = some (some task) := by
    intro owner task htask
    obtain ⟨st, hst, hstask⟩ := Option.map_eq_some_iff.mp htask
    obtain ⟨i, hi, rfl⟩ := Option.map_eq_some_iff.mp hst
    rcases hnew hi with hi | rfl
    · rw [Site.slotsIn_of_instance (hold hi)] at htask
      exact htask
    · cases hstask
  refine ⟨h.answers, fun owner hnone => ?_, fun owner args hsome => ?_,
    fun owner other task howner hother =>
      h.distinct owner other task (hobserved howner) (hobserved hother),
    h.requests⟩
  · refine ⟨fun i hi => ?_, (h.fresh owner hnone).2⟩
    exact (hnew hi).elim ((h.fresh owner hnone).1 i) id
  · obtain ⟨task, standing⟩ := h.standing owner args hsome
    obtain ⟨st, hst, -⟩ := Option.map_eq_some_iff.mp standing.observes
    obtain ⟨i, hi, -⟩ := Option.map_eq_some_iff.mp hst
    exact ⟨task, standing.of_unchanged (hold hi) rfl rfl rfl⟩

end

end Playing

/-! ### Firing requests -/

section

variable {b : Lowered mode names p program.machine}

/-- A host at play with a part of its requests, and the clock moved. -/
theorem Playing.reschedule {s : HostState} (h : Playing ready b started s) {queue : Scheduler}
    (hpending : ∀ r ∈ queue.pending, r ∈ s.scheduler.pending) :
    Playing ready b started { s with scheduler := queue } := by
  refine ⟨h.answers, h.fresh, fun owner args hstarted => ?_, h.distinct, fun r hr =>
    h.requests r (hpending r hr)⟩
  obtain ⟨task, standing⟩ := h.standing owner args hstarted
  exact ⟨task, standing.of_unchanged rfl rfl rfl rfl⟩

/-- **Taking a request and performing it** keeps a host playing: it is a dispatch of
a started instance. -/
theorem served_playing (hready : ready.Ready program) (timed : p.Timed)
    (countable : p.IsCountable) (fuel : Nat) :
    Served ready.image fuel (Playing ready b started) where
  clock hs hpending := hs.reschedule fun r hr => hpending ▸ hr
  fires := by
    intro s s' select r queue queue' hs htake hpending hperform
    have hperm := Scheduler.perm_of_take? htake
    obtain ⟨owner, hsome, haction⟩ := hs.requests r (hperm.mem_iff.mpr List.mem_cons_self)
    obtain ⟨args, hstarted⟩ := Option.isSome_iff_exists.mp hsome
    rw [haction] at hperform
    obtain ⟨v, hrun, -⟩ := returns_bind_pure.mp hperform
    refine (hs.reschedule fun other hother => hperm.mem_iff.mpr ?_).dispatch
      hready timed countable
      hstarted hrun
    rw [hpending] at hother
    exact List.mem_cons_of_mem _ hother

end

/-! ### Admitted operations -/

/-- Is the operation admitted once the given instances were called?  A call is a call of the
entry of the only program, on an instance that was not called before.  A resumption is one of
its dispatch on an instance that was.  Instances may be made and time may pass at will. -/
def Command.Fits (image : Image) (started : InstanceId → Option (List Value)) : Command → Prop
  | .spawn | .advanceFrame | .advanceSeconds _ | .firePending
      _ | .fireTimers | .runUntilIdle => True
  | .call owner procedure _ =>
    image.resolve procedure = .ok (procIndex 0 .entry) ∧ started owner = none
  | .resume handle => handle.procedure = procIndex 0 .dispatch ∧ (started handle.owner).isSome
  | .load _ | .register .. | .callClosure _ | .newToken | .cancel _ | .setField .. => False

/-- The instances that were called, after an operation, with the arguments. -/
def Command.starts (started : InstanceId → Option (List Value)) :
    Command → InstanceId → Option (List Value)
  | .call owner _ args => Function.update started owner (some args)
  | _ => started

/-- **An admitted sequence of operations.** -/
def Plays (image : Image) : (InstanceId → Option (List Value)) → List (Nat × Command) → Prop
  | _, [] => True
  | started, (_, command) :: rest =>
    command.Fits image started ∧ Plays image (command.starts started) rest

/-- The instances that were called, after a sequence of operations, with the arguments. -/
def startedBy (started : InstanceId → Option (List Value)) (commands : List (Nat × Command)) :
    InstanceId → Option (List Value) :=
  commands.foldl (fun started first => first.2.starts started) started

section

variable {image : Image}

/-- An instance is called only once. -/
theorem Command.Fits.starts_eq (fits : command.Fits image started)
    (h : started owner = some args) : command.starts started owner = some args := by
  cases command with
  | call other procedure args' =>
    have hne : owner ≠ other := by
      rintro rfl
      cases h.symm.trans fits.2
    exact (Function.update_of_ne hne _ _).trans h
  | _ => exact h

/-- What was called stays called, with the same arguments. -/
theorem Plays.startedBy_eq (plays : Plays image started commands)
    (h : started owner = some args) : startedBy started commands owner = some args := by
  induction commands generalizing started with
  | nil => exact h
  | cons first rest ih => exact ih plays.2 (plays.1.starts_eq h)

/-- **What a sequence calls was called**, with the arguments of the only call. -/
theorem Plays.startedBy_of_mem (plays : Plays image started commands)
    (h : (fuel, .call owner procedure args) ∈ commands) :
    startedBy started commands owner = some args := by
  induction commands generalizing started with
  | nil => cases h
  | cons first rest ih =>
    rcases List.mem_cons.mp h with rfl | h
    · refine plays.2.startedBy_eq ?_
      show Function.update started owner (some args) owner = some args
      exact Function.update_self owner (some args) started
    · exact ih plays.2 h

end

/-! ### Performing operations -/

/-- A host at play, with the machines it had when it was ready. -/
structure Host.IsPlaying (ready : Host) (b : Lowered mode names p program.machine)
    (started : InstanceId → Option (List Value)) (host : Host) : Prop where
  image : host.image = ready.image
  playing : Playing ready b started host.state

section

variable {b : Lowered mode names p program.machine} {host host' : Host} {u : Unit}

variable (hready : ready.Ready program) (timed : p.Timed) (countable : p.IsCountable)

include hready timed countable

/-- **A call of the entry** on an instance that was not called before starts an activation. -/
theorem Host.IsPlaying.call {task : Value}
    (hresolve : ready.image.resolve procedure = .ok (procIndex 0 .entry))
    (hnone : started owner = none)
    (h : Returns (Host.call fuel owner procedure args) host task host')
    (hhost : Host.IsPlaying ready b started host) :
    Host.IsPlaying ready b (Function.update started owner (some args)) host' := by
  obtain ⟨index, _, hlook, hrun⟩ := returns_bind.mp h
  obtain ⟨hindex, rfl⟩ := Host.returns_look.mp hlook
  rw [hhost.image] at hindex
  obtain rfl := Except.ok.inj (hresolve.symm.trans hindex)
  obtain ⟨s', haction, rfl⟩ := Host.returns_run.mp hrun
  rw [hhost.image] at haction
  obtain ⟨i, _, hinstance, hlookup⟩ := returns_bind.mp haction
  obtain ⟨hi, rfl⟩ := Run.returns_theInstance.mp hinstance
  obtain ⟨v, mid, hentry, hrest⟩ := returns_bind.mp hlookup
  obtain ⟨_, hsettle, rfl⟩ := returns_bind_pure.mp hrest
  -- What the call has made ready fires after it, like any other request.
  have hplaying := hhost.playing.entry hready timed countable hi hnone hentry
  exact ⟨hhost.image, (served_playing hready timed countable fuel).settle hsettle hplaying⟩

/-- **Every admitted operation that returns keeps a host playing.** -/
theorem Command.keeps_playing (fits : command.Fits ready.image started)
    (h : Returns (command.perform fuel) host u host')
    (hhost : Host.IsPlaying ready b started host) :
    Host.IsPlaying ready b (command.starts started) host' := by
  have served : Served ready.image fuel (Playing ready b started) :=
    served_playing hready timed countable fuel
  cases command with
  | load | register | callClosure | newToken | cancel | setField => exact fits.elim
  | spawn =>
    obtain ⟨_, hspawn, -⟩ := returns_bind_pure.mp h
    obtain ⟨-, rfl⟩ := Host.returns_spawn hspawn
    exact ⟨hhost.image, hhost.playing.spawn⟩
  | call owner procedure args =>
    obtain ⟨_, hcall, -⟩ := returns_bind_pure.mp h
    exact hhost.call hready timed countable fits.1 fits.2 hcall
  | resume handle =>
    obtain ⟨owner, procedure⟩ := handle
    obtain ⟨hprocedure, hsome⟩ := fits
    obtain ⟨args, hstarted⟩ := Option.isSome_iff_exists.mp hsome
    obtain rfl : procedure = procIndex 0 .dispatch := hprocedure
    unfold Command.perform Host.resume at h
    obtain ⟨s', hrun, rfl⟩ := Host.returns_run.mp h
    rw [hhost.image] at hrun
    refine ⟨hhost.image, keeps_bind (keeps_bind ?_ fun _ => keeps_pure _)
      (fun _ => served.settle) hrun hhost.playing⟩
    exact fun s v s' hdispatch hs => hs.dispatch hready timed countable hstarted hdispatch
  | advanceFrame | advanceSeconds | firePending | fireTimers | runUntilIdle =>
    obtain ⟨himage, hkeeps⟩ := Served.perform (hhost.image ▸ served) rfl h
    exact ⟨himage.trans hhost.image, hkeeps hhost.playing⟩

/-- **Every admitted sequence of operations that return keeps a host playing.** -/
theorem Host.IsPlaying.performAll (plays : Plays ready.image started commands)
    (h : Returns (Host.performAll commands) host u host')
    (hhost : Host.IsPlaying ready b started host) :
    Host.IsPlaying ready b (startedBy started commands) host' := by
  induction commands generalizing host started with
  | nil =>
    obtain ⟨-, rfl⟩ := returns_pure.mp h
    exact hhost
  | cons first rest ih =>
    obtain ⟨_, mid, hfirst, hrest⟩ := returns_bind.mp h
    exact ih plays.2 hrest (first.2.keeps_playing hready timed countable plays.1 hfirst hhost)

end

end Resumable
