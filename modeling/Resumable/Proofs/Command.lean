import Resumable.Proofs.Firing
import Resumable.Proofs.Storage

/-!
# Sequences of operations

The operations of a host as data, so that a statement can be about every sequence of them.
Each operation of a sequence has its own bound on the depth of calls and the length of loops;
a sequence is accepted when every operation returns.

## Main definitions

* `Command`: the operations that change a host, writing slots from outside excepted.
* `Command.perform`, `Host.performAll`: performing one, and performing them in turn.
* `Command.isStep`: the operations that only fire requests.

## Main statements

* `Served.perform`: what survives every request survives the operations that
  only fire requests.
-/

namespace Resumable

variable {host host' : Host} {u : Unit}

/-- An operation of a host. -/
inductive Command where
  | load (m : Machine)
  | spawn
  | register (name : String) (answer : HostFn)
  | call (owner : InstanceId) (procedure : String) (args : List Value)
  | resume (handle : ResumeHandle)
  | callClosure (closure : Value)
  | newToken
  | cancel (token : Value)
  | setField (owner : InstanceId) (field : String) (value : Value)
  | advanceFrame
  | advanceSeconds (seconds : Float)
  | firePending (index : Nat)
  | fireTimers
  | runUntilIdle

/-- Perform an operation, and forget what it returns. -/
def Command.perform (fuel : Nat) : Command → Hosted Unit
  | .load m => Host.load m
  | .spawn => do let _ ← Host.spawn
  | .register name answer => Host.register name answer
  | .call owner procedure args => do let _ ← Host.call fuel owner procedure args
  | .resume handle => Host.resume fuel handle
  | .callClosure closure => do let _ ← Host.callClosure fuel closure
  | .newToken => do let _ ← Host.newToken
  | .cancel token => Host.cancel token
  | .setField owner field value => Host.setField owner field value
  | .advanceFrame => do let _ ← Host.advanceFrame fuel
  | .advanceSeconds seconds => do let _ ← Host.advanceSeconds fuel seconds
  | .firePending index => Host.firePending fuel index
  | .fireTimers => do let _ ← Host.fireTimers fuel
  | .runUntilIdle => do let _ ← Host.runUntilIdle fuel

/-- Does the operation only fire requests? -/
def Command.isStep : Command → Bool
  | .advanceFrame | .advanceSeconds _ | .firePending _ | .fireTimers | .runUntilIdle => true
  | _ => false

/-- Perform operations in turn, each with its bound. -/
def Host.performAll : List (Nat × Command) → Hosted Unit
  | [] => return ()
  | (fuel, command) :: rest => do
    command.perform fuel
    Host.performAll rest

namespace Host

variable {α : Type}

/-- A run on the machines of a host leaves the machines. -/
theorem ends_run {action : Image → Run α} {r : Except Halt α} :
    Ends (Host.run action) host r host' ↔
      ∃ s', Ends (action host.image) host.state r s' ∧ host' = ⟨host.image, s'⟩ := by
  obtain ⟨image, state⟩ := host
  show ((action image state).1, Host.mk image (action image state).2) = (r, host') ↔ _
  constructor
  · intro heq
    obtain ⟨hresult, hhost⟩ := Prod.mk.inj heq
    exact ⟨(action image state).2, Prod.ext hresult rfl, hhost.symm⟩
  · rintro ⟨s', hrun, rfl⟩
    have hpair : (action image state : Except Halt α × HostState) = (r, s') := hrun
    rw [hpair]

/-- A command runs its action on the state and keeps the image. -/
theorem returns_run {action : Image → Run α} {a : α} :
    Returns (Host.run action) host a host' ↔
      ∃ s', Returns (action host.image) host.state a s' ∧ host' = ⟨host.image, s'⟩ := ends_run

/-- Looking changes nothing. -/
theorem returns_look {view : Host → Except HostError α} {a : α} :
    Returns (Host.look view) host a host' ↔ view host = .ok a ∧ host' = host := by
  unfold Host.look Returns Ends
  cases hview : view host with
  | error why => simp [hview]
  | ok b =>
    simp only [hview, Prod.mk.injEq, Except.ok.injEq]
    exact ⟨fun h => ⟨h.1, h.2.symm⟩, fun h => ⟨h.1, h.2.symm⟩⟩

/-- Naming a text changes the names only. -/
theorem returns_intern {text : String} {name : Name}
    (h : Returns (Host.intern text) host name host') :
    host' = { host with image :=
      { host.image with names := (host.image.names.intern text).2 } } :=
  (congrArg Prod.snd h).symm

/-- **Making an instance** adds an empty one, with the next number. -/
theorem returns_spawn {id : InstanceId} (h : Returns Host.spawn host id host') :
    id = host.state.instances.size ∧ host' =
      ⟨host.image, { host.state with instances := host.state.instances.push .empty }⟩ := by
  obtain ⟨s', hrun, rfl⟩ := returns_run.mp h
  rw [Returns, ends_get_bind] at hrun
  obtain ⟨_, hmodify, rfl⟩ := returns_bind_pure.mp hrun
  obtain rfl := returns_modify.mp hmodify
  exact ⟨rfl, rfl⟩

/-- **Making a function callable** leaves the machines and the other functions. -/
theorem returns_register {name : String} {answer : HostFn}
    (h : Returns (Host.register name answer) host u host') :
    host'.image.programs = host.image.programs ∧ ∃ function, host'.state =
      { host.state with functions := host.state.functions.insert function ⟨answer, []⟩ } := by
  obtain ⟨function, mid, hintern, hrun⟩ := returns_bind.mp h
  obtain rfl := returns_intern hintern
  obtain ⟨s', hmodify, rfl⟩ := returns_run.mp hrun
  exact ⟨rfl, function, returns_modify.mp hmodify⟩

/-- **Loading a machine** fails and changes nothing, or adds a machine that breaks no rule
under names that are free. -/
theorem load_cases (host : Host) (m : Machine) :
    (∃ why, Host.load m host = (.error (.error why), host) ∧
      ((∃ name, why = .duplicateProcedure name) ∨
        ∃ name texts, why = .invalidMachine name texts)) ∨
    m.violations = [] ∧ (∀ n ∈ [m.entry.name, m.dispatch.name],
      (host.image.procedure? n).isSome = false) ∧
      ∃ name,
        Host.load m host = (.ok (), { host with image :=
          { host.image with programs := host.image.programs.push ⟨name, m⟩ } }) := by
  unfold Host.load Image.load
  dsimp only
  split
  case h_2 why hload =>
    refine Or.inl ⟨why, rfl, ?_⟩
    repeat' split at hload
    all_goals cases hload
    · exact Or.inl ⟨_, rfl⟩
    · exact Or.inr ⟨_, _, rfl⟩
  case h_1 image hload =>
    split at hload
    case isFalse => cases hload
    case isTrue hclean =>
      split at hload
      case h_1 => cases hload
      case h_2 hfree =>
        obtain rfl := Except.ok.inj hload
        exact Or.inr ⟨List.isEmpty_iff.mp hclean,
          fun n hn => Bool.eq_false_iff.mpr (List.find?_eq_none.mp hfree n hn), _, rfl⟩

/-- A machine that is loaded is added to those that are there. -/
theorem returns_load {m : Machine} (h : Returns (Host.load m) host u host') :
    host'.state = host.state ∧
      ∃ name, host'.image.programs = host.image.programs.push ⟨name, m⟩ := by
  unfold Returns Ends at h
  rcases load_cases host m with ⟨why, hload, -⟩ | ⟨-, -, name, hload⟩ <;> rw [hload] at h
  · cases (Prod.mk.inj h).1
  · obtain ⟨-, rfl⟩ := Prod.mk.inj h
    exact ⟨rfl, name, rfl⟩

end Host

/-- **A step** leaves the machines, and keeps what every request keeps. -/
theorem Served.perform {I : HostState → Prop} {fuel : Nat} {command : Command}
    (served : Served host.image fuel I) (step : command.isStep = true)
    (h : Returns (command.perform fuel) host u host') :
    host'.image = host.image ∧ (I host.state → I host'.state) := by
  have of_run {α : Type} {action : Image → Run α} {a : α}
    (hkeeps : Keeps I (action host.image))
      (hrun : Returns (Host.run action) host a host') :
      host'.image = host.image ∧ (I host.state → I host'.state) := by
    obtain ⟨s', hreturns, rfl⟩ := Host.returns_run.mp hrun
    exact ⟨rfl, hkeeps hreturns⟩
  cases command with
  | load | spawn | register | call | resume | callClosure | newToken | cancel | setField =>
    cases step
  | advanceFrame =>
    obtain ⟨_, hadvance, -⟩ := returns_bind_pure.mp h
    exact of_run served.serves.advanceFrame.keeps hadvance
  | advanceSeconds seconds =>
    obtain ⟨_, hadvance, -⟩ := returns_bind_pure.mp h
    exact of_run (served.serves.advanceSeconds seconds).keeps hadvance
  | firePending index =>
    unfold Command.perform Host.firePending at h
    exact of_run (served.serves.firePending index).keeps h
  | fireTimers =>
    obtain ⟨_, hfire, -⟩ := returns_bind_pure.mp h
    exact of_run served.serves.fireTimers.keeps hfire
  | runUntilIdle =>
    obtain ⟨_, hrun, -⟩ := returns_bind_pure.mp h
    exact of_run served.serves.runUntilIdle.keeps hrun

end Resumable
