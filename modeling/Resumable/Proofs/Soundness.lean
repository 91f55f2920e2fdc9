import Resumable.Proofs.Upholding

/-!
# The rules of machines are sound

A host loads a machine only if it breaks none of the rules of `Machine.violations`, whoever
made it.  The rules are there so that code can be trusted: **nothing that runs on a host stops
on a slot that does not exist, on a dispatch that is not the machine's own or on code that is
not there**, whatever was done to the host before.  Only a registered function can bring up
such an error, and then its call is the last there was.

What has to be carried along is that the slots stored for a program are as many as its machine
has, and that closures hold code of loaded programs which breaks no rule.  Writing a slot from
outside is part of what can be done to a host, since it replaces a value and not the slots.

## Main definitions

* `Host.IsSound`: the machines break no rule, and the state fits them.
* `Handling`: everything that can be done to a host; `Host.handled`: the host after it.
* `Host.Stops`: something that runs on the host stops.

## Main statements

* `Sound.upheld`: code of such machines keeps the state fitting, and stops
  for ordinary reasons.
* `Handling.isSound`: so does everything that can be done to a host.
* `stops_without_fault`: nothing that runs on a host stops on a fault of its machines.
-/

namespace Resumable

variable {s s' : HostState} {image : Image}

/-- Every machine breaks no rule. -/
def AllSound (programs : Array Program) : Prop :=
  ∀ (k : Nat) (program : Program), programs[k]? = some program →
    program.machine.violations = []

/-- **The state fits machines that break no rule.** -/
structure Sound (programs : Array Program) (s : HostState) : Prop where
  stocked : Stocked programs s
  closures : ∀ (id : ClosureId) (c : Closure), s.closures[id]? = some c →
    ∃ program, programs[c.program]? = some program ∧ program.machine.scope.block c.body = []

/-- The reason to stop is what a registered function answered to the last call there was. -/
def Answered (halt : Halt) (s : HostState) : Prop :=
  ∃ call answer earlier why, s.calls.back? = some call ∧
    s.functions.get? call.function = some ⟨answer, call :: earlier⟩ ∧
    answer earlier call = .error why ∧
    halt = .error why

/-- The state fits, and the reason to stop is an ordinary one or the answer of a function. -/
def Acquitted (programs : Array Program) (halt : Halt) (s : HostState) : Prop :=
  Sound programs s ∧ (halt.isFault = false ∨ Answered halt s)

namespace Sound

variable {programs : Array Program}

/-- Only the instances and the closures matter. -/
theorem of_eq (h : Sound programs s) (instances : s'.instances = s.instances)
    (closures : s'.closures = s.closures) : Sound programs s' where
  stocked := h.stocked.of_instances instances
  closures := by
    rw [closures]
    exact h.closures

theorem pushClosure (h : Sound programs s) {c : Closure} {program : Program}
    (loaded : programs[c.program]? = some program)
    (clean : program.machine.scope.block c.body = []) :
    Sound programs { s with closures := s.closures.push c } where
  stocked := h.stocked.of_instances rfl
  closures id c' hc := by
    rcases getElem?_push_cases hc with hold | ⟨-, rfl⟩
    · exact h.closures id c' hold
    · exact ⟨program, loaded, clean⟩

/-- A statement about faults is not one about runs that may stop for any reason. -/
theorem not_lax (h : Sound programs s) : ¬ Lax (Sound programs) (Acquitted programs) := by
  intro lax
  rcases (lax .absentNode s h).2 with hordinary | ⟨_, _, _, _, -, -, -, heq⟩
  · cases hordinary
  · cases heq

/-- **Code of machines that break no rule** keeps the state fitting, and stops
for ordinary reasons. -/
theorem stable {site : Site} (all : AllSound site.image.programs) (loaded : site.Loaded) :
    Stable site (Sound site.image.programs) (Acquitted site.image.programs) where
  ordinary _ _ hhalt hs := ⟨hs, Or.inl hhalt⟩
  acts {s s'} act same hs := by
    refine ⟨?_, same ▸ hs.closures⟩
    cases act with
    | task | callBack | answer | line | closure | orphan | outcome =>
      exact hs.stocked.of_instances rfl
    | field name v => exact hs.stocked.putField site.owner name v
    | slots content seen hlength => exact hs.stocked.put loaded seen hlength
    | @start st seen =>
      have made : Stocked site.image.programs
        { s with tasks := s.tasks.push ⟨.pending, .activation⟩ } :=
        hs.stocked.of_instances rfl
      exact made.put loaded seen rfl
  answer {_ _ call _} _ hanswer hs := by
    refine ⟨hs.of_eq rfl rfl, Or.inr ⟨call, _, _, _, ?_, ?_, hanswer, rfl⟩⟩
    · exact Array.back?_push
    · exact Bindings.get?_insert_self ..
  closure _ _ excused hs :=
    hs.pushClosure loaded (List.eq_nil_iff_forall_not_mem.mpr fun v hv =>
      hs.not_lax (excused v hv))
  slots hst hs := Or.inl (hs.stocked.stored _ _ _ _ loaded hst)
  machine := all _ _ loaded ▸ excused_nil

theorem upheld (all : AllSound image.programs) :
    Upheld image (Sound image.programs) (Acquitted image.programs) where
  ordinary _ _ hhalt hs := ⟨hs, Or.inl hhalt⟩
  sites _ loaded := stable all loaded
  closures hc hs := by
    obtain ⟨program, loaded, clean⟩ := hs.closures _ _ hc
    exact Or.inl ⟨program, loaded, clean ▸ excused_nil⟩
  completes _ hs := hs.of_eq rfl rfl

/-- Firing requests does, too: the queue plays no part. -/
theorem serves (all : AllSound image.programs) (fuel : Nat) :
    Serves image fuel (Sound image.programs) (Acquitted image.programs) where
  ripe _ := trivial
  clock hs _ _ := hs.of_eq rfl rfl
  fires hs _ _ _ _ _ _ hend := (upheld all).perform fuel _ hend (hs.of_eq rfl rfl)
  refuses hs _ _ _ := ⟨hs.of_eq rfl rfl, Or.inl rfl⟩
  misses hwhy hs := by
    refine ⟨hs, Or.inl ?_⟩
    rcases hwhy with ⟨_, rfl⟩ | ⟨_, rfl⟩ <;> rfl

theorem new (config : HostConfig) : Sound #[] (HostState.new config) where
  stocked := Stocked.new config
  closures _ _ hc := by cases hc

end Sound

/-! ### Hosts -/

/-- **The machines of the host break no rule, and its state fits them.** -/
structure Host.IsSound (host : Host) : Prop where
  machines : AllSound host.image.programs
  state : Sound host.image.programs host.state

/-- The host is sound still, and the reason to stop is an ordinary one or the
answer of a function. -/
def Host.IsAcquitted (halt : Halt) (host : Host) : Prop :=
  AllSound host.image.programs ∧ Acquitted host.image.programs halt host.state

section

variable {α : Type} {F : HostFn → Prop}

/-- What the state of a sound host upholds with its machines, the host does. -/
theorem Host.IsSound.of_landed {host : Host} {r : Except Halt α}
    (all : AllSound image.programs)
    (h : Landed (Host.On image (Sound image.programs))
      (fun halt => Host.On image (Acquitted image.programs halt)) r host) :
    Landed Host.IsSound Host.IsAcquitted r host := by
  cases r with
  | ok a =>
    obtain ⟨rfl, hstate⟩ := h
    exact ⟨all, hstate⟩
  | error halt =>
    obtain ⟨rfl, hstate⟩ := h
    exact ⟨all, hstate⟩

theorem Host.IsSound.of_run {action : Image → Run α} (h : ∀ image, AllSound image.programs →
      Upholds (Sound image.programs) (Acquitted image.programs) (action image)) :
    Upholds Host.IsSound Host.IsAcquitted (Host.run action) := by
  intro host r host' hend hhost
  exact Host.IsSound.of_landed hhost.machines
    (Host.upholds_run (h host.image hhost.machines) hend ⟨rfl, hhost.state⟩)

theorem Host.IsSound.intern (text : String) :
    Upholds Host.IsSound Host.IsAcquitted (Host.intern text) := by
  intro host r host' hend hhost
  obtain ⟨rfl, rfl⟩ := Prod.mk.inj hend
  exact ⟨hhost.machines, hhost.state⟩

/-- **A machine is loaded only if it breaks no rule.** -/
theorem Host.IsSound.load (m : Machine) :
    Upholds Host.IsSound Host.IsAcquitted (Host.load m) := by
  intro host r host' hend hhost
  unfold Ends at hend
  rcases Host.load_cases host m with ⟨why, hload, hwhy⟩ | ⟨hclean, -, name, hload⟩ <;>
    rw [hload] at hend
  · obtain ⟨rfl, rfl⟩ := Prod.mk.inj hend
    refine ⟨hhost.machines, hhost.state, Or.inl ?_⟩
    rcases hwhy with ⟨_, rfl⟩ | ⟨_, _, rfl⟩ <;> rfl
  · obtain ⟨rfl, rfl⟩ := Prod.mk.inj hend
    refine ⟨fun k program hk => ?_, hhost.state.stocked.load _, fun id c hc => ?_⟩
    · rcases getElem?_push_cases hk with hold | ⟨-, rfl⟩
      · exact hhost.machines k program hold
      · exact hclean
    · obtain ⟨program, loaded, hbody⟩ := hhost.state.closures id c hc
      exact ⟨program, getElem?_push_of_some loaded _, hbody⟩

/-- **A command keeps a host sound**, and where it stops, that is for an ordinary reason. -/
theorem Command.upholds_isSound (fuel : Nat) (command : Command) :
    Upholds Host.IsSound Host.IsAcquitted (command.reply fuel) := by
  cases hruns : command.runsCode with
  | true =>
    intro host r host' hend hhost
    exact Host.IsSound.of_landed hhost.machines
      ((Sound.upheld hhost.machines).reply (Sound.serves hhost.machines fuel) hruns hend
        ⟨rfl, hhost.state⟩)
  | false =>
    cases command with
    | call | resume | callClosure | advanceFrame | advanceSeconds | firePending | fireTimers
    | runUntilIdle => cases hruns
    | load m => exact upholds_bind (Host.IsSound.load m) fun _ => upholds_pure _
    | spawn =>
      refine upholds_bind (Host.IsSound.of_run fun image all => ?_) fun _ => upholds_pure _
      refine upholds_bind upholds_get fun _ =>
        upholds_bind (upholds_modify fun s hs => ?_) fun _ =>
        upholds_pure _
      exact ⟨hs.stocked.spawn, hs.closures⟩
    | register name answer =>
      refine upholds_bind (upholds_bind (Host.IsSound.intern name) fun function =>
        Host.IsSound.of_run fun image all => upholds_modify fun s hs => ?_) fun _ =>
          upholds_pure _
      exact hs.of_eq rfl rfl
    | newToken =>
      refine upholds_bind (Host.IsSound.of_run fun image all => ?_) fun _ => upholds_pure _
      exact upholds_bind upholds_get fun _ =>
        upholds_bind (upholds_modify fun s hs => hs.of_eq rfl rfl) fun _ => upholds_pure _
    | cancel token =>
      refine upholds_bind (Host.IsSound.of_run fun image all => ?_) fun _ => upholds_pure _
      cases token with
      | token id =>
        exact upholds_bind upholds_get fun _ =>
          upholds_ite (upholds_modify fun s hs => hs.of_eq rfl rfl)
            ((Sound.upheld all).ordinary.fail rfl)
      | _ => exact (Sound.upheld all).ordinary.fail rfl
    | setField owner field value =>
      refine upholds_bind (upholds_bind (Host.IsSound.intern field) fun name =>
        Host.IsSound.of_run fun image all => ?_) fun _ => upholds_pure _
      exact upholds_bind ((Sound.upheld all).ordinary.theInstance owner) fun _ =>
        upholds_modify fun s hs => ⟨hs.stocked.putField owner name value, hs.closures⟩

theorem Host.loaded_of_programOf {procedure : String} {found : Nat × Program}
    (h : Returns (Host.programOf image procedure) s found s') :
    image.programs[found.1]? = some found.2 ∧ s' = s := by
  obtain ⟨position, mid, hposition, hmatch⟩ := returns_bind.mp h
  obtain ⟨-, rfl⟩ := Run.returns_ofExcept.mp hposition
  cases hprogram : image.programs[position]? with
  | none =>
    rw [hprogram] at hmatch
    exact (Run.not_returns_fail hmatch).elim
  | some program =>
    rw [hprogram] at hmatch
    obtain ⟨rfl, rfl⟩ := returns_pure.mp hmatch
    exact ⟨hprogram, rfl⟩

/-- **Writing a slot from outside** replaces a value, whatever it is. -/
theorem Host.IsSound.setSlotValue (owner : InstanceId) (procedure slot : String)
    (value : Value) {host host' : Host} {r : Except Halt Unit}
    (h : Ends (Host.setSlotValue owner procedure slot value) host r host')
    (hhost : host.IsSound) : host'.IsSound := by
  have hlanded := Host.upholds_run (I := Sound host.image.programs)
    (E := fun _ => Sound host.image.programs) (fun s r s' hend hs => ?_) h ⟨rfl, hhost.state⟩
  · cases r with
    | ok u =>
      obtain ⟨himage, hstate⟩ := hlanded
      exact ⟨himage ▸ hhost.machines, himage ▸ hstate⟩
    | error halt =>
      obtain ⟨himage, hstate⟩ := hlanded
      exact ⟨himage ▸ hhost.machines, himage ▸ hstate⟩
  · rcases ends_bind.mp hend with ⟨halt, hhalt,
      rfl⟩ | ⟨⟨position, program⟩, mid, hprogram, hrest⟩
    · rw [silent_programOf _ _ hhalt]
      exact hs
    · obtain ⟨loaded, rfl⟩ := Host.loaded_of_programOf hprogram
      have hsite : Site.Loaded ⟨host.image, position, program, owner⟩ := loaded
      rcases ends_bind.mp hrest with ⟨halt, hhalt, rfl⟩ | ⟨found, mid, hfound, hwrite⟩
      · rw [Run.silent_require _ _ hhalt]
        exact hs
      · obtain ⟨-, rfl⟩ := Run.returns_require.mp hfound
        have hsound : Sound host.image.programs s' := by
          rcases Run.ends_modifyStorage hwrite with rfl | ⟨st, seen, rfl⟩
          · exact hs
          · exact ⟨hs.stocked.put hsite seen List.length_set, hs.closures⟩
        cases r with
        | ok u => exact hsound
        | error halt => exact hsound

end

theorem Host.IsSound.new (names : NameTable) (config : HostConfig) :
    (Host.new names config).IsSound where
  machines k program hk := by cases hk
  state := Sound.new config

/-! ### Everything that can be done to a host -/

/-- What can be done to a host: an operation of a session, or writing a slot by name. -/
inductive Handling where
  | operate (operation : Operation)
  | setSlotValue (owner : InstanceId) (procedure slot : String) (value : Value)

/-- The host after it, whether it returned or failed. -/
def Handling.after (host : Host) : Handling → Host
  | .operate operation => operation.after host
  | .setSlotValue owner procedure slot value =>
    (show Except Halt Unit × Host from Host.setSlotValue owner procedure slot value host).2

/-- The host after one thing after another was done to it, what failed included. -/
def Host.handled (host : Host) (handlings : List Handling) : Host :=
  handlings.foldl Handling.after host

/-- **One thing done to a host keeps it sound.** -/
theorem Handling.isSound (handling : Handling) {host : Host} (h : host.IsSound) :
    (handling.after host).IsSound := by
  cases handling with
  | setSlotValue owner procedure slot value =>
    exact h.setSlotValue owner procedure slot value rfl
  | operate operation =>
    obtain ⟨r, hends⟩ := operation.ends_after host
    cases operation with
    | ask query =>
      rw [Handling.after, query.silent_answer hends]
      exact h
    | perform fuel command =>
      have hlanded := command.upholds_isSound fuel hends h
      cases r with
      | ok reply => exact hlanded
      | error halt => exact ⟨hlanded.1, hlanded.2.1⟩

/-- **So does any number of them.** -/
theorem Host.IsSound.handled {host : Host} (h : host.IsSound) (handlings : List Handling) :
    (host.handled handlings).IsSound := by
  induction handlings generalizing host with
  | nil => exact h
  | cons first rest ih => exact ih (first.isSound h)

/-! ### What runs on a host -/

/-- **Something that runs on the host stops**: a procedure, a closure, or a command that runs
code, and with it whatever it runs on the way.  The state is the one that the run leaves. -/
inductive Host.Stops (host : Host) (halt : Halt) : HostState → Prop where
  | procedure (fuel : Nat) (index : ProcIndex) (owner : InstanceId)
    (args : List Value) {s' : HostState}
    (ends : Ends (runProcedure host.image fuel index owner args) host.state
      (.error halt) s') : Stops host halt s'
  | closure (fuel : Nat) (id : ClosureId) {s' : HostState}
    (ends : Ends (runClosure host.image fuel id) host.state (.error halt) s') :
      Stops host halt s'
  | command (fuel : Nat) (command : Command) {host' : Host} (runs : command.runsCode)
    (ends : Ends (command.reply fuel) host (.error halt) host') : Stops host halt host'.state

/-- **The rules are sound**: whatever was done to a host, what runs on it stops neither on
a slot that does not exist, nor on a dispatch that is not the machine's own, nor on code
that is not there.  A run ends with such an error only where a registered function
answered its call with it. -/
theorem stops_without_fault {names : NameTable} {config : HostConfig}
    {handlings : List Handling} {halt : Halt} {s' : HostState}
    (stops : ((Host.new names config).handled handlings).Stops halt s') :
    halt.isFault = false ∨ Answered halt s' := by
  have hhost := (Host.IsSound.new names config).handled handlings
  cases stops with
  | procedure fuel index owner args ends =>
    exact ((Sound.upheld hhost.machines).runProcedure fuel index owner
      args ends hhost.state).2
  | closure fuel id ends =>
    exact ((Sound.upheld hhost.machines).runClosure fuel id ends hhost.state).2
  | command fuel command runs ends =>
    exact ((Sound.upheld hhost.machines).reply (Sound.serves hhost.machines fuel) runs ends
      ⟨rfl, hhost.state⟩).2.2

namespace Handmade

/-- The strings of a machine written by hand. -/
def names : NameTable := .internAll .empty ["Hand", "HandStep", "state", "status"]

/-- A machine that no procedure is lowered to: with every dispatch it makes a closure that
overwrites the status. -/
def machine : Machine where
  procedure := ⟨1⟩
  params := []
  locals := []
  result := .unit
  slots := [⟨0, ⟨3⟩, .int, .state⟩, ⟨1, ⟨4⟩, .int, .status⟩]
  stateSlot := 0
  statusSlot := 1
  resultSlot := none
  cancelSlot := none
  entry := { name := ⟨1⟩, body := [.setState .none 0, .returnTask .none] }
  dispatch :=
    { name := ⟨2⟩
      body := [
        .expr .none
          (.lambda ⟨.unit, .none⟩ [.assign .none (.slot 1) (.slot ⟨.int, .none⟩ 0)]),
        .switch .none 0 [
          .mk 0 [.setState .none 1, .schedule .none ⟨2⟩ .nextFrame, .ret .none .absent],
          .mk 1 [.finish .none .succeeded .absent]]] }
  stateCount := 2

/-- The machine is loaded, an instance is made, and its state is overwritten with something
that is no number. -/
def handlings : List Handling := [
  .operate (.perform 0 (.load machine)),
  .operate (.perform 0 .spawn),
  .setSlotValue 0 "Hand" "state" (.str "off")]

/-- The host after that. -/
def host : Host := (Host.new names ⟨1.0, 10⟩).handled handlings

theorem stops : host.Stops (.error (.typeMismatch .int .str))
    (show Except Halt Reply × Host from (Command.resume ⟨0, 1⟩).reply 5 host).2.state :=
  .command 5 (.resume ⟨0, 1⟩) rfl (ends_of_stopped? (by decide +kernel))

end Handmade

theorem handmade_without_fault :
    Handmade.machine.violations.isEmpty ∧
    Handmade.host.image.programs.map Program.name = #["Hand"] ∧
      ∃ s', Handmade.host.Stops (.error (.typeMismatch .int .str)) s' ∧
        ((Halt.error (.typeMismatch .int .str)).isFault = false ∨
          Answered (.error (.typeMismatch .int .str)) s') :=
  ⟨by decide +kernel, by decide +kernel, _, Handmade.stops,
    stops_without_fault Handmade.stops⟩

end Resumable
