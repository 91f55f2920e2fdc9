import Resumable.Proofs.CallBack
import Resumable.Proofs.Command

/-!
# No wake-up is lost

**After any accepted sequence of operations, every activation that is running has exactly one
outstanding call back.**  A request leaves the queue before its dispatch runs, so the sentence
is false in between; the excuse of `Attended` is what the taken request leaves behind, and
performing it gives the excuse back.

## Main definitions

* `Host.IsAttended`: a host whose programs are lowered procedures and which owes
  nobody a call back.

## Main statements

* `Command.keeps_attended`: every operation that returns keeps a host attended.
* `callBacks_eq_one_of_running`: no wake-up is lost.
-/

namespace Resumable

open Machine (TaskStatus)

variable {fuel : Nat} {host host' : Host} {u : Unit}

section

variable {image : Image}

/-- **Taking a request and performing it** keeps a host attended: the call back that was taken
is either asked for again or no longer needed. -/
theorem served_attended (lowered : AllLowered image.programs) (fuel : Nat) :
    Served image fuel (Attended image.programs []) where
  clock hs hpending := hs.of_callBacks rfl rfl fun handle _ =>
    Or.inr ⟨List.not_mem_nil, congrArg (List.countP _) hpending⟩
  fires := by
    intro s s' p r q q' hs htake hpending hperform
    have hcount : ∀ handle, r.action ≠ .resume handle →
        q'.callBacks handle = s.scheduler.callBacks handle := fun handle hne =>
      (congrArg (List.countP _) hpending).trans (Scheduler.callBacks_take? htake hne)
    cases haction : r.action with
    | resume handle =>
      rw [haction] at hperform
      obtain ⟨v, hrun, -⟩ := returns_bind_pure.mp hperform
      refine runProcedure_attends lowered fuel hrun [] ?_
      refine hs.of_callBacks rfl rfl fun other hnot =>
        Or.inr ⟨List.not_mem_nil, hcount other ?_⟩
      rw [haction]
      rintro heq
      exact hnot (List.mem_singleton.mpr (Action.resume.inj heq).symm)
    | complete task =>
      rw [haction] at hperform
      obtain rfl := returns_modify.mp hperform
      refine hs.of_callBacks rfl rfl fun other _ => Or.inr ⟨List.not_mem_nil, hcount other ?_⟩
      rw [haction]
      exact fun heq => by cases heq

theorem keeps_attended_runProcedure (lowered : AllLowered image.programs) (index : ProcIndex)
    (owner : InstanceId) (args : List Value) :
    Keeps (Attended image.programs []) (runProcedure image fuel index owner args) :=
  fun _ _ _ h hs => runProcedure_attends lowered fuel h []
    (hs.mono fun _ hmem => by cases hmem)

end

/-- A host whose programs are lowered procedures, in which everything is in order and nobody
is owed a call back. -/
structure Host.IsAttended (host : Host) : Prop where
  lowered : AllLowered host.image.programs
  attended : Attended host.image.programs [] host.state

namespace Host.IsAttended

variable {α : Type}

/-- A run that keeps the state attended keeps the host attended. -/
theorem of_run {action : Image → Run α} {a : α} (h : Returns (Host.run action) host a host')
    (hkeeps : AllLowered host.image.programs →
      Keeps (Attended host.image.programs []) (action host.image))
    (hhost : host.IsAttended) : host'.IsAttended := by
  obtain ⟨s', hrun, rfl⟩ := Host.returns_run.mp h
  exact ⟨hhost.lowered, hkeeps hhost.lowered hrun hhost.attended⟩

theorem of_intern {text : String} {name : Name}
    (h : Returns (Host.intern text) host name host') (hhost : host.IsAttended) :
    host'.IsAttended := by
  rw [Host.returns_intern h]
  exact ⟨hhost.lowered, hhost.attended⟩

/-- A program that was just loaded has no activations. -/
theorem of_load {m : Machine} (h : Returns (Host.load m) host u host') (lowered : m.IsLowered)
    (hhost : host.IsAttended) : host'.IsAttended := by
  obtain ⟨hstate, name, hprograms⟩ := Host.returns_load h
  obtain ⟨hlowered, hstored, hunstored, hclosures, hawake⟩ := hhost
  have hnew {k program} (hk : host'.image.programs[k]? = some program) :=
    getElem?_push_cases (hprograms ▸ hk)
  refine ⟨fun k program hk => ?_, fun k program owner st hk hst => ?_,
    fun k owner m' st hk hst => ?_, fun id c hc =>
      ?_, fun k program owner st hk hst hruns hnot => ?_⟩
  · rcases hnew hk with hold | ⟨-, rfl⟩
    · exact hlowered k program hold
    · exact lowered
  · rw [hstate] at hst
    rcases hnew hk with hold | ⟨hnone, rfl⟩
    · exact hstored k program owner st hold hst
    · obtain rfl := hunstored k owner m st hnone hst
      obtain ⟨_, _, _, _, -, hlower⟩ := lowered
      obtain ⟨b⟩ := lowered_of_lowerProcedure hlower
      exact b.fits_fresh
  · rw [hstate] at hst
    exact hunstored k owner m' st (getElem?_of_push_eq_none (hprograms ▸ hk)) hst
  · rw [hstate] at hc
    obtain ⟨program, hk, hplain⟩ := hclosures id c hc
    refine ⟨program, ?_, hplain⟩
    rw [hprograms]
    exact getElem?_push_of_some hk _
  · rw [hstate] at hst ⊢
    rcases hnew hk with hold | ⟨hnone, rfl⟩
    · exact hawake k program owner st hold hst hruns hnot
    · obtain rfl := hunstored k owner m st hnone hst
      cases hruns.task

/-- On an instance that was just made nothing runs. -/
theorem of_spawn {id : InstanceId} (h : Returns Host.spawn host id host')
    (hhost : host.IsAttended) : host'.IsAttended := by
  obtain ⟨-, rfl⟩ := Host.returns_spawn h
  obtain ⟨hlowered, hstored, hunstored, hclosures, hawake⟩ := hhost
  refine ⟨hlowered, fun k program owner st hk hst =>
    ?_, fun k owner m st hk hst => ?_, hclosures,
    fun k program owner st hk hst hruns hnot => ?_⟩
  · rcases HostState.storage?_spawn hst with hold | rfl
    · exact hstored k program owner st hk hold
    · obtain ⟨_, _, _, _, -, hlower⟩ := hlowered k program hk
      obtain ⟨b⟩ := lowered_of_lowerProcedure hlower
      exact b.fits_fresh
  · rcases HostState.storage?_spawn hst with hold | rfl
    · exact hunstored k owner m st hk hold
    · rfl
  · rcases HostState.storage?_spawn hst with hold | rfl
    · exact hawake k program owner st hk hold hruns hnot
    · cases hruns.task

theorem new (names : NameTable) (config : HostConfig) :
    (Host.new names config).IsAttended := by
  have hnone : ∀ k : Nat, (Host.new names config).image.programs[k]? = none := fun k => rfl
  refine ⟨fun k program hk => ?_, fun k program owner st hk hst =>
    ?_, fun k owner m st hk hst => ?_, fun id c hc => ?_, fun k program owner st hk hst => ?_⟩
  · rw [hnone] at hk
    cases hk
  · rw [hnone] at hk
    cases hk
  · cases hst
  · cases hc
  · cases hst

end Host.IsAttended

/-- **Every operation that returns keeps a host attended.** -/
theorem Command.keeps_attended {command : Command}
    (lowered : ∀ m, command = .load m → m.IsLowered)
    (h : Returns (command.perform fuel) host u host') (hhost : host.IsAttended) :
    host'.IsAttended := by
  cases command with
  | load m => exact hhost.of_load h (lowered m rfl)
  | spawn =>
    obtain ⟨_, hspawn, -⟩ := returns_bind_pure.mp h
    exact hhost.of_spawn hspawn
  | register name answer =>
    obtain ⟨_, mid, hintern, hrun⟩ := returns_bind.mp h
    refine (hhost.of_intern hintern).of_run hrun fun _ => keeps_modify fun s hs => ?_
    exact hs.of_callBacks rfl rfl fun handle hnot => Or.inr ⟨hnot, rfl⟩
  | call owner procedure args =>
    obtain ⟨_, hcall, -⟩ := returns_bind_pure.mp h
    obtain ⟨index, _, hlook, hrun⟩ := returns_bind.mp hcall
    obtain ⟨-, rfl⟩ := Host.returns_look.mp hlook
    refine hhost.of_run hrun fun hlowered => ?_
    exact keeps_bind (keeps_silent (Run.silent_theInstance owner)) fun _ =>
      keeps_bind (keeps_attended_runProcedure hlowered _ _ _) fun _ =>
        keeps_bind (served_attended hlowered fuel).settle fun _ => keeps_pure _
  | resume handle =>
    unfold Command.perform Host.resume at h
    refine hhost.of_run h fun hlowered => ?_
    exact keeps_bind (keeps_bind (keeps_attended_runProcedure hlowered _ _ _) fun _ =>
      keeps_pure _)
      fun _ => (served_attended hlowered fuel).settle
  | callClosure closure =>
    obtain ⟨_, hcall, -⟩ := returns_bind_pure.mp h
    refine hhost.of_run hcall fun hlowered => ?_
    cases closure with
    | closure id =>
      refine keeps_bind (fun s v s' hrun hs =>
        attended_of_runClosure hlowered hrun hs) fun _ => ?_
      exact keeps_bind (served_attended hlowered fuel).settle fun _ => keeps_pure _
    | unit | bool | int | float | str | array | task | token =>
      exact fun _ _ _ hfail => (Run.not_returns_fail hfail).elim
  | newToken =>
    obtain ⟨_, htoken, -⟩ := returns_bind_pure.mp h
    refine hhost.of_run htoken fun _ => keeps_bind (keeps_silent silent_get) fun _ =>
      keeps_bind (keeps_modify fun s hs => ?_) fun _ => keeps_pure _
    exact hs.of_callBacks rfl rfl fun handle hnot => Or.inr ⟨hnot, rfl⟩
  | cancel token =>
    unfold Command.perform Host.cancel at h
    refine hhost.of_run h fun _ => ?_
    cases token with
    | token id =>
      refine keeps_bind (keeps_silent silent_get) fun t => ?_
      intro s _ s' hret hs
      rcases returns_ite.mp hret with ⟨-, hmodify⟩ | ⟨-, hfail⟩
      · rw [returns_modify.mp hmodify]
        exact hs.of_callBacks rfl rfl fun handle hnot => Or.inr ⟨hnot, rfl⟩
      · exact (Run.not_returns_fail hfail).elim
    | unit | bool | int | float | str | array | task | closure =>
      exact fun _ _ _ hfail => (Run.not_returns_fail hfail).elim
  | setField owner field value =>
    obtain ⟨name, mid, hintern, hrun⟩ := returns_bind.mp h
    refine (hhost.of_intern hintern).of_run hrun fun _ => ?_
    intro s _ s' hmodify hs
    obtain ⟨-, rfl⟩ := Run.returns_modifyInstance.mp hmodify
    exact hs.putField owner name value
  | advanceFrame | advanceSeconds | firePending | fireTimers | runUntilIdle =>
    obtain ⟨himage, hkeeps⟩ := (served_attended hhost.lowered fuel).perform rfl h
    exact ⟨himage ▸ hhost.lowered, himage ▸ hkeeps hhost.attended⟩

/-- Sequences of operations keep a host attended. -/
theorem Host.IsAttended.performAll {commands : List (Nat × Command)}
    (lowered : ∀ fuel m, (fuel, .load m) ∈ commands → m.IsLowered)
    (h : Returns (Host.performAll commands) host u host') (hhost : host.IsAttended) :
    host'.IsAttended := by
  induction commands generalizing host with
  | nil =>
    obtain ⟨-, rfl⟩ := returns_pure.mp h
    exact hhost
  | cons first rest ih =>
    obtain ⟨fuel, command⟩ := first
    obtain ⟨_, mid, hfirst, hrest⟩ := returns_bind.mp h
    refine ih (fun fuel m hmem => lowered fuel m (List.mem_cons_of_mem _ hmem)) hrest ?_
    refine command.keeps_attended (fun m hload => ?_) hfirst hhost
    rw [hload] at lowered
    exact lowered fuel m List.mem_cons_self

/-- **No wake-up is lost.**  After any sequence of operations that all return, every
activation that is running has exactly one outstanding call back of its dispatch. -/
theorem callBacks_eq_one_of_running {names : NameTable} {config : HostConfig}
    {commands : List (Nat × Command)} {host : Host}
    (lowered : ∀ fuel m, (fuel, .load m) ∈ commands → m.IsLowered)
    (accepted : Returns (Host.performAll commands) (Host.new names config) () host)
    {k : Nat} {program : Program} {owner : InstanceId} {st : Storage}
    (loaded : host.image.programs[k]? = some program)
    (stored : host.state.storage? owner k program.machine = some st) (task : st.task.isSome)
    (running : st.slots[program.machine.statusSlot]? = some (.int TaskStatus.running.code)) :
    host.state.scheduler.callBacks ⟨owner, procIndex k .dispatch⟩ = 1 := by
  have hattended := (Host.IsAttended.new names config).performAll lowered accepted
  exact hattended.attended.awake k program owner st loaded stored
    ⟨task, running⟩ List.not_mem_nil

/-! ### A greeter that waits -/

namespace Greeter

/-- Load the greeter, make an instance and call it there. -/
def commands : List (Nat × Command) :=
  [(0, .load machine), (0, .spawn), (9, .call 0 "Greet" [])]

/-- The host after that. -/
@[irreducible] def waiting : Host :=
  (show Except Halt Unit × Host from
    Host.performAll commands (.new (lowerProcedure {} procedure names).2 ⟨1.0, 10⟩)).2

theorem accepted :
    Returns (Host.performAll commands)
      (.new (lowerProcedure {} procedure names).2 ⟨1.0, 10⟩) ()
      waiting := by
  have hok : (show Except Halt Unit × Host from Host.performAll commands
      (.new (lowerProcedure {} procedure names).2 ⟨1.0, 10⟩)).1.isOk = true := by
        decide +kernel
  unfold waiting
  exact eq_mk_ok_of_isOk hok

end Greeter

theorem greeter_callBack : ∃ program st, Greeter.waiting.image.programs[0]? = some program ∧
    Greeter.waiting.state.storage? 0 0 program.machine = some st ∧ st.task.isSome ∧
    st.slots[program.machine.statusSlot]? = some (.int TaskStatus.running.code) ∧
    Greeter.waiting.state.scheduler.callBacks ⟨0, procIndex 0 .dispatch⟩ = 1 := by
  have hfound : (Greeter.waiting.image.programs[0]?.bind fun program =>
      (Greeter.waiting.state.storage? 0 0 program.machine).bind fun st =>
        st.task.bind fun _ => (st.slots[program.machine.statusSlot]?).bind Value.int?) =
          some 0 := by
    decide +kernel
  obtain ⟨program, hload, hfound⟩ := Option.bind_eq_some_iff.mp hfound
  obtain ⟨st, hst, hfound⟩ := Option.bind_eq_some_iff.mp hfound
  obtain ⟨id, htask, hstatus⟩ := Option.bind_eq_some_iff.mp hfound
  have hlowered : ∀ fuel m, (fuel, Command.load m) ∈ Greeter.commands → m.IsLowered := by
    intro fuel m hmem
    simp only [Greeter.commands, List.mem_cons, Prod.mk.injEq,
      Command.load.injEq, reduceCtorEq, and_false, List.not_mem_nil, or_false] at hmem
    rw [hmem.2]
    exact ⟨{}, Greeter.procedure, Greeter.names, _, by decide, Greeter.lowered⟩
  refine ⟨program, st, hload, hst, Option.isSome_of_mem htask, eq_some_int hstatus, ?_⟩
  exact callBacks_eq_one_of_running hlowered Greeter.accepted hload hst
    (Option.isSome_of_mem htask) (eq_some_int hstatus)

end Resumable
