import Resumable.Proofs.Act
import Resumable.Proofs.Soundness

/-!
# What an operation does

Whatever is done to a host, **what happens to its state is one of five deeds after another**:
code acts on an instance, the queue loses requests, a request completes its task, an instance
is made, or something changes that has to do with none of these.  A request completes its task
only when it is ripe, unless the operation asks for the request by its number.

So a statement about all that can be done to a host needs to look at five deeds, and not at
the loops of the scheduler.

## Main definitions

* `Deed asked`: one deed of an operation that asks for the requests of given numbers;
  `Deeds asked`: any number of them.
* `Handling.asked`: the numbers of the requests that an operation asks for.

## Main statements

* `deeds_fires`: the loops of the scheduler do deeds.
* `Handling.deeds`: so does everything that can be done to a host, whether
  it returns or fails.
* `Deeds.invariant`, `Host.handled_invariant`: what each deed keeps, everything that can be
  done to a host keeps.
-/

namespace Resumable

variable {owner : InstanceId} {I : HostState → Prop} {α β : Type} {image : Image} {fuel : Nat}
  {host host' : Host}

/-- **One deed of an operation**, which may ask for the requests of some numbers. -/
inductive Deed (asked : List Nat) : HostState → HostState → Prop where
  | code {s s' : HostState} {site : Site} (act : Act site s s') : Deed asked s s'
  /-- Requests are taken or dropped, and the clock moves. -/
  | queue (s : HostState) {q : Scheduler} (fewer : q.pending.Sublist s.scheduler.pending)
    (same : q.nextSeq = s.scheduler.nextSeq) : Deed asked s { s with scheduler := q }
  /-- A request completes its task. -/
  | fire {s : HostState} {q : Scheduler} {r : Request} {id : TaskId}
    (outstanding : r ∈ s.scheduler.pending)
    (completes : r.action = .complete id) (due : r.Ripe s.tasks ∨ r.seq ∈ asked)
    (fewer : q.pending.Sublist s.scheduler.pending) (same : q.nextSeq = s.scheduler.nextSeq) :
    Deed asked s { s with scheduler := q, tasks := s.tasks.completeScheduled id }
  | spawn (s : HostState) : Deed asked s { s with instances := s.instances.push .empty }
  /-- A function is registered, or a token changes. -/
  | aside {s s' : HostState} (scheduler : s'.scheduler = s.scheduler)
    (instances : s'.instances = s.instances)
    (tasks : s'.tasks = s.tasks) : Deed asked s s'

/-- Any number of deeds in turn. -/
def Deeds (asked : List Nat) : HostState → HostState → Prop :=
  Relation.ReflTransGen (Deed asked)

section

variable {asked : List Nat} {a b c : HostState}

/-- Nothing may happen. -/
theorem Deeds.refl (s : HostState) : Deeds asked s s := Relation.ReflTransGen.refl

theorem Deeds.trans (hab : Deeds asked a b) (hbc : Deeds asked b c) : Deeds asked a c :=
  Relation.ReflTransGen.trans hab hbc

theorem Deed.deeds (h : Deed asked a b) : Deeds asked a b := Relation.ReflTransGen.single h

theorem Acts.deeds (h : Acts owner a b) : Deeds asked a b :=
  Relation.ReflTransGen.mono (fun _ _ step => step.elim fun _ on => Deed.code on.2) _ _ h

/-- **What each deed keeps, deeds keep.** -/
theorem Deeds.invariant (step : ∀ {a b}, Deed asked a b → I a → I b) (h : Deeds asked a b)
    (ha : I a) : I b := by
  induction h with
  | refl => exact ha
  | tail _ hstep ih => exact step hstep ih

end

/-! ### Steps of the scheduler -/

section

variable {asked : List Nat}

variable {x : Run α}

/-- Running code does deeds. -/
theorem Confined.deeds (hx : Confined owner x) : Within .any (Deeds asked) x :=
  fun _ _ _ hend _ => (hx.acts hend).deeds

theorem Silent.deeds (hx : Silent x) : Within .any (Deeds asked) x := hx.within Deeds.refl

theorem deeds_bind {f : α → Run β} (hx : Within .any (Deeds asked) x)
    (hf : ∀ a, Within .any (Deeds asked) (f a)) : Within .any (Deeds asked) (x >>= f) :=
  within_bind Deeds.trans hx hf

theorem deeds_runClosure (id : ClosureId) :
    Within .any (Deeds asked) (runClosure image fuel id) := by
  intro s r s' hend _
  cases found : s.closures[id]? with
  | none =>
    rw [eq_of_runClosure found hend]
    exact .refl s
  | some c => exact (acts_of_runClosure found hend).deeds

theorem deeds_resume (handle : ResumeHandle) :
    Within .any (Deeds asked) (perform image fuel (.resume handle)) := by
  have hrun := confined_runProcedure image fuel handle.procedure handle.owner []
  exact (hrun.bind fun _ => confined_pure ()).deeds

/-- **Firing requests does deeds**, wherever the deeds began. -/
theorem deeds_fires (start : HostState) :
    Fires image fuel (fun s r => r.Ripe s.tasks ∨ r.seq ∈ asked) (Deeds asked start)
      (fun _ => Deeds asked start) where
  ripe hripe := Or.inl hripe
  clock {s q} hs pending next :=
    hs.trans (Deed.queue s (pending ▸ List.Sublist.refl _) next).deeds
  fires {s p r q q'} hs taken due pending next {e s'} hend := by
    have fewer : q'.pending.Sublist s.scheduler.pending :=
      pending ▸ Scheduler.sublist_of_take? taken
    have same : q'.nextSeq = s.scheduler.nextSeq :=
      next.trans (Scheduler.nextSeq_of_take? taken)
    have hdone : Deeds asked s s' := by
      cases haction : r.action with
      | resume handle =>
        rw [haction] at hend
        exact (Deed.queue s fewer same).deeds.trans (deeds_resume handle hend trivial)
      | complete id =>
        rw [haction] at hend
        have heq : s' = _ := (congrArg Prod.snd hend).symm
        rw [heq]
        exact (Deed.fire (Scheduler.mem_of_take? taken) haction due fewer same).deeds
    cases e with
    | ok u => exact hs.trans hdone
    | error halt => exact hs.trans hdone
  refuses {s p r q q'} hs taken pending next := by
    have fewer : q'.pending.Sublist s.scheduler.pending :=
      pending ▸ Scheduler.sublist_of_take? taken
    exact hs.trans (Deed.queue s fewer (next.trans (Scheduler.nextSeq_of_take? taken))).deeds
  misses _ hs := hs

/-- What is upheld from every start relates the start and the end. -/
theorem deeds_of_upholds
    (h : ∀ start, Upholds (Deeds asked start) (fun _ => Deeds asked start) x) :
    Within .any (Deeds asked) x := by
  intro s r s' hend _
  have hlanded := h s hend (.refl s)
  cases r with
  | ok a => exact hlanded
  | error halt => exact hlanded

theorem deeds_settle : Within .any (Deeds asked) (settle image fuel) :=
  deeds_of_upholds fun start => (deeds_fires start).settle

/-- The requests of the given numbers are asked for. -/
theorem deeds_fireSeqs (budget : Nat) :
    Within .any (Deeds asked) (fireSeqs image fuel asked budget) :=
  deeds_of_upholds fun start => (deeds_fires start).fireSeqs
    (fun _ _ _ _ hseq => Or.inr hseq) budget

end

/-! ### Operations -/

/-- What an operation on a host does to the state. -/
abbrev DoesDeeds {α : Type} (asked : List Nat) (x : Hosted α) : Prop :=
  Within .any (fun host host' : Host => Deeds asked host.state host'.state) x

section

variable {asked : List Nat}

variable {x : Hosted α}

theorem DoesDeeds.bind {f : α → Hosted β} (hx : DoesDeeds asked x)
    (hf : ∀ a, DoesDeeds asked (f a)) : DoesDeeds asked (x >>= f) :=
  within_bind Deeds.trans hx hf

theorem DoesDeeds.of_silent (hx : Silent x) : DoesDeeds asked x :=
  hx.within fun host => .refl host.state

/-- Wrapping up what an operation returns does nothing. -/
theorem DoesDeeds.wrap (hx : DoesDeeds asked x) (g : α → β) :
    DoesDeeds asked (x >>= fun a => pure (g a)) := hx.bind fun _ => .of_silent (silent_pure _)

theorem doesDeeds_run {action : Image → Run α}
    (h : ∀ image, Within .any (Deeds asked) (action image)) :
    DoesDeeds asked (Host.run action) := by
  intro host r host' hend _
  obtain ⟨s', hrun, rfl⟩ := Host.ends_run.mp hend
  exact h host.image hrun trivial

theorem doesDeeds_intern (text : String) : DoesDeeds asked (Host.intern text) := by
  intro host r host' hend _
  obtain ⟨rfl, rfl⟩ := Prod.mk.inj hend
  exact .refl _

theorem doesDeeds_load (m : Machine) : DoesDeeds asked (Host.load m) := by
  intro host r host' hend _
  unfold Host.load Ends at hend
  cases hload : host.image.load m with
  | ok image =>
    simp only [hload] at hend
    obtain ⟨-, rfl⟩ := Prod.mk.inj hend
    exact .refl _
  | error why =>
    simp only [hload] at hend
    obtain ⟨-, rfl⟩ := Prod.mk.inj hend
    exact .refl _

theorem exists_ends_of_wrap {g : α → β} {r : Except Halt β}
    (h : Ends (x >>= fun a => pure (g a)) host r host') : ∃ r', Ends x host r' host' := by
  rcases ends_bind.mp h with ⟨halt, hhalt, -⟩ | ⟨a, mid, hx, hpure⟩
  · exact ⟨_, hhalt⟩
  · rw [silent_pure _ hpure]
    exact ⟨_, hx⟩

theorem deeds_modify {u : HostState → HostState} (h : ∀ s, Deed asked s (u s)) :
    Within .any (Deeds asked) (modify u : Run PUnit) := within_modify fun s => (h s).deeds

end

/-- The numbers of the requests that a command asks for, due or not. -/
def Command.asked (s : HostState) : Command → List Nat
  | .firePending index => (s.scheduler.pending[index]?).toList.map Request.seq
  | .fireTimers => s.scheduler.timerSeqs
  | _ => []

section

variable {s s' : HostState}

theorem deeds_of_firePending {index : Nat} {r : Except Halt Unit}
    (h : Ends (firePending image fuel index) s r s') :
    Deeds ((Command.firePending index).asked s) s s' := by
  unfold firePending at h
  rw [ends_get_bind] at h
  rcases ends_bind.mp h with ⟨halt, hhalt, -⟩ | ⟨request, mid, hfound, hfire⟩
  · rw [Run.silent_require _ _ hhalt]
    exact .refl s
  · obtain ⟨hfound, rfl⟩ := Run.returns_require.mp hfound
    have hasked : (Command.firePending index).asked mid = [request.seq] := by
      simp [Command.asked, hfound]
    rw [hasked]
    exact deeds_bind (deeds_fireSeqs _) (fun _ => (silent_pure _).deeds) hfire trivial

end

/-- **A command does deeds**, whether it returns or fails. -/
theorem Command.deeds (fuel : Nat) (command : Command) {r : Except Halt Reply}
    (h : Ends (command.reply fuel) host r host') :
    Deeds (command.asked host.state) host.state host'.state := by
  cases command with
  | load m => exact (doesDeeds_load m).wrap _ h trivial
  | spawn =>
    have hspawn : DoesDeeds [] Host.spawn := doesDeeds_run fun image =>
      deeds_bind silent_get.deeds fun _ => deeds_bind (deeds_modify .spawn) fun _ =>
        (silent_pure _).deeds
    exact hspawn.wrap _ h trivial
  | register name answer =>
    have hregister : DoesDeeds [] (Host.register name answer) :=
      (doesDeeds_intern name).bind fun function =>
      doesDeeds_run fun image => deeds_modify fun s => .aside rfl rfl rfl
    exact hregister.wrap _ h trivial
  | call owner procedure args =>
    have hcall : DoesDeeds [] (Host.call fuel owner procedure args) :=
      (DoesDeeds.of_silent (silent_look _)).bind fun index => doesDeeds_run fun image =>
        deeds_bind (Run.silent_theInstance owner).deeds fun _ =>
          deeds_bind (confined_runProcedure image fuel index owner args).deeds fun _ =>
            deeds_bind deeds_settle fun _ => (silent_pure _).deeds
    exact hcall.wrap _ h trivial
  | resume handle =>
    have hresume : DoesDeeds [] (Host.resume fuel handle) := doesDeeds_run fun image =>
      deeds_bind (deeds_resume handle) fun _ => deeds_settle
    exact hresume.wrap _ h trivial
  | callClosure closure =>
    have hcall : DoesDeeds [] (Host.callClosure fuel closure) := doesDeeds_run fun image => by
      cases closure with
      | closure id =>
        exact deeds_bind (deeds_runClosure id) fun _ => deeds_bind deeds_settle fun _ =>
        (silent_pure _).deeds
      | _ => exact (Run.silent_fail _).deeds
    exact hcall.wrap _ h trivial
  | newToken =>
    have htoken : DoesDeeds [] Host.newToken := doesDeeds_run fun image =>
      deeds_bind silent_get.deeds fun _ =>
        deeds_bind (deeds_modify fun s => .aside rfl rfl rfl) fun _ =>
        (silent_pure _).deeds
    exact htoken.wrap _ h trivial
  | cancel token =>
    have hcancel : DoesDeeds [] (Host.cancel token) := doesDeeds_run fun image => by
      cases token with
      | token id =>
        refine deeds_bind silent_get.deeds fun s => ?_
        split
        · exact deeds_modify fun s => .aside rfl rfl rfl
        · exact (Run.silent_fail _).deeds
      | _ => exact (Run.silent_fail _).deeds
    exact hcancel.wrap _ h trivial
  | setField owner field value =>
    have hfield : DoesDeeds [] (Host.setField owner field value) :=
      (doesDeeds_intern field).bind fun name =>
      doesDeeds_run fun image => deeds_bind (Run.silent_theInstance owner).deeds fun _ =>
        deeds_modify fun s =>
        .code (show Act ⟨image, 0, ⟨"", default⟩, owner⟩ _ _ from .field s name value)
    exact hfield.wrap _ h trivial
  | advanceFrame =>
    have hadvance : DoesDeeds [] (Host.advanceFrame fuel) := doesDeeds_run fun image =>
      deeds_of_upholds fun start => (deeds_fires start).advanceFrame
    exact hadvance.wrap _ h trivial
  | advanceSeconds seconds =>
    have hadvance : DoesDeeds [] (Host.advanceSeconds fuel seconds) :=
      doesDeeds_run fun image =>
      deeds_of_upholds fun start => (deeds_fires start).advanceSeconds seconds
    exact hadvance.wrap _ h trivial
  | runUntilIdle =>
    have hrun : DoesDeeds [] (Host.runUntilIdle fuel) := doesDeeds_run fun image =>
      deeds_of_upholds fun start => (deeds_fires start).runUntilIdle
    exact hrun.wrap _ h trivial
  -- What these two ask for depends on the queue at their start.
  | firePending index =>
    obtain ⟨r', hfire⟩ := exists_ends_of_wrap h
    obtain ⟨s', hrun, rfl⟩ := Host.ends_run.mp hfire
    exact deeds_of_firePending hrun
  | fireTimers =>
    obtain ⟨r', hfire⟩ := exists_ends_of_wrap h
    obtain ⟨s', hrun, rfl⟩ := Host.ends_run.mp hfire
    exact deeds_bind (deeds_fireSeqs _) (fun _ => (silent_pure _).deeds) hrun trivial

/-- Writing slots from outside is what code on the instance could do. -/
theorem deeds_setSlot {asked : List Nat} (site : Site) (slot : Nat) (v : Value) :
    Within .any (Deeds asked)
    (Run.modifyStorage site.owner site.index site.machine fun st =>
      { st with slots := st.slots.set slot v }) := by
  intro s r s' hend _
  rcases Run.ends_modifyStorage hend with rfl | ⟨st, seen, rfl⟩
  · exact .refl _
  · exact (Deed.code (show Act site _ _ from .slots _ seen List.length_set)).deeds

/-- The numbers of the requests that are asked for, due or not. -/
def Handling.asked (s : HostState) : Handling → List Nat
  | .operate (.perform _ command) => command.asked s
  | .operate (.ask _) | .setSlotValue .. => []

/-- **Everything that can be done to a host does deeds**, whether it returns or fails. -/
theorem Handling.deeds (handling : Handling) (host : Host) :
    Deeds (handling.asked host.state) host.state (handling.after host).state := by
  cases handling with
  | operate operation =>
    obtain ⟨r, hends⟩ := operation.ends_after host
    cases operation with
    | ask query =>
      rw [Handling.after, query.silent_answer hends]
      exact .refl _
    | perform fuel command => exact command.deeds fuel hends
  | setSlotValue owner procedure slot value =>
    have hset : DoesDeeds [] (Host.setSlotValue owner procedure slot value) :=
      doesDeeds_run fun image =>
      deeds_bind (silent_programOf image procedure).deeds fun found =>
        deeds_bind (Run.silent_require _ _).deeds fun _ =>
          deeds_setSlot ⟨image, found.1, found.2, owner⟩ _ value
    exact hset rfl trivial

/-- **What each deed keeps, everything that can be done to a host keeps.** -/
theorem Host.handled_invariant (step : ∀ {asked a b}, Deed asked a b → I a → I b)
    (h : I host.state) (handlings : List Handling) : I (host.handled handlings).state := by
  induction handlings generalizing host with
  | nil => exact h
  | cons first rest ih => exact ih ((first.deeds host).invariant step h)

end Resumable
