import Mathlib.Data.List.Forall2
import Resumable.Proofs.Session

/-!
# Hosts in tandem

Two hosts are driven by the same operations.  Which requests fire, in which order and how
often, depends on the clock, the queue and the tasks only, so **hosts that agree on these stay
in step** as long as the code of their machines keeps them in step.  What else the hosts agree
on is left open: a `Tandem` says which relation is kept, and has one law for each thing that
an operation does.

The same lemma serves for one host: a relation between a host and itself is a
property of the host.

## Main definitions

* `Tandem`: a relation between the programs and states of two hosts that operations keep.
* `Tandem.Related`: two hosts so related.
* `Tandem.Paired`: commands that may be performed side by side.

## Main statements

* `Tandem.drain`, `Tandem.fireSeqs`, `Tandem.advanceUntilIdle`: the loops that fire requests.
* `Tandem.reply`: commands performed side by side return the same and keep the hosts related.
* `Tandem.related_after`: so do sequences of operations, those that fail included.
-/

namespace Resumable

variable {P Q : Array Program} {α : Type} {select : HostState → Option (Request × HostState)}
  {left right : Host}

/-- What a program is found by: its name and the names of its procedures. -/
def Program.labels (p : Program) : String × Name × Name :=
  (p.name, p.machine.entry.name, p.machine.dispatch.name)

/-- What a machine is found by, once it is loaded. -/
def Machine.labels (m : Machine) : Name × Name × Name :=
  (m.procedure, m.entry.name, m.dispatch.name)

theorem findIdx?_of_labels (h : P.map Program.labels = Q.map Program.labels)
    (p : String × Name × Name → Bool) :
    P.findIdx? (fun program => p program.labels) = Q.findIdx? fun program =>
      p program.labels := by
  have hmap : ∀ R : Array Program,
      R.findIdx? (fun program => p program.labels) = (R.map Program.labels).findIdx? p := by
    intro R
    rw [Array.findIdx?_map]
    rfl
  rw [hmap, hmap, h]

/-- Programs that are found by the same labels have the same procedures. -/
theorem procedure?_of_labels (h : P.map Program.labels = Q.map Program.labels)
    (names : NameTable) (name : Name) :
    (Image.mk P names).procedure? name = (Image.mk Q names).procedure? name := by
  have hdispatch := findIdx?_of_labels h fun labels => labels.2.2 == name
  have hentry := findIdx?_of_labels h fun labels => labels.2.1 == name
  unfold Image.procedure?
  simp only [Program.labels] at hdispatch hentry
  rw [hdispatch, hentry]

/-- **A relation between two hosts that operations keep.** -/
structure Tandem where
  /-- The reasons for which operations may stop. -/
  halts : Halt → Prop
  /-- The functions that may be registered. -/
  functions : HostFn → Prop
  /-- The machines that may be loaded side by side. -/
  machines : Machine → Machine → Prop
  programs : Array Program → Array Program → Prop
  states : Array Program → Array Program → HostState → HostState → Prop
  tolerates : ∀ why : HostError, why.isStructural = false → halts (.error why)
  labels : ∀ {P Q}, programs P Q → P.map Program.labels = Q.map Program.labels
  /-- The hosts differ in their instances and closures only. -/
  common : ∀ {P Q s t}, states P Q s t →
    t = { s with instances := t.instances, closures := t.closures }
  size : ∀ {P Q s t}, states P Q s t → s.instances.size = t.instances.size
  reschedules : ∀ {P Q s t}, states P Q s t → ∀ q,
    states P Q { s with scheduler := q } { t with scheduler := q }
  retokens : ∀ {P Q s t}, states P Q s t → ∀ k,
    states P Q { s with tokens := k } { t with tokens := k }
  completes : ∀ {P Q s t}, states P Q s t → ∀ id,
    states P Q { s with tasks := s.tasks.completeScheduled id }
      { t with tasks := t.tasks.completeScheduled id }
  registers : ∀ {P Q s t}, states P Q s t → ∀ name answer, functions answer →
    states P Q { s with functions := s.functions.insert name ⟨answer, []⟩ }
      { t with functions := t.functions.insert name ⟨answer, []⟩ }
  fields : ∀ {P Q s t}, states P Q s t → ∀ owner name v,
    states P Q (s.putField owner name v) (t.putField owner name v)
  spawns : ∀ {P Q s t}, programs P Q → states P Q s t →
    states P Q { s with instances := s.instances.push .empty }
      { t with instances := t.instances.push .empty }
  checks : ∀ {m n}, machines m n → m.violations = n.violations ∧ m.labels = n.labels
  loads : ∀ {P Q m n}, programs P Q → machines m n → ∀ name,
    programs (P.push ⟨name, m⟩) (Q.push ⟨name, n⟩) ∧
      ∀ {s t}, states P Q s t → states (P.push ⟨name, m⟩) (Q.push ⟨name, n⟩) s t
  runs : ∀ {P Q}, programs P Q → ∀ names fuel index owner args,
    InStep (states P Q) halts (runProcedure ⟨P, names⟩ fuel index owner args)
      (runProcedure ⟨Q, names⟩ fuel index owner args)
  closures : ∀ {P Q}, programs P Q → ∀ names fuel id,
    InStep (states P Q) halts (runClosure ⟨P, names⟩ fuel id) (runClosure ⟨Q, names⟩ fuel id)

namespace Tandem

variable {T : Tandem} {s t : HostState}

/-! ### What the hosts have in common -/

section

variable (h : T.states P Q s t)

include h

theorem scheduler_eq : t.scheduler = s.scheduler := by
  rw [T.common h]

theorem tasks_eq : t.tasks = s.tasks := by rw [T.common h]

theorem config_eq : t.config = s.config := by
  rw [T.common h]

theorem tokens_eq : t.tokens = s.tokens := by
  rw [T.common h]

theorem isSome_instance (owner : InstanceId) :
    (s.instances[owner]?).isSome = (t.instances[owner]?).isSome := by
  rw [Bool.eq_iff_iff, isSome_getElem?, isSome_getElem?, T.size h]

end

/-- A name means the same procedure in both hosts. -/
theorem procedure?_eq (h : T.programs P Q) (names : NameTable) (name : Name) :
    (Image.mk P names).procedure? name = (Image.mk Q names).procedure? name :=
  procedure?_of_labels (T.labels h) names name

theorem resolve_eq (h : T.programs P Q) (names : NameTable) (procedure : String) :
    (Image.mk P names).resolve procedure = (Image.mk Q names).resolve procedure := by
  unfold Image.resolve
  rw [show (Image.mk P names).procedure? = (Image.mk Q names).procedure? from
    funext fun name => procedure?_eq h names name]

theorem program_eq (h : T.programs P Q) (names : NameTable) (procedure : String) :
    (Image.mk P names).program procedure = (Image.mk Q names).program procedure := by
  have hname := findIdx?_of_labels (T.labels h) fun labels => labels.1 == procedure
  unfold Image.program
  simp only [Program.labels] at hname
  rw [hname]

/-! ### Firing requests -/

section

variable {names : NameTable} {fuel : Nat}

theorem perform (hpq : T.programs P Q) (action : Action) :
    InStep (T.states P Q) T.halts (perform ⟨P, names⟩ fuel action)
      (perform ⟨Q, names⟩ fuel action) := by
  cases action with
  | resume handle => exact (T.runs hpq names fuel _ _ _).bind fun _ => inStep_pure _
  | complete task => exact inStep_modify fun s t h => T.completes h task

theorem runaway :
    InStep (T.states P Q) T.halts (runaway : Run α) (Resumable.runaway : Run α) := by
  intro s t h
  refine alike_get_bind ?_
  rw [config_eq h]
  exact Run.inStep_fail (T.tolerates _ rfl) h

/-- What selects looks at the clock, the queue and the tasks only, and takes a
request out of the queue. -/
def Selective (select : HostState → Option (Request × HostState)) : Prop :=
  ∃ choose : Scheduler → TaskTable → Option (Request × Scheduler), ∀ s : HostState,
    select s = (choose s.scheduler s.tasks).map fun taken =>
      (taken.1, { s with scheduler := taken.2 })

theorem selective_takeReady : Selective HostState.takeReady? :=
  ⟨fun q tasks => q.takeReady? tasks.done, fun _ => rfl⟩

theorem selective_takeDue : Selective HostState.takeDue? := by
  refine ⟨fun q tasks => (q.takeReady? tasks.done).or q.takeDueTimer?, fun s => ?_⟩
  unfold HostState.takeDue? HostState.takeReady?
  dsimp only
  cases s.scheduler.takeReady? s.tasks.done <;> rfl

/-- Selecting from both hosts takes the same request. -/
theorem Selective.alike (hselect : Selective select) (h : T.states P Q s t) :
    (select s = none ∧ select t = none) ∨
      ∃ r q, select s = some (r, { s with scheduler := q }) ∧
        select t = some (r, { t with scheduler := q }) := by
  obtain ⟨choose, hchoose⟩ := hselect
  rw [hchoose, hchoose, scheduler_eq h, tasks_eq h]
  cases choose s.scheduler s.tasks with
  | none => exact Or.inl ⟨rfl, rfl⟩
  | some taken => exact Or.inr ⟨taken.1, taken.2, rfl, rfl⟩

/-- **Draining**, by induction on the budget. -/
theorem drain (hpq : T.programs P Q) (hselect : Selective select)
    (budget : Nat) : InStep (T.states P Q) T.halts (drain ⟨P, names⟩ fuel select budget)
      (drain ⟨Q, names⟩ fuel select budget) := by
  induction budget with
  | zero =>
    intro s t h
    unfold Resumable.drain
    refine alike_get_bind ?_
    rcases hselect.alike h with ⟨hs, ht⟩ | ⟨r, q, hs, ht⟩
    · rw [hs, ht]
      exact inStep_pure _ h
    · rw [hs, ht]
      exact alike_set_bind (runaway (T.reschedules h q))
  | succ budget ih =>
    intro s t h
    unfold Resumable.drain
    refine alike_get_bind ?_
    rcases hselect.alike h with ⟨hs, ht⟩ | ⟨r, q, hs, ht⟩
    · rw [hs, ht]
      exact inStep_pure _ h
    · rw [hs, ht]
      refine alike_set_bind ?_
      exact (perform hpq r.action).bind (fun _ => ih) (T.reschedules h q)

/-- Reading the limit, and going on with it. -/
theorem get_config {f g : Nat → Run α}
    (h : ∀ limit, InStep (T.states P Q) T.halts (f limit) (g limit)) :
    InStep (T.states P Q) T.halts (do f (← get).config.maxDispatch)
      (do g (← get).config.maxDispatch) := by
  intro s t hst
  refine alike_get_bind ?_
  rw [config_eq hst]
  exact h _ hst

theorem settle (hpq : T.programs P Q) :
    InStep (T.states P Q) T.halts (settle ⟨P, names⟩ fuel) (settle ⟨Q, names⟩ fuel) :=
  get_config fun limit => (drain hpq selective_takeReady limit).bind fun _ => inStep_pure _

theorem fireDue (hpq : T.programs P Q) :
    InStep (T.states P Q) T.halts (fireDue ⟨P, names⟩ fuel) (fireDue ⟨Q, names⟩ fuel) :=
  get_config fun limit => (drain hpq selective_takeDue limit).bind fun _ => inStep_pure _

theorem moveClock (move : Scheduler → Scheduler) : InStep (T.states P Q) T.halts
      (modify fun s => { s with scheduler := move s.scheduler } : Run PUnit)
      (modify fun s => { s with scheduler := move s.scheduler }) := by
  refine inStep_modify fun s t h => ?_
  rw [scheduler_eq h]
  exact T.reschedules h _

theorem advanceFrame (hpq : T.programs P Q) :
    InStep (T.states P Q) T.halts (advanceFrame ⟨P, names⟩ fuel)
      (advanceFrame ⟨Q, names⟩ fuel) :=
  (moveClock Scheduler.advanceFrame).bind fun _ => fireDue hpq

theorem advanceSeconds (hpq : T.programs P Q) (seconds : Float) :
    InStep (T.states P Q) T.halts (advanceSeconds ⟨P, names⟩ fuel seconds)
      (advanceSeconds ⟨Q, names⟩ fuel seconds) :=
  (moveClock fun q => q.advanceSeconds seconds).bind fun _ => fireDue hpq

theorem takeSeq? (seq : Nat) :
    InStep (T.states P Q) T.halts (takeSeq? seq) (takeSeq? seq) := by
  intro s t h
  unfold Resumable.takeSeq?
  refine alike_get_bind ?_
  rw [scheduler_eq h]
  cases s.scheduler.takeSeq? seq with
  | none => exact inStep_pure _ h
  | some taken =>
    exact (inStep_modify fun s t h => T.reschedules h taken.2).bind (fun _ => inStep_pure _) h

section

variable (hpq : T.programs P Q)

include hpq

theorem fire (r : Request) (budget : Nat) :
    InStep (T.states P Q) T.halts (fire ⟨P, names⟩ fuel r budget)
      (fire ⟨Q, names⟩ fuel r budget) := by
  cases budget with
  | zero => exact runaway
  | succ budget =>
    exact (perform hpq r.action).bind fun _ => drain hpq selective_takeReady budget

/-- **Firing requests by their numbers**, by induction on the numbers. -/
theorem fireSeqs (seqs : List Nat) (budget : Nat) :
    InStep (T.states P Q) T.halts (fireSeqs ⟨P, names⟩ fuel seqs budget)
      (fireSeqs ⟨Q, names⟩ fuel seqs budget) := by
  induction seqs generalizing budget with
  | nil => exact inStep_pure _
  | cons seq rest ih =>
    unfold Resumable.fireSeqs
    refine (takeSeq? seq).bind fun taken => ?_
    cases taken with
    | none => exact ih budget
    | some r => exact (fire hpq r budget).bind fun left => ih left

theorem fireTimers :
    InStep (T.states P Q) T.halts (fireTimers ⟨P, names⟩ fuel)
      (fireTimers ⟨Q, names⟩ fuel) := by
  intro s t h
  unfold Resumable.fireTimers
  refine alike_get_bind (alike_get_bind ?_)
  rw [config_eq h, scheduler_eq h]
  exact (fireSeqs hpq s.scheduler.timerSeqs _).bind (fun _ => inStep_pure _) h

theorem firePending (index : Nat) :
    InStep (T.states P Q) T.halts (firePending ⟨P, names⟩ fuel index)
      (firePending ⟨Q, names⟩ fuel index) := by
  intro s t h
  unfold Resumable.firePending
  refine alike_get_bind ?_
  rw [scheduler_eq h]
  refine (Run.inStep_require _ fun _ => T.tolerates _ rfl).bind (fun r => ?_) h
  exact get_config fun limit => (fireSeqs hpq [r.seq] limit).bind fun _ => inStep_pure _

/-- **Advancing frame by frame**, by induction on the frames that are left. -/
theorem advanceUntilIdle (frames fired : Nat) :
    InStep (T.states P Q) T.halts (advanceUntilIdle ⟨P, names⟩ fuel frames fired)
      (advanceUntilIdle ⟨Q, names⟩ fuel frames fired) := by
  induction frames generalizing fired with
  | zero =>
    intro s t h
    unfold Resumable.advanceUntilIdle
    refine alike_get_bind ?_
    rw [scheduler_eq h]
    exact alike_ite Iff.rfl (fun _ => Run.inStep_fail (T.tolerates _ rfl) h) fun _ =>
      inStep_pure _ h
  | succ frames ih =>
    intro s t h
    unfold Resumable.advanceUntilIdle
    refine alike_get_bind ?_
    rw [scheduler_eq h]
    refine alike_ite Iff.rfl (fun _ => ?_) fun _ => inStep_pure _ h
    exact (advanceFrame hpq).bind (fun more => ih (fired + more)) h

theorem runUntilIdle :
    InStep (T.states P Q) T.halts (runUntilIdle ⟨P, names⟩ fuel)
      (runUntilIdle ⟨Q, names⟩ fuel) :=
  (fireDue hpq).bind fun fired => advanceUntilIdle hpq _ fired

end

end

/-! ### Commands -/

/-- Two hosts that know the same names, with programs and states that are related. -/
structure Related (T : Tandem) (left right : Host) : Prop where
  names : left.image.names = right.image.names
  programs : T.programs left.image.programs right.image.programs
  states : T.states left.image.programs right.image.programs left.state right.state

/-- Does the command bring in something that the machines did not have? -/
def installs : Command → Bool
  | .load _ | .register .. => true
  | _ => false

/-- Commands that may be performed side by side: machines and functions that are brought in
have to be allowed, and everything else is the same. -/
inductive Paired (T : Tandem) : Command → Command → Prop where
  | load {m n : Machine} (allowed : T.machines m n) : Paired T (.load m) (.load n)
  | register {name : String} {answer : HostFn} (allowed : T.functions answer) :
    Paired T (.register name answer) (.register name answer)
  | same {command : Command} (plain : installs command = false) : Paired T command command

/-- A run on both hosts. -/
theorem run {x y : Image → Run α}
    (h : ∀ P Q names, T.programs P Q → InStep (T.states P Q) T.halts
      (x ⟨P, names⟩) (y ⟨Q, names⟩)) :
    InStep T.Related T.halts (Host.run x) (Host.run y) := by
  rintro ⟨⟨P, names⟩, s⟩ ⟨⟨Q, names'⟩, t⟩ ⟨hnames, hpq, hst⟩
  obtain rfl : names = names' := hnames
  refine alike_run ((h P Q names hpq hst).mono ?_ ?_)
  · rintro a b s' t' ⟨rfl, hst'⟩
    exact ⟨rfl, rfl, hpq, hst'⟩
  · rintro halt s' t' ⟨hhalt, hst'⟩
    exact ⟨hhalt, rfl, hpq, hst'⟩

theorem intern (text : String) :
    InStep T.Related T.halts (Host.intern text) (Host.intern text) := by
  rintro ⟨⟨P, names⟩, s⟩ ⟨⟨Q, names'⟩, t⟩ ⟨hnames, hpq, hst⟩
  obtain rfl : names = names' := hnames
  exact Returns.alike (x := Host.intern text)
    (y := Host.intern text) rfl rfl ⟨rfl, rfl, hpq, hst⟩

/-- An instance looked up on both sides. -/
theorem theInstance {f : Instance → Run α} {g : Instance → Run α} (owner : InstanceId)
    (h : ∀ i j, InStep (T.states P Q) T.halts (f i) (g j)) :
    InStep (T.states P Q) T.halts (Run.theInstance owner >>= f)
      (Run.theInstance owner >>= g) := by
  intro s t hst
  have hsome := isSome_instance hst owner
  refine Alike.bind (Q := fun _ _ s' t' => T.states P Q s' t') ?_
    fun i j s' t' hst' => h i j hst'
  refine alike_get_bind ?_
  cases hs : s.instances[owner]? with
  | none =>
    rw [hs] at hsome
    rw [Option.isSome_eq_false_iff.mp hsome.symm |> Option.isNone_iff_eq_none.mp]
    exact alike_throw ⟨T.tolerates _ rfl, hst⟩
  | some i =>
    rw [hs] at hsome
    obtain ⟨j, ht⟩ := Option.isSome_iff_exists.mp hsome.symm
    rw [ht]
    exact alike_pure hst

theorem resolve (procedure : String) :
    InStep T.Related T.halts (Host.look fun host => host.image.resolve procedure)
      (Host.look fun host => host.image.resolve procedure) := by
  rintro ⟨⟨P, names⟩, s⟩ ⟨⟨Q, names'⟩, t⟩ ⟨hnames, hpq, hst⟩
  obtain rfl : names = names' := hnames
  refine alike_look (resolve_eq hpq names procedure)
    (fun _ _ => ⟨rfl, rfl, hpq, hst⟩) fun why hwhy => ?_
  unfold Image.resolve at hwhy
  split at hwhy
  · cases hwhy
  · obtain rfl := Except.error.inj hwhy
    exact ⟨T.tolerates _ rfl, rfl, hpq, hst⟩

theorem retoken (change : Array Bool → Array Bool) :
    InStep (T.states P Q) T.halts (modify fun s =>
      { s with tokens := change s.tokens } : Run PUnit)
      (modify fun s => { s with tokens := change s.tokens }) := by
  refine inStep_modify fun s t h => ?_
  rw [tokens_eq h]
  exact T.retokens h _

/-- Loading machines side by side: both are refused for the same reason,
or both are loaded. -/
theorem load {m n : Machine} (allowed : T.machines m n) :
    InStep T.Related T.halts (Host.load m) (Host.load n) := by
  rintro ⟨⟨P, names⟩, s⟩ ⟨⟨Q, names'⟩, t⟩ ⟨hnames, hpq, hst⟩
  obtain rfl : names = names' := hnames
  obtain ⟨hviolations, hlabels⟩ := T.checks allowed
  obtain ⟨hname, hprocedures⟩ := Prod.mk.inj hlabels
  obtain ⟨hentry, hdispatch⟩ := Prod.mk.inj hprocedures
  have hends : (∃ why, why.isStructural = false ∧ (Image.mk P names).load m = .error why ∧
        (Image.mk Q names).load n = .error why) ∨
      ∃ name, (Image.mk P names).load m = .ok ⟨P.push ⟨name, m⟩, names⟩ ∧
        (Image.mk Q names).load n = .ok ⟨Q.push ⟨name, n⟩, names⟩ := by
    unfold Image.load
    dsimp only
    rw [← hviolations, ← hname, ← hentry, ← hdispatch]
    simp only [← procedure?_eq hpq names]
    split
    case isFalse => exact Or.inl ⟨_, rfl, rfl, rfl⟩
    case isTrue =>
      split
      case h_1 => exact Or.inl ⟨_, rfl, rfl, rfl⟩
      case h_2 => exact Or.inr ⟨_, rfl, rfl⟩
  intro r host r' host' hends₁ hends₂
  unfold Host.load Ends at hends₁ hends₂
  rcases hends with ⟨why, hplain, hleft, hright⟩ | ⟨name, hleft, hright⟩
  · simp only [hleft] at hends₁
    simp only [hright] at hends₂
    obtain ⟨rfl, rfl⟩ := Prod.mk.inj hends₁
    obtain ⟨rfl, rfl⟩ := Prod.mk.inj hends₂
    exact ⟨rfl, T.tolerates why hplain, rfl, hpq, hst⟩
  · simp only [hleft] at hends₁
    simp only [hright] at hends₂
    obtain ⟨rfl, rfl⟩ := Prod.mk.inj hends₁
    obtain ⟨rfl, rfl⟩ := Prod.mk.inj hends₂
    obtain ⟨hpushed, hstates⟩ := T.loads hpq allowed name
    exact ⟨rfl, rfl, hpushed, hstates hst⟩

/-- **Commands performed side by side** return the same, or fail for the same reason, and keep
the hosts related. -/
theorem reply (fuel : Nat) {command command' : Command} (paired : T.Paired command command') :
    InStep T.Related T.halts (command.reply fuel) (command'.reply fuel) := by
  cases paired with
  | load allowed => exact (load allowed).bind fun _ => inStep_pure _
  | register allowed =>
    refine InStep.bind ((intern _).bind fun name => run fun P Q names hpq => ?_) fun _ =>
      inStep_pure _
    exact inStep_modify fun s t h => T.registers h _ _ allowed
  | same plain =>
    cases command with
    | load | register => cases plain
    | spawn =>
      refine InStep.bind (run fun P Q names hpq s t h => alike_get_bind ?_) fun _ =>
        inStep_pure _
      rw [T.size h]
      exact (inStep_modify fun s t h => T.spawns hpq h).bind (fun _ => inStep_pure _) h
    | call owner procedure args =>
      refine InStep.bind ?_ fun _ => inStep_pure _
      refine InStep.bind (resolve procedure) fun index => run fun P Q names hpq => ?_
      exact theInstance owner fun _ _ =>
        (T.runs hpq names fuel index owner args).bind fun _ =>
        (settle hpq).bind fun _ => inStep_pure _
    | resume handle =>
      refine InStep.bind (run fun P Q names hpq => ?_) fun _ => inStep_pure _
      exact (perform hpq _).bind fun _ => settle hpq
    | callClosure closure =>
      refine InStep.bind (run fun P Q names hpq => ?_) fun _ => inStep_pure _
      cases closure with
      | closure id =>
        exact (T.closures hpq names fuel id).bind fun _ =>
          (settle hpq).bind fun _ => inStep_pure _
      | unit | bool | int | float | str | array | task | token =>
        exact Run.inStep_fail (T.tolerates _ rfl)
    | newToken =>
      refine InStep.bind (run fun P Q names hpq s t h => alike_get_bind ?_) fun _ =>
        inStep_pure _
      rw [tokens_eq h]
      exact (retoken fun k => k.push false).bind (fun _ => inStep_pure _) h
    | cancel token =>
      refine InStep.bind (run fun P Q names hpq => ?_) fun _ => inStep_pure _
      cases token with
      | token id =>
        intro s t h
        refine alike_get_bind ?_
        rw [tokens_eq h]
        exact alike_ite Iff.rfl (fun _ => retoken (fun k => k.setIfInBounds id true) h)
          fun _ => Run.inStep_fail (T.tolerates _ rfl) h
      | unit | bool | int | float | str | array | task | closure =>
        exact Run.inStep_fail (T.tolerates _ rfl)
    | setField owner field value =>
      refine InStep.bind ((intern _).bind fun name => run fun P Q names hpq => ?_) fun _ =>
        inStep_pure _
      exact theInstance owner fun _ _ => inStep_modify fun s t h =>
        T.fields h owner name value
    | advanceFrame =>
      exact InStep.bind (run fun P Q names hpq => advanceFrame hpq) fun _ => inStep_pure _
    | advanceSeconds seconds =>
      exact InStep.bind (run fun P Q names hpq => advanceSeconds hpq seconds) fun _ =>
        inStep_pure _
    | firePending index =>
      exact InStep.bind (run fun P Q names hpq => firePending hpq index) fun _ =>
        inStep_pure _
    | fireTimers =>
      exact InStep.bind (run fun P Q names hpq => fireTimers hpq) fun _ => inStep_pure _
    | runUntilIdle =>
      exact InStep.bind (run fun P Q names hpq => runUntilIdle hpq) fun _ => inStep_pure _

/-! ### Sessions -/

/-- Operations that may be performed side by side. -/
inductive Matched (T : Tandem) : Operation → Operation → Prop where
  | perform (fuel : Nat) {command command' : Command} (paired : T.Paired command command') :
    Matched T (.perform fuel command) (.perform fuel command')
  | ask (query : Query) : Matched T (.ask query) (.ask query)

/-- **One operation keeps two hosts related**, whether it returns or fails. -/
theorem Matched.related {operation operation' : Operation}
    (h : T.Matched operation operation') (hlr : T.Related left right) :
    T.Related (operation.after left) (operation'.after right) := by
  obtain ⟨r, hends⟩ := operation.ends_after left
  obtain ⟨r', hends'⟩ := operation'.ends_after right
  cases h with
  | perform fuel paired =>
    have halike := reply fuel paired hlr hends hends'
    cases r with
    | ok a =>
      cases r' with
      | ok b => exact halike.2
      | error _ => exact halike.elim
    | error why =>
      cases r' with
      | ok b => exact halike.elim
      | error _ => exact halike.2.2
  | ask query =>
    rw [query.silent_answer hends, query.silent_answer hends']
    exact hlr

/-- **Sequences of operations keep two hosts related.** -/
theorem related_after {operations operations' : List Operation}
    (h : List.Forall₂ T.Matched operations operations') (hlr : T.Related left right) :
    T.Related (left.after operations) (right.after operations') := by
  induction h generalizing left right with
  | nil => exact hlr
  | cons first _ ih => exact ih (first.related hlr)

end Tandem

end Resumable
