import Resumable.Proofs.Ending

/-!
# What firing requests keeps

Every kind of step of a host takes requests from the queue one by one and performs them, and
moves the clock on the way.  **What survives one request taken and performed survives every
step**: which requests are taken, in which order and how many, does not matter.  A step can
also stop, on a request whose action does or on a request that is one too many, and what is
asked of these is asked of the step.

## Main definitions

* `Keeps I x`: a run that returns keeps `I`.
* `Fires image fuel admits I E`: moving the clock upholds `I` and `E`, and so does taking a
  request, whether it is performed or is one too many.  Only requests that are admitted need
  to be performed, and those that are ripe are.
* `Serves image fuel I E`: the same for every request.
* `Served image fuel I`: moving the clock keeps `I`, and so does taking a request
  and performing it.

## Main statements

* `takeFirst_eq_some`, `Scheduler.perm_of_take?`: taking a request leaves all the others.
* `Fires.drain`, `Fires.fireSeqs`, `Fires.advanceUntilIdle`: the three loops.
* `Fires.settle`, `Fires.advanceFrame`, `Fires.advanceSeconds`, `Serves.fireTimers`,
  `Serves.firePending`, `Fires.runUntilIdle`: the kinds of step.
-/

namespace Resumable

variable {α : Type} {I : HostState → Prop} {E : Halt → HostState → Prop} {r : Request}
  {image : Image} {fuel : Nat}

/-- A run that returns keeps a property of the state. -/
def Keeps {α : Type} (I : HostState → Prop) (x : Run α) : Prop :=
  ∀ ⦃s a s'⦄, Returns x s a s' → I s → I s'

section

variable {β : Type} {x : Run α} {f : α → Run β}

theorem Upholds.keeps (hx : Upholds I E x) : Keeps I x := fun _ _ _ h hs => hx h hs

theorem keeps_bind (hx : Keeps I x) (hf : ∀ a, Keeps I (f a)) : Keeps I (x >>= f) := by
  intro s b s'' h hs
  obtain ⟨a, s', ha, hb⟩ := returns_bind.mp h
  exact hf a hb (hx ha hs)

theorem keeps_silent (hx : Silent x) : Keeps I x := by
  intro s a s' h hs
  rw [hx h]
  exact hs

theorem keeps_pure (a : α) : Keeps I (pure a : Run α) := keeps_silent (silent_pure a)

theorem keeps_modify {g : HostState → HostState} (hg : ∀ s, I s → I (g s)) :
    Keeps I (modify g : Run PUnit) := by
  intro s a s' h hs
  rw [returns_modify.mp h]
  exact hg s hs

end

/-! ### Taking requests -/

/-- **The first element with a property** is taken, and the others stay in their order. -/
theorem takeFirst_eq_some {p : α → Bool} {l others : List α} {a : α}
    (h : takeFirst p l = some (a, others)) :
    p a = true ∧ ∃ before after, l = before ++ a :: after ∧ others = before ++ after ∧
    ∀ b ∈ before, p b = false := by
  induction l generalizing others with
  | nil => cases h
  | cons first rest ih =>
    unfold takeFirst at h
    split at h
    case isTrue hfirst =>
      obtain ⟨rfl, rfl⟩ := Prod.mk.inj (Option.some.inj h)
      exact ⟨hfirst, [], rest, rfl, rfl, by simp⟩
    case isFalse hfirst =>
      obtain ⟨⟨a', others'⟩, hrest, heq⟩ := Option.map_eq_some_iff.mp h
      obtain ⟨rfl, rfl⟩ := Prod.mk.inj heq
      obtain ⟨ha, before, after, rfl, rfl, hbefore⟩ := ih hrest
      refine ⟨ha, first :: before, after, rfl, rfl, fun b hb => ?_⟩
      rcases List.mem_cons.mp hb with rfl | hb
      · simpa using hfirst
      · exact hbefore b hb

namespace Scheduler

variable {q q' : Scheduler} {p : Request → Bool}

variable (h : q.take? p = some (r, q'))

include h

/-- What is taken is the first request that passes the test. -/
theorem take?_eq_some : p r = true ∧ q' = { q with pending := q'.pending } ∧
      ∃ before after, q.pending = before ++ r :: after ∧ q'.pending = before ++ after ∧
        ∀ b ∈ before, p b = false := by
  obtain ⟨⟨r', others⟩, hfirst, heq⟩ := Option.map_eq_some_iff.mp h
  obtain ⟨rfl, rfl⟩ := Prod.mk.inj heq
  obtain ⟨hr, hsplit⟩ := takeFirst_eq_some hfirst
  exact ⟨hr, rfl, hsplit⟩

/-- What is taken was pending. -/
theorem mem_of_take? : r ∈ q.pending := by
  obtain ⟨-, -, before, after, hsplit, -⟩ := take?_eq_some h
  simp [hsplit]

/-- What is left stands in its order. -/
theorem sublist_of_take? : q'.pending.Sublist q.pending := by
  obtain ⟨-, -, before, after, hsplit, hothers, -⟩ := take?_eq_some h
  rw [hsplit, hothers]
  exact (List.sublist_cons_self r after).append_left before

theorem nextSeq_of_take? : q'.nextSeq = q.nextSeq := by
  obtain ⟨-, hq, -⟩ := take?_eq_some h
  rw [hq]

/-- **Taking a request** leaves all the others in the queue. -/
theorem perm_of_take? : q.pending.Perm (r :: q'.pending) := by
  obtain ⟨-, -, before, after, hsplit, hothers, -⟩ := take?_eq_some h
  rw [hsplit, hothers]
  exact List.perm_middle

end Scheduler

/-- A request for tasks is ripe when the tasks are done; one that time makes due always is. -/
def Request.Ripe (tasks : TaskTable) (r : Request) : Prop :=
  ∀ ids mode, r.due = .completion ids mode → tasks.done ids mode = true

variable {s s' : HostState}

theorem Request.ripe_of_isTimer {tasks : TaskTable} (h : r.due.isTimer = true) :
    r.Ripe tasks := by
  intro ids mode hdue
  rw [hdue] at h
  cases h

/-- What selects takes one request out of the queue. -/
def Selects (select : HostState → Option (Request × HostState)) : Prop :=
  ∀ ⦃s r s'⦄, select s = some (r, s') →
    ∃ p q, s.scheduler.take? p = some (r, q) ∧ s' = { s with scheduler := q }

/-- Ready requests are taken out of the queue. -/
theorem selects_takeReady : Selects HostState.takeReady? := by
  intro s r s' h
  obtain ⟨⟨r', q⟩, htake, heq⟩ := Option.map_eq_some_iff.mp h
  obtain ⟨rfl, rfl⟩ := Prod.mk.inj heq
  exact ⟨_, q, htake, rfl⟩

/-- What is taken when it is due, is ready or is a timer. -/
theorem takeDue?_cases (h : s.takeDue? = some (r, s')) :
    s.takeReady? = some (r, s') ∨ ∃ q, s.scheduler.takeDueTimer? = some (r, q) ∧
    s' = { s with scheduler := q } := by
  unfold HostState.takeDue? at h
  split at h
  case h_1 taken hready => exact Or.inl (hready.trans h)
  case h_2 =>
    obtain ⟨⟨r', q⟩, htake, heq⟩ := Option.map_eq_some_iff.mp h
    obtain ⟨rfl, rfl⟩ := Prod.mk.inj heq
    exact Or.inr ⟨q, htake, rfl⟩

/-- Due requests are taken out of the queue. -/
theorem selects_takeDue : Selects HostState.takeDue? := by
  intro s r s' h
  obtain hready | ⟨q, htake, rfl⟩ := takeDue?_cases h
  · exact selects_takeReady hready
  · exact ⟨_, q, htake, rfl⟩

theorem ripe_of_takeReady (h : s.takeReady? = some (r, s')) : r.Ripe s.tasks := by
  obtain ⟨⟨r', q⟩, htake, heq⟩ := Option.map_eq_some_iff.mp h
  obtain ⟨rfl, rfl⟩ := Prod.mk.inj heq
  intro ids mode hdue
  obtain ⟨hready, -⟩ := Scheduler.take?_eq_some htake
  simpa [hdue] using hready

theorem ripe_of_takeDue (h : s.takeDue? = some (r, s')) : r.Ripe s.tasks := by
  obtain hready | ⟨q, htake, rfl⟩ := takeDue?_cases h
  · exact ripe_of_takeReady hready
  · obtain ⟨hdue, -⟩ := Scheduler.take?_eq_some htake
    apply Request.ripe_of_isTimer
    cases hkind : r.due with
    | seconds time | frame number => rfl
    | completion tasks mode =>
      rw [hkind] at hdue
      cases hdue

/-- Moving the clock leaves the queue. -/
theorem Scheduler.advanceTo_eq (q : Scheduler) (due : Due) :
    (q.advanceTo due).pending = q.pending ∧ (q.advanceTo due).nextSeq = q.nextSeq := by
  cases due with
  | seconds time => exact ⟨rfl, rfl⟩
  | completion tasks mode => exact ⟨rfl, rfl⟩
  | frame number =>
    unfold advanceTo
    dsimp only
    induction number - q.frame with
    | zero => exact ⟨rfl, rfl⟩
    | succ count ih => exact ih

/-! ### Steps -/

/-- More requests fire than are allowed: the step stops there. -/
theorem ends_runaway {r : Except Halt α} :
    Ends (runaway : Run α) s r s' ↔ r = .error
      (.error (.runawaySchedule s.config.maxDispatch)) ∧ s' = s :=
  ends_get_bind.trans ends_throw

/-- Taking the request of a number does not stop. -/
theorem returns_takeSeq? (seq : Nat) (s : HostState) : Returns (takeSeq? seq) s none s ∨
      ∃ r q q', s.scheduler.take? (fun r => r.seq == seq) = some (r, q) ∧
        q'.pending = q.pending ∧
        q'.nextSeq = q.nextSeq ∧ Returns (takeSeq? seq) s (some r)
          { s with scheduler := q' } := by
  unfold takeSeq?
  simp only [Returns, ends_get_bind]
  cases htaken : s.scheduler.takeSeq? seq with
  | none => exact Or.inl rfl
  | some taken =>
    obtain ⟨⟨r, q⟩, hfirst, rfl⟩ := Option.map_eq_some_iff.mp htaken
    obtain ⟨hpending, hnext⟩ := q.advanceTo_eq r.due
    exact Or.inr ⟨r, q, _, hfirst, hpending, hnext, rfl⟩

/-- **What one request upholds**, where the requests that are performed are admitted.  The
clock may have moved between taking the request and performing it.  A request that is one too
many has been taken, too. -/
structure Fires (image : Image) (fuel : Nat) (admits : HostState → Request → Prop)
    (I : HostState → Prop) (E : Halt → HostState → Prop) : Prop where
  ripe : ∀ {s : HostState} {r : Request}, r.Ripe s.tasks → admits s r
  clock : ∀ {s : HostState} {q : Scheduler}, I s → q.pending = s.scheduler.pending →
    q.nextSeq = s.scheduler.nextSeq → I { s with scheduler := q }
  fires : ∀ {s : HostState} {p : Request → Bool} {r : Request} {q q' : Scheduler}, I s →
    s.scheduler.take? p = some (r, q) → admits s r → q'.pending = q.pending →
    q'.nextSeq = q.nextSeq →
    ∀ {e : Except Halt Unit} {s' : HostState},
      Ends (perform image fuel r.action) { s with scheduler := q' } e s' → Landed I E e s'
  refuses : ∀ {s : HostState} {p : Request → Bool} {r : Request} {q q' : Scheduler}, I s →
    s.scheduler.take? p = some (r, q) → q'.pending = q.pending → q'.nextSeq = q.nextSeq →
    E (.error (.runawaySchedule s.config.maxDispatch)) { s with scheduler := q' }
  /-- A step for a request that is not there stops, and so does one that
  never comes to rest. -/
  misses : ∀ {s : HostState} {why : HostError},
    (∃ index, why = .noPendingRequest index) ∨ (∃ frames, why = .neverIdle frames) →
    I s → E (.error why) s

namespace Fires

variable {admits : HostState → Request → Prop}

variable (h : Fires image fuel admits I E)

include h

/-- **Draining**, by induction on the budget. -/
theorem drain {select : HostState → Option (Request × HostState)} (hselect : Selects select)
    (hripe : ∀ {s r s'}, select s = some (r, s') → r.Ripe s.tasks) (budget : Nat) :
    Upholds I E (drain image fuel select budget) := by
  induction budget with
  | zero =>
    intro s r s' hend hs
    unfold Resumable.drain at hend
    rw [ends_get_bind] at hend
    cases htaken : select s with
    | none =>
      rw [htaken] at hend
      exact upholds_pure _ hend hs
    | some taken =>
      obtain ⟨request, t⟩ := taken
      rw [htaken] at hend
      obtain ⟨p, q, htake, rfl⟩ := hselect htaken
      obtain ⟨rfl, rfl⟩ := ends_runaway.mp (ends_set_bind.mp hend)
      exact h.refuses (s := s) hs htake rfl rfl
  | succ budget ih =>
    intro s r s' hend hs
    unfold Resumable.drain at hend
    rw [ends_get_bind] at hend
    cases htaken : select s with
    | none =>
      rw [htaken] at hend
      exact upholds_pure _ hend hs
    | some taken =>
      obtain ⟨request, t⟩ := taken
      rw [htaken] at hend
      obtain ⟨p, q, htake, rfl⟩ := hselect htaken
      have hadmitted := h.ripe (hripe htaken)
      have hrest := ends_set_bind.mp hend
      rcases ends_bind.mp hrest with ⟨halt, hperform, rfl⟩ | ⟨_, mid, hperform, hdrain⟩
      · exact h.fires hs htake hadmitted rfl rfl hperform
      · exact ih hdrain (h.fires hs htake hadmitted rfl rfl hperform)

theorem settle : Upholds I E (settle image fuel) :=
  upholds_bind upholds_get fun _ =>
    upholds_bind (h.drain selects_takeReady ripe_of_takeReady _) fun _ => upholds_pure _

theorem fireDue : Upholds I E (fireDue image fuel) :=
  upholds_bind upholds_get fun _ =>
    upholds_bind (h.drain selects_takeDue ripe_of_takeDue _) fun _ => upholds_pure _

/-- Advancing a frame upholds the invariant. -/
theorem advanceFrame : Upholds I E (advanceFrame image fuel) :=
  upholds_bind (upholds_modify fun _ hs => h.clock hs rfl rfl) fun _ => h.fireDue

theorem advanceSeconds (seconds : Float) : Upholds I E (advanceSeconds image fuel seconds) :=
  upholds_bind (upholds_modify fun _ hs => h.clock hs rfl rfl) fun _ => h.fireDue

/-- **Firing requests by their numbers**, by induction on the numbers: the requests of these
numbers have to be admitted. -/
theorem fireSeqs {seqs : List Nat}
    (hseqs : ∀ s r, I s → r ∈ s.scheduler.pending → r.seq ∈ seqs → admits s r)
    (budget : Nat) : Upholds I E (fireSeqs image fuel seqs budget) := by
  induction seqs generalizing budget with
  | nil => exact upholds_pure _
  | cons seq rest ih =>
    intro s r s' hend hs
    have hlater := ih fun s r hs hr hseq => hseqs s r hs hr (List.mem_cons_of_mem _ hseq)
    unfold Resumable.fireSeqs at hend
    rcases returns_takeSeq? seq s with htake | ⟨request, q, q', htake, hpending, hnext, htook⟩
    · exact hlater budget (htake.ends_bind.mp hend) hs
    · have hfire := htook.ends_bind.mp hend
      have hadmitted : admits s request := by
        refine hseqs s request hs (Scheduler.mem_of_take? htake) ?_
        rw [beq_iff_eq.mp (Scheduler.take?_eq_some htake).1]
        exact List.mem_cons_self
      -- What the request makes ready is drained before the next number is looked for.
      have hfired : ∀ {e t}, Ends (fire image fuel request budget)
        { s with scheduler := q' } e t →
          Landed I E e t := by
        intro e t hends
        cases budget with
        | zero =>
          obtain ⟨rfl, rfl⟩ := ends_runaway.mp hends
          exact h.refuses (s := s) hs htake hpending hnext
        | succ budget =>
          rcases ends_bind.mp hends with ⟨halt, hperform, rfl⟩ | ⟨_, mid, hperform, hdrain⟩
          · exact h.fires hs htake hadmitted hpending hnext hperform
          · exact h.drain selects_takeReady ripe_of_takeReady _ hdrain
              (h.fires hs htake hadmitted hpending hnext hperform)
      rcases ends_bind.mp hfire with ⟨halt, hstop, rfl⟩ | ⟨left, mid, hret, hfires⟩
      · exact hfired hstop
      · exact hlater left hfires (hfired hret)

/-- **Advancing frame by frame**, by induction on the frames that are left. -/
theorem advanceUntilIdle (frames fired : Nat) :
    Upholds I E (advanceUntilIdle image fuel frames fired) := by
  induction frames generalizing fired with
  | zero =>
    exact upholds_bind upholds_get fun _ =>
      upholds_ite (upholds_throw fun _ => h.misses (Or.inr ⟨_, rfl⟩)) (upholds_pure _)
  | succ frames ih =>
    exact upholds_bind upholds_get fun _ =>
      upholds_ite (upholds_bind h.advanceFrame fun more => ih (fired + more)) (upholds_pure _)

theorem runUntilIdle : Upholds I E (runUntilIdle image fuel) :=
  upholds_bind h.fireDue fun _ => h.advanceUntilIdle _ _

end Fires

/-- **What one request upholds**, whatever request it is. -/
abbrev Serves (image : Image) (fuel : Nat) :
    (HostState → Prop) → (Halt → HostState → Prop) → Prop :=
  Fires image fuel fun _ _ => True

namespace Serves

theorem fireTimers (h : Serves image fuel I E) : Upholds I E (fireTimers image fuel) :=
  upholds_bind upholds_get fun _ => upholds_bind upholds_get fun _ =>
    upholds_bind (h.fireSeqs (fun _ _ _ _ _ => trivial) _) fun _ => upholds_pure _

theorem firePending (h : Serves image fuel I E) (index : Nat) :
    Upholds I E (firePending image fuel index) :=
  upholds_bind upholds_get fun _ =>
    upholds_bind (Run.upholds_require (fun _ => h.misses (Or.inl ⟨index, rfl⟩)) _) fun _ =>
      upholds_bind upholds_get fun _ =>
        upholds_bind (h.fireSeqs (fun _ _ _ _ _ => trivial) _) fun _ => upholds_pure _

end Serves

/-! ### Steps that return -/

/-- **What one request keeps**, where the step returns. -/
structure Served (image : Image) (fuel : Nat) (I : HostState → Prop) : Prop where
  clock : ∀ {s : HostState} {q : Scheduler}, I s → q.pending = s.scheduler.pending →
    I { s with scheduler := q }
  fires : ∀ {s s' : HostState} {p : Request → Bool} {r : Request} {q q' : Scheduler}, I s →
    s.scheduler.take? p = some (r, q) → q'.pending = q.pending →
    Returns (perform image fuel r.action) { s with scheduler := q' } () s' → I s'

namespace Served

theorem serves (h : Served image fuel I) : Serves image fuel I fun _ _ => True where
  ripe _ := trivial
  clock hs same _ := h.clock hs same
  fires {_ _ _ _ _} hs htake _ hpending _ {e s'} hend := by
    cases e with
    | ok u => exact h.fires hs htake hpending hend
    | error halt => trivial
  refuses _ _ _ _ := trivial
  misses _ _ := trivial

theorem settle (h : Served image fuel I) : Keeps I (settle image fuel) :=
  h.serves.settle.keeps

end Served

end Resumable
