import Resumable.Proofs.RequestQueue
import Resumable.Proofs.Walk

/-!
# A step drains what is due

A step of the scheduler fires requests until nothing can be fired any more.  What it fires is
code, which submits requests, replaces them and completes tasks while the step selects from
the same queue.  All the same **a step that returns has fired as many requests as it says, the
timers among them in the order of their numbers, and has left nothing that is due**.

That the timers come in order rests on two facts.  Code does not move the clock, so a timer
that is due later in the step was due before, if it was there; and a request that was not
there has a number above all that were.

## Main definitions

* `fired`: the requests whose actions were run, in order.
* `Passage image fuel s new gone s'`: how requests come and go without a refusal, with the
  numbers given in turn.
* `Firings image fuel s requests s'`: requests are fired one by one, and besides
  only the clock moves.
* `Round image fuel s new gone s'`: both of these.
* `HostState.Settled`: no timer is due, and no request has its tasks done.
* `Ticked`, `Idled`, `TimersFired`: what the steps have done when they return.

## Main statements

* `calm_of_acts`: code fires nothing and leaves the clock.
* `drained_of_drain`: what a loop that selects requests has done when it returns.
* `round_of_fireSeqs`: what firing the requests of given numbers has done when it returns.
* `steps_drain`: what the steps of a host have done when they return.
-/

namespace Resumable

variable {r : Request} {image : Image} {fuel budget left n : Nat} {s s' t : HostState}
  {gone away : List (Request × Fate)} {q q' : Scheduler} {p : Request → Bool}
  {new more : List Request} {select : HostState → Option (Request × HostState)}

/-! ### Passages -/

/-- The requests whose actions were run, in order. -/
def fired (gone : List (Request × Fate)) : List Request :=
  (gone.filter fun g => g.2 = .performed).map Prod.fst

/-- What has fired, over two lists in turn. -/
@[simp] theorem fired_append (gone away : List (Request × Fate)) :
    fired (gone ++ away) = fired gone ++ fired away := by
  simp [fired]

@[simp] theorem fired_cons_performed (r : Request) (gone : List (Request × Fate)) :
    fired ((r, .performed) :: gone) = r :: fired gone := rfl

@[simp] theorem fired_replaced (requests : List Request) :
    fired (requests.map fun r => (r, .replaced)) = [] := by
  simp [fired, List.filter_map]

theorem mem_fired : r ∈ fired gone ↔ (r, .performed) ∈ gone := by
  simp [fired]

/-- The timers among requests. -/
def timers (requests : List Request) : List Request := requests.filter fun r => r.due.isTimer

@[simp] theorem timers_append (first second : List Request) :
    timers (first ++ second) = timers first ++ timers second :=
  List.filter_append ..

theorem timers_cons (r : Request) (requests : List Request) :
    timers (r :: requests) = if r.due.isTimer then r :: timers requests
      else timers requests :=
  List.filter_cons

/-- Numbers that were given in turn. -/
abbrev Increasing (requests : List Request) : Prop :=
  requests.Pairwise fun a b => a.seq < b.seq

/-- The clock stands where it stood. -/
def Scheduler.SameClock (q q' : Scheduler) : Prop := q'.now = q.now ∧ q'.frame = q.frame

namespace Scheduler.SameClock

variable {q'' : Scheduler}

theorem refl (q : Scheduler) : q.SameClock q := ⟨rfl, rfl⟩

theorem trans (h : q.SameClock q') (h' : q'.SameClock q'') : q.SameClock q'' :=
  ⟨h'.1.trans h.1, h'.2.trans h.2⟩

theorem isDue_eq (h : q.SameClock q') (due : Due) : q'.isDue due = q.isDue due := by
  cases due with
  | seconds time => simp only [isDue, h.1]
  | frame number => simp only [isDue, h.2]
  | completion tasks mode => rfl

theorem of_take? (taken : q.take? p = some (r, q')) : q.SameClock q' := by
  obtain ⟨-, hq, -⟩ := take?_eq_some taken
  rw [hq]
  exact ⟨rfl, rfl⟩

end Scheduler.SameClock

/-- **How requests come and go** where none is refused.  New requests are numbered in turn,
and a request is replaced by a later one for the same call back. -/
structure Passage (image : Image) (fuel : Nat) (s : HostState) (new : List Request)
    (gone : List (Request × Fate)) (s' : HostState) : Prop where
  course : Course image fuel s new gone s'
  numbers : new.map Request.seq = List.range' s.scheduler.nextSeq new.length
  next : s'.scheduler.nextSeq = s.scheduler.nextSeq + new.length
  ordered : s'.scheduler.Ordered
  replaced : ∀ r, (r, .replaced) ∈ gone → ∃ handle, r.action = .resume handle ∧
    ∃ later ∈ new, later.action = .resume handle ∧ r.seq < later.seq
  unrefused : refusals gone = 0
  config : s'.config = s.config

namespace Passage

/-- Nothing happens to the queue. -/
theorem quiet (ordered : s.scheduler.Ordered)
    (pending : s'.scheduler.pending = s.scheduler.pending)
    (next : s'.scheduler.nextSeq = s.scheduler.nextSeq) (config : s'.config = s.config) :
    Passage image fuel s [] [] s' where
  course := .quiet pending
  numbers := rfl
  next := next
  ordered := ordered.sublist (pending ▸ List.Sublist.refl _) next
  replaced _ h := absurd h List.not_mem_nil
  unrefused := rfl
  config := config

/-- A request is submitted, and takes the place of what it replaces. -/
theorem submit (ordered : s.scheduler.Ordered) (due : Due) (action : Action) :
    Passage image fuel s [⟨s.scheduler.nextSeq, due, action⟩]
      ((s.scheduler.replacedBy action).map fun r => (r, .replaced))
      { s with scheduler := s.scheduler.submit due action } where
  course := .submit s due action
  numbers := rfl
  next := rfl
  ordered := ordered.submit due action
  replaced r h := by
    obtain ⟨r', hr, heq⟩ := List.mem_map.mp h
    obtain rfl := (Prod.mk.inj heq).1
    cases action with
    | complete task => cases hr
    | resume handle =>
      obtain ⟨hpending, haction⟩ := List.mem_filter.mp hr
      exact ⟨handle, of_decide_eq_true haction, _, List.mem_cons_self, rfl,
        ordered.below _ hpending⟩
  unrefused := refusals_replaced _
  config := rfl

/-- Passages add up. -/
theorem trans (first : Passage image fuel s new gone t)
    (second : Passage image fuel t more away s') :
    Passage image fuel s (new ++ more) (gone ++ away) s' where
  course := first.course.trans second.course
  numbers := by
    rw [List.map_append, first.numbers, second.numbers, first.next,
      List.length_append, List.range'_append_1]
  next := by rw [second.next, first.next, List.length_append, Nat.add_assoc]
  ordered := second.ordered
  replaced r h := by
    rcases List.mem_append.mp h with h | h
    · obtain ⟨handle, haction, later, hlater, hsame, hlt⟩ := first.replaced r h
      exact ⟨handle, haction, later, List.mem_append_left _ hlater, hsame, hlt⟩
    · obtain ⟨handle, haction, later, hlater, hsame, hlt⟩ := second.replaced r h
      exact ⟨handle, haction, later, List.mem_append_right _ hlater, hsame, hlt⟩
  unrefused := by rw [refusals_append, first.unrefused, second.unrefused]
  config := second.config.trans first.config

variable (h : Passage image fuel s new gone s')

include h

/-- New requests have numbers that were not given before. -/
theorem nextSeq_le (hr : r ∈ new) : s.scheduler.nextSeq ≤ r.seq := by
  have hseq := List.mem_map_of_mem (f := Request.seq) hr
  rw [h.numbers, List.mem_range'_1] at hseq
  exact hseq.1

theorem since : s.scheduler.Since s'.scheduler where
  next := h.next ▸ Nat.le_add_right _ _
  pending r hr hseq := by
    rcases List.mem_append.mp (h.course.accounts.symm.subset (List.mem_append_left _ hr))
      with hold | hnew
    · exact hold
    · exact absurd (h.nextSeq_le hnew) (Nat.not_le_of_lt hseq)

/-- What left the queue was there at the beginning, or came with a new number. -/
theorem mem_of_fired (hr : r ∈ fired gone) :
    r ∈ s.scheduler.pending ∨ s.scheduler.nextSeq ≤ r.seq := by
  have hgone : r ∈ gone.map Prod.fst := List.mem_map_of_mem (f := Prod.fst) (mem_fired.mp hr)
  rcases List.mem_append.mp (h.course.accounts.symm.subset (List.mem_append_right _ hgone))
    with hold | hnew
  · exact Or.inl hold
  · exact Or.inr (h.nextSeq_le hnew)

/-- **No number is met twice** among the requests that are in the queue at the
end or have left it. -/
theorem nodup (ordered : s.scheduler.Ordered) :
    ((s'.scheduler.pending ++ gone.map Prod.fst).map Request.seq).Nodup := by
  refine (h.course.accounts.map Request.seq).nodup_iff.mp ?_
  rw [List.map_append, h.numbers]
  refine List.Nodup.append ?_ List.nodup_range' ?_
  · exact List.Pairwise.map _ (fun a b hlt => Nat.ne_of_lt hlt) ordered.increasing
  · intro seq hold hnew
    obtain ⟨r, hr, rfl⟩ := List.mem_map.mp hold
    exact absurd (List.mem_range'_1.mp hnew).1 (Nat.not_le_of_lt (ordered.below r hr))

/-- No request is fired twice. -/
theorem nodup_fired (ordered : s.scheduler.Ordered) :
    ((fired gone).map Request.seq).Nodup := by
  have hgone :=
    List.Nodup.sublist ((List.sublist_append_right ..).map Request.seq) (h.nodup ordered)
  exact hgone.sublist ((List.filter_sublist.map Prod.fst).map Request.seq)

/-- What has left the queue is not in it. -/
theorem apart (ordered : s.scheduler.Ordered) (hr : r ∈ s'.scheduler.pending)
    {g : Request × Fate} (hg : g ∈ gone) : r.seq ≠ g.1.seq := by
  have hnodup := h.nodup ordered
  rw [List.map_append, List.nodup_append] at hnodup
  exact hnodup.2.2 _ (List.mem_map_of_mem hr) _ (List.mem_map_of_mem (List.mem_map_of_mem hg))

/-- A request that is in the queue no more was fired or replaced. -/
theorem fired_or_replaced (hr : r ∈ s.scheduler.pending)
    (left : r ∉ s'.scheduler.pending) : r ∈ fired gone ∨ (r, .replaced) ∈ gone := by
  rcases List.mem_append.mp (h.course.accounts.subset (List.mem_append_left _ hr))
    with hstill | hgone
  · exact absurd hstill left
  · obtain ⟨⟨r', fate⟩, hg, rfl⟩ := List.mem_map.mp hgone
    cases fate with
    | performed => exact Or.inl (mem_fired.mpr hg)
    | replaced => exact Or.inr hg
    | refused => exact absurd (List.countP_eq_zero.mp h.unrefused _ hg) (by simp)

end Passage

/-! ### Code -/

/-- Requests came and went without one being fired, and the clock stood still. -/
def Calm (image : Image) (fuel : Nat) (s s' : HostState) : Prop :=
  ∃ new gone, Passage image fuel s new gone s' ∧ fired gone = [] ∧
    s.scheduler.SameClock s'.scheduler

theorem Calm.trans (h : Calm image fuel s t) (h' : Calm image fuel t s') :
    Calm image fuel s s' := by
  obtain ⟨new, gone, passage, hfired, still⟩ := h
  obtain ⟨more, away, passage', hfired', still'⟩ := h'
  exact ⟨_, _, passage.trans passage', by rw [fired_append, hfired, hfired', List.append_nil],
    still.trans still'⟩

theorem calm_of_same (ordered : s.scheduler.Ordered) (scheduler : s'.scheduler = s.scheduler)
    (config : s'.config = s.config) : Calm image fuel s s' :=
  ⟨[], [], .quiet ordered (by rw [scheduler]) (by rw [scheduler]) config,
    rfl, scheduler ▸ .refl _⟩

theorem calm_submit (ordered : s.scheduler.Ordered) (due : Due) (action : Action) :
    Calm image fuel s { s with scheduler := s.scheduler.submit due action } :=
  ⟨_, _, .submit ordered due action, fired_replaced _, ⟨rfl, rfl⟩⟩

/-- **An act of code** fires nothing and leaves the clock. -/
theorem Act.calm {site : Site} (h : Act site s s') (ordered : s.scheduler.Ordered) :
    Calm image fuel s s' := by
  cases h with
  | task kind due fits =>
    have made : Calm image fuel s { s with tasks := s.tasks.push ⟨.pending, kind⟩ } :=
      calm_of_same ordered rfl rfl
    exact made.trans
      (calm_submit (s := { s with tasks := s.tasks.push ⟨.pending, kind⟩ }) ordered due _)
  | callBack due => exact calm_submit ordered due _
  | answer | line | closure | field | slots | start | orphan | outcome =>
    exact calm_of_same ordered rfl rfl

/-- **So does code**, whatever it calls. -/
theorem calm_of_acts {owner : InstanceId} (h : Acts owner s s')
    (ordered : s.scheduler.Ordered) : Calm image fuel s s' := by
  induction h with
  | refl => exact calm_of_same ordered rfl rfl
  | tail _ step ih =>
    have hmid := ih
    obtain ⟨new, gone, passage, -⟩ := hmid
    obtain ⟨site, -, act⟩ := step
    exact ih.trans (act.calm passage.ordered)

/-- Performing an action fires nothing besides. -/
theorem calm_of_perform {action : Action} (ordered : s.scheduler.Ordered)
    (h : Returns (perform image fuel action) s () s') : Calm image fuel s s' := by
  cases action with
  | resume handle =>
    have confined : Confined handle.owner (perform image fuel (.resume handle)) :=
      (confined_runProcedure image fuel handle.procedure handle.owner []).bind fun _ =>
        confined_pure ()
    exact calm_of_acts (confined.acts h) ordered
  | complete task =>
    rw [returns_modify.mp h]
    exact calm_of_same ordered rfl rfl

/-- **Requests are fired one by one**, and besides only the clock moves: each is taken out of
the queue, and its action is run and returns. -/
inductive Firings (image : Image) (fuel : Nat) :
    HostState → List Request → HostState → Prop where
  | done (s : HostState) : Firings image fuel s [] s
  | clock {s s' : HostState} {q : Scheduler} {requests : List Request}
    (pending : q.pending = s.scheduler.pending)
    (next : q.nextSeq = s.scheduler.nextSeq)
      (rest : Firings image fuel { s with scheduler := q } requests s') :
    Firings image fuel s requests s'
  | fire {s t s' : HostState} {p : Request → Bool} {r : Request} {q q' : Scheduler}
    {requests : List Request}
    (taken : s.scheduler.take? p = some (r, q)) (pending : q'.pending = q.pending)
      (next : q'.nextSeq = q.nextSeq)
    (fires : Returns (perform image fuel r.action) { s with scheduler := q' } () t)
    (rest : Firings image fuel t requests s') : Firings image fuel s (r :: requests) s'

theorem Firings.trans {requests : List Request} (first : Firings image fuel s requests t)
    (second : Firings image fuel t more s') : Firings image fuel s (requests ++ more) s' := by
  induction first with
  | done => exact second
  | clock pending next _ ih => exact .clock pending next (ih second)
  | fire taken pending next fires _ ih => exact .fire taken pending next fires (ih second)

/-- **A round of firing**: its requests, and what else became of requests meanwhile. -/
structure Round (image : Image) (fuel : Nat) (s : HostState) (new : List Request)
    (gone : List (Request × Fate)) (s' : HostState) : Prop where
  passage : Passage image fuel s new gone s'
  firings : Firings image fuel s (fired gone) s'

namespace Round

theorem nothing (ordered : s.scheduler.Ordered) : Round image fuel s [] [] s :=
  ⟨.quiet ordered rfl rfl rfl, .done s⟩

theorem trans (first : Round image fuel s new gone t)
    (second : Round image fuel t more away s') :
    Round image fuel s (new ++ more) (gone ++ away) s' where
  passage := first.passage.trans second.passage
  firings := by
    rw [fired_append]
    exact first.firings.trans second.firings

/-- The clock moves before a round. -/
theorem clock (h : Round image fuel { s with scheduler := q } new gone s')
    (ordered : s.scheduler.Ordered) (pending : q.pending = s.scheduler.pending)
    (next : q.nextSeq = s.scheduler.nextSeq) : Round image fuel s new gone s' where
  passage := Passage.trans (t := { s with scheduler := q })
    (.quiet ordered pending next rfl) h.passage
  firings := .clock pending next h.firings

end Round

/-- **Firing a request**: it is taken, the clock may move up to it, and its action is run. -/
theorem round_of_perform (ordered : s.scheduler.Ordered)
    (taken : s.scheduler.take? p = some (r, q)) (pending : q'.pending = q.pending)
    (next : q'.nextSeq = q.nextSeq)
    (h : Returns (perform image fuel r.action) { s with scheduler := q' } () s') :
    ∃ new gone, Round image fuel s new ((r, .performed) :: gone) s' ∧ fired gone = [] ∧
      q'.SameClock s'.scheduler := by
  have hnext : q'.nextSeq = s.scheduler.nextSeq :=
    next.trans (Scheduler.nextSeq_of_take? taken)
  have hordered : q'.Ordered :=
    ordered.sublist (pending ▸ Scheduler.sublist_of_take? taken) hnext
  obtain ⟨new, gone, passage, hfired, still⟩ :=
    calm_of_perform (s := { s with scheduler := q' }) hordered h
  refine ⟨new, gone, ⟨?_, ?_⟩, hfired, still⟩
  · exact {
      course := .perform taken pending h passage.course
      numbers := hnext ▸ passage.numbers
      next := hnext ▸ passage.next
      ordered := passage.ordered
      replaced := fun r' h' => passage.replaced r' (List.mem_of_ne_of_mem (by simp) h')
      unrefused := passage.unrefused
      config := passage.config }
  · rw [fired_cons_performed, hfired]
    exact .fire taken pending next h (.done s')

/-! ### Loops that select -/

/-- What selects takes the lowest of the timers that are due, where it takes a timer. -/
structure Picks (select : HostState → Option (Request × HostState)) : Prop where
  selects : Selects select
  lowest : ∀ ⦃s r s'⦄, select s = some (r, s') → s.scheduler.Ordered → r.due.isTimer = true →
    s.scheduler.isDue r.due = true ∧
      ∀ b ∈ s.scheduler.pending, s.scheduler.isDue b.due = true → r.seq ≤ b.seq

/-- A request for tasks is no timer. -/
theorem isTimer_of_takeReady (h : s.takeReady? = some (r, s')) : r.due.isTimer = false := by
  obtain ⟨⟨r', q⟩, htake, heq⟩ := Option.map_eq_some_iff.mp h
  obtain ⟨rfl, rfl⟩ := Prod.mk.inj heq
  obtain ⟨hready, -⟩ := Scheduler.take?_eq_some htake
  cases hdue : r'.due with
  | completion tasks mode => rfl
  | seconds | frame =>
    rw [hdue] at hready
    cases hready

theorem picks_takeReady : Picks HostState.takeReady? where
  selects := selects_takeReady
  lowest s r s' h _ timer := by
    rw [isTimer_of_takeReady h] at timer
    cases timer

theorem picks_takeDue : Picks HostState.takeDue? where
  selects := selects_takeDue
  lowest s r s' h ordered timer := by
    obtain hready | ⟨q, htake, rfl⟩ := takeDue?_cases h
    · exact picks_takeReady.lowest hready ordered timer
    · obtain ⟨-, due, least, -⟩ := ordered.takesLowest_of_take? htake rfl
      exact ⟨due, least⟩

/-- **What a loop that selects requests has done** when nothing is left to select. -/
structure Drained (image : Image) (fuel : Nat)
    (select : HostState → Option (Request × HostState)) (s : HostState) (new : List Request)
    (gone : List (Request × Fate)) (s' : HostState) : Prop
    extends Round image fuel s new gone s' where
  still : s.scheduler.SameClock s'.scheduler
  selected : ∀ r ∈ fired gone, ∃ t t', s.scheduler.SameClock t.scheduler ∧
    t.scheduler.Ordered ∧ select t = some (r, t')
  inOrder : Increasing (timers (fired gone))
  rest : select s' = none

namespace Drained

theorem nothing (ordered : s.scheduler.Ordered) (rest : select s = none) :
    Drained image fuel select s [] [] s where
  toRound := .nothing ordered
  still := .refl _
  selected _ h := absurd h List.not_mem_nil
  inOrder := List.Pairwise.nil
  rest := rest

/-- **One request more, in front.**  If it is a timer, each timer that is fired
later was due already.  So it has a larger number if it was there, and a larger
number also if it came later. -/
theorem cons (picks : Picks select) (ordered : s.scheduler.Ordered) {u : HostState}
    (selected : select s = some (r, u))
    (fires : Returns (perform image fuel r.action) u () t)
    (rest : Drained image fuel select t more away s') :
    ∃ new gone, Drained image fuel select s new gone s' ∧
      (fired gone).length = (fired away).length + 1 := by
  obtain ⟨p, q, taken, rfl⟩ := picks.selects selected
  obtain ⟨new, gone, first, hfired, still⟩ := round_of_perform ordered taken rfl rfl fires
  have round := first.trans rest.toRound
  have clock : s.scheduler.SameClock t.scheduler :=
    (Scheduler.SameClock.of_take? taken).trans still
  have hall : fired ((r, .performed) :: gone ++ away) = r :: fired away := by
    rw [fired_append, fired_cons_performed, hfired]
    rfl
  refine ⟨_, _, ⟨round, clock.trans rest.still, fun r' hr' => ?_, ?_, rest.rest⟩, ?_⟩
  · rw [hall] at hr'
    rcases List.mem_cons.mp hr' with rfl | hr'
    · exact ⟨s, _, .refl _, ordered, selected⟩
    · obtain ⟨v, v', hclock, hordered, hselected⟩ := rest.selected r' hr'
      exact ⟨v, v', clock.trans hclock, hordered, hselected⟩
  · rw [hall, timers_cons]
    split
    case isFalse => exact rest.inOrder
    case isTrue htimer =>
      refine List.pairwise_cons.mpr ⟨fun r' hr' => ?_, rest.inOrder⟩
      obtain ⟨hlater, htimer'⟩ := List.mem_filter.mp hr'
      rcases round.passage.mem_of_fired (hall ▸ List.mem_cons_of_mem _ hlater)
        with hold | hnew
      · obtain ⟨v, v', hclock, hordered, hselected⟩ := rest.selected r' hlater
        have hdue : s.scheduler.isDue r'.due = true := by
          rw [← (clock.trans hclock).isDue_eq]
          exact (picks.lowest hselected hordered htimer').1
        refine Nat.lt_of_le_of_ne ((picks.lowest selected ordered htimer).2 r' hold hdue)
          fun hsame => ?_
        have hnodup := round.passage.nodup_fired ordered
        rw [hall, List.map_cons, List.nodup_cons, hsame] at hnodup
        exact hnodup.1 (List.mem_map_of_mem hlater)
      · exact Nat.lt_of_lt_of_le (ordered.below r (Scheduler.mem_of_take? taken)) hnew
  · rw [hall, List.length_cons]

end Drained

/-- **Requests that were fired one by one** until none was left, by induction on them. -/
theorem drained_of_drain (picks : Picks select) (ordered : s.scheduler.Ordered)
    (h : Returns (drain image fuel select budget) s left s') :
    ∃ new gone, Drained image fuel select s new gone s' ∧
      (fired gone).length + left = budget := by
  obtain ⟨events, drains, rfl⟩ := drains_of_drain h
  suffices hdrained : ∃ new gone, Drained image fuel select s new gone s' ∧
    (fired gone).length = events.length by
    obtain ⟨new, gone, drained, hcount⟩ := hdrained
    exact ⟨new, gone, drained, by rw [hcount]⟩
  clear h
  induction drains with
  | rest nothing => exact ⟨[], [], .nothing ordered nothing, rfl⟩
  | fire selected fires _ ih =>
    obtain ⟨p, q, taken, rfl⟩ := picks.selects selected
    obtain ⟨_, _, first, -⟩ := round_of_perform ordered taken rfl rfl fires
    obtain ⟨more, away, later, hcount⟩ := ih first.passage.ordered
    obtain ⟨new, gone, drained, hone⟩ := Drained.cons picks ordered selected fires later
    exact ⟨new, gone, drained, hone.trans (congrArg (· + 1) hcount)⟩

/-! ### Ticks -/

/-- No timer is due by the clock, and no request for tasks has its tasks done. -/
def HostState.Settled (s : HostState) : Prop :=
  ∀ r ∈ s.scheduler.pending, s.scheduler.isDue r.due = false ∧ r.isReady s.tasks.done = false

theorem HostState.settled_of_takeDue (h : s.takeDue? = none) : s.Settled := by
  unfold takeDue? at h
  split at h
  case h_1 => cases h
  case h_2 hready =>
    intro r hr
    exact ⟨Scheduler.take?_eq_none (Option.map_eq_none_iff.mp h) r hr,
      Scheduler.take?_eq_none (Option.map_eq_none_iff.mp hready) r hr⟩

/-- **What one tick has done**: it fired requests within the bound, the timers among them in
the order of their numbers, and left nothing that is due. -/
structure Ticked (image : Image) (fuel : Nat) (s : HostState) (new : List Request)
    (gone : List (Request × Fate)) (s' : HostState) :
    Prop extends Round image fuel s new gone s' where
  bound : (fired gone).length ≤ s.config.maxDispatch
  inOrder : Increasing (timers (fired gone))
  settled : s'.Settled

theorem ticked_of_fireDue (ordered : s.scheduler.Ordered)
    (h : Returns (fireDue image fuel) s n s') :
    ∃ new gone, Ticked image fuel s new gone s' ∧ (fired gone).length = n := by
  unfold fireDue at h
  obtain ⟨left, hdrain, rfl⟩ := returns_bind_pure.mp (ends_get_bind.mp h)
  obtain ⟨new, gone, drained, hcount⟩ := drained_of_drain picks_takeDue ordered hdrain
  refine ⟨new, gone, ⟨drained.toRound, by omega, drained.inOrder, ?_⟩, by omega⟩
  exact HostState.settled_of_takeDue drained.rest

/-- Moving the clock before a tick. -/
theorem Ticked.clock (h : Ticked image fuel { s with scheduler := q } new gone s')
    (ordered : s.scheduler.Ordered) (pending : q.pending = s.scheduler.pending)
    (next : q.nextSeq = s.scheduler.nextSeq) : Ticked image fuel s new gone s' where
  toRound := h.toRound.clock ordered pending next
  bound := h.bound
  inOrder := h.inOrder
  settled := h.settled

theorem ticked_of_advanceFrame (ordered : s.scheduler.Ordered)
    (h : Returns (advanceFrame image fuel) s n s') :
    ∃ new gone, Ticked image fuel s new gone s' ∧ (fired gone).length = n := by
  obtain ⟨new, gone, ticked, hcount⟩ :=
    ticked_of_fireDue (s := { s with scheduler := s.scheduler.advanceFrame })
    (ordered.sublist (List.Sublist.refl _) rfl) (ends_modify_bind.mp h)
  exact ⟨new, gone, ticked.clock ordered rfl rfl, hcount⟩

theorem ticked_of_advanceSeconds {seconds : Float} (ordered : s.scheduler.Ordered)
    (h : Returns (advanceSeconds image fuel seconds) s n s') :
    ∃ new gone, Ticked image fuel s new gone s' ∧ (fired gone).length = n := by
  obtain ⟨new, gone, ticked, hcount⟩ :=
    ticked_of_fireDue (s := { s with scheduler := s.scheduler.advanceSeconds seconds })
      (ordered.sublist (List.Sublist.refl _) rfl) (ends_modify_bind.mp h)
  exact ⟨new, gone, ticked.clock ordered rfl rfl, hcount⟩

/-- **What ticks in turn have done** when no timer is left.  What left the queue is told
apart by the ticks. -/
structure Idled (image : Image) (fuel : Nat) (s : HostState) (new : List Request)
    (ticks : List (List (Request × Fate))) (s' : HostState) : Prop
    extends Round image fuel s new ticks.flatten s' where
  bound : ∀ tick ∈ ticks, (fired tick).length ≤ s.config.maxDispatch
  inOrder : ∀ tick ∈ ticks, Increasing (timers (fired tick))
  settled : s'.Settled
  idle : ∀ r ∈ s'.scheduler.pending, r.due.isTimer = false

theorem Idled.nothing (ordered : s.scheduler.Ordered) (settled : s.Settled)
    (idle : s.scheduler.hasTimers = false) : Idled image fuel s [] [] s where
  toRound := .nothing ordered
  bound _ h := absurd h List.not_mem_nil
  inOrder _ h := absurd h List.not_mem_nil
  settled := settled
  idle r hr := by simpa using List.any_eq_false.mp idle r hr

theorem Idled.cons {ticks : List (List (Request × Fate))}
    (tick : Ticked image fuel s new gone t) (rest : Idled image fuel t more ticks s') :
    Idled image fuel s (new ++ more) (gone :: ticks) s' where
  toRound := by
    rw [List.flatten_cons]
    exact tick.toRound.trans rest.toRound
  bound := List.forall_mem_cons.mpr ⟨tick.bound, tick.passage.config ▸ rest.bound⟩
  inOrder := List.forall_mem_cons.mpr ⟨tick.inOrder, rest.inOrder⟩
  settled := rest.settled
  idle := rest.idle

/-- **Advancing frame by frame**, by induction on the frames that are left. -/
theorem idled_of_advanceUntilIdle {frames before : Nat} (ordered : s.scheduler.Ordered)
    (settled : s.Settled) (h : Returns (advanceUntilIdle image fuel frames before) s n s') :
    ∃ new ticks, Idled image fuel s new ticks s' ∧
      before + (fired ticks.flatten).length = n := by
  induction frames generalizing s before with
  | zero =>
    unfold advanceUntilIdle at h
    have h := ends_get_bind.mp h
    rcases returns_ite.mp h with ⟨-, hfail⟩ | ⟨idle, hpure⟩
    · exact (Run.not_returns_fail hfail).elim
    · obtain ⟨rfl, rfl⟩ := returns_pure.mp hpure
      exact ⟨[], [], .nothing ordered settled (by simpa using idle), rfl⟩
  | succ frames ih =>
    unfold advanceUntilIdle at h
    have h := ends_get_bind.mp h
    rcases returns_ite.mp h with ⟨-, hadvance⟩ | ⟨idle, hpure⟩
    · obtain ⟨count, t, hframe, hrest⟩ := returns_bind.mp hadvance
      obtain ⟨new, gone, tick, rfl⟩ := ticked_of_advanceFrame ordered hframe
      obtain ⟨more, ticks, rest, hcount⟩ := ih tick.passage.ordered tick.settled hrest
      refine ⟨_, _, .cons tick rest, ?_⟩
      rw [List.flatten_cons, fired_append, List.length_append]
      omega
    · obtain ⟨rfl, rfl⟩ := returns_pure.mp hpure
      exact ⟨[], [], .nothing ordered settled (by simpa using idle), rfl⟩

theorem idled_of_runUntilIdle (ordered : s.scheduler.Ordered)
    (h : Returns (runUntilIdle image fuel) s n s') :
    ∃ new ticks, Idled image fuel s new ticks s' ∧ (fired ticks.flatten).length = n := by
  obtain ⟨count, t, hdue, hrest⟩ := returns_bind.mp h
  obtain ⟨new, gone, tick, rfl⟩ := ticked_of_fireDue ordered hdue
  obtain ⟨more, ticks, rest, hcount⟩ :=
    idled_of_advanceUntilIdle tick.passage.ordered tick.settled hrest
  refine ⟨_, _, .cons tick rest, ?_⟩
  rw [List.flatten_cons, fired_append, List.length_append]
  exact hcount

/-! ### Requests by their numbers -/

/-- A number under which nothing is taken is not in the queue. -/
theorem missing_of_takeSeq? {seq : Nat} (h : Returns (takeSeq? seq) s none t) :
    ∀ r ∈ s.scheduler.pending, r.seq ≠ seq := by
  unfold takeSeq? at h
  have h := ends_get_bind.mp h
  cases taken : s.scheduler.takeSeq? seq with
  | none =>
    intro r hr
    simpa using Scheduler.take?_eq_none (Option.map_eq_none_iff.mp taken) r hr
  | some found =>
    obtain ⟨r, q⟩ := found
    rw [taken] at h
    have h := ends_modify_bind.mp h
    cases (returns_pure.mp h).1

/-- What firing a request makes ready is no timer. -/
theorem timers_fired_of_drained (h : Drained image fuel HostState.takeReady? s new gone s') :
    timers (fired gone) = [] := by
  refine List.filter_eq_nil_iff.mpr fun r hr => ?_
  obtain ⟨_, _, -, -, hselected⟩ := h.selected r hr
  rw [isTimer_of_takeReady hselected]
  exact Bool.false_ne_true

/-- **Firing one request** that was taken, and then what it made ready. -/
theorem round_of_fire (ordered : s.scheduler.Ordered)
    (taken : s.scheduler.take? p = some (r, q)) (pending : q'.pending = q.pending)
    (next : q'.nextSeq = q.nextSeq)
    (h : Returns (fire image fuel r budget) { s with scheduler := q' } left s') :
    ∃ new gone, Round image fuel s new ((r, .performed) :: gone) s' ∧
      (r :: fired gone).length + left = budget ∧
      timers (fired gone) = [] := by
  cases budget with
  | zero => cases (ends_runaway.mp h).1
  | succ budget =>
    obtain ⟨_, t, fires, hdrain⟩ := returns_bind.mp h
    obtain ⟨new, gone, first, hfired, -⟩ := round_of_perform ordered taken pending next fires
    obtain ⟨more, away, drained, hcount⟩ :=
      drained_of_drain picks_takeReady first.passage.ordered hdrain
    refine ⟨_, gone ++ away, first.trans drained.toRound, ?_⟩
    rw [fired_append, hfired, List.nil_append, List.length_cons]
    exact ⟨by omega, timers_fired_of_drained drained⟩

/-- **Firing the requests of given numbers**, by induction on the numbers.  What a request
makes ready is fired before the next number is looked for, but that is no timer: the timers
that are fired are among those asked for.  None of them is left in the queue. -/
theorem round_of_fireSeqs {seqs : List Nat} (ordered : s.scheduler.Ordered)
    (old : ∀ seq ∈ seqs, seq < s.scheduler.nextSeq)
    (h : Returns (fireSeqs image fuel seqs budget) s left s') :
    ∃ new gone, Round image fuel s new gone s' ∧ (fired gone).length + left = budget ∧
      ((timers (fired gone)).map Request.seq).Sublist seqs ∧
      ∀ r ∈ s'.scheduler.pending, r.seq ∉ seqs := by
  induction seqs generalizing s budget with
  | nil =>
    obtain ⟨rfl, rfl⟩ := returns_pure.mp h
    exact ⟨[], [], .nothing ordered, Nat.zero_add _, List.Sublist.refl _,
      fun _ _ => List.not_mem_nil⟩
  | cons seq rest ih =>
    obtain ⟨hseq, hrest⟩ := List.forall_mem_cons.mp old
    unfold fireSeqs at h
    rcases returns_takeSeq? seq s with htook | ⟨r, q, q', htake, hpending, hnext, htook⟩
    · obtain ⟨new, gone, round, hcount, hamong, hnone⟩ :=
        ih ordered hrest (htook.ends_bind.mp h)
      refine ⟨new, gone, round, hcount, hamong.cons _, fun r hr => ?_⟩
      refine List.not_mem_cons_of_ne_of_not_mem (fun hsame => ?_) (hnone r hr)
      exact missing_of_takeSeq? htook r
        (round.passage.since.pending r hr (hsame ▸ hseq)) hsame
    · obtain ⟨left', t, hfire, hfires⟩ := returns_bind.mp (htook.ends_bind.mp h)
      obtain ⟨new, gone, first, hcount, hready⟩ :=
        round_of_fire ordered htake hpending hnext hfire
      obtain ⟨more, away, later, hcount', hamong, hnone⟩ := ih first.passage.ordered
        (fun seq h => Nat.lt_of_lt_of_le (hrest seq h) first.passage.since.next) hfires
      obtain rfl : r.seq = seq := beq_iff_eq.mp (Scheduler.take?_eq_some htake).1
      have round := first.trans later
      refine ⟨_, _, round, ?_, ?_, fun b hb => ?_⟩
      · rw [fired_append, fired_cons_performed, List.length_append]
        omega
      · rw [fired_append, fired_cons_performed, timers_append, timers_cons, hready]
        split
        · exact hamong.cons_cons _
        · exact hamong.cons _
      · refine List.not_mem_cons_of_ne_of_not_mem ?_ (hnone b hb)
        exact round.passage.apart ordered hb (g := (r, .performed)) List.mem_cons_self

/-- **What firing all timers has done** when it returns. -/
structure TimersFired (image : Image) (fuel : Nat) (s : HostState) (new : List Request)
    (gone : List (Request × Fate)) (s' : HostState) :
    Prop extends Round image fuel s new gone s' where
  bound : (fired gone).length ≤ s.config.maxDispatch
  inOrder : Increasing (timers (fired gone))
  /-- A timer that was outstanding was fired, or was a call back and made
  room for a later one. -/
  served : ∀ r ∈ s.scheduler.pending, r.due.isTimer = true →
    r ∈ fired gone ∨ (r, .replaced) ∈ gone ∧ ∃ handle, r.action = .resume handle
  /-- A timer that is outstanding was submitted on the way. -/
  recent : ∀ r ∈ s'.scheduler.pending, r.due.isTimer = true → r ∈ new

/-- Firing the timers in order is a round that counts what it fired. -/
theorem timersFired_of_fireTimers (ordered : s.scheduler.Ordered)
    (h : Returns (fireTimers image fuel) s n s') :
    ∃ new gone, TimersFired image fuel s new gone s' ∧ (fired gone).length = n := by
  unfold fireTimers at h
  simp only [Returns, ends_get_bind] at h
  obtain ⟨left, hfires, rfl⟩ := returns_bind_pure.mp h
  have hseqs : ∀ r ∈ s.scheduler.pending, r.due.isTimer = true →
    r.seq ∈ s.scheduler.timerSeqs :=
    fun r hr timer => List.mem_map_of_mem (List.mem_filter.mpr ⟨hr, timer⟩)
  have hold : ∀ seq ∈ s.scheduler.timerSeqs, seq < s.scheduler.nextSeq := by
    intro seq hseq
    obtain ⟨r, hr, rfl⟩ := List.mem_map.mp hseq
    exact ordered.below r (List.mem_filter.mp hr).1
  have hsorted : s.scheduler.timerSeqs.Pairwise (· < ·) :=
    List.Pairwise.map _ (fun _ _ hlt => hlt) (ordered.increasing.filter _)
  obtain ⟨new, gone, round, hcount, hamong, hnone⟩ := round_of_fireSeqs ordered hold hfires
  refine ⟨new, gone, ⟨round, by omega, List.pairwise_map.mp (hsorted.sublist hamong),
    fun r hr timer => ?_, fun r hr timer => ?_⟩, by omega⟩
  · have hended :=
      round.passage.fired_or_replaced hr fun hstill => hnone r hstill (hseqs r hr timer)
    refine hended.imp_right fun hgone => ?_
    obtain ⟨handle, haction, -⟩ := round.passage.replaced r hgone
    exact ⟨hgone, handle, haction⟩
  · rcases List.mem_append.mp (round.passage.course.accounts.symm.subset
      (List.mem_append_left _ hr)) with hwas | hnew
    · exact absurd (hseqs r hwas timer) (hnone r hr)
    · exact hnew

/-! ### Steps of a host -/

/-- No request is met twice among those that left the queue. -/
def Once (gone : List (Request × Fate)) : Prop := (gone.map fun g => g.1.seq).Nodup

theorem Round.once (h : Round image fuel s new gone s') (ordered : s.scheduler.Ordered) :
    Once gone := by
  have hnodup := List.Nodup.sublist ((List.sublist_append_right ..).map Request.seq)
    (h.passage.nodup ordered)
  rw [List.map_map] at hnodup
  exact hnodup

/-- **A step that returns has drained what was due**, whatever was done to the host before.
If advancing by a frame or by seconds returns a number, so many requests were fired, within
the bound, the timers among them in the order of their numbers; and no timer is left that is
due, and no request whose tasks are done.  If running until idle returns, this was so of each
tick, and no timer is left at all.  If firing all timers returns, each timer that was
outstanding was fired, or made room for a later call back, and the timers that are left were
submitted meanwhile.  No request was fired twice, and every request that left the queue was
fired or replaced. -/
theorem steps_drain (names : NameTable) (config : HostConfig) (handlings : List Handling)
    (fuel : Nat) :
    let host := (Host.new names config).handled handlings
    (∀ n host', Returns (Host.advanceFrame fuel) host n host' ∨
        (∃ seconds, Returns (Host.advanceSeconds fuel seconds) host n host') →
      ∃ new gone, Ticked host.image fuel host.state new gone host'.state ∧
        (fired gone).length = n ∧ Once gone) ∧
    (∀ n host', Returns (Host.runUntilIdle fuel) host n host' →
      ∃ new ticks, Idled host.image fuel host.state new ticks host'.state ∧
        (fired ticks.flatten).length = n ∧ Once ticks.flatten) ∧
    ∀ n host', Returns (Host.fireTimers fuel) host n host' →
      ∃ new gone, TimersFired host.image fuel host.state new gone host'.state ∧
        (fired gone).length = n ∧ Once gone := by
  intro host
  have ordered : host.state.scheduler.Ordered :=
    (Host.coherent_handled names config handlings).ordered
  refine ⟨fun n host' h => ?_, fun n host' h => ?_, fun n host' h => ?_⟩
  · have hticked : ∃ new gone, Ticked host.image fuel host.state new gone host'.state ∧
      (fired gone).length = n := by
      rcases h with h | ⟨seconds, h⟩
      · obtain ⟨s', hrun, rfl⟩ := Host.returns_run.mp h
        exact ticked_of_advanceFrame ordered hrun
      · obtain ⟨s', hrun, rfl⟩ := Host.returns_run.mp h
        exact ticked_of_advanceSeconds ordered hrun
    obtain ⟨new, gone, ticked, hcount⟩ := hticked
    exact ⟨new, gone, ticked, hcount, ticked.once ordered⟩
  · obtain ⟨s', hrun, rfl⟩ := Host.returns_run.mp h
    obtain ⟨new, ticks, idled, hcount⟩ := idled_of_runUntilIdle ordered hrun
    exact ⟨new, ticks, idled, hcount, idled.once ordered⟩
  · obtain ⟨s', hrun, rfl⟩ := Host.returns_run.mp h
    obtain ⟨new, gone, timersFired, hcount⟩ := timersFired_of_fireTimers ordered hrun
    exact ⟨new, gone, timersFired, hcount, timersFired.once ordered⟩

/-- Two tickers are called, which wait for the next frame. -/
def Ticker.calls : List Handling := [
  .operate (.perform 0 (.load Ticker.machine)), .operate (.perform 0 .spawn),
  .operate (.perform 0 .spawn), .operate (.perform 5 (.call 0 "Tick" [])),
  .operate (.perform 5 (.call 1 "Tick" []))]

/-- A host with the names of the ticker that fires no more than four requests in a step. -/
def Ticker.start : Host :=
  Host.new (lowerProcedure {} Ticker.procedure Ticker.names).2 ⟨1.0, 4⟩

theorem tickers_drained :
    let host := Ticker.start.handled Ticker.calls
    (∃ host', Returns (Host.advanceFrame 5) host 2 host' ∧
      ∃ new gone, Ticked host.image 5 host.state new gone host'.state ∧
        (fired gone).length = 2 ∧ Once gone) ∧
    (∃ host', Returns (Host.runUntilIdle 5) host 2 host' ∧
      ∃ new ticks, Idled host.image 5 host.state new ticks host'.state ∧
        (fired ticks.flatten).length = 2 ∧ Once ticks.flatten) ∧
    ∃ host', Returns (Host.fireTimers 5) host 2 host' ∧
      ∃ new gone, TimersFired host.image 5 host.state new gone host'.state ∧
        (fired gone).length = 2 ∧ Once gone := by
  intro host
  obtain ⟨advance, idle, fireAll⟩ := steps_drain _ ⟨1.0, 4⟩ Ticker.calls 5
  have hadvance : Returns (Host.advanceFrame 5) host 2 _ :=
    returns_of_toOption (by decide +kernel)
  have hidle : Returns (Host.runUntilIdle 5) host 2 _ :=
    returns_of_toOption (by decide +kernel)
  have hfireAll : Returns (Host.fireTimers 5) host 2 _ :=
    returns_of_toOption (by decide +kernel)
  exact ⟨⟨_, hadvance, advance 2 _ (Or.inl hadvance)⟩, ⟨_, hidle, idle 2 _ hidle⟩,
    ⟨_, hfireAll, fireAll 2 _ hfireAll⟩⟩

end Resumable
