import Resumable.Proofs.Upholding

/-!
# What becomes of requests

A request leaves the queue in one of three ways.  Its action is performed; a later request for
the same call back replaces it; or it is taken as one too many, and the step stops.  A step
looks at its budget only after it has taken a request, so **the request on which the budget
ends is dropped**: it is in the queue no more, and nothing was done for it.  It is the only
one: all the other requests that were in the queue at some point of an operation are there
afterwards, or were performed or replaced.

## Main definitions

* `Fate`: what became of a request that left the queue.
* `Course image fuel s new gone s'`: from `s` to `s'` the requests `new` were submitted, and
  those of `gone` left the queue, each with its fate.

## Main statements

* `Course.accounts`: a request that was in the queue or was submitted is in the
  queue or has a fate.
* `requests_accounted`: each operation that runs code has such a course, with a refusal only
  where it stops for one.
* `ticker_forgotten`: an activation that was waiting can be dropped that way.
-/

namespace Resumable

open Resumable.Bound (Procedure)
open Machine (TaskStatus)

variable {image : Image} {fuel : Nat} {s s' : HostState} {new : List Request}

/-- What became of a request that left the queue. -/
inductive Fate where
  /-- Its action was run. -/
  | performed
  /-- A later request for the same call back took its place. -/
  | replaced
  /-- It was one too many for the step that took it. -/
  | refused
  deriving DecidableEq

/-- The requests that a new one takes the place of. -/
def Scheduler.replacedBy (q : Scheduler) : Action → List Request
  | .resume handle => q.pending.filter fun r => r.action = .resume handle
  | .complete _ => []

/-- **How requests come and go** between two states: those that were submitted, and those that
left the queue, with their fates.  A request that is performed or refused has been taken out
of the queue before, and the clock may have moved up to it. -/
inductive Course (image : Image) (fuel : Nat) :
    HostState → List Request → List (Request × Fate) → HostState → Prop where
  | quiet {s s' : HostState} (same : s'.scheduler.pending = s.scheduler.pending) :
    Course image fuel s [] [] s'
  | submit (s : HostState) (due : Due) (action : Action) :
    Course image fuel s [⟨s.scheduler.nextSeq, due, action⟩]
      ((s.scheduler.replacedBy action).map fun r => (r, .replaced))
      { s with scheduler := s.scheduler.submit due action }
  | perform {s s' : HostState} {p : Request → Bool} {r : Request} {q q' : Scheduler}
    {e : Except Halt Unit}
    {new : List Request} {gone : List (Request × Fate)}
      (taken : s.scheduler.take? p = some (r, q))
    (same : q'.pending = q.pending)
    (ends : Ends (perform image fuel r.action) { s with scheduler := q' } e s')
    (rest : Course image fuel { s with scheduler := q' } new gone s') :
    Course image fuel s new ((r, .performed) :: gone) s'
  | refuse {s : HostState} {p : Request → Bool} {r : Request} {q q' : Scheduler}
    (taken : s.scheduler.take? p = some (r, q)) (same : q'.pending = q.pending) :
    Course image fuel s [] [(r, .refused)] { s with scheduler := q' }
  | trans {s t u : HostState} {new more : List Request} {gone away : List (Request × Fate)}
    (first : Course image fuel s new gone t) (second : Course image fuel t more away u) :
    Course image fuel s (new ++ more) (gone ++ away) u

/-- How many requests were refused. -/
def refusals (gone : List (Request × Fate)) : Nat := gone.countP fun g => g.2 = .refused

theorem refusals_append (gone away : List (Request × Fate)) :
    refusals (gone ++ away) = refusals gone + refusals away := List.countP_append

theorem refusals_replaced (requests : List Request) :
    refusals (requests.map fun r => (r, .replaced)) = 0 := by
  rw [refusals, List.countP_map, List.countP_eq_zero]
  intro r _
  simp

/-! ### Every request is accounted for -/

/-- What a new request replaces is what it leaves out. -/
theorem Scheduler.perm_submit (q : Scheduler) (due : Due) (action : Action) :
    (q.pending ++ [Request.mk q.nextSeq due action]).Perm
      ((q.submit due action).pending ++ q.replacedBy action) := by
  cases action with
  | complete task =>
    simp only [Scheduler.submit, Scheduler.replacedBy, List.append_nil]
    exact List.Perm.refl _
  | resume handle =>
    have hsplit := List.filter_append_perm
      (fun r : Request => decide (r.action ≠ .resume handle)) q.pending
    simp only [decide_not, Bool.not_not] at hsplit
    simp only [Scheduler.submit, Scheduler.replacedBy, decide_not, List.append_assoc]
    refine (hsplit.symm.append_right _).trans ?_
    rw [List.append_assoc]
    exact List.perm_append_comm.append_left _

/-- **A request that was in the queue or was submitted** is in the queue at the end, or left
it with one fate. -/
theorem Course.accounts {gone : List (Request × Fate)} (h : Course image fuel s new gone s') :
    (s.scheduler.pending ++ new).Perm (s'.scheduler.pending ++ gone.map Prod.fst) := by
  induction h with
  | quiet same =>
    rw [same]
    exact List.Perm.refl _
  | submit s due action =>
    rw [List.map_map, show (Prod.fst ∘ fun r : Request => (r, Fate.replaced)) =
      id from rfl, List.map_id]
    exact s.scheduler.perm_submit due action
  | @perform s s' p r q q' e new gone taken same ends rest ih =>
    have htaken := (Scheduler.perm_of_take? taken).append_right new
    rw [← same] at htaken
    exact htaken.trans ((ih.cons r).trans List.perm_middle.symm)
  | @refuse s p r q q' taken same =>
    have htaken := Scheduler.perm_of_take? taken
    rw [← same] at htaken
    rw [List.append_nil]
    exact htaken.trans (List.perm_append_singleton r _).symm
  | @trans s t u new more gone away first second ihfirst ihsecond =>
    rw [List.map_append]
    calc
      (s.scheduler.pending ++ (new ++ more)).Perm (s.scheduler.pending ++ new ++ more) :=
        .of_eq (List.append_assoc ..).symm
      _ |>.Perm (t.scheduler.pending ++ gone.map Prod.fst ++ more) :=
        ihfirst.append_right more
      _ |>.Perm (t.scheduler.pending ++ more ++ gone.map Prod.fst) := by
        rw [List.append_assoc, List.append_assoc]
        exact List.perm_append_comm.append_left _
      _ |>.Perm (u.scheduler.pending ++ away.map Prod.fst ++ gone.map Prod.fst) :=
        ihsecond.append_right _
      _ |>.Perm (u.scheduler.pending ++ (gone.map Prod.fst ++ away.map Prod.fst)) := by
        rw [List.append_assoc]
        exact List.perm_append_comm.append_left _

/-! ### Code and steps -/

/-- The state was reached from the start without a refusal. -/
def Tracked (image : Image) (fuel : Nat) (start s : HostState) : Prop :=
  ∃ new gone, Course image fuel start new gone s ∧ refusals gone = 0

/-- The state was reached from the start with one refusal at most, and with one only where it
is the reason to stop. -/
def Dropped (image : Image) (fuel : Nat) (start : HostState) (halt : Halt)
    (s : HostState) : Prop :=
  ∃ new gone, Course image fuel start new gone s ∧
    (refusals gone = 0 ∨ refusals gone = 1 ∧
      halt = .error (.runawaySchedule s.config.maxDispatch))

namespace Tracked

variable {start : HostState}

theorem refl (s : HostState) : Tracked image fuel s s := ⟨[], [], .quiet rfl, rfl⟩

theorem step (h : Tracked image fuel start s) {gone : List (Request × Fate)}
    (next : Course image fuel s new gone s') (unrefused : refusals gone = 0) :
    Tracked image fuel start s' := by
  obtain ⟨new', gone', course, hrefusals⟩ := h
  exact ⟨_, _, course.trans next, by rw [refusals_append, hrefusals, unrefused]⟩

theorem quiet (h : Tracked image fuel start s)
    (same : s'.scheduler.pending = s.scheduler.pending) :
    Tracked image fuel start s' := h.step (.quiet same) rfl

/-- **Code submits requests**, and leaves the queue alone otherwise. -/
theorem upheld {E : Halt → HostState → Prop} (lax : Lax (Tracked image fuel start) E) :
    Upheld image (Tracked image fuel start) E where
  ordinary _ _ _ hs := lax _ _ hs
  sites _ _ := {
    ordinary := fun _ _ _ hs => lax _ _ hs
    acts := fun {s _} act _ hs => by
      cases act with
      | task kind due fits =>
        have made : Tracked image fuel start
          { s with tasks := s.tasks.push ⟨.pending, kind⟩ } := hs.quiet rfl
        exact made.step (.submit _ due _) (refusals_replaced _)
      | callBack due => exact hs.step (.submit s due _) (refusals_replaced _)
      | answer | line | closure | field | slots | start | orphan | outcome =>
        exact hs.quiet rfl
    answer := fun _ _ hs => lax _ _ (hs.quiet rfl)
    closure := fun _ _ _ hs => hs.quiet rfl
    slots := fun _ _ => Or.inr lax
    machine := fun _ _ => lax }
  closures _ _ := Or.inr lax
  completes _ hs := hs.quiet rfl

/-- **A step performs the requests that it takes**, but for one on which it stops. -/
theorem serves : Serves image fuel (Tracked image fuel start) (Dropped image fuel start) where
  ripe _ := trivial
  clock hs same _ := hs.quiet same
  fires {s p r q q'} hs taken _ same _ {e s'} hend := by
    -- What the action does is a course of its own, from the state in which the
    -- request is gone.
    have hown : Tracked image fuel { s with scheduler := q' } s' := by
      have hlanded := (upheld (E := fun _ => Tracked image fuel { s with scheduler := q' })
        fun _ _ hs => hs).perform fuel r.action hend (refl _)
      cases e with
      | ok u => exact hlanded
      | error halt => exact hlanded
    obtain ⟨new, gone, course, unrefused⟩ := hown
    have hnext : Tracked image fuel start s' :=
      hs.step (.perform taken same hend course) unrefused
    cases e with
    | ok u => exact hnext
    | error halt =>
      obtain ⟨new, gone, course, unrefused⟩ := hnext
      exact ⟨new, gone, course, Or.inl unrefused⟩
  refuses hs taken same _ := by
    obtain ⟨new, gone, course, unrefused⟩ := hs
    refine ⟨_, _, course.trans (.refuse taken same), Or.inr ⟨?_, rfl⟩⟩
    rw [refusals_append, unrefused]
    rfl
  misses _ hs := by
    obtain ⟨new, gone, course, unrefused⟩ := hs
    exact ⟨new, gone, course, Or.inl unrefused⟩

end Tracked

/-- **Every request is accounted for.**  An operation that runs code, whether it returns or
stops, has a course in which each request that was in the queue or was submitted on the way is
in the queue afterwards or has its one fate.  At most one was refused, and one was only where
the operation stops because the budget is spent. -/
theorem requests_accounted {command : Command} {host host' : Host} {r : Except Halt Reply}
    (runs : command.runsCode) (h : Ends (command.reply fuel) host r host') :
    ∃ new gone, Course host.image fuel host.state new gone host'.state ∧
      (host.state.scheduler.pending ++ new).Perm
        (host'.state.scheduler.pending ++ gone.map Prod.fst) ∧
      (refusals gone = 0 ∨
        refusals gone = 1 ∧
        r = .error (.error (.runawaySchedule host'.state.config.maxDispatch))) := by
  have lax : Lax (Tracked host.image fuel host.state)
    (Dropped host.image fuel host.state) := by
    rintro halt s ⟨new, gone, course, unrefused⟩
    exact ⟨new, gone, course, Or.inl unrefused⟩
  have hlanded := (Tracked.upheld lax).reply Tracked.serves runs h ⟨rfl, .refl _⟩
  cases r with
  | ok reply =>
    obtain ⟨-, new, gone, course, unrefused⟩ := hlanded
    exact ⟨new, gone, course, course.accounts, Or.inl unrefused⟩
  | error halt =>
    obtain ⟨-, new, gone, course, hrefusals⟩ := hlanded
    refine ⟨new, gone, course, course.accounts, hrefusals.imp_right fun hone => ?_⟩
    exact ⟨hone.1, congrArg Except.error hone.2⟩

/-! ### A ticker -/

namespace Ticker

/-- The strings that the ticker uses. -/
def names : NameTable := .internAll .empty ["Tick", "log", "after"]

/-- Wait for the next frame and log a line. -/
def procedure : Procedure where
  name := ⟨1⟩
  params := []
  locals := []
  result := .unit
  cancellation := none
  body := .block [
    .expr ⟨0, .none⟩ (.suspend ⟨.unit, .none⟩
      (.call ⟨.deferred .unit, .none⟩ (.primitive .yield) [])),
    .expr ⟨1, .none⟩ (.call ⟨.unit, .none⟩ (.host ⟨2⟩) [.str ⟨.str, .none⟩ ⟨3⟩])]
  span := .none

/-- The machine of the ticker. -/
def machine : Machine := (lowerProcedure {} procedure names).1.toOption.getD default

/-- A host that fires one request in a step, on which two tickers wait for the next frame. -/
def waiting : Host :=
  (Host.new (lowerProcedure {} procedure names).2 ⟨1.0, 1⟩).after [
    .perform 0 (.load machine), .perform 0 .spawn, .perform 0 .spawn,
    .perform 5 (.call 0 "Tick" []), .perform 5 (.call 1 "Tick" [])]

/-- The host after the next frame. -/
def advanced : Host :=
  (show Except Halt Reply × Host from Command.advanceFrame.reply 5 waiting).2

/-- The status of the ticker on an instance. -/
def status (owner : InstanceId) (host : Host) : Option TaskStatus :=
  ((host.state.slot? owner 0 machine machine.statusSlot).bind Value.int?).bind
    TaskStatus.ofCode?

end Ticker

/-- **A request can be lost**: two tickers wait, each with its call back, on a host that
fires one request in a step.  The next frame fires the first call back and stops on the
second.  Then the queue is empty, and the second ticker is still running, with nothing left
that would call it back. -/
theorem ticker_forgotten :
    Ends (Command.advanceFrame.reply 5) Ticker.waiting
      (.error (.error (.runawaySchedule 1))) Ticker.advanced ∧
      Ticker.waiting.state.scheduler.pending.map Request.action =
        [.resume ⟨0, 1⟩, .resume ⟨1, 1⟩] ∧
      Ticker.status 1 Ticker.waiting = some .running ∧
      Ticker.advanced.state.scheduler.pending.map Request.action = [] ∧
      Ticker.advanced.state.log.toList = [⟨0, "after"⟩] ∧
      Ticker.status 1 Ticker.advanced = some .running :=
  ⟨ends_of_stopped?
    (by decide +kernel), by
      decide +kernel, by
        decide +kernel, by decide +kernel, by decide +kernel, by decide +kernel⟩

end Resumable
