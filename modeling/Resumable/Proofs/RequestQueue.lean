import Resumable.Proofs.Accounting
import Resumable.Proofs.Coherence

/-!
# The queue of a scheduler

A scheduler is used by submitting requests, by taking them out and by moving its clock, in any
order.  **Requests stand in the queue in the order of their numbers, and a number is given
once.**  There is at most one call back of a handle.  A request leaves the queue by being
taken, once, or where it is a call back by a later one of the same handle.

Requests are taken from any place of the queue, by three different rules, and new ones are
added at the end.  All that the rules have in common is that the first request with a property
is taken, which is the one with the lowest number.

## Main definitions

* `Scheduler.Use`: what can be done with a scheduler.
* `Ledger`: a scheduler with its past; `Ledger.use`, `Ledger.after`: using it
  once, and in turn.
* `Ledger.Kept`: the queue is in order, and every submission is accounted for.
* `Scheduler.TakesLowest`: the lowest request with a property is taken, and the
  others stay as they are.

## Main statements

* `Ledger.Kept.use`: one use keeps the ledger.
* `Scheduler.Ordered.takesLowest`: in a queue that is in order, the lowest request is taken.
* `queue_in_order`: this is so however a new scheduler is used.
-/

namespace Resumable

variable {q q' : Scheduler} {p : Request → Bool} {r : Request}

/-! ### Ledgers -/

/-- What can be done with a scheduler. -/
inductive Scheduler.Use where
  | submit (due : Due) (action : Action)
  | takeDueTimer
  /-- Take a request for tasks, being told which tasks are done. -/
  | takeReady (done : List TaskId → JoinMode → Bool)
  | takeSeq (seq : Nat)
  | advanceFrame
  | advanceSeconds (seconds : Float)

/-- A scheduler with its past. -/
structure Ledger where
  scheduler : Scheduler
  /-- What was submitted, in order. -/
  submitted : List Request
  /-- What was taken, in order. -/
  taken : List Request

namespace Ledger

/-- A new scheduler has no past. -/
def new (frameSeconds : Float) : Ledger := ⟨.new frameSeconds, [], []⟩

/-- Enter what was taken, if anything was. -/
def enter (l : Ledger) : Option (Request × Scheduler) → Ledger
  | none => l
  | some (r, scheduler) => { l with scheduler, taken := l.taken ++ [r] }

/-- Use the scheduler. -/
def use (l : Ledger) : Scheduler.Use → Ledger
  | .submit due action =>
    { l with
      scheduler := l.scheduler.submit due action
      submitted := l.submitted ++ [⟨l.scheduler.nextSeq, due, action⟩] }
  | .takeDueTimer => l.enter l.scheduler.takeDueTimer?
  | .takeReady done => l.enter (l.scheduler.takeReady? done)
  | .takeSeq seq => l.enter (l.scheduler.takeSeq? seq)
  | .advanceFrame => { l with scheduler := l.scheduler.advanceFrame }
  | .advanceSeconds seconds => { l with scheduler := l.scheduler.advanceSeconds seconds }

/-- Use the scheduler again and again. -/
def after (l : Ledger) (uses : List Scheduler.Use) : Ledger := uses.foldl use l

/-- **The queue is in order, and every submission is accounted for**: it is outstanding, was
taken, or made room for a later submission of the same call back.  Each of them is only one of
these, since no number is given twice. -/
structure Kept (l : Ledger) : Prop where
  ordered : l.scheduler.Ordered
  /-- At most one call back of a handle is outstanding. -/
  single : ∀ handle, l.scheduler.callBacks handle ≤ 1
  /-- Submissions are numbered in turn. -/
  numbers : l.submitted.map Request.seq = List.range l.scheduler.nextSeq
  accounted : ∃ replaced, l.submitted.Perm (l.scheduler.pending ++ l.taken ++ replaced) ∧
    ∀ r ∈ replaced, ∃ handle, r.action = .resume handle ∧
      ∃ later ∈ l.submitted, later.action = .resume handle ∧ r.seq < later.seq

namespace Kept

variable {l : Ledger}

theorem new (frameSeconds : Float) : (Ledger.new frameSeconds).Kept where
  ordered := ⟨List.Pairwise.nil, fun _ hr => absurd hr List.not_mem_nil⟩
  single _ := Nat.zero_le _
  numbers := rfl
  accounted := ⟨[], List.Perm.refl _, fun _ hr => absurd hr List.not_mem_nil⟩

/-- **Moving the clock** leaves the queue. -/
theorem clock (h : l.Kept) (pending : q.pending = l.scheduler.pending)
    (next : q.nextSeq = l.scheduler.nextSeq) : Kept { l with scheduler := q } where
  ordered := h.ordered.sublist (pending ▸ List.Sublist.refl _) next
  single handle := by
    show q.pending.countP _ ≤ 1
    rw [pending]
    exact h.single handle
  numbers := by
    rw [next]
    exact h.numbers
  accounted := by
    rw [pending]
    exact h.accounted

/-- **Submitting a request** gives it the next number, and a call back takes the place of
the one before it. -/
theorem submit (h : l.Kept) (due : Due) (action : Action) :
    (l.use (.submit due action)).Kept where
  ordered := h.ordered.submit due action
  single handle := by
    show (l.scheduler.submit due action).callBacks handle ≤ 1
    cases action with
    | complete task =>
      rw [Scheduler.callBacks_submit_complete]
      exact h.single handle
    | resume other =>
      rw [Scheduler.callBacks_submit_resume]
      split
      · exact Nat.le_refl 1
      · exact h.single handle
  numbers := by
    show (l.submitted ++ [_]).map Request.seq = List.range (l.scheduler.nextSeq + 1)
    rw [List.map_append, h.numbers, List.range_succ]
    rfl
  accounted := by
    obtain ⟨replaced, hperm, hlater⟩ := h.accounted
    refine ⟨l.scheduler.replacedBy action ++ replaced, ?_, fun r hr => ?_⟩
    · calc
        (l.submitted ++ [(⟨l.scheduler.nextSeq, due, action⟩ : Request)]).Perm
            (l.scheduler.pending ++ l.taken ++ replaced ++
              [⟨l.scheduler.nextSeq, due, action⟩]) := hperm.append_right _
        _ |>.Perm (l.scheduler.pending ++ [⟨l.scheduler.nextSeq, due, action⟩] ++
          (l.taken ++ replaced)) := by
          rw [List.append_assoc, List.append_assoc, List.append_assoc]
          refine List.Perm.append_left _ ?_
          rw [← List.append_assoc]
          exact List.perm_append_comm
        _ |>.Perm ((l.scheduler.submit due action).pending ++ l.scheduler.replacedBy action ++
            (l.taken ++ replaced)) := (l.scheduler.perm_submit due action).append_right _
        _ |>.Perm ((l.scheduler.submit due action).pending ++ l.taken ++
            (l.scheduler.replacedBy action ++ replaced)) := by
          rw [List.append_assoc, List.append_assoc]
          refine List.Perm.append_left _ ?_
          rw [← List.append_assoc, ← List.append_assoc]
          exact List.perm_append_comm.append_right _
    · rcases List.mem_append.mp hr with hnew | hold
      · -- What makes room was outstanding, so that its number is below the one given now.
        cases action with
        | complete task => cases hnew
        | resume handle =>
          obtain ⟨hpending, haction⟩ := List.mem_filter.mp hnew
          exact ⟨handle, of_decide_eq_true haction, _,
            List.mem_append_right _ List.mem_cons_self, rfl, h.ordered.below r hpending⟩
      · obtain ⟨handle, haction, later, hsubmitted, hsame, hlt⟩ := hlater r hold
        exact ⟨handle, haction, later, List.mem_append_left _ hsubmitted, hsame, hlt⟩

/-- **Taking a request**, by whatever rule, with the clock moved or not. -/
theorem take (h : l.Kept) (taken : l.scheduler.take? p = some (r, q))
    (pending : q'.pending = q.pending) (next : q'.nextSeq = q.nextSeq) :
    (l.enter (some (r, q'))).Kept where
  ordered :=
    h.ordered.sublist (pending ▸ Scheduler.sublist_of_take? taken)
      (next.trans (Scheduler.nextSeq_of_take? taken))
  single handle := by
    show q'.pending.countP _ ≤ 1
    rw [pending]
    exact Nat.le_trans (Scheduler.sublist_of_take? taken).countP_le (h.single handle)
  numbers := by
    show l.submitted.map Request.seq = List.range q'.nextSeq
    rw [next, Scheduler.nextSeq_of_take? taken]
    exact h.numbers
  accounted := by
    obtain ⟨replaced, hperm, hlater⟩ := h.accounted
    refine ⟨replaced, hperm.trans (List.Perm.append_right _ ?_), hlater⟩
    show (l.scheduler.pending ++ l.taken).Perm (q'.pending ++ (l.taken ++ [r]))
    rw [pending]
    calc
      (l.scheduler.pending ++ l.taken).Perm (r :: q.pending ++ l.taken) :=
        (Scheduler.perm_of_take? taken).append_right _
      _ |>.Perm (q.pending ++ l.taken ++ [r]) :=
        (List.perm_append_singleton r (q.pending ++ l.taken)).symm
      _ |>.Perm (q.pending ++ (l.taken ++ [r])) := .of_eq (List.append_assoc ..)

theorem enter_take? (h : l.Kept) (p : Request → Bool) :
    (l.enter (l.scheduler.take? p)).Kept := by
  cases taken : l.scheduler.take? p with
  | none => exact h
  | some found => exact h.take taken rfl rfl

/-- **One use keeps the ledger.** -/
theorem use (h : l.Kept) (use : Scheduler.Use) : (l.use use).Kept := by
  cases use with
  | submit due action => exact h.submit due action
  | takeDueTimer => exact h.enter_take? _
  | takeReady done => exact h.enter_take? _
  | takeSeq seq =>
    show (l.enter (l.scheduler.takeSeq? seq)).Kept
    unfold Scheduler.takeSeq?
    cases taken : l.scheduler.take? fun r => r.seq == seq with
    | none => exact h
    | some found =>
      obtain ⟨pending, next⟩ := found.2.advanceTo_eq found.1.due
      exact h.take taken pending next
  | advanceFrame | advanceSeconds => exact h.clock rfl rfl

/-- **So does any number of uses.** -/
theorem after (h : l.Kept) (uses : List Scheduler.Use) : (l.after uses).Kept := by
  induction uses generalizing l with
  | nil => exact h
  | cons first rest ih => exact ih (h.use first)

end Kept

end Ledger

/-! ### Which request is taken -/

/-- Where nothing has a property, nothing is taken. -/
theorem takeFirst_eq_none {α : Type} {p : α → Bool} {l : List α} (h : takeFirst p l = none) :
    ∀ a ∈ l, p a = false := by
  induction l with
  | nil => exact fun _ ha => absurd ha List.not_mem_nil
  | cons first rest ih =>
    unfold takeFirst at h
    split at h
    case isTrue => cases h
    case isFalse hfirst =>
      have hrest := ih (Option.map_eq_none_iff.mp h)
      intro a ha
      rcases List.mem_cons.mp ha with rfl | ha
      · simpa using hfirst
      · exact hrest a ha

/-- Has the request tasks that are done? -/
def Request.isReady (done : List TaskId → JoinMode → Bool) (r : Request) : Bool :=
  match r.due with
  | .completion tasks mode => done tasks mode
  | .seconds _ | .frame _ => false

namespace Scheduler

/-- **The lowest request with a property is taken**, and the others stay in their order.
Where none is taken, none has the property. -/
def TakesLowest (q : Scheduler) (eligible : Request → Bool) :
    Option (Request × Scheduler) → Prop
  | none => ∀ r ∈ q.pending, eligible r = false
  | some (r, q') =>
    r ∈ q.pending ∧ eligible r = true ∧ (∀ b ∈ q.pending, eligible b = true → r.seq ≤ b.seq) ∧
    q'.pending = q.pending.filter fun b => b.seq ≠ r.seq

theorem take?_eq_none (h : q.take? p = none) : ∀ r ∈ q.pending, p r = false :=
  takeFirst_eq_none (Option.map_eq_none_iff.mp h)

/-- In a queue that is in order, the first request with a property has the
lowest number of them. -/
theorem Ordered.takesLowest_of_take? (h : q.Ordered) {q'' : Scheduler}
    (taken : q.take? p = some (r, q')) (pending : q''.pending = q'.pending) :
    q.TakesLowest p (some (r, q'')) := by
  obtain ⟨hr, -, before, after, hsplit, hothers, hbefore⟩ := take?_eq_some taken
  have hincreasing := h.increasing
  rw [hsplit, List.pairwise_append, List.pairwise_cons] at hincreasing
  obtain ⟨-, ⟨hafter, -⟩, hacross⟩ := hincreasing
  have hlow : ∀ b ∈ before, b.seq < r.seq := fun b hb => hacross b hb r List.mem_cons_self
  refine ⟨mem_of_take? taken, hr, fun b hb heligible => ?_, ?_⟩
  · rw [hsplit] at hb
    rcases List.mem_append.mp hb with hb | hb
    · rw [hbefore b hb] at heligible
      cases heligible
    · rcases List.mem_cons.mp hb with rfl | hb
      · exact Nat.le_refl _
      · exact Nat.le_of_lt (hafter b hb)
  · rw [pending, hothers, hsplit, List.filter_append, List.filter_cons_of_neg (by simp)]
    congr 1
    · exact (List.filter_eq_self.mpr fun b hb => by simpa using Nat.ne_of_lt (hlow b hb)).symm
    · exact (List.filter_eq_self.mpr
        fun b hb => by simpa using Nat.ne_of_gt (hafter b hb)).symm

theorem Ordered.takesLowest (h : q.Ordered) (p : Request → Bool) :
    q.TakesLowest p (q.take? p) := by
  cases taken : q.take? p with
  | none => exact take?_eq_none taken
  | some found => exact h.takesLowest_of_take? taken rfl

/-- A number belongs to one request, which is found by it. -/
theorem Ordered.takesLowest_takeSeq? (h : q.Ordered) (seq : Nat) :
    q.TakesLowest (fun r => r.seq == seq) (q.takeSeq? seq) := by
  unfold takeSeq?
  cases taken : q.take? fun r => r.seq == seq with
  | none => exact take?_eq_none taken
  | some found => exact h.takesLowest_of_take? taken (found.2.advanceTo_eq found.1.due).1

/-! ### Frames -/

theorem frame_le_repeat (q : Scheduler) (count : Nat) :
    q.frame ≤ (Nat.repeat advanceFrame count q).frame := by
  induction count with
  | zero => exact Nat.le_refl _
  | succ count ih => exact Nat.le_succ_of_le ih

theorem frame_le_advanceTo (q : Scheduler) (due : Due) :
    q.frame ≤ (q.advanceTo due).frame := by
  cases due with
  | seconds time => exact Nat.le_refl _
  | frame number => exact q.frame_le_repeat _
  | completion tasks mode => exact Nat.le_refl _

theorem frame_of_take? (taken : q.take? p = some (r, q')) : q'.frame = q.frame := by
  obtain ⟨-, hq, -⟩ := take?_eq_some taken
  rw [hq]

end Scheduler

namespace Ledger

theorem frame_le_enter_take? (l : Ledger) (p : Request → Bool) :
    l.scheduler.frame ≤ (l.enter (l.scheduler.take? p)).scheduler.frame := by
  cases taken : l.scheduler.take? p with
  | none => exact Nat.le_refl _
  | some found => exact Nat.le_of_eq (Scheduler.frame_of_take? taken).symm

/-- **No use takes the frame back.** -/
theorem frame_le_use (l : Ledger) (use : Scheduler.Use) :
    l.scheduler.frame ≤ (l.use use).scheduler.frame := by
  cases use with
  | submit due action => exact Nat.le_refl _
  | takeDueTimer => exact l.frame_le_enter_take? _
  | takeReady done => exact l.frame_le_enter_take? _
  | takeSeq seq =>
    show _ ≤ (l.enter (l.scheduler.takeSeq? seq)).scheduler.frame
    unfold Scheduler.takeSeq?
    cases taken : l.scheduler.take? fun r => r.seq == seq with
    | none => exact Nat.le_refl _
    | some found =>
      rw [← Scheduler.frame_of_take? taken]
      exact found.2.frame_le_advanceTo found.1.due
  | advanceFrame => exact Nat.le_succ _
  | advanceSeconds seconds => exact Nat.le_refl _

theorem frame_le_after (l : Ledger) (uses : List Scheduler.Use) :
    l.scheduler.frame ≤ (l.after uses).scheduler.frame := by
  induction uses generalizing l with
  | nil => exact Nat.le_refl _
  | cons first rest ih => exact Nat.le_trans (l.frame_le_use first) (ih (l.use first))

end Ledger

/-- **The queue stays in order**, however a new scheduler is used.  Outstanding requests have
increasing numbers below the next one; submissions were numbered in turn, so that no number
was given twice; at most one call back of a handle is outstanding; and every submission is
outstanding, was taken once, or made room for a later one of the same call back.  Each of the
three rules takes the lowest request that it can take, and leaves the others in their order.
Whatever is done next, the frame does not go back. -/
theorem queue_in_order (frameSeconds : Float) (uses : List Scheduler.Use) :
    let l := (Ledger.new frameSeconds).after uses
    l.Kept ∧
      l.scheduler.TakesLowest (fun r => l.scheduler.isDue r.due) l.scheduler.takeDueTimer? ∧
      (∀ done, l.scheduler.TakesLowest (Request.isReady done) (l.scheduler.takeReady? done)) ∧
      (∀ seq, l.scheduler.TakesLowest (fun r => r.seq == seq) (l.scheduler.takeSeq? seq)) ∧
      ∀ next, l.scheduler.frame ≤ (l.after next).scheduler.frame := by
  intro l
  have kept : l.Kept := (Ledger.Kept.new frameSeconds).after uses
  exact ⟨kept, kept.ordered.takesLowest _, fun done => kept.ordered.takesLowest _,
    kept.ordered.takesLowest_takeSeq?, l.frame_le_after⟩

end Resumable
