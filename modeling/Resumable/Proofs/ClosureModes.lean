import Resumable.Proofs.LivenessModes

/-!
# Closures in the two modes

A closure keeps a copy of the frame in which it was made, and reaches the slots of its
instance.  So it sees a local that has a slot as it is when the closure runs, and any other
local as it was when the closure was made.  Where a local has a slot in one mode only,
**closures tell the modes apart**.  There are such locals: one that is overwritten before it
is read again has a slot by position and none by dataflow.  The procedure itself cannot tell,
but a closure that was made before the overwriting can.

Nothing else comes between the modes.  **Where the closures of a procedure read only locals
that have slots in both modes or in neither**, whatever is done to hosts of the two modes has
the same results, and so have calls of the closures, as often and as late as one likes.

## Main definitions

* `Bound.Procedure.Secluded`: procedures that may make closures, but call no procedures.
* `SharingBothModes`: the machines of such a procedure, with closures that read what both keep
  in slots or neither does.
* `SharingModes`: the same operation on hosts of the two modes.

## Main statements

* `closures_run_alike`: hosts of the two modes agree, and their closures do.
* `lending_tells_modes_apart`: closures do not, where a local that they read has a
  slot in one mode only.
-/

namespace Resumable

open Resumable.Bound (Procedure Stmt)

/-! ### Machines with closures -/

/-- **Procedures whose locals live in blocks**, that call no procedures. -/
structure Bound.Procedure.Secluded (p : Procedure) : Prop where
  tree : p.TreeShaped
  blocks : p.BlockScoped
  valued : .bare ∉ Bound.featuresOf p.stmts
  noCall : .call ∉ Bound.featuresOf p.stmts

/-- **The machines of a procedure in the two modes**, which have slots for the same locals
among those that the closures of the procedure read. -/
def SharingBothModes (m n : Machine) : Prop :=
  ∃ (p : Procedure) (slotPrefix : String) (before after before' after' names : NameTable),
    p.Secluded ∧
    lowerProcedure ⟨.positional, slotPrefix⟩ p before = (.ok m, after) ∧
    lowerProcedure ⟨.dataflow, slotPrefix⟩ p before' = (.ok n, after') ∧
    (p.name.index < before.size ∧ after.Precedes names) ∧
    (p.name.index < before'.size ∧ after'.Precedes names) ∧
    ∀ x ∈ Bound.capturesOf p.stmts, (m.layout.local? x).isSome = (n.layout.local? x).isSome

theorem SharingBothModes.twin {m n : Machine} (h : SharingBothModes m n) :
    Nonempty (Twin False m n) ∧ m.violations = n.violations := by
  obtain ⟨p, slotPrefix, before, after, before', after', names, secluded, hm, hn,
    grown, grown', shares⟩ := h
  refine twin_of_modes secluded.tree secluded.blocks hm hn grown grown'
    (fun f hf => ?_) shares
  cases f with
  | error => exact Or.inl rfl
  | lambda => exact Or.inr rfl
  | call => exact absurd hf secluded.noCall
  | bare => exact absurd hf secluded.valued

/-- **The same operation on hosts of the two modes**, where machines with
closures may be loaded. -/
inductive SharingModes : Operation → Operation → Prop where
  | load (fuel : Nat) {m n : Machine} (both : SharingBothModes m n) :
    SharingModes (.perform fuel (.load m)) (.perform fuel (.load n))
  | across {operation operation' : Operation} (h : AcrossModes operation operation') :
    SharingModes operation operation'

theorem SharingModes.matched {operation operation' : Operation}
    (h : SharingModes operation operation') :
    (Tandem.abreast False).Matched operation operation' := by
  cases h with
  | load fuel both => exact .perform fuel (.load both.twin)
  | across h => exact h.matched

/-- A call of a closure, with this much fuel. -/
def Operation.callClosure (fuel : Nat) (closure : Value) : Operation :=
  .perform fuel (.callClosure closure)

/-- **Closures run the same in both modes**, if they read only locals that have slots in both
or in neither.  After every sequence of operations the hosts agree, and a call of a closure
returns the same or fails for the same reason, and leaves the hosts in agreement about the
log, the fields and all the rest. -/
theorem closures_run_alike (names : NameTable) (config : HostConfig)
    {operations operations' : List Operation}
    (sharing : List.Forall₂ SharingModes operations operations') {left right : Host}
    (hleft : left = (Host.new names config).after operations)
    (hright : right = (Host.new names config).after operations') :
    left.RunsLike right ∧ ∀ (fuel : Nat) (closure : Value),
      (Operation.callClosure fuel closure).outcome left =
        (Operation.callClosure fuel closure).outcome right ∧
        (left.after [.callClosure fuel closure]).RunsLike
          (right.after [.callClosure fuel closure]) := by
  have hnew : (Tandem.abreast False).Related (Host.new names config)
    (Host.new names config) :=
    ⟨rfl, ⟨rfl, fun k program program' hk => by cases hk⟩, Abreast.new False config⟩
  have hrelated : (Tandem.abreast False).Related left right := by
    rw [hleft, hright]
    exact Tandem.related_after (sharing.imp fun _ _ h => h.matched) hnew
  refine ⟨hrelated.runsLike, fun fuel closure => ?_⟩
  have hcall : AcrossModes (.callClosure fuel closure) (.callClosure fuel closure) :=
    .same fun _ _ heq => by cases heq
  refine ⟨hrelated.runsLike.outcomes _ _ hcall fun _ _ _ heq => ?_,
    (Tandem.related_after (.cons hcall.matched .nil) hrelated).runsLike⟩
  cases heq

/-! ### A closure that is lent -/

namespace Lending

/-- The strings that the procedure uses. -/
def names : NameTable := .internAll .empty ["Lend", "x", "y", "log", "keep"]

/-- Log a local. -/
def logLocal (number : Nat) (x : LocalId) : Stmt :=
  .expr ⟨number, .none⟩ (.call ⟨.unit, .none⟩ (.host ⟨4⟩) [.localVar ⟨.int, .none⟩ x])

/-- Hand out a closure that logs two numbers, wait for the next frame, and log the first
number, overwritten or as it was. -/
def procedure (overwritten : Bool) : Procedure where
  name := ⟨1⟩
  params := []
  locals := [⟨0, ⟨2⟩, .int, .none⟩, ⟨1, ⟨3⟩, .int, .none⟩]
  result := .unit
  cancellation := none
  body := .block ([
    .bind ⟨0, .none⟩ 0 (.int ⟨.int, .none⟩ 1),
    .bind ⟨1, .none⟩ 1 (.int ⟨.int, .none⟩ 5),
    .expr ⟨2, .none⟩ (.call ⟨.unit, .none⟩ (.host ⟨5⟩)
      [.lambda ⟨.closure, .none⟩ [logLocal 3 0, logLocal 4 1]]),
    .expr ⟨5, .none⟩ (.suspend ⟨.unit, .none⟩
      (.call ⟨.deferred .unit, .none⟩ (.primitive .yield) []))] ++
    (if overwritten then [.assign ⟨6, .none⟩ (.localVar 0) (.int ⟨.int, .none⟩ 2)] else []) ++
      [logLocal 7 0])
  span := .none

variable (overwritten : Bool)

/-- The table after the procedure was lowered in the first mode. -/
def between : NameTable :=
  (lowerProcedure ⟨.positional, "__"⟩ (procedure overwritten) names).2

/-- The table after the procedure was lowered in both modes. -/
def shared : NameTable :=
  (lowerProcedure ⟨.dataflow, "__"⟩ (procedure overwritten) (between overwritten)).2

/-- The machine by position, which has a slot for the first number. -/
@[irreducible] def positional : Machine :=
  (lowerProcedure ⟨.positional, "__"⟩ (procedure overwritten) names).1.toOption.getD default

/-- The machine by dataflow, which has one unless the number is overwritten. -/
@[irreducible] def dataflow : Machine :=
  (lowerProcedure ⟨.dataflow, "__"⟩ (procedure overwritten)
    (between overwritten)).1.toOption.getD default

theorem lowered_positional :
    lowerProcedure ⟨.positional, "__"⟩ (procedure overwritten) names =
    (.ok (positional overwritten), between overwritten) := by
  have hok : (lowerProcedure ⟨.positional, "__"⟩ (procedure overwritten) names).1.isOk =
    true := by
    cases overwritten <;> decide +kernel
  unfold positional
  exact eq_mk_ok_of_isOk hok

theorem lowered_dataflow :
    lowerProcedure ⟨.dataflow, "__"⟩ (procedure overwritten) (between overwritten) =
    (.ok (dataflow overwritten), shared overwritten) := by
  have hok : (lowerProcedure ⟨.dataflow, "__"⟩ (procedure overwritten)
    (between overwritten)).1.isOk = true := by
    cases overwritten <;> decide +kernel
  unfold dataflow
  exact eq_mk_ok_of_isOk hok

theorem secluded : (procedure overwritten).Secluded := by
  cases overwritten <;> refine ⟨?_, ⟨?_, ?_, ?_, ?_⟩, ?_, ?_⟩
  all_goals decide +kernel

theorem sharingBothModes : SharingBothModes (positional false) (dataflow false) :=
  ⟨procedure false, "__", names, between false, between false, shared false,
    shared false, secluded false, lowered_positional false, lowered_dataflow false,
    ⟨by decide, (find?_dispatch_of_lowerProcedure (lowered_dataflow false)).1⟩,
    ⟨by decide +kernel, .refl _⟩, by decide +kernel⟩

/-- Load a machine and call it, and let a frame pass. -/
def session (m : Machine) : List Operation :=
  [.perform 0 (.load m), .perform 0 (.register "keep" fun _ _ => .ok .unit),
    .perform 0 .spawn, .perform 9 (.call 0 "Lend" []), .perform 9 .advanceFrame]

/-- What the host with the first machine has logged when the closure was called at the end. -/
def positionalLog : List String :=
  (((Host.new (shared overwritten) ⟨1.0, 10⟩).after (session (positional overwritten))).after
    [.callClosure 9 (.closure 0)]).state.log.toList.map fun line => line.message

/-- What the host with the second machine has. -/
def dataflowLog : List String :=
  (((Host.new (shared overwritten) ⟨1.0, 10⟩).after (session (dataflow overwritten))).after
    [.callClosure 9 (.closure 0)]).state.log.toList.map fun line => line.message

end Lending

/-- While the number is not overwritten, the closure is the same in both modes. -/
theorem lending_runs_alike : Lending.positionalLog false = ["1", "1", "5"] ∧
    Lending.dataflowLog false = Lending.positionalLog false := by
  refine ⟨by decide +kernel, ?_⟩
  have sharing : List.Forall₂ SharingModes (Lending.session (Lending.positional false))
      (Lending.session (Lending.dataflow false)) := by
    refine .cons (.load 0 Lending.sharingBothModes)
      (List.forall₂_same.mpr fun operation hmem => .across (.same ?_))
    rintro fuel m rfl
    simp at hmem
  obtain ⟨-, hcalls⟩ := closures_run_alike (Lending.shared false) ⟨1.0, 10⟩ sharing rfl rfl
  unfold Lending.dataflowLog Lending.positionalLog
  rw [(hcalls 9 (.closure 0)).2.log]

/-- **A closure can tell the modes apart**: with a slot for the number it logs what the number
has become, and without one what it was. -/
theorem lending_tells_modes_apart :
    (Lending.procedure true).Secluded ∧ Lending.positionalLog true = ["2", "2", "5"] ∧
    Lending.dataflowLog true = ["2", "1", "5"] :=
  ⟨Lending.secluded true, by decide +kernel, by decide +kernel⟩

end Resumable
