import Resumable.Proofs.AbreastDispatch

/-!
# Machines that never fault

Some errors say that code is not well put together: a parameter, a local or a slot that is not
there, a loop control without a loop, a dispatch of another machine, a value of tasks that are
not done.  Each is kept away by another part of lowering.  **The machines of procedures that
are well put together never fail in such a way**, whatever the operations on their host were
and whether these failed or not.

A procedure is well put together when its body is a tree without nodes left behind by
errors, mentions only parameters that it has, and introduces each local once, before
and around its uses.

## Main definitions

* `Bound.Procedure.Sturdy`: a procedure that is well put together.
* `Host.Faultless`: no command, procedure or closure on the host fails because of how
  code is put together.

## Main statements

* `faultless_after`: a host is faultless after every sequence of operations.

## Design notes

A host beside itself is a pair of hosts, and the twin of a machine is the machine.  What two
hosts that are abreast agree on then includes that the code finds what it refers to.
-/

namespace Resumable

open Resumable.Bound (Access Procedure)

/-- **A procedure that is well put together.** -/
structure Bound.Procedure.Sturdy (p : Procedure) : Prop where
  tree : p.TreeShaped
  blocks : p.BlockScoped
  noErrors : .error ∉ Bound.featuresOf p.stmts
  params : ∀ i ∈ (Bound.accessesOf p.stmts).filterMap Access.param?, i < p.params.length

/-- A machine that lowering made from such a procedure. -/
def Machine.IsSturdy (m : Machine) : Prop :=
  ∃ options p names names', lowerProcedure options p names = (.ok m, names') ∧ p.Sturdy

/-- Commands that bring in nothing but such machines, and functions that do not answer with
the errors in question. -/
def Command.IsSturdy : Command → Prop
  | .load m => m.IsSturdy
  | .register _ answer => Benign answer
  | _ => True

/-- **Nothing on the host fails because of how code is put together.** -/
structure Host.Faultless (host : Host) : Prop where
  commands : ∀ fuel (command : Command) halt host', command.IsSturdy →
    Ends (command.reply fuel) host (.error halt) host' → halt.isStructural = false
  procedures : ∀ fuel index owner args halt s',
    Ends (runProcedure host.image fuel index owner args) host.state (.error halt) s' →
      halt.isStructural = false
  closures : ∀ fuel id halt s',
    Ends (runClosure host.image fuel id) host.state (.error halt) s' →
    halt.isStructural = false

/-- A sturdy machine is its own twin. -/
theorem Machine.IsSturdy.twin {m : Machine} (h : m.IsSturdy) : Nonempty (Twin True m m) := by
  obtain ⟨options, p, names, names', hlower, sturdy⟩ := h
  obtain ⟨b⟩ := lowered_of_lowerProcedure hlower
  exact ⟨⟨p, _, _, names, names, b, b, sturdy.tree, sturdy.blocks, Or.inl rfl, fun _ _ => rfl,
    fun _ => ⟨sturdy.noErrors, sturdy.params⟩, rfl⟩⟩

/-- A sturdy command may be performed beside itself. -/
theorem Command.IsSturdy.paired {command : Command} (h : command.IsSturdy) :
    (Tandem.abreast True).Paired command command := by
  cases hinstalls : Tandem.installs command with
  | false => exact .same hinstalls
  | true =>
    cases command with
    | load m => exact .load ⟨h.twin, rfl⟩
    | register name answer => exact .register fun _ => h
    | _ => cases hinstalls

/-- Runs beside themselves stop only for reasons that are tolerated. -/
theorem InStep.halts {ε σ α : Type} {W : σ → σ → Prop} {E : ε → Prop}
    {x : ExceptT ε (StateM σ) α} (h : InStep W E x x) {s s' : σ} {halt : ε} (hs : W s s)
    (hend : Ends x s (.error halt) s') : E halt :=
  (h hs hend hend).2.1

/-- **A host with sturdy machines is faultless** after every sequence of operations. -/
theorem faultless_after (names : NameTable) (config : HostConfig)
    (operations : List Operation)
    (sturdy : ∀ fuel command, .perform fuel command ∈ operations → command.IsSturdy) :
    ((Host.new names config).after operations).Faultless := by
  have hmatched : List.Forall₂ (Tandem.abreast True).Matched operations operations := by
    refine List.forall₂_same.mpr fun operation hmem => ?_
    cases operation with
    | ask query => exact .ask query
    | perform fuel command => exact .perform fuel (sturdy fuel command hmem).paired
  have hnew : (Tandem.abreast True).Related (Host.new names config) (Host.new names config) :=
    ⟨rfl, ⟨rfl, fun k program program' hk => by cases hk⟩, Abreast.new True config⟩
  have hrelated := Tandem.related_after hmatched hnew
  refine ⟨fun fuel command halt host' hsturdy hend =>
    ?_, fun fuel index owner args halt s' hend => ?_, fun fuel id halt s' hend => ?_⟩
  · exact (Tandem.reply fuel hsturdy.paired).halts hrelated hend trivial
  · exact ((Tandem.abreast True).runs hrelated.programs _ fuel index owner args).halts
      hrelated.states hend
      trivial
  · exact ((Tandem.abreast True).closures hrelated.programs _ fuel id).halts
      hrelated.states hend trivial

/-! ### A tally -/

namespace Tally

/-- The strings that the procedures use. -/
def names : NameTable :=
  .internAll .empty ["Tally", "job", "total", "step", "report", "log", "Three"]

/-- Return three. -/
def three : Procedure where
  name := ⟨7⟩
  params := []
  locals := []
  result := .int
  cancellation := none
  body := .block [.ret ⟨0, .none⟩ (.int ⟨.int, .none⟩ 3)]
  span := .none

/-- Wait for the task that is given, add to its value in a loop, hand out a closure that logs
the total, wait for the next frame and return the total. -/
def tally : Procedure where
  name := ⟨1⟩
  params := [⟨⟨2⟩, .deferred .int, .none⟩]
  locals := [⟨0, ⟨3⟩, .int, .none⟩, ⟨1, ⟨4⟩, .int, .none⟩]
  result := .int
  cancellation := none
  body := .block [
    .bind ⟨0, .none⟩ 0 (.suspend ⟨.int, .none⟩ (.param ⟨.deferred .int, .none⟩ 0)),
    .loop ⟨1, .none⟩ (.binary ⟨.bool, .none⟩ .lt (.localVar ⟨.int, .none⟩ 0)
      (.int ⟨.int, .none⟩ 10)) [
      .bind ⟨2, .none⟩ 1 (.int ⟨.int, .none⟩ 3),
      .assign ⟨3, .none⟩ (.localVar 0)
        (.binary ⟨.int, .none⟩ .add (.localVar ⟨.int, .none⟩ 0) (.localVar ⟨.int, .none⟩ 1)),
      .branch ⟨4, .none⟩
        (.binary ⟨.bool, .none⟩ .eq (.localVar ⟨.int, .none⟩ 0) (.int ⟨.int, .none⟩ 9))
        [.breakLoop ⟨5, .none⟩] []],
    .expr ⟨6, .none⟩ (.call ⟨.unit, .none⟩ (.host ⟨5⟩) [.lambda ⟨.unit, .none⟩ [
      .expr ⟨7, .none⟩ (.call ⟨.unit, .none⟩ (.host ⟨6⟩) [.localVar ⟨.int, .none⟩ 0])]]),
    .expr ⟨8, .none⟩ (.suspend ⟨.unit, .none⟩
      (.call ⟨.deferred .unit, .none⟩ (.primitive .yield) [])),
    .ret ⟨9, .none⟩ (.localVar ⟨.int, .none⟩ 0)]
  span := .none

/-- The table after the first procedure was lowered. -/
def between : NameTable := (lowerProcedure {} three names).2

/-- The machine that returns three. -/
@[irreducible] def threeMachine : Machine :=
  (lowerProcedure {} three names).1.toOption.getD default

/-- The machine of the tally. -/
@[irreducible] def tallyMachine : Machine :=
  (lowerProcedure {} tally between).1.toOption.getD default

theorem lowered_three : lowerProcedure {} three names = (.ok threeMachine, between) := by
  unfold threeMachine
  exact eq_mk_ok_of_isOk (by decide +kernel)

theorem lowered_tally :
    lowerProcedure {} tally between = (.ok tallyMachine,
      (lowerProcedure {} tally between).2) := by
  unfold tallyMachine
  exact eq_mk_ok_of_isOk (by decide +kernel)

theorem isSturdy_three : threeMachine.IsSturdy := by
  refine ⟨{}, three, names, _, lowered_three, ?_, ⟨?_, ?_, ?_, ?_⟩, ?_, ?_⟩
  all_goals decide +kernel

theorem isSturdy_tally : tallyMachine.IsSturdy := by
  refine ⟨{}, tally, between, _, lowered_tally, ?_, ⟨?_, ?_, ?_, ?_⟩, ?_, ?_⟩
  all_goals decide +kernel

/-- Give back what was handed in. -/
def report : HostFn := fun _ call => .ok (call.args.head?.getD .unit)

/-- Load both, let a tally wait for a three and run the closure that it hands out; in between
call a tally with a number in place of a task, and on an instance that does not exist. -/
def session : List Operation :=
  [.perform 0 (.load threeMachine), .perform 0 (.load tallyMachine),
    .perform 0 (.register "report" report), .perform 0 .spawn,
    .perform 9 (.call 0 "Three" []), .perform 9 (.call 0 "Tally" [.int 4]),
    .perform 9 (.call 7 "Tally" [.task 0]), .perform 9 (.call 0 "Tally" [.task 0]),
    .perform 9 .advanceFrame, .perform 9 (.callClosure (.closure 0))]

/-- The host after that. -/
@[irreducible] def host : Host :=
  (Host.new (lowerProcedure {} tally between).2 ⟨1.0, 10⟩).after session

end Tally

/-- The closure of the tally has logged the total, and nothing on the host faults. -/
theorem tally_faultless :
    Tally.host.state.log.map (fun line => line.message) = #["9"] ∧ Tally.host.Faultless := by
  have hsturdy : ∀ fuel command, .perform fuel command ∈ Tally.session →
    command.IsSturdy := by
    intro fuel command hmem
    simp only [Tally.session, List.mem_cons, Operation.perform.injEq,
      List.not_mem_nil, or_false] at hmem
    rcases hmem with ⟨-, rfl⟩ | ⟨-, rfl⟩ | ⟨-, rfl⟩ | ⟨-, rfl⟩ | ⟨-, rfl⟩ |
      ⟨-, rfl⟩ | ⟨-, rfl⟩ | ⟨-, rfl⟩ | ⟨-, rfl⟩ | ⟨-, rfl⟩
    · exact Tally.isSturdy_three
    · exact Tally.isSturdy_tally
    · exact fun earlier call why hwhy => by cases hwhy
    all_goals trivial
  refine ⟨by decide +kernel, ?_⟩
  unfold Tally.host
  exact faultless_after _ _ Tally.session hsturdy

end Resumable
