import Resumable.Proofs.AbreastDispatch
import Resumable.Proofs.Naming
import Resumable.Proofs.Validity

/-!
# The liveness modes run the same

Which locals of a procedure get a slot depends on the mode in which it is lowered.  **Nothing
else does.**  Two hosts, one with the machines of one mode and one with those of the other,
are given the same operations.  Each operation returns the same or fails for the same reason,
and afterwards the hosts have the same log, fields, tasks, requests and clock, and their
machines the same states, statuses and results.

The one thing that can tell them apart is to ask for a slot by name, where the slot is there
in one mode only or the name is that of another variable.

## Main definitions

* `Bound.Procedure.Portable`: procedures for which this is so.
* `InBothModes`: the machines of such a procedure in the two modes.
* `AcrossModes`: the same operation on hosts of the two modes.
* `Host.RunsLike`: what hosts of the two modes agree on.

## Main statements

* `Query.alike_answer`: queries on hosts that are abreast have the same answers.
* `runsLike_after`: hosts of the two modes agree after every sequence of operations.
* `over_tells_modes_apart`: a slot by name can tell them apart.
-/

namespace Resumable

open Resumable.Bound (Procedure featuresOf)
open Machine (Role Slot SlotId)

variable {p : Procedure} {m n : Machine} {α : Type} {E : Halt → Host → Host → Prop}
  {role : Role}

/-! ### Machines of the two modes -/

/-- **Procedures whose locals live in blocks**, that make no closures and
call no procedures. -/
structure Bound.Procedure.Portable (p : Procedure) : Prop where
  tree : p.TreeShaped
  blocks : p.BlockScoped
  valued : .bare ∉ featuresOf p.stmts
  noLambda : .lambda ∉ featuresOf p.stmts
  noCall : .call ∉ featuresOf p.stmts

/-- **The machines of a procedure in the two modes.**  The table of names is shared:
whatever was put into it between the two, and in whichever order they were made, both tables
have grown into one. -/
def InBothModes (m n : Machine) : Prop :=
  ∃ (p : Procedure) (slotPrefix : String) (before after before' after' names : NameTable),
    p.Portable ∧
    lowerProcedure ⟨.positional, slotPrefix⟩ p before = (.ok m, after) ∧
    lowerProcedure ⟨.dataflow, slotPrefix⟩ p before' = (.ok n, after') ∧
    (p.name.index < before.size ∧ after.Precedes names) ∧
    (p.name.index < before'.size ∧ after'.Precedes names)

/-- **The machines of a procedure in the two modes are twins**, if it calls no
procedure, gives its locals values, and its closures read what both machines keep in
slots or neither does. -/
theorem twin_of_modes {slotPrefix : String} {before after before' after' names : NameTable}
    (tree : p.TreeShaped) (blocks : p.BlockScoped)
    (hm : lowerProcedure ⟨.positional, slotPrefix⟩ p before = (.ok m, after))
    (hn : lowerProcedure ⟨.dataflow, slotPrefix⟩ p before' = (.ok n, after'))
    (grown : p.name.index < before.size ∧ after.Precedes names)
    (grown' : p.name.index < before'.size ∧ after'.Precedes names)
    (features : ∀ f ∈ featuresOf p.stmts, f = .error ∨ f = .lambda)
    (shares : ∀ x ∈ Bound.capturesOf p.stmts,
      (m.layout.local? x).isSome = (n.layout.local? x).isSome) :
    Nonempty (Twin False m n) ∧ m.violations = n.violations := by
  obtain ⟨b⟩ := lowered_of_lowerProcedure hm
  obtain ⟨b'⟩ := lowered_of_lowerProcedure hn
  obtain ⟨hbefore, hfound⟩ := find?_dispatch_of_lowerProcedure hm
  obtain ⟨hbefore', hfound'⟩ := find?_dispatch_of_lowerProcedure hn
  have hlookup : before.lookup p.name = before'.lookup p.name :=
    ((hbefore.trans grown.2).lookup grown.1).symm.trans
      ((hbefore'.trans grown'.2).lookup grown'.1)
  -- Both dispatches are known under the same text, so they have the same name.
  have hdispatch : m.dispatch.name = n.dispatch.name := by
    rw [hlookup] at hfound
    exact Option.some.inj ((grown.2.find? hfound).symm.trans (grown'.2.find? hfound'))
  exact ⟨⟨⟨p, _, _, before, before', b, b', tree, blocks, Or.inr features, shares,
    False.elim, hdispatch⟩⟩, b.violations_eq_nil.trans b'.violations_eq_nil.symm⟩

theorem InBothModes.twin (h : InBothModes m n) :
    Nonempty (Twin False m n) ∧ m.violations = n.violations := by
  obtain ⟨p, slotPrefix, before, after, before', after', names, portable, hm,
    hn, grown, grown'⟩ := h
  refine twin_of_modes portable.tree portable.blocks hm hn grown grown'
    (fun f hf => ?_) fun x hx => ?_
  · cases f with
    | error => exact Or.inl rfl
    | lambda => exact Or.inr rfl
    | call => exact absurd hf portable.noCall
    | bare => exact absurd hf portable.valued
  · rw [Bound.capturesOf_eq_nil p.stmts portable.noLambda] at hx
    cases hx

/-- **The same operation on hosts of the two modes**: each loads its own machine. -/
inductive AcrossModes : Operation → Operation → Prop where
  | load (fuel : Nat) {m n : Machine} (both : InBothModes m n) :
    AcrossModes (.perform fuel (.load m)) (.perform fuel (.load n))
  | same {operation : Operation} (plain : ∀ fuel m, operation ≠ .perform fuel (.load m)) :
    AcrossModes operation operation

/-- Operations across the modes match. -/
theorem AcrossModes.matched {operation operation' : Operation}
    (h : AcrossModes operation operation') :
    (Tandem.abreast False).Matched operation operation' := by
  cases h with
  | load fuel both => exact .perform fuel (.load both.twin)
  | same plain =>
    cases operation with
    | ask query => exact .ask query
    | perform fuel command =>
      refine .perform fuel ?_
      cases hinstalls : Tandem.installs command with
      | false => exact .same hinstalls
      | true =>
        cases command with
        | load m => exact absurd rfl (plain fuel m)
        | register name answer => exact .register False.elim
        | _ => cases hinstalls

/-! ### What hosts of the two modes agree on -/

/-- What an operation returns, or why it fails. -/
def Operation.outcome (operation : Operation) (host : Host) : Except Halt Reply :=
  (show Except Halt Reply × Host from operation.run host).1

/-- What the slot that a name stands for is kept for. -/
def Host.roleOf? (host : Host) (procedure slot : String) : Option Role :=
  (host.image.program procedure).toOption.bind fun k =>
    (host.image.programs[k]?).bind fun program =>
    (program.machine.slots.find? fun s =>
      host.image.names.lookup s.name == slot).map Slot.role

/-- What is kept in the slot of a role. -/
def Host.content? (host : Host) (owner : InstanceId) (k : Nat) (role : Role) : Option Value :=
  (host.image.programs[k]?).bind fun program =>
    (slotWithRole? program.machine.slots role).bind fun slot =>
    host.state.slot? owner k program.machine slot

/-- **What hosts of the two modes agree on**: what can be seen of them, and what the next
operation returns.  Asking for a slot by name counts only where the name stands for the same
variable in both. -/
structure Host.RunsLike (left right : Host) : Prop where
  log : left.state.log = right.state.log
  tasks : left.state.tasks = right.state.tasks
  scheduler : left.state.scheduler = right.state.scheduler
  fields : ∀ owner name, left.state.field? owner name = right.state.field? owner name
  books : ∀ owner k (role : Role), role.isFixed = true →
    left.content? owner k role = right.content? owner k role
  outcomes : ∀ operation operation', AcrossModes operation operation' →
    (∀ owner procedure slot, operation = .ask (.slotValue owner procedure slot) →
      left.roleOf? procedure slot = right.roleOf? procedure slot) →
    operation.outcome left = operation'.outcome right

/-! ### Queries -/

section

variable {P Q : Array Program} {names : NameTable} {s t : HostState}

/-- A name of a program means programs at the same position. -/
theorem alike_programOf (hpq : Twins False P Q) (procedure : String) :
    Alike (Host.programOf ⟨P, names⟩ procedure) s (Host.programOf ⟨Q, names⟩ procedure) t
      (fun a b s' t' => s' = s ∧ t' = t ∧ a.1 = b.1 ∧
        (Image.mk P names).program procedure = .ok a.1 ∧
        P[a.1]? = some a.2 ∧ Q[a.1]? = some b.2) fun _ _ _ => True := by
  have hprogram : (Image.mk P names).program procedure =
    (Image.mk Q names).program procedure :=
    (Tandem.abreast False).program_eq hpq names procedure
  unfold Host.programOf
  rw [← hprogram]
  cases hposition : (Image.mk P names).program procedure with
  | error why => exact alike_throw trivial
  | ok k =>
    refine Returns.alike_bind (returns_pure.mpr ⟨rfl, rfl⟩) (returns_pure.mpr ⟨rfl, rfl⟩) ?_
    dsimp only
    cases hk : P[k]? with
    | none =>
      rw [hpq.eq_none hk]
      exact alike_throw trivial
    | some program =>
      obtain ⟨program', hk'⟩ := hpq.exists_right hk
      rw [hk']
      exact alike_pure ⟨rfl, rfl, rfl, rfl, hk, hk'⟩

variable {k : Nat} {program program' : Program}

/-- Slots with the same role have the same content. -/
theorem alike_slotContent (hpq : Twins False P Q) (h : Abreast False P Q s t)
    (hk : P[k]? = some program) (hk' : Q[k]? = some program') (owner : InstanceId)
    {a a' : SlotId} (hroles : SameRole program.machine program'.machine a a') :
    Alike (Host.slotContent owner k program a) s (Host.slotContent owner k program' a') t
      (fun v v' _ _ => v = v') fun _ _ _ => True := by
  obtain ⟨-, ⟨w⟩⟩ := hpq.twin k program program' hk hk'
  have hworld : (hpq.duet .empty hk hk' w owner).World s t := h
  refine Alike.bind ((Duet.alike_storage hworld).mono (fun _ _ _ _ hst => hst)
    fun _ _ _ _ => trivial) ?_
  rintro st st' _ _ ⟨-, -, -, -, hmatch, -, -⟩
  exact alike_pure (congrArg (fun v => v.getD Value.unit) (hmatch.slots a a' hroles))

/-- What is required of both is the same. -/
theorem alike_require (why : HostError) (o : Option α) :
    Alike (Run.require why o) s (Run.require why o) t (fun a b _ _ => a = b)
      fun _ _ _ => True := by
  cases o with
  | none => exact alike_throw trivial
  | some a => exact alike_pure rfl

/-- Names that stand for slots of the same role, at programs in the same position. -/
theorem roles_of_roleOf? (hpq : Twins False P Q) {procedure slot : String}
    (hposition : (Image.mk P names).program procedure = .ok k) (hk : P[k]? = some program)
    (hk' : Q[k]? = some program')
    (hroles : Host.roleOf? ⟨⟨P, names⟩, s⟩ procedure slot =
      Host.roleOf? ⟨⟨Q, names⟩, t⟩ procedure slot) :
    (program.machine.slots.find? fun slot' => names.lookup slot'.name == slot).map Slot.role =
      (program'.machine.slots.find? fun slot' => names.lookup slot'.name == slot).map
        Slot.role := by
  have hposition' := Tandem.program_eq (T := Tandem.abreast False) hpq names procedure
  unfold Host.roleOf? at hroles
  rw [← hposition', hposition] at hroles
  simpa [Except.toOption, hk, hk'] using hroles

/-- A name that stands for slots of the same role has the same content. -/
theorem alike_slotOf (hpq : Twins False P Q) (h : Abreast False P Q s t)
    (hk : P[k]? = some program) (hk' : Q[k]? = some program') (owner : InstanceId)
    {slot : String}
    (hroles : (program.machine.slots.find? fun slot' => names.lookup slot'.name == slot).map
      Slot.role = (program'.machine.slots.find? fun slot' =>
        names.lookup slot'.name == slot).map Slot.role) :
    Alike (do Host.slotContent owner k program (← Host.slotOf ⟨P, names⟩ program slot).id) s
      (do Host.slotContent owner k program' (← Host.slotOf ⟨Q, names⟩ program' slot).id) t
      (fun v v' _ _ => v = v') fun _ _ _ => True := by
  obtain ⟨hname, ⟨w⟩⟩ := hpq.twin k program program' hk hk'
  unfold Host.slotOf
  dsimp only
  cases hfound : program.machine.slots.find? fun slot' => names.lookup slot'.name == slot with
  | none =>
    rw [hfound] at hroles
    rw [Option.map_eq_none_iff.mp hroles.symm, hname]
    exact alike_throw trivial
  | some found =>
    rw [hfound] at hroles
    obtain ⟨found', hfound', hrole⟩ := Option.map_eq_some_iff.mp hroles.symm
    rw [hfound']
    refine alike_slotContent hpq h hk hk' owner ⟨found.role, ?_, ?_⟩
    · exact w.left.role?_of_mem (List.mem_of_find?_eq_some hfound)
    · rw [← hrole]
      exact w.right.role?_of_mem (List.mem_of_find?_eq_some hfound')

/-- The fields of an instance are read alike. -/
theorem alike_field (h : Abreast False P Q s t) (owner : InstanceId) (name : Option Name) :
    Alike (do return name.bind (← Run.theInstance owner).fields.get?) s
      (do return name.bind (← Run.theInstance owner).fields.get?) t (fun v v' _ _ => v = v')
        fun _ _ _ => True := by
  have hsome : (s.instances[owner]?).isSome = (t.instances[owner]?).isSome := by
    rw [Bool.eq_iff_iff, isSome_getElem?, isSome_getElem?, h.size]
  unfold Run.theInstance
  rw [bind_assoc]
  refine alike_get_bind ?_
  cases hs : s.instances[owner]? with
  | none =>
    rw [hs] at hsome
    rw [Option.isNone_iff_eq_none.mp (Option.isSome_eq_false_iff.mp hsome.symm)]
    exact alike_throw trivial
  | some i =>
    rw [hs] at hsome
    obtain ⟨j, ht⟩ := Option.isSome_iff_exists.mp hsome.symm
    have hfields : i.fields.get? = j.fields.get? := by
      funext field
      have hfield := h.fields owner field
      unfold HostState.field? at hfield
      rw [hs, ht] at hfield
      exact hfield
    rw [ht]
    exact alike_pure (by rw [hfields])

end

section

variable {β : Type} {left right : Host}

/-- What is made of the same results is the same. -/
theorem Alike.returning {x y : Hosted α} (h : Alike x left y right (fun a b _ _ => a = b) E)
    (f : α → β) :
    Alike (do return f (← x)) left (do return f (← y)) right (fun a b _ _ => a = b) E :=
  h.bind fun _ _ _ _ hab => alike_pure (congrArg f hab)

/-- Looks that see the same have the same results. -/
theorem alike_look_of_eq {view : Host → Except HostError α} (h : view left = view right) :
    Alike (Host.look view) left (Host.look view) right (fun a b _ _ => a = b)
      fun _ _ _ => True :=
  alike_look h (fun _ _ => rfl) fun _ _ => trivial

/-- **Queries on hosts that are abreast have the same answers.** -/
theorem Query.alike_answer (hlr : (Tandem.abreast False).Related left right) (query : Query)
    (hroles : ∀ owner procedure slot, query = .slotValue owner procedure slot →
      left.roleOf? procedure slot = right.roleOf? procedure slot) :
    Alike query.answer left query.answer right (fun a b _ _ => a = b) fun _ _ _ => True := by
  obtain ⟨⟨P, names⟩, s⟩ := left
  obtain ⟨⟨Q, names'⟩, t⟩ := right
  obtain ⟨hnames, hpq, hst⟩ := hlr
  obtain rfl : names = names' := hnames
  have hpq : Twins False P Q := hpq
  have hst : Abreast False P Q s t := hst
  have hcommon := hst.common
  cases query with
  | config =>
    unfold Query.answer
    refine alike_look_of_eq ?_
    rw [hcommon]
  | taskState task =>
    unfold Query.answer
    refine alike_look_of_eq ?_
    rw [Host.taskState, Host.taskState, hst.tasks_eq]
  | messages =>
    unfold Query.answer
    refine alike_look_of_eq ?_
    rw [Host.messages, Host.messages, hcommon]
  | messagesOf owner =>
    unfold Query.answer
    refine alike_look_of_eq ?_
    rw [Host.messagesOf, Host.messagesOf, hcommon]
  | resumeHandle owner procedure =>
    refine Alike.returning (alike_look_of_eq ?_) Reply.handle
    rw [Tandem.program_eq (T := Tandem.abreast False) hpq names procedure]
  | field owner field => exact (alike_run (alike_field hst owner _)).returning Reply.content
  | slotValue owner procedure slot =>
    refine Alike.returning (alike_run ?_) Reply.value
    refine (alike_programOf hpq procedure).bind ?_
    rintro ⟨k, program⟩ ⟨_, program'⟩ _ _ ⟨rfl, rfl, rfl, hposition, hk, hk'⟩
    exact alike_slotOf hpq hst hk hk' owner
      (roles_of_roleOf? hpq hposition hk hk' (hroles _ _ _ rfl))
  | stateIndex owner procedure =>
    refine Alike.returning (alike_run ?_) Reply.state
    refine (alike_programOf hpq procedure).bind ?_
    rintro ⟨k, program⟩ ⟨_, program'⟩ _ _ ⟨rfl, rfl, rfl, -, hk, hk'⟩
    obtain ⟨-, ⟨w⟩⟩ := hpq.twin k program program' hk hk'
    refine (alike_slotContent hpq hst hk hk' owner (w.left.sameRole_state w.right)).bind ?_
    rintro v _ _ _ rfl
    exact alike_require _ _
  | status owner procedure =>
    refine Alike.returning (alike_run ?_) Reply.status
    refine (alike_programOf hpq procedure).bind ?_
    rintro ⟨k, program⟩ ⟨_, program'⟩ _ _ ⟨rfl, rfl, rfl, -, hk, hk'⟩
    obtain ⟨-, ⟨w⟩⟩ := hpq.twin k program program' hk hk'
    refine (alike_slotContent hpq hst hk hk' owner (w.left.sameRole_status w.right)).bind ?_
    rintro v _ _ _ rfl
    exact alike_pure rfl

end

/-! ### Hosts -/

/-- The machine has the slot of a state, a status or a result, whatever
else it has slots for. -/
theorem Lowered.isSome_fixed {mode : LivenessMode} {names : NameTable}
    (b : Lowered mode names p m) (hfixed : role.isFixed = true) :
    (slotWithRole? m.slots role).isSome ↔ role = .result → p.returnsValue = true := by
  have hroles : m.slots.map Slot.role = _ := b.laidOut.roles
  rw [isSome_slotWithRole?, hroles]
  cases role with
  | state | status => simp
  | result => cases p.returnsValue <;> simp
  | hoisted _ | awaited _ _ => cases hfixed

section

variable {left right : Host}

/-- Hosts that are abreast keep the same in the slots of states, statuses and results. -/
theorem Twins.content?_eq (hpq : Twins False left.image.programs right.image.programs)
    (h : Abreast False left.image.programs right.image.programs left.state right.state)
    (owner : InstanceId) (k : Nat) (hfixed : role.isFixed = true) :
    left.content? owner k role = right.content? owner k role := by
  unfold Host.content?
  cases hk : left.image.programs[k]? with
  | none =>
    rw [hpq.eq_none hk]
    rfl
  | some program =>
    obtain ⟨program', hk'⟩ := hpq.exists_right hk
    obtain ⟨-, ⟨w⟩⟩ := hpq.twin k program program' hk hk'
    rw [hk', Option.bind_some, Option.bind_some]
    have hsome : (slotWithRole? program.machine.slots role).isSome ↔
        (slotWithRole? program'.machine.slots role).isSome := by
      rw [w.left.isSome_fixed hfixed, w.right.isSome_fixed hfixed]
    cases ha : slotWithRole? program.machine.slots role with
    | none =>
      rw [ha] at hsome
      rw [Option.not_isSome_iff_eq_none.mp fun hsome' =>
        Bool.false_ne_true (hsome.mpr hsome')]
      rfl
    | some a =>
      rw [ha] at hsome
      obtain ⟨a', ha'⟩ := Option.isSome_iff_exists.mp (hsome.mp rfl)
      rw [ha', Option.bind_some, Option.bind_some]
      have hsame : SameRole program.machine program'.machine a a' :=
        ⟨role, Lowered.role?_of_exists (w.left.laidOut.numbered.role_of_slotWithRole? ha),
          Lowered.role?_of_exists (w.right.laidOut.numbered.role_of_slotWithRole? ha')⟩
      have hworld : (hpq.duet .empty hk hk' w owner).World left.state right.state := h
      unfold HostState.slot?
      rcases hworld.seen with ⟨hst, hst', -⟩ | ⟨st, st', hst, hst', hmatch, -⟩
      · have hst : left.state.storage? owner k program.machine = none := hst
        have hst' : right.state.storage? owner k program'.machine = none := hst'
        rw [hst, hst']
        rfl
      · have hst : left.state.storage? owner k program.machine = some st := hst
        have hst' : right.state.storage? owner k program'.machine = some st' := hst'
        rw [hst, hst']
        exact hmatch.slots a a' hsame

/-- Runs that end alike have the same outcome. -/
theorem Alike.fst_eq {x y : Hosted α} (h : Alike x left y right (fun a b _ _ => a = b) E) :
    (show Except Halt α × Host from x left).1 =
      (show Except Halt α × Host from y right).1 := by
  have hends := @h _ _ _ _ (rfl : Ends x left _ _) (rfl : Ends y right _ _)
  generalize (show Except Halt α × Host from x left).1 = r at hends ⊢
  generalize (show Except Halt α × Host from y right).1 = r' at hends ⊢
  cases r with
  | ok a =>
    cases r' with
    | ok b => exact congrArg Except.ok hends
    | error _ => exact hends.elim
  | error why =>
    cases r' with
    | ok _ => exact hends.elim
    | error why' => exact congrArg Except.error hends.1

/-- Hosts that are abreast cannot be told apart, but by the names of their slots. -/
theorem Tandem.Related.runsLike (h : (Tandem.abreast False).Related left right) :
    left.RunsLike right := by
  have hcommon := h.states.common
  refine ⟨by rw [hcommon], by rw [hcommon], by rw [hcommon], h.states.fields,
    fun owner k role hfixed => Twins.content?_eq h.programs h.states owner k hfixed,
    fun operation operation' hacross hroles => Alike.fst_eq (E := fun _ _ _ => True) ?_⟩
  cases hacross.matched with
  | ask query =>
    exact query.alike_answer h fun owner procedure slot hquery =>
      hroles owner procedure slot (by rw [hquery])
  | perform fuel paired =>
    exact (Tandem.reply fuel paired h).mono (fun _ _ _ _ hab => hab.1) fun _ _ _ _ => trivial

end

/-- **The modes run the same.**  Hosts with the machines of the two modes agree after every
sequence of operations, those that fail included. -/
theorem runsLike_after (names : NameTable) (config : HostConfig)
    {operations operations' : List Operation}
    (across : List.Forall₂ AcrossModes operations operations') :
    ((Host.new names config).after operations).RunsLike
      ((Host.new names config).after operations') := by
  have hnew : (Tandem.abreast False).Related (Host.new names config)
    (Host.new names config) :=
    ⟨rfl, ⟨rfl, fun k program program' hk => by cases hk⟩, Abreast.new False config⟩
  exact (Tandem.related_after (across.imp fun _ _ h => h.matched) hnew).runsLike

/-! ### A local that is overwritten -/

namespace Over

/-- The strings that the procedure uses. -/
def names : NameTable := .internAll .empty ["Over", "x", "log"]

/-- Log a number, wait for the next frame, forget the number and log another one. -/
def procedure : Procedure where
  name := ⟨1⟩
  params := []
  locals := [⟨0, ⟨2⟩, .int, .none⟩]
  result := .unit
  cancellation := none
  body := .block [
    .bind ⟨0, .none⟩ 0 (.int ⟨.int, .none⟩ 1),
    .expr ⟨1, .none⟩ (.call ⟨.unit, .none⟩ (.host ⟨3⟩) [.localVar ⟨.int, .none⟩ 0]),
    .expr ⟨2, .none⟩ (.suspend ⟨.unit, .none⟩
      (.call ⟨.deferred .unit, .none⟩ (.primitive .yield) [])),
    .assign ⟨3, .none⟩ (.localVar 0) (.int ⟨.int, .none⟩ 2),
    .expr ⟨4, .none⟩ (.call ⟨.unit, .none⟩ (.host ⟨3⟩) [.localVar ⟨.int, .none⟩ 0])]
  span := .none

/-- The table after the procedure was lowered in the first mode. -/
def between : NameTable := (lowerProcedure ⟨.positional, "__"⟩ procedure names).2

/-- The table after the procedure was lowered in both modes. -/
def shared : NameTable := (lowerProcedure ⟨.dataflow, "__"⟩ procedure between).2

/-- The machine that keeps the local in a slot, since it is mentioned on both sides
of the suspension. -/
@[irreducible] def positional : Machine :=
  (lowerProcedure ⟨.positional, "__"⟩ procedure names).1.toOption.getD default

/-- The machine that does not, since no value of the local is used on both sides. -/
@[irreducible] def dataflow : Machine :=
  (lowerProcedure ⟨.dataflow, "__"⟩ procedure between).1.toOption.getD default

theorem lowered_positional :
    lowerProcedure ⟨.positional, "__"⟩ procedure names = (.ok positional, between) := by
  unfold positional
  exact eq_mk_ok_of_isOk (by decide +kernel)

theorem lowered_dataflow :
    lowerProcedure ⟨.dataflow, "__"⟩ procedure between = (.ok dataflow, shared) := by
  unfold dataflow
  exact eq_mk_ok_of_isOk (by decide +kernel)

theorem portable : procedure.Portable := by
  refine ⟨?_, ⟨?_, ?_, ?_, ?_⟩, ?_, ?_, ?_⟩
  all_goals decide +kernel

theorem inBothModes : InBothModes positional dataflow :=
  ⟨procedure, "__", names, between, between, shared, shared, portable,
    lowered_positional, lowered_dataflow,
    ⟨by decide, (find?_dispatch_of_lowerProcedure lowered_dataflow).1⟩, by
      decide +kernel, .refl shared⟩

/-- Load a machine and call it, twice on an instance and once where there is none,
and let a frame pass. -/
def session (m : Machine) : List Operation :=
  [.perform 0 (.load m), .perform 0 .spawn, .perform 9 (.call 0 "Over" []),
    .perform 9 (.call 0 "Over" []), .perform 9 (.call 7 "Over" []), .perform 9 .advanceFrame]

theorem across : List.Forall₂ AcrossModes (session positional) (session dataflow) := by
  refine .cons (.load 0 inBothModes) (List.forall₂_same.mpr fun operation hmem =>
    .same fun fuel m heq => ?_)
  subst heq
  simp at hmem

/-- The host with the first machine, after that. -/
@[irreducible] def left : Host := (Host.new shared ⟨1.0, 10⟩).after (session positional)

/-- The host with the second machine, after that. -/
@[irreducible] def right : Host := (Host.new shared ⟨1.0, 10⟩).after (session dataflow)

/-- Ask for the local by the name of its slot. -/
def glance : Operation := .ask (.slotValue 0 "Over" "__Over_x")

end Over

/-- Both hosts have logged the number, twice, and the other one, and agree
in everything else. -/
theorem over_runsLike :
    Over.left.state.log.map (fun line => line.message) = #["1", "1", "2"] ∧
    Over.left.RunsLike Over.right := by
  refine ⟨by decide +kernel, ?_⟩
  unfold Over.left Over.right
  exact runsLike_after Over.shared ⟨1.0, 10⟩ Over.across

/-- **A slot by name can tell the modes apart**: in one of them there is no
slot for the local. -/
theorem over_tells_modes_apart :
    List.Forall₂ AcrossModes (Over.session Over.positional) (Over.session Over.dataflow) ∧
      AcrossModes Over.glance Over.glance ∧
      Over.glance.outcome Over.left ≠ Over.glance.outcome Over.right := by
  have hleft : (Over.glance.outcome Over.left).isOk = true := by decide +kernel
  have hright : (Over.glance.outcome Over.right).isOk = false := by decide +kernel
  refine ⟨Over.across, .same (fun fuel m heq => by cases heq), fun heq => ?_⟩
  rw [heq, hright] at hleft
  cases hleft

end Resumable
