import Mathlib.Data.List.Forall2
import Resumable.Proofs.Advancing
import Resumable.Proofs.Roles
import Resumable.Proofs.Tandem
import Resumable.Proofs.Upkeep

/-!
# Hosts with machines of the same procedures

Two hosts have loaded the same procedures, each lowered in its own way.  They are *abreast*
when they differ only in where variables are kept: fields, tasks, requests, tokens and the log
are the same, and so is the content of slots with the same role.  Their closures are made of
the same code, and find the same in it: a local that a closure reads has a slot in both
machines, or else it is in both of the frames that were copied.

The relation serves two ends.  For hosts that were loaded with different machines it says that
a user cannot tell the machines apart.  For one host beside itself, with procedures that are
well put together, it says that what its code refers to is there.  The parameter `strict`
tells the two apart: a strict pair of machines is one of which nothing may go wrong.

## Main definitions

* `Twin`: two machines of one procedure that can be run side by side.
* `Sealed`, `SealedAlike`: closures made of the same code.
* `Abreast`: two states that differ only in where variables are kept.
* `Duet`: a site in each of two hosts, with machines that are twins.

## Main statements

* `Abreast.restock`: writes at the two sites of a duet.
* `Duet.alike_storage`, `Duet.alike_readSlot`, `Duet.inStep_writeSlot`,
  `Duet.inStep_taskSlots`: access to slots with the same role.
* `Duet.inStep_finish`, `Duet.alike_activate`: the end and the start of an activation.
-/

namespace Resumable

open Resumable.Bound (Access Procedure)
open Machine (SlotId TaskStatus)

variable {strict : Prop} {P Q : Array Program} {program program' : Program} {site : Site}
  {s t s' t' : HostState} {st : Storage} {a a' : SlotId}

/-! ### Twins -/

/-- What two machines of a procedure allow its code: everything, when they are the same. -/
def licence (strict : Prop) (m m' : Machine) : Bound.Licence where
  strict := strict
  free := m = m'
  slotted i := (m.layout.param? i).isSome
  shared x := (m.layout.local? x).isSome = (m'.layout.local? x).isSome

/-- **Two machines of one procedure** that can be run side by side.  Machines that keep their
variables in different places cannot be disturbed by other procedures, and their closures read
what both of them keep in slots or neither does. -/
structure Twin (strict : Prop) (m m' : Machine) where
  p : Procedure
  mode : LivenessMode
  mode' : LivenessMode
  names : NameTable
  names' : NameTable
  left : Lowered mode names p m
  right : Lowered mode' names' p m'
  tree : p.TreeShaped
  blocks : p.BlockScoped
  features : m = m' ∨ ∀ f ∈ Bound.featuresOf p.stmts, f = .error ∨ f = .lambda
  shares : ∀ x ∈ Bound.capturesOf p.stmts,
    (m.layout.local? x).isSome = (m'.layout.local? x).isSome
  sturdy : strict → .error ∉ Bound.featuresOf p.stmts ∧
    ∀ i ∈ (Bound.accessesOf p.stmts).filterMap Access.param?, i < p.params.length
  dispatch : m.dispatch.name = m'.dispatch.name

namespace Twin

variable {m m' : Machine}

variable (w : Twin strict m m')

include w

theorem reaches :
    ∀ i ∈ (Bound.accessesOf w.p.stmts).filterMap Access.param?,
    (licence strict m m').Reaches i :=
  fun i hi hstrict => w.left.isSome_param? hi ((w.sturdy hstrict).2 i hi)

theorem covers : (licence strict m m').Covers w.p := by
  refine ⟨fun f hf => ?_, w.reaches, w.shares⟩
  have hsame : ¬ (f = .error ∨ f = .lambda) → m = m' := fun hne =>
    w.features.resolve_right fun hfew => hne (hfew f hf)
  cases f with
  | error => exact fun hstrict => (w.sturdy hstrict).1 hf
  | lambda => trivial
  | call | bare => exact hsame (by decide)

theorem labels : m.labels = m'.labels := by
  have hname : ∀ {mode names m} (_ : Lowered mode names w.p m),
    m.labels = (w.p.name, w.p.name, m.dispatch.name) := by
    intro mode names m b
    rw [Machine.labels, congrArg Machine.procedure b.machine,
      congrArg (fun m : Machine => m.entry.name) b.machine]
    rfl
  rw [hname w.left, hname w.right, w.dispatch]

theorem params_eq : m.params = m'.params := by
  rw [congrArg Machine.params w.left.machine, congrArg Machine.params w.right.machine]
  rfl

end Twin

/-- Programs whose machines are twins, one by one. -/
structure Twins (strict : Prop) (P Q : Array Program) : Prop where
  size : P.size = Q.size
  twin : ∀ (k : Nat) (program program' : Program), P[k]? = some program →
    Q[k]? = some program' →
    program.name = program'.name ∧ Nonempty (Twin strict program.machine program'.machine)

namespace Twins

variable (h : Twins strict P Q)

include h

theorem labels : P.map Program.labels = Q.map Program.labels := by
  refine Array.ext (by rw [Array.size_map, Array.size_map, h.size]) fun k hk hk' => ?_
  rw [Array.size_map] at hk hk'
  obtain ⟨hname, ⟨w⟩⟩ :=
    h.twin k _ _ (Array.getElem?_eq_getElem hk) (Array.getElem?_eq_getElem hk')
  rw [Array.getElem_map, Array.getElem_map, Program.labels, Program.labels, hname]
  exact congrArg _ (Prod.mk.inj w.labels).2

/-- What is loaded on the left has its twin on the right. -/
theorem exists_right {k : Nat} (hk : P[k]? = some program) :
    ∃ program', Q[k]? = some program' := by
  have hlt := (Array.getElem?_eq_some_iff.mp hk).1
  rw [h.size] at hlt
  exact ⟨_, Array.getElem?_eq_getElem hlt⟩

/-- What is not loaded on the left is not on the right. -/
theorem eq_none {k : Nat} (hk : P[k]? = none) : Q[k]? = none := by
  rw [Array.getElem?_eq_none_iff] at hk ⊢
  exact h.size ▸ hk

theorem push (hname : program.name = program'.name)
    (w : Nonempty (Twin strict program.machine program'.machine)) :
    Twins strict (P.push program) (Q.push program') := by
  refine ⟨by rw [Array.size_push, Array.size_push, h.size], fun k a b ha hb => ?_⟩
  rcases getElem?_push_cases ha with hold | ⟨hnone, rfl⟩
  · obtain ⟨b', hb'⟩ := h.exists_right hold
    obtain rfl : b' = b := Option.some.inj ((getElem?_push_of_some hb' _).symm.trans hb)
    exact h.twin k a b' hold hb'
  · rcases getElem?_push_cases hb with hold | ⟨-, rfl⟩
    · rw [h.eq_none hnone] at hold
      cases hold
    · exact ⟨hname, w⟩

end Twins

/-! ### States -/

/-- A function that does not answer with the errors of code that is not well put together. -/
def Benign (answer : HostFn) : Prop :=
  ∀ earlier call why, answer earlier call = .error why → why.isStructural = false

/-- Is this a reason to stop, where nothing may go wrong? -/
def Tolerable (strict : Prop) (halt : Halt) : Prop := strict → halt.isStructural = false

/-- What a closure knows of a local: the machines keep it in slots, or both frames that were
copied have it with the same value. -/
def Captured (m m' : Machine) (locals locals' : Bindings LocalId Value)
    (x : LocalId) : Prop :=
  (m.layout.local? x).isSome ∧ (m'.layout.local? x).isSome ∨
    ∃ v, m.layout.local? x = none ∧ m'.layout.local? x = none ∧ locals.get? x = some v ∧
    locals'.get? x = some v

/-- **Closures made of the same code**, which is sound with the frames they were made in.
Machines that differ make closures for one of the `count` instances that there are. -/
structure Sealed (strict : Prop) (P Q : Array Program) (count : Nat)
    (c c' : Closure) : Prop where
  common : c' = { c with body := c'.body, locals := c'.locals }
  code : ∃ program program' known body, P[c.program]? = some program ∧
    Q[c.program]? = some program' ∧
    c.body = slottedBlock program.machine.layout true body ∧
      c'.body = slottedBlock program'.machine.layout true body ∧
    Bound.SoundBlock (licence strict program.machine program'.machine) false known body ∧
    (program.machine = program'.machine → c.locals = c'.locals) ∧
    (program.machine = program'.machine ∨ c.owner < count) ∧
    ∀ x, known x → Captured program.machine program'.machine c.locals c'.locals x

/-- Two lists of such closures. -/
structure SealedAlike (strict : Prop) (P Q : Array Program) (count : Nat)
    (cs cs' : Array Closure) : Prop where
  size : cs.size = cs'.size
  each : ∀ (id : ClosureId) (c c' : Closure), cs[id]? = some c → cs'[id]? = some c' →
    Sealed strict P Q count c c'

namespace SealedAlike

variable {P' Q' : Array Program} {count count' : Nat} {cs cs' : Array Closure}

theorem mono (h : SealedAlike strict P Q count cs cs') (hle : count ≤ count')
    (hleft : ∀ (k : Nat) (program : Program), P[k]? = some program → P'[k]? = some program)
    (hright : ∀ (k : Nat) (program : Program), Q[k]? = some program → Q'[k]? = some program) :
    SealedAlike strict P' Q' count' cs cs' := by
  refine ⟨h.size, fun id c c' hc hc' => ?_⟩
  obtain ⟨common, program, program', known, body, hk, hk', hbody, hbody', sound,
    hsame, howner, hknown⟩ :=
    h.each id c c' hc hc'
  exact ⟨common, program, program', known, body, hleft _ _ hk, hright _ _ hk',
    hbody, hbody', sound, hsame, howner.imp_right fun hlt =>
      Nat.lt_of_lt_of_le hlt hle, hknown⟩

theorem push (h : SealedAlike strict P Q count cs cs') {c c' : Closure}
    (hnew : Sealed strict P Q count c c') :
    SealedAlike strict P Q count (cs.push c) (cs'.push c') := by
  refine ⟨by rw [Array.size_push, Array.size_push, h.size], fun id a b ha hb => ?_⟩
  rw [Array.getElem?_push] at ha hb
  rw [← h.size] at hb
  split at ha
  case isTrue heq =>
    rw [if_pos heq] at hb
    obtain rfl := Option.some.inj ha
    obtain rfl := Option.some.inj hb
    exact hnew
  case isFalse hne =>
    rw [if_neg hne] at hb
    exact h.each id a b ha hb

end SealedAlike

/-- **Two states that differ only in where variables are kept.** -/
structure Abreast (strict : Prop) (P Q : Array Program) (s t : HostState) : Prop where
  common : t = { s with instances := t.instances, closures := t.closures }
  size : s.instances.size = t.instances.size
  fields : ∀ owner name, s.field? owner name = t.field? owner name
  stocked : Stocked P s
  stocked' : Stocked Q t
  matched : ∀ k program program' owner st st', P[k]? = some program → Q[k]? = some program' →
    s.storage? owner k program.machine = some st →
    t.storage? owner k program'.machine = some st' →
    Matching program.machine program'.machine st st'
  closed : SealedAlike strict P Q s.instances.size s.closures t.closures
  benign : strict → ∀ name r, s.functions.get? name = some r → Benign r.answer

/-- The slots at a site replaced, or left as they are, and nothing else. -/
structure Site.Restocked (site : Site) (s : HostState) (new : Storage)
    (s' : HostState) : Prop where
  common : s' = { s with instances := s'.instances }
  size : s'.instances.size = s.instances.size
  fields : ∀ owner name, s'.field? owner name = s.field? owner name
  here : site.slotsIn s' = some new
  elsewhere : ∀ owner k m, ¬ (site.owner = owner ∧ site.index = k) →
    s'.storage? owner k m = s.storage? owner k m

theorem Site.restocked_self (h : site.slotsIn s = some st) :
    site.Restocked s st s := ⟨rfl, rfl, fun _ _ => rfl, h, fun _ _ _ _ => rfl⟩

theorem Site.restocked_put (h : site.slotsIn s = some st) (new : Storage) :
    site.Restocked s new (site.put s new) :=
  ⟨rfl, Array.size_modify, fun _ _ => HostState.field?_putStorage _, Site.slotsIn_put h new,
    fun _ _ m hne => HostState.storage?_putStorage_of_ne hne m⟩

namespace Abreast

section

variable (h : Abreast strict P Q s t)

include h

/-- Both sides have the same tasks. -/
theorem tasks_eq : t.tasks = s.tasks := by
  rw [h.common]

theorem scheduler_eq : t.scheduler = s.scheduler := by
  rw [h.common]

section

variable (hs : s'.instances = s.instances) (ht : t'.instances = t.instances)
  (hcommon : t' = { s' with instances := t'.instances, closures := t'.closures })

include hs ht hcommon

/-- The same change of anything but the instances. -/
theorem reassign (hclosed : SealedAlike strict P Q s.instances.size s'.closures t'.closures)
    (hbenign : strict → ∀ name r, s'.functions.get? name = some r → Benign r.answer) :
    Abreast strict P Q s' t' := by
  refine ⟨hcommon, by rw [hs, ht, h.size], fun owner name => ?_, h.stocked.of_instances hs,
    h.stocked'.of_instances ht, fun k program program' owner st st' hk hk' hst hst' =>
      ?_, hs ▸ hclosed, hbenign⟩
  · have hfields := h.fields owner name
    unfold HostState.field? at hfields ⊢
    rw [hs, ht, hfields]
  · rw [HostState.storage?_congr hs] at hst
    rw [HostState.storage?_congr ht] at hst'
    exact h.matched k program program' owner st st' hk hk' hst hst'

/-- The same change of the clock, the queue, the tasks, the tokens or the log. -/
theorem keep (hclosures : s'.closures = s.closures) (hclosures' : t'.closures = t.closures)
    (hfunctions : s'.functions = s.functions) : Abreast strict P Q s' t' :=
  h.reassign hs ht hcommon (by rw [hclosures, hclosures']; exact h.closed)
    (by rw [hfunctions]; exact h.benign)

end

/-- One field put on both sides. -/
theorem putField (owner : InstanceId) (name : Name) (v : Value) :
    Abreast strict P Q (s.putField owner name v) (t.putField owner name v) := by
  refine ⟨?_, ?_, fun owner' name' => ?_, h.stocked.putField owner name v,
    h.stocked'.putField owner name v, fun k program program' owner' st st' hk hk' hst hst' =>
      ?_, ?_, h.benign⟩
  · unfold HostState.putField
    rw [h.common]
  · show (s.instances.modify _ _).size = (t.instances.modify _ _).size
    rw [Array.size_modify, Array.size_modify, h.size]
  · rw [HostState.field?_putField, HostState.field?_putField, h.fields]
    have hsome : (s.instances[owner]?).isSome = (t.instances[owner]?).isSome := by
      rw [Bool.eq_iff_iff, isSome_getElem?, isSome_getElem?, h.size]
    cases hs : s.instances[owner]? <;> cases ht : t.instances[owner]? <;> simp_all
  · rw [HostState.storage?_putField] at hst hst'
    exact h.matched k program program' owner' st st' hk hk' hst hst'
  · have hsize : (s.putField owner name v).instances.size = s.instances.size :=
      Array.size_modify
    rw [hsize]
    exact h.closed

/-- New instances on both sides stay abreast. -/
theorem spawn (hpq : Twins strict P Q) :
    Abreast strict P Q { s with instances := s.instances.push .empty }
      { t with instances := t.instances.push .empty } := by
  refine ⟨?_, ?_, fun owner name => ?_, h.stocked.spawn, h.stocked'.spawn,
    fun k program program' owner st st' hk hk' hst hst' => ?_,
    h.closed.mono (by rw [Array.size_push]; exact Nat.le_succ _) (fun _ _ => id) fun _ _ =>
      id, h.benign⟩
  · rw [h.common]
  · show (s.instances.push _).size = (t.instances.push _).size
    rw [Array.size_push, Array.size_push, h.size]
  · have hfields := h.fields owner name
    unfold HostState.field? at hfields ⊢
    rw [Array.getElem?_push, Array.getElem?_push, h.size]
    split
    · rfl
    · exact hfields
  · -- On the new instance both have fresh slots, and on the others what they had.
    have hsize := h.size
    unfold HostState.storage? at hst hst'
    rw [Array.getElem?_push] at hst hst'
    rw [← hsize] at hst'
    split at hst
    case isTrue heq =>
      rw [if_pos heq] at hst'
      obtain rfl := Option.some.inj hst
      obtain rfl := Option.some.inj hst'
      obtain ⟨-, ⟨w⟩⟩ := hpq.twin k program program' hk hk'
      exact Matching.fresh w.left w.right
    case isFalse hne =>
      rw [if_neg hne] at hst'
      exact h.matched k program program' owner st st' hk hk' hst hst'

theorem load (hpq : Twins strict P Q) (w : Twin strict program.machine program'.machine) :
    Abreast strict (P.push program) (Q.push program') s t := by
  refine ⟨h.common, h.size, h.fields, h.stocked.load _, h.stocked'.load _,
    fun k a b owner st st' hk hk' hst hst' => ?_, h.closed.mono (Nat.le_refl _)
      (fun _ _ hk => getElem?_push_of_some hk _) fun _ _ hk =>
        getElem?_push_of_some hk _, h.benign⟩
  · rcases getElem?_push_cases hk with hold | ⟨hnone, rfl⟩
    · obtain ⟨b', hb'⟩ := hpq.exists_right hold
      obtain rfl : b' = b := Option.some.inj ((getElem?_push_of_some hb' _).symm.trans hk')
      exact h.matched k a b' owner st st' hold hb' hst hst'
    · have hnone' := hpq.eq_none hnone
      rcases getElem?_push_cases hk' with hold | ⟨-, rfl⟩
      · rw [hnone'] at hold
        cases hold
      · rw [h.stocked.unstored k owner _ st hnone hst,
          h.stocked'.unstored k owner _ st' hnone' hst']
        exact Matching.fresh w.left w.right

end

/-- New hosts are abreast. -/
theorem new (strict : Prop) (config : HostConfig) :
    Abreast strict #[] #[] (HostState.new config) (HostState.new config) := by
  refine ⟨rfl, rfl, fun _ _ => rfl, .new config, .new config,
    fun k program program' owner st st' hk => ?_, ⟨rfl, fun id c c' hc => ?_⟩,
    fun _ name r hr => ?_⟩
  · cases hk
  · cases hc
  · cases hr

end Abreast

/-! ### Duets -/

/-- **A site in each of two hosts**, with machines that are twins. -/
structure Duet (strict : Prop) where
  left : Site
  right : Site
  twin : Twin strict left.machine right.machine
  index : right.index = left.index
  owner : right.owner = left.owner
  names : right.image.names = left.image.names
  procedures : right.image.procedure? = left.image.procedure?
  loaded : left.Loaded
  loaded' : right.Loaded

namespace Duet

variable (d : Duet strict)

/-- The states of the two hosts are abreast. -/
def World (s t : HostState) : Prop :=
  Abreast strict d.left.image.programs d.right.image.programs s t

/-- The reasons for which runs at the sites may stop, and how they leave the states. -/
def Stops (halt : Halt) (s t : HostState) : Prop := Tolerable strict halt ∧ d.World s t

variable {d}

/-- **Writes at both sites** keep the states abreast where the contents still match. -/
theorem World.restock (h : d.World s t) {new new' : Storage}
    (hleft : d.left.Restocked s new s') (hright : d.right.Restocked t new' t')
    (hmatch : Matching d.left.machine d.right.machine new new')
    (hlength : new.slots.length = d.left.machine.slots.length)
    (hlength' : new'.slots.length = d.right.machine.slots.length) : d.World s' t' := by
  have hstocked : ∀ {site : Site} {s s' : HostState} {new : Storage}, site.Loaded →
      Stocked site.image.programs s → site.Restocked s new s' →
      new.slots.length = site.machine.slots.length → Stocked site.image.programs s' := by
    intro site s s' new hload hstocked hnew hlength
    refine ⟨fun k program owner st hk hst => ?_, fun k owner m st hk hst => ?_⟩
    · by_cases heq : site.owner = owner ∧ site.index = k
      · obtain ⟨rfl, rfl⟩ := heq
        obtain rfl : site.program = program := Option.some.inj (hload.symm.trans hk)
        obtain rfl : new = st := Option.some.inj (hnew.here.symm.trans hst)
        exact hlength
      · rw [hnew.elsewhere owner k _ heq] at hst
        exact hstocked.stored k program owner st hk hst
    · by_cases heq : site.owner = owner ∧ site.index = k
      · obtain ⟨rfl, rfl⟩ := heq
        cases hload.symm.trans hk
      · rw [hnew.elsewhere owner k _ heq] at hst
        exact hstocked.unstored k owner m st hk hst
  refine ⟨?_, by rw [hleft.size, hright.size, h.size], fun owner name => ?_,
    hstocked d.loaded h.stocked hleft hlength, hstocked d.loaded' h.stocked' hright hlength',
    fun k program program' owner st st' hk hk' hst hst' => ?_, ?_, ?_⟩
  · rw [hright.common, h.common, hleft.common]
  · rw [hleft.fields, hright.fields, h.fields]
  · by_cases heq : d.left.owner = owner ∧ d.left.index = k
    · have heq' : d.right.owner = owner ∧ d.right.index = k := by
        rw [d.owner, d.index]
        exact heq
      obtain ⟨rfl, rfl⟩ := heq
      obtain rfl : d.left.program = program := Option.some.inj (d.loaded.symm.trans hk)
      obtain rfl : d.right.program = program' := by
        rw [← heq'.2] at hk'
        exact Option.some.inj (d.loaded'.symm.trans hk')
      obtain rfl : new = st := Option.some.inj (hleft.here.symm.trans hst)
      obtain rfl : new' = st' := by
        rw [← heq'.1, ← heq'.2] at hst'
        exact Option.some.inj (hright.here.symm.trans hst')
      exact hmatch
    · have heq' : ¬ (d.right.owner = owner ∧ d.right.index = k) := by
        rw [d.owner, d.index]
        exact heq
      rw [hleft.elsewhere owner k _ heq] at hst
      rw [hright.elsewhere owner k _ heq'] at hst'
      exact h.matched k program program' owner st st' hk hk' hst hst'
  · have hclosures : s'.closures = s.closures := by rw [hleft.common]
    have hclosures' : t'.closures = t.closures := by rw [hright.common]
    rw [hleft.size, hclosures, hclosures']
    exact h.closed
  · rw [hleft.common]
    exact h.benign

/-- Both sites see slots that match, or there is no instance for them. -/
theorem World.seen (h : d.World s t) :
    (d.left.slotsIn s = none ∧ d.right.slotsIn t = none ∧ s.instances[d.left.owner]? = none ∧
        t.instances[d.right.owner]? = none) ∨ ∃ st st', d.left.slotsIn s = some st ∧
          d.right.slotsIn t = some st' ∧
        Matching d.left.machine d.right.machine st st' ∧
          st.slots.length = d.left.machine.slots.length ∧
        st'.slots.length = d.right.machine.slots.length := by
  have hsome : (s.instances[d.left.owner]?).isSome =
    (t.instances[d.right.owner]?).isSome := by
    rw [Bool.eq_iff_iff, isSome_getElem?, isSome_getElem?, d.owner, h.size]
  cases hs : s.instances[d.left.owner]? with
  | none =>
    rw [hs] at hsome
    have ht : t.instances[d.right.owner]? = none := by
      cases ht : t.instances[d.right.owner]? with
      | none => rfl
      | some _ =>
        rw [ht] at hsome
        cases hsome
    refine Or.inl ⟨?_, ?_, rfl, ht⟩
    · exact Option.map_eq_none_iff.mpr hs
    · exact Option.map_eq_none_iff.mpr ht
  | some i =>
    rw [hs] at hsome
    obtain ⟨j, ht⟩ := Option.isSome_iff_exists.mp hsome.symm
    have hst : d.left.slotsIn s = some _ := Option.map_eq_some_iff.mpr ⟨i, hs, rfl⟩
    have hst' : d.right.slotsIn t = some _ := Option.map_eq_some_iff.mpr ⟨j, ht, rfl⟩
    refine Or.inr ⟨_, _, hst, hst', h.matched d.left.index d.left.program
      d.right.program d.left.owner _ _
      d.loaded (d.index ▸ d.loaded') hst (d.owner ▸ d.index ▸ hst'), ?_, ?_⟩
    · exact h.stocked.stored _ _ _ _ d.loaded hst
    · exact h.stocked'.stored _ _ _ _ d.loaded' hst'

/-! ### Slots -/

/-- The instances of both sides, looked up together. -/
theorem alike_theInstance (h : d.World s t) :
    Alike (Run.theInstance d.left.owner) s (Run.theInstance d.right.owner) t
      (fun i j s' t' => s' = s ∧ t' = t ∧ s.instances[d.left.owner]? = some i ∧
        t.instances[d.right.owner]? = some j) d.Stops := by
  refine alike_get_bind ?_
  rcases h.seen with ⟨-, -, hs, ht⟩ | ⟨st, st', hst, hst', -⟩
  · rw [hs, ht, d.owner]
    exact alike_throw ⟨fun _ => rfl, h⟩
  · obtain ⟨i, hi, -⟩ := Option.map_eq_some_iff.mp hst
    obtain ⟨j, hj, -⟩ := Option.map_eq_some_iff.mp hst'
    rw [hi, hj]
    exact alike_pure ⟨rfl, rfl, rfl, rfl⟩

/-- **Both sites see slots that match**, or stop because there is no instance. -/
theorem alike_storage (h : d.World s t) : Alike d.left.storage s d.right.storage t
      (fun st st' s' t' => s' = s ∧ t' = t ∧ d.left.slotsIn s = some st ∧
        d.right.slotsIn t = some st' ∧
        Matching d.left.machine d.right.machine st st' ∧
          st.slots.length = d.left.machine.slots.length ∧
        st'.slots.length = d.right.machine.slots.length) d.Stops := by
  rcases h.seen with ⟨-, -, hs, ht⟩ | ⟨st, st', hst, hst', hrest⟩
  · refine (alike_theInstance h).bind fun i j s' t' hij => ?_
    rw [hs] at hij
    cases hij.2.2.1
  · exact Returns.alike (Site.returns_storage.mpr ⟨hst, rfl⟩)
      (Site.returns_storage.mpr ⟨hst', rfl⟩) ⟨rfl, rfl, hst, hst', hrest⟩

theorem lt_of_role? {m : Machine} {role : Machine.Role} (h : m.role? a = some role) :
    a < m.slots.length := by
  obtain ⟨slot, hslot, -⟩ := Option.map_eq_some_iff.mp h
  exact (List.getElem?_eq_some_iff.mp hslot).1

/-- **Slots with the same role have the same content.** -/
theorem alike_readSlot (h : d.World s t)
    (hroles : SameRole d.left.machine d.right.machine a a') :
    Alike (d.left.readSlot a) s (d.right.readSlot a') t
      (fun v v' s' t' => v = v' ∧ s' = s ∧ t' = t ∧ d.left.slotIn s a = some v ∧
        d.right.slotIn t a' = some v) d.Stops := by
  refine (alike_storage h).bind ?_
  rintro st st' _ _ ⟨rfl, rfl, hst, hst', hmatch, hlength, hlength'⟩
  obtain ⟨role, hrole, hrole'⟩ := hroles
  have hlt : a < st.slots.length := by
    rw [hlength]
    exact lt_of_role? hrole
  have heq := hmatch.slots a a' ⟨role, hrole, hrole'⟩
  rw [List.getElem?_eq_getElem hlt] at heq
  rw [← heq, List.getElem?_eq_getElem hlt]
  refine alike_pure ⟨rfl, rfl, rfl, ?_, ?_⟩
  · rw [Site.slotIn_eq hst, List.getElem?_eq_getElem hlt]
  · rw [Site.slotIn_eq hst', ← heq]

/-- Slots of one role read the same. -/
theorem inStep_readSlot (hroles : SameRole d.left.machine d.right.machine a a') :
    InStep d.World (Tolerable strict) (d.left.readSlot a) (d.right.readSlot a') := by
  intro s t h
  refine (alike_readSlot h hroles).mono ?_ fun halt s' t' hstops => hstops
  rintro v _ _ _ ⟨rfl, rfl, rfl, -⟩
  exact ⟨rfl, h⟩

/-- A write to slots with the same role. -/
theorem inStep_writeSlot (hroles : SameRole d.left.machine d.right.machine a a') (v : Value) :
    InStep d.World (Tolerable strict) (d.left.writeSlot a v) (d.right.writeSlot a' v) := by
  intro s t h
  rcases h.seen with ⟨-, -, hs, -⟩ | ⟨st, st', hst, hst', hmatch, hlength, hlength'⟩
  · refine (alike_storage h).bind fun st st' s' t' hseen => ?_
    obtain ⟨i, hi, -⟩ := Option.map_eq_some_iff.mp hseen.2.2.1
    rw [hs] at hi
    cases hi
  · obtain ⟨role, hrole, hrole'⟩ := hroles
    have hlt : a < st.slots.length := by
      rw [hlength]
      exact lt_of_role? hrole
    have hlt' : a' < st'.slots.length := by
      rw [hlength']
      exact lt_of_role? hrole'
    refine Returns.alike (a := ()) (b := ()) (Site.returns_writeSlot.mpr ⟨st, hst, hlt, rfl⟩)
      (Site.returns_writeSlot.mpr ⟨st', hst', hlt', rfl⟩) ⟨rfl, ?_⟩
    exact h.restock (Site.restocked_put hst _) (Site.restocked_put hst' _)
      (hmatch.set d.twin.left d.twin.right ⟨role, hrole, hrole'⟩ v)
      (List.length_set.trans hlength) (List.length_set.trans hlength')

/-- The tasks in slots with the same roles. -/
theorem inStep_taskSlots {slots slots' : List SlotId}
    (hroles : List.Forall₂ (SameRole d.left.machine d.right.machine) slots slots') :
    InStep d.World (Tolerable strict) (d.left.taskSlots slots)
      (d.right.taskSlots slots') := by
  induction hroles with
  | nil => exact inStep_pure _
  | cons hfirst _ ih =>
    refine (inStep_readSlot hfirst).bind fun v => ?_
    refine InStep.bind (Run.inStep_require _ fun _ _ => rfl) fun id => ?_
    exact ih.bind fun _ => inStep_pure _

/-! ### The end and the start of an activation -/

theorem inStep_resultOf (value : Option Value) :
    InStep d.World (Tolerable strict) (resultOf d.left value) (resultOf d.right value) := by
  have heq := d.twin.left.resultSlot_eq d.twin.right
  unfold resultOf
  cases hslot : d.left.machine.resultSlot with
  | none =>
    rw [hslot] at heq
    rw [← heq]
    exact inStep_pure _
  | some id =>
    have hroles := d.twin.left.sameRole_result d.twin.right hslot
    rw [hslot] at heq
    rw [← heq]
    cases value with
    | none => exact inStep_readSlot hroles
    | some v => exact (inStep_writeSlot hroles v).bind fun _ => inStep_pure _

/-- **The end of an activation**: the same result, status and outcome. -/
theorem inStep_finish (status : TaskStatus) (value : Option Value) :
    InStep d.World (Tolerable strict) (finish d.left status value)
      (finish d.right status value) := by
  unfold finish
  refine (inStep_resultOf value).bind fun result => ?_
  refine (inStep_writeSlot (d.twin.left.sameRole_status d.twin.right) _).bind fun _ => ?_
  intro s t h
  refine (alike_storage h).bind ?_
  rintro st st' _ _ ⟨rfl, rfl, -, -, hmatch, -⟩
  rw [← hmatch.task]
  have hcomplete : ∀ id state, InStep d.World (Tolerable strict)
      (modify fun s => { s with tasks := s.tasks.complete id state } : Run PUnit)
      (modify fun s => { s with tasks := s.tasks.complete id state }) := fun id state =>
    inStep_modify fun s t h => h.keep rfl rfl (by rw [h.common]) rfl rfl rfl
  cases st.task with
  | none => exact inStep_pure _ h
  | some id =>
    cases status with
    | running => exact inStep_pure _ h
    | succeeded => exact hcomplete id (.succeeded result) h
    | cancelled => exact hcomplete id .cancelled h

/-- **The start of an activation**: the same task, in the first state and running. -/
theorem inStep_activate :
    InStep d.World (Tolerable strict) d.left.activate d.right.activate := by
  refine InStep.bind ?_ fun _ =>
    (inStep_writeSlot (d.twin.left.sameRole_state d.twin.right) _).bind fun _ =>
    inStep_writeSlot (d.twin.left.sameRole_status d.twin.right) _
  intro s t h
  have htask : d.World { s with tasks := s.tasks.push ⟨.pending, .activation⟩ }
      { t with tasks := t.tasks.push ⟨.pending, .activation⟩ } :=
    h.keep rfl rfl (by rw [h.common]) rfl rfl rfl
  have hmade : ∀ u : HostState, Returns (Run.newTask .activation) u u.tasks.size
      { u with tasks := u.tasks.push ⟨.pending, .activation⟩ } := fun _ => rfl
  refine (hmade s).alike_bind (hmade t) ?_
  rw [h.tasks_eq] at htask ⊢
  rcases htask.seen with ⟨-, -, hs, -⟩ | ⟨st, st', hst, hst', hmatch, hlength, hlength'⟩
  · unfold Run.modifyStorage
    refine (alike_storage htask).bind fun st st' s' t' hseen => ?_
    obtain ⟨i, hi, -⟩ := Option.map_eq_some_iff.mp hseen.2.2.1
    rw [hs] at hi
    cases hi
  · have hnew : Matching d.left.machine d.right.machine { st with task := some s.tasks.size }
        { st' with task := some s.tasks.size } := ⟨rfl, hmatch.slots⟩
    exact Returns.alike (a := ()) (b := ()) (Run.returns_modifyStorage.mpr ⟨st, hst, rfl⟩)
      (Run.returns_modifyStorage.mpr ⟨st', hst', rfl⟩)
      ⟨rfl, htask.restock (Site.restocked_put hst _)
        (Site.restocked_put hst' _) hnew hlength hlength'⟩

end Duet

end Resumable
