import Resumable.Proofs.Await
import Resumable.Proofs.Coverage
import Resumable.Proofs.Meaning

/-!
# An activation and its image in a host

A machine keeps the variables of its procedure in slots and frames, side by side with other
instances that share the host.  An activation of the direct meaning has nothing but its
variables.  *Matching* relates the two: what is known of the activation is found where the
machine looks for it, and the host was told the same things.

## Main definitions

* `HostState.logOf`, `HostState.callsOf`: what a host was told by an instance.
* `Elsewhere`: a change that concerns one instance only.
* `Matches`: a host state and an activation that agree.
* `Mirrors`: they agree, and since a given state nothing else was changed.

## Main statements

* `returns_writePlace`: what the places of a machine hold after a write.
* `Mirrors.write`: a write of the machine is mirrored by the write of the source.
* `Mirrors.callHost`: so is the call of a function.
-/

namespace Resumable

open Resumable.Machine (Origin Place SlotId)

variable {s s' s'' : HostState} {owner : InstanceId} {site : Site} {frame frame' : Frame}
  {v : Value} {place : Place} {σ : Setting} {known known' pending pending' : LocalId → Prop}
  {a : Activation}

/-! ### What concerns one instance -/

namespace HostState

/-- What the built-in log wrote for an instance. -/
def logOf (s : HostState) (owner : InstanceId) : List String :=
  (s.log.toList.filter fun entry => entry.owner == owner).map LogEntry.message

/-- The calls of registered functions by an instance. -/
def callsOf (s : HostState) (owner : InstanceId) : List (Name × List Value) :=
  (s.calls.toList.filter fun call => call.owner == owner).map fun call =>
    (call.function, call.args)

theorem logOf_push {entry : LogEntry} (h : s'.log = s.log.push entry) (owner : InstanceId) :
    s'.logOf owner = s.logOf owner ++ if entry.owner = owner then
      [entry.message] else [] := by
  unfold logOf
  rw [h, Array.toList_push, List.filter_append, List.map_append]
  by_cases howner : entry.owner = owner <;> simp [howner]

theorem callsOf_push {call : HostCall} (h : s'.calls = s.calls.push call)
    (owner : InstanceId) :
    s'.callsOf owner = s.callsOf owner ++ if call.owner = owner then
      [(call.function, call.args)] else [] := by
  unfold callsOf
  rw [h, Array.toList_push, List.filter_append, List.map_append]
  by_cases howner : call.owner = owner <;> simp [howner]

end HostState

/-- A site sees its own instance only. -/
theorem Site.slotsIn_of_instance (h : s'.instances[site.owner]? = s.instances[site.owner]?) :
    site.slotsIn s' = site.slotsIn s := by
  unfold Site.slotsIn HostState.storage?
  rw [h]

theorem Site.slotIn_of_slotsIn (h : site.slotsIn s' = site.slotsIn s) (k : SlotId) :
    site.slotIn s' k = site.slotIn s k :=
  congrArg (fun st => st.bind fun st => st.slots[k]?) h

theorem Site.content?_of_instance (h : s'.instances[site.owner]? = s.instances[site.owner]?)
    (place : Place) : site.content? s' frame place = site.content? s frame place := by
  cases place with
  | slot k => exact Site.slotIn_of_slotsIn (Site.slotsIn_of_instance h) k
  | field name =>
    show s'.field? site.owner name = s.field? site.owner name
    unfold HostState.field?
    rw [h]
  | localVar | param => rfl

/-- A change that concerns one instance, and leaves the registered functions as they are. -/
structure Elsewhere (owner : InstanceId) (s s' : HostState) : Prop where
  instances : ∀ other, other ≠ owner → s'.instances[other]? = s.instances[other]?
  log : ∀ other, other ≠ owner → s'.logOf other = s.logOf other
  calls : ∀ other, other ≠ owner → s'.callsOf other = s.callsOf other
  answers : ∀ function, (s'.functions.get? function).map Registration.answer =
    (s.functions.get? function).map Registration.answer

namespace Elsewhere

theorem refl (s : HostState) : Elsewhere owner s s :=
  ⟨fun _ _ => rfl, fun _ _ => rfl, fun _ _ => rfl, fun _ => rfl⟩

/-- Leaving others alone, twice. -/
theorem trans (h : Elsewhere owner s s') (h' : Elsewhere owner s' s'') :
    Elsewhere owner s s'' where
  instances other hne := (h'.instances other hne).trans (h.instances other hne)
  log other hne := (h'.log other hne).trans (h.log other hne)
  calls other hne := (h'.calls other hne).trans (h.calls other hne)
  answers function := (h'.answers function).trans (h.answers function)

/-- A change of one instance. -/
theorem of_modify {f : Instance → Instance}
    (h : s' = { s with instances := s.instances.modify owner f }) : Elsewhere owner s s' := by
  subst h
  refine ⟨fun other hne => ?_, fun _ _ => rfl, fun _ _ => rfl, fun _ => rfl⟩
  show (s.instances.modify owner f)[other]? = _
  rw [Array.getElem?_modify, if_neg fun heq => hne heq.symm]

end Elsewhere

/-! ### Places -/

/-- **Different places of the source are kept in different places.** -/
theorem place_injective {l : SlotLayout} (h : Numbered l.slots) :
    Function.Injective l.place := by
  have same : ∀ {a b : Origin} {k : SlotId}, slotWithRole? l.slots (.hoisted a) = some k →
      slotWithRole? l.slots (.hoisted b) = some k → a = b := by
    intro a b k ha hb
    obtain ⟨slot, hslot, hrole⟩ := h.role_of_slotWithRole? ha
    obtain ⟨slot', hslot', hrole'⟩ := h.role_of_slotWithRole? hb
    obtain rfl := Option.some.inj (hslot.symm.trans hslot')
    exact Machine.Role.hoisted.inj (hrole.symm.trans hrole')
  intro q r heq
  generalize hplace : l.place r = place at heq
  -- Slots are told apart by their roles, and what has no slot stays where it was.
  cases SlotLayout.placed heq with
  | localSlot kept =>
    cases SlotLayout.placed hplace with
    | localSlot kept' => exact congrArg _ (Origin.localVar.inj (same kept kept'))
    | paramSlot kept' => cases same kept kept'
  | paramSlot kept =>
    cases SlotLayout.placed hplace with
    | localSlot kept' => cases same kept kept'
    | paramSlot kept' => exact congrArg _ (Origin.param.inj (same kept kept'))
  | localVar | param | field =>
    cases SlotLayout.placed hplace
    rfl

/-- A write and what it leaves, in a machine. -/
structure Site.Wrote (site : Site) (place : Place) (v : Value) (frame : Frame) (s : HostState)
    (frame' : Frame) (s' : HostState) : Prop where
  content : ∀ q, site.content? s' frame' q = if q = place then some v else
    site.content? s frame q
  /-- A slot was there before. -/
  present : ∀ k, place = .slot k → (site.slotIn s k).isSome
  task : (site.slotsIn s').map Storage.task = (site.slotsIn s).map Storage.task
  instances : ∃ f, s' = { s with instances := s.instances.modify site.owner f }

private theorem instances_unchanged :
    ∃ f, s = { s with instances := s.instances.modify site.owner f } := by
  refine ⟨id, ?_⟩
  have hid : s.instances.modify site.owner id = s.instances := by
    refine Array.ext_getElem? fun k => ?_
    rw [Array.getElem?_modify]
    by_cases hk : site.owner = k <;> simp [hk]
  rw [hid]

/-- **What the places of a machine hold after a write.** -/
theorem returns_writePlace (h : Returns (writePlace site frame v place) s frame' s') :
    site.Wrote place v frame s frame' s' := by
  cases place with
  | localVar id =>
    obtain ⟨rfl, rfl⟩ := returns_pure.mp h
    refine ⟨fun q => ?_, fun k heq => (by cases heq), rfl, instances_unchanged⟩
    cases q with
    | localVar other =>
      show (frame.locals.insert id v).get? other = _
      simp only [Bindings.get?_insert, Place.localVar.injEq, eq_comm (a := id)]
      rfl
    | slot | field | param => simp [Site.content?]
  | param i =>
    rcases returns_ite.mp h with ⟨hlt, hpure⟩ | ⟨-, hfail⟩
    · obtain ⟨rfl, rfl⟩ := returns_pure.mp hpure
      refine ⟨fun q => ?_, fun k heq => (by cases heq), rfl, instances_unchanged⟩
      cases q with
      | param j =>
        show (frame.params.set i v)[j]? = _
        rw [List.getElem?_set]
        by_cases hj : i = j
        · subst hj
          simp [hlt]
        · have hne : j ≠ i := fun heq => hj heq.symm
          simp [hj, hne, Site.content?]
      | slot | field | localVar => simp [Site.content?]
    · exact (Run.not_returns_fail hfail).elim
  | field name =>
    obtain ⟨_, hmodify, rfl⟩ := returns_bind_pure.mp h
    obtain ⟨hsome, rfl⟩ := Run.returns_modifyInstance.mp hmodify
    obtain ⟨i, hi⟩ := Option.isSome_iff_exists.mp hsome
    have hslots : site.slotsIn (s.putField site.owner name v) = site.slotsIn s :=
      HostState.storage?_putField name v _
    refine ⟨fun q => ?_, fun k heq =>
      (by cases heq), congrArg (Option.map Storage.task) hslots, _, rfl⟩
    cases q with
    | field other =>
      show (s.putField site.owner name v).field? site.owner other = _
      rw [HostState.field?_putField, hi]
      by_cases hother : name = other
      · simp [hother]
      · have hne : other ≠ name := fun heq => hother heq.symm
        simp [hother, hne, Site.content?]
    | slot k =>
      rw [if_neg (by simp)]
      exact congrArg (fun st => st.bind fun st => st.slots[k]?) hslots
    | localVar | param => simp [Site.content?]
  | slot k =>
    obtain ⟨hwrite, rfl⟩ := returns_writePlace_slot.mp h
    obtain ⟨st, hst, hlt, rfl⟩ := Site.returns_writeSlot.mp hwrite
    refine ⟨fun q => ?_, fun k' heq => ?_, by rw [Site.slotsIn_put hst, hst]; rfl, _, rfl⟩
    · cases q with
      | slot other =>
        by_cases hother : k = other
        · subst hother
          rw [if_pos rfl]
          show site.slotIn _ k = _
          rw [Site.slotIn_eq (Site.slotsIn_put hst _)]
          exact List.getElem?_set_self hlt
        · rw [if_neg fun heq => hother (Place.slot.inj heq).symm]
          exact slotIn_put_set hst hother v
      | field name =>
        rw [if_neg (by simp)]
        exact HostState.field?_putStorage name
      | localVar | param => simp [Site.content?]
    · obtain rfl := Place.slot.inj heq
      rw [Site.slotIn_eq hst, List.getElem?_eq_getElem hlt]
      rfl

/-- **Reading a place** gives what it holds. -/
theorem returns_eval_read {call : Caller}
    {info : ExprInfo} : Returns (eval site call frame (place.read info)) s v s' ↔
      site.content? s frame place = some v ∧ s' = s := by
  unfold Place.read
  cases place with
  | slot k => exact Site.returns_readSlot
  | localVar | param => exact Run.returns_require
  | field name =>
    dsimp only [Site.content?]
    unfold eval HostState.field?
    constructor
    · intro h
      obtain ⟨i, mid, hinstance, hrequire⟩ := returns_bind.mp h
      obtain ⟨hi, rfl⟩ := Run.returns_theInstance.mp hinstance
      rw [hi]
      exact Run.returns_require.mp hrequire
    · rintro ⟨h, rfl⟩
      obtain ⟨i, hi, hv⟩ := Option.bind_eq_some_iff.mp h
      exact returns_bind.mpr ⟨i, s', Run.returns_theInstance.mpr ⟨hi, rfl⟩,
        Run.returns_require.mpr ⟨hv, rfl⟩⟩

/-! ### Matching -/

/-- Is the place one whose content is known? -/
def Bound.Place.Tracked (l : SlotLayout) (known : LocalId → Prop) : Bound.Place → Prop
  | .localVar x => known x
  | .param i => (l.param? i).isSome
  | .field _ => True

/-- **A host state and an activation that agree**: on the places that are known, and on
what the host was told.  The slots of pending locals hold what introducing them without
a value would give. -/
structure Matches (site : Site) (σ : Setting) (known pending : LocalId → Prop) (frame : Frame)
    (s : HostState) (a : Activation) : Prop where
  content : ∀ q : Bound.Place, q.Tracked site.machine.layout known →
    site.content? s frame (site.machine.layout.place q) = a.content? q
  pristine : ∀ x, pending x →
    site.content? s frame (site.machine.layout.place (.localVar x)) = some (σ.defaultLocal x)
  log : s.logOf site.owner = a.log
  calls : s.callsOf site.owner = a.calls

theorem Matches.mono (h : Matches site σ known pending frame s a)
    (hknown : ∀ x, known' x → known x) (hpending : ∀ x, pending' x → pending x) :
    Matches site σ known' pending' frame s a where
  content q hq := by
    refine h.content q ?_
    cases q with
    | localVar x => exact hknown x hq
    | param | field => exact hq
  pristine x hx := h.pristine x (hpending x hx)
  log := h.log
  calls := h.calls

section

variable {k : SlotId}

theorem Matches.slotIn_param (h : Matches site σ known pending frame s a) {i : Nat}
    (hk : site.machine.layout.param? i = some k) : site.slotIn s k = a.params[i]? := by
  have hcontent := h.content (.param i) (Option.isSome_of_mem hk)
  rw [SlotLayout.place_param hk] at hcontent
  exact hcontent

theorem Matches.slotIn_local (h : Matches site σ known pending frame s a) {x : LocalId}
    (hx : known x) (hk : site.machine.layout.local? x = some k) :
    site.slotIn s k = a.locals.get? x := by
  have hcontent := h.content (.localVar x) hx
  rw [SlotLayout.place_local hk] at hcontent
  exact hcontent

end

/-- What the code of an activation leaves alone, apart from its variables and what
it tells the host. -/
structure Apart (site : Site) (s s' : HostState) : Prop where
  elsewhere : Elsewhere site.owner s s'
  /-- The slots that hold no variable. -/
  books : ∀ k, (∀ q, site.machine.layout.place q ≠ .slot k) →
    site.slotIn s' k = site.slotIn s k
  task : (site.slotsIn s').map Storage.task = (site.slotsIn s).map Storage.task
  tasks : s'.tasks = s.tasks
  scheduler : s'.scheduler = s.scheduler

namespace Apart

theorem refl (s : HostState) : Apart site s s :=
  ⟨Elsewhere.refl s, fun _ _ => rfl, rfl, rfl, rfl⟩

theorem trans (h : Apart site s s') (h' : Apart site s' s'') : Apart site s s'' where
  elsewhere := h.elsewhere.trans h'.elsewhere
  books k hk := (h'.books k hk).trans (h.books k hk)
  task := h'.task.trans h.task
  tasks := h'.tasks.trans h.tasks
  scheduler := h'.scheduler.trans h.scheduler

end Apart

/-- A site at which the code of a setting runs: names and defaults are the same, and so is
what the registered functions answer to the instance, whatever was called before. -/
structure Staged (site : Site) (σ : Setting) (s : HostState) : Prop where
  names : site.image.names = σ.names
  numbered : Numbered site.machine.layout.slots
  /-- A local without a slot is introduced with the same value. -/
  defaults : ∀ x, site.machine.layout.local? x = none → site.defaultLocal x = σ.defaultLocal x
  answers : ∀ function,
    (s.functions.get? function).map (fun r earlier args =>
      r.answer earlier ⟨function, site.owner, args⟩) =
      (σ.answer function).map fun answer _ args => answer args

/-- Work elsewhere leaves an activation staged. -/
theorem Staged.of_elsewhere (h : Staged site σ s) (helse : Elsewhere owner s s') :
    Staged site σ s' where
  names := h.names
  numbered := h.numbered
  defaults := h.defaults
  answers function := by
    rw [← h.answers function]
    have hmap := congrArg (Option.map fun (answer : HostFn) earlier args =>
      answer earlier ⟨function, site.owner, args⟩) (helse.answers function)
    rw [Option.map_map, Option.map_map] at hmap
    exact hmap

/-- They agree, and nothing else was changed since the state `s₀`. -/
structure Mirrors (site : Site) (σ : Setting) (known pending : LocalId → Prop)
    (s₀ : HostState) (frame : Frame) (s : HostState) (a : Activation) : Prop where
  agree : Matches site σ known pending frame s a
  apart : Apart site s₀ s

namespace Mirrors

variable {s₀ : HostState}

section

variable (h : Mirrors site σ known pending s₀ frame s a)

include h

theorem mono (hknown : ∀ x, known' x → known x)
    (hpending : ∀ x, pending' x → pending x) : Mirrors site σ known' pending' s₀ frame s a :=
  ⟨h.agree.mono hknown hpending, h.apart⟩

/-- **A write of the machine is mirrored by the write of the source.** -/
theorem write (staged : Staged site σ s₀) {target : Bound.Place}
    (writable : target.Writable site.machine.layout pending)
    (hwrite : Returns (writePlace site frame v (site.machine.layout.place target))
      s frame' s') :
    ∃ a', Returns (Direct.write v target) a () a' ∧
      Mirrors site σ (fun x => known x ∨ target = .localVar x) pending s₀ frame' s' a' := by
  have wrote := returns_writePlace hwrite
  have injective := place_injective staged.numbered
  obtain ⟨f, hinstances⟩ := wrote.instances
  have hparam : ∀ i, target = .param i → (a.content? target).isSome := by
    rintro i rfl
    obtain ⟨k, hk⟩ := Option.isSome_iff_exists.mp writable
    have hplace := SlotLayout.place_param hk
    rw [← h.agree.content (.param i) writable, hplace]
    exact wrote.present k hplace
  obtain ⟨a', hdirect, hwritten⟩ := Activation.returns_write v hparam
  -- No two places of the source are kept in one, so on both sides only the target
  -- sees the write.
  refine ⟨a', hdirect, ⟨fun q hq => ?_, fun x hx => ?_, ?_, ?_⟩, h.apart.trans ?_⟩
  · rw [wrote.content, hwritten.content]
    by_cases hsame : q = target
    · rw [if_pos hsame, if_pos (congrArg _ hsame)]
    · rw [if_neg hsame, if_neg fun heq => hsame (injective heq)]
      refine h.agree.content q ?_
      cases q with
      | localVar x => exact hq.resolve_right fun heq => hsame heq.symm
      | param | field => exact hq
  · rw [wrote.content, if_neg, h.agree.pristine x hx]
    intro heq
    rw [← injective heq] at writable
    exact writable hx
  · rw [hwritten.log, ← h.agree.log, hinstances]
    rfl
  · rw [hwritten.calls, ← h.agree.calls, hinstances]
    rfl
  · refine ⟨Elsewhere.of_modify hinstances, fun k hk => ?_, wrote.task, by rw [hinstances],
      by rw [hinstances]⟩
    have hcontent := wrote.content (.slot k)
    rw [if_neg fun heq => hk target heq.symm] at hcontent
    exact hcontent

/-- Nothing but what the host is told has changed. -/
private theorem told {a' : Activation} (hinstances : s'.instances = s.instances)
    (hsame : ∀ q, a'.content? q = a.content? q) (helse : Elsewhere site.owner s s')
    (htasks : s'.tasks = s.tasks) (hscheduler : s'.scheduler = s.scheduler)
    (hlog : s'.logOf site.owner = a'.log) (hcalls : s'.callsOf site.owner = a'.calls) :
    Mirrors site σ known pending s₀ frame s' a' := by
  have hinstance : s'.instances[site.owner]? = s.instances[site.owner]? := by rw [hinstances]
  have hslots := Site.slotsIn_of_instance hinstance
  have hcontent : ∀ q, site.content? s' frame q = _ := Site.content?_of_instance hinstance
  refine ⟨⟨fun q hq => ?_, fun x hx => ?_, hlog, hcalls⟩, h.apart.trans
    ⟨helse, fun k _ => hcontent (.slot k), by rw [hslots], htasks, hscheduler⟩⟩
  · rw [hcontent, hsame]
    exact h.agree.content q hq
  · rw [hcontent]
    exact h.agree.pristine x hx

/-- **The call of a function is mirrored**: the same function answers, or the
same line is written. -/
theorem callHost (staged : Staged site σ s₀) {function : Name} {args : List Value}
    (hcall : Returns (callHost site.image.names site.owner function args) s v s') :
    ∃ a', Returns (Direct.callHost σ function args) a v a' ∧
      Mirrors site σ known pending s₀ frame s' a' := by
  have hanswers := (staged.of_elsewhere h.apart.elsewhere).answers function
  unfold Resumable.callHost at hcall
  rw [Returns, ends_get_bind] at hcall
  unfold Direct.callHost
  cases hfunction : s.functions.get? function with
  | some registered =>
    rw [hfunction] at hcall hanswers
    obtain ⟨answer, hanswer, heq⟩ := Option.map_eq_some_iff.mp hanswers.symm
    -- The answer does not depend on the earlier calls, which the source does not know.
    have hgives : registered.answer registered.earlier ⟨function, site.owner, args⟩ =
      answer args :=
      (congrFun (congrFun heq registered.earlier) args).symm
    obtain ⟨_, mid, hmodify, hresult⟩ := returns_bind.mp hcall
    obtain ⟨hok, rfl⟩ := Run.returns_ofExcept.mp hresult
    obtain rfl := returns_modify.mp hmodify
    rw [hanswer]
    refine ⟨{ a with calls := a.calls ++ [(function, args)] },
      returns_bind.mpr ⟨⟨⟩, _, returns_modify.mpr rfl,
        Direct.returns_ofExcept (hgives ▸ hok)⟩, ?_⟩
    refine h.told rfl (fun q => by cases q <;> rfl)
      ⟨fun _ _ => rfl, fun _ _ => rfl, fun other hne => ?_, fun other => ?_⟩
      rfl rfl h.agree.log ?_
    · rw [HostState.callsOf_push rfl, if_neg fun heq => hne heq.symm, List.append_nil]
    · show (Bindings.get? (s.functions.insert function _) other).map _ = _
      rw [Bindings.get?_insert]
      by_cases hother : function = other
      · rw [if_pos hother, ← hother, hfunction]
        rfl
      · rw [if_neg hother]
    · rw [HostState.callsOf_push rfl, if_pos rfl, h.agree.calls]
  | none =>
    rw [hfunction] at hcall hanswers
    have hnone : σ.answer function = none := Option.map_eq_none_iff.mp hanswers.symm
    rw [hnone, ← staged.names]
    rcases returns_ite.mp hcall with ⟨hlog, hwrite⟩ | ⟨-, hfail⟩
    · obtain ⟨_, hmodify, rfl⟩ := returns_bind_pure.mp hwrite
      obtain rfl := returns_modify.mp hmodify
      refine ⟨{ a with log := a.log ++ [" ".intercalate (Value.texts args)] }, ?_, ?_⟩
      · refine returns_ite.mpr (Or.inl ⟨hlog, ?_⟩)
        exact returns_bind_pure.mpr ⟨⟨⟩, returns_modify.mpr rfl, rfl⟩
      · refine h.told rfl (fun q => by cases q <;> rfl) ⟨fun _ _ => rfl, fun other hne => ?_,
          fun _ _ => rfl, fun _ => rfl⟩ rfl rfl ?_ h.agree.calls
        · rw [HostState.logOf_push rfl, if_neg fun heq => hne heq.symm, List.append_nil]
        · rw [HostState.logOf_push rfl, if_pos rfl, h.agree.log]
    · exact (Run.not_returns_fail hfail).elim

end

end Mirrors

end Resumable
