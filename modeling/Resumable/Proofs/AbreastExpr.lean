import Resumable.Proofs.Abreast

/-!
# Expressions at two sites

Sound expressions have the same values at the two sites of a duet.  What carries the proof is
a relation between the frames.  **Two frames are linked** when the arguments are the same and
every known local has the same value in both, wherever it is kept.  A local with slots in both
machines needs no further word, since the contents of the slots match.

## Main definitions

* `Detached`: runs that leave the instances alone.
* `Duet.Held`, `Duet.Linked`: known locals, and linked frames.
* `Duet.Concur`: two runs that return the same and keep the frames linked.

## Main statements

* `Duet.inStep_callPrimitive`, `Duet.inStep_callHost`: calls of the host answer the same.
* `Duet.concur_eval`: sound expressions have the same values.

## Design notes

Where the machines differ, no procedure is called while code runs, so that only the code
itself writes the slots of its machine.  Where a procedure may be called the machines are the
same, and a local without a slot is in the frame, which no other code sees.
-/

namespace Resumable

open Resumable.Bound (Stmt)

variable {α β : Type} {why : HostError} {call call' : Caller} {x : LocalId}

/-! ### Runs that leave the slots alone -/

/-- The run leaves the instances alone. -/
def Detached {α : Type} (x : Run α) : Prop :=
  Within .any (fun s s' => s'.instances = s.instances) x

theorem consults_detached (owner : InstanceId) :
    Consults owner fun s s' => s'.instances = s.instances :=
  ⟨fun _ => rfl, fun hab hbc => hbc.trans hab, fun _ _ _ _ =>
    rfl, fun _ _ => rfl, fun _ _ => rfl⟩

namespace Duet

variable {strict : Prop} {d : Duet strict} {s t s' t' : HostState} {f f' : Frame}
  {known next : LocalId → Prop}

/-! ### Calls of the host -/

theorem inStep_newTask (kind : TaskKind) :
    InStep d.World (Tolerable strict) (Run.newTask kind) (Run.newTask kind) := by
  intro s t h
  unfold Run.newTask
  refine alike_get_bind ?_
  rw [h.tasks_eq]
  exact (inStep_modify fun s t h => h.keep rfl rfl (by rw [h.common]) rfl rfl rfl).bind
    (fun _ => inStep_pure _) h

theorem inStep_submit (due : Due) (action : Action) :
    InStep d.World (Tolerable strict) (Run.submit due action) (Run.submit due action) :=
  inStep_modify fun s t h => h.keep rfl rfl (by rw [h.common]) rfl rfl rfl

theorem inStep_scheduledTask (kind : TaskKind) (due : Due) :
    InStep d.World (Tolerable strict) (Run.scheduledTask kind due)
      (Run.scheduledTask kind due) :=
  (inStep_newTask kind).bind fun _ => (inStep_submit due _).bind fun _ => inStep_pure _

theorem inStep_expect (hplain : why.isStructural = false) (o : Option α) :
    InStep d.World (Tolerable strict) (Run.require why o) (Run.require why o) :=
  Run.inStep_require o fun _ _ => hplain

/-- A primitive does the same in both worlds. -/
theorem inStep_callPrimitive (which : Primitive) (args : List Value) :
    InStep d.World (Tolerable strict) (callPrimitive which args)
      (callPrimitive which args) := by
  have hnow : ∀ (kind : TaskKind) (due : Scheduler → Due), InStep d.World (Tolerable strict)
      (do Run.scheduledTask kind (due (← get).scheduler))
      (do Run.scheduledTask kind (due (← get).scheduler)) := by
    intro kind due s t h
    refine alike_get_bind ?_
    rw [h.scheduler_eq]
    exact inStep_scheduledTask kind _ h
  have htasks : InStep d.World (Tolerable strict) (args.mapM Run.expectTask)
    (args.mapM Run.expectTask) := by
    induction args with
    | nil =>
      rw [List.mapM_nil]
      exact inStep_pure _
    | cons a rest ih =>
      rw [List.mapM_cons]
      exact (inStep_expect rfl _).bind fun _ => ih.bind fun _ => inStep_pure _
  unfold callPrimitive
  cases which with
  | delay =>
    exact (inStep_expect rfl _).bind fun seconds => hnow .timer fun q =>
      q.afterSeconds seconds
  | delayFrames =>
    exact (inStep_expect rfl _).bind fun frames => hnow .timer fun q => q.afterFrames frames
  | yield => exact hnow .timer fun q => q.afterFrames 1
  | whenAll | whenAny => exact htasks.bind fun _ => inStep_scheduledTask _ _

/-- **A function of the host answers the same**, or fails for the same reason. -/
theorem inStep_callHost (names : NameTable) (owner : InstanceId) (function : Name)
    (args : List Value) :
    InStep d.World (Tolerable strict) (callHost names owner function args)
      (callHost names owner function args) := by
  intro s t h
  unfold callHost
  refine alike_get_bind ?_
  rw [congrArg HostState.functions h.common]
  cases hfound : s.functions.get? function with
  | some registered =>
    dsimp only
    have hcalled : d.World
        { s with
          calls := s.calls.push ⟨function, owner, args⟩
          functions := s.functions.insert function
            { registered with earlier := ⟨function, owner, args⟩ :: registered.earlier } }
        { t with
          calls := t.calls.push ⟨function, owner, args⟩
          functions := t.functions.insert function
            { registered with earlier :=
              ⟨function, owner, args⟩ :: registered.earlier } } := by
      refine h.reassign rfl rfl (by rw [h.common]) h.closed fun hstrict name r hr => ?_
      have hget : (s.functions.insert function _).get? name = some r := hr
      rw [Bindings.get?_insert] at hget
      split at hget
      · obtain rfl := Option.some.inj hget
        exact h.benign hstrict function registered hfound
      · exact h.benign hstrict name r hget
    refine Alike.bind (Q := fun _ _ s' t' => d.World s' t') (alike_modify hcalled)
      fun _ _ s' t' h' => ?_
    refine Run.inStep_ofExcept (fun why hwhy hstrict => ?_) h'
    exact h.benign hstrict function registered hfound _ _ why hwhy
  | none =>
    dsimp only
    refine alike_ite Iff.rfl (fun _ => ?_) fun _ => Run.inStep_fail (fun _ => rfl) h
    exact (inStep_modify fun s t h => h.keep rfl rfl (by rw [h.common]) rfl rfl rfl).bind
      (fun _ => inStep_pure _) h

/-! ### Linked frames -/

variable (d) in
/-- A local that both sites know: it has a slot in both machines, or the
same value in both. -/
def Held (x : LocalId) (f f' : Frame) (s t : HostState) : Prop :=
  (d.left.machine.layout.local? x).isSome ∧ (d.right.machine.layout.local? x).isSome ∨
    ∃ v, d.left.content? s f (d.left.machine.layout.place (.localVar x)) = some v ∧
      d.right.content? t f' (d.right.machine.layout.place (.localVar x)) = some v

variable (d) in
/-- **Linked frames**, with the known locals.  Frames of the same machine are equal, and
different machines only run on an instance that exists. -/
structure Linked (known : LocalId → Prop) (f f' : Frame) (s t : HostState) : Prop where
  world : d.World s t
  params : f.params = f'.params
  same : d.left.machine = d.right.machine → f = f'
  present : d.left.machine = d.right.machine ∨ (d.left.slotsIn s).isSome
  known : ∀ x, known x → d.Held x f f' s t

theorem Linked.mono (h : d.Linked known f f' s t) (hnext : ∀ x, next x → known x) :
    d.Linked next f f' s t :=
  ⟨h.world, h.params, h.same, h.present, fun x hx => h.known x (hnext x hx)⟩

/-- Frames stay linked while the slots of their machines stay, or where the
machines are the same. -/
theorem Linked.of_world (h : d.Linked known f f' s t) (hworld : d.World s' t')
    (hstill : d.left.machine = d.right.machine ∨ d.left.slotsIn s' = d.left.slotsIn s ∧
      d.right.slotsIn t' = d.right.slotsIn t) : d.Linked known f f' s' t' := by
  have hcontent : ∀ {site : Site} {s s' : HostState},
    site.slotsIn s' = site.slotsIn s → ∀ (f : Frame) x,
      site.content? s' f (site.machine.layout.place (.localVar x)) =
        site.content? s f (site.machine.layout.place (.localVar x)) := by
    intro site s s' hslots f x
    cases hx : site.machine.layout.local? x with
    | some k =>
      rw [SlotLayout.place_local hx]
      exact congrArg (fun st => st.bind fun st => st.slots[k]?) hslots
    | none =>
      rw [SlotLayout.place_local_of_none hx]
      rfl
  rcases hstill with hsame | ⟨hleft, hright⟩
  · refine ⟨hworld, h.params, h.same, Or.inl hsame, fun x hx => ?_⟩
    cases hslot : d.left.machine.layout.local? x with
    | some k =>
      refine Or.inl ⟨Option.isSome_of_mem hslot, ?_⟩
      rw [← hsame]
      exact Option.isSome_of_mem hslot
    | none =>
      have hslot' : d.right.machine.layout.local? x = none := hsame ▸ hslot
      rcases h.known x hx with ⟨hsome, -⟩ | ⟨v, hv, hv'⟩
      · rw [hslot] at hsome
        cases hsome
      · rw [SlotLayout.place_local_of_none hslot] at hv
        rw [SlotLayout.place_local_of_none hslot'] at hv'
        refine Or.inr ⟨v, ?_, ?_⟩
        · rw [SlotLayout.place_local_of_none hslot]
          exact hv
        · rw [SlotLayout.place_local_of_none hslot']
          exact hv'
  · refine ⟨hworld, h.params, h.same, ?_, fun x hx => ?_⟩
    · rw [hleft]
      exact h.present
    · refine (h.known x hx).imp_right ?_
      rintro ⟨v, hv, hv'⟩
      exact ⟨v, (hcontent hleft f x).trans hv, (hcontent hright f' x).trans hv'⟩

/-! ### Runs that concur -/

variable (d) in
/-- Started with linked frames, the runs return the same and keep the frames linked. -/
def Concur {α : Type} (known : LocalId → Prop) (f f' : Frame) (x y : Run α) : Prop :=
  ∀ ⦃s t⦄, d.Linked known f f' s t →
    Alike x s y t (fun a b s' t' => a = b ∧ d.Linked known f f' s' t') d.Stops

section

variable {x y : Run α}

theorem concur_pure (a : α) : d.Concur known f f' (pure a) (pure a) :=
  fun _ _ h => alike_pure ⟨rfl, h⟩

/-- Runs that concur do so in sequence. -/
theorem Concur.bind {k l : α → Run β} (hx : d.Concur known f f' x y)
    (hk : ∀ a, d.Concur known f f' (k a) (l a)) :
    d.Concur known f f' (x >>= k) (y >>= l) := by
  intro s t h
  refine (hx h).bind ?_
  rintro a _ s' t' ⟨rfl, h'⟩
  exact hk a h'

theorem concur_ite {c : Prop} [Decidable c] {x' y' : Run α} (hx : d.Concur known f f' x y)
    (hy : d.Concur known f f' x' y') :
    d.Concur known f f' (if c then x else x') (if c then y else y') :=
  fun _ _ h => alike_ite Iff.rfl (fun _ => hx h) fun _ => hy h

section

variable (h : InStep d.World (Tolerable strict) x y)

include h

/-- Runs in step that leave the slots alone, or run for the same machine, concur. -/
theorem concur_of_inStep
    (hstill : d.left.machine = d.right.machine ∨ (∀ s r s', Ends x s r s' →
      d.left.slotsIn s' = d.left.slotsIn s) ∧ ∀ t r t', Ends y t r t' →
        d.right.slotsIn t' = d.right.slotsIn t) : d.Concur known f f' x y := by
  intro s t hlinked
  refine (h hlinked.world).returns.mono ?_ fun halt s' t' hstops => hstops
  rintro a b s' t' ⟨⟨rfl, hworld⟩, hret, hret'⟩
  exact ⟨rfl, hlinked.of_world hworld (hstill.imp_right fun hslots =>
    ⟨hslots.1 s _ s' hret, hslots.2 t _ t' hret'⟩)⟩

/-- Silent runs that are in step concur. -/
theorem concur_of_silent (hx : Silent x) (hy : Silent y) : d.Concur known f f' x y :=
  concur_of_inStep h
    (Or.inr ⟨fun _ _ _ hend => by rw [hx hend], fun _ _ _ hend => by rw [hy hend]⟩)

theorem concur_of_detached (hx : Detached x) (hy : Detached y) : d.Concur known f f' x y :=
  concur_of_inStep h
    (Or.inr ⟨fun _ _ _ hend => HostState.storage?_congr (hx hend trivial) _ _ _,
      fun _ _ _ hend => HostState.storage?_congr (hy hend trivial) _ _ _⟩)

end

/-- One requirement made on both sides concurs. -/
theorem concur_expect (hplain : why.isStructural = false) (o : Option α) :
    d.Concur known f f' (Run.require why o) (Run.require why o) :=
  concur_of_silent (inStep_expect hplain o) (Run.silent_require _ _) (Run.silent_require _ _)

theorem concur_ofExcept {r : Except HostError α}
    (hplain : ∀ why, r = .error why → why.isStructural = false) :
    d.Concur known f f' (Run.ofExcept r) (Run.ofExcept r) :=
  concur_of_silent (Run.inStep_ofExcept fun why hwhy _ => hplain why hwhy)
    (Run.silent_ofExcept _) (Run.silent_ofExcept _)

end

/-! ### Expressions -/

theorem concur_localVar (hx : known x) (info : ExprInfo) :
    d.Concur known f f' (eval d.left call f
      (slottedExpr d.left.machine.layout (.localVar info x)))
      (eval d.right call' f' (slottedExpr d.right.machine.layout (.localVar info x))) := by
  intro s t h
  rcases h.known x hx with ⟨hleft, hright⟩ | ⟨v, hv, hv'⟩
  · obtain ⟨a, ha⟩ := Option.isSome_iff_exists.mp hleft
    obtain ⟨a', ha'⟩ := Option.isSome_iff_exists.mp hright
    unfold slottedExpr
    rw [ha, ha']
    exact concur_of_silent (inStep_readSlot (d.twin.left.sameRole_local d.twin.right ha ha'))
      (Site.silent_readSlot _) (Site.silent_readSlot _) h
  · have hread : ∀ {site : Site} {call : Caller} {s : HostState} {f : Frame},
        site.content? s f (site.machine.layout.place (.localVar x)) = some v →
        Returns (eval site call f (slottedExpr site.machine.layout (.localVar info x))) s v
          s := fun h =>
      slottedExpr_read _ info (.localVar x) ▸ returns_eval_read.mpr ⟨h, rfl⟩
    exact Returns.alike (hread hv) (hread hv') ⟨rfl, h⟩

/-- A parameter reads the same in both machines. -/
theorem concur_param {i : Nat}
    (hi : (licence strict d.left.machine d.right.machine).Reaches i) (info : ExprInfo) :
    d.Concur known f f' (eval d.left call f
      (slottedExpr d.left.machine.layout (.param info i)))
      (eval d.right call' f' (slottedExpr d.right.machine.layout (.param info i))) := by
  have hiff := d.twin.left.isSome_param?_iff d.twin.right i
  unfold slottedExpr
  cases ha : d.left.machine.layout.param? i with
  | some a =>
    rw [ha] at hiff
    obtain ⟨a', ha'⟩ := Option.isSome_iff_exists.mp (hiff.mp rfl)
    rw [ha']
    exact concur_of_silent (inStep_readSlot (d.twin.left.sameRole_param d.twin.right ha ha'))
      (Site.silent_readSlot _) (Site.silent_readSlot _)
  | none =>
    have hnone : d.right.machine.layout.param? i = none := by
      rw [ha] at hiff
      exact Option.not_isSome_iff_eq_none.mp fun hsome => by cases hiff.mpr hsome
    rw [hnone]
    intro s t h
    unfold eval
    rw [← h.params]
    refine concur_of_silent (Run.inStep_require _ fun _ hstrict => ?_)
      (Run.silent_require _ _) (Run.silent_require _ _) h
    have hsome : (d.left.machine.layout.param? i).isSome := hi hstrict
    rw [ha] at hsome
    cases hsome

theorem concur_field (info : ExprInfo) (name : Name) :
    d.Concur known f f' (eval d.left call f (.field info name))
      (eval d.right call' f' (.field info name)) := by
  intro s t h
  unfold eval
  refine (alike_theInstance h.world).bind ?_
  rintro i j _ _ ⟨rfl, rfl, hi, hj⟩
  have hfields := h.world.fields d.left.owner name
  unfold HostState.field? at hfields
  rw [d.owner] at hj
  rw [hi, hj, Option.bind_some, Option.bind_some] at hfields
  rw [hfields, d.names]
  exact concur_expect rfl _ h

/-- A local that both sites know and share is captured: it has slots in both machines, or is
in both frames. -/
theorem Held.captured (h : d.Held x f f' s t)
    (shared : (d.left.machine.layout.local? x).isSome =
      (d.right.machine.layout.local? x).isSome) :
    Captured d.left.machine d.right.machine f.locals f'.locals x := by
  cases hslot : d.left.machine.layout.local? x with
  | some k =>
    rw [hslot] at shared
    exact Or.inl ⟨Option.isSome_of_mem hslot, shared.symm⟩
  | none =>
    rw [hslot] at shared
    have hslot' : d.right.machine.layout.local? x = none :=
      Option.isNone_iff_eq_none.mp (Option.isSome_eq_false_iff.mp shared.symm)
    rcases h with ⟨hsome, -⟩ | ⟨v, hv, hv'⟩
    · rw [hslot] at hsome
      cases hsome
    · rw [SlotLayout.place_local_of_none hslot] at hv
      rw [SlotLayout.place_local_of_none hslot'] at hv'
      exact Or.inr ⟨v, hslot, hslot', hv, hv'⟩

/-- **Closures made of the same code**, which reads what the machines share. -/
theorem concur_makeClosure {body : List Stmt}
    (sound : Bound.SoundBlock (licence strict d.left.machine d.right.machine) false
      (fun x => known x ∧ (licence strict d.left.machine d.right.machine).shared x) body) :
    d.Concur known f f' (makeClosure d.left f (slottedBlock d.left.machine.layout true body))
      (makeClosure d.right f' (slottedBlock d.right.machine.layout true body)) := by
  intro s t h
  unfold makeClosure
  refine alike_get_bind ?_
  rw [← h.world.closed.size, d.owner, d.index, ← h.params]
  dsimp only
  refine Alike.bind (Q := fun _ _ s' t' => d.Linked known f f' s' t') (alike_modify ?_)
    fun _ _ s' t' h' => alike_pure ⟨rfl, h'⟩
  refine h.of_world (h.world.reassign rfl rfl ?_ (h.world.closed.push ?_) h.world.benign)
    (Or.inr ⟨rfl, rfl⟩)
  · rw [h.world.common]
  · refine ⟨rfl, d.left.program, d.right.program, _, body, d.loaded,
      d.index ▸ d.loaded', rfl, rfl, sound, fun hsame => congrArg Frame.locals (h.same hsame),
      h.present.imp_right fun hsome => ?_,
      fun x hx => (h.known x hx.1).captured hx.2⟩
    rw [Site.slotsIn, HostState.storage?, Option.isSome_map, isSome_getElem?] at hsome
    exact hsome

variable (d) in
/-- Calls of procedures are in step. -/
def CallsInStep (call call' : Caller) : Prop :=
  ∀ index owner args, InStep d.World (Tolerable strict) (call index owner args)
    (call' index owner args)

/-- Calls do the same in both machines. -/
theorem concur_callTarget (hcall : d.CallsInStep call call') (target : CallTarget)
    (args : List Value)
    (hfree : ∀ name, target = .procedure name → d.left.machine = d.right.machine) :
    d.Concur known f f' (callTarget d.left call target args)
      (callTarget d.right call' target args) := by
  unfold callTarget
  cases target with
  | primitive which =>
    have detached : Detached (callPrimitive which args) :=
      (consults_detached d.left.owner).callPrimitive which args
    exact concur_of_detached (inStep_callPrimitive which args) detached detached
  | host name =>
    dsimp only
    rw [d.names, d.owner]
    have detached : Detached (callHost d.left.image.names d.left.owner name args) :=
      (consults_detached _).callHost _ name args
    exact concur_of_detached (inStep_callHost _ _ name args) detached detached
  | procedure name =>
    dsimp only
    rw [d.procedures, d.names, d.owner]
    cases d.left.image.procedure? name with
    | some index => exact concur_of_inStep (hcall index _ args) (Or.inl (hfree name rfl))
    | none =>
      exact concur_of_silent (Run.inStep_fail fun _ => rfl)
        (Run.silent_fail _) (Run.silent_fail _)

mutual

/-- **Sound expressions have the same values at both sites.** -/
theorem concur_eval (hcall : d.CallsInStep call call') :
    (e : Bound.Expr) → e.Sound (licence strict d.left.machine d.right.machine) known →
      d.Concur known f f' (eval d.left call f (slottedExpr d.left.machine.layout e))
        (eval d.right call' f' (slottedExpr d.right.machine.layout e))
  | .int .., _ | .float .., _ | .bool .., _ | .unit _, _ => by
    unfold slottedExpr eval
    exact concur_pure _
  | .str _ name, _ => by
    unfold slottedExpr eval
    rw [d.names]
    exact concur_pure _
  | .localVar info x, sound => concur_localVar sound info
  | .param info i, sound => concur_param sound info
  | .field info name, _ => concur_field info name
  | .binary _ op left right, sound => by
    have hleft := concur_eval hcall left sound.1
    have hright := concur_eval hcall right sound.2
    have expect : ∀ v : Value, d.Concur known f f' (Run.expectBool v) (Run.expectBool v) :=
      fun v => concur_expect rfl _
    unfold slottedExpr
    -- Conjunction and disjunction may leave the right operand out; the other operators
    -- evaluate both.
    cases op
    case and =>
      unfold eval
      exact hleft.bind fun v => (expect v).bind fun _ => concur_ite
        (hright.bind fun w => (expect w).bind fun _ => concur_pure _) (concur_pure _)
    case or =>
      unfold eval
      exact hleft.bind fun v => (expect v).bind fun _ => concur_ite (concur_pure _)
        (hright.bind fun w => (expect w).bind fun _ => concur_pure _)
    all_goals
      unfold eval
      exact hleft.bind fun _ => hright.bind fun _ =>
        concur_ofExcept fun _ => isStructural_binaryOp
  | .unary _ op operand, sound => by
    unfold slottedExpr eval
    exact (concur_eval hcall operand sound).bind fun _ =>
      concur_ofExcept fun _ => isStructural_unaryOp
  | .call _ (.procedure name) args, sound => by
    unfold slottedExpr eval
    exact (concur_evalArgs hcall args sound.2).bind fun values =>
      concur_callTarget hcall _ values fun _ _ => sound.1
  | .call _ (.host _) args, sound | .call _ (.primitive _) args, sound => by
    unfold slottedExpr eval
    exact (concur_evalArgs hcall args sound).bind fun values =>
      concur_callTarget hcall _ values fun _ heq => by cases heq
  | .lambda _ body, sound => by
    unfold slottedExpr eval
    exact concur_makeClosure sound
  | .error _, sound => by
    unfold slottedExpr eval
    exact concur_of_silent (Run.inStep_fail fun hstrict => absurd hstrict sound)
      (Run.silent_fail _) (Run.silent_fail _)
  | .suspend .., sound => sound.elim

/-- Sound arguments have the same values at both sites. -/
theorem concur_evalArgs (hcall : d.CallsInStep call call') :
    (args : List Bound.Expr) → Bound.SoundArgs
      (licence strict d.left.machine d.right.machine) known args →
      d.Concur known f f' (evalArgs d.left call f (slottedArgs d.left.machine.layout args))
        (evalArgs d.right call' f' (slottedArgs d.right.machine.layout args))
  | [], _ => by
    unfold slottedArgs evalArgs
    exact concur_pure _
  | e :: rest, sound => by
    unfold slottedArgs evalArgs
    exact (concur_eval hcall e sound.1).bind fun _ =>
      (concur_evalArgs hcall rest sound.2).bind fun _ => concur_pure _

end

end Duet

end Resumable
