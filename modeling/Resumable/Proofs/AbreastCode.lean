import Resumable.Proofs.AbreastExpr

/-!
# Statements at two sites

Sound statements leave their blocks the same way at the two sites of a duet.  A write goes
wherever each machine keeps the place of the source, which keeps the frames linked and makes
the written local known.  The rest is an induction over the tree, with loops by induction on
the turns that are left.

## Main definitions

* `Duet.Arrives`, `Duet.Proceed`: how statements leave their blocks at the two sites.

## Main statements

* `Duet.alike_writePlace`: sound writes keep frames linked.
* `Duet.proceed_repeatWhile`: loops turn the same number of times.
* `Duet.proceed_execBlock`: sound statements leave their blocks the same way.
-/

namespace Resumable

open Resumable.Bound (Place Stmt)
open Machine (SlotId TaskStatus)

variable {q : Place} {k l : Frame → Run (Flow × Frame)} {inLoop : Bool}
  {less' mid : LocalId → Prop} {x y : Run (Flow × Frame)} {fuel : Nat}

namespace Duet

variable {strict : Prop} {d : Duet strict} {s t s' t' : HostState} {f f' g g' : Frame}
  {known next : LocalId → Prop} {call call' : Caller}

/-! ### Writes -/

/-- Frames are linked after both sites wrote the same value to a place of the source. -/
theorem Linked.wrote {v : Value} (h : d.Linked known f f' s t) (hworld : d.World s' t')
    (hleft : d.left.Wrote (d.left.machine.layout.place q) v f s g s')
    (hright : d.right.Wrote (d.right.machine.layout.place q) v f' t g' t')
    (hparams : g.params = g'.params) (hsame : d.left.machine = d.right.machine → g = g') :
    d.Linked (fun x => known x ∨ q = .localVar x) g g' s' t' := by
  refine ⟨hworld, hparams, hsame, h.present.imp_right fun hsome => ?_, fun x hx => ?_⟩
  · have hmap := congrArg Option.isSome hleft.task
    rw [Option.isSome_map, Option.isSome_map, hsome] at hmap
    exact hmap
  · by_cases hq : q = .localVar x
    · subst hq
      exact Or.inr ⟨v, by rw [hleft.content, if_pos rfl], by rw [hright.content, if_pos rfl]⟩
    · -- Another local is in another place, which still holds what it did.
      have hne : ∀ {l : SlotLayout}, Numbered l.slots → l.place (.localVar x) ≠ l.place q :=
        fun numbered heq => hq (place_injective numbered heq).symm
      refine (h.known x (hx.resolve_right hq)).imp_right ?_
      rintro ⟨w, hw, hw'⟩
      refine ⟨w, ?_, ?_⟩
      · rw [hleft.content, if_neg (hne d.twin.left.laidOut.numbered)]
        exact hw
      · rw [hright.content, if_neg (hne d.twin.right.laidOut.numbered)]
        exact hw'

/-- A site that has slots can write one of them. -/
theorem returns_writePlace_of_role {site : Site} {st : Storage} {k : SlotId}
    {role : Machine.Role} (hst : site.slotsIn s = some st)
    (hlength : st.slots.length = site.machine.slots.length)
    (hrole : site.machine.role? k = some role) (v : Value) :
    Returns (writePlace site f v (.slot k)) s f
      (site.put s { st with slots := st.slots.set k v }) := by
  have hlt : k < st.slots.length := by
    rw [hlength]
    exact lt_of_role? hrole
  exact returns_writePlace_slot.mpr ⟨Site.returns_writeSlot.mpr ⟨st, hst, hlt, rfl⟩, rfl⟩

section

variable (h : d.Linked known f f' s t)

include h

/-- Both sites write slots with the same role. -/
theorem alike_writePlace_slots {a a' : SlotId}
    (ha : d.left.machine.layout.place q = .slot a)
    (ha' : d.right.machine.layout.place q = .slot a')
    (hroles : SameRole d.left.machine d.right.machine a a') (v : Value) :
    Alike (writePlace d.left f v (d.left.machine.layout.place q)) s
      (writePlace d.right f' v (d.right.machine.layout.place q)) t
      (d.Linked fun x => known x ∨ q = .localVar x) d.Stops := by
  have hslots : Alike (writePlace d.left f v (.slot a)) s
    (writePlace d.right f' v (.slot a')) t
      (fun g g' s' t' => g = f ∧ g' = f' ∧ d.World s' t') d.Stops := by
    refine (inStep_writeSlot hroles v h.world).bind ?_
    rintro _ _ s' t' ⟨-, hworld⟩
    exact alike_pure ⟨rfl, rfl, hworld⟩
  rw [← ha, ← ha'] at hslots
  refine hslots.returns.mono ?_ fun _ _ _ hstops => hstops
  rintro _ _ s' t' ⟨⟨rfl, rfl, hworld⟩, hleft, hright⟩
  exact h.wrote hworld (returns_writePlace hleft) (returns_writePlace hright) h.params h.same

/-- **A local is written wherever each machine keeps it.** -/
theorem alike_writePlace_local (x : LocalId) (v : Value) :
    Alike (writePlace d.left f v (d.left.machine.layout.place (.localVar x))) s
      (writePlace d.right f' v (d.right.machine.layout.place (.localVar x))) t
      (d.Linked fun y => known y ∨ Place.localVar x = .localVar y) d.Stops := by
  have hpresent : d.left.machine ≠ d.right.machine → ∃ st st', d.left.slotsIn s = some st ∧
      d.right.slotsIn t = some st' ∧ Matching d.left.machine d.right.machine st st' ∧
      st.slots.length = d.left.machine.slots.length ∧
        st'.slots.length = d.right.machine.slots.length := by
    intro hne
    refine h.world.seen.resolve_left fun hnone => ?_
    have hsome := h.present.resolve_left hne
    rw [hnone.1] at hsome
    cases hsome
  have hframe : ∀ (site : Site) (s : HostState) (f : Frame),
    site.machine.layout.local? x = none →
      Returns (writePlace site f v (site.machine.layout.place (.localVar x))) s
        { f with locals := f.locals.insert x v } s := by
    intro site s f hnone
    rw [SlotLayout.place_local_of_none hnone]
    exact returns_pure.mpr ⟨rfl, rfl⟩
  cases ha : d.left.machine.layout.local? x with
  | some a =>
    have hrole := Lowered.role?_of_exists (d.twin.left.laidOut.role_local ha)
    cases ha' : d.right.machine.layout.local? x with
    | some a' =>
      exact alike_writePlace_slots h (SlotLayout.place_local ha) (SlotLayout.place_local ha')
        (d.twin.left.sameRole_local d.twin.right ha ha') v
    | none =>
      have hne : d.left.machine ≠ d.right.machine := by
        intro heq
        rw [heq, ha'] at ha
        cases ha
      obtain ⟨st, st', hst, hst', hmatch, hlength, hlength'⟩ := hpresent hne
      have hleft := returns_writePlace_of_role (f := f) hst hlength hrole v
      rw [← SlotLayout.place_local ha] at hleft
      have hright := hframe d.right t f' ha'
      have hworld := h.world.restock (Site.restocked_put hst _) (Site.restocked_self hst')
        (hmatch.set_left (d.twin.left.not_sameRole_of_local ha ha') v)
        (List.length_set.trans hlength) hlength'
      exact hleft.alike hright (h.wrote hworld (returns_writePlace hleft)
        (returns_writePlace hright) h.params fun heq => absurd heq hne)
  | none =>
    have hleft := hframe d.left s f ha
    cases ha' : d.right.machine.layout.local? x with
    | some a' =>
      have hrole := Lowered.role?_of_exists (d.twin.right.laidOut.role_local ha')
      have hne : d.left.machine ≠ d.right.machine := by
        intro heq
        rw [heq, ha'] at ha
        cases ha
      obtain ⟨st, st', hst, hst', hmatch, hlength, hlength'⟩ := hpresent hne
      have hright := returns_writePlace_of_role (f := f') hst' hlength' hrole v
      rw [← SlotLayout.place_local ha'] at hright
      have hworld := h.world.restock (Site.restocked_self hst) (Site.restocked_put hst' _)
        (hmatch.set_right (fun a hroles =>
          d.twin.right.not_sameRole_of_local ha' ha a hroles.symm) v)
        hlength (List.length_set.trans hlength')
      exact hleft.alike hright (h.wrote hworld (returns_writePlace hleft)
        (returns_writePlace hright) h.params fun heq => absurd heq hne)
    | none =>
      have hright := hframe d.right t f' ha'
      refine hleft.alike hright (h.wrote h.world (returns_writePlace hleft)
        (returns_writePlace hright) h.params fun heq => ?_)
      rw [h.same heq]

/-- Writing one parameter keeps two machines abreast. -/
theorem alike_writePlace_param {i : Nat}
    (hi : (licence strict d.left.machine d.right.machine).Reaches i) (v : Value) :
    Alike (writePlace d.left f v (d.left.machine.layout.place (.param i))) s
      (writePlace d.right f' v (d.right.machine.layout.place (.param i))) t
      (d.Linked fun y => known y ∨ Place.param i = .localVar y) d.Stops := by
  have hiff := d.twin.left.isSome_param?_iff d.twin.right i
  cases ha : d.left.machine.layout.param? i with
  | some a =>
    rw [ha] at hiff
    obtain ⟨a', ha'⟩ := Option.isSome_iff_exists.mp (hiff.mp rfl)
    exact alike_writePlace_slots h (SlotLayout.place_param ha) (SlotLayout.place_param ha')
      (d.twin.left.sameRole_param d.twin.right ha ha') v
  | none =>
    have ha' : d.right.machine.layout.param? i = none := by
      rw [ha] at hiff
      exact Option.not_isSome_iff_eq_none.mp fun hsome => by cases hiff.mpr hsome
    have hframe : Alike (writePlace d.left f v (d.left.machine.layout.place (.param i))) s
        (writePlace d.right f' v (d.right.machine.layout.place (.param i))) t
        (fun g g' s' t' => s' = s ∧ t' = t ∧ g.params = g'.params ∧
          (d.left.machine = d.right.machine → g = g')) d.Stops := by
      rw [SlotLayout.place_param_of_none ha, SlotLayout.place_param_of_none ha']
      unfold writePlace
      rw [← h.params]
      refine alike_ite Iff.rfl (fun _ => alike_pure ⟨rfl, rfl, rfl, fun heq => ?_⟩) fun _ =>
        alike_throw ⟨fun hstrict => ?_, h.world⟩
      · rw [h.same heq]
      · have hsome : (d.left.machine.layout.param? i).isSome := hi hstrict
        rw [ha] at hsome
        cases hsome
    refine hframe.returns.mono ?_ fun _ _ _ hstops => hstops
    rintro g g' _ _ ⟨⟨rfl, rfl, hparams, hsame⟩, hleft, hright⟩
    exact h.wrote h.world (returns_writePlace hleft) (returns_writePlace hright) hparams hsame

theorem alike_writePlace_field (name : Name) (v : Value) :
    Alike (writePlace d.left f v (.field name)) s (writePlace d.right f' v (.field name)) t
      (d.Linked fun y => known y ∨ Place.field name = .localVar y) d.Stops := by
  have hfield : Alike (writePlace d.left f v (.field name)) s
    (writePlace d.right f' v (.field name)) t
      (fun g g' s' t' => g = f ∧ g' = f' ∧ d.World s' t') d.Stops := by
    unfold writePlace Run.modifyInstance
    simp only [bind_assoc]
    refine (alike_theInstance h.world).bind ?_
    rintro i j _ _ ⟨rfl, rfl, -, -⟩
    rw [d.owner]
    exact Returns.alike_bind (a := ()) (b := ()) (returns_modify.mpr rfl)
      (returns_modify.mpr rfl) (alike_pure ⟨rfl, rfl, h.world.putField d.left.owner name v⟩)
  refine hfield.returns.mono ?_ fun _ _ _ hstops => hstops
  rintro _ _ s' t' ⟨⟨rfl, rfl, hworld⟩, hleft, hright⟩
  exact h.wrote hworld (returns_writePlace hleft) (returns_writePlace hright) h.params h.same

/-- **Sound writes keep frames linked**, and the local that was written is known. -/
theorem alike_writePlace (sound : q.Sound (licence strict d.left.machine d.right.machine))
    (v : Value) :
    Alike (writePlace d.left f v (d.left.machine.layout.place q)) s
      (writePlace d.right f' v (d.right.machine.layout.place q)) t
      (d.Linked fun x => known x ∨ q = .localVar x) d.Stops := by
  cases q with
  | localVar x => exact alike_writePlace_local h x v
  | param i => exact alike_writePlace_param h sound v
  | field name => exact alike_writePlace_field h name v

end

/-! ### Statements -/

variable (d) in
/-- **How statements leave their blocks at both sites**, which began with `known` and know
`next` when they go on. -/
inductive Arrives (inLoop : Bool) (known next : LocalId → Prop) :
    Flow × Frame → Flow × Frame → HostState → HostState → Prop where
  | next {g g' : Frame} {s t : HostState} (linked : d.Linked next g g' s t) :
    Arrives inLoop known next (.next, g) (.next, g') s t
  | breakLoop {g g' : Frame} {s t : HostState} (inside : inLoop = true)
    (linked : d.Linked known g g' s t) :
    Arrives inLoop known next (.breakLoop, g) (.breakLoop, g') s t
  | continueLoop {g g' : Frame} {s t : HostState} (inside : inLoop = true)
    (linked : d.Linked known g g' s t) :
    Arrives inLoop known next (.continueLoop, g) (.continueLoop, g') s t
  | ret {g g' : Frame} {s t : HostState} (v : Value) (world : d.World s t) :
    Arrives inLoop known next (.ret v, g) (.ret v, g') s t
  | finished {g g' : Frame} {s t : HostState} (world : d.World s t) :
    Arrives inLoop known next (.finished, g) (.finished, g') s t

variable (d) in
/-- Started with linked frames, the runs leave their blocks the same way. -/
def Proceed (inLoop : Bool) (known next : LocalId → Prop) (f f' : Frame)
    (x y : Run (Flow × Frame)) : Prop :=
  ∀ ⦃s t⦄, d.Linked known f f' s t → Alike x s y t (d.Arrives inLoop known next) d.Stops

/-- What is known on arrival may be said more weakly. -/
theorem Arrives.mono {r r' : Flow × Frame} {less : LocalId → Prop}
    (h : d.Arrives inLoop known next r r' s t) (hless : ∀ x, less x → known x)
    (hless' : ∀ x, less' x → next x) : d.Arrives inLoop less less' r r' s t := by
  cases h with
  | next linked => exact .next (linked.mono hless')
  | breakLoop inside linked => exact .breakLoop inside (linked.mono hless)
  | continueLoop inside linked => exact .continueLoop inside (linked.mono hless)
  | ret v world => exact .ret v world
  | finished world => exact .finished world

theorem Proceed.mono (h : d.Proceed inLoop known next f f' x y)
    (hless' : ∀ x, less' x → next x) :
    d.Proceed inLoop known less' f f' x y := fun _ _ hlinked =>
  (h hlinked).mono (fun _ _ _ _ harrives => harrives.mono (fun _ hx => hx) hless')
    fun _ _ _ hstops => hstops

/-- Doing nothing proceeds. -/
theorem proceed_next :
    d.Proceed inLoop known known f f' (pure (.next, f)) (pure (.next, f')) :=
  fun _ _ h => alike_pure (.next h)

/-- Code that concurs and then proceeds together. -/
theorem Concur.proceed {α : Type} {x y : Run α} {k l : α → Run (Flow × Frame)}
    (hx : d.Concur known f f' x y) (hk : ∀ a, d.Proceed inLoop known next f f' (k a) (l a)) :
    d.Proceed inLoop known next f f' (x >>= k) (y >>= l) := by
  intro s t h
  refine (hx h).bind ?_
  rintro a _ s' t' ⟨rfl, h'⟩
  exact hk a h'

theorem proceed_ite {c : Prop} [Decidable c] {x' y' : Run (Flow × Frame)}
    (hx : d.Proceed inLoop known next f f' x y)
    (hy : d.Proceed inLoop known next f f' x' y') :
    d.Proceed inLoop known next f f' (if c then x else x') (if c then y else y') :=
  fun _ _ h => alike_ite Iff.rfl (fun _ => hx h) fun _ => hy h

/-- A block with one statement. -/
theorem Proceed.singleton {stmt stmt' : Machine.Stmt}
    (h : d.Proceed inLoop known next f f' (exec d.left call fuel stmt f)
      (exec d.right call' fuel stmt' f')) :
    d.Proceed inLoop known next f f' (execBlock d.left call fuel [stmt] f)
      (execBlock d.right call' fuel [stmt'] f') := by
  rw [execBlock_singleton, execBlock_singleton]
  exact h

/-- A branch on the same condition. -/
theorem proceed_branch {cond cond' : Machine.Expr}
    {onTrue onFalse onTrue' onFalse' : List Machine.Stmt}
    (hcond : d.Concur known f f' (eval d.left call f cond) (eval d.right call' f' cond'))
    (htrue : d.Proceed inLoop known next f f' (execBlock d.left call fuel onTrue f)
      (execBlock d.right call' fuel onTrue' f'))
    (hfalse : d.Proceed inLoop known next f f' (execBlock d.left call fuel onFalse f)
      (execBlock d.right call' fuel onFalse' f'))
    (span : Span) :
    d.Proceed inLoop known next f f' (exec d.left call fuel
      (.branch span cond onTrue onFalse) f)
      (exec d.right call' fuel (.branch span cond' onTrue' onFalse') f') := by
  unfold exec
  exact hcond.proceed fun _ => (concur_expect rfl _).proceed fun _ => proceed_ite htrue hfalse

/-- What follows a block goes on with what is known after it. -/
theorem alike_andThen (hx : Alike x s y t (d.Arrives inLoop known mid) d.Stops)
    (hless : ∀ x, known x → mid x)
    (hk : ∀ g g', d.Proceed inLoop mid next g g' (k g) (l g')) :
    Alike (x >>= andThen k) s (y >>= andThen l) t (d.Arrives inLoop known next) d.Stops := by
  refine hx.bind ?_
  rintro r r' s' t' (⟨linked⟩ | ⟨inside, linked⟩ | ⟨inside, linked⟩ | ⟨v, world⟩ | ⟨world⟩)
  · exact (hk _ _ linked).mono (fun _ _ _ _ harrives => harrives.mono hless fun _ hx => hx)
      fun _ _ _ hstops => hstops
  · exact alike_pure (.breakLoop inside linked)
  · exact alike_pure (.continueLoop inside linked)
  · exact alike_pure (.ret v world)
  · exact alike_pure (.finished world)

/-- Two parts that proceed together do so in sequence. -/
theorem Proceed.andThen (hx : d.Proceed inLoop known mid f f' x y)
    (hless : ∀ x, known x → mid x)
    (hk : ∀ g g', d.Proceed inLoop mid next g g' (k g) (l g')) :
    d.Proceed inLoop known next f f' (x >>= Resumable.andThen k)
      (y >>= Resumable.andThen l) :=
  fun _ _ h => alike_andThen (hx h) hless hk

/-- **Loops turn the same number of times**, by induction on the turns that are left. -/
theorem proceed_repeatWhile {cond cond' : Frame → Run Bool}
    {body body' : Frame → Run (Flow × Frame)}
    (hcond : ∀ f f', d.Concur known f f' (cond f) (cond' f'))
    (hbody : ∀ f f', d.Proceed true known known f f' (body f) (body' f')) (fuel : Nat) :
    ∀ f f', d.Proceed inLoop known known f f' (repeatWhile cond body fuel f)
      (repeatWhile cond' body' fuel f') := by
  induction fuel with
  | zero => exact fun _ _ _ _ h => alike_throw ⟨fun _ => rfl, h.world⟩
  | succ fuel ih =>
    intro f f'
    unfold repeatWhile
    refine (hcond f f').proceed fun go => proceed_ite ?_ proceed_next
    intro s t h
    refine (hbody f f' h).bind ?_
    rintro r r' s' t' (⟨linked⟩ | ⟨-, linked⟩ | ⟨-, linked⟩ | ⟨v, world⟩ | ⟨world⟩)
    · exact ih _ _ linked
    · exact alike_pure (.next linked)
    · exact ih _ _ linked
    · exact alike_pure (.ret v world)
    · exact alike_pure (.finished world)

theorem proceed_finish (status : TaskStatus) (value : Option Value) :
    d.Proceed inLoop known next f f' (finish d.left status value >>= fun _ =>
      pure (.finished, f))
      (finish d.right status value >>= fun _ => pure (.finished, f')) := by
  intro s t h
  refine (inStep_finish status value h.world).bind ?_
  rintro _ _ s' t' ⟨-, hworld⟩
  exact alike_pure (.finished hworld)

/-- **A store**: the value is the same, and so is the place of the source. -/
theorem proceed_store (hcall : d.CallsInStep call call') {e : Bound.Expr}
    (hq : q.Sound (licence strict d.left.machine d.right.machine))
    (he : e.Sound (licence strict d.left.machine d.right.machine) known) (fuel : Nat)
    (span : Span) :
    d.Proceed inLoop known (fun x => known x ∨ q = .localVar x) f f' (exec d.left call fuel
        (.assign span (d.left.machine.layout.place q) (slottedExpr d.left.machine.layout e))
          f) (exec d.right call' fuel
        (.assign span (d.right.machine.layout.place q)
          (slottedExpr d.right.machine.layout e)) f') := by
  unfold exec
  refine (concur_eval hcall e he).proceed fun v => ?_
  intro s t h
  exact (alike_writePlace h hq v).bind fun g g' s' t' linked => alike_pure (.next linked)

/-- The introduction of a local with a value is a store. -/
theorem execBlock_bind (site : Site) (call : Caller) (fuel : Nat) (inClosure : Bool)
    (info : Bound.StmtInfo) (x : LocalId) (e : Bound.Expr) (f : Frame) :
    execBlock site call fuel (slottedStmt site.machine.layout inClosure
      (.bind info x e)).toList f =
      exec site call fuel (.assign info.span (site.machine.layout.place (.localVar x))
        (slottedExpr site.machine.layout e)) f := by
  unfold slottedStmt
  cases hx : site.machine.layout.local? x with
  | some k =>
    rw [SlotLayout.place_local hx]
    exact execBlock_singleton _ _
  | none =>
    rw [SlotLayout.place_local_of_none hx]
    exact (execBlock_singleton _ _).trans (exec_bind_slottedExpr call fuel _ _ _ _)

/-- The introduction of a local without a value, for the same machine. -/
theorem proceed_declare (hsame : d.left.machine = d.right.machine) (fuel : Nat)
    (inClosure : Bool) (info : Bound.StmtInfo) (x : LocalId) :
    d.Proceed inLoop known (Bound.after known (.declare info x)) f f'
      (execBlock d.left call fuel (slottedStmt d.left.machine.layout inClosure
        (.declare info x)).toList f)
      (execBlock d.right call' fuel (slottedStmt d.right.machine.layout inClosure
        (.declare info x)).toList f') := by
  intro s t h
  obtain rfl := h.same hsame
  have hdefault : d.right.defaultLocal x = d.left.defaultLocal x := by
    unfold Site.defaultLocal
    rw [hsame]
  unfold slottedStmt
  rw [← hsame]
  cases hx : d.left.machine.layout.local? x with
  | some k =>
    -- Nothing is left of the statement, and the local has its slot.
    refine alike_pure (.next ⟨h.world, h.params, h.same, h.present, fun y hy => ?_⟩)
    rcases hy with hy | heq
    · exact h.known y hy
    · obtain rfl : x = y := Option.some.inj heq
      exact Or.inl ⟨Option.isSome_of_mem hx, hsame ▸ Option.isSome_of_mem hx⟩
  | none =>
    have hbind : ∀ (site : Site) (call : Caller) (s : HostState),
        Returns (execBlock site call fuel [.bind info.span x .absent] f) s
          (.next, { f with locals := f.locals.insert x (site.defaultLocal x) }) s :=
      fun _ _ _ => rfl
    have hwrite := alike_writePlace_local h x (d.left.defaultLocal x)
    rw [← hsame, SlotLayout.place_local_of_none hx] at hwrite
    have hlinked : d.Linked _ _ _ s t :=
      hwrite (returns_pure.mpr ⟨rfl, rfl⟩) (returns_pure.mpr ⟨rfl, rfl⟩)
    refine (hbind d.left call s).alike (hbind d.right call' t) (.next ?_)
    rw [hdefault]
    exact hlinked.mono fun y hy =>
      hy.imp_right fun heq => congrArg Place.localVar (Option.some.inj heq)

section

variable (fuel : Nat)

/-- A statement at its place in a block. -/
theorem slottedBlock_cons (l : SlotLayout) (inClosure : Bool) (s : Stmt) (rest : List Stmt) :
    slottedBlock l inClosure (s :: rest) = (slottedStmt l inClosure s).toList ++
      slottedBlock l inClosure rest := by
  rw [slottedBlock]
  cases slottedStmt l inClosure s <;> rfl

mutual

/-- **Sound statements leave their blocks the same way at both sites.** -/
theorem proceed_exec (hcall : d.CallsInStep call call') (inClosure : Bool) :
    (s : Stmt) → {inLoop : Bool} → {known : LocalId → Prop} →
      s.Sound (licence strict d.left.machine d.right.machine) inLoop known → ∀ f f',
      d.Proceed inLoop known (Bound.after known s) f f'
        (execBlock d.left call fuel (slottedStmt d.left.machine.layout inClosure s).toList f)
        (execBlock d.right call' fuel
          (slottedStmt d.right.machine.layout inClosure s).toList f')
  | .expr info e, _, known, sound => by
    intro f f'
    refine Proceed.mono ?_ (known_of_after rfl)
    refine Proceed.singleton ?_
    unfold exec
    exact (concur_eval hcall e sound).proceed fun _ => proceed_next
  | .declare info x, _, _, sound => fun _ _ => proceed_declare sound fuel inClosure info x
  | .bind info x e, _, known, sound => by
    intro f f'
    rw [execBlock_bind, execBlock_bind]
    refine Proceed.mono (proceed_store (q := .localVar x) hcall trivial sound fuel info.span)
      fun y hy => ?_
    exact hy.imp_right fun heq => congrArg Place.localVar (Option.some.inj heq)
  | .assign info target e, _, known, sound => by
    intro f f'
    refine Proceed.singleton ?_
    refine Proceed.mono (proceed_store hcall sound.1 sound.2 fuel info.span) fun y hy => ?_
    refine hy.imp_right fun heq => ?_
    cases target with
    | localVar x => exact congrArg Place.localVar (Option.some.inj heq)
    | param | field => cases heq
  | .branch info cond onTrue onFalse, _, known, sound => by
    intro f f'
    refine Proceed.mono ?_ (known_of_after rfl)
    refine Proceed.singleton ?_
    exact proceed_branch (concur_eval hcall cond sound.1)
      ((proceed_execBlock hcall inClosure onTrue sound.2.1 f f').mono fun _ => Or.inl)
      ((proceed_execBlock hcall inClosure onFalse sound.2.2 f f').mono fun _ => Or.inl) _
  | .loop info cond body, _, known, sound => by
    intro f f'
    refine Proceed.mono ?_ (known_of_after rfl)
    refine Proceed.singleton ?_
    unfold exec
    refine proceed_repeatWhile (fun f f' => ?_) (fun f f' => ?_) fuel f f'
    · exact (concur_eval hcall cond sound.1).bind fun _ => concur_expect rfl _
    · exact (proceed_execBlock hcall inClosure body sound.2 f f').mono fun _ => Or.inl
  | .breakLoop info, _, known, sound => fun _ _ _ _ h => alike_pure (.breakLoop sound h)
  | .continueLoop info, _, known, sound => fun _ _ _ _ h => alike_pure (.continueLoop sound h)
  | .leave info, _, known, _ => by
    intro f f'
    unfold slottedStmt
    cases inClosure with
    | true => exact fun _ _ h => alike_pure (.ret .unit h.world)
    | false =>
      refine Proceed.singleton ?_
      exact proceed_finish .succeeded none
  | .ret info e, _, known, sound => by
    intro f f'
    unfold slottedStmt
    cases inClosure with
    | true =>
      refine Proceed.singleton ?_
      unfold exec
      rw [eval?_slottedExpr, eval?_slottedExpr, ← bind_pure_comp, ← bind_pure_comp,
        bind_assoc, bind_assoc]
      refine (concur_eval hcall e sound).proceed fun v => ?_
      exact fun _ _ h => alike_pure (.ret v h.world)
    | false =>
      refine Proceed.singleton ?_
      unfold exec
      rw [eval?_slottedExpr, eval?_slottedExpr, ← bind_pure_comp, ← bind_pure_comp,
        bind_assoc, bind_assoc]
      exact (concur_eval hcall e sound).proceed fun v => proceed_finish .succeeded (some v)

/-- **Sound blocks are left the same way at both sites.** -/
theorem proceed_execBlock (hcall : d.CallsInStep call call') (inClosure : Bool) :
    (stmts : List Stmt) → {inLoop : Bool} → {known : LocalId → Prop} →
      Bound.SoundBlock (licence strict d.left.machine d.right.machine)
        inLoop known stmts → ∀ f f',
      d.Proceed inLoop known (Bound.afterAll known stmts) f f'
        (execBlock d.left call fuel (slottedBlock d.left.machine.layout inClosure stmts) f)
        (execBlock d.right call' fuel
          (slottedBlock d.right.machine.layout inClosure stmts) f')
  | [], _, known, _ => by
    intro f f'
    rw [Bound.afterAll_nil]
    unfold slottedBlock execBlock
    exact proceed_next
  | s :: rest, _, known, sound => by
    intro f f'
    rw [slottedBlock_cons, slottedBlock_cons, execBlock_append,
      execBlock_append, Bound.afterAll_cons]
    exact (proceed_exec hcall inClosure s sound.1 f f').andThen (fun _ => Or.inl)
      fun g g' => proceed_execBlock hcall inClosure rest sound.2 g g'

end

end

end Duet

end Resumable
