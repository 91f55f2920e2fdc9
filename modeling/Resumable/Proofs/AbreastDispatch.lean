import Resumable.Proofs.AbreastCode

/-!
# Dispatches at two sites

The code that lowering puts around the statements of the source also runs in step at the
two sites of a duet.  A dispatch looks at slots with the same role and comes to the same
arm.  Of the locals nothing is known there at first.  What a segment needs from before has
a slot in both machines, and what was delivered to it is the same, so its statements are
sound where they begin.

## Main statements

* `Duet.alike_awaitGuard`: awaited tasks are waited for again, or they are done.
* `Duet.alike_segment`: segments run in step.
* `Duet.inStep_dispatch`, `Duet.inStep_entry`: so do the dispatches and the entries of twins.
* `inStep_runProcedure`, `inStep_runClosure`: procedures and closures of
  hosts that are abreast.
* `Tandem.abreast`: operations keep hosts abreast.

## Design notes

Where nothing may go wrong, a delivery has to find its tasks done.  The guard before it has
seen to that, so the guard and the delivery are treated together: what the guard has found is
handed on as a fact about the two states.
-/

namespace Resumable

open Resumable.Bound (Procedure Stmt afterAll)
open Resumable.Machine (Role Slot SlotId TaskStatus)

variable {names : NameTable} {p : Procedure} {k i : Nat} {st : Stretch} {strict : Prop}
  {a a' : SlotId} {slots slots' : List SlotId} {q : SuspensionPoint}
  {rest rest' : List Machine.Stmt} {slot : Slot}

/-! ### The parts of a segment -/

/-- Top-level statements run as their slotted forms do. -/
theorem execBlock_topStmts {site : Site} (call : Caller) (fuel : Nat) (u : Usage)
    (stmts : List Stmt) (f : Frame) :
    execBlock site call fuel (topStmts site.machine.layout u stmts).1 f =
      execBlock site call fuel (slottedBlock site.machine.layout false stmts) f := by
  induction stmts generalizing u f with
  | nil => rfl
  | cons s rest ih =>
    show execBlock site call fuel ((topStmt site.machine.layout u s).1.toList ++
      (topStmts site.machine.layout (topStmt site.machine.layout u s).2 rest).1) f = _
    rw [Duet.slottedBlock_cons, execBlock_append, execBlock_append]
    have hrest : execBlock site call fuel
        (topStmts site.machine.layout (topStmt site.machine.layout u s).2 rest).1 =
          execBlock site call fuel (slottedBlock site.machine.layout false rest) :=
      funext fun f => ih _ f
    rw [hrest]
    cases hslotted : slottedStmt site.machine.layout false s with
    | some s' =>
      obtain ⟨t, htop, hexec⟩ := exec_topStmt call fuel u hslotted
      rw [htop, Option.toList_some, Option.toList_some, execBlock_singleton,
        execBlock_singleton, hexec]
    | none =>
      have hnone : (topStmt site.machine.layout u s).1 = none := by
        unfold topStmt
        cases hfirst : firstAssigned? site.machine.layout u s with
        | none => exact hslotted
        | some assigned =>
          cases s with
          | assign => cases hslotted
          | _ => cases hfirst
      rw [hnone]

theorem Delivery.target_of_local? {delivery : Delivery} {x : LocalId}
    (h : delivery.local? = some x) : delivery.target = .localVar x := by
  unfold Delivery.local? at h
  split at h
  case h_1 id heq => rw [heq, Option.some.inj h]
  case h_2 | h_3 => cases h

namespace Lowered

variable {mode : LivenessMode} {m : Machine}

/-- What was delivered is not introduced again. -/
theorem not_mem_introductions (b : Lowered mode names p m)
    (hst : (cut p.stmts b.points)[k]? = some st) {x : LocalId}
    (hx : st.opening.bind SuspensionPoint.delivered? = some x)
    (hslot : m.layout.local? x = none) : x ∉ st.introductions m.layout := by
  obtain ⟨q, hq, hdelivered⟩ := Option.bind_eq_some_iff.mp hx
  obtain ⟨delivery, hdelivery, hlocal⟩ := Option.bind_eq_some_iff.mp hdelivered
  obtain ⟨j, -, hpoint⟩ := b.point_of_opening hst hq
  obtain ⟨hcarries, hawaits⟩ :=
    b.carries_of_delivery (List.mem_of_getElem? hpoint) (Option.isSome_of_mem hdelivery)
  refine st.notMem_introductions hq hdelivery hcarries hawaits ?_
  rw [delivery.target_of_local? hlocal]
  exact SlotLayout.place_local_of_none hslot

end Lowered

namespace Duet

variable {d : Duet strict} {s t s' t' : HostState} {f f' : Frame}
  {known next : LocalId → Prop} {call call' : Caller} {fuel : Nat}

/-! ### Slots that hold no variable -/

/-- **A write to a slot that holds no variable** leaves the frames linked. -/
theorem alike_writeBook (h : d.Linked known f f' s t)
    (hroles : SameRole d.left.machine d.right.machine a a')
    (hbook : ∀ origin, d.left.machine.role? a ≠ some (.hoisted origin)) (v : Value) :
    Alike (d.left.writeSlot a v) s (d.right.writeSlot a' v) t
      (fun _ _ s' t' => d.Linked known f f' s' t') d.Stops := by
  have hne : ∀ {m : Machine} {k : SlotId}, Numbered m.layout.slots →
      (∀ origin, m.role? k ≠ some (.hoisted origin)) → ∀ q, m.layout.place q ≠ .slot k := by
    intro m k numbered hnone q hplace
    obtain ⟨slot, origin, hslot, hrole⟩ := SlotLayout.role_of_place numbered hplace
    exact hnone origin ((congrArg (Option.map Slot.role) hslot).trans (congrArg some hrole))
  have hbook' : ∀ origin, d.right.machine.role? a' ≠ some (.hoisted origin) := by
    obtain ⟨role, hrole, hrole'⟩ := hroles
    rw [hrole']
    rw [hrole] at hbook
    exact hbook
  refine (inStep_writeSlot hroles v h.world).returns.mono ?_ fun _ _ _ hstops => hstops
  rintro _ _ s' t' ⟨⟨-, hworld⟩, hleft, hright⟩
  have hwrote := Site.wrote_of_writeSlot hleft f
  have hwrote' := Site.wrote_of_writeSlot hright f'
  refine ⟨hworld, h.params, h.same, h.present.imp_right fun hsome => ?_, fun x hx => ?_⟩
  · have hmap := congrArg Option.isSome hwrote.task
    rw [Option.isSome_map, Option.isSome_map, hsome] at hmap
    exact hmap
  · refine (h.known x hx).imp_right ?_
    rintro ⟨w, hw, hw'⟩
    refine ⟨w, ?_, ?_⟩
    · rw [hwrote.content, if_neg (hne d.twin.left.laidOut.numbered hbook _)]
      exact hw
    · rw [hwrote'.content, if_neg (hne d.twin.right.laidOut.numbered hbook' _)]
      exact hw'

/-- **Both sites find the same tasks** in slots with the same roles. -/
theorem alike_taskSlots (h : d.World s t)
    (hroles : List.Forall₂ (SameRole d.left.machine d.right.machine) slots slots') :
    Alike (d.left.taskSlots slots) s (d.right.taskSlots slots') t
      (fun ids ids' s' t' => ids = ids' ∧ s' = s ∧ t' = t ∧
        slots.map (d.left.slotIn s) = ids.map fun id => some (.task id)) d.Stops := by
  refine (inStep_taskSlots hroles h).returns.mono ?_ fun _ _ _ hstops => hstops
  rintro ids _ s' t' ⟨⟨rfl, -⟩, hleft, hright⟩
  obtain ⟨hids, rfl⟩ := Site.returns_taskSlots.mp hleft
  obtain ⟨-, rfl⟩ := Site.returns_taskSlots.mp hright
  exact ⟨rfl, rfl, rfl, hids⟩

theorem concur_taskSlots
    (hroles : List.Forall₂ (SameRole d.left.machine d.right.machine) slots slots') :
    d.Concur known f f' (d.left.taskSlots slots) (d.right.taskSlots slots') :=
  concur_of_silent (inStep_taskSlots hroles) (Site.silent_taskSlots _)
    (Site.silent_taskSlots _)

/-! ### Requests -/

theorem concur_get {α : Type} {k l : HostState → Run α} (h : ∀ s t, d.Linked known f f' s t →
      Alike (k s) s (l t) t (fun a b s' t' => a = b ∧ d.Linked known f f' s' t') d.Stops) :
    d.Concur known f f' (get >>= k) (get >>= l) :=
  fun _ _ hlinked => alike_get_bind (h _ _ hlinked)

/-- Reading the clock. -/
theorem concur_clock (due : Scheduler → Due) :
    d.Concur known f f' (do return due (← get).scheduler)
      (do return due (← get).scheduler) := by
  refine concur_get fun s t h => ?_
  rw [h.world.scheduler_eq]
  exact alike_pure ⟨rfl, h⟩

/-- **Call backs are due at the same time.** -/
theorem concur_dueOf (hcall : d.CallsInStep call call') (hq : q ∈ d.twin.left.points)
    (sound : ∀ e ∈ q.kind.operands, e.Sound
      (licence strict d.left.machine d.right.machine) known) :
    d.Concur known f f' (dueOf d.left call f (resumptionOf d.left.machine.layout q).timing)
      (dueOf d.right call' f' (resumptionOf d.right.machine.layout q).timing) := by
  obtain ⟨i, hi⟩ := List.getElem?_of_mem hq
  have hindex := d.twin.left.index_eq hi
  have hroles := d.twin.left.sameRole_awaits d.twin.right hi
  have hlength := d.twin.left.length_awaits hi
  rw [← hindex] at hroles hlength
  unfold resumptionOf
  cases hkind : q.kind with
  | timedDelay e =>
    rw [hkind] at sound
    exact (concur_eval hcall e (sound e List.mem_cons_self)).bind fun _ =>
      (concur_expect rfl _).bind fun seconds => concur_clock fun q => q.afterSeconds seconds
  | frameDelay e =>
    rw [hkind] at sound
    exact (concur_eval hcall e (sound e List.mem_cons_self)).bind fun _ =>
      (concur_expect rfl _).bind fun frames => concur_clock fun q => q.afterFrames frames
  | yieldStep => exact concur_clock fun q => q.afterFrames 1
  | joinAll | joinAny => exact (concur_taskSlots hroles).bind fun _ => concur_pure _
  | delegate =>
    rw [hkind] at hlength
    obtain ⟨slot, hslot⟩ := List.length_eq_one_iff.mp hlength
    rw [hslot] at hroles
    obtain ⟨slot', _, hfirst, hnone, hslot'⟩ := List.forall₂_cons_left_iff.mp hroles
    obtain rfl := List.forall₂_nil_left_iff.mp hnone
    rw [hslot, hslot']
    exact (concur_taskSlots (.cons hfirst .nil)).bind fun _ => concur_pure _

/-- A request to be called back, for the same dispatch. -/
theorem proceed_schedule {timing timing' : Machine.Timing} (span : Span)
    (hdue : d.Concur known f f' (dueOf d.left call f timing)
      (dueOf d.right call' f' timing')) :
    d.Proceed false known known f f' (exec d.left call fuel
      (.schedule span d.left.machine.dispatch.name timing) f)
      (exec d.right call' fuel
        (.schedule span d.right.machine.dispatch.name timing') f') := by
  have hown : ∀ site : Site, site.ownDispatch site.machine.dispatch.name =
      pure (procIndex site.index .dispatch) := fun site => if_pos rfl
  unfold exec
  rw [hown, hown, pure_bind, pure_bind, d.index, d.owner]
  refine hdue.proceed fun due => ?_
  refine (concur_of_detached (inStep_submit due _) (within_modify fun _ => rfl)
    (within_modify fun _ => rfl)).proceed fun _ => proceed_next

/-! ### The way to a segment -/

theorem concur_cancelRequested (hroles : SameRole d.left.machine d.right.machine a a') :
    d.Concur known f f' (cancelRequested d.left a) (cancelRequested d.right a') := by
  unfold cancelRequested
  refine (concur_of_silent (inStep_readSlot hroles) (Site.silent_readSlot _)
    (Site.silent_readSlot _)).bind fun v => ?_
  cases v with
  | token id =>
    refine concur_get fun s t h => ?_
    rw [congrArg HostState.tokens h.world.common]
    exact alike_pure ⟨rfl, h⟩
  | unit => exact concur_pure _
  | bool | int | float | str | array | task | closure =>
    exact concur_of_silent (Run.inStep_fail fun _ => rfl)
      (Run.silent_fail _) (Run.silent_fail _)

/-- **Cancellation is noticed at both sites.** -/
theorem proceed_cancelCheck (span : Span) : d.Proceed false known known f f'
      (execBlock d.left call fuel (d.left.machine.layout.cancel.map
        (cancelCheck span)).toList f)
      (execBlock d.right call' fuel (d.right.machine.layout.cancel.map
        (cancelCheck span)).toList f') := by
  rcases d.twin.left.sameRole_cancel d.twin.right
    with ⟨hnone, hnone'⟩ | ⟨a, a', ha, ha', hroles⟩
  · have hleft : d.left.machine.layout.cancel = none := hnone
    have hright : d.right.machine.layout.cancel = none := hnone'
    rw [hleft, hright]
    exact proceed_next
  · have hleft : d.left.machine.layout.cancel = some a := ha
    have hright : d.right.machine.layout.cancel = some a' := ha'
    rw [hleft, hright, Option.map_some, Option.map_some,
      Option.toList_some, Option.toList_some, execBlock_singleton, execBlock_singleton]
    refine proceed_branch (concur_cancelRequested hroles) ?_ proceed_next span
    rw [execBlock_singleton, execBlock_singleton]
    exact proceed_finish .cancelled none

/-- **Awaited tasks are waited for again, or they are done** and what
follows the guard runs. -/
theorem alike_awaitGuard (h : d.Linked known f f' s t)
    (hroles : List.Forall₂ (SameRole d.left.machine d.right.machine) slots slots')
    {mode : JoinMode} (span : Span)
    (hdone : ∀ ids : List TaskId, slots.map (d.left.slotIn s) =
      (ids.map fun id => some (.task id)) → s.tasks.done ids mode = true →
      Alike (execBlock d.left call fuel rest f) s (execBlock d.right call' fuel rest' f') t
        (d.Arrives false known next) d.Stops) : Alike (execBlock d.left call fuel
        (awaitGuard span d.left.machine.dispatch.name slots mode :: rest) f) s
          (execBlock d.right call' fuel
        (awaitGuard span d.right.machine.dispatch.name slots' mode :: rest') f') t
      (d.Arrives false known next) d.Stops := by
  have hunfold : ∀ (site : Site) (call : Caller) (slots : List SlotId)
      (rest : List Machine.Stmt) (f : Frame), execBlock site call fuel
        (awaitGuard span site.machine.dispatch.name slots mode :: rest) f =
        site.taskSlots slots >>= fun ids => get >>= fun st =>
          execBlock site call fuel ((if st.tasks.done ids mode then [] else
            [.schedule span site.machine.dispatch.name (.completion slots mode),
              leaveProcedure span]) ++
              rest) f := by
    intro site call slots rest f
    unfold awaitGuard
    rw [execBlock_cons, exec, eval, eval]
    simp only [bind_assoc]
    refine congrArg _ (funext fun ids => congrArg _ (funext fun st => ?_))
    rw [execBlock_append]
    cases st.tasks.done ids mode <;> rfl
  rw [hunfold, hunfold]
  refine (alike_taskSlots h.world hroles).bind ?_
  rintro ids _ _ _ ⟨rfl, rfl, rfl, hids⟩
  refine alike_get_bind ?_
  rw [h.world.tasks_eq]
  cases hcase : HostState.tasks _ |>.done ids mode with
  | true => exact hdone ids hids hcase
  | false =>
    simp only [Bool.false_eq_true, if_false, List.cons_append]
    rw [execBlock_cons, execBlock_cons]
    have hdue : d.Concur known f f' (dueOf d.left call f (.completion slots mode))
        (dueOf d.right call' f' (.completion slots' mode)) :=
      (concur_taskSlots hroles).bind fun _ => concur_pure _
    refine ((proceed_schedule span hdue) h).bind ?_
    rintro r r' s' t' (⟨linked⟩ | ⟨inside, linked⟩ | ⟨inside, linked⟩ | ⟨v, world⟩ | ⟨world⟩)
    · exact alike_pure (.ret .unit linked.world)
    · cases inside
    · cases inside
    · exact alike_pure (.ret v world)
    · exact alike_pure (.finished world)

/-! ### Segments -/

section

/-- The place that a suspension delivers to is one that its statement writes. -/
theorem sound_target (hq : q ∈ d.twin.left.points) {delivery : Delivery}
    (hdelivery : q.delivery = some delivery) :
    delivery.target.Sound (licence strict d.left.machine d.right.machine) := by
  obtain ⟨site, i, gives, hmem, -⟩ := site_of_mem d.twin.left.found hq
  rw [gives.delivery] at hdelivery
  cases htarget : delivery.target with
  | localVar | field => trivial
  | param j =>
    refine d.twin.reaches j (List.mem_filterMap.mpr ⟨.writeParam j, ?_, rfl⟩)
    refine Bound.mem_accessesOf.mpr ⟨site.stmt, hmem, ?_⟩
    unfold deliveryOf at hdelivery
    split at hdelivery
    case h_1 =>
      obtain rfl := Option.some.inj hdelivery
      cases htarget
    case h_2 heq =>
      obtain rfl := Option.some.inj hdelivery
      rw [heq, Stmt.accesses]
      obtain rfl : _ = Bound.Place.param j := htarget
      exact List.mem_append_right _ List.mem_cons_self
    case h_3 => cases hdelivery

/-- The stores of awaited tasks. -/
theorem proceed_taskStores (hcall : d.CallsInStep call call') {operands : List Bound.Expr}
    (hroles : List.Forall₂ (fun a a' => ∃ j, d.left.machine.role? a = some (.awaited i j) ∧
      d.right.machine.role? a' = some (.awaited i j)) slots slots')
    (sound : ∀ e ∈ operands, e.Sound (licence strict d.left.machine d.right.machine) known) :
    ∀ f f', d.Proceed false known known f f' (execBlock d.left call fuel
        ((operands.zip slots).map fun (e, slot) => taskStore d.left.machine.layout e slot) f)
      (execBlock d.right call' fuel
        ((operands.zip slots').map fun (e, slot) =>
          taskStore d.right.machine.layout e slot) f') := by
  induction hroles generalizing operands with
  | nil =>
    intro f f'
    rw [List.zip_nil_right]
    exact proceed_next
  | cons hfirst _ ih =>
    intro f f'
    cases operands with
    | nil => exact proceed_next
    | cons e rest =>
      rw [List.zip_cons_cons, List.zip_cons_cons, List.map_cons,
        List.map_cons, execBlock_cons, execBlock_cons]
      refine Proceed.andThen ?_ (fun _ hx => hx)
        (ih fun e' he' => sound e' (List.mem_cons_of_mem _ he'))
      unfold taskStore exec
      refine (concur_eval hcall e (sound e List.mem_cons_self)).proceed fun v s t h => ?_
      unfold writePlace
      rw [bind_assoc, bind_assoc]
      obtain ⟨j, hrole, hrole'⟩ := hfirst
      refine (alike_writeBook h ⟨_, hrole, hrole'⟩ (fun origin heq => ?_) v).bind
        fun _ _ s' t' h' => ?_
      · cases hrole.symm.trans heq
      · exact alike_pure (.next h')

variable (d) in
/-- The end of the arm of a stretch, in one of the machines. -/
abbrev ending (m : Machine) (k : Nat) (st : Stretch) : List Machine.Stmt :=
  armEnd d.twin.p.span m.dispatch.name (st.segment m.layout k)

variable (hst : (cut d.twin.p.stmts d.twin.left.points)[k]? = some st)

include hst

/-- **What was awaited is delivered to the same place.** -/
theorem alike_delivery (h : d.Linked known f f' s t)
    (hdone : strict → ∀ q, st.opening = some q → q.kind.awaitsTasks = true →
      ∃ ids : List TaskId, (d.left.machine.layout.awaits q.index).map (d.left.slotIn s) =
        (ids.map fun id => some (.task id)) ∧ s.tasks.done ids q.kind.mode = true) :
    Alike (execBlock d.left call fuel (st.delivery d.left.machine.layout).1.toList f) s
      (execBlock d.right call' fuel (st.delivery d.right.machine.layout).1.toList f') t
      (d.Arrives false known fun x => st.opening.bind SuspensionPoint.delivered? = some x)
        d.Stops := by
  cases hq : st.opening with
  | none =>
    unfold Stretch.delivery
    rw [hq]
    exact alike_pure (.next (h.mono fun x hx => by cases hx))
  | some q =>
    obtain ⟨j, rfl, hj⟩ := d.twin.left.point_of_opening hst hq
    have hpoint := List.mem_of_getElem? hj
    cases hdelivery : q.delivery with
    | none =>
      unfold Stretch.delivery deliveryStmt
      rw [hq]
      dsimp only
      rw [hdelivery]
      refine alike_pure (.next (h.mono fun x hx => ?_))
      rw [Option.bind_some, SuspensionPoint.delivered?, hdelivery] at hx
      cases hx
    | some delivery =>
      obtain ⟨hcarries, hawaits⟩ :=
        d.twin.left.carries_of_delivery hpoint (Option.isSome_of_mem hdelivery)
      have hstmt : ∀ l : SlotLayout, (st.delivery l).1 = some (deliveryTo q.span
          (.taskValue ⟨q.valueTy, q.span⟩ (l.awaits q.index) q.kind.mode)
            (l.place delivery.target)) := by
        intro l
        unfold Stretch.delivery
        rw [hq]
        exact (deliveryStmt_eq hdelivery hcarries hawaits .none).1
      have hindex := d.twin.left.index_eq hj
      have hroles := d.twin.left.sameRole_awaits d.twin.right hj
      have hlength := d.twin.left.length_awaits hj
      rw [← hindex] at hroles hlength
      rw [hstmt, hstmt, Option.toList_some, Option.toList_some,
        execBlock_singleton, execBlock_singleton, exec_deliveryTo _ _ _ rfl,
        exec_deliveryTo _ _ _ rfl]
      -- The value is that of the tasks, which are done where nothing may go wrong.
      have hvalue : Alike
          (eval d.left call f (.taskValue ⟨q.valueTy, q.span⟩
            (d.left.machine.layout.awaits q.index) q.kind.mode)) s
          (eval d.right call' f' (.taskValue ⟨q.valueTy, q.span⟩
            (d.right.machine.layout.awaits q.index) q.kind.mode)) t
          (fun v v' s' t' => v = v' ∧ d.Linked known f f' s' t') d.Stops := by
        unfold eval
        refine (alike_taskSlots h.world hroles).bind ?_
        rintro ids _ _ _ ⟨rfl, rfl, rfl, hids⟩
        refine alike_get_bind ?_
        rw [h.world.tasks_eq]
        refine concur_of_silent (Run.inStep_require _ fun hnone hstrict => ?_)
          (Run.silent_require _ _) (Run.silent_require _ _) h
        obtain ⟨others, hothers, hall⟩ := hdone hstrict q hq hawaits
        obtain rfl : others = ids := by
          have hmap := hothers.symm.trans hids
          exact (List.map_injective_iff.mpr fun a b heq => by cases heq; rfl) hmap
        have hcount : others.length = q.kind.awaited.length := by
          have hsame := congrArg List.length hids
          rw [List.length_map, List.length_map, hlength] at hsame
          exact hsame.symm
        obtain ⟨v, hv, -⟩ := awaitedValue_of_done hawaits hcount hall
        rw [hnone] at hv
        cases hv
      refine hvalue.bind ?_
      rintro v _ s' t' ⟨rfl, h'⟩
      refine (alike_writePlace h' (sound_target hpoint hdelivery) v).bind
        fun g g' s'' t'' linked => ?_
      refine alike_pure (.next (linked.mono fun x hx => Or.inr ?_))
      rw [Option.bind_some, SuspensionPoint.delivered?, hdelivery, Option.bind_some] at hx
      exact delivery.target_of_local? hx

/-- **What a segment needs from before, and what was delivered to it**, is known when its
statements begin. -/
theorem linked_introduced
    (h : d.Linked (fun x => st.opening.bind SuspensionPoint.delivered? = some x) f f' s t) :
    d.Linked (d.twin.left.Given k st) (d.left.introduced
      (st.introductions d.left.machine.layout) f)
      (d.right.introduced (st.introductions d.right.machine.layout) f') s t := by
  have hst' : (cut d.twin.p.stmts d.twin.right.points)[k]? = some st :=
    d.twin.left.points_eq d.twin.right ▸ hst
  refine ⟨h.world, h.params, fun hsame => ?_, h.present, fun x hx => ?_⟩
  · have hdefault : d.right.defaultLocal = d.left.defaultLocal := by
      unfold Site.defaultLocal
      rw [hsame]
    rw [h.same hsame, hsame]
    unfold Site.introduced
    rw [hdefault]
  · rcases hx with hneeds | hdelivered
    · refine Or.inl
        ⟨d.twin.left.isSome_local?_of_needs d.twin.tree hst d.twin.blocks.declared hneeds, ?_⟩
      refine d.twin.right.isSome_local?_of_needs d.twin.tree hst' d.twin.blocks.declared
        ⟨?_, hneeds.read, hneeds.undelivered⟩
      have hintroduced := hneeds.introduced
      unfold Lowered.before at hintroduced ⊢
      rw [← d.twin.left.points_eq d.twin.right]
      exact hintroduced
    · have hkept : ∀ {site : Site} {mode names} (b : Lowered mode names d.twin.p site.machine)
          (_ : (cut d.twin.p.stmts b.points)[k]? = some st) (s : HostState) (f : Frame),
          site.content? s (site.introduced (st.introductions site.machine.layout) f)
              (site.machine.layout.place (.localVar x)) =
            site.content? s f (site.machine.layout.place (.localVar x)) := by
        intro site mode names b hst s f
        refine content?_introduced fun id hid => ?_
        cases hslot : site.machine.layout.local? x with
        | some slot =>
          rw [SlotLayout.place_local hslot] at hid
          cases hid
        | none =>
          rw [SlotLayout.place_local_of_none hslot] at hid
          obtain rfl := Machine.Place.localVar.inj hid
          exact b.not_mem_introductions hst hdelivered hslot
      refine (h.known x hdelivered).imp_right ?_
      rintro ⟨v, hv, hv'⟩
      exact ⟨v, (hkept d.twin.left hst s f).trans hv,
        (hkept d.twin.right hst' t f').trans hv'⟩

section

variable (hq : st.closing = some q)

include hq

/-- What the operands of the suspension that closes a stretch find. -/
theorem sound_closing :
    ∀ e ∈ q.kind.operands, e.Sound (licence strict d.left.machine d.right.machine)
      (afterAll (d.twin.left.Given k st) st.stmts) := fun _ he =>
  d.twin.left.sound_operand d.twin.tree d.twin.covers d.twin.blocks hst hq he
    (d.twin.left.exprStrays_operand d.twin.tree hst hq he)

theorem point_of_closing : d.twin.left.points[k]? = some q :=
  (d.twin.left.closing_eq d.twin.tree hst).symm.trans hq

end

variable (hcall : d.CallsInStep call call')

include hcall

/-- **The stores of a segment.** -/
theorem proceed_stores (f f' : Frame) :
    d.Proceed false (afterAll (d.twin.left.Given k st) st.stmts)
      (afterAll (d.twin.left.Given k st) st.stmts) f f'
      (execBlock d.left call fuel (st.stores d.left.machine.layout) f)
      (execBlock d.right call' fuel (st.stores d.right.machine.layout) f') := by
  unfold Stretch.stores
  cases hq : st.closing with
  | none => exact proceed_next
  | some q =>
    have hpoint := point_of_closing hst hq
    have hpoint' : d.twin.right.points[k]? = some q :=
      d.twin.left.points_eq d.twin.right ▸ hpoint
    dsimp only
    unfold taskStores
    rw [d.twin.left.index_eq hpoint]
    refine proceed_taskStores (i := k) hcall
      (List.forall₂_iff_get.mpr ⟨?_, fun j hj hj' => ⟨j, ?_, ?_⟩⟩)
      (fun e he => sound_closing hst hq e (SuspensionKind.mem_operands_of_awaited he)) f f'
    · exact (d.twin.left.length_awaits hpoint).trans (d.twin.right.length_awaits hpoint').symm
    · exact d.twin.left.role?_awaits hpoint (List.getElem?_eq_getElem hj)
    · exact d.twin.right.role?_awaits hpoint' (List.getElem?_eq_getElem hj')

/-- **The end of an arm**: the next state and a request, or the end of the activation. -/
theorem proceed_armEnd (f f' : Frame) :
    d.Proceed false (afterAll (d.twin.left.Given k st) st.stmts)
      (afterAll (d.twin.left.Given k st) st.stmts) f f'
      (execBlock d.left call fuel (d.ending d.left.machine k st) f)
      (execBlock d.right call' fuel (d.ending d.right.machine k st) f') := by
  have hexit : ∀ l : SlotLayout, (st.segment l k).exit =
      st.closing.map fun q => ⟨q.index, resumptionOf l q⟩ := fun _ => rfl
  unfold ending armEnd
  rw [hexit, hexit]
  cases hq : st.closing with
  | none =>
    dsimp only [Option.map_none]
    rw [execBlock_singleton, execBlock_singleton]
    exact proceed_finish .succeeded none
  | some q =>
    dsimp only [Option.map_some]
    rw [execBlock_cons, execBlock_cons]
    refine Proceed.andThen ?_ (fun _ hx => hx) fun g g' => ?_
    · unfold exec
      intro s t h
      refine (alike_writeBook h (d.twin.left.sameRole_state d.twin.right)
        (fun origin heq => ?_) _).bind fun _ _ s' t' h' => alike_pure (.next h')
      have hrole := Lowered.role?_of_exists d.twin.left.laidOut.role_state
      cases hrole.symm.trans heq
    · rw [execBlock_cons, execBlock_cons]
      refine (proceed_schedule d.twin.p.span (concur_dueOf hcall
        (List.mem_of_getElem? (point_of_closing hst hq)) (sound_closing hst hq))).andThen
          (fun _ hx => hx)
        fun _ _ _ _ h => ?_
      exact alike_pure (.ret .unit h.world)

/-- The code of a segment that the source wrote, with the end of its arm. -/
theorem proceed_userCode (f f' : Frame) :
    d.Proceed false (d.twin.left.Given k st) (afterAll (d.twin.left.Given k st) st.stmts) f f'
      (execBlock d.left call fuel (st.userCode d.left.machine.layout ++
        d.ending d.left.machine k st) f)
      (execBlock d.right call' fuel (st.userCode d.right.machine.layout ++
        d.ending d.right.machine k st) f') := by
  have hsound := d.twin.left.soundBlock d.twin.tree d.twin.covers d.twin.blocks hst
  unfold Stretch.userCode
  rw [List.append_assoc, List.append_assoc, execBlock_append,
    execBlock_append, execBlock_topStmts, execBlock_topStmts]
  refine (proceed_execBlock fuel hcall false st.stmts hsound f f').andThen
    (fun _ => Or.inl) fun g g' => ?_
  rw [execBlock_append, execBlock_append]
  exact (proceed_stores hst hcall g g').andThen (fun _ hx => hx) fun g g' =>
    proceed_armEnd hst hcall g g'

/-- **Segments run in step.** -/
theorem alike_segment (h : d.Linked (fun _ => False) f f' s t)
    (hdone : strict → ∀ q, st.opening = some q → q.kind.awaitsTasks = true →
      ∃ ids : List TaskId, (d.left.machine.layout.awaits q.index).map (d.left.slotIn s) =
        (ids.map fun id => some (.task id)) ∧ s.tasks.done ids q.kind.mode = true) :
    Alike (execBlock d.left call fuel ((st.segment d.left.machine.layout k).body ++
      d.ending d.left.machine k st) f) s
      (execBlock d.right call' fuel ((st.segment d.right.machine.layout k).body ++
        d.ending d.right.machine k st) f') t
      (d.Arrives false (fun _ => False) fun _ => False) d.Stops := by
  rw [st.segment_body, st.segment_body, List.append_assoc,
    List.append_assoc, List.append_assoc, List.append_assoc,
    execBlock_append, execBlock_append]
  refine alike_andThen (alike_delivery hst h hdone) (fun _ hx => hx.elim) fun g g' s t h => ?_
  rw [execBlock_append, execBlock_append]
  refine (returns_introductions _).alike_bind (returns_introductions _) ?_
  -- From here on the statements of the source run, with what the segment was given.
  refine (proceed_userCode hst hcall _ _ (linked_introduced hst h)).mono
    (fun _ _ _ _ harrives => ?_) fun _ _ _ hstops => hstops
  exact harrives.mono (fun _ => Or.inr) fun _ hx => hx.elim

/-- **Arms run in step.** -/
theorem proceed_arm (f f' : Frame) : d.Proceed false (fun _ => False) (fun _ => False) f f'
      (execBlock d.left call fuel
        (armOf d.twin.p.span d.left.machine.layout d.left.machine.dispatch.name
        (if k = 0 then none else d.twin.left.segments[k - 1]?)
          (st.segment d.left.machine.layout k)).body f)
      (execBlock d.right call' fuel
        (armOf d.twin.p.span d.right.machine.layout d.right.machine.dispatch.name
        (if k = 0 then none else d.twin.right.segments[k - 1]?)
          (st.segment d.right.machine.layout k)).body f') := by
  have hbody : ∀ {site : Site} {mode names} (b : Lowered mode names d.twin.p site.machine),
      (armOf d.twin.p.span site.machine.layout site.machine.dispatch.name
        (if k = 0 then none else b.segments[k - 1]?)
          (st.segment site.machine.layout k)).body =
      (site.machine.layout.cancel.map (cancelCheck d.twin.p.span)).toList ++
        (((b.awaitedBefore k).map fun awaited =>
            awaitGuard d.twin.p.span site.machine.dispatch.name awaited.1 awaited.2).toList ++
          ((st.segment site.machine.layout k).body ++ d.ending site.machine k st)) := by
    intro site mode names b
    unfold armOf Machine.Arm.body Lowered.awaitedBefore
    simp only [List.append_assoc]
  rw [hbody d.twin.left, hbody d.twin.right, execBlock_append, execBlock_append]
  refine (proceed_cancelCheck d.twin.p.span).andThen (fun _ hx => hx) fun g g' s t h => ?_
  cases k with
  | zero =>
    refine alike_segment hst hcall h fun _ q hq => ?_
    obtain ⟨_, hzero, -⟩ := d.twin.left.point_of_opening hst hq
    cases hzero
  | succ j =>
    have hpoints := d.twin.left.points_eq d.twin.right
    rw [d.twin.left.awaitedBefore_succ d.twin.tree,
      d.twin.right.awaitedBefore_succ d.twin.tree, ← hpoints]
    have hopening : st.opening = d.twin.left.points[j]? := (d.twin.left.sliced.between hst).1
    cases hq : d.twin.left.points[j]? with
    | none =>
      refine alike_segment hst hcall h fun _ q hq' => ?_
      rw [hopening, hq] at hq'
      cases hq'
    | some q =>
      rw [hq] at hopening
      rw [Option.bind_some, Option.bind_some]
      cases hawaits : q.kind.awaitsTasks with
      | false =>
        refine alike_segment hst hcall h fun _ q' hq' hawaits' => ?_
        obtain rfl := Option.some.inj (hopening.symm.trans hq')
        rw [hawaits] at hawaits'
        cases hawaits'
      | true =>
        refine alike_awaitGuard h (d.twin.left.sameRole_awaits d.twin.right hq) d.twin.p.span
          fun ids hids hall => alike_segment hst hcall h fun _ q' hq' _ => ⟨ids, ?_, ?_⟩
        · obtain rfl := Option.some.inj (hopening.symm.trans hq')
          rw [d.twin.left.index_eq hq]
          exact hids
        · obtain rfl := Option.some.inj (hopening.symm.trans hq')
          exact hall

end

/-! ### Dispatches -/

/-- What a body that was left the same way returns.  Outside loops nothing leaves a loop. -/
theorem Arrives.returned {r r' : Flow × Frame} (h : d.Arrives false known next r r' s t) :
    Alike (returned r.1) s (returned r'.1) t
      (fun v v' s' t' => v = v' ∧ d.World s' t') d.Stops := by
  rcases h with ⟨linked⟩ | ⟨inside, -⟩ | ⟨inside, -⟩ | ⟨v, world⟩ | ⟨world⟩
  · exact alike_pure ⟨rfl, linked.world⟩
  · cases inside
  · cases inside
  · exact alike_pure ⟨rfl, world⟩
  · exact alike_pure ⟨rfl, world⟩

section

variable (hcall : d.CallsInStep call call')

include hcall

/-- The switch selects the same arm. -/
theorem proceed_execArm (state : Int64) (f f' : Frame) :
    d.Proceed false (fun _ => False) (fun _ => False) f f'
      (execArm d.left call fuel
        (armsFrom d.twin.p.span d.left.machine.layout d.left.machine.dispatch.name none
        d.twin.left.segments) state f) (execArm d.right call' fuel
          (armsFrom d.twin.p.span d.right.machine.layout
        d.right.machine.dispatch.name none d.twin.right.segments) state f') := by
  have hindex : ∀ {mode names m} (b : Lowered mode names d.twin.p m) k seg,
      b.segments[k]? = some seg → seg.index = 0 + k := fun b k seg hk => by
    rw [(b.exit_eq hk).1, Nat.zero_add]
  have hlength : d.twin.right.segments.length = d.twin.left.segments.length := by
    rw [d.twin.left.length_segments, d.twin.right.length_segments,
      d.twin.left.points_eq d.twin.right]
  by_cases hstate : ∃ k : Nat, k < d.twin.left.segments.length ∧ state.toInt = k
  · obtain ⟨k, hk, hstate⟩ := hstate
    have hsegment : ∀ {site : Site} {mode names}
      (b : Lowered mode names d.twin.p site.machine) (st : Stretch),
        (cut d.twin.p.stmts b.points)[k]? = some st →
        b.segments[k]? = some (st.segment site.machine.layout k) := by
      intro site mode names b st hst
      rw [b.segments_getElem?, hst]
      rfl
    rw [d.twin.left.length_segments] at hk
    obtain ⟨st, hst⟩ := d.twin.left.exists_stretch (Nat.le_of_lt_succ hk)
    have hst' : (cut d.twin.p.stmts d.twin.right.points)[k]? = some st :=
      d.twin.left.points_eq d.twin.right ▸ hst
    have hzero : state.toInt = (0 + k : Nat) := by rw [hstate, Nat.zero_add]
    rw [execArm_armsFrom 0 (hindex d.twin.left) (hsegment d.twin.left st hst) hzero,
      execArm_armsFrom 0 (hindex d.twin.right) (hsegment d.twin.right st hst') hzero]
    exact proceed_arm hst hcall f f'
  · have hnone : ∀ {mode names m} (b : Lowered mode names d.twin.p m),
        b.segments.length = d.twin.left.segments.length →
        ∀ seg ∈ b.segments, (seg.index : Int) ≠ state.toInt := by
      intro mode names m b hlen seg hseg heq
      obtain ⟨k, hk⟩ := List.getElem?_of_mem hseg
      refine hstate ⟨k, hlen ▸ (List.getElem?_eq_some_iff.mp hk).1, ?_⟩
      rw [← heq, hindex b k seg hk, Nat.zero_add]
    rw [execArm_armsFrom_of_ne (hnone d.twin.left rfl),
      execArm_armsFrom_of_ne (hnone d.twin.right hlength)]
    exact proceed_next

/-- **Dispatches leave their bodies the same way.** -/
theorem alike_dispatchBody (h : d.World s t) :
    Alike (execBlock d.left call fuel d.left.machine.dispatch.body ⟨[], .empty⟩) s
      (execBlock d.right call' fuel d.right.machine.dispatch.body ⟨[], .empty⟩) t
      (d.Arrives false (fun _ => False) fun _ => False) d.Stops := by
  have hunfold : ∀ (site : Site) (call : Caller) (segs : List Segment),
      execBlock site call fuel
          (dispatchBody d.twin.p.span segs site.machine.layout site.machine.dispatch.name)
            ⟨[], .empty⟩ =
        site.readSlot site.machine.statusSlot >>= fun v =>
          Run.ofExcept (binaryOp .ne v (.int TaskStatus.running.code)) >>= fun ended =>
          Run.expectBool ended >>= fun ended =>
            if ended then pure (.ret .unit, ⟨[], .empty⟩) else
              site.readSlot site.machine.stateSlot >>= fun v =>
                Run.expectInt v >>= fun state =>
                execArm site call fuel (armsFrom d.twin.p.span site.machine.layout
                  site.machine.dispatch.name none segs) state ⟨[], .empty⟩ := by
    intro site call segs
    unfold dispatchBody statusGuard
    rw [execBlock_cons, exec, eval, eval, statusCode, eval]
    · simp only [bind_assoc, pure_bind]
      refine congrArg _ (funext fun v => congrArg _
        (funext fun ended => congrArg _ (funext fun ended => ?_)))
      cases ended with
      | true => rfl
      | false =>
        rw [if_neg Bool.false_ne_true, if_neg Bool.false_ne_true, execBlock, pure_bind]
        show execBlock site call fuel [_] _ = _
        rw [execBlock_singleton, exec]
        rfl
    · simp
    · simp
  rw [d.twin.left.dispatch_eq, d.twin.right.dispatch_eq, hunfold, hunfold]
  refine (alike_readSlot h (d.twin.left.sameRole_status d.twin.right)).bind ?_
  rintro v _ s t ⟨rfl, rfl, rfl, hv, -⟩
  have hpresent : (d.left.slotsIn s).isSome := by
    obtain ⟨st, hst, -⟩ := Option.bind_eq_some_iff.mp hv
    exact Option.isSome_of_mem hst
  have hlinked : d.Linked (fun _ => False) ⟨[], .empty⟩ ⟨[], .empty⟩ s t :=
    ⟨h, rfl, fun _ => rfl, Or.inr hpresent, fun _ hx => hx.elim⟩
  refine Concur.proceed (concur_ofExcept fun _ => isStructural_binaryOp)
    (fun ended => ?_) hlinked
  refine Concur.proceed (concur_expect rfl _) fun ended => proceed_ite ?_ ?_
  · exact fun _ _ h => alike_pure (.ret .unit h.world)
  · refine Concur.proceed (concur_of_silent
      (inStep_readSlot (d.twin.left.sameRole_state d.twin.right))
      (Site.silent_readSlot _) (Site.silent_readSlot _)) fun v => ?_
    exact Concur.proceed (concur_expect rfl _) fun state => proceed_execArm hcall state _ _

/-- **Dispatches run in step.** -/
theorem inStep_dispatch : InStep d.World (Tolerable strict)
      (execBlock d.left call fuel d.left.machine.dispatch.body ⟨[], .empty⟩ >>= fun x =>
        returned x.1)
      (execBlock d.right call' fuel d.right.machine.dispatch.body ⟨[], .empty⟩ >>= fun x =>
        returned x.1) :=
  fun _ _ h => (alike_dispatchBody hcall h).bind fun _ _ _ _ harrives => harrives.returned

end

/-! ### Entries -/

/-- The store of an argument, and what follows it. -/
theorem execBlock_storeSlot_param (site : Site) (call : Caller) (fuel : Nat) (span : Span)
    (slot : SlotId) (info : ExprInfo) (i : Nat) (rest : List Machine.Stmt) (f : Frame) :
    execBlock site call fuel (storeSlot span slot (.param info i) :: rest) f =
      Run.require (.missingParam i) f.params[i]? >>= fun v =>
        site.writeSlot slot v >>= fun _ =>
        execBlock site call fuel rest f := by
  rw [execBlock_cons]
  unfold storeSlot exec eval writePlace
  simp only [bind_assoc, pure_bind]
  rfl

theorem paramStore_of_param? (h : slot.role.param? = some i) :
    ∃ info, paramStore p slot = some (storeSlot p.span slot.id (.param info i)) := by
  unfold Role.param? at h
  split at h
  case h_2 => cases h
  case h_1 j hrole =>
    obtain rfl := Option.some.inj h
    unfold paramStore
    rw [hrole]
    exact ⟨_, rfl⟩

theorem paramStore_of_none (h : slot.role.param? = none) : paramStore p slot = none := by
  unfold paramStore
  split
  case h_1 i hrole =>
    rw [hrole] at h
    cases h
  case h_2 => rfl

/-- **The arguments are stored in slots with the same roles**, by induction on the slots of
the first machine. -/
theorem inStep_paramStores {α : Type} {f : Frame} {k k' : Flow × Frame → Run α}
    (hrest : InStep d.World (Tolerable strict) (execBlock d.left call fuel rest f >>= k)
      (execBlock d.right call' fuel rest' f >>= k'))
    {slots slots' : List Slot} (hslots : ∀ slot ∈ slots, slot ∈ d.left.machine.slots)
    (hslots' : ∀ slot ∈ slots', slot ∈ d.right.machine.slots)
    (hparams : ∀ slot ∈ slots, ∀ i, slot.role.param? = some i → i < f.params.length)
    (heq : slots.filterMap (fun slot => slot.role.param?) = slots'.filterMap fun slot =>
      slot.role.param?) :
    InStep d.World (Tolerable strict) (execBlock d.left call fuel
      (slots.filterMap (paramStore p) ++ rest) f >>= k)
      (execBlock d.right call' fuel (slots'.filterMap (paramStore p) ++ rest') f >>= k') := by
  have hskip : ∀ slots : List Slot, (∀ slot ∈ slots, slot.role.param? = none) →
      slots.filterMap (paramStore p) = [] := fun slots hnone =>
    List.filterMap_eq_nil_iff.mpr fun slot hslot => paramStore_of_none (hnone slot hslot)
  induction slots generalizing slots' with
  | nil =>
    rw [hskip slots' (List.filterMap_eq_nil_iff.mp heq.symm)]
    exact hrest
  | cons slot others ih =>
    have hthere : ∀ slot ∈ others, slot ∈ d.left.machine.slots := fun slot hslot =>
      hslots slot (List.mem_cons_of_mem _ hslot)
    have hfound : ∀ slot ∈ others, ∀ i, slot.role.param? = some i → i < f.params.length :=
      fun slot hslot => hparams slot (List.mem_cons_of_mem _ hslot)
    cases hrole : slot.role.param? with
    | none =>
      rw [List.filterMap_cons_none (f := fun slot : Slot => slot.role.param?) hrole] at heq
      rw [List.filterMap_cons_none (paramStore_of_none hrole)]
      exact ih hthere hslots' hfound heq
    | some i =>
      rw [List.filterMap_cons_some (f := fun slot : Slot => slot.role.param?) hrole] at heq
      obtain ⟨before, slot', after, rfl, hnone, hrole', hafter⟩ :=
        List.filterMap_eq_cons_iff.mp heq.symm
      obtain ⟨info, hstore⟩ := paramStore_of_param? (p := p) hrole
      obtain ⟨info', hstore'⟩ := paramStore_of_param? (p := p) hrole'
      have hmem' : slot' ∈ d.right.machine.slots :=
        hslots' slot' (List.mem_append_right _ List.mem_cons_self)
      rw [List.filterMap_append, hskip before hnone, List.nil_append,
        List.filterMap_cons_some hstore, List.filterMap_cons_some hstore',
        List.cons_append, List.cons_append,
        execBlock_storeSlot_param, execBlock_storeSlot_param]
      simp only [bind_assoc]
      refine InStep.bind (Run.inStep_require _ fun hmissing _ => ?_) fun v => ?_
      · rw [List.getElem?_eq_none_iff] at hmissing
        exact absurd (hparams slot List.mem_cons_self i hrole) (Nat.not_lt.mpr hmissing)
      · have hsame : slot.role = slot'.role := by
          unfold Role.param? at hrole hrole'
          split at hrole
          case h_2 => cases hrole
          case h_1 j hj =>
            split at hrole'
            case h_2 => cases hrole'
            case h_1 j' hj' => rw [hj, hj', Option.some.inj hrole, Option.some.inj hrole']
        have hroles : SameRole d.left.machine d.right.machine slot.id slot'.id :=
          ⟨slot.role, d.twin.left.role?_of_mem (hslots slot List.mem_cons_self),
            hsame ▸ d.twin.right.role?_of_mem hmem'⟩
        refine (inStep_writeSlot hroles v).bind fun _ => ?_
        exact ih hthere
          (fun slot hslot =>
            hslots' slot (List.mem_append_right _ (List.mem_cons_of_mem _ hslot)))
          hfound hafter.symm

/-- **Entries run in step.** -/
theorem inStep_entry (hcall : d.CallsInStep call call') {args : List Value}
    (hargs : args.length = d.left.machine.params.length) : InStep d.World (Tolerable strict)
      ((startActivation d.left >>= fun _ =>
        execBlock d.left call fuel d.left.machine.entry.body
        ⟨args, .empty⟩) >>= fun x => returned x.1)
      ((startActivation d.right >>= fun _ =>
        execBlock d.right call' fuel d.right.machine.entry.body
        ⟨args, .empty⟩) >>= fun x => returned x.1) := by
  have hend : ∀ (site : Site) (call : Caller) (f : Frame),
      (execBlock site call fuel [.invoke d.twin.p.span site.machine.dispatch.name,
        .returnTask d.twin.p.span] f >>= fun x => returned x.1) =
      call (procIndex site.index .dispatch) site.owner [] >>= fun _ =>
        site.storage >>= fun st =>
        pure ((st.task.map Value.task).getD .unit) := by
    intro site call f
    have hown : site.ownDispatch site.machine.dispatch.name =
      pure (procIndex site.index .dispatch) :=
      if_pos rfl
    rw [execBlock_cons, exec, hown]
    simp only [pure_bind, bind_assoc]
    refine congrArg _ (funext fun _ => ?_)
    show execBlock site call fuel [_] f >>= _ = _
    rw [execBlock_singleton, exec, bind_assoc]
    rfl
  rw [Upkeep.startActivation_entry d.twin.left, Upkeep.startActivation_entry d.twin.right,
    bind_assoc, bind_assoc]
  refine inStep_activate.bind fun _ => ?_
  refine inStep_paramStores ?_ (fun _ h => h) (fun _ h => h) (fun slot hslot i hi => ?_) ?_
  · rw [hend, hend, d.index, d.owner]
    refine (hcall _ _ _).bind fun _ => ?_
    intro s t h
    refine (alike_storage h).bind ?_
    rintro st st' _ _ ⟨rfl, rfl, -, -, hmatch, -⟩
    rw [hmatch.task]
    exact alike_pure ⟨rfl, h⟩
  · show i < args.length
    rw [hargs]
    exact d.twin.left.lt_of_param_role hslot hi
  · exact d.twin.left.filterMap_param?.trans d.twin.right.filterMap_param?.symm

/-! ### Closures -/

/-- **The code of closures**, with the frames that they copied. -/
theorem alike_closure (hcall : d.CallsInStep call call') {body : List Stmt}
    (sound : Bound.SoundBlock (licence strict d.left.machine d.right.machine)
      false known body)
    (hparams : f.params = f'.params) (hsame : d.left.machine = d.right.machine → f = f')
    (hknown : ∀ x, known x → Captured d.left.machine d.right.machine f.locals f'.locals x)
    (h : d.World s t)
    (howner : d.left.machine = d.right.machine ∨ d.left.owner < s.instances.size) :
    Alike (execBlock d.left call fuel (slottedBlock d.left.machine.layout true body) f >>=
      fun x => returned x.1) s
      (execBlock d.right call' fuel (slottedBlock d.right.machine.layout true body) f' >>=
        fun x => returned x.1) t
      (fun v v' s' t' => v = v' ∧ d.World s' t') d.Stops := by
  have hlinked : d.Linked known f f' s t := by
    refine ⟨h, hparams, hsame, howner.imp_right fun hlt => ?_, fun x hx =>
      (hknown x hx).imp_right ?_⟩
    · rw [Site.slotsIn, HostState.storage?, Option.isSome_map, isSome_getElem?]
      exact hlt
    · rintro ⟨v, hslot, hslot', hv, hv'⟩
      refine ⟨v, ?_, ?_⟩
      · rw [SlotLayout.place_local_of_none hslot]
        exact hv
      · rw [SlotLayout.place_local_of_none hslot']
        exact hv'
  exact (proceed_execBlock fuel hcall true body sound f f' hlinked).bind
    fun _ _ _ _ harrives => harrives.returned

end Duet

/-! ### Procedures and closures -/

section

variable {P Q : Array Program}

/-- The duet of two programs at the same position. -/
def Twins.duet (h : Twins strict P Q) (names : NameTable) {k : Nat}
    {program program' : Program} (hk : P[k]? = some program) (hk' : Q[k]? = some program')
    (w : Twin strict program.machine program'.machine) (owner : InstanceId) :
    Duet strict where
  left := ⟨⟨P, names⟩, k, program, owner⟩
  right := ⟨⟨Q, names⟩, k, program', owner⟩
  twin := w
  index := rfl
  owner := rfl
  names := rfl
  procedures := funext fun name => (procedure?_of_labels h.labels names name).symm
  loaded := hk
  loaded' := hk'

theorem Twins.proc?_eq (h : Twins strict P Q) (names : NameTable) (index : ProcIndex) :
    ((Image.mk P names).proc? index = none ∧ (Image.mk Q names).proc? index = none) ∨
      ∃ k program program' role, (Image.mk P names).proc? index = some (k, program, role) ∧
        (Image.mk Q names).proc? index = some (k, program', role) := by
  unfold Image.proc?
  cases hk : P[index / 2]? with
  | none => exact Or.inl ⟨rfl, by rw [h.eq_none hk]; rfl⟩
  | some program =>
    obtain ⟨program', hk'⟩ := h.exists_right hk
    exact Or.inr ⟨_, program, program', _, rfl, by rw [hk']; rfl⟩

/-- **Procedures of hosts that are abreast run in step**, by induction on
the depth of calls. -/
theorem inStep_runProcedure (h : Twins strict P Q) (fuel : Nat) (index : ProcIndex)
    (owner : InstanceId) (args : List Value) :
    InStep (Abreast strict P Q) (Tolerable strict)
      (runProcedure ⟨P, names⟩ fuel index owner args)
      (runProcedure ⟨Q, names⟩ fuel index owner args) := by
  induction fuel generalizing index owner args with
  | zero => exact inStep_throw fun _ => rfl
  | succ fuel ih =>
    rcases h.proc?_eq names index with
      ⟨hnone, hnone'⟩ | ⟨k, program, program', role, hproc, hproc'⟩
    · rw [runProcedure_unknown hnone, runProcedure_unknown hnone']
      exact Run.inStep_fail fun _ => rfl
    · obtain ⟨hk, rfl⟩ := procIndex_of_proc? hproc
      obtain ⟨hk', -⟩ := procIndex_of_proc? hproc'
      obtain ⟨hname, ⟨w⟩⟩ := h.twin k program program' hk hk'
      have harity : (program'.code role).2 = (program.code role).2 := by
        cases role with
        | dispatch => rfl
        | entry => exact congrArg List.length w.params_eq.symm
      by_cases hargs : args.length = (program.code role).2
      case neg =>
        rw [runProcedure_arity hproc hargs, runProcedure_arity hproc' (harity ▸ hargs),
          harity, hname]
        exact Run.inStep_fail fun _ => rfl
      case pos =>
        have hcall : (h.duet names hk hk' w owner).CallsInStep (runProcedure ⟨P, names⟩ fuel)
            (runProcedure ⟨Q, names⟩ fuel) := ih
        cases role with
        | dispatch =>
          obtain rfl := List.length_eq_zero_iff.mp hargs
          rw [runProcedure_dispatch hk, runProcedure_dispatch hk']
          exact Duet.inStep_dispatch hcall
        | entry =>
          rw [runProcedure_entry hk fuel owner hargs,
            runProcedure_entry hk' fuel owner (hargs.trans harity.symm),
            ← bind_assoc, ← bind_assoc]
          exact Duet.inStep_entry hcall hargs

/-- **Closures run in step**, since both hosts made them of the same code. -/
theorem inStep_runClosure (h : Twins strict P Q) (fuel : Nat) (id : ClosureId) :
    InStep (Abreast strict P Q) (Tolerable strict) (runClosure ⟨P, names⟩ fuel id)
      (runClosure ⟨Q, names⟩ fuel id) := by
  intro s t hst
  unfold runClosure
  refine alike_get_bind ?_
  cases hc : s.closures[id]? with
  | none =>
    have hc' : t.closures[id]? = none := by
      rw [Array.getElem?_eq_none_iff] at hc ⊢
      exact hst.closed.size ▸ hc
    rw [hc']
    exact Run.inStep_fail (fun _ => rfl) hst
  | some c =>
    have hlt := (Array.getElem?_eq_some_iff.mp hc).1
    rw [hst.closed.size] at hlt
    obtain ⟨common, program, program', known, body, hk, hk', hbody, hbody', sound,
      hsame, howner, hknown⟩ :=
      hst.closed.each id c _ hc (Array.getElem?_eq_getElem hlt)
    obtain ⟨-, ⟨w⟩⟩ := h.twin _ program program' hk hk'
    have hcall : (h.duet names hk hk' w c.owner).CallsInStep (runProcedure ⟨P, names⟩ fuel)
        (runProcedure ⟨Q, names⟩ fuel) :=
          fun index owner args => inStep_runProcedure h fuel index owner args
    rw [Array.getElem?_eq_getElem hlt, common]
    simp only [hk, hk', hbody, hbody']
    exact Duet.alike_closure (f := ⟨c.params, c.locals⟩) hcall sound rfl
      (fun heq => congrArg (Frame.mk c.params) (hsame heq)) hknown hst howner

end

/-! ### Operations -/

/-- **Operations keep hosts abreast.** -/
def Tandem.abreast (strict : Prop) : Tandem where
  halts := Tolerable strict
  functions answer := strict → Benign answer
  machines m n := Nonempty (Twin strict m n) ∧ m.violations = n.violations
  programs := Twins strict
  states := Abreast strict
  tolerates _ hplain _ := hplain
  labels h := h.labels
  common h := h.common
  size h := h.size
  reschedules h _ := h.keep rfl rfl (by rw [h.common]) rfl rfl rfl
  retokens h _ := h.keep rfl rfl (by rw [h.common]) rfl rfl rfl
  completes h _ := h.keep rfl rfl (by rw [h.common]) rfl rfl rfl
  registers h name answer allowed := by
    refine h.reassign rfl rfl (by rw [h.common]) h.closed fun hstrict other r hr => ?_
    have hget : (HostState.functions _ |>.insert name ⟨answer, []⟩).get? other = some r := hr
    rw [Bindings.get?_insert] at hget
    split at hget
    · obtain rfl := Option.some.inj hget
      exact allowed hstrict
    · exact h.benign hstrict other r hget
  fields h owner name v := h.putField owner name v
  spawns hpq h := h.spawn hpq
  checks := fun ⟨⟨w⟩, hviolations⟩ => ⟨hviolations, w.labels⟩
  loads hpq := fun ⟨⟨w⟩, _⟩ name => ⟨hpq.push rfl ⟨w⟩, fun h => h.load hpq w⟩
  runs hpq _ fuel index owner args := inStep_runProcedure hpq fuel index owner args
  closures hpq _ fuel id := inStep_runClosure hpq fuel id

end Resumable
