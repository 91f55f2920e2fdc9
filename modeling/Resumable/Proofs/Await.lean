import Resumable.Proofs.Arm

/-!
# Awaited tasks

**A dispatch goes past a wait for tasks only when the tasks are done, and then delivers their
outcome first.**  Three parts of lowering have to agree on this: the stores before a
suspension, the guard after it, and the delivery at the start of the next segment.  They agree
because all three take the slots and the mode from the point.

## Main definitions

* `AwaitedValue`: what a point delivers, told by the outcomes of its tasks.
* `Site.content?`, `Site.deliver`: what a place holds, and the state in which a value
  was written to it.
* `Stretch.introductions`, `Stretch.userCode`: the parts of a segment after its delivery.
* `AwaitStep`: a dispatch in the state after a point that awaits tasks.

## Main statements

* `dispatch_awaits`: every dispatch in such a state is such a step.

## Design notes

The delivery may bind a local that lives for one run.  The segment then introduces other
locals of that kind before its first statement, and `Usage.Settled` is what keeps these
introductions away from the local that holds the value.
-/

namespace Resumable

open Resumable.Bound (Procedure Stmt)
open Resumable.Machine (Expr Place SlotId TaskStatus)

variable {ids : List TaskId} {id : LocalId} {l : SlotLayout} {fuel i : Nat}
  {mode : LivenessMode} {p : Procedure} {state : Int64} {slots : List SlotId} {v : Value}
  {q : SuspensionPoint} {d : Delivery} {place : Place}

/-! ### Outcomes -/

/-- What one task delivers: its value, or the unit when it was cancelled. -/
def TaskTable.Outcome (tasks : TaskTable) (id : TaskId) (v : Value) : Prop :=
  ∃ t, tasks[id]? = some t ∧ (t.state = .succeeded v ∨ t.state = .cancelled ∧ v = .unit)

/-- **What a point delivers** once its tasks are done: the outcome of the one task waited for,
nothing for several, or the position of the first one that is done. -/
def AwaitedValue (tasks : TaskTable) (ids : List TaskId) (v : Value) : SuspensionKind → Prop
  | .delegate _ => ∃ id, ids = [id] ∧ tasks.Outcome id v
  | .joinAll _ => (∃ id, ids = [id] ∧ tasks.Outcome id v) ∨ ids.length ≠ 1 ∧ v = .unit
  | .joinAny _ => ∃ n id, v = .int (.ofNat n) ∧ ids[n]? = some id ∧ tasks.isDone id = true ∧
      ∀ (k : Nat) (earlier : TaskId), k < n → ids[k]? = some earlier →
      tasks.isDone earlier = false
  | .timedDelay _ | .frameDelay _ | .yieldStep => False

variable {tasks : TaskTable}

theorem TaskTable.joined?_of_isDone {id : TaskId} (h : tasks.isDone id = true) :
    ∃ v, tasks.joined? [id] .all = some v ∧ tasks.Outcome id v := by
  unfold TaskTable.isDone at h
  unfold TaskTable.joined?
  dsimp only
  cases ht : tasks[id]? with
  | none =>
    rw [ht] at h
    cases h
  | some t =>
    rw [ht] at h
    obtain ⟨state, kind⟩ := t
    cases state with
    | pending => cases h
    | succeeded v => exact ⟨v, rfl, _, ht, Or.inl rfl⟩
    | cancelled => exact ⟨.unit, rfl, _, ht, Or.inr ⟨rfl, rfl⟩⟩

theorem TaskTable.joined?_all (h : tasks.done ids .all = true) :
    ∃ v, tasks.joined? ids .all = some v ∧ ((∃ id, ids = [id] ∧ tasks.Outcome id v) ∨
      ids.length ≠ 1 ∧ v = .unit) := by
  match ids with
  | [] => exact ⟨.unit, rfl, Or.inr ⟨by simp, rfl⟩⟩
  | [id] =>
    have hdone : tasks.isDone id = true := by simpa [TaskTable.done] using h
    obtain ⟨v, hv, houtcome⟩ := TaskTable.joined?_of_isDone hdone
    exact ⟨v, hv, Or.inl ⟨id, rfl, houtcome⟩⟩
  | _ :: _ :: _ => exact ⟨.unit, if_pos h, Or.inr ⟨by simp, rfl⟩⟩

theorem TaskTable.joined?_any (h : tasks.done ids .any = true) :
    ∃ n id, tasks.joined? ids .any = some (.int (.ofNat n)) ∧ ids[n]? = some id ∧
      tasks.isDone id = true ∧
      ∀ (k : Nat) (earlier : TaskId), k < n → ids[k]? = some earlier →
      tasks.isDone earlier = false := by
  have hfound : (tasks.firstDone? ids).isSome = true := by
    rw [TaskTable.firstDone?, List.findIdx?_isSome]
    exact h
  obtain ⟨n, hn⟩ := Option.isSome_iff_exists.mp hfound
  obtain ⟨hlt, hdone, hearlier⟩ := List.findIdx?_eq_some_iff_getElem.mp hn
  refine ⟨n, ids[n], ?_, List.getElem?_eq_getElem hlt, hdone, fun k earlier hk heq => ?_⟩
  · unfold TaskTable.joined?
    rw [hn]
    rfl
  · obtain ⟨_, rfl⟩ := List.getElem?_eq_some_iff.mp heq
    simpa using hearlier k hk

/-- **A wait that is over has something to deliver.** -/
theorem awaitedValue_of_done {kind : SuspensionKind}
    (awaits : kind.awaitsTasks = true) (hlength : ids.length = kind.awaited.length)
    (h : tasks.done ids kind.mode = true) :
    ∃ v, tasks.joined? ids kind.mode = some v ∧ AwaitedValue tasks ids v kind := by
  cases kind with
  | timedDelay | frameDelay | yieldStep => cases awaits
  | joinAll operands => exact TaskTable.joined?_all h
  | joinAny operands =>
    obtain ⟨n, id, hjoined, hid, hdone, hearlier⟩ := TaskTable.joined?_any h
    exact ⟨_, hjoined, n, id, rfl, hid, hdone, hearlier⟩
  | delegate operand =>
    obtain ⟨v, hjoined, hone | ⟨hne, -⟩⟩ := TaskTable.joined?_all h
    · exact ⟨v, hjoined, hone⟩
    · exact absurd hlength hne

/-! ### Places -/

/-- What a place holds. -/
def Site.content? (site : Site) (s : HostState) (frame : Frame) : Place → Option Value
  | .slot k => site.slotIn s k
  | .field name => s.field? site.owner name
  | .localVar id => frame.locals.get? id
  | .param i => frame.params[i]?

/-- The state in which a value was written to a place, and nothing else was done.  Locals and
arguments are not part of the state. -/
def Site.deliver (site : Site) (s : HostState) (v : Value) : Place → HostState
  | .slot k =>
    match site.slotsIn s with
    | some st => site.put s { st with slots := st.slots.set k v }
    | none => s
  | .field name => s.putField site.owner name v
  | .localVar _ | .param _ => s

/-! ### The parts of a segment -/

/-- The locals that a segment introduces without a value before its first statement. -/
def Stretch.introductions (l : SlotLayout) (st : Stretch) : List LocalId :=
  ((topStmts l (st.delivery l).2 st.stmts).2.accessAll l (st.closingAccesses l)).undeclared

/-- The code of a segment that the source wrote: its statements, and the
operands it stores. -/
def Stretch.userCode (l : SlotLayout) (st : Stretch) : List Machine.Stmt :=
  (topStmts l (st.delivery l).2 st.stmts).1 ++ st.stores l

/-- A segment delivers, introduces, and runs the user's code. -/
theorem Stretch.segment_body (l : SlotLayout) (i : Nat) (st : Stretch) :
    (st.segment l i).body =
      (st.delivery l).1.toList ++ ((st.introductions l).map introduce ++ st.userCode l) := by
  unfold Stretch.segment Stretch.introductions Stretch.userCode
  simp only [List.append_assoc]

/-- **What stays so** when locals that live for one run are introduced or used. -/
structure Usage.Stays (l : SlotLayout) (I : Usage → Prop) : Prop where
  declare {u : Usage} (id : LocalId) (hu : I u) : I (u.declare id)
  touch {u : Usage} {id : LocalId} (free : ¬ (l.local? id).isSome) (hu : I u) : I (u.touch id)

namespace Usage.Stays

variable {I : Usage → Prop} {u : Usage} (h : Usage.Stays l I)

include h

theorem access (hu : I u) (a : Bound.Access) : I (u.access l a) := by
  unfold Usage.access
  cases a with
  | declare id =>
    dsimp only
    split
    case isTrue => exact hu
    case isFalse => exact h.declare id hu
  | readLocal id | writeLocal id =>
    dsimp only
    split
    case isTrue => exact hu
    case isFalse free => exact h.touch free hu
  | readParam | writeParam | suspend => exact hu

theorem accessAll (hu : I u) (accesses : List Bound.Access) : I (u.accessAll l accesses) := by
  unfold Usage.accessAll
  induction accesses generalizing u with
  | nil => exact hu
  | cons a rest ih => exact ih (h.access hu a)

theorem topStmts (hu : I u) (stmts : List Stmt) : I (topStmts l u stmts).2 := by
  induction stmts generalizing u with
  | nil => exact hu
  | cons s rest ih =>
    show I (topStmts l (topStmt l u s).2 rest).2
    refine ih ?_
    unfold topStmt
    split
    · exact h.declare _ (h.accessAll hu _)
    · exact h.accessAll hu _

end Usage.Stays

/-- The segment has introduced the local itself, so no introduction is put before it. -/
def Usage.Settled (id : LocalId) (u : Usage) : Prop := id ∈ u.declared ∧ id ∉ u.undeclared

theorem Usage.stays_settled (l : SlotLayout) (id : LocalId) :
    Usage.Stays l (Usage.Settled id) where
  declare _ hu := ⟨List.mem_cons_of_mem _ hu.1, hu.2⟩
  touch _ hu := by
    unfold Usage.touch
    split
    case isTrue => exact hu
    case isFalse hknown =>
      refine ⟨hu.1, fun hmem => ?_⟩
      rcases List.mem_append.mp hmem with hold | hnew
      · exact hu.2 hold
      · obtain rfl := List.mem_singleton.mp hnew
        exact hknown (by simp [Usage.knows, hu.1])

/-! ### Introductions -/

/-- A frame with locals introduced without a value. -/
def Site.introduced (site : Site) (ids : List LocalId) (frame : Frame) : Frame :=
  { frame with locals := ids.foldl (fun locals id =>
    locals.insert id (site.defaultLocal id)) frame.locals }

section

variable {site : Site} {call : Caller} {s s' : HostState} {frame : Frame}

/-- Introductions change the frame and nothing else. -/
theorem returns_introductions (ids : List LocalId) :
    Returns (execBlock site call fuel (ids.map introduce) frame) s
      (.next, site.introduced ids frame) s := by
  induction ids generalizing frame with
  | nil => exact returns_pure.mpr ⟨rfl, rfl⟩
  | cons id rest ih =>
    rw [List.map_cons, execBlock_cons]
    refine returns_bind.mpr ⟨(.next, site.introduced [id] frame), s, ?_, ih⟩
    exact returns_pure.mpr ⟨rfl, rfl⟩

theorem get?_introduced {ids : List LocalId} (h : id ∉ ids) :
    (site.introduced ids frame).locals.get? id = frame.locals.get? id := by
  unfold Site.introduced
  dsimp only
  generalize frame.locals = locals
  induction ids generalizing locals with
  | nil => rfl
  | cons other rest ih =>
    rw [List.foldl_cons, ih fun hmem => h (List.mem_cons_of_mem _ hmem)]
    exact Bindings.get?_insert_of_ne _ _ fun heq => h (heq ▸ List.mem_cons_self)

/-! ### The way to the segment -/

/-- **A dispatch that is running and not cancelled** comes to the guard of its arm. -/
theorem sameEnd_dispatch {names : NameTable} (b : Lowered mode names p site.machine)
    (loaded : site.Loaded) {seg : Segment}
    (hstatus : site.slotIn s site.machine.statusSlot = some (.int TaskStatus.running.code))
    (hstate : site.slotIn s site.machine.stateSlot = some (.int state))
    (hi : state.toInt = i) (hseg : b.segments[i]? = some seg)
    (uncancelled : site.Uncancelled s) : SameEnd (site.dispatch (fuel + 1)) s
      (execBlock site (runProcedure site.image fuel) fuel
        (((b.awaitedBefore i).map fun (tasks, mode) =>
            awaitGuard p.span site.machine.dispatch.name tasks mode).toList ++
          (seg.body ++ armEnd p.span site.machine.dispatch.name seg)) ⟨[], .empty⟩ >>=
            fun x => returned x.1) s := by
  unfold Site.dispatch
  rw [runProcedure_dispatch loaded]
  refine SameEnd.bind fun r s' => ?_
  refine (ends_body_of_running b hstatus hstate hi hseg).trans ?_
  unfold armOf Machine.Arm.body
  dsimp only
  rw [List.append_assoc, List.append_assoc]
  cases hslot : site.machine.cancelSlot with
  | none =>
    have hnone : site.machine.layout.cancel = none := hslot
    rw [hnone]
    exact Iff.rfl
  | some slot =>
    have hsome : site.machine.layout.cancel = some slot := hslot
    rw [hsome]
    exact ends_cancelCheck_of_not_requested (uncancelled slot hslot)

/-- A block goes on with what follows the part that has run. -/
theorem sameEnd_execBlock_append {first rest : List Machine.Stmt} {frame' : Frame}
    (h : Returns (execBlock site call fuel first frame) s (.next, frame') s') :
    SameEnd (execBlock site call fuel (first ++ rest) frame) s
      (execBlock site call fuel rest frame') s' := by
  rw [execBlock_append]
  exact fun _ _ => h.ends_bind

/-! ### Delivery -/

theorem returns_taskValue {info : ExprInfo} {mode : JoinMode}
    (h : slots.map (site.slotIn s) = ids.map fun id => some (.task id))
    (hv : s.tasks.joined? ids mode = some v) :
    Returns (eval site call frame (.taskValue info slots mode)) s v s := by
  unfold eval
  refine returns_bind.mpr ⟨ids, s, Site.returns_taskSlots.mpr ⟨h, rfl⟩, ?_⟩
  exact returns_bind.mpr ⟨s, s, returns_get.mpr ⟨rfl, rfl⟩, Run.returns_require.mpr ⟨hv, rfl⟩⟩

/-- The statement that delivers a value: a local that lives for one run is
introduced with it. -/
def deliveryTo (span : Span) (value : Expr) : Place → Machine.Stmt
  | .localVar id => .bind span id value
  | target => .assign span target value

/-- The delivery of a point whose tasks carry a value. -/
theorem deliveryStmt_eq (hd : q.delivery = some d) (carries : q.carriesValue = true)
    (awaits : q.kind.awaitsTasks = true) (u : Usage) :
    (deliveryStmt l q u).1 = some (deliveryTo q.span
        (.taskValue ⟨q.valueTy, q.span⟩ (l.awaits q.index) q.kind.mode) (l.place d.target)) ∧
      ∀ id, l.place d.target = .localVar id → (deliveryStmt l q u).2 = u.declare id := by
  unfold deliveryStmt
  rw [hd]
  dsimp only
  rw [if_pos (by rw [carries, awaits]; rfl)]
  cases l.place d.target with
  | localVar id =>
    refine ⟨rfl, fun id' heq => ?_⟩
    rw [Place.localVar.inj heq]
  | slot | field | param => exact ⟨rfl, fun _ heq => by cases heq⟩

/-- What was delivered is not introduced again. -/
theorem Stretch.notMem_introductions (st : Stretch) (hopening : st.opening = some q)
    (hd : q.delivery = some d) (carries : q.carriesValue = true)
    (awaits : q.kind.awaitsTasks = true) (hplace : l.place d.target = .localVar id) :
    id ∉ st.introductions l := by
  unfold Stretch.introductions Stretch.delivery
  rw [hopening]
  dsimp only
  rw [(deliveryStmt_eq hd carries awaits .none).2 id hplace]
  have hsettled : (Usage.none.declare id).Settled id := ⟨List.mem_cons_self, List.not_mem_nil⟩
  have stays := Usage.stays_settled l id
  exact (stays.accessAll (stays.topStmts hsettled st.stmts) _).2

/-- A delivery evaluates the value and writes it to its place. -/
theorem exec_deliveryTo (call : Caller) (fuel : Nat) (span : Span) {e : Expr}
    (present : e.isAbsent = false) (place : Place) (f : Frame) :
    exec site call fuel (deliveryTo span e place) f =
      eval site call f e >>= fun v => writePlace site f v place >>= fun g =>
        pure (.next, g) := by
  cases place with
  | localVar id =>
    unfold deliveryTo exec eval?
    rw [present, ← bind_pure_comp]
    simp only [Bool.false_eq_true, if_false, bind_assoc, pure_bind]
    rfl
  | slot | param | field =>
    unfold deliveryTo exec
    rfl

/-- **Delivering a value** writes it to its place and changes nothing else. -/
theorem returns_deliveryTo (fuel : Nat) (span : Span) {e : Expr} {st : Storage}
    (present : e.isAbsent = false) (he : Returns (eval site call frame e) s v s)
    (hst : site.slotsIn s = some st) (hslot : ∀ k, place = .slot k → k < st.slots.length)
    (hparam : ∀ k, place ≠ .param k) :
    ∃ frame', Returns (exec site call fuel (deliveryTo span e place) frame) s (.next, frame')
      (site.deliver s v place) ∧
      site.content? (site.deliver s v place) frame' place = some v := by
  suffices hwrites : ∃ frame', Returns (writePlace site frame v place) s frame'
    (site.deliver s v place) ∧
      site.content? (site.deliver s v place) frame' place = some v by
    obtain ⟨frame', hwrite, hcontent⟩ := hwrites
    refine ⟨frame', ?_, hcontent⟩
    rw [exec_deliveryTo call fuel span present]
    exact returns_bind.mpr ⟨v, s, he, returns_bind_pure.mpr ⟨frame', hwrite, rfl⟩⟩
  cases place with
  | param k => exact absurd rfl (hparam k)
  | localVar id => exact ⟨_, returns_pure.mpr ⟨rfl, rfl⟩, Bindings.get?_insert_self _ _ _⟩
  | slot k =>
    have hlt := hslot k rfl
    have hdeliver : site.deliver s v (.slot k) =
        site.put s { st with slots := st.slots.set k v } := by
      unfold Site.deliver
      rw [hst]
    refine ⟨frame, ?_, ?_⟩
    · exact returns_bind_pure.mpr
        ⟨(), Site.returns_writeSlot.mpr ⟨st, hst, hlt, hdeliver⟩, rfl⟩
    · show site.slotIn _ k = some v
      rw [hdeliver, Site.slotIn_eq (Site.slotsIn_put hst _)]
      exact List.getElem?_set_self hlt
  | field name =>
    obtain ⟨inst, hinst, -⟩ := Option.map_eq_some_iff.mp hst
    refine ⟨frame, ?_, ?_⟩
    · exact returns_bind_pure.mpr
        ⟨(), Run.returns_modifyInstance.mpr ⟨Option.isSome_of_mem hinst, rfl⟩, rfl⟩
    · show (s.putField site.owner name v).field? site.owner name = some v
      rw [HostState.field?_putField, if_pos ⟨rfl, rfl⟩, hinst]
      rfl

/-- Introductions of other locals leave the content of a place. -/
theorem content?_introduced {ids : List LocalId} (h : ∀ id, place = .localVar id → id ∉ ids) :
    site.content? s (site.introduced ids frame) place = site.content? s frame place := by
  cases place with
  | localVar id => exact get?_introduced (h id rfl)
  | slot | field | param => rfl

end

/-! ### The step -/

/-- The slots of the machine on its instance are there, one value for each. -/
def Site.Stored (site : Site) (s : HostState) : Prop :=
  ∃ st, site.slotsIn s = some st ∧ st.slots.length = site.machine.slots.length

/-- The rest of a dispatch, from the code that the source wrote for a stretch on. -/
def Site.goOn (site : Site) (fuel : Nat) (p : Procedure) (i : Nat) (st : Stretch)
    (frame : Frame) : Run Value :=
  execBlock site (runProcedure site.image fuel) fuel
    (st.userCode site.machine.layout ++
      armEnd p.span site.machine.dispatch.name (st.segment site.machine.layout i)) frame >>=
  fun x => returned x.1

/-- **A dispatch in the state after the point `q`**, which is the `i`-th and
awaits the tasks `ids`. -/
structure AwaitStep (p : Procedure) (points : List SuspensionPoint) (site : Site)
    (fuel i : Nat) (q : SuspensionPoint) (ids : List TaskId) (s : HostState) : Prop where
  /-- Not done: nothing of the segment runs.  The call back is replaced by
  one for these tasks. -/
  waits : s.tasks.done ids q.kind.mode = false →
    Returns (site.dispatch (fuel + 1)) s .unit { s with scheduler := { s.scheduler with
      nextSeq := s.scheduler.nextSeq + 1
      pending := s.scheduler.pending.filter (fun r => r.action ≠ .resume site.handle) ++
        [⟨s.scheduler.nextSeq, .completion ids q.kind.mode, .resume site.handle⟩] } }
  /-- Done, and nothing to deliver: the segment runs. -/
  resumes : s.tasks.done ids q.kind.mode = true → q.delivery = none →
    ∃ st frame, (cut p.stmts points)[i + 1]? = some st ∧
      SameEnd (site.dispatch (fuel + 1)) s (site.goOn fuel p (i + 1) st frame) s
  /-- Done: the value is in its place, and nothing else has changed, when the segment runs. -/
  delivers : s.tasks.done ids q.kind.mode = true → ∀ d, q.delivery = some d →
    (∀ k, site.machine.layout.place d.target ≠ .param k) →
    ∃ v st frame, AwaitedValue s.tasks ids v q.kind ∧ (cut p.stmts points)[i + 1]? = some st ∧
      site.content? (site.deliver s v (site.machine.layout.place d.target)) frame
        (site.machine.layout.place d.target) = some v ∧
      SameEnd (site.dispatch (fuel + 1)) s (site.goOn fuel p (i + 1) st frame)
        (site.deliver s v (site.machine.layout.place d.target))
  /-- A parameter that the procedure does not have cannot receive the value. -/
  missing : s.tasks.done ids q.kind.mode = true → ∀ d k, q.delivery = some d →
    site.machine.layout.place d.target = .param k →
    Ends (site.dispatch (fuel + 1)) s (.error (.error (.missingParam k))) s

section

variable {site : Site} {s : HostState} {names : NameTable}

variable {st : Stretch}

/-- After a point that awaits tasks, a dispatch comes to the guard for these tasks. -/
theorem sameEnd_guard (fuel : Nat) (b : Lowered mode names p site.machine)
    (tree : p.TreeShaped) (loaded : site.Loaded) (hq : b.points[i]? = some q)
    (awaits : q.kind.awaitsTasks = true) (hcut : (cut p.stmts b.points)[i + 1]? = some st)
    (hstatus : site.slotIn s site.machine.statusSlot = some (.int TaskStatus.running.code))
    (hstate : site.slotIn s site.machine.stateSlot = some (.int state))
    (hi : state.toInt = (i + 1 : Nat)) (uncancelled : site.Uncancelled s) :
    SameEnd (site.dispatch (fuel + 1)) s
      (execBlock site (runProcedure site.image fuel) fuel
        (awaitGuard p.span site.machine.dispatch.name
          (site.machine.layout.awaits i) q.kind.mode ::
          ((st.delivery site.machine.layout).1.toList ++
            ((st.introductions site.machine.layout).map introduce ++
            (st.userCode site.machine.layout ++ armEnd p.span site.machine.dispatch.name
              (st.segment site.machine.layout (i + 1)))))) ⟨[], .empty⟩ >>= fun x =>
                returned x.1) s := by
  have hseg : b.segments[i + 1]? = some (st.segment site.machine.layout (i + 1)) := by
    rw [b.segments_getElem?, hcut]
    rfl
  refine (sameEnd_dispatch b loaded hstatus hstate hi hseg uncancelled).trans
    (SameEnd.bind ?_)
  rw [b.awaitedBefore_succ tree, hq, Option.bind_some, if_pos awaits, Stretch.segment_body]
  simp only [List.append_assoc]
  exact fun r s' => Iff.rfl

section

variable (hopening : st.opening = some q) (hd : q.delivery = some d)
  (carries : q.carriesValue = true) (awaits : q.kind.awaitsTasks = true)
  (htasks : (site.machine.layout.awaits q.index).map (site.slotIn s) =
    ids.map fun id => some (.task id))
  (hv : s.tasks.joined? ids q.kind.mode = some v)

include hopening hd carries awaits htasks hv

/-- What the first statement of a segment delivers is the value of the tasks. -/
theorem returns_delivered (fuel : Nat) : ∃ e, e.isAbsent = false ∧
    (st.delivery site.machine.layout).1 =
      some (deliveryTo q.span e (site.machine.layout.place d.target)) ∧
    Returns (eval site (runProcedure site.image fuel) ⟨[], .empty⟩ e) s v s := by
  refine ⟨.taskValue ⟨q.valueTy, q.span⟩ _ _, rfl, ?_, returns_taskValue htasks hv⟩
  unfold Stretch.delivery
  rw [hopening]
  exact (deliveryStmt_eq hd carries awaits .none).1

/-- **The delivery comes first**: with the value in its place, the dispatch goes on to the
code of the source. -/
theorem sameEnd_goOn_of_delivery (fuel i : Nat) {storage : Storage}
    (hst : site.slotsIn s = some storage)
    (hslot : ∀ k, site.machine.layout.place d.target = .slot k → k < storage.slots.length)
    (hparam : ∀ k, site.machine.layout.place d.target ≠ .param k) :
    ∃ frame, site.content? (site.deliver s v (site.machine.layout.place d.target)) frame
        (site.machine.layout.place d.target) = some v ∧
        SameEnd (execBlock site (runProcedure site.image fuel) fuel
          ((st.delivery site.machine.layout).1.toList ++
            ((st.introductions site.machine.layout).map introduce ++
              (st.userCode site.machine.layout ++ armEnd p.span site.machine.dispatch.name
                (st.segment site.machine.layout i)))) ⟨[], .empty⟩ >>= fun x =>
                  returned x.1) s
        (site.goOn fuel p i st frame) (site.deliver s v
          (site.machine.layout.place d.target)) := by
  obtain ⟨e, present, hstmt, hvalue⟩ :=
    returns_delivered hopening hd carries awaits htasks hv fuel
  obtain ⟨frame, hdeliver, hcontent⟩ :=
    returns_deliveryTo fuel q.span present hvalue hst hslot hparam
  refine ⟨site.introduced (st.introductions site.machine.layout) frame, ?_, SameEnd.bind ?_⟩
  · rw [content?_introduced, hcontent]
    exact fun id hid => st.notMem_introductions hopening hd carries awaits hid
  · rw [hstmt]
    refine (sameEnd_execBlock_append ?_).trans
      (sameEnd_execBlock_append (returns_introductions _))
    rw [Option.toList_some, execBlock_singleton]
    exact hdeliver

/-- A value cannot be delivered to a parameter that the procedure does not have. -/
theorem ends_of_missing {k : Nat} {rest : List Machine.Stmt}
    (hparam : site.machine.layout.place d.target = .param k) :
    Ends (execBlock site (runProcedure site.image fuel) fuel
        ((st.delivery site.machine.layout).1.toList ++ rest) ⟨[], .empty⟩ >>= fun x =>
          returned x.1)
      s (.error (.error (.missingParam k))) s := by
  obtain ⟨e, -, hstmt, hvalue⟩ := returns_delivered hopening hd carries awaits htasks hv fuel
  -- The frame of a dispatch has no arguments, so that the write fails.
  have hexec : Ends (exec site (runProcedure site.image fuel) fuel
    (.assign q.span (.param k) e) ⟨[], .empty⟩)
      s (.error (.error (.missingParam k))) s := by
    unfold exec
    exact hvalue.ends_bind.mpr (ends_bind.mpr (Or.inl ⟨_, rfl, rfl⟩))
  rw [hstmt, hparam, Option.toList_some, List.singleton_append, execBlock_cons]
  refine ends_bind.mpr (Or.inl ⟨_, ?_, rfl⟩)
  exact ends_bind.mpr (Or.inl ⟨_, hexec, rfl⟩)

end

/-- **Awaits are safe and deliver the outcome of their tasks.** -/
theorem dispatch_awaits {options : LowerOptions} {names' : NameTable}
    (lowered : lowerProcedure options p names = (.ok site.machine, names'))
    {points : List SuspensionPoint} (found : suspensionPoints names p = .ok points)
    (tree : p.TreeShaped) (loaded : site.Loaded) (stored : site.Stored s) {i : Nat}
    {q : SuspensionPoint} (hq : points[i]? = some q) (awaits : q.kind.awaitsTasks = true)
    {state : Int64}
    (hstatus : site.slotIn s site.machine.statusSlot = some (.int TaskStatus.running.code))
    (hstate : site.slotIn s site.machine.stateSlot = some (.int state))
    (hi : state.toInt = (i + 1 : Nat)) (uncancelled : site.Uncancelled s)
    {ids : List TaskId}
    (htasks : (site.machine.layout.awaits i).map (site.slotIn s) =
      ids.map fun id => some (.task id))
    (fuel : Nat) : AwaitStep p points site fuel i q ids s := by
  obtain ⟨b⟩ := lowered_of_lowerProcedure lowered
  obtain rfl : b.points = points := Except.ok.inj (b.found.symm.trans found)
  obtain ⟨storage, hst, hsize⟩ := stored
  obtain ⟨st, hcut⟩ := b.exists_stretch (List.getElem?_eq_some_iff.mp hq).1
  have hopening : st.opening = some q := (b.sliced.between hcut).1.trans hq
  obtain ⟨_, -, gives⟩ := (points_give b.found).2 i q hq
  have hlength : ids.length = q.kind.awaited.length := by
    have hsame := congrArg List.length htasks
    rw [List.length_map, List.length_map] at hsame
    exact hsame.symm.trans (b.length_awaits hq)
  have guard := sameEnd_guard fuel b tree loaded hq awaits hcut hstatus hstate hi uncancelled
  have start : s.tasks.done ids q.kind.mode = true → _ := fun hdone =>
    guard.trans (SameEnd.bind fun r s' => ends_awaitGuard_of_done htasks hdone)
  -- The tasks are not done; they are done and nothing is delivered; or the value has a
  -- place, or none.
  refine ⟨fun hdone => ?_, fun hdone hnone => ?_, fun hdone d hd hparam => ?_,
    fun hdone d k hd hparam => ?_⟩
  · exact (guard _ _).mpr (returns_bind.mpr
      ⟨_, _, (ends_awaitGuard_of_not_done htasks hdone).mpr ⟨rfl, rfl⟩,
        returns_pure.mpr ⟨rfl, rfl⟩⟩)
  · refine ⟨st, site.introduced (st.introductions site.machine.layout) ⟨[], .empty⟩, hcut,
      (start hdone).trans (SameEnd.bind ?_)⟩
    have hdelivery : (st.delivery site.machine.layout).1 = none := by
      unfold Stretch.delivery deliveryStmt
      rw [hopening]
      dsimp only
      rw [hnone]
    rw [hdelivery]
    exact sameEnd_execBlock_append (returns_introductions _)
  · obtain ⟨v, hv, hvalue⟩ := awaitedValue_of_done awaits hlength hdone
    have hslot : ∀ k, site.machine.layout.place d.target = .slot k →
      k < storage.slots.length := by
      intro k hk
      rw [hsize]
      obtain ⟨slot, -, hslot, -⟩ := SlotLayout.role_of_place b.laidOut.numbered hk
      exact (List.getElem?_eq_some_iff.mp hslot).1
    rw [← b.index_eq hq] at htasks
    obtain ⟨frame, hcontent, hgo⟩ := sameEnd_goOn_of_delivery (p := p) hopening hd
      (gives.carries (Option.isSome_of_mem hd)) awaits htasks hv fuel (i + 1) hst hslot hparam
    exact ⟨v, st, frame, hvalue, hcut, hcontent, (start hdone).trans hgo⟩
  · obtain ⟨v, hv, -⟩ := awaitedValue_of_done awaits hlength hdone
    have begins := start hdone
    rw [← b.index_eq hq] at htasks
    exact (begins _ _).mpr (ends_of_missing hopening hd
      (gives.carries (Option.isSome_of_mem hd)) awaits htasks hv hparam)

end

/-! ### A waiter -/

namespace Waiter

/-- The strings that the waiter uses. -/
def names : NameTable := .internAll .empty ["Wait", "job", "answer"]

/-- Wait for the task that is given, and return its value. -/
def procedure : Procedure where
  name := ⟨1⟩
  params := [⟨⟨2⟩, .deferred .int, .none⟩]
  locals := [⟨0, ⟨3⟩, .int, .none⟩]
  result := .int
  cancellation := none
  body := .block [
    .bind ⟨0, .none⟩ 0 (.suspend ⟨.int, .none⟩ (.param ⟨.deferred .int, .none⟩ 0)),
    .ret ⟨1, .none⟩ (.localVar ⟨.int, .none⟩ 0)]
  span := .none

/-- The machine of the waiter. -/
@[irreducible] def machine : Machine :=
  (lowerProcedure {} procedure names).1.toOption.getD default

theorem lowered :
    lowerProcedure {} procedure names =
      (.ok machine, (lowerProcedure {} procedure names).2) := by
  unfold machine
  exact eq_mk_ok_of_isOk (by decide +kernel)

/-- The waiter on the first instance, alone in its image. -/
def site : Site where
  image := ⟨#[⟨"Wait", machine⟩], (lowerProcedure {} procedure names).2⟩
  index := 0
  program := ⟨"Wait", machine⟩
  owner := 0

/-- The slots of a waiter that waits for the second task. -/
def storage : Storage where
  slots := ((Storage.fresh machine).slots.set 0 (.int 1)).mapIdx fun k v =>
    if k ∈ machine.layout.awaits 0 then .task 1 else v
  task := some 0

/-- A host in which the waiter waits for a task with the given state. -/
def waiting (state : TaskState) : HostState :=
  { HostState.new ⟨1.0, 10⟩ with
    instances := #[⟨.empty, Bindings.empty.insert 0 storage⟩]
    tasks := #[⟨.pending, .activation⟩, ⟨state, .timer⟩] }

theorem stored (state : TaskState) : site.Stored (waiting state) := by
  refine ⟨storage, rfl, ?_⟩
  unfold storage
  rw [List.length_mapIdx, List.length_set]
  exact List.length_map _

end Waiter

private theorem map_task_of_task? {content : SlotId → Option Value}
    (h : slots.map (fun k => (content k).bind Value.task?) = ids.map some) :
    slots.map content = ids.map fun id => some (.task id) := by
  induction slots generalizing ids with
  | nil =>
    obtain rfl := List.map_eq_nil_iff.mp h.symm
    rfl
  | cons k rest ih =>
    cases ids with
    | nil => cases h
    | cons id others =>
      obtain ⟨hfirst, hrest⟩ := List.cons.inj h
      obtain ⟨v, hv, htask⟩ := Option.bind_eq_some_iff.mp hfirst
      rw [List.map_cons, List.map_cons, ih hrest, hv]
      cases v with
      | task id' => rw [Option.some.inj htask]
      | unit | bool | int | float | str | array | token | closure => cases htask

private theorem waiter_point :
    ∃ points q, suspensionPoints Waiter.names Waiter.procedure = .ok points ∧
    points[0]? = some q ∧ q.kind.awaitsTasks = true ∧ q.kind.mode = .all := by
  have hpoint : ((suspensionPoints Waiter.names Waiter.procedure).toOption.bind fun points =>
      points[0]?.map fun q => (q.kind.awaitsTasks, q.kind.mode)) = some (true, .all) := by
    decide +kernel
  cases hpoints : suspensionPoints Waiter.names Waiter.procedure with
  | error why =>
    rw [hpoints] at hpoint
    cases hpoint
  | ok points =>
    rw [hpoints] at hpoint
    obtain ⟨q, hq, hkind⟩ := Option.map_eq_some_iff.mp hpoint
    obtain ⟨hawaits, hmode⟩ := Prod.mk.inj hkind
    exact ⟨points, q, rfl, hq, hawaits, hmode⟩

/-- The waiter, before and after the task it waits for has succeeded. -/
theorem waiter_awaits :
    ∃ points q, suspensionPoints Waiter.names Waiter.procedure = .ok points ∧
    (Waiter.waiting .pending).tasks.done [1] q.kind.mode = false ∧
    AwaitStep Waiter.procedure points Waiter.site 4 0 q [1] (Waiter.waiting .pending) ∧
    (Waiter.waiting (.succeeded (.int 7))).tasks.done [1] q.kind.mode = true ∧
    AwaitStep Waiter.procedure points Waiter.site 4 0 q [1]
      (Waiter.waiting (.succeeded (.int 7))) := by
  obtain ⟨points, q, hpoints, hq, hawaits, hmode⟩ := waiter_point
  have hloaded : Waiter.site.Loaded := rfl
  have htree : Waiter.procedure.TreeShaped := by decide +kernel
  have hnone : Waiter.site.machine.cancelSlot = none := by decide +kernel
  have huncancelled : ∀ s, Waiter.site.Uncancelled s := fun s slot hslot => by
    rw [hnone] at hslot
    cases hslot
  refine ⟨points, q, hpoints, by rw [hmode]; rfl, ?_, by rw [hmode]; rfl, ?_⟩
  · exact dispatch_awaits Waiter.lowered hpoints htree hloaded (Waiter.stored _) hq hawaits
      (eq_some_int (n := 0) (by decide +kernel))
        (eq_some_int (n := 1) (by decide +kernel)) rfl
      (huncancelled _) (map_task_of_task? (by decide +kernel)) 4
  · exact dispatch_awaits Waiter.lowered hpoints htree hloaded (Waiter.stored _) hq hawaits
      (eq_some_int (n := 0) (by decide +kernel))
        (eq_some_int (n := 1) (by decide +kernel)) rfl
      (huncancelled _) (map_task_of_task? (by decide +kernel)) 4

end Resumable
