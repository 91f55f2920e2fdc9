import Resumable.Proofs.Simulation

/-!
# A segment is one advance

**Running a segment does what the source does from one pause to the next.**  The statements of
the segment are followed one by one; the introduction of a local with a slot emits nothing,
since the slot already holds what it would put there.  At the end the segment evaluates what
the source evaluates before it pauses, or both are over.

## Main definitions

* `StretchRun`: how the statements of a segment end, with what the source has done by then.
* `Advanced`: what a segment has done when it ends.

## Main statements

* `stretchRun_of_returns`: the statements of a segment, by induction on them.
* `advanced_of_segment`: the whole segment with its end.
-/

namespace Resumable

open Resumable.Bound (Place Procedure Stmt)
open Machine (SlotId)

variable {σ : Setting} {fuel k : Nat} {a a' : Activation} {s : Stmt} {v : Value}
  {mode : LivenessMode} {names : NameTable} {p : Procedure} {m : Machine}
  {seg later : List Stmt} {x : LocalId} {st : Stretch} {site : Site} {s₀ s' : HostState}
  {call : Caller} {frame frame' : Frame} {known pending : LocalId → Prop} {r : Flow × Frame}
  {q : SuspensionPoint} {flow : Flow}

/-! ### Advancing by a statement -/

section

variable {a'' : Activation} {more : List Stmt}

theorem returns_advance_next (plain : suspensionOf s = none)
    (h : Returns (s.perform σ fuel) a .next a') {stop : Stop}
    (hmore : Returns (advance σ fuel more) a' stop a'') :
    Returns (advance σ fuel (s :: more)) a stop a'' := by
  unfold advance
  rw [plain]
  exact returns_bind.mpr ⟨.next, a', h, hmore⟩

theorem returns_advance_ret (plain : suspensionOf s = none)
    (h : Returns (s.perform σ fuel) a (.ret v) a') :
    Returns (advance σ fuel (s :: more)) a (.completed v) a' := by
  unfold advance
  rw [plain]
  exact returns_bind.mpr ⟨.ret v, a', h, returns_pure.mpr ⟨rfl, rfl⟩⟩

end

/-! ### The statements of a segment -/

namespace Lowered

variable (b : Lowered mode names p m)

/-- What is known after a statement of a segment. -/
theorem known_snoc (h : b.Known k (seg ++ [s]) x) : Bound.after (b.Known k seg) s x := by
  rcases h with hbefore | hwritten
  · exact Or.inl (Or.inl hbefore)
  · rw [List.filterMap_append] at hwritten
    rcases List.mem_append.mp hwritten with hseg | hlast
    · exact Or.inl (Or.inr hseg)
    · obtain ⟨t, ht, hx⟩ := List.mem_filterMap.mp hlast
      obtain rfl := List.mem_singleton.mp ht
      exact Or.inr hx

/-- A local is pending up to the statement that introduces it without a value. -/
theorem pending_of_declare (timed : p.Timed) (hst : (cut p.stmts b.points)[k]? = some st)
    {info : Bound.StmtInfo} (hsplit : st.stmts = seg ++ .declare info x :: later)
    (hslot : (m.layout.local? x).isSome) : b.Pending k seg x := by
  have hstmts := b.stmts_eq_split timed.tree hst (st.content_eq hsplit)
  refine ⟨hslot, fun hbefore => ?_, info, ?_⟩
  · have honce := timed.once
    rw [hstmts, Bound.declaredIn_append, Bound.declaredIn_cons] at honce
    obtain ⟨-, -, hdisjoint⟩ := List.nodup_append.mp honce
    exact hdisjoint x (Bound.introducedBy_subset_declaredIn hbefore) x
      (List.mem_append_left _ (Stmt.mem_declaresOf_of_introduced? rfl)) rfl
  · rw [hstmts]
    exact List.mem_append_right _ List.mem_cons_self

end Lowered

section

/-- A top-level statement runs as its slotted form does, also where it introduces
the local it assigns. -/
theorem exec_topStmt (call : Caller) (fuel : Nat) (u : Usage) {s' : Machine.Stmt}
    (h : slottedStmt site.machine.layout false s = some s') :
    ∃ t, (topStmt site.machine.layout u s).1 = some t ∧
      ∀ frame, exec site call fuel t frame = exec site call fuel s' frame := by
  unfold topStmt
  cases hfirst : firstAssigned? site.machine.layout u s with
  | none => exact ⟨s', h, fun _ => rfl⟩
  | some assigned =>
    obtain ⟨span, x, value⟩ := assigned
    obtain ⟨info, rfl, rfl, hslot, -⟩ := eq_assign_of_firstAssigned? hfirst
    obtain rfl := Option.some.inj h
    refine ⟨_, rfl, fun frame => ?_⟩
    rw [SlotLayout.place_local_of_none hslot]
    exact exec_bind_slottedExpr call fuel _ _ _ _

variable {s : HostState}

/-- The introduction of a local whose slot already holds its default. -/
theorem Mirrors.introduce {known' pending' : LocalId → Prop}
    (h : Mirrors site σ known pending s₀ frame s a) (hx : pending x)
    (hknown : ∀ y, known' y → known y ∨ y = x) (hpending : ∀ y, pending' y → pending y) :
    ∃ a', Returns (Direct.write (σ.defaultLocal x) (.localVar x)) a () a' ∧
      Mirrors site σ known' pending' s₀ frame s a' := by
  have hparam : ∀ i, Place.localVar x = .param i → (a.content? (.localVar x)).isSome :=
    fun i heq => by cases heq
  obtain ⟨a', hwrite, hwritten⟩ := Activation.returns_write (σ.defaultLocal x) hparam
  refine ⟨a', hwrite, ⟨fun q hq => ?_, fun y hy =>
    h.agree.pristine y (hpending y hy), ?_, ?_⟩, h.apart⟩
  · rw [hwritten.content]
    by_cases hsame : q = .localVar x
    · rw [if_pos hsame, hsame]
      exact h.agree.pristine x hx
    · rw [if_neg hsame]
      refine h.agree.content q ?_
      cases q with
      | localVar y => exact (hknown y hq).resolve_right fun heq => hsame (congrArg _ heq)
      | param | field => exact hq
  · rw [hwritten.log]
    exact h.agree.log
  · rw [hwritten.calls]
    exact h.agree.calls

section

variable (b : Lowered mode names p site.machine) (timed : p.Timed) (staged : Staged site σ s₀)
  (hst : (cut p.stmts b.points)[k]? = some st)

include b timed staged hst

/-- **A top-level statement of a segment** does what its source does. -/
theorem echo_of_topStmt {t : Stmt} (hsplit : st.stmts = seg ++ t :: later) {u : Usage}
    (mirrors : Mirrors site σ (b.Known k seg) (b.Pending k seg) s₀ frame s a)
    (h : Returns (execBlock site call fuel (topStmt site.machine.layout u t).1.toList frame)
      s r s') :
    ∃ flow a', Returns (t.perform σ fuel) a flow a' ∧
      Echo site σ (b.Known k seg) (b.Known k (seg ++ [t]))
        (b.Pending k (seg ++ [t])) s₀ r s' flow a' := by
  rcases b.covered timed hst hsplit with ⟨info, x, slot, rfl, hslot⟩ | covered
  · -- Nothing is emitted for the introduction of a local with a slot.
    have hnone : (topStmt site.machine.layout u (.declare info x)).1 = none := by
      unfold topStmt firstAssigned? slottedStmt
      simp only [hslot]
    rw [hnone] at h
    obtain ⟨rfl, rfl⟩ := returns_pure.mp (h : Returns (pure _) s r s')
    have hpending := b.pending_of_declare timed hst hsplit (Option.isSome_of_mem hslot)
    have hknown : ∀ y, b.Known k (seg ++ [.declare info x]) y → b.Known k seg y ∨ y = x := by
      intro y hy
      rcases b.known_snoc hy with hy | hy
      · exact Or.inl hy
      · exact Or.inr (Option.some.inj hy).symm
    obtain ⟨a', hwrite, mirrors'⟩ := mirrors.introduce hpending hknown b.pending_of_snoc
    exact ⟨.next, a', returns_bind_pure.mpr ⟨(), hwrite, rfl⟩,
      .next mirrors'⟩
  · obtain ⟨t', hslotted, hechoes⟩ := echoes_exec call fuel staged t covered
    obtain ⟨t'', htop, hexec⟩ := exec_topStmt call fuel u hslotted
    rw [htop] at h
    replace h : Returns (execBlock site call fuel [t''] frame) s r s' := h
    rw [execBlock_singleton, hexec] at h
    obtain ⟨flow, a', hdirect, echo⟩ :=
      hechoes frame (mirrors.mono (fun _ hx => hx) b.pending_of_snoc) h
    exact ⟨flow, a', hdirect, echo.mono (fun _ hx => hx) fun _ hx => b.known_snoc hx⟩

/-- **How the statements of a segment end**, when the source has `rest` of them
still to do in `a`. -/
inductive StretchRun (site : Site) (σ : Setting) (fuel : Nat)
    (known pending : LocalId → Prop) (s₀ : HostState) (rest : List Stmt) (a : Activation) :
    Flow × Frame → HostState → Prop where
  /-- All of them have run, and the source goes on with what follows. -/
  | through {frame : Frame} {s : HostState} {a' : Activation}
    (mirrors : Mirrors site σ known pending s₀ frame s a')
    (goes : ∀ more stop a'', Returns (advance σ fuel more) a' stop a'' →
      Returns (advance σ fuel (rest ++ more)) a stop a'') :
    StretchRun site σ fuel known pending s₀ rest a (.next, frame) s
  /-- One of them has returned. -/
  | finished {frame : Frame} {mid s : HostState} {a' : Activation} {value : Option Value}
    (mirrors : Mirrors site σ (fun _ => False) (fun _ => False) s₀ frame mid a')
    (finish : Returns (finish site .succeeded value) mid () s)
    (completes : ∀ more, Returns (advance σ fuel (rest ++ more)) a
      (.completed (value.getD σ.defaultResult)) a') :
    StretchRun site σ fuel known pending s₀ rest a (.finished, frame) s
  /-- One of them leaves a loop that is not there. -/
  | stray {flow : Flow} {frame : Frame} {s : HostState}
    (leaves : flow = .breakLoop ∨ flow = .continueLoop) :
    StretchRun site σ fuel known pending s₀ rest a (flow, frame) s

/-- **The statements of a segment do what their sources do**, by induction on
those that are left. -/
theorem stretchRun_of_returns {rest : List Stmt} (hsplit : st.stmts = seg ++ rest)
    {u : Usage} (mirrors : Mirrors site σ (b.Known k seg) (b.Pending k seg) s₀ frame s a)
    (h : Returns (execBlock site call fuel (topStmts site.machine.layout u rest).1 frame)
      s r s') :
    StretchRun site σ fuel (b.Known k st.stmts) (b.Pending k st.stmts) s₀ rest a r s' := by
  induction rest generalizing seg u frame s a with
  | nil =>
    obtain ⟨rfl, rfl⟩ := returns_pure.mp (h : Returns (pure _) s r s')
    rw [List.append_nil] at hsplit
    rw [hsplit]
    exact .through mirrors fun _ _ _ hmore => hmore
  | cons t rest ih =>
    have plain : suspensionOf t = none := by
      refine (b.sliced.mem_stmts (List.mem_of_getElem? hst) ?_).2
      rw [hsplit]
      exact List.mem_append_right _ List.mem_cons_self
    replace h : Returns (execBlock site call fuel
      ((topStmt site.machine.layout u t).1.toList ++
      (topStmts site.machine.layout (topStmt site.machine.layout u t).2 rest).1) frame)
        s r s' := h
    rw [execBlock_append] at h
    obtain ⟨⟨flow, frame'⟩, mid, hfirst, hrest⟩ := returns_bind.mp h
    obtain ⟨flow', a', hdirect, echo⟩ :=
      echo_of_topStmt b timed staged hst hsplit mirrors hfirst
    cases echo with
    | next mirrors' =>
      -- From here on the statement counts as done.
      have hsplit' : st.stmts = (seg ++ [t]) ++ rest := by
        rw [hsplit, List.append_assoc]
        rfl
      cases ih hsplit' mirrors' hrest with
      | through mirrors'' goes =>
        exact .through mirrors'' fun more stop a'' hmore =>
          returns_advance_next plain hdirect (goes more stop a'' hmore)
      | finished mirrors'' finish completes =>
        exact .finished mirrors'' finish fun more =>
          returns_advance_next plain hdirect (completes more)
      | stray leaves => exact .stray leaves
    | breakLoop =>
      obtain ⟨rfl, rfl⟩ := returns_pure.mp hrest
      exact .stray (Or.inl rfl)
    | continueLoop =>
      obtain ⟨rfl, rfl⟩ := returns_pure.mp hrest
      exact .stray (Or.inr rfl)
    | finished mirrors' finish =>
      obtain ⟨rfl, rfl⟩ := returns_pure.mp hrest
      exact .finished (mirrors'.mono (fun _ hx => hx.elim) fun _ hx =>
        hx.elim) finish fun more =>
        returns_advance_ret plain hdirect

end

end

/-! ### Slots without variables -/

/-- A slot that is not for a variable holds none. -/
theorem place_ne_slot {l : SlotLayout} (h : Numbered l.slots) {k : SlotId}
    {slot : Machine.Slot} (hslot : l.slots[k]? = some slot)
    (hrole : ∀ origin, slot.role ≠ .hoisted origin) (q : Place) : l.place q ≠ .slot k := by
  intro hplace
  obtain ⟨slot', origin, hslot', hrole'⟩ := SlotLayout.role_of_place h hplace
  obtain rfl := Option.some.inj (hslot.symm.trans hslot')
  exact hrole origin hrole'

namespace Lowered

theorem place_ne_state (b : Lowered mode names p m) (q : Place) :
    m.layout.place q ≠ .slot m.stateSlot := by
  obtain ⟨slot, hslot, hrole⟩ := b.laidOut.role_state
  exact place_ne_slot b.laidOut.numbered hslot
    (fun origin heq => by cases hrole.symm.trans heq) q

theorem place_ne_status (b : Lowered mode names p m) (q : Place) :
    m.layout.place q ≠ .slot m.statusSlot := by
  obtain ⟨slot, hslot, hrole⟩ := b.laidOut.role_status
  exact place_ne_slot b.laidOut.numbered hslot
    (fun origin heq => by cases hrole.symm.trans heq) q

theorem place_ne_result (b : Lowered mode names p m) {k : SlotId} (hk : m.resultSlot = some k)
    (q : Place) : m.layout.place q ≠ .slot k := by
  obtain ⟨slot, hslot, hrole⟩ := b.laidOut.role_result hk
  exact place_ne_slot b.laidOut.numbered hslot
    (fun origin heq => by cases hrole.symm.trans heq) q

/-! ### The parts of a timed segment -/

variable (b : Lowered mode names p m)

/-- **A segment of a timed procedure** delivers nothing and stores no tasks. -/
theorem segment_body (timed : p.Timed) (hst : (cut p.stmts b.points)[k]? = some st) :
    (st.segment m.layout k).body =
      (st.introductions m.layout).map introduce ++ (topStmts m.layout .none st.stmts).1 := by
  -- A wait for time has no value to deliver when it is over, and no tasks to remember.
  have hdelivery : st.delivery m.layout = (none, .none) := by
    unfold Stretch.delivery
    cases hq : st.opening with
    | none => rfl
    | some q =>
      obtain ⟨j, -, hpoint⟩ := b.point_of_opening hst hq
      show deliveryStmt m.layout q .none = _
      unfold deliveryStmt
      rw [(b.pauses timed (List.mem_of_getElem? hpoint)).delivery]
  have hstores : st.stores m.layout = [] := by
    unfold Stretch.stores
    cases hq : st.closing with
    | none => rfl
    | some q =>
      have hkind := (b.pauses_of_closing timed hst hq).kind
      show (taskStores m.layout q).map _ = _
      unfold taskStores
      generalize q.kind = kind at hkind
      generalize q.operand = operand at hkind
      cases hkind <;> rfl
  rw [st.segment_body, Stretch.userCode, hdelivery, hstores, List.append_nil]
  rfl

/-- After the last segment nothing is left. -/
theorem rest_eq_nil (h : b.points[k]? = none) : b.rest (k + 1) = [] := by
  have hle := List.getElem?_eq_none_iff.mp h
  have hlength := b.sliced.length_eq
  unfold rest
  rw [List.drop_eq_nil_of_le (by omega), List.flatMap_nil]

/-- What is known at the start of a segment has a slot, and was known at the end
of the one before. -/
theorem known_of_known_succ (timed : p.Timed) (hst : (cut p.stmts b.points)[k]? = some st)
    (h : b.Known (k + 1) [] x) : b.Known k st.stmts x := by
  obtain ⟨hslot, hx⟩ := h.resolve_right fun hmem => by cases hmem
  rw [b.before_succ hst] at hx
  rcases Bound.mem_introducedBy_append.mp hx with hx | hx
  · exact Or.inl ⟨hslot, hx⟩
  · rw [b.introducedBy_content timed hst] at hx
    exact Or.inr (Bound.mem_writes_of_introducedBy hx)

theorem pending_of_pending_succ (hst : (cut p.stmts b.points)[k]? = some st)
    (h : b.Pending (k + 1) [] x) : b.Pending k st.stmts x := by
  refine ⟨h.1, fun hx => h.2.1 ?_, h.2.2⟩
  rw [List.append_nil, b.before_succ hst, Stretch.content, ← List.append_assoc]
  exact Bound.mem_introducedBy_append.mpr (Or.inl hx)

end Lowered

section

variable {s : HostState}

/-- Where everything that is known has a slot, the frame does not matter. -/
theorem Matches.of_slots (h : Matches site σ known pending frame s a)
    (hknown : ∀ x, known x → (site.machine.layout.local? x).isSome)
    (hpending : ∀ x, pending x → (site.machine.layout.local? x).isSome) (frame' : Frame) :
    Matches site σ known pending frame' s a := by
  have hslot : ∀ x, (site.machine.layout.local? x).isSome →
      site.content? s frame' (site.machine.layout.place (.localVar x)) =
        site.content? s frame (site.machine.layout.place (.localVar x)) := by
    intro x hx
    obtain ⟨k, hk⟩ := Option.isSome_iff_exists.mp hx
    rw [SlotLayout.place_local hk]
    rfl
  refine ⟨fun q hq => ?_, fun x hx => (hslot x (hpending x hx)).trans (h.pristine x hx),
    h.log, h.calls⟩
  rw [← h.content q hq]
  cases q with
  | localVar x => exact hslot x (hknown x hq)
  | param i =>
    obtain ⟨k, hk⟩ := Option.isSome_iff_exists.mp hq
    rw [SlotLayout.place_param hk]
    rfl
  | field name => rfl

/-- A write to a slot without a variable is not seen. -/
theorem Matches.of_wrote (h : Matches site σ known pending frame s a) {k : SlotId}
    (wrote : site.Wrote (.slot k) v frame s frame' s')
    (hk : ∀ q, site.machine.layout.place q ≠ .slot k) :
    Matches site σ known pending frame' s' a := by
  obtain ⟨f, hinstances⟩ := wrote.instances
  refine ⟨fun q hq => ?_, fun x hx => ?_, ?_, ?_⟩
  · rw [wrote.content, if_neg (hk q)]
    exact h.content q hq
  · rw [wrote.content, if_neg (hk _)]
    exact h.pristine x hx
  · rw [← h.log, hinstances]
    rfl
  · rw [← h.calls, hinstances]
    rfl

/-- A slot written to is what was written. -/
theorem Site.wrote_of_writeSlot {k : SlotId} {u : Unit}
    (h : Returns (site.writeSlot k v) s u s') (frame : Frame) :
    site.Wrote (.slot k) v frame s frame s' :=
  returns_writePlace (returns_writePlace_slot.mpr ⟨h, rfl⟩)

/-- **What a suspension evaluates**, the source evaluates before it pauses. -/
theorem agree_dueOf (call : Caller) (staged : Staged site σ s₀)
    (pausing : Pausing q.operand q.kind)
    (covered : ∀ e ∈ q.kind.operands, e.Covered site.machine.layout known) {due : Due}
    (mirrors : Mirrors site σ known pending s₀ frame s a)
    (h : Returns (dueOf site call frame (resumptionOf site.machine.layout q).timing)
      s due s') :
    ∃ a', Returns (q.operand.pause σ) a () a' ∧
      Mirrors site σ known pending s₀ frame s' a' := by
  unfold resumptionOf at h
  generalize q.kind = kind at *
  generalize q.operand = operand at *
  cases pausing with
  | yield info =>
    obtain ⟨-, rfl⟩ := returns_dueOf.mp h
    exact ⟨a, returns_pure.mpr ⟨rfl, rfl⟩, mirrors⟩
  | delay info e =>
    obtain ⟨v, d, heval, hd, -⟩ := returns_dueOf.mp h
    obtain ⟨a', hvalue, mirrors'⟩ :=
      agree_eval call frame staged e (covered e List.mem_cons_self) mirrors heval
    refine ⟨a', returns_bind.mpr ⟨v, a', hvalue, returns_bind.mpr ⟨d, a', ?_, ?_⟩⟩, mirrors'⟩
    · exact Direct.returns_require hd
    · exact returns_pure.mpr ⟨rfl, rfl⟩
  | delayFrames info e =>
    obtain ⟨n, heval, -⟩ := returns_dueOf.mp h
    obtain ⟨a', hvalue, mirrors'⟩ :=
      agree_eval call frame staged e (covered e List.mem_cons_self) mirrors heval
    refine ⟨a', returns_bind.mpr ⟨.int n, a', hvalue, returns_bind.mpr ⟨n, a', ?_, ?_⟩⟩,
      mirrors'⟩
    · exact Direct.returns_require rfl
    · exact returns_pure.mpr ⟨rfl, rfl⟩

end

/-! ### Segments -/

/-- **What a segment has done when it ends**, with what the source has done from `a` on. -/
inductive Advanced (b : Lowered mode names p site.machine) (σ : Setting) (fuel k : Nat)
    (s : HostState) (a : Activation) (s' : HostState) : Prop where
  /-- Both wait.  The machine is in the next state and has asked to be called back. -/
  | paused (a' : Activation) (more : k < b.points.length)
    (source : Returns (advance σ fuel (b.rest k)) a (.paused (b.rest (k + 1))) a')
    (agree : Matches site σ (b.Known (k + 1) []) (b.Pending (k + 1) []) ⟨[], .empty⟩ s' a')
    (state : site.slotIn s' site.machine.stateSlot = some (.int (.ofNat (k + 1))))
    (books : ∀ slot, slot ≠ site.machine.stateSlot →
      (∀ q, site.machine.layout.place q ≠ .slot slot) →
      site.slotIn s' slot = site.slotIn s slot)
    (task : (site.slotsIn s').map Storage.task = (site.slotsIn s).map Storage.task)
    (tasks : s'.tasks = s.tasks)
    (elsewhere : Elsewhere site.owner s s')
    (request : ∃ due, s'.scheduler = s.scheduler.submit due (.resume site.handle))
  /-- Both are over. -/
  | completed (a' : Activation) (value : Option Value) (frame : Frame) (mid : HostState)
    (source : Returns (advance σ fuel (b.rest k)) a
      (.completed (value.getD σ.defaultResult)) a')
    (mirrors : Mirrors site σ (fun _ => False) (fun _ => False) s frame mid a')
    (finish : Returns (finish site .succeeded value) mid () s')

/-- The end of a segment that suspends, after its statements. -/
theorem advanced_of_armEnd (b : Lowered mode names p site.machine) (timed : p.Timed)
    (hst : (cut p.stmts b.points)[k]? = some st) (hq : st.closing = some q)
    {s mid : HostState} (staged : Staged site σ s)
    (mirrors : Mirrors site σ (b.Known k st.stmts) (b.Pending k st.stmts) s frame mid a')
    (goes : ∀ more stop a'', Returns (advance σ fuel more) a' stop a'' →
      Returns (advance σ fuel (st.stmts ++ more)) a stop a'')
    (h : Returns (execBlock site call fuel (armEnd p.span site.machine.dispatch.name
      (st.segment site.machine.layout k)) frame) mid (flow, frame') s') :
    Advanced b σ fuel k s a s' := by
  have hexit : (st.segment site.machine.layout k).exit =
      some ⟨q.index, resumptionOf site.machine.layout q⟩ := by
    show st.closing.map _ = _
    rw [hq]
    rfl
  obtain ⟨slots, due, last, hslots, hlt, hdue, rfl⟩ := returns_armEnd hexit h
  -- Moving to the next state touches no variable, so from there on the source
  -- is followed anew.
  have wrote := Site.wrote_of_writeSlot (u := ()) (v := .int (.ofNat (k + 1)))
    (Site.returns_writeSlot.mpr ⟨slots, hslots, hlt, rfl⟩) frame
  obtain ⟨f, hinstances⟩ := wrote.instances
  have helse : Elsewhere site.owner s _ :=
    mirrors.apart.elsewhere.trans (Elsewhere.of_modify hinstances)
  have pauses := b.pauses_of_closing timed hst hq
  obtain ⟨a'', hpause, mirrors'⟩ := agree_dueOf call (staged.of_elsewhere helse) pauses.kind
    (fun e he => b.covered_operand timed hst hq he)
    ⟨mirrors.agree.of_wrote wrote b.place_ne_state, Apart.refl _⟩ hdue
  have hsource : Returns (advance σ fuel (b.rest k)) a (.paused (b.rest (k + 1))) a'' := by
    obtain ⟨info, info', hstmt⟩ := pauses.stmt
    rw [b.rest_eq hst, Stretch.content, hq, List.append_assoc, Option.map_some, hstmt]
    refine goes _ _ _ ?_
    exact returns_bind_pure.mpr ⟨(), hpause, rfl⟩
  have hagree := mirrors'.agree.mono (fun x hx => b.known_of_known_succ timed hst hx)
    fun x hx => b.pending_of_pending_succ hst hx
  have hslot : ∀ slot, (∀ r, site.machine.layout.place r ≠ .slot slot) →
      site.slotIn last slot = if slot = site.machine.stateSlot then
        some (.int (.ofNat (k + 1)))
        else site.slotIn s slot := by
    intro slot hnone
    rw [mirrors'.apart.books slot hnone]
    refine (wrote.content (.slot slot)).trans ?_
    by_cases hstate : slot = site.machine.stateSlot
    · rw [if_pos (congrArg _ hstate), if_pos hstate]
    · rw [if_neg fun heq => hstate (Machine.Place.slot.inj heq), if_neg hstate]
      exact mirrors.apart.books slot hnone
  refine .paused a'' ?_ hsource ?_ ?_ (fun slot hne hnone => ?_) ?_ ?_ ?_ ⟨due, ?_⟩
  · rw [b.closing_eq timed.tree hst] at hq
    exact (List.getElem?_eq_some_iff.mp hq).1
  · have hslots :=
      hagree.of_slots (fun x hx => (hx.resolve_right fun hmem => by cases hmem).1)
      (fun x hx => hx.1) ⟨[], .empty⟩
    exact ⟨hslots.content, hslots.pristine, hslots.log, hslots.calls⟩
  · refine (hslot _ b.place_ne_state).trans (if_pos rfl)
  · exact (hslot slot hnone).trans (if_neg hne)
  · exact mirrors'.apart.task.trans (wrote.task.trans mirrors.apart.task)
  · show last.tasks = s.tasks
    rw [mirrors'.apart.tasks, hinstances]
    exact mirrors.apart.tasks
  · have hthere := helse.trans mirrors'.apart.elsewhere
    exact ⟨hthere.instances, hthere.log, hthere.calls, hthere.answers⟩
  · have hscheduler : last.scheduler = s.scheduler := by
      rw [mirrors'.apart.scheduler, hinstances]
      exact mirrors.apart.scheduler
    exact congrArg (fun q : Scheduler => q.submit due (.resume site.handle)) hscheduler

/-- **A segment is one advance of the source.** -/
theorem advanced_of_segment (b : Lowered mode names p site.machine) (timed : p.Timed)
    {seg : Segment} (hseg : b.segments[k]? = some seg) {s : HostState}
    (staged : Staged site σ s)
    (agree : Matches site σ (b.Known k []) (b.Pending k []) ⟨[], .empty⟩ s a)
    (left : flow ≠ .breakLoop ∧ flow ≠ .continueLoop)
    (h : Returns (execBlock site call fuel (seg.body ++
      armEnd p.span site.machine.dispatch.name seg) ⟨[], .empty⟩) s (flow, frame) s') :
    Advanced b σ fuel k s a s' := by
  rw [b.segments_getElem?] at hseg
  obtain ⟨st, hst, rfl⟩ := Option.map_eq_some_iff.mp hseg
  rw [b.segment_body timed hst, List.append_assoc, execBlock_append, Returns,
    (returns_introductions (st.introductions site.machine.layout)).ends_bind] at h
  replace h : Returns (execBlock site call fuel _ _) s (flow, frame) s' := h
  rw [execBlock_append] at h
  obtain ⟨⟨flow', frame'⟩, mid, hstmts, hend⟩ := returns_bind.mp h
  -- Everything that is known has a slot, so it does not matter what the frame begins with.
  have hstart : Mirrors site σ (b.Known k []) (b.Pending k []) s
      (site.introduced (st.introductions site.machine.layout) ⟨[], .empty⟩) s a :=
    ⟨agree.of_slots (fun x hx => (hx.resolve_right fun hmem => by cases hmem).1)
      (fun x hx => hx.1) _, Apart.refl s⟩
  cases stretchRun_of_returns b timed staged hst rfl hstart hstmts with
  | through mirrors goes =>
    cases hq : st.closing with
    | some q => exact advanced_of_armEnd b timed hst hq staged mirrors goes hend
    | none =>
      have hexit : (st.segment site.machine.layout k).exit = none := by
        show st.closing.map _ = _
        rw [hq]
        rfl
      refine .completed _ none _ mid ?_
        (mirrors.mono (fun _ hx => hx.elim) fun _ hx => hx.elim)
        (returns_armEnd_of_last hexit hend)
      rw [b.rest_eq hst, Stretch.content, hq,
        b.rest_eq_nil ((b.closing_eq timed.tree hst).symm.trans hq)]
      rw [List.append_nil]
      exact goes [] _ _ (returns_pure.mpr ⟨rfl, rfl⟩)
  | finished mirrors finish completes =>
    obtain ⟨-, rfl⟩ := returns_pure.mp hend
    refine .completed _ _ _ _ ?_ mirrors finish
    rw [b.rest_eq hst, Stretch.content, List.append_assoc]
    exact completes _
  | stray leaves =>
    -- A dispatch does not return from outside a loop with a loop control.
    have hflow : flow = flow' := by
      rcases leaves with rfl | rfl
      · exact (Prod.mk.inj (returns_pure.mp hend).1).1
      · exact (Prod.mk.inj (returns_pure.mp hend).1).1
    rw [← hflow] at leaves
    rcases leaves with hbreak | hcontinue
    · exact absurd hbreak left.1
    · exact absurd hcontinue left.2

end Resumable
