import Resumable.Proofs.Lowered
import Resumable.Proofs.Outliving

/-!
# What hoisting guarantees

Both judgements of which locals outlive a suspension err on the side of hoisting.  In a
block-scoped body this comes down to two facts.  **A local that is read after a suspension**,
and was introduced before it, has a slot, unless the segment has written it in the meantime.
**A local that is introduced below an `if` or a `while`** has none, since everything that
mentions it is in the same statement.

## Main definitions

* `outliving`: the locals that a judgement hoists.
* `Lowered.before`, `Lowered.rest`: a body around the start of a segment.

## Main statements

* `exists_hoisted_param_iff`, `exists_hoisted_localVar_iff`: which variables
  are to be hoisted.
* `Lowered.isSome_local?`, `Lowered.isSome_param?`: which variables have slots.
* `Lowered.stmts_eq`: a body is its stretches, one after the other.
* `Lowered.hoisted_of_read`, `Lowered.local?_eq_none_of_nested`: the two facts.
-/

namespace Resumable

open Resumable.Bound (Access Expr Procedure Stmt accessesOf accessesOf_append introducedBy
  mem_declaredIn)
open Resumable.Machine (Origin SlotId)

variable {p : Procedure} {mode : LivenessMode} {i k j : Nat} {x : LocalId} {names : NameTable}
  {m : Machine} {operand : Expr} {q : SuspensionPoint} {st : Stretch} {seg later : List Stmt}

/-! ### Which variables have slots -/

/-- The locals that a judgement hoists, if they are declared. -/
def outliving (p : Procedure) (points : List SuspensionPoint) : LivenessMode → IdSet
  | .positional => positionalLocals (accessesOf p.stmts)
  | .dataflow => dataflowLocals (segmentLiveness (cut p.stmts points))

variable {points : List SuspensionPoint}

/-- A hoisted local is one that outlives a suspension. -/
theorem mem_hoistedLocals {v : Variable} :
    v ∈ hoistedLocals p mode points ↔ ∃ x ∈ outliving p points mode, ∃ decl,
    p.local? x = some decl ∧
      v = ⟨.localVar x, decl.name, decl.ty, decl.span⟩ := by
  have hids : hoistedLocals p mode points =
    (outliving p points mode).elems.filterMap fun id =>
      (p.local? id).map fun decl => ⟨.localVar id, decl.name, decl.ty, decl.span⟩ := by
    cases mode <;> rfl
  rw [hids, List.mem_filterMap]
  constructor
  · rintro ⟨x, hx, hsome⟩
    obtain ⟨decl, hdecl, rfl⟩ := Option.map_eq_some_iff.mp hsome
    exact ⟨x, hx, decl, hdecl, rfl⟩
  · rintro ⟨x, hx, decl, hdecl, rfl⟩
    exact ⟨x, hx, by rw [hdecl]; rfl⟩

/-- **The parameters to hoist** are those that the body mentions and the cancellation handle,
by either judgement. -/
theorem exists_hoisted_param_iff (block : p.body = .block p.stmts) (mode : LivenessMode) :
    (∃ v ∈ hoistedVariables p mode points, v.origin = .param i) ↔
      i < p.params.length ∧ (i ∈ (accessesOf p.stmts).filterMap Access.param? ∨
        p.cancellation = some i) := by
  rw [hoistedVariables_eq block]
  constructor
  · rintro ⟨v, hv, horigin⟩
    rcases List.mem_append.mp hv with hv | hv
    · obtain ⟨k, hk, hsome⟩ := List.mem_filterMap.mp hv
      obtain ⟨param, hparam, rfl⟩ := Option.map_eq_some_iff.mp hsome
      obtain rfl := Origin.param.inj horigin
      refine ⟨(List.getElem?_eq_some_iff.mp hparam).1, ?_⟩
      rcases List.mem_append.mp (IdSet.mem_ofList.mp hk) with hk | hk
      · exact Or.inl hk
      · exact Or.inr (Option.mem_toList.mp hk)
    · obtain ⟨x, -, decl, -, rfl⟩ := mem_hoistedLocals.mp hv
      cases horigin
  · rintro ⟨hlt, hi⟩
    have hparam : p.param? i = some p.params[i] := List.getElem?_eq_getElem hlt
    have hids : i ∈ IdSet.ofList ((accessesOf p.stmts).filterMap Access.param? ++
      p.cancellation.toList) :=
      IdSet.mem_ofList.mpr (List.mem_append.mpr (hi.imp_right Option.mem_toList.mpr))
    refine ⟨⟨.param i, p.params[i].name, p.params[i].ty, p.params[i].span⟩,
      List.mem_append_left _ ?_, rfl⟩
    exact List.mem_filterMap.mpr ⟨i, hids, by rw [hparam]; rfl⟩

/-- **The locals to hoist** are those that are declared and judged to outlive a suspension. -/
theorem exists_hoisted_localVar_iff (block : p.body = .block p.stmts) :
    (∃ v ∈ hoistedVariables p mode points, v.origin = .localVar x) ↔
      x ∈ outliving p points mode ∧ (p.local? x).isSome := by
  rw [hoistedVariables_eq block]
  constructor
  · rintro ⟨v, hv, horigin⟩
    rcases List.mem_append.mp hv with hv | hv
    · obtain ⟨i, -, hsome⟩ := List.mem_filterMap.mp hv
      obtain ⟨param, -, rfl⟩ := Option.map_eq_some_iff.mp hsome
      cases horigin
    · obtain ⟨y, hy, decl, hdecl, rfl⟩ := mem_hoistedLocals.mp hv
      cases horigin
      exact ⟨hy, Option.isSome_of_mem hdecl⟩
  · rintro ⟨hx, hdecl⟩
    obtain ⟨decl, hdecl⟩ := Option.isSome_iff_exists.mp hdecl
    exact ⟨_, List.mem_append_right _ (mem_hoistedLocals.mpr ⟨x, hx, decl, hdecl, rfl⟩), rfl⟩

namespace Lowered

variable (b : Lowered mode names p m)

include b

/-- A variable is hoisted when it is one of those to hoist. -/
theorem exists_hoisted {origin : Origin} : (∃ v ∈ b.hoisted, v.origin = origin) ↔
      ∃ v ∈ hoistedVariables p mode b.points, v.origin = origin := by
  rw [← b.hoisting]
  simp

/-- **A local has a slot** when it is declared and judged to outlive a suspension. -/
theorem isSome_local? (x : LocalId) :
    (m.layout.local? x).isSome ↔ x ∈ outliving p b.points mode ∧ (p.local? x).isSome := by
  rw [b.laidOut.isSome_local?, b.exists_hoisted, exists_hoisted_localVar_iff b.block]

/-- **A parameter that the body mentions** has a slot. -/
theorem isSome_param? (hi : i ∈ (accessesOf p.stmts).filterMap Access.param?)
    (hlt : i < p.params.length) : (m.layout.param? i).isSome := by
  rw [b.laidOut.isSome_param?, b.exists_hoisted, exists_hoisted_param_iff b.block]
  exact ⟨hlt, Or.inl hi⟩

/-- The slot of a local has the type of its declaration. -/
theorem ty_of_local? {k : SlotId} (h : m.layout.local? x = some k) :
    ∃ slot decl, m.slots[k]? = some slot ∧ p.local? x = some decl ∧ slot.ty = decl.ty := by
  obtain ⟨slot, hslot, hrole⟩ := b.laidOut.role_local h
  have hty := b.laidOut.types slot (List.mem_of_getElem? hslot)
  rw [hrole] at hty
  obtain ⟨v, hv, horigin, hty⟩ := hty
  have hmem : v.toVariable ∈ hoistedVariables p mode b.points := by
    rw [← b.hoisting]
    exact List.mem_map_of_mem hv
  obtain ⟨i, param, -, heq⟩ | ⟨y, decl, hdecl, heq⟩ := declares_of_mem hmem
  · rw [heq] at horigin
    cases horigin
  · rw [heq] at horigin hty
    obtain rfl := Origin.localVar.inj horigin
    exact ⟨slot, decl, hslot, hdecl, hty⟩

end Lowered

/-! ### Suspensions for time -/

/-- What a suspension for time is made from, and waits for. -/
inductive Pausing : Expr → SuspensionKind → Prop where
  | delay (info : ExprInfo) (e : Expr) (simple : e.isSimple = true) :
    Pausing (.call info (.primitive .delay) [e]) (.timedDelay e)
  | delayFrames (info : ExprInfo) (e : Expr) (simple : e.isSimple = true) :
    Pausing (.call info (.primitive .delayFrames) [e]) (.frameDelay e)
  | yield (info : ExprInfo) : Pausing (.call info (.primitive .yield) []) .yieldStep

theorem Pausing.of_classified {kind : SuspensionKind} {carriesValue : Bool}
    (h : Classified operand kind carriesValue) (timed : operand.isTimed = true) :
    Pausing operand kind ∧ carriesValue = false := by
  cases h with
  | delay info e => exact ⟨.delay info e (Bool.and_eq_true_iff.mp timed).1, rfl⟩
  | delayFrames info e => exact ⟨.delayFrames info e (Bool.and_eq_true_iff.mp timed).1, rfl⟩
  | yield info => exact ⟨.yield info, rfl⟩
  | whenAll | whenAny => cases timed
  | delegate operand _ other =>
    unfold Expr.isTimed at timed
    split at timed
    · exact absurd rfl (other _ _ _)
    · exact absurd rfl (other _ _ _)
    · exact absurd rfl (other _ _ _)
    · cases timed

/-- A point at which the body waits for time. -/
structure SuspensionPoint.Pauses (q : SuspensionPoint) : Prop where
  stmt : ∃ info info', q.stmt = .expr info (.suspend info' q.operand)
  kind : Pausing q.operand q.kind
  delivery : q.delivery = none

/-- **Every point of a timed procedure** is a wait for time, and delivers nothing. -/
theorem Lowered.pauses (b : Lowered mode names p m) (timed : p.Timed) (hq : q ∈ b.points) :
    q.Pauses := by
  obtain ⟨site, i, gives, hstmt, hsus⟩ := site_of_mem b.found hq
  have htimed : site.operand.isTimed = true := by
    rcases timed.simple _ hstmt with hsimple | hpause
    · -- A suspension is not simple.
      generalize site.stmt = s at hsus hsimple
      cases suspending_of_suspensionOf hsus <;> cases hsimple
    · unfold Stmt.isPause at hpause
      rw [hsus] at hpause
      exact hpause
  obtain ⟨hkind, hcarries⟩ := Pausing.of_classified gives.kind htimed
  have hdelivery : q.delivery = none := by
    cases hd : q.delivery with
    | none => rfl
    | some d =>
      have hvalue := gives.carries (by rw [hd]; rfl)
      rw [hcarries] at hvalue
      cases hvalue
  refine ⟨?_, by rw [gives.operand]; exact hkind, hdelivery⟩
  have hnone := gives.delivery.symm.trans hdelivery
  rw [gives.stmt, gives.operand]
  generalize site.stmt = s at hsus hnone
  cases suspending_of_suspensionOf hsus with
  | expr => exact ⟨_, _, rfl⟩
  | bind | assign => cases hnone

/-! ### A body as its stretches -/

/-- The stretches put together are the body. -/
theorem Sliced.flatMap_content {close : SuspensionPoint → SuspensionPoint}
    {opening : Option SuspensionPoint} {stmts : List Stmt} {stretches : List Stretch}
    (h : Sliced close opening stmts points stretches)
    (hclose : ∀ q ∈ points, (close q).stmt = q.stmt) :
    stretches.flatMap Stretch.content = stmts := by
  induction h with
  | last _ => simp [Stretch.content]
  | next _ _ _ ih =>
    rw [List.flatMap_cons, ih fun q hq => hclose q (List.mem_cons_of_mem _ hq)]
    simp [Stretch.content, hclose _ List.mem_cons_self]

namespace Lowered

/-- The statements before a segment. -/
def before (b : Lowered mode names p m) (k : Nat) : List Stmt :=
  ((cut p.stmts b.points).take k).flatMap Stretch.content

/-- The statements from a segment on. -/
def rest (b : Lowered mode names p m) (k : Nat) : List Stmt :=
  ((cut p.stmts b.points).drop k).flatMap Stretch.content

/-- **A body is its stretches, one after the other.** -/
theorem stmts_eq (b : Lowered mode names p m) (tree : p.TreeShaped) (k : Nat) :
    p.stmts = b.before k ++ b.rest k := by
  unfold before rest
  rw [← List.flatMap_append, List.take_append_drop]
  exact (b.sliced.flatMap_content fun q hq =>
    congrArg _ (pointOfStmt_eq_self b.found tree hq)).symm

variable (b : Lowered mode names p m)

/-- The rest of a body, one stretch at a time. -/
theorem rest_eq (hst : (cut p.stmts b.points)[k]? = some st) :
    b.rest k = st.content ++ b.rest (k + 1) := by
  obtain ⟨hlt, rfl⟩ := List.getElem?_eq_some_iff.mp hst
  unfold rest
  rw [List.drop_eq_getElem_cons hlt, List.flatMap_cons]

theorem before_succ (hst : (cut p.stmts b.points)[k]? = some st) :
    b.before (k + 1) = b.before k ++ st.content := by
  obtain ⟨hlt, rfl⟩ := List.getElem?_eq_some_iff.mp hst
  unfold before
  rw [List.take_succ_eq_append_getElem hlt, List.flatMap_append, List.flatMap_singleton]

/-- In a tree-shaped body a stretch is closed by the point after it. -/
theorem closing_eq (tree : p.TreeShaped) (hst : (cut p.stmts b.points)[k]? = some st) :
    st.closing = b.points[k]? := by
  rw [(b.sliced.between hst).2]
  cases hq : b.points[k]? with
  | none => rfl
  | some q => exact congrArg some (pointOfStmt_eq_self b.found tree (List.mem_of_getElem? hq))

/-- Nothing stray is in the operands of a suspension. -/
theorem exprStrays_operand (tree : p.TreeShaped) (hst : (cut p.stmts b.points)[k]? = some st)
    (hq : st.closing = some q) {e : Expr} (he : e ∈ q.kind.operands) : exprStrays e = [] := by
  have hclosing : closingStrays m.layout q = [] := by
    have hnone := (List.append_eq_nil_iff.mp (b.noStrays st (List.mem_of_getElem? hst))).2
    rw [hq] at hnone
    exact hnone
  have hpoint : b.points[k]? = some q := (b.closing_eq tree hst).symm.trans hq
  have hlength := b.length_awaits hpoint
  rw [← b.index_eq hpoint] at hlength
  rw [closingStrays_eq hlength] at hclosing
  exact List.flatMap_eq_nil_iff.mp hclosing e he

/-- The points of a timed procedure pause. -/
theorem pauses_of_closing (timed : p.Timed) (hst : (cut p.stmts b.points)[k]? = some st)
    (hq : st.closing = some q) : q.Pauses := by
  rw [b.closing_eq timed.tree hst] at hq
  exact b.pauses timed (List.mem_of_getElem? hq)

/-- A suspension introduces nothing for the statements after it. -/
theorem introducedBy_content (timed : p.Timed) (hst : (cut p.stmts b.points)[k]? = some st) :
    introducedBy st.content = introducedBy st.stmts := by
  unfold Stretch.content introducedBy
  cases hq : st.closing with
  | none => simp
  | some q =>
    obtain ⟨info, info', hstmt⟩ := (b.pauses_of_closing timed hst hq).stmt
    simp [hstmt, Stmt.introduced?]

/-- What is introduced before a segment is introduced in an earlier one. -/
theorem exists_stretch_of_introduced (hx : x ∈ introducedBy (b.before k)) :
    ∃ j st, j < k ∧ (cut p.stmts b.points)[j]? = some st ∧ x ∈ introducedBy st.content := by
  obtain ⟨s, hs, hx⟩ := List.mem_filterMap.mp hx
  obtain ⟨st, hst, hs⟩ := List.mem_flatMap.mp hs
  obtain ⟨j, hj⟩ := List.getElem?_of_mem hst
  rw [List.getElem?_take] at hj
  split at hj
  case isFalse => cases hj
  case isTrue hlt => exact ⟨j, st, hlt, hj, List.mem_filterMap.mpr ⟨s, hs, hx⟩⟩

end Lowered

/-! ### The two facts -/

namespace Lowered

variable {s : Stmt}

section

variable (b : Lowered mode names p m)

theorem mem_rest (hst : (cut p.stmts b.points)[j]? = some st) (hle : k ≤ j)
    (hs : s ∈ st.content) : s ∈ b.rest k := by
  refine List.mem_flatMap.mpr ⟨st, List.mem_of_getElem? (i := j - k) ?_, hs⟩
  rw [List.getElem?_drop, Nat.add_sub_cancel' hle]
  exact hst

theorem mem_before (hst : (cut p.stmts b.points)[j]? = some st) (hlt : j < k)
    (hs : s ∈ st.content) : s ∈ b.before k := by
  refine List.mem_flatMap.mpr ⟨st, List.mem_of_getElem? (i := j) ?_, hs⟩
  rw [List.getElem?_take, if_pos hlt]
  exact hst

theorem declared_getElem? (hst : (cut p.stmts b.points)[k]? = some st) :
    (segmentLiveness (cut p.stmts b.points)).declared[k]? = some st.declares := by
  show ((cut p.stmts b.points).map Stretch.declares)[k]? = _
  rw [List.getElem?_map, hst]
  rfl

/-- No value is delivered at the start of a stretch of a timed procedure. -/
theorem delivered_eq_none (timed : p.Timed) (hst : (cut p.stmts b.points)[k]? = some st) :
    st.opening.bind SuspensionPoint.delivered? = none := by
  rw [(b.sliced.between hst).1]
  by_cases hk : k = 0
  · rw [if_pos hk]
    rfl
  · rw [if_neg hk]
    cases hq : b.points[k - 1]? with
    | none => rfl
    | some q =>
      rw [Option.bind_some, SuspensionPoint.delivered?,
        (b.pauses timed (List.mem_of_getElem? hq)).delivery]
      rfl

/-- The statement of a point suspends. -/
theorem suspensionOf_point (hq : q ∈ b.points) :
    ∃ info, suspensionOf q.stmt = some (info, q.operand) := (stmt_of_point b.found hq).2

/-- **Before each later segment stands a suspension.** -/
theorem before_eq_of_succ (tree : p.TreeShaped)
    (hst : (cut p.stmts b.points)[k + 1]? = some st) :
    ∃ front info operand stmt, b.before (k + 1) = front ++ [stmt] ∧
      suspensionOf stmt = some (info, operand) := by
  have hlength := b.sliced.length_eq
  have hlt := (List.getElem?_eq_some_iff.mp hst).1
  obtain ⟨prev, hprev⟩ : ∃ prev, (cut p.stmts b.points)[k]? = some prev :=
    ⟨_, List.getElem?_eq_getElem (by omega)⟩
  obtain ⟨q, hq⟩ : ∃ q, b.points[k]? = some q := ⟨_, List.getElem?_eq_getElem (by omega)⟩
  obtain ⟨info, hsus⟩ := b.suspensionOf_point (List.mem_of_getElem? hq)
  refine ⟨b.before k ++ prev.stmts, info, q.operand, q.stmt, ?_, hsus⟩
  rw [b.before_succ hprev, Stretch.content, b.closing_eq tree hprev, hq, Option.map_some,
    Option.toList_some, List.append_assoc]

end

/-- A statement that suspends introduces its local before it suspends, and after that it only
evaluates the operand and writes. -/
theorem accesses_of_suspensionOf {info : ExprInfo}
    (h : suspensionOf s = some (info, operand)) :
    ∃ writes, s.accesses = (s.introduced?.map Access.declare).toList ++ .suspend ::
      (operand.accesses ++ writes) ∧
      ∀ a ∈ writes, a.declared? = none := by
  cases suspending_of_suspensionOf h with
  | assign _ target =>
    refine ⟨target.accesses, rfl, fun a ha => ?_⟩
    cases target with
    | localVar | param =>
      obtain rfl := List.mem_singleton.mp ha
      rfl
    | field => cases ha
  | expr | bind =>
    exact ⟨[], by simp [Stmt.accesses, Expr.accesses, Stmt.introduced?], by simp⟩

/-- **A local that was introduced before the segment and is read in it** has a slot, unless
the segment has written it, or a value for it was delivered at the start. -/
theorem hoisted_of_read (b : Lowered mode names p m) (tree : p.TreeShaped)
    (hst : (cut p.stmts b.points)[k]? = some st) (hsplit : st.content = seg ++ s :: later)
    (hdeclared : (p.local? x).isSome) (hx : x ∈ introducedBy (b.before k))
    (hread : x ∈ readsOf s) (hwritten : x ∉ seg.filterMap writes?)
    (hdelivered : st.opening.bind SuspensionPoint.delivered? ≠ some x) :
    (m.layout.local? x).isSome := by
  have hcontent : s ∈ st.content := by
    rw [hsplit]
    exact List.mem_append_right _ List.mem_cons_self
  have hrest : .readLocal x ∈ accessesOf (b.rest k) :=
    Bound.mem_accessesOf.mpr ⟨s, b.mem_rest hst (Nat.le_refl k) hcontent,
      mem_readsOf.mp hread⟩
  have hbody : .readLocal x ∈ accessesOf p.stmts := by
    rw [b.stmts_eq tree k, accessesOf_append]
    exact List.mem_append_right _ hrest
  have hreferenced : x ∈ (accessesOf p.stmts).filterMap Access.referenced? :=
    List.mem_filterMap.mpr ⟨_, hbody, rfl⟩
  rw [b.isSome_local?]
  refine ⟨?_, hdeclared⟩
  obtain ⟨j, early, hlt, hearly, hintroduced⟩ := b.exists_stretch_of_introduced hx
  cases mode with
  | positional =>
    -- A suspension stands between the introduction and the read.
    refine IdSet.mem_ofList.mpr (List.mem_filter.mpr ⟨hreferenced, ?_⟩)
    obtain ⟨k, rfl⟩ : ∃ k', k = k' + 1 := ⟨k - 1, by omega⟩
    obtain ⟨front, info, operand, stmt, hbefore, hsus⟩ := b.before_eq_of_succ tree hst
    obtain ⟨writes, hwrites, -⟩ := accesses_of_suspensionOf hsus
    have hfront : .declare x ∈
        accessesOf front ++ (stmt.introduced?.map Access.declare).toList := by
      rw [hbefore] at hx
      rcases Bound.mem_introducedBy_append.mp hx with hx | hx
      · obtain ⟨t, ht, hdeclared⟩ :=
          mem_declaredIn.mp (Bound.introducedBy_subset_declaredIn hx)
        exact List.mem_append_left _ (Bound.mem_accessesOf.mpr
          ⟨t, ht, mem_declaresOf.mp hdeclared⟩)
      · obtain ⟨t, ht, hintroduced⟩ := List.mem_filterMap.mp hx
        obtain rfl := List.mem_singleton.mp ht
        rw [hintroduced]
        exact List.mem_append_right _ (List.mem_singleton.mpr rfl)
    have haccesses : accessesOf p.stmts =
        (accessesOf front ++ (stmt.introduced?.map Access.declare).toList) ++
          .suspend :: ((operand.accesses ++ writes) ++ accessesOf (b.rest (k + 1))) := by
      rw [b.stmts_eq tree (k + 1), hbefore, accessesOf_append, accessesOf_append]
      simp [accessesOf, hwrites]
    rw [haccesses]
    exact outlivesSuspension_of_mem hfront (List.mem_append_right _ hrest) rfl
  | dataflow =>
    -- The segment reads the local before it writes it, so the local is live where the
    -- segment begins.
    have hflow : ((cut p.stmts b.points).map Stretch.flow)[k]? = some st.flow := by
      rw [List.getElem?_map, hst]
      rfl
    obtain ⟨live, hlive⟩ : ∃ live,
        (liveSets ((cut p.stmts b.points).map Stretch.flow))[k]? = some live := by
      refine ⟨_, List.getElem?_eq_getElem ?_⟩
      rw [length_liveSets]
      exact (List.getElem?_eq_some_iff.mp hflow).1
    have hgen := Stretch.mem_gen_of_read hsplit hread hwritten hdelivered
    refine mem_dataflowLocals.mpr ⟨k, live, hlive, mem_liveSets_of_gen hflow hlive hgen, ?_⟩
    have hdeclared : x ∈ early.declares := by
      rw [early.declares_eq]
      exact Bound.introducedBy_subset_declaredIn hintroduced
    obtain ⟨first, -, hfirst, hle, -⟩ := declaredIn?_le (b.declared_getElem? hearly) hdeclared
    rw [hfirst]
    exact Nat.lt_of_le_of_lt hle hlt

/-- **A local that is introduced below an `if` or a `while`** has no slot: nothing after the
statement mentions it. -/
theorem local?_eq_none_of_nested (b : Lowered mode names p m) (timed : p.Timed)
    (hst : (cut p.stmts b.points)[k]? = some st) (hsplit : st.content = seg ++ s :: later)
    (hsimple : s.isSimple = true) (hnested : s.introduced? = none)
    (hx : x ∈ declaresOf s) : m.layout.local? x = none := by
  have hbody : p.stmts = (b.before k ++ seg ++ [s]) ++ (later ++ b.rest (k + 1)) := by
    have hstmts := b.stmts_eq timed.tree k
    rw [b.rest_eq hst, hsplit] at hstmts
    rw [hstmts]
    simp
  generalize hfront : b.before k ++ seg = front at hbody
  generalize hback : later ++ b.rest (k + 1) = back at hbody
  have honce := timed.once
  rw [hbody, Bound.declaredIn_append, Bound.declaredIn_append, Bound.declaredIn_cons] at honce
  obtain ⟨hfirst, -, hlast⟩ := List.nodup_append.mp honce
  obtain ⟨-, -, hmiddle⟩ := List.nodup_append.mp hfirst
  have hnotFront : x ∉ Bound.declaredIn front := fun hmem =>
    hmiddle x hmem x (List.mem_append_left _ hx) rfl
  have hnotBack : x ∉ Bound.declaredIn back := fun hmem =>
    hlast x (List.mem_append_right _ (List.mem_append_left _ hx)) x hmem rfl
  have hunmentioned : ∀ a ∈ accessesOf back, a.referenced? ≠ some x := by
    intro a ha href
    have hscopes := timed.scopes
    rw [hbody] at hscopes
    have hkeeps := Bound.keepsTo_block back (Bound.isWellScopedBlock_append.mp hscopes).2
    rcases hkeeps a ha x href with hscope | hdeclared
    · rw [List.nil_append] at hscope
      rcases Bound.mem_introducedBy_append.mp hscope with hscope | hscope
      · exact hnotFront (Bound.introducedBy_subset_declaredIn hscope)
      · rw [introducedBy, List.filterMap_cons, hnested] at hscope
        cases hscope
    · exact hnotBack hdeclared
  rw [← Option.not_isSome_iff_eq_none, b.isSome_local?]
  rintro ⟨houtlives, -⟩
  cases mode with
  | positional =>
    have houtlives := (List.mem_filter.mp (IdSet.mem_ofList.mp houtlives)).2
    have haccesses : accessesOf p.stmts =
        accessesOf front ++ (s.accesses ++ accessesOf back) := by
      rw [hbody, accessesOf_append, accessesOf_append]
      simp [accessesOf]
    rw [haccesses, outlivesSuspension_eq_false _ (mem_declaresOf.mp hx)
      (fun hmem => (Bound.Node.accesses_of_isSimple (n := .stmt s) hsimple hmem).1 rfl)
        hunmentioned] at houtlives
    · cases houtlives
    · intro hdeclare
      exact hnotFront (List.mem_filterMap.mpr ⟨_, hdeclare, rfl⟩)
  | dataflow =>
    obtain ⟨i, live, hlive, hmem, hlt⟩ := mem_dataflowLocals.mp houtlives
    have hdeclared : x ∈ st.declares := by
      rw [st.declares_eq]
      refine mem_declaredIn.mpr ⟨s, ?_, hx⟩
      rw [hsplit]
      exact List.mem_append_right _ List.mem_cons_self
    obtain ⟨first, ids, hfound, hle, hids, hxids⟩ :=
      declaredIn?_le (b.declared_getElem? hst) hdeclared
    have hthis : first = k := by
      refine Nat.le_antisymm hle (Nat.le_of_not_lt fun hearly => hnotFront ?_)
      obtain ⟨early, hst', rfl⟩ : ∃ early, (cut p.stmts b.points)[first]? = some early ∧
          early.declares = ids := by
        replace hids : ((cut p.stmts b.points).map Stretch.declares)[first]? = some ids :=
          hids
        rw [List.getElem?_map] at hids
        exact Option.map_eq_some_iff.mp hids
      rw [early.declares_eq] at hxids
      obtain ⟨t, ht, hxt⟩ := mem_declaredIn.mp hxids
      rw [← hfront]
      exact mem_declaredIn.mpr ⟨t, List.mem_append_left _ (b.mem_before hst' hearly ht), hxt⟩
    rw [hfound, hthis, Option.getD_some] at hlt
    -- What keeps the local live would be a read in a later segment.
    obtain ⟨j, f, hij, hf, hgen⟩ := exists_gen_of_mem_liveSets hlive hmem
    obtain ⟨late, hlate, rfl⟩ : ∃ late,
      (cut p.stmts b.points)[j]? = some late ∧ late.flow = f := by
      rw [List.getElem?_map] at hf
      exact Option.map_eq_some_iff.mp hf
    obtain ⟨t, ht, hread⟩ := Stretch.exists_of_mem_gen hgen
    refine hunmentioned (.readLocal x) ?_ rfl
    rw [← hback]
    exact Bound.mem_accessesOf.mpr ⟨t,
      List.mem_append_right _ (b.mem_rest hlate (by omega) ht), mem_readsOf.mp hread⟩

end Lowered

end Resumable
