import Resumable.Proofs.Scoping

/-!
# Locals that outlive a suspension

The two judgements of which locals outlive a suspension, read as statements about a body.  By
position, a local outlives a suspension that stands between its introduction and a reference.
By dataflow, it is live at the start of a segment when that segment or a later one reads it
before writing it.

## Main definitions

* `Stretch.content`: the statements of a stretch with the one that closes it.

## Main statements

* `outlivesSuspension_of_mem`, `outlivesSuspension_eq_false`: the judgement by position.
* `Stretch.mem_gen_of_read`, `Stretch.exists_of_mem_gen`: what a stretch needs from before.
* `mem_liveSets_of_gen`, `exists_gen_of_mem_liveSets`: what is live before a segment.
* `mem_dataflowLocals`: the judgement by dataflow.
-/

namespace Resumable

open Resumable.Bound (Access Stmt)

variable {s : Stmt} {a : Access} {f : SegmentFlow} {st : Stretch} {flows : List SegmentFlow}
  {live : IdSet} {l : SegmentLiveness} {x : LocalId} {first rest : List Access}

/-- The reads of a statement, among its accesses. -/
theorem mem_readsOf : x ∈ readsOf s ↔ .readLocal x ∈ s.accesses := by
  unfold readsOf
  rw [List.mem_filterMap]
  constructor
  · rintro ⟨a, ha, hx⟩
    cases a with
    | readLocal y =>
      obtain rfl := Option.some.inj hx
      exact ha
    | _ => cases hx
  · exact fun h => ⟨_, h, rfl⟩

/-- The declarations of a statement, among its accesses. -/
theorem mem_declaresOf : x ∈ declaresOf s ↔ .declare x ∈ s.accesses := by
  unfold declaresOf
  rw [List.mem_filterMap]
  constructor
  · rintro ⟨a, ha, hx⟩
    cases a with
    | declare y =>
      obtain rfl := Option.some.inj hx
      exact ha
    | _ => cases hx
  · exact fun h => ⟨_, h, rfl⟩

/-- The statements of a stretch, with the one that closes it. -/
def Stretch.content (st : Stretch) : List Stmt :=
  st.stmts ++ (st.closing.map SuspensionPoint.stmt).toList

/-! ### The positional judgement -/

/-- What comes after the first declaration. -/
theorem afterDeclaration_append (h : .declare x ∉ first) :
    afterDeclaration x (first ++ .declare x :: rest) = rest := by
  unfold afterDeclaration
  rw [if_pos (List.mem_append_right _ List.mem_cons_self), List.dropWhile_append_of_pos]
  · simp
  · intro a ha
    refine decide_eq_true ?_
    rintro rfl
    exact h ha

theorem mem_dropWhile_of_suspend (ha : a ∈ rest) :
    a ∈ (first ++ .suspend :: rest).dropWhile (· ≠ .suspend) := by
  induction first with
  | nil => simpa using Or.inr ha
  | cons b first ih =>
    by_cases hb : b = .suspend
    · subst hb
      simpa using Or.inr (Or.inr (Or.inr ha))
    · rw [List.cons_append, List.dropWhile_cons_of_pos (by simpa using hb)]
      exact ih

/-- A local with a suspension between its introduction and a reference
outlives the suspension. -/
theorem outlivesSuspension_of_mem (hdeclare : .declare x ∈ first) (ha : a ∈ rest)
    (hx : a.referenced? = some x) :
    outlivesSuspension (first ++ .suspend :: rest) x = true := by
  obtain ⟨front, back, rfl, hfront⟩ := List.eq_append_cons_of_mem hdeclare
  unfold outlivesSuspension
  rw [List.append_assoc, List.cons_append, afterDeclaration_append hfront]
  exact List.any_eq_true.mpr ⟨a, mem_dropWhile_of_suspend ha, by simp [hx]⟩

/-- A local that is mentioned only where nothing suspends outlives no suspension. -/
theorem outlivesSuspension_eq_false {middle last : List Access}
    (hfirst : .declare x ∉ first) (hmiddle : .declare x ∈ middle)
    (hsuspend : .suspend ∉ middle) (hlast : ∀ a ∈ last, a.referenced? ≠ some x) :
    outlivesSuspension (first ++ (middle ++ last)) x = false := by
  obtain ⟨front, back, rfl, hfront⟩ := List.eq_append_cons_of_mem hmiddle
  unfold outlivesSuspension
  have hsplit : first ++ ((front ++ .declare x :: back) ++ last) =
      (first ++ front) ++ .declare x :: (back ++ last) := by simp
  rw [hsplit, afterDeclaration_append fun h => (List.mem_append.mp h).elim hfirst hfront,
    List.dropWhile_append_of_pos]
  · refine List.any_eq_false.mpr fun a ha => ?_
    simpa using hlast a ((List.dropWhile_sublist _).subset ha)
  · intro a ha
    refine decide_eq_true ?_
    rintro rfl
    exact hsuspend (List.mem_append_right _ (List.mem_cons_of_mem _ ha))

/-! ### The judgement by dataflow -/

namespace SegmentFlow

variable {x : LocalId} {stmts : List Stmt}

/-- What a statement adds to the reads of a stretch. -/
theorem mem_gen_step : x ∈ (f.step s).gen ↔ x ∈ f.gen ∨ x ∈ readsOf s ∧ ¬ x ∈ f.kill := by
  have hgen : (f.step s).gen = (f.read (readsOf s)).gen := by
    unfold step write
    cases writes? s <;> rfl
  rw [hgen]
  simp [read]

theorem mem_kill_step : x ∈ (f.step s).kill ↔ writes? s = some x ∨ x ∈ f.kill := by
  unfold step write read
  cases hs : writes? s with
  | none => simp
  | some y => simp [eq_comm]

/-- What is read stays read. -/
theorem mem_gen_foldl (h : x ∈ f.gen) : x ∈ (stmts.foldl step f).gen := by
  induction stmts generalizing f with
  | nil => exact h
  | cons s rest ih => exact ih (mem_gen_step.mpr (Or.inl h))

/-- What is read is read by a statement. -/
theorem exists_of_mem_gen_foldl (h : x ∈ (stmts.foldl step f).gen) :
    x ∈ f.gen ∨ ∃ s ∈ stmts, x ∈ readsOf s := by
  induction stmts generalizing f with
  | nil => exact Or.inl h
  | cons s rest ih =>
    rcases ih h with hstep | ⟨t, ht, hx⟩
    · rcases mem_gen_step.mp hstep with hf | ⟨hread, -⟩
      · exact Or.inl hf
      · exact Or.inr ⟨s, List.mem_cons_self, hread⟩
    · exact Or.inr ⟨t, List.mem_cons_of_mem _ ht, hx⟩

/-- What is written is written by a statement. -/
theorem mem_kill_foldl (h : x ∈ (stmts.foldl step f).kill) :
    x ∈ f.kill ∨ x ∈ stmts.filterMap writes? := by
  induction stmts generalizing f with
  | nil => exact Or.inl h
  | cons s rest ih =>
    rcases ih h with hstep | hrest
    · rcases mem_kill_step.mp hstep with hwrite | hf
      · exact Or.inr (List.mem_filterMap.mpr ⟨s, List.mem_cons_self, hwrite⟩)
      · exact Or.inl hf
    · obtain ⟨t, ht, hx⟩ := List.mem_filterMap.mp hrest
      exact Or.inr (List.mem_filterMap.mpr ⟨t, List.mem_cons_of_mem _ ht, hx⟩)

end SegmentFlow

namespace Stretch

/-- The flow before the first statement of a stretch: the delivery that
opens it is a write. -/
def flowStart (st : Stretch) : SegmentFlow :=
  (⟨.empty, .empty⟩ : SegmentFlow).write (st.opening.bind SuspensionPoint.delivered?)

theorem flowStart_gen : st.flowStart.gen = .empty := by
  unfold flowStart SegmentFlow.write
  split <;> rfl

theorem mem_flowStart {x : LocalId} :
    x ∈ st.flowStart.kill ↔ st.opening.bind SuspensionPoint.delivered? = some x := by
  unfold flowStart SegmentFlow.write
  cases st.opening.bind SuspensionPoint.delivered? with
  | none => simp
  | some y => simp [eq_comm]

/-- The reads of a stretch, added up over its content. -/
theorem flow_gen (st : Stretch) :
    st.flow.gen = (st.content.foldl SegmentFlow.step st.flowStart).gen := by
  unfold Stretch.flow Stretch.content
  rw [List.foldl_append]
  cases st.closing with
  | none => rfl
  | some q =>
    -- As far as reads go, evaluating the operand is a step like any other.
    simp only [Option.map_some, Option.toList_some, List.foldl_cons, List.foldl_nil]
    unfold SegmentFlow.step SegmentFlow.write
    cases writes? q.stmt <;> rfl

/-- **What a stretch reads before writing it** is needed from before, in its statements and in
the operand that closes it, unless it is delivered at the start. -/
theorem mem_gen_of_read {seg later : List Stmt} (hsplit : st.content = seg ++ s :: later)
    {x : LocalId} (hread : x ∈ readsOf s) (hwritten : x ∉ seg.filterMap writes?)
    (hdelivered : st.opening.bind SuspensionPoint.delivered? ≠ some x) : x ∈ st.flow.gen := by
  rw [flow_gen, hsplit, List.foldl_append, List.foldl_cons]
  refine SegmentFlow.mem_gen_foldl (SegmentFlow.mem_gen_step.mpr
    (Or.inr ⟨hread, fun hkill => ?_⟩))
  rcases SegmentFlow.mem_kill_foldl hkill with hold | hwrite
  · exact hdelivered (mem_flowStart.mp hold)
  · exact hwritten hwrite

/-- What a stretch needs from before, it reads. -/
theorem exists_of_mem_gen {x : LocalId} (h : x ∈ st.flow.gen) :
    ∃ s ∈ st.content, x ∈ readsOf s := by
  rw [flow_gen] at h
  refine (SegmentFlow.exists_of_mem_gen_foldl h).resolve_left fun hstart => ?_
  rw [flowStart_gen] at hstart
  exact IdSet.not_mem_empty _ hstart

/-- The declarations of a stretch are those of its content. -/
theorem declares_eq (st : Stretch) : st.declares = Bound.declaredIn st.content := by
  have hstmts : ∀ stmts : List Stmt, stmts.flatMap declaresOf = Bound.declaredIn stmts := by
    intro stmts
    induction stmts with
    | nil => rfl
    | cons s rest ih => rw [List.flatMap_cons, ih, Bound.declaredIn_cons]
  unfold Stretch.declares Stretch.content
  rw [Bound.declaredIn_append, hstmts]
  cases st.closing with
  | none => rfl
  | some q => simp [Bound.declaredIn, Bound.accessesOf, declaresOf]

end Stretch

/-- What a segment needs is live before it. -/
theorem mem_liveSets_of_gen {k : Nat} (hf : flows[k]? = some f)
    (hlive : (liveSets flows)[k]? = some live) (hx : x ∈ f.gen) : x ∈ live := by
  induction flows generalizing k with
  | nil => cases hf
  | cons first rest ih =>
    cases k with
    | zero =>
      obtain rfl := Option.some.inj hf
      obtain rfl := Option.some.inj hlive
      exact IdSet.mem_union.mpr (Or.inl hx)
    | succ k => exact ih hf hlive

/-- **What is live before a segment** is needed by it or by a later one. -/
theorem exists_gen_of_mem_liveSets {k : Nat} (hlive : (liveSets flows)[k]? = some live)
    (hx : x ∈ live) : ∃ j f, k ≤ j ∧ flows[j]? = some f ∧ x ∈ f.gen := by
  induction flows generalizing k live with
  | nil => cases hlive
  | cons first rest ih =>
    cases k with
    | succ k =>
      obtain ⟨j, f, hle, hf, hgen⟩ := ih hlive hx
      exact ⟨j + 1, f, Nat.succ_le_succ hle, hf, hgen⟩
    | zero =>
      obtain rfl := Option.some.inj hlive
      rcases IdSet.mem_union.mp hx with hgen | hafter
      · exact ⟨0, first, Nat.le_refl _, rfl, hgen⟩
      · have hafter := (IdSet.mem_diff.mp hafter).1
        cases hhead : (liveSets rest).head? with
        | none =>
          rw [hhead] at hafter
          exact absurd hafter (IdSet.not_mem_empty _)
        | some next =>
          rw [hhead] at hafter
          rw [List.head?_eq_getElem?] at hhead
          obtain ⟨j, f, -, hf, hgen⟩ := ih hhead hafter
          exact ⟨j + 1, f, Nat.zero_le _, hf, hgen⟩

theorem length_liveSets (flows : List SegmentFlow) :
    (liveSets flows).length = flows.length := by
  induction flows with
  | nil => rfl
  | cons f rest ih => simp [liveSets, ih]

/-- By data flow, a local is live past the segment that declares it. -/
theorem mem_dataflowLocals : x ∈ dataflowLocals l ↔
      ∃ k live, l.liveIn[k]? = some live ∧ x ∈ live ∧ (l.declaredIn? x).getD 0 < k := by
  unfold dataflowLocals
  rw [IdSet.mem_ofList, List.mem_flatMap]
  constructor
  · rintro ⟨⟨live, k⟩, hmem, hx⟩
    obtain ⟨hx, hlt⟩ := List.mem_filter.mp hx
    exact ⟨k, live, List.mk_mem_zipIdx_iff_getElem?.mp hmem, hx, of_decide_eq_true hlt⟩
  · rintro ⟨k, live, hlive, hx, hlt⟩
    exact ⟨(live, k), List.mk_mem_zipIdx_iff_getElem?.mpr hlive,
      List.mem_filter.mpr ⟨hx, decide_eq_true hlt⟩⟩

/-- The first segment that introduces a local is not after one that does. -/
theorem declaredIn?_le {j : Nat} {ids : List LocalId} (hids : l.declared[j]? = some ids)
    (hx : x ∈ ids) :
    ∃ first ids', l.declaredIn? x = some first ∧ first ≤ j ∧
      l.declared[first]? = some ids' ∧ x ∈ ids' := by
  have hcontains : ids.contains x = true := by simpa using hx
  cases hfound : l.declaredIn? x with
  | none =>
    have hnone := List.findIdx?_eq_none_iff.mp hfound ids (List.mem_of_getElem? hids)
    rw [hcontains] at hnone
    cases hnone
  | some first =>
    obtain ⟨hlt, hmem, hearlier⟩ := List.findIdx?_eq_some_iff_getElem.mp hfound
    refine ⟨first, _, rfl, ?_, List.getElem?_eq_getElem hlt, by simpa using hmem⟩
    refine Nat.le_of_not_lt fun hj => ?_
    obtain ⟨hjlt, rfl⟩ := List.getElem?_eq_some_iff.mp hids
    exact hearlier j hj hcontains

end Resumable
