import Resumable.Bound.NodeTable
import Resumable.Proofs.Hoisting

/-!
# Hoisting by position and by dataflow

The two judgements of which locals outlive a suspension are compared on bodies in which a
statement number names one statement; tree-shaped bodies and bodies from node tables are such.
Dataflow looks at whole segments, and the operand of a suspension belongs to the segment that
the suspension closes.  By position the suspension comes first and its operand after it.  So a
local that is introduced in an operand, in a closure there, counts as introduced before the
suspension for one judgement and after it for the other.  **For all other locals dataflow
hoists no more** than position does.  The parameters are the same in both.

What keeps a procedure from being lowered depends on the judgement only through the types of
what it hoists.  A procedure that lowers by position therefore lowers by dataflow, unless an
operand introduces a local that cannot be stored.

## Main definitions

* `Bound.Procedure.Consistent`: a statement number names one statement.
* `Lowerable`: what lowering needs, without the machine.

## Main statements

* `mem_outliving_of_dataflow`: what dataflow hoists, position hoists, or an
  operand introduces it.
* `exists_lowerPoints_iff`: lowering needs nothing more than it says.
* `lowers_by_dataflow`: what lowers by position lowers by dataflow.
* `detour_modes`: a procedure that lowers by position only.
-/

namespace Resumable

open Resumable.Bound (Access Procedure accessesOf mem_accessesOf)

variable {p : Procedure} {q : SuspensionPoint} {stretches : List Stretch} {l : SlotLayout}
  {mode : LivenessMode} {namer : SlotNamer}

/-! ### Statement numbers -/

namespace Bound

/-- A statement number names one statement. -/
def Procedure.Consistent (p : Procedure) : Prop :=
  ∀ s ∈ p.stmts, ∀ t ∈ p.stmts, s.id = t.id → s = t

theorem Procedure.TreeShaped.consistent (h : p.TreeShaped) : p.Consistent :=
  fun _ hs _ ht => List.inj_on_of_nodup_map (nodup_ids h) hs ht

end Bound

section

variable {names : NameTable} {points : List SuspensionPoint}

/-- The point that is looked up for a point has the same statement. -/
theorem stmt_pointOfStmt (found : suspensionPoints names p = .ok points)
    (consistent : p.Consistent) (hq : q ∈ points) : (pointOfStmt points q).stmt = q.stmt := by
  obtain ⟨i, hi⟩ := List.getElem?_of_mem hq
  exact consistent _ (stmt_of_point found (pointOfStmt_mem hq)).1 _ (stmt_of_point found hq).1
    (pointOfStmt_last (fun _ _ => index_of_points found) hi).2.1

/-! ### The two judgements -/

variable {st : Stretch} {x : LocalId} {hoisted : List Hoisted} {options : LowerOptions}

/-- **The accesses of a body around a suspension point.**  What the segment before
it introduces comes first, unless the operand introduces it; what later segments
do comes after it. -/
theorem accesses_around (found : suspensionPoints names p = .ok points)
    (consistent : p.Consistent) {d : Nat} (hst : (cut p.stmts points)[d]? = some st)
    (hq : points[d]? = some q) :
    ∃ first later, accessesOf p.stmts = first ++ .suspend :: later ∧
      (∀ x, .declare x ∈ accessesOf st.content → .declare x ∈ first ∨
        .declare x ∈ q.operand.accesses) ∧
      ∀ j st', d < j → (cut p.stmts points)[j]? = some st' →
      ∀ a ∈ accessesOf st'.content, a ∈ later := by
  have hmem := List.mem_of_getElem? hq
  obtain ⟨-, info, hsuspends⟩ := stmt_of_point found hmem
  obtain ⟨writes, haccesses, hwrites⟩ := Lowered.accesses_of_suspensionOf hsuspends
  have hcontent : st.content = st.stmts ++ [q.stmt] := by
    unfold Stretch.content
    rw [((cut_sliced found).between hst).2, hq]
    exact congrArg (fun s => st.stmts ++ [s]) (stmt_pointOfStmt found consistent hmem)
  -- The body is the stretches before this one, this one with the statement of the point, and
  -- those after it.
  have hbody : p.stmts = ((cut p.stmts points).take d).flatMap Stretch.content ++
      (st.content ++ ((cut p.stmts points).drop (d + 1)).flatMap Stretch.content) := by
    obtain ⟨hlt, heq⟩ := List.getElem?_eq_some_iff.mp hst
    rw [← heq, ← List.flatMap_cons, ← List.drop_eq_getElem_cons hlt, ← List.flatMap_append,
      List.take_append_drop]
    exact ((cut_sliced found).flatMap_content fun r hr =>
      stmt_pointOfStmt found consistent hr).symm
  refine ⟨accessesOf (((cut p.stmts points).take d).flatMap Stretch.content) ++
    accessesOf st.stmts ++
      (q.stmt.introduced?.map Access.declare).toList,
    q.operand.accesses ++ writes ++ accessesOf
      (((cut p.stmts points).drop (d + 1)).flatMap Stretch.content),
    ?_, ?_, ?_⟩
  · refine (congrArg accessesOf hbody).trans ?_
    simp [hcontent, Bound.accessesOf_append, accessesOf, haccesses]
  · intro x hx
    rw [hcontent, Bound.accessesOf_append] at hx
    rcases List.mem_append.mp hx with hx | hx
    · exact Or.inl (List.mem_append_left _ (List.mem_append_right _ hx))
    · rw [accessesOf, accessesOf, List.append_nil, haccesses] at hx
      rcases List.mem_append.mp hx with hx | hx
      · exact Or.inl (List.mem_append_right _ hx)
      · rcases List.mem_append.mp ((List.mem_cons.mp hx).resolve_left Access.noConfusion)
          with hx | hx
        · exact Or.inr hx
        · cases hwrites _ hx
  · intro j st' hj hst' a ha
    have hmem' : st' ∈ (cut p.stmts points).drop (d + 1) := by
      refine List.mem_of_getElem? (i := j - (d + 1)) ?_
      rw [List.getElem?_drop, Nat.add_sub_cancel' hj, hst']
    obtain ⟨s, hs, has⟩ := mem_accessesOf.mp ha
    exact List.mem_append_right _ (mem_accessesOf.mpr
      ⟨s, List.mem_flatMap.mpr ⟨st', hmem', hs⟩, has⟩)

/-- A local that nothing introduces outlives a suspension before a reference to it. -/
theorem outlivesSuspension_of_undeclared {first later : List Access} {a : Access}
    (hdeclare : .declare x ∉ first ++ .suspend :: later) (ha : a ∈ later)
    (hx : a.referenced? = some x) :
    outlivesSuspension (first ++ .suspend :: later) x = true := by
  unfold outlivesSuspension afterDeclaration
  rw [if_neg hdeclare]
  exact List.any_eq_true.mpr ⟨a, mem_dropWhile_of_suspend ha, by simp [hx]⟩

/-- What a stretch introduces, by its accesses. -/
theorem mem_declares_iff : x ∈ st.declares ↔ .declare x ∈ accessesOf st.content := by
  rw [st.declares_eq, Bound.mem_declaredIn, mem_accessesOf]
  exact exists_congr fun s => and_congr_right fun _ => mem_declaresOf

theorem mem_declares_of_declaredIn? {i : Nat}
    (h : (segmentLiveness stretches).declaredIn? x = some i) (hst : stretches[i]? = some st) :
    x ∈ st.declares := by
  obtain ⟨hlt, hcontains, -⟩ := List.findIdx?_eq_some_iff_getElem.mp h
  have hdeclares : (segmentLiveness stretches).declared[i]? = some st.declares := by
    show (stretches.map Stretch.declares)[i]? = _
    rw [List.getElem?_map, hst]
    rfl
  rw [List.getElem?_eq_getElem hlt] at hdeclares
  rw [Option.some.inj hdeclares] at hcontains
  simpa using hcontains

theorem not_mem_declares_of_declaredIn? (h : (segmentLiveness stretches).declaredIn? x = none)
    (hst : st ∈ stretches) : x ∉ st.declares := by
  have hnone := List.findIdx?_eq_none_iff.mp h st.declares (List.mem_map_of_mem hst)
  simpa using hnone

/-- **What dataflow hoists, position hoists too**, unless the operand of a
suspension introduces it. -/
theorem mem_outliving_of_dataflow (found : suspensionPoints names p = .ok points)
    (consistent : p.Consistent) (hx : x ∈ outliving p points .dataflow) :
    x ∈ outliving p points .positional ∨ ∃ q ∈ points, .declare x ∈ q.operand.accesses := by
  have hsliced := cut_sliced found
  obtain ⟨k, live, hlive, hmem, hlt⟩ := mem_dataflowLocals.mp hx
  obtain ⟨j, flow, hle, hflow, hgen⟩ := exists_gen_of_mem_liveSets hlive hmem
  rw [List.getElem?_map] at hflow
  obtain ⟨reader, hreader, rfl⟩ := Option.map_eq_some_iff.mp hflow
  obtain ⟨s, hs, hread⟩ := Stretch.exists_of_mem_gen hgen
  -- The segment of the introduction, or the first one where there is none, is closed by a
  -- suspension before the read.
  have hbound : j < points.length + 1 := by
    rw [← hsliced.length_eq]
    exact (List.getElem?_eq_some_iff.mp hreader).1
  generalize hd : (SegmentLiveness.declaredIn? (segmentLiveness (cut p.stmts points)) x).getD
    0 = d at hlt
  obtain ⟨q, hq⟩ : ∃ q, points[d]? = some q := ⟨_, List.getElem?_eq_getElem (by omega)⟩
  obtain ⟨st, hst⟩ : ∃ st, (cut p.stmts points)[d]? = some st :=
    ⟨_, List.getElem?_eq_getElem (by rw [hsliced.length_eq]; omega)⟩
  obtain ⟨first, later, haccesses, hfirst, hlater⟩ := accesses_around found consistent hst hq
  have hreads : Access.readLocal x ∈ later :=
    hlater j reader (by omega) hreader _ (mem_accessesOf.mpr ⟨s, hs, mem_readsOf.mp hread⟩)
  have hreferenced : x ∈ (accessesOf p.stmts).filterMap Access.referenced? := by
    rw [haccesses]
    exact List.mem_filterMap.mpr ⟨_, List.mem_append_right _
      (List.mem_cons_of_mem _ hreads), rfl⟩
  have hposition : outlivesSuspension (accessesOf p.stmts) x = true →
    x ∈ outliving p points .positional :=
    fun h => IdSet.mem_ofList.mpr (List.mem_filter.mpr ⟨hreferenced, h⟩)
  cases hdeclared : (segmentLiveness (cut p.stmts points)).declaredIn? x with
  | none =>
    refine Or.inl (hposition ?_)
    rw [haccesses]
    refine outlivesSuspension_of_undeclared (fun hdeclare => ?_) hreads rfl
    rw [← haccesses, ← hsliced.flatMap_content fun q hq =>
      stmt_pointOfStmt found consistent hq] at hdeclare
    obtain ⟨t, ht, hdeclare⟩ := mem_accessesOf.mp hdeclare
    obtain ⟨st, hst, ht⟩ := List.mem_flatMap.mp ht
    refine not_mem_declares_of_declaredIn? hdeclared hst (mem_declares_iff.mpr ?_)
    exact mem_accessesOf.mpr ⟨t, ht, hdeclare⟩
  | some segment =>
    rw [hdeclared] at hd
    obtain rfl : segment = d := hd
    rcases hfirst x (mem_declares_iff.mp (mem_declares_of_declaredIn? hdeclared hst))
      with hdeclare | hdeclare
    · refine Or.inl (hposition ?_)
      rw [haccesses]
      exact outlivesSuspension_of_mem hdeclare hreads rfl
    · exact Or.inr ⟨q, List.mem_of_getElem? hq, hdeclare⟩

/-- So what dataflow hoists is a variable that position hoists, or a local that an
operand introduces. -/
theorem mem_hoistedVariables_of_dataflow (found : suspensionPoints names p = .ok points)
    (consistent : p.Consistent) {v : Variable}
    (hv : v ∈ hoistedVariables p .dataflow points) :
    v ∈ hoistedVariables p .positional points ∨
      ∃ q ∈ points, ∃ x decl, .declare x ∈ q.operand.accesses ∧ p.local? x = some decl ∧
        v = ⟨.localVar x, decl.name, decl.ty, decl.span⟩ := by
  unfold hoistedVariables at hv ⊢
  split at hv
  case h_1 => cases hv
  case h_2 =>
    rcases List.mem_append.mp hv with hv | hv
    · exact Or.inl (List.mem_append_left _ hv)
    · obtain ⟨x, hx, decl, hdecl, rfl⟩ := mem_hoistedLocals.mp hv
      rcases mem_outliving_of_dataflow found consistent hx with hx | ⟨q, hq, hdeclare⟩
      · exact Or.inl (List.mem_append_right _
          (mem_hoistedLocals.mpr ⟨x, hx, decl, hdecl, rfl⟩))
      · exact Or.inr ⟨q, hq, x, decl, hdeclare, hdecl, rfl⟩

/-! ### What lowering needs -/

/-- Everything in the stretch has a slotted form. -/
def Stretch.Clean (st : Stretch) : Prop :=
  blockStrays st.stmts = [] ∧ ∀ q ∈ st.closing, q.kind.operands.flatMap exprStrays = []

/-- **What lowering needs**: the shape that is asked for, suspensions that are understood,
variables and a result that can be stored, and nothing that has no slotted form. -/
structure Lowerable (mode : LivenessMode) (names : NameTable) (p : Procedure)
    (points : List SuspensionPoint) : Prop where
  shape : shapeProblems names p = []
  found : suspensionPoints names p = .ok points
  storable : ∀ v ∈ hoistedVariables p mode points, v.ty.isPersistable = true
  result : p.returnsValue = true → p.result.isPersistable = true
  clean : ∀ st ∈ cut p.stmts points, st.Clean

/-- What has no slotted form does not depend on the layout. -/
theorem strays_eq_nil_iff (found : suspensionPoints names p = .ok points)
    (laidOut : LaidOut p points hoisted l) (hst : st ∈ cut p.stmts points) :
    st.strays l = [] ↔ st.Clean := by
  have hlength : ∀ q ∈ st.closing, (l.awaits q.index).length = q.kind.awaited.length := by
    intro q hq
    obtain ⟨i, hi⟩ := List.getElem?_of_mem hst
    rw [((cut_sliced found).between hi).2] at hq
    obtain ⟨q', hq', rfl⟩ := Option.map_eq_some_iff.mp hq
    obtain ⟨k, hk⟩ := List.getElem?_of_mem (pointOfStmt_mem (List.mem_of_getElem? hq'))
    rw [index_of_points found hk]
    exact laidOut.length_awaits (fun _ _ => index_of_points found) hk
  unfold Stretch.strays Stretch.Clean
  rw [List.append_eq_nil_iff]
  refine and_congr_right fun _ => ?_
  cases hclosing : st.closing with
  | none => simp
  | some q =>
    dsimp only
    rw [closingStrays_eq (hlength q hclosing)]
    simp

theorem storable_of_hoist (h : (hoist p points mode namer).1 = .ok hoisted) :
    ∀ v ∈ hoistedVariables p mode points, v.ty.isPersistable = true := by
  unfold hoist at h
  dsimp only at h
  split at h
  case isFalse => cases h
  case isTrue hnone => exact nameSlots_eq_nil_iff.mp (List.isEmpty_iff.mp hnone)

theorem hoist_of_storable
    (h : ∀ v ∈ hoistedVariables p mode points, v.ty.isPersistable = true)
    (namer : SlotNamer) (problems : List Problem) :
    (hoist p points mode namer).1 ≠ .error problems := by
  have hnone : (nameSlots namer (hoistedVariables p mode points)).1 = [] :=
    nameSlots_eq_nil_iff.mpr h
  unfold hoist
  dsimp only
  rw [if_pos (List.isEmpty_iff.mpr hnone)]
  intro herror
  cases herror

/-- Laying out slots needs a result that can be stored, and nothing else. -/
theorem layOut_eq_error_iff {books : BookkeepingNames} :
    (∃ problems, (layOut p points hoisted books namer).1 = .error problems) ↔
      p.returnsValue = true ∧ p.result.isPersistable = false := by
  unfold layOut
  dsimp only
  split
  case isTrue h => simpa using h
  case isFalse h => simpa using h

theorem segments_eq_error_iff (shape : shapeProblems names p = [])
    (found : suspensionPoints names p = .ok points) (laidOut : LaidOut p points hoisted l) :
    (∃ problems, segments p points l = .error problems) ↔
    ¬ ∀ st ∈ cut p.stmts points, st.Clean := by
  have hclean : (∀ st ∈ cut p.stmts points, st.Clean) ↔ (cut p.stmts points).flatMap
    (fun st => st.strays l) = [] := by
    rw [List.flatMap_eq_nil_iff]
    exact forall₂_congr fun st hst => (strays_eq_nil_iff found laidOut hst).symm
  rw [hclean]
  unfold segments
  rw [block_of_shape shape]
  dsimp only
  split
  case isTrue h => simpa using List.isEmpty_iff.mp h
  case isFalse h => simpa using h

/-- **Lowering needs nothing more.** -/
theorem exists_lowerPoints_iff (shape : shapeProblems names p = [])
    (found : suspensionPoints names p = .ok points) :
    (∃ m, (lowerPoints options p points names).1 = .ok m) ↔
    Lowerable options.liveness names p points := by
  unfold lowerPoints
  dsimp only
  split
  case h_1 problems hhoist =>
    constructor
    · rintro ⟨_, h⟩
      cases h
    · exact fun h => absurd hhoist (hoist_of_storable h.storable _ problems)
  case h_2 hoisted hhoist =>
    have hstorable := storable_of_hoist hhoist
    split
    case h_1 problems hlayout =>
      obtain ⟨hreturns, hresult⟩ := layOut_eq_error_iff.mp ⟨problems, hlayout⟩
      constructor
      · rintro ⟨_, h⟩
        cases h
      · intro h
        rw [h.result hreturns] at hresult
        cases hresult
    case h_2 l hlayout =>
      have laidOut : LaidOut p points hoisted l := laidOut_of_layOut (Prod.ext hlayout rfl)
      have hresult : p.returnsValue = true → p.result.isPersistable = true := by
        intro hreturns
        rw [← Bool.not_eq_false]
        intro hfalse
        obtain ⟨problems, herror⟩ := layOut_eq_error_iff.mpr ⟨hreturns, hfalse⟩
        rw [hlayout] at herror
        cases herror
      split
      case h_1 problems hsegments =>
        constructor
        · rintro ⟨_, h⟩
          cases h
        · exact fun h => absurd h.clean ((segments_eq_error_iff shape found laidOut).mp
            ⟨problems, hsegments⟩)
      case h_2 segs hsegments =>
        refine ⟨fun _ => ⟨shape, found, hstorable, hresult, ?_⟩, fun _ => ⟨_, rfl⟩⟩
        refine Classical.not_not.mp fun hclean => ?_
        obtain ⟨problems, herror⟩ := (segments_eq_error_iff shape found laidOut).mpr hclean
        rw [hsegments] at herror
        cases herror

/-- **What can be lowered by position can be lowered by dataflow**, if what the operands of
suspensions introduce can be stored. -/
theorem Lowerable.by_dataflow (h : Lowerable .positional names p points)
    (consistent : p.Consistent)
    (introduced : ∀ q ∈ points, ∀ x decl, .declare x ∈ q.operand.accesses → p.local? x =
      some decl → decl.ty.isPersistable = true) : Lowerable .dataflow names p points := by
  refine ⟨h.shape, h.found, fun v hv => ?_, h.result, h.clean⟩
  rcases mem_hoistedVariables_of_dataflow h.found consistent hv
    with hv | ⟨q, hq, x, decl, hdeclare, hdecl, rfl⟩
  · exact h.storable v hv
  · exact introduced q hq x decl hdeclare hdecl

/-- What can be lowered is lowered, or a list of its machine is too long. -/
theorem lowers_of_lowerable (h : Lowerable options.liveness names p points) :
    (∃ m, (lowerProcedure options p names).1 = .ok m) ∨
      ∃ list, (lowerProcedure options p names).1 = .error (.oversized list) := by
  obtain ⟨m, hm⟩ := (exists_lowerPoints_iff h.shape h.found).mpr h
  have hsteps : lowerSteps options p names =
    (.ok m, (lowerPoints options p points names).2) := by
    unfold lowerSteps
    rw [h.shape, h.found]
    exact Prod.ext hm rfl
  unfold lowerProcedure
  rw [hsteps]
  dsimp only
  cases m.overlong? with
  | none => exact Or.inl ⟨m, rfl⟩
  | some list => exact Or.inr ⟨list, rfl⟩

/-- **A procedure that lowers by position lowers by dataflow**, unless the operand of a
suspension introduces a local that cannot be stored, or a list of the machine is too long. -/
theorem lowers_by_dataflow {m : Machine} {names' : NameTable} (consistent : p.Consistent)
    (found : suspensionPoints names p = .ok points)
    (introduced : ∀ q ∈ points, ∀ x decl, .declare x ∈ q.operand.accesses →
      p.local? x = some decl → decl.ty.isPersistable = true)
    (h : lowerProcedure { options with liveness := .positional } p names = (.ok m, names')) :
    (∃ m', (lowerProcedure { options with liveness := .dataflow } p names).1 = .ok m') ∨
      ∃ list, (lowerProcedure { options with liveness := .dataflow } p names).1 =
        .error (.oversized list) := by
  obtain ⟨shape, points', found', hpoints⟩ := points_of_lowerSteps (steps_of_lowerProcedure h)
  obtain rfl : points' = points := Except.ok.inj (found'.symm.trans found)
  have lowerable := (exists_lowerPoints_iff shape found).mp ⟨m, congrArg Prod.fst hpoints⟩
  exact lowers_of_lowerable (lowerable.by_dataflow consistent introduced)

end

/-! ### A local of an operand -/

namespace Detour

/-- The strings that the procedure uses. -/
def names : NameTable := .internAll .empty ["Twice", "f", "Work", "run", "later"]

/-- A closure that binds a closure and hands it to the host. -/
def closure (number : Nat) : Bound.Expr :=
  .lambda ⟨.closure, .none⟩ [
    .bind ⟨number, .none⟩ 0 (.lambda ⟨.closure, .none⟩ []),
    .expr ⟨number + 1, .none⟩ (.call ⟨.unit, .none⟩
      (.host ⟨4⟩) [.localVar ⟨.closure, .none⟩ 0])]

/-- Wait for a procedure that is given the closure, then give one like it to the host. -/
def procedure : Procedure where
  name := ⟨1⟩
  params := []
  locals := [⟨0, ⟨2⟩, .closure, .none⟩]
  result := .unit
  cancellation := none
  body := .block [
    .expr ⟨2, .none⟩ (.suspend ⟨.unit, .none⟩
      (.call ⟨.deferred .unit, .none⟩ (.procedure ⟨3⟩) [closure 0])),
    .expr ⟨5, .none⟩ (.call ⟨.unit, .none⟩ (.host ⟨5⟩) [closure 3])]
  span := .none

/-- The variables to hoist. -/
def origins (mode : LivenessMode) : List Machine.Origin :=
  match suspensionPoints names procedure with
  | .ok points => (hoistedVariables procedure mode points).map Variable.origin
  | .error _ => []

/-- The problems that keep the procedure from being lowered. -/
def problems? (mode : LivenessMode) : Option (List Problem) :=
  match (lowerProcedure { liveness := mode } procedure names).1 with
  | .error (.failed failure) => some failure.problems
  | _ => none

end Detour

/-- **A tree-shaped procedure that lowers by position only.**  Its local is introduced in the
operand of the suspension, so that no suspension lies between its introduction and a
reference; but a later segment mentions it again, and by dataflow it is live where that
segment begins.  A closure cannot be stored. -/
theorem detour_modes : Detour.procedure.TreeShaped ∧
      Detour.origins .positional = [] ∧ Detour.origins .dataflow = [.localVar 0] ∧
      (lowerProcedure
        { liveness := .positional } Detour.procedure Detour.names).1.isOk = true ∧
      Detour.problems? .dataflow = some [.unpersistableSlot "f" "<closure>" .none] := by
  unfold Procedure.TreeShaped
  decide +kernel

end Resumable
