import Resumable.Proofs.HoistingModes

/-!
# Reads that look back before a segment

A local has to be carried into a segment when a later statement may read the value that it has
where the segment starts.  This module says so of the statements of a body, without cutting it
into stretches: a read is *exposed* to the start of a segment when no write of the local
stands in between.  A write below an `if`, a `while` or in a closure does not count.  The
value of a suspension is written where the next segment starts.

**The live sets are exactly the exposed reads.**  Exposure can be decided from the first
statement on, and the flow of a stretch is that decision for its own statements.  One backward
sweep then suffices, because segments follow each other in a chain.

## Main definitions

* `segmentAfter`: the segment that runs after some statements.
* `Bound.Stmt.evaluated`, `Bound.Stmt.Sets`: what a top-level statement evaluates in its
  segment, and what it writes.
* `WritesIn`: the segment in which a top-level statement writes a local.
* `Exposed`: a read of a local that looks back before a segment.

## Main statements

* `exposed_cons`: exposure, by the first statement.
* `Stretch.mem_gen_iff`, `Stretch.mem_kill_iff`: the flow of a stretch.
* `mem_liveIn_iff_exposed`: the live sets of a body.
-/

namespace Resumable

open Resumable.Bound (Node Procedure Stmt)

/-- The segment that runs after some top-level statements: one more for each
statement that suspends. -/
def segmentAfter (stmts : List Stmt) : Nat := stmts.countP fun s => (suspensionOf s).isSome

namespace Bound.Stmt

/-- What a top-level statement evaluates in the segment that it stands in: the
operand, if it suspends. -/
def evaluated (s : Stmt) : Node :=
  match suspensionOf s with
  | some (_, operand) => .expr operand
  | none => .stmt s

/-- The statement is a `let` of the local, or an assignment to it. -/
inductive Sets (x : LocalId) : Stmt → Prop where
  | declare (info : StmtInfo) : Sets x (.declare info x)
  | bind (info : StmtInfo) (init : Expr) : Sets x (.bind info x init)
  | assign (info : StmtInfo) (value : Expr) : Sets x (.assign info (.localVar x) value)

end Bound.Stmt

/-- **The segment in which a top-level statement writes a local**, given the statements
before it.  A statement that suspends writes when its value is delivered, at the start
of the next segment. -/
inductive WritesIn (x : LocalId) (before : List Stmt) (s : Stmt) : Nat → Prop where
  | plain (runsOn : suspensionOf s = none) (sets : s.Sets x) :
    WritesIn x before s (segmentAfter before)
  | delivered (suspends : (suspensionOf s).isSome) (sets : s.Sets x) :
    WritesIn x before s (segmentAfter before + 1)

/-- **A read of a local looks back before a segment**: a statement of the segment or
of a later one reads it, and no statement before that one writes it in the segment
or in a later one. -/
def Exposed (stmts : List Stmt) (segment : Nat) (x : LocalId) : Prop :=
  ∃ before s after, stmts = before ++ s :: after ∧ segment ≤ segmentAfter before ∧
    s.evaluated.Does (.readLocal x) ∧
    ∀ front t back written, before = front ++ t :: back →
    WritesIn x front t written → written < segment

/-! ### Exposure by the first statement -/

theorem segmentAfter_cons (t : Stmt) (stmts : List Stmt) :
    segmentAfter (t :: stmts) = segmentAfter [t] + segmentAfter stmts := by
  unfold segmentAfter
  rw [← List.countP_append, List.singleton_append]

variable {s t : Stmt} {x : LocalId} {rest stmts : List Stmt} {segment : Nat} {f : SegmentFlow}

theorem segmentAfter_of_plain (h : suspensionOf s = none) : segmentAfter [s] = 0 := by
  simp [segmentAfter, h]

theorem segmentAfter_of_suspends (h : (suspensionOf s).isSome) : segmentAfter [s] = 1 := by
  simp [segmentAfter, h]

theorem sets_iff : s.Sets x ↔ writes? s = some x := by
  constructor
  · rintro (_ | _ | _) <;> rfl
  · intro h
    unfold writes? at h
    split at h
    case h_1 | h_2 | h_3 =>
      obtain rfl := Option.some.inj h
      constructor
    case h_4 => cases h

/-- A write happens in the segment that the statement leads to. -/
theorem writesIn_iff {before : List Stmt} {written : Nat} :
    WritesIn x before s written ↔ s.Sets x ∧ written = segmentAfter before +
      segmentAfter [s] := by
  constructor
  · rintro (⟨runsOn, sets⟩ | ⟨suspends, sets⟩)
    · exact ⟨sets, by rw [segmentAfter_of_plain runsOn]; rfl⟩
    · exact ⟨sets, by rw [segmentAfter_of_suspends suspends]⟩
  · rintro ⟨sets, rfl⟩
    cases hs : suspensionOf s with
    | none =>
      rw [segmentAfter_of_plain hs]
      exact .plain hs sets
    | some site =>
      have hsome : (suspensionOf s).isSome := by rw [hs]; rfl
      rw [segmentAfter_of_suspends hsome]
      exact .delivered hsome sets

/-- **Exposure by the first statement.**  It reads the local itself, if it stands in the
segment; or it does not write it from the start of the segment on, and the read is among the
other statements. -/
theorem exposed_cons :
    Exposed (t :: rest) segment x ↔ segment = 0 ∧ t.evaluated.Does (.readLocal x) ∨
        ¬ (segment ≤ segmentAfter [t] ∧ t.Sets x) ∧
        Exposed rest (segment - segmentAfter [t]) x := by
  constructor
  · rintro ⟨before, s, after, hsplit, hsegment, hreads, hwrites⟩
    rcases List.cons_eq_append_iff.mp hsplit with ⟨rfl, hcons⟩ | ⟨before, rfl, rfl⟩
    · obtain ⟨rfl, rfl⟩ := List.cons.inj hcons
      exact Or.inl ⟨Nat.le_zero.mp hsegment, hreads⟩
    · rw [segmentAfter_cons] at hsegment
      refine Or.inr ⟨?_, before, s, after, rfl, Nat.sub_le_of_le_add (by omega), hreads, ?_⟩
      · rintro ⟨hle, hsets⟩
        have hlt := hwrites [] t before _ rfl (writesIn_iff.mpr ⟨hsets, rfl⟩)
        rw [show segmentAfter [] = 0 from rfl] at hlt
        omega
      · intro front u back written hbefore hwrite
        obtain ⟨hsets, rfl⟩ := writesIn_iff.mp hwrite
        have hlt := hwrites (t :: front) u back _ (congrArg (t :: ·) hbefore)
          (writesIn_iff.mpr ⟨hsets, rfl⟩)
        rw [segmentAfter_cons t front] at hlt
        omega
  · rintro (⟨rfl, hreads⟩ | ⟨hkept, before, s, after, rfl, hsegment, hreads, hwrites⟩)
    · exact ⟨[], t, rest, rfl, Nat.zero_le _, hreads, fun front u back _ hnil _ => by
        simp at hnil⟩
    · refine ⟨t :: before, s, after, rfl, ?_, hreads, ?_⟩
      · rw [segmentAfter_cons]
        omega
      · intro front u back written hbefore hwrite
        obtain ⟨hsets, rfl⟩ := writesIn_iff.mp hwrite
        rcases List.cons_eq_append_iff.mp hbefore with ⟨rfl, hcons⟩ | ⟨front, rfl, hrest⟩
        · obtain ⟨rfl, rfl⟩ := List.cons.inj hcons
          rw [show segmentAfter [] = 0 from rfl]
          exact Nat.lt_of_not_le fun hle => hkept ⟨by omega, hsets⟩
        · have hlt := hwrites front u back _ hrest (writesIn_iff.mpr ⟨hsets, rfl⟩)
          rw [segmentAfter_cons t front]
          omega

theorem not_exposed_nil : ¬ Exposed [] segment x := by
  rintro ⟨before, s, after, hsplit, -⟩
  simp at hsplit

/-- To the first segment, every write before the read counts. -/
theorem exposed_cons_zero :
    Exposed (t :: rest) 0 x ↔ t.evaluated.Does (.readLocal x) ∨ ¬ t.Sets x ∧
    Exposed rest 0 x := by
  rw [exposed_cons]
  simp

theorem mem_writes_cons :
    x ∈ (t :: stmts).filterMap writes? ↔ writes? t = some x ∨
    x ∈ stmts.filterMap writes? := by
  simp [List.mem_filterMap]

theorem exposed_append_zero {first : List Stmt} :
    Exposed (first ++ rest) 0 x ↔ Exposed first 0 x ∨ x ∉ first.filterMap writes? ∧
    Exposed rest 0 x := by
  induction first with
  | nil => simp [not_exposed_nil]
  | cons t first ih =>
    rw [List.cons_append, exposed_cons_zero, exposed_cons_zero, ih, sets_iff, mem_writes_cons]
    tauto

/-- To a later segment, the statements of the first one do not matter. -/
theorem exposed_plain_append {plain : List Stmt} (hplain : ∀ s ∈ plain, suspensionOf s = none)
    : Exposed (plain ++ rest) (segment + 1) x ↔ Exposed rest (segment + 1) x := by
  induction plain with
  | nil => rfl
  | cons t plain ih =>
    obtain ⟨ht, hplain⟩ := List.forall_mem_cons.mp hplain
    rw [List.cons_append, exposed_cons, segmentAfter_of_plain ht]
    simp [ih hplain]

/-! ### The flow of a stretch -/

theorem does_evaluated_iff : s.evaluated.Does (.readLocal x) ↔ x ∈ readsOf s := by
  rw [mem_readsOf, Node.does_iff]
  unfold Bound.Stmt.evaluated
  cases hs : suspensionOf s with
  | none => rfl
  | some site =>
    obtain ⟨info, operand⟩ := site
    cases suspending_of_suspensionOf hs with
    | assign _ target =>
      cases target <;> simp [Node.accesses, Stmt.accesses,
        Bound.Expr.accesses, Bound.Place.accesses]
    | expr | bind => simp [Node.accesses, Stmt.accesses, Bound.Expr.accesses]

/-- What a run over statements adds to what is read first, are the exposed reads. -/
theorem SegmentFlow.mem_gen_foldl_iff :
    x ∈ (stmts.foldl step f).gen ↔ x ∈ f.gen ∨ x ∉ f.kill ∧ Exposed stmts 0 x := by
  induction stmts generalizing f with
  | nil => simp [not_exposed_nil]
  | cons s rest ih =>
    rw [List.foldl_cons, ih, mem_gen_step, mem_kill_step, exposed_cons_zero,
      does_evaluated_iff, sets_iff]
    tauto

theorem SegmentFlow.mem_kill_foldl_iff :
    x ∈ (stmts.foldl step f).kill ↔ x ∈ f.kill ∨ x ∈ stmts.filterMap writes? := by
  induction stmts generalizing f with
  | nil => simp
  | cons s rest ih =>
    rw [List.foldl_cons, ih, mem_kill_step, mem_writes_cons]
    tauto

namespace Stretch

variable {st : Stretch} {x : LocalId}

/-- **What a stretch needs from before** are the exposed reads of its statements and of the
operand that closes it, unless the value is delivered at the start. -/
theorem mem_gen_iff :
    x ∈ st.flow.gen ↔ st.opening.bind SuspensionPoint.delivered? ≠ some x ∧
    Exposed st.content 0 x := by
  rw [flow_gen, SegmentFlow.mem_gen_foldl_iff, mem_flowStart, flowStart_gen]
  simp

/-- **What a stretch writes** is the value delivered at the start, and what
its statements write. -/
theorem mem_kill_iff :
    x ∈ st.flow.kill ↔ st.opening.bind SuspensionPoint.delivered? = some x ∨
    x ∈ st.stmts.filterMap writes? := by
  have hkill : st.flow.kill = (st.stmts.foldl SegmentFlow.step st.flowStart).kill := by
    unfold flow
    cases st.closing <;> rfl
  rw [hkill, SegmentFlow.mem_kill_foldl_iff, mem_flowStart]

end Stretch

/-! ### The live sets -/

theorem mem_liveBefore {after : IdSet} :
    x ∈ f.liveBefore after ↔ x ∈ f.gen ∨ x ∈ after ∧ x ∉ f.kill := by
  simp [SegmentFlow.liveBefore]

/-- **The live sets of statements that are cut at points** are the exposed reads.  The point
before the first statement writes what it delivers. -/
theorem Sliced.mem_liveSets_iff {close : SuspensionPoint → SuspensionPoint}
    {opening : Option SuspensionPoint} {points : List SuspensionPoint}
    {stretches : List Stretch} (h : Sliced close opening stmts points stretches)
    (hclose : ∀ q ∈ points, (close q).stmt = q.stmt)
    (hdelivers : ∀ q ∈ points, q.delivered? = writes? q.stmt) {live : IdSet}
    (hlive : (liveSets (stretches.map Stretch.flow))[segment]? = some live) : x ∈ live ↔
      (segment = 0 → opening.bind SuspensionPoint.delivered? ≠ some x) ∧
      Exposed stmts segment x := by
  induction h generalizing segment live with
  | @last opening stmts plain =>
    obtain ⟨rfl, rfl⟩ : segment = 0 ∧ live = _ := by
      simpa [liveSets, List.getElem?_singleton, eq_comm] using hlive
    rw [mem_liveBefore, Stretch.mem_gen_iff]
    simp [Stretch.content]
  | @next opening stmts later q rest stretches plain suspends tail ih =>
    obtain ⟨hstmt, hclose⟩ := List.forall_mem_cons.mp hclose
    obtain ⟨hdelivery, hdelivers⟩ := List.forall_mem_cons.mp hdelivers
    have hstretch : (⟨opening, stmts, some (close q)⟩ : Stretch).content =
      stmts ++ [q.stmt] := by
      simp [Stretch.content, hstmt]
    have hcontent : stmts ++ q.stmt :: later = (stmts ++ [q.stmt]) ++ later := by simp
    cases segment with
    | zero =>
      obtain rfl := Option.some.inj hlive
      -- The sets of the later segments are not empty, since there is a segment after every
      -- suspension.
      obtain ⟨next, hnext⟩ : ∃ next,
        (liveSets (stretches.map Stretch.flow))[0]? = some next := by
        refine ⟨_, List.getElem?_eq_getElem ?_⟩
        rw [length_liveSets, List.length_map, tail.length_eq]
        exact Nat.succ_pos _
      have hwritten : x ∈ (stmts ++ [q.stmt]).filterMap writes? ↔
          x ∈ stmts.filterMap writes? ∨ writes? q.stmt = some x := by
        simp [List.filterMap_append, List.mem_filterMap]
      rw [mem_liveBefore, List.head?_eq_getElem?, hnext,
        Option.getD_some, Stretch.mem_gen_iff, Stretch.mem_kill_iff,
        ih hclose hdelivers hnext, hcontent, exposed_append_zero, hstretch, hwritten,
        Option.bind_some, hdelivery]
      tauto
    | succ segment =>
      have hzero : segment + 1 ≤ 1 ↔ segment = 0 := by omega
      rw [ih hclose hdelivers hlive, exposed_plain_append plain, exposed_cons,
        segmentAfter_of_suspends suspends, Option.bind_some, hdelivery, sets_iff,
        hzero, Nat.add_sub_cancel]
      simp

/-- A point delivers what its statement writes. -/
theorem delivered?_eq_writes? {names : NameTable} {p : Procedure}
    {points : List SuspensionPoint} (found : suspensionPoints names p = .ok points)
    {q : SuspensionPoint} (hq : q ∈ points) : q.delivered? = writes? q.stmt := by
  obtain ⟨site, i, gives, -, hsus⟩ := site_of_mem found hq
  unfold SuspensionPoint.delivered?
  rw [gives.delivery, gives.stmt]
  generalize site.stmt = s at hsus
  cases suspending_of_suspensionOf hsus with
  | assign _ target => cases target <;> rfl
  | expr | bind => rfl

/-- **The live sets of a tree-shaped body are exactly its exposed reads.**  There is one set
for each segment. -/
theorem mem_liveIn_iff_exposed {names : NameTable} {p : Procedure}
    {points : List SuspensionPoint} (tree : p.TreeShaped)
    (found : suspensionPoints names p = .ok points) :
    (segmentLiveness (cut p.stmts points)).liveIn.length = points.length + 1 ∧
      ∀ segment live, (segmentLiveness (cut p.stmts points)).liveIn[segment]? = some live →
        ∀ x, x ∈ live ↔ Exposed p.stmts segment x := by
  have hsliced := cut_sliced found
  constructor
  · show (liveSets _).length = _
    rw [length_liveSets, List.length_map, hsliced.length_eq]
  · intro segment live hlive x
    have hmem :=
      hsliced.mem_liveSets_iff (fun q hq => stmt_pointOfStmt found tree.consistent hq)
      (fun q hq => delivered?_eq_writes? found hq) hlive (x := x)
    simpa using hmem

/-! ### A note that is replaced -/

namespace Handover

/-- The strings that the procedure uses. -/
def names : NameTable := .internAll .empty ["handover", "note", "reply", "fetch", "print"]

/-- Print the note. -/
def print (number : Nat) : Stmt :=
  .expr ⟨number, .none⟩ (.call ⟨.unit, .none⟩ (.host ⟨5⟩) [.localVar ⟨.int, .none⟩ 0])

/-- Write a note, wait for a reply that may replace it, print it, yield, and
print another note. -/
def procedure : Procedure where
  name := ⟨1⟩
  params := []
  locals := [⟨0, ⟨2⟩, .int, .none⟩, ⟨1, ⟨3⟩, .int, .none⟩]
  result := .unit
  cancellation := none
  body := .block [
    .bind ⟨0, .none⟩ 0 (.int ⟨.int, .none⟩ 1),
    .bind ⟨1, .none⟩ 1 (.suspend ⟨.int, .none⟩
      (.call ⟨.deferred .int, .none⟩ (.procedure ⟨4⟩) [])),
    .branch ⟨2, .none⟩ (.bool ⟨.bool, .none⟩ true)
      [.assign ⟨3, .none⟩ (.localVar 0) (.localVar ⟨.int, .none⟩ 1)] [],
    print 4,
    .expr ⟨5, .none⟩ (.suspend ⟨.unit, .none⟩
      (.call ⟨.deferred .unit, .none⟩ (.primitive .yield) [])),
    .assign ⟨6, .none⟩ (.localVar 0) (.int ⟨.int, .none⟩ 2),
    print 7]
  span := .none

/-- The suspension points of the procedure. -/
def points : List SuspensionPoint :=
  match suspensionPoints names procedure with
  | .ok points => points
  | .error _ => []

end Handover

/-- The note is needed after the first suspension, since the reply replaces it only
below an `if`; the reply itself is delivered, and after the second suspension the
note is written anew. -/
theorem handover_exposed :
    Handover.procedure.TreeShaped ∧
      suspensionPoints Handover.names Handover.procedure = .ok Handover.points ∧
      Exposed Handover.procedure.stmts 1 0 ∧ ¬ Exposed Handover.procedure.stmts 1 1 ∧
      ¬ Exposed Handover.procedure.stmts 2 0 := by
  have htree : Handover.procedure.TreeShaped := by
    unfold Procedure.TreeShaped
    decide +kernel
  have hfound : suspensionPoints Handover.names Handover.procedure = .ok Handover.points :=
    rfl
  have hlive : (segmentLiveness (cut Handover.procedure.stmts Handover.points)).liveIn =
      [.empty, .ofList [0], .empty] := by decide +kernel
  obtain ⟨-, hexposed⟩ := mem_liveIn_iff_exposed htree hfound
  refine ⟨htree, hfound, ?_, ?_, ?_⟩
  · exact (hexposed 1 (.ofList [0]) (by rw [hlive]; rfl) 0).mp (by decide)
  · exact fun h => absurd ((hexposed 1 (.ofList [0]) (by rw [hlive]; rfl) 1).mpr h)
      (by decide)
  · exact fun h => absurd ((hexposed 2 .empty (by rw [hlive]; rfl) 0).mpr h) (by decide)

end Resumable
