import Mathlib.Data.Nat.Find
import Resumable.Proofs.HoistingModes
import Resumable.Proofs.Segmentable

/-!
# The rule of hoisting by position

By position, a local is hoisted when a suspension lies between its introduction and a
reference, in the order in which a body is evaluated.  This module states the rule on the tree
of a body: where the first `let` of the local stands, and which parts of the suspending
statement and of the statements after it refer to the local.  **A variable is hoisted exactly
by the rule.**  The boundary lies within the suspending statement: its own `let` comes before
the suspension, its operand and its target come after it.

## Main definitions

* `Bound.NoLater`: the order in which a traversal of a tree reaches its spots.
* `Bound.LetAt`, `Bound.FirstLet`: where a local is introduced, and where that happens first.
* `SpansSuspension`: the rule.

## Main statements

* `Bound.exists_firstLet`: what is introduced, is introduced somewhere first.
* `outlivesSuspension_iff`: the judgement on a sequence of accesses.
* `exists_cut_of_suspend`: a suspension in a segmentable body is that of one
  of its statements.
* `outlivesSuspension_iff_spans`: the judgement by position is the rule.
* `hoist_by_position`: which variables are hoisted, with their types and in their order.
-/

namespace Resumable

open Resumable.Bound (Access Node Procedure Spot Stmt accessesOf mem_accessesOf)

variable {stmts : List Stmt} {x : LocalId} {operand : Bound.Expr}

namespace Bound

/-! ### The first `let` of a local -/

/-- A traversal that goes down before it goes on reaches the first path no
later than the second. -/
def NoLater : List Nat → List Nat → Prop
  | [], _ => True
  | _ :: _, [] => False
  | k :: path, j :: other => k < j ∨ k = j ∧ NoLater path other

/-- A `let` of the local stands in the top-level statement with the position, at
the end of a path. -/
def LetAt (stmts : List Stmt) (x : LocalId) (position : Nat) (path : List Nat) : Prop :=
  ∃ s, stmts[position]? = some s ∧ ∃ spot : Spot (.stmt s), spot.path = path ∧
    spot.node.makes (.declare x) = true

/-- **The first `let` of a local** in the order of traversal. -/
def FirstLet (stmts : List Stmt) (x : LocalId) (position : Nat) (path : List Nat) : Prop :=
  LetAt stmts x position path ∧
    ∀ other path', LetAt stmts x other path' → position < other ∨
      position = other ∧ NoLater path path'

/-- Among the spots of a tree that have a property, one is reached first. -/
theorem Spot.exists_first {root : Node} {P : Node → Bool}
    (h : ∃ spot : Spot root, P spot.node = true) :
    ∃ spot : Spot root, P spot.node = true ∧ ∀ other : Spot root, P other.node = true →
      NoLater spot.path other.path := by
  induction root using Node.induct with
  | step root ih =>
    by_cases hroot : P root = true
    · exact ⟨.start root, hroot, fun _ _ => trivial⟩
    -- The root is none of them, so the first one is below the first child that has one.
    have hbelow : ∃ k : Nat, ∃ child, root.children[k]? = some child ∧
      ∃ lower : Spot child, P lower.node = true := by
      obtain ⟨spot, hspot⟩ := h
      rcases spot.eq_start_or_inChild with rfl | ⟨child, k, hk, lower, rfl⟩
      · exact absurd hspot hroot
      · exact ⟨k, child, hk, lower, hspot⟩
    classical
    obtain ⟨child, hk, hlower⟩ := Nat.find_spec hbelow
    obtain ⟨first, hfirst, hleast⟩ := ih child (List.mem_of_getElem? hk) hlower
    refine ⟨first.inChild hk, hfirst, fun other hother => ?_⟩
    rcases other.eq_start_or_inChild with rfl | ⟨child', j, hj, lower, rfl⟩
    · exact absurd hother hroot
    · rcases Nat.lt_or_eq_of_le (Nat.find_min' hbelow ⟨child', hj, lower, hother⟩)
        with hlt | heq
      · exact Or.inl hlt
      · subst heq
        obtain rfl := Option.some.inj (hk.symm.trans hj)
        exact Or.inr ⟨rfl, hleast lower hother⟩

variable {position : Nat}

/-- **What is introduced, is introduced somewhere first.** -/
theorem exists_firstLet (h : ∃ position path, LetAt stmts x position path) :
    ∃ position path, FirstLet stmts x position path := by
  classical
  obtain ⟨path, s, hs, spot, -, hspot⟩ := Nat.find_spec h
  obtain ⟨first, hfirst, hleast⟩ :=
    Spot.exists_first (P := Node.makes (.declare x)) ⟨spot, hspot⟩
  refine ⟨Nat.find h, first.path, ⟨s, hs, first, rfl, hfirst⟩, ?_⟩
  rintro other path' ⟨s', hs', lower, rfl, hlower⟩
  rcases Nat.lt_or_eq_of_le (Nat.find_min' h ⟨lower.path, s', hs', lower, rfl, hlower⟩)
    with hlt | heq
  · exact Or.inl hlt
  · subst heq
    obtain rfl := Option.some.inj (hs.symm.trans hs')
    exact Or.inr ⟨rfl, hleast lower hlower⟩

/-- The first `let` stands before a statement, or is the statement, when one of them does. -/
theorem firstLet_iff :
    (∃ place path, FirstLet stmts x place path ∧
      (place < position ∨ place = position ∧ path = [])) ↔
      (∃ place path, LetAt stmts x place path ∧ place < position) ∨
      LetAt stmts x position [] := by
  constructor
  · rintro ⟨place, path, ⟨hlet, -⟩, hlt | ⟨rfl, rfl⟩⟩
    · exact Or.inl ⟨place, path, hlet, hlt⟩
    · exact Or.inr hlet
  · intro h
    obtain ⟨place, path, hfirst⟩ : ∃ place path, FirstLet stmts x place path := by
      rcases h with ⟨place, path, hlet, -⟩ | hlet
      · exact exists_firstLet ⟨place, path, hlet⟩
      · exact exists_firstLet ⟨position, [], hlet⟩
    refine ⟨place, path, hfirst, ?_⟩
    rcases h with ⟨place', path', hlet, hlt⟩ | hlet
    · rcases hfirst.2 place' path' hlet with hbefore | ⟨rfl, -⟩
      · exact Or.inl (Nat.lt_trans hbefore hlt)
      · exact Or.inl hlt
    · rcases hfirst.2 position [] hlet with hbefore | ⟨rfl, hnone⟩
      · exact Or.inl hbefore
      · cases path with
        | nil => exact Or.inr ⟨rfl, rfl⟩
        | cons k path => exact hnone.elim

theorem exists_letAt_iff :
    (∃ path, LetAt stmts x position path) ↔ ∃ s, stmts[position]? = some s ∧
    .declare x ∈ s.accesses := by
  constructor
  · rintro ⟨path, s, hs, spot, -, hspot⟩
    exact ⟨s, hs, (Node.does_iff (n := .stmt s)).mp ⟨spot, hspot⟩⟩
  · rintro ⟨s, hs, hmem⟩
    obtain ⟨spot, hspot⟩ := (Node.does_iff (n := .stmt s)).mpr hmem
    exact ⟨spot.path, s, hs, spot, rfl, hspot⟩

/-- A statement that is a `let`, itself and not below. -/
theorem letAt_nil_iff :
    LetAt stmts x position [] ↔ ∃ s, stmts[position]? = some s ∧
      .declare x ∈ (Node.stmt s).opens := by
  refine exists_congr fun s => and_congr_right fun _ => ?_
  have hcloses : .declare x ∉ (Node.stmt s).closes := by
    cases s with
    | assign info target value => cases target <;> simp [Node.closes, Place.accesses]
    | _ => simp [Node.closes]
  constructor
  · rintro ⟨spot, hpath, hspot⟩
    rcases spot.eq_start_or_inChild with rfl | ⟨child, k, hk, lower, rfl⟩
    · exact (Node.makes_iff.mp hspot).resolve_right hcloses
    · cases hpath
  · exact fun hmem => ⟨.start _, rfl, Node.makes_iff.mpr (Or.inl hmem)⟩

end Bound

/-- **The rule of hoisting by position.**  There is a suspending statement such that the local
is introduced nowhere, or first before that statement or by it; and it is referred to by a
later statement, in the operand or as the target. -/
def SpansSuspension (stmts : List Stmt) (x : LocalId) : Prop :=
  ∃ position s info operand, stmts[position]? = some s ∧
    suspensionOf s = some (info, operand) ∧
    ((∀ place path, ¬ Bound.LetAt stmts x place path) ∨
      ∃ place path, Bound.FirstLet stmts x place path ∧
      (place < position ∨ place = position ∧ path = [])) ∧
    ((∃ later t, position < later ∧ stmts[later]? = some t ∧ (Node.stmt t).Refers x) ∨
      (Node.expr operand).Refers x ∨ ∃ info' value, s = .assign info' (.localVar x) value)

/-! ### The judgement on accesses -/

variable {accesses : List Access} {s : Stmt} {info : ExprInfo} {p : Procedure}

/-- What a search finds, and what follows it. -/
theorem dropWhile_suspend_eq {a : Access} (ha : a ∈ accesses.dropWhile (· ≠ .suspend)) :
    ∃ first rest, accesses = first ++ .suspend :: rest ∧ (a = .suspend ∨ a ∈ rest) := by
  cases hdrop : accesses.dropWhile (· ≠ .suspend) with
  | nil =>
    rw [hdrop] at ha
    cases ha
  | cons b rest =>
    have hb := List.head?_dropWhile_not (· ≠ Access.suspend) accesses
    rw [hdrop] at ha hb
    obtain rfl : b = .suspend := by simpa using hb
    refine ⟨accesses.takeWhile (· ≠ .suspend), rest, ?_, List.mem_cons.mp ha⟩
    rw [← hdrop, List.takeWhile_append_dropWhile]

/-- **The judgement by position**, read off the accesses: they can be cut at a suspension such
that the local is introduced before it or nowhere, and is referred to after it. -/
theorem outlivesSuspension_iff : outlivesSuspension accesses x = true ↔
      ∃ first rest, accesses = first ++ .suspend :: rest ∧
        (.declare x ∉ accesses ∨ .declare x ∈ first) ∧
        ∃ a ∈ rest, a.referenced? = some x := by
  constructor
  · intro h
    unfold outlivesSuspension at h
    obtain ⟨a, ha, hx⟩ := List.any_eq_true.mp h
    have hx : a.referenced? = some x := by simpa using hx
    obtain ⟨first, rest, hafter, hmem⟩ := dropWhile_suspend_eq ha
    have hrest : a ∈ rest := hmem.resolve_left (by rintro rfl; cases hx)
    by_cases hdeclare : .declare x ∈ accesses
    · obtain ⟨front, back, rfl, hfront⟩ := List.eq_append_cons_of_mem hdeclare
      rw [afterDeclaration_append hfront] at hafter
      subst hafter
      exact ⟨front ++ .declare x :: first, rest, by simp, Or.inr (by simp), a, hrest, hx⟩
    · unfold afterDeclaration at hafter
      rw [if_neg hdeclare] at hafter
      exact ⟨first, rest, hafter, Or.inl hdeclare, a, hrest, hx⟩
  · rintro ⟨first, rest, rfl, hdeclare | hdeclare, a, ha, hx⟩
    · exact outlivesSuspension_of_undeclared hdeclare ha hx
    · exact outlivesSuspension_of_mem hdeclare ha hx

/-! ### Where a body suspends -/

theorem children_of_suspensionOf (h : suspensionOf s = some (info, operand)) :
    (Node.stmt s).children = [.expr (.suspend info operand)] := by
  cases suspending_of_suspensionOf h <;> rfl

/-- **The accesses of a suspending statement**: what it introduces, the suspension, its
operand, its target. -/
theorem accesses_suspending (h : suspensionOf s = some (info, operand)) :
    s.accesses = (Node.stmt s).opens ++ .suspend ::
      (operand.accesses ++ (Node.stmt s).closes) := by
  have heq := (Node.stmt s).accesses_eq
  rw [children_of_suspensionOf h] at heq
  simpa [Node.accesses, Bound.Expr.accesses] using heq

theorem exists_suspend_of_mem {n : Node} (h : .suspend ∈ n.accesses) :
    ∃ spot : Spot n, spot.node.isSuspend = true := by
  obtain ⟨spot, hspot⟩ := Node.does_iff.mpr h
  have hmakes : ∀ m : Node, m.makes .suspend = m.isSuspend := by
    rintro (e | s)
    · cases e <;> rfl
    · cases s <;> rfl
  exact ⟨spot, (hmakes spot.node).symm.trans hspot⟩

/-- A suspension that is all of the value of a statement is the
suspension of the statement. -/
theorem isSome_suspensionOf {spot : Spot (.stmt s)} (hvalue : spot.IsValue)
    (hsuspend : spot.node.isSuspend = true) : (suspensionOf s).isSome := by
  obtain ⟨habove, htakes⟩ := hvalue
  rcases spot.eq_start_or_inChild with rfl | ⟨child, k, hk, lower, rfl⟩
  · cases habove
  · rcases lower.eq_start_or_inChild with rfl | ⟨_, _, _, _, rfl⟩
    · have hchild := List.mem_of_getElem? hk
      cases s with
      | expr _ e | bind _ _ e | assign _ _ e =>
        obtain rfl := List.mem_singleton.mp hchild
        cases e with
        | suspend => rfl
        | _ => cases hsuspend
      | _ => cases htakes
    · cases habove

theorem suspend_notMem_closes (s : Stmt) : .suspend ∉ (Node.stmt s).closes := by
  cases s with
  | assign info target value => cases target <;> simp [Node.closes, Bound.Place.accesses]
  | _ => simp [Node.closes]

/-- A segmentable statement that is no suspension has none inside. -/
theorem suspend_notMem_of_plain (segmentable : s.Segmentable)
    (plain : suspensionOf s = none) : .suspend ∉ s.accesses := by
  intro hmem
  obtain ⟨spot, hsuspend⟩ := exists_suspend_of_mem (n := .stmt s) hmem
  have hsome := isSome_suspensionOf (segmentable.wholeValue spot hsuspend) hsuspend
  rw [plain] at hsome
  cases hsome

/-- Nor has the operand of one that is. -/
theorem suspend_notMem_operand (segmentable : s.Segmentable)
    (h : suspensionOf s = some (info, operand)) : .suspend ∉ operand.accesses := by
  intro hmem
  obtain ⟨spot, hsuspend⟩ := exists_suspend_of_mem (n := .expr operand) hmem
  have hchild : (Node.stmt s).children[0]? = some (.expr (.suspend info operand)) := by
    rw [children_of_suspensionOf h]
    rfl
  have hoperand : (Node.expr (.suspend info operand)).children[0]? = some (.expr operand) :=
    rfl
  have hpath := segmentable.alone ((Spot.start _).inChild hchild)
    ((spot.inChild hoperand).inChild hchild) rfl hsuspend
  cases hpath

/-- **A suspension among the accesses of a segmentable body** is that of one of its
statements, and cuts the accesses of that statement after what it introduces. -/
theorem exists_cut_of_suspend (segmentable : ∀ s ∈ stmts, s.Segmentable)
    {first rest : List Access} (h : accessesOf stmts = first ++ .suspend :: rest) :
    ∃ before s after info operand, stmts = before ++ s :: after ∧
      suspensionOf s = some (info, operand) ∧
      first = accessesOf before ++ (Node.stmt s).opens ∧
      rest = operand.accesses ++ (Node.stmt s).closes ++ accessesOf after := by
  induction stmts generalizing first with
  | nil => simp [accessesOf] at h
  | cons s stmts ih =>
    obtain ⟨hs, hstmts⟩ := List.forall_mem_cons.mp segmentable
    -- A suspension after the first statement is found in the others.
    have later : ∀ front, first = s.accesses ++ front →
      accessesOf stmts = front ++ .suspend :: rest →
        ∃ before t after info operand, s :: stmts = before ++ t :: after ∧
          suspensionOf t = some (info, operand) ∧
          first = accessesOf before ++ (Node.stmt t).opens ∧
          rest = operand.accesses ++ (Node.stmt t).closes ++ accessesOf after := by
      intro front hfirst hrest
      obtain ⟨before, t, after, info, operand, rfl, hsus, rfl, hafter⟩ := ih hstmts hrest
      exact ⟨s :: before, t, after, info, operand, rfl,
        hsus, by simp [hfirst, accessesOf], hafter⟩
    rw [accessesOf] at h
    rcases List.append_eq_append_iff.mp h with ⟨front, hfirst, hrest⟩ | ⟨back, hsplit, hback⟩
    · exact later front hfirst hrest
    · rcases List.cons_eq_append_iff.mp hback with ⟨rfl, hrest⟩ | ⟨back, rfl, rfl⟩
      · exact later [] (by simpa using hsplit.symm) hrest
      · cases hsus : suspensionOf s with
        | none =>
          refine absurd ?_ (suspend_notMem_of_plain hs hsus)
          rw [hsplit]
          exact List.mem_append_right _ List.mem_cons_self
        | some site =>
          obtain ⟨info, operand⟩ := site
          rw [accesses_suspending hsus] at hsplit
          have hafter : .suspend ∉ operand.accesses ++ (Node.stmt s).closes := by
            rw [List.mem_append]
            exact not_or.mpr ⟨suspend_notMem_operand hs hsus, suspend_notMem_closes s⟩
          have hbefore : .suspend ∉ (Node.stmt s).opens := by cases s <;> simp [Node.opens]
          obtain ⟨hopens, -, rfl⟩ :=
            (List.append_cons_inj_of_notMem hbefore hafter).mp hsplit
          exact ⟨[], s, stmts, info, operand, rfl, hsus, hopens.symm, rfl⟩

/-! ### The judgement is the rule -/

/-- What a suspending statement refers to after its suspension and its
operand, is its target. -/
theorem mem_closes_iff :
    (∃ a ∈ (Node.stmt s).closes, a.referenced? = some x) ↔
      ∃ info value, s = .assign info (.localVar x) value := by
  cases s with
  | assign info target value =>
    cases target <;> simp [Node.closes, Bound.Place.accesses, Access.referenced?]
  | _ => simp [Node.closes]

/-- A local is introduced in a body where one of its statements does. -/
theorem declare_mem_iff :
    .declare x ∈ accessesOf stmts ↔ ∃ place path, Bound.LetAt stmts x place path := by
  rw [mem_accessesOf]
  constructor
  · rintro ⟨s, hs, hmem⟩
    obtain ⟨place, hplace⟩ := List.getElem?_of_mem hs
    exact ⟨place, Bound.exists_letAt_iff.mpr ⟨s, hplace, hmem⟩⟩
  · rintro ⟨place, hlet⟩
    obtain ⟨s, hs, hmem⟩ := Bound.exists_letAt_iff.mp hlet
    exact ⟨s, List.mem_of_getElem? hs, hmem⟩

section

variable {before after : List Stmt} {s : Stmt}

/-- Before a statement suspends, what the statements before it introduce is introduced, and
what it introduces itself. -/
theorem introduced_iff : .declare x ∈ accessesOf before ++ (Node.stmt s).opens ↔
      ∃ place path, Bound.FirstLet (before ++ s :: after) x place path ∧
        (place < before.length ∨ place = before.length ∧ path = []) := by
  rw [Bound.firstLet_iff, List.mem_append]
  refine or_congr ?_ ?_
  · rw [declare_mem_iff]
    refine exists_congr fun place => ?_
    rw [exists_and_right, Bound.exists_letAt_iff, Bound.exists_letAt_iff]
    constructor
    · rintro ⟨t, ht, hmem⟩
      have hlt := (List.getElem?_eq_some_iff.mp ht).1
      exact ⟨⟨t, by rwa [List.getElem?_append_left hlt], hmem⟩, hlt⟩
    · rintro ⟨⟨t, ht, hmem⟩, hlt⟩
      rw [List.getElem?_append_left hlt] at ht
      exact ⟨t, ht, hmem⟩
  · rw [Bound.letAt_nil_iff]
    simp

/-- After a statement has suspended, its operand is evaluated, its target written, and the
later statements run. -/
theorem referred_iff :
    (∃ a ∈ operand.accesses ++ (Node.stmt s).closes ++ accessesOf after,
      a.referenced? = some x) ↔
      (∃ later t, before.length < later ∧ (before ++ s :: after)[later]? = some t ∧
        (Node.stmt t).Refers x) ∨
        (Node.expr operand).Refers x ∨
          ∃ info value, s = .assign info (.localVar x) value := by
  have hafter : (∃ a ∈ accessesOf after, a.referenced? = some x) ↔
      ∃ later t, before.length < later ∧ (before ++ s :: after)[later]? = some t ∧
      (Node.stmt t).Refers x := by
    constructor
    · rintro ⟨a, ha, hx⟩
      obtain ⟨t, ht, hat⟩ := mem_accessesOf.mp ha
      obtain ⟨k, hk⟩ := List.getElem?_of_mem ht
      refine ⟨before.length + (k + 1), t, by omega, ?_, Node.refers_iff.mpr ⟨a, hat, hx⟩⟩
      rw [List.getElem?_append_right (Nat.le_add_right _ _), Nat.add_sub_cancel_left,
        List.getElem?_cons_succ, hk]
    · rintro ⟨later, t, hlt, ht, hrefers⟩
      obtain ⟨a, ha, hx⟩ := Node.refers_iff.mp hrefers
      obtain ⟨k, rfl⟩ : ∃ k, later = before.length + (k + 1) :=
        ⟨later - (before.length + 1), by omega⟩
      rw [List.getElem?_append_right (Nat.le_add_right _ _), Nat.add_sub_cancel_left,
        List.getElem?_cons_succ] at ht
      exact ⟨a, mem_accessesOf.mpr ⟨t, List.mem_of_getElem? ht, ha⟩, hx⟩
  rw [← hafter, ← mem_closes_iff, Node.refers_iff]
  simp only [List.mem_append, or_and_right, exists_or, Node.accesses]
  exact or_comm

end

/-- **The judgement by position is the rule**, in segmentable bodies. -/
theorem outlivesSuspension_iff_spans (segmentable : ∀ s ∈ stmts, s.Segmentable) :
    outlivesSuspension (accessesOf stmts) x = true ↔ SpansSuspension stmts x := by
  have hundeclared : .declare x ∉ accessesOf stmts ↔
    ∀ place path, ¬ Bound.LetAt stmts x place path := by
    rw [declare_mem_iff]
    push Not
    rfl
  rw [outlivesSuspension_iff, hundeclared]
  constructor
  · rintro ⟨first, rest, hcut, hintroduced, hreferred⟩
    obtain ⟨before, s, after, info, operand, rfl, hsus, rfl, rfl⟩ :=
      exists_cut_of_suspend segmentable hcut
    exact ⟨before.length, s, info, operand, by simp, hsus,
      hintroduced.imp_right introduced_iff.mp, referred_iff.mp hreferred⟩
  · rintro ⟨position, s, info, operand, hs, hsus, hintroduced, hreferred⟩
    obtain ⟨before, after, rfl, rfl⟩ : ∃ before after, stmts = before ++ s :: after ∧
      position = before.length := by
      obtain ⟨hlt, rfl⟩ := List.getElem?_eq_some_iff.mp hs
      refine ⟨stmts.take position, stmts.drop (position + 1), ?_,
        (List.length_take_of_le (Nat.le_of_lt hlt)).symm⟩
      rw [← List.drop_eq_getElem_cons hlt, List.take_append_drop]
    refine ⟨accessesOf before ++ (Node.stmt s).opens,
      operand.accesses ++ (Node.stmt s).closes ++ accessesOf after, ?_,
      hintroduced.imp_right introduced_iff.mpr, referred_iff.mpr hreferred⟩
    simp [Bound.accessesOf_append, accessesOf, accesses_suspending hsus]

/-! ### The hoisted variables -/

/-- Variables that are looked up in order stand in order. -/
theorem exists_origins (ids : List Nat) {find : Nat → Option Variable}
    {origin : Nat → Machine.Origin} (horigin : ∀ i v, find i = some v → v.origin = origin i) :
    ∃ kept : List Nat, kept.Sublist ids ∧
      (ids.filterMap find).map Variable.origin = kept.map origin := by
  induction ids with
  | nil => exact ⟨[], .slnil, rfl⟩
  | cons i ids ih =>
    obtain ⟨kept, hsub, heq⟩ := ih
    cases hfind : find i with
    | none => exact ⟨kept, hsub.cons i, by rw [List.filterMap_cons_none hfind, heq]⟩
    | some v =>
      refine ⟨i :: kept, hsub.cons_cons i, ?_⟩
      rw [List.filterMap_cons_some hfind, List.map_cons, List.map_cons,
        heq, horigin i v hfind]

/-- The parameters come first, then the locals, each in order. -/
theorem origins_hoistedVariables (block : p.body = .block p.stmts) (mode : LivenessMode)
    (points : List SuspensionPoint) :
    ∃ params locals : List Nat, (hoistedVariables p mode points).map Variable.origin =
        params.map .param ++ locals.map .localVar ∧ params.Pairwise (· < ·) ∧
        locals.Pairwise (· < ·) := by
  have hparam : ∀ i v, ((p.param? i).map fun param =>
    (⟨.param i, param.name, param.ty, param.span⟩ : Variable)) =
      some v → v.origin = .param i := by
    intro i v hv
    obtain ⟨param, -, rfl⟩ := Option.map_eq_some_iff.mp hv
    rfl
  have hlocal : ∀ x v, ((p.local? x).map fun decl =>
    (⟨.localVar x, decl.name, decl.ty, decl.span⟩ : Variable)) =
      some v → v.origin = .localVar x := by
    intro x v hv
    obtain ⟨decl, -, rfl⟩ := Option.map_eq_some_iff.mp hv
    rfl
  obtain ⟨params, hparams, hparamOrigins⟩ := exists_origins
    (IdSet.ofList ((accessesOf p.stmts).filterMap Access.param? ++
      p.cancellation.toList)).elems hparam
  obtain ⟨locals, hlocals, hlocalOrigins⟩ :=
    exists_origins (outliving p points mode).elems hlocal
  refine ⟨params, locals, ?_, (IdSet.increasing _).sublist hparams,
    (IdSet.increasing _).sublist hlocals⟩
  rw [← hparamOrigins, ← hlocalOrigins, ← List.map_append]
  rw [hoistedVariables_eq block]
  cases mode <;> rfl

/-- A declared local is hoisted when it is judged to outlive a suspension. -/
theorem exists_hoisted_local_iff (block : p.body = .block p.stmts) {mode : LivenessMode}
    {points : List SuspensionPoint} {decl : LocalDecl} (hdecl : p.local? x = some decl) :
    (∃ v ∈ hoistedVariables p mode points, v.origin = .localVar x) ↔
    x ∈ outliving p points mode := by
  rw [exists_hoisted_localVar_iff block, hdecl]
  exact and_iff_left rfl

theorem mem_positionalLocals :
    x ∈ positionalLocals accesses ↔ outlivesSuspension accesses x = true := by
  unfold positionalLocals
  rw [IdSet.mem_ofList, List.mem_filter]
  refine and_iff_right_of_imp fun houtlives => ?_
  obtain ⟨first, rest, rfl, -, a, ha, hx⟩ := outlivesSuspension_iff.mp houtlives
  exact List.mem_filterMap.mpr ⟨a, List.mem_append_right _ (List.mem_cons_of_mem _ ha), hx⟩

/-- **Hoisting by position** takes the locals that the rule names, the parameters that
are read or assigned, and the cancellation handle; with their declared types, parameters
first and in order. -/
theorem hoist_by_position {names : NameTable} {p : Procedure}
    {points : List SuspensionPoint} {namer namer' : SlotNamer} {hoisted : List Hoisted}
    (shape : shapeProblems names p = [])
    (ok : hoist p points .positional namer = (.ok hoisted, namer')) :
    (∀ x decl, p.local? x = some decl →
      ((∃ v ∈ hoisted, v.origin = .localVar x) ↔ SpansSuspension p.stmts x)) ∧
    (∀ i param, p.param? i = some param →
      ((∃ v ∈ hoisted, v.origin = .param i) ↔
        (∃ s ∈ p.stmts, (Node.stmt s).Mentions i) ∨ p.cancellation = some i)) ∧
    (∀ v ∈ hoisted, p.Declares v.toVariable) ∧
    ∃ params locals : List Nat,
      hoisted.map (·.origin) = params.map .param ++ locals.map .localVar ∧
      params.Pairwise (· < ·) ∧ locals.Pairwise (· < ·) := by
  have segmentable := shapeProblems_eq_nil_iff.mp shape
  have hvariables := toVariable_of_hoist ok
  have hmem : ∀ origin, (∃ v ∈ hoisted, v.origin = origin) ↔
      ∃ v ∈ hoistedVariables p .positional points, v.origin = origin := by
    intro origin
    rw [← hvariables]
    simp
  have block : p.body = .block p.stmts := by
    obtain ⟨stmts, hstmts⟩ := segmentable.block
    rw [Procedure.stmts, hstmts]
  refine ⟨?_, ?_, ?_, ?_⟩
  · intro x decl hdecl
    rw [hmem, exists_hoisted_local_iff block hdecl]
    exact mem_positionalLocals.trans (outlivesSuspension_iff_spans segmentable.stmts)
  · intro i param hparam
    have hlt : i < p.params.length := (List.getElem?_eq_some_iff.mp hparam).1
    rw [hmem, exists_hoisted_param_iff block, and_iff_right hlt, List.mem_filterMap]
    refine or_congr_left ?_
    constructor
    · rintro ⟨a, ha, hi⟩
      obtain ⟨s, hs, has⟩ := mem_accessesOf.mp ha
      exact ⟨s, hs, Node.mentions_iff.mpr ⟨a, has, hi⟩⟩
    · rintro ⟨s, hs, hmentions⟩
      obtain ⟨a, has, hi⟩ := Node.mentions_iff.mp hmentions
      exact ⟨a, mem_accessesOf.mpr ⟨s, hs, has⟩, hi⟩
  · intro v hv
    have hmem : v.toVariable ∈ hoistedVariables p .positional points := by
      rw [← hvariables]
      exact List.mem_map_of_mem hv
    exact declares_of_mem hmem
  · obtain ⟨params, locals, horigins, hparams, hlocals⟩ :=
      origins_hoistedVariables block .positional points
    refine ⟨params, locals, ?_, hparams, hlocals⟩
    rw [← horigins, ← hvariables, List.map_map]
    rfl

/-! ### An errand -/

namespace Errand

/-- The strings that the procedure uses. -/
def names : NameTable :=
  .internAll .empty ["errand", "place", "token", "goal", "note", "answer", "fetch", "print"]

/-- Print a local. -/
def print (number : Nat) (x : LocalId) : Stmt :=
  .expr ⟨number, .none⟩ (.call ⟨.unit, .none⟩ (.host ⟨8⟩) [.localVar ⟨.int, .none⟩ x])

/-- Keep the goal, print a note, wait for an answer, and print the goal. -/
def procedure : Procedure where
  name := ⟨1⟩
  params := [⟨⟨2⟩, .int, .none⟩, ⟨⟨3⟩, .cancellation, .none⟩]
  locals := [⟨0, ⟨4⟩, .int, .none⟩, ⟨1, ⟨5⟩, .int, .none⟩, ⟨2, ⟨6⟩, .int, .none⟩]
  result := .unit
  cancellation := some 1
  body := .block [
    .bind ⟨0, .none⟩ 0 (.param ⟨.int, .none⟩ 0),
    .bind ⟨1, .none⟩ 1 (.int ⟨.int, .none⟩ 1),
    print 2 1,
    .declare ⟨3, .none⟩ 2,
    .assign ⟨4, .none⟩ (.localVar 2)
      (.suspend ⟨.int, .none⟩ (.call ⟨.deferred .int, .none⟩ (.procedure ⟨7⟩) [])),
    print 5 0]
  span := .none

/-- A namer that has handed out nothing. -/
def namer : SlotNamer := .new names "__" "errand"

/-- The hoisted variables. -/
def hoisted : List Hoisted :=
  (nameSlots namer (hoistedVariables procedure .positional [])).2.1

end Errand

/-- The goal is kept for after the wait and the answer is delivered into, so that both are
hoisted; the note is not.  Of the parameters, one is read and the other one is the handle. -/
theorem errand_hoists : shapeProblems Errand.names Errand.procedure = [] ∧
      (∃ namer',
        hoist Errand.procedure [] .positional Errand.namer = (.ok Errand.hoisted, namer')) ∧
      SpansSuspension Errand.procedure.stmts 0 ∧ ¬ SpansSuspension Errand.procedure.stmts 1 ∧
      SpansSuspension Errand.procedure.stmts 2 ∧
      Errand.hoisted.map (·.origin) = [.param 0, .param 1, .localVar 0, .localVar 2] := by
  have hshape : shapeProblems Errand.names Errand.procedure = [] := by decide +kernel
  have hok : hoist Errand.procedure [] .positional Errand.namer =
      (.ok Errand.hoisted, (hoist Errand.procedure [] .positional Errand.namer).2) := by
    have hnone : (nameSlots Errand.namer
      (hoistedVariables Errand.procedure .positional [])).1 = [] :=
      nameSlots_eq_nil_iff.mpr (by decide +kernel)
    refine Prod.ext ?_ rfl
    unfold hoist
    dsimp only
    rw [hnone]
    rfl
  have horigins : Errand.hoisted.map (·.origin) =
    [.param 0, .param 1, .localVar 0, .localVar 2] := by decide +kernel
  obtain ⟨hlocals, -⟩ := hoist_by_position hshape hok
  have hhoisted : ∀ x, (∃ v ∈ Errand.hoisted, v.origin = .localVar x) ↔ x = 0 ∨ x = 2 := by
    intro x
    have hmem : (∃ v ∈ Errand.hoisted, v.origin = .localVar x) ↔
      .localVar x ∈ Errand.hoisted.map (·.origin) := by simp
    rw [hmem, horigins]
    simp
  refine ⟨hshape, ⟨_, hok⟩, ?_, ?_, ?_, horigins⟩
  · exact (hlocals 0 _ rfl).mp ((hhoisted 0).mpr (Or.inl rfl))
  · exact fun hspans => absurd ((hhoisted 1).mp ((hlocals 1 _ rfl).mpr hspans)) (by decide)
  · exact (hlocals 2 _ rfl).mp ((hhoisted 2).mpr (Or.inr rfl))

end Resumable
