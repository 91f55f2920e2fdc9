import Resumable.Proofs.Hoisting

/-!
# Code that finds its variables

Not every local can be read everywhere in a machine: one without a slot is gone after a
suspension, and the slot of one that was not introduced yet has to stay as it is, since
introducing it without a value emits nothing.  *Covered* code asks for no more than
that.  It reads only locals that are *known*, whose values are where the machine looks
for them, and writes no local that is *pending*, which has a slot and is still to be
introduced without a value.

## Main definitions

* `Bound.Expr.Covered`, `Bound.Stmt.Covered`, `Bound.CoveredBlock`: covered code.
* `Lowered.Known`, `Lowered.Pending`: the known and the pending locals at a
  place of a segment.

## Main statements

* `Lowered.covered`: every top-level statement of a segment is covered where it stands.
* `Lowered.covered_operand`: so is the operand of the suspension that ends the segment.
-/

namespace Resumable

open Resumable.Bound (Access Procedure Stmt introducedBy)

variable {x : LocalId} {l : SlotLayout} {a : Access} {seg later : List Stmt}

/-! ### Covered code -/

namespace Bound

/-- Can what is read be found? -/
def Access.Findable (l : SlotLayout) (known : LocalId → Prop) : Access → Prop
  | .readLocal x => known x
  | .readParam i | .writeParam i => (l.param? i).isSome
  | .declare _ | .writeLocal _ | .suspend => True

/-- An expression whose variables can be found. -/
structure Expr.Covered (l : SlotLayout) (known : LocalId → Prop) (e : Expr) : Prop where
  simple : e.isSimple = true
  finds : ∀ a ∈ e.accesses, a.Findable l known

/-- May the place be written? -/
def Place.Writable (l : SlotLayout) (pending : LocalId → Prop) : Place → Prop
  | .localVar x => ¬ pending x
  | .param i => (l.param? i).isSome
  | .field _ => True

/-- The locals that are known after a statement. -/
def after (known : LocalId → Prop) (s : Stmt) : LocalId → Prop :=
  fun x => known x ∨ writes? s = some x

variable {known : LocalId → Prop} {scope : List LocalId}

/-- What a statement introduces is known after it. -/
theorem after_of_scope (s : Stmt) (h : x ∈ scope → known x)
    (hx : x ∈ scope ++ s.introduced?.toList) : after known s x := by
  rcases List.mem_append.mp hx with hx | hx
  · exact Or.inl (h hx)
  · exact Or.inr (s.writes?_of_introduced? (Option.mem_toList.mp hx))

mutual

/-- A statement whose variables can be found, and which leaves alone what is pending. -/
def Stmt.Covered (l : SlotLayout) (known pending : LocalId → Prop) : Stmt → Prop
  | .expr _ e | .ret _ e => e.Covered l known
  | .declare _ x => l.local? x = none ∧ ¬ pending x
  | .bind _ x e => ¬ pending x ∧ e.Covered l known
  | .assign _ target e => target.Writable l pending ∧ e.Covered l known
  | .branch _ cond onTrue onFalse =>
    cond.Covered l known ∧ CoveredBlock l known pending onTrue ∧
      CoveredBlock l known pending onFalse
  | .loop _ cond body => cond.Covered l known ∧ CoveredBlock l known pending body
  | .breakLoop _ | .continueLoop _ | .leave _ => True
  | .goto .. | .label .. | .yield .. => False

/-- Statements that are covered, each knowing what those before it wrote. -/
def CoveredBlock (l : SlotLayout) (known pending : LocalId → Prop) : List Stmt → Prop
  | [] => True
  | s :: rest => s.Covered l known pending ∧ CoveredBlock l (after known s) pending rest

end

/-! ### Coverage from scopes -/

/-- May the access stand in code of the scope, of which these locals are known? -/
def Access.Allowed (l : SlotLayout) (known : LocalId → Prop) (scope : List LocalId) :
    Access → Prop
  | .readLocal x => x ∈ scope → known x
  | .readParam i | .writeParam i => (l.param? i).isSome
  | .declare x => l.local? x = none
  | .writeLocal _ | .suspend => True

theorem Access.Allowed.after (h : a.Allowed l known scope) (s : Stmt) :
    a.Allowed l (after known s) (scope ++ s.introduced?.toList) := by
  cases a with
  | readLocal x => exact after_of_scope s h
  | _ => exact h

theorem Expr.covered_of_allowed {e : Expr} (simple : e.isSimple = true)
    (hscope : e.isWellScoped scope = true)
    (hallowed : ∀ a ∈ e.accesses, a.Allowed l known scope) : e.Covered l known := by
  refine ⟨simple, fun a ha => ?_⟩
  have hthis := hallowed a ha
  cases a with
  | readLocal x => exact hthis (e.mem_scope_of_isSimple simple hscope ha rfl)
  | readParam | writeParam => exact hthis
  | declare | writeLocal | suspend => trivial

section

variable {pending : LocalId → Prop}

theorem not_pending_of_none (hslots : ∀ x, pending x → (l.local? x).isSome)
    (hnone : l.local? x = none) : ¬ pending x := by
  intro hpending
  have hsome := hslots x hpending
  rw [hnone] at hsome
  cases hsome

section

variable (hslots : ∀ x, pending x → (l.local? x).isSome)

include hslots

mutual

/-- **Scoped statements are covered** where what they read from the scope is known, and
everything that they introduce lives for one run. -/
theorem Stmt.covered_of_allowed {known : LocalId → Prop} {scope : List LocalId}
    (hscope : ∀ x ∈ scope, ¬ pending x) :
    (s : Stmt) → s.isSimple = true → stmtStrays s = [] → s.isWellScoped scope = true →
      (∀ a ∈ s.accesses, a.Allowed l known scope) → s.Covered l known pending
  | .expr _ e, simple, _, hscoped, allowed | .ret _ e, simple, _, hscoped, allowed =>
    e.covered_of_allowed simple hscoped allowed
  | .declare _ x, _, _, _, allowed => by
    have hnone : l.local? x = none := allowed (.declare x) List.mem_cons_self
    exact ⟨hnone, not_pending_of_none hslots hnone⟩
  | .bind _ x e, simple, _, hscoped, allowed => by
    have hnone : l.local? x = none := allowed (.declare x) List.mem_cons_self
    exact ⟨not_pending_of_none hslots hnone, e.covered_of_allowed simple hscoped fun a ha =>
      allowed a (List.mem_cons_of_mem _ ha)⟩
  | .assign _ target e, simple, _, hscoped, allowed => by
    obtain ⟨hvalue, htarget⟩ := Bool.and_eq_true_iff.mp hscoped
    refine ⟨?_, e.covered_of_allowed simple hvalue fun a ha =>
      allowed a (List.mem_append_left _ ha)⟩
    cases target with
    -- The target is in scope, and what is in scope is not pending.
    | localVar x => exact hscope x (List.contains_iff_mem.mp htarget)
    | param i => exact allowed (.writeParam i) (List.mem_append_right _ List.mem_cons_self)
    | field name => trivial
  | .branch _ cond onTrue onFalse, simple, strays, hscoped, allowed => by
    obtain ⟨hfirst, hfalse⟩ := Bool.and_eq_true_iff.mp simple
    obtain ⟨hcond, htrue⟩ := Bool.and_eq_true_iff.mp hfirst
    obtain ⟨hscopes, hscopeFalse⟩ := Bool.and_eq_true_iff.mp hscoped
    obtain ⟨hscopeCond, hscopeTrue⟩ := Bool.and_eq_true_iff.mp hscopes
    obtain ⟨hstrays, hstrayFalse⟩ := List.append_eq_nil_iff.mp strays
    refine ⟨cond.covered_of_allowed hcond hscopeCond fun a ha => ?_,
      coveredBlock_of_allowed hscope onTrue htrue (List.append_eq_nil_iff.mp hstrays).2
        hscopeTrue fun a ha => ?_,
      coveredBlock_of_allowed hscope onFalse hfalse hstrayFalse hscopeFalse fun a ha => ?_⟩
    · exact allowed a (List.mem_append_left _ (List.mem_append_left _ ha))
    · exact allowed a (List.mem_append_left _ (List.mem_append_right _ ha))
    · exact allowed a (List.mem_append_right _ ha)
  | .loop _ cond body, simple, strays, hscoped, allowed => by
    obtain ⟨hcond, hbody⟩ := Bool.and_eq_true_iff.mp simple
    obtain ⟨hscopeCond, hscopeBody⟩ := Bool.and_eq_true_iff.mp hscoped
    refine ⟨cond.covered_of_allowed hcond hscopeCond fun a ha => ?_,
      coveredBlock_of_allowed hscope body hbody
        (List.append_eq_nil_iff.mp strays).2 hscopeBody fun a ha => ?_⟩
    · exact allowed a (List.mem_append_left _ ha)
    · exact allowed a (List.mem_append_right _ ha)
  | .breakLoop _, _, _, _, _ | .continueLoop _, _, _, _, _ | .leave _, _, _, _, _ => trivial

/-- Scoped lists of statements are covered. -/
theorem coveredBlock_of_allowed {known : LocalId → Prop} {scope : List LocalId}
    (hscope : ∀ x ∈ scope, ¬ pending x) :
    (stmts : List Stmt) → isSimpleBlock stmts = true → blockStrays stmts = [] →
      isWellScopedBlock scope stmts = true →
      (∀ a ∈ accessesOf stmts, a.Allowed l known scope) →
      CoveredBlock l known pending stmts
  | [], _, _, _, _ => trivial
  | s :: rest, simple, strays, hscoped, allowed => by
    obtain ⟨hs, hrest⟩ := Bool.and_eq_true_iff.mp simple
    obtain ⟨hscopeFirst, hscopeRest⟩ := Bool.and_eq_true_iff.mp hscoped
    obtain ⟨hstrays, hstrayRest⟩ := List.append_eq_nil_iff.mp strays
    refine ⟨s.covered_of_allowed hscope hs hstrays hscopeFirst fun a ha =>
      allowed a (List.mem_append_left _ ha), ?_⟩
    refine coveredBlock_of_allowed (fun x hx => ?_) rest hrest hstrayRest hscopeRest
      fun a ha => (allowed a (List.mem_append_right _ ha)).after s
    rcases List.mem_append.mp hx with hx | hx
    · exact hscope x hx
    · -- What the statement introduces has no slot, so it is not pending.
      have hdeclare :=
        mem_declaresOf.mp (Stmt.mem_declaresOf_of_introduced? (Option.mem_toList.mp hx))
      exact not_pending_of_none hslots
        (allowed (.declare x) (List.mem_append_left _ hdeclare))

end

end

end

end Bound

/-! ### The statements of a segment -/

theorem Stretch.content_eq (st : Stretch) {s : Stmt} (hsplit : st.stmts = seg ++ s :: later) :
    st.content = seg ++ s :: (later ++ (st.closing.map SuspensionPoint.stmt).toList) := by
  rw [content, hsplit, List.append_assoc, List.cons_append]

namespace Lowered

variable {mode : LivenessMode} {names : NameTable} {p : Procedure} {m : Machine}

/-- The known locals after the statements `seg` of a segment: those with a slot that were
introduced before the segment, and those that it has written. -/
def Known (b : Lowered mode names p m) (k : Nat) (seg : List Stmt) (x : LocalId) : Prop :=
  (m.layout.local? x).isSome ∧ x ∈ introducedBy (b.before k) ∨ x ∈ seg.filterMap writes?

/-- The pending locals after the statements `seg` of a segment. -/
def Pending (b : Lowered mode names p m) (k : Nat) (seg : List Stmt) (x : LocalId) : Prop :=
  (m.layout.local? x).isSome ∧ x ∉ introducedBy (b.before k ++ seg) ∧
    ∃ info, .declare info x ∈ p.stmts

/-- A local that a segment needs from before: it was introduced before the segment, and a
statement reads it before the segment has written it. -/
structure Needs (b : Lowered mode names p m) (k : Nat) (st : Stretch)
    (x : LocalId) : Prop where
  introduced : x ∈ introducedBy (b.before k)
  read : ∃ seg s later, st.content = seg ++ s :: later ∧ x ∈ readsOf s ∧
    x ∉ seg.filterMap writes?
  undelivered : st.opening.bind SuspensionPoint.delivered? ≠ some x

/-- The locals that a segment knows when its statements begin. -/
def Given (b : Lowered mode names p m) (k : Nat) (st : Stretch) (x : LocalId) : Prop :=
  b.Needs k st x ∨ st.opening.bind SuspensionPoint.delivered? = some x

variable {k : Nat} {st : Stretch} {s : Stmt}

section

variable (b : Lowered mode names p m) (tree : p.TreeShaped)
  (hst : (cut p.stmts b.points)[k]? = some st)

theorem pending_of_snoc (x : LocalId) (h : b.Pending k (seg ++ [s]) x) :
    b.Pending k seg x := by
  refine ⟨h.1, fun hx => h.2.1 ?_, h.2.2⟩
  rw [← List.append_assoc]
  exact Bound.mem_introducedBy_append.mpr (Or.inl hx)

/-- What a statement of a segment reads from its scope is given to the segment,
or written before. -/
theorem given_of_read (hsplit : st.content = seg ++ s :: later)
    (hx : x ∈ introducedBy (b.before k ++ seg)) (hread : x ∈ readsOf s) :
    b.Given k st x ∨ x ∈ seg.filterMap writes? := by
  by_cases hwritten : x ∈ seg.filterMap writes?
  · exact Or.inr hwritten
  by_cases hdelivered : st.opening.bind SuspensionPoint.delivered? = some x
  · exact Or.inl (Or.inr hdelivered)
  · rcases Bound.mem_introducedBy_append.mp hx with hx | hx
    · exact Or.inl (Or.inl ⟨hx, ⟨seg, s, later, hsplit, hread, hwritten⟩, hdelivered⟩)
    · exact Or.inr (Bound.mem_writes_of_introducedBy hx)

include b tree hst

section

variable (hsplit : st.content = seg ++ s :: later)

include hsplit

/-- The body around a statement of a segment, or around the suspension that ends it. -/
theorem stmts_eq_split : p.stmts = (b.before k ++ seg) ++ s :: (later ++ b.rest (k + 1)) := by
  rw [b.stmts_eq tree k, b.rest_eq hst, hsplit]
  simp

/-- The statement split at is one of the body. -/
theorem mem_stmts_of_split : s ∈ p.stmts := by
  rw [b.stmts_eq_split tree hst hsplit]
  exact List.mem_append_right _ List.mem_cons_self

end

/-- **What a segment needs from before has a slot.** -/
theorem isSome_local?_of_needs
    (declared : ∀ x ∈ (Bound.accessesOf p.stmts).filterMap Access.referenced?,
      x < p.locals.length)
    (h : b.Needs k st x) : (m.layout.local? x).isSome := by
  obtain ⟨seg, s, later, hsplit, hread, hwritten⟩ := h.read
  refine b.hoisted_of_read tree hst hsplit ?_ h.introduced hread hwritten h.undelivered
  refine (isSome_getElem? _ _).mpr
    (declared x (List.mem_filterMap.mpr ⟨.readLocal x, ?_, rfl⟩))
  exact Bound.mem_accessesOf.mpr ⟨s,
    b.mem_stmts_of_split tree hst hsplit, mem_readsOf.mp hread⟩

end

/-- The statements of a stretch have slotted forms. -/
theorem stmtStrays_of_mem (b : Lowered mode names p m)
    (hst : (cut p.stmts b.points)[k]? = some st) (hs : s ∈ st.stmts) : stmtStrays s = [] := by
  have hnone := (List.append_eq_nil_iff.mp (b.noStrays st (List.mem_of_getElem? hst))).1
  rw [blockStrays_eq_flatMap] at hnone
  exact List.flatMap_eq_nil_iff.mp hnone s hs

section

variable (b : Lowered mode names p m) (timed : p.Timed)
  (hst : (cut p.stmts b.points)[k]? = some st)

include b timed hst

section

variable (hsplit : st.content = seg ++ s :: later)

include hsplit

/-- What a statement of a segment reads from its scope is known there. -/
theorem known_of_read (hx : x ∈ introducedBy (b.before k ++ seg))
    (hread : x ∈ readsOf s) : b.Known k seg x := by
  obtain (needs | hdelivered) | hwritten := b.given_of_read hsplit hx hread
  · exact Or.inl ⟨b.isSome_local?_of_needs timed.tree hst timed.declared needs,
      needs.introduced⟩
  · rw [b.delivered_eq_none timed hst] at hdelivered
    cases hdelivered
  · exact Or.inr hwritten

theorem scoped_of_content : s.isWellScoped (introducedBy (b.before k ++ seg)) = true := by
  have hscopes := timed.scopes
  rw [b.stmts_eq_split timed.tree hst hsplit] at hscopes
  have hrest := (Bound.isWellScopedBlock_append.mp hscopes).2
  rw [List.nil_append] at hrest
  exact (Bool.and_eq_true_iff.mp hrest).1

/-- A parameter that a statement of a segment mentions has a slot. -/
theorem param_of_content (ha : a ∈ s.accesses) {i : Nat} (hi : a.param? = some i) :
    (m.layout.param? i).isSome := by
  have hmem : i ∈ (Bound.accessesOf p.stmts).filterMap Access.param? := by
    exact List.mem_filterMap.mpr ⟨a, Bound.mem_accessesOf.mpr
      ⟨s, b.mem_stmts_of_split timed.tree hst hsplit, ha⟩, hi⟩
  exact b.isSome_param? hmem (timed.params i hmem)

end

/-- **Every top-level statement of a segment is covered where it stands**, apart from the
introduction of a local with a slot, of which nothing is left. -/
theorem covered (hsplit : st.stmts = seg ++ s :: later) :
    (∃ info x slot, s = .declare info x ∧ m.layout.local? x = some slot) ∨
      s.Covered m.layout (b.Known k seg) (b.Pending k (seg ++ [s])) := by
  have hcontent := st.content_eq hsplit
  have hs : s ∈ st.stmts := by
    rw [hsplit]
    exact List.mem_append_right _ List.mem_cons_self
  obtain ⟨hbody, hplain⟩ := b.sliced.mem_stmts (List.mem_of_getElem? hst) hs
  have simple : s.isSimple = true := by
    refine (timed.simple s hbody).resolve_right fun hpause => ?_
    unfold Stmt.isPause at hpause
    rw [hplain] at hpause
    cases hpause
  have strays := b.stmtStrays_of_mem hst hs
  have hscoped := b.scoped_of_content timed hst hcontent
  -- What the statement reads was introduced before it, so it is known; parameters have slots.
  have hread : ∀ a ∈ s.accesses, a.declared? = none →
      a.Allowed m.layout (b.Known k seg) (introducedBy (b.before k ++ seg)) := by
    intro a ha hdeclared
    cases a with
    | readLocal x =>
      exact fun hx => b.known_of_read timed hst hcontent hx (mem_readsOf.mpr ha)
    | readParam i | writeParam i => exact b.param_of_content timed hst hcontent ha rfl
    | writeLocal | suspend => trivial
    | declare => cases hdeclared
  have hscope : ∀ x ∈ introducedBy (b.before k ++ seg), ¬ b.Pending k (seg ++ [s]) x :=
    fun x hx hpending => (b.pending_of_snoc x hpending).2.1 hx
  -- Introducing a local at its own level is what `declare` and `bind` do; locals
  -- below have no slot.
  cases hintroduced : s.introduced? with
  | none =>
    right
    refine s.covered_of_allowed (fun x hx => hx.1) hscope simple strays hscoped fun a ha => ?_
    cases hdeclared : a.declared? with
    | none => exact hread a ha hdeclared
    | some x =>
      cases a with
      | declare y =>
        exact b.local?_eq_none_of_nested timed hst hcontent simple hintroduced
          (mem_declaresOf.mpr ha)
      | _ => cases hdeclared
  | some x =>
    cases s with
    | declare info y =>
      cases hslot : m.layout.local? y with
      | none => exact Or.inr ⟨hslot, Bound.not_pending_of_none (fun x hx => hx.1) hslot⟩
      | some slot => exact Or.inl ⟨info, y, slot, rfl, hslot⟩
    | bind info y e =>
      refine Or.inr ⟨fun hpending => hpending.2.1 ?_,
        e.covered_of_allowed simple hscoped fun a ha => ?_⟩
      · rw [← List.append_assoc]
        exact Bound.mem_introducedBy_append.mpr (Or.inr List.mem_cons_self)
      · obtain ⟨-, hnone | ⟨_, hstmt⟩⟩ :=
          Bound.Node.accesses_of_isSimple (n := .expr e) simple ha
        · exact hread a (List.mem_cons_of_mem _ ha) hnone
        · cases hstmt
    | _ => cases hintroduced

/-- **The operand of the suspension that ends a segment** is covered there. -/
theorem covered_operand {q : SuspensionPoint} (hq : st.closing = some q) {e : Bound.Expr}
    (he : e ∈ q.kind.operands) : e.Covered m.layout (b.Known k st.stmts) := by
  have hcontent : st.content = st.stmts ++ q.stmt :: [] := by
    rw [Stretch.content, hq]
    rfl
  have pauses := b.pauses_of_closing timed hst hq
  obtain ⟨info, info', hstmt⟩ := pauses.stmt
  have hscoped := b.scoped_of_content timed hst hcontent
  -- The operand stands in the suspension, which mentions what the operand mentions.
  obtain ⟨simple, hwell, haccess⟩ : e.isSimple = true ∧
      e.isWellScoped (introducedBy (b.before k ++ st.stmts)) = true ∧
      ∀ a ∈ e.accesses, a ∈ q.stmt.accesses := by
    have hkind := pauses.kind
    rw [hstmt] at hscoped ⊢
    generalize hoperand : q.operand = operand at hkind hscoped
    generalize q.kind = kind at hkind he
    cases hkind with
    | yield => cases he
    | delay info e' simple | delayFrames info e' simple =>
      obtain rfl := List.mem_singleton.mp he
      exact ⟨simple, (Bool.and_eq_true_iff.mp hscoped).1,
        fun a ha => List.mem_cons_of_mem _ (List.mem_append_left _ ha)⟩
  refine ⟨simple, fun a ha => ?_⟩
  have hmem := haccess a ha
  cases a with
  | readLocal x =>
    exact b.known_of_read timed hst hcontent (e.mem_scope_of_isSimple simple hwell ha rfl)
      (mem_readsOf.mpr hmem)
  | readParam i | writeParam i => exact b.param_of_content timed hst hcontent hmem rfl
  | declare | writeLocal | suspend => trivial

end

end Lowered

end Resumable
