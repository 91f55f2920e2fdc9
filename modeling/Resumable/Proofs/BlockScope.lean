import Resumable.Proofs.Coverage

/-!
# Code that is well put together

What block-scoped code asks of a machine is little, in closures or not: that it finds the
locals it reads. *Sound* code says so with the locals that are known at each place, and with
what else might go wrong there: a parameter without a slot, a `break` outside loops, a node
left behind by an error.

## Main definitions

* `Bound.Feature`, `Bound.featuresOf`: what code may contain that needs a licence.
* `Bound.Expr.captures`, `Bound.capturesOf`: the locals that the closures of code read.
* `Bound.Licence`, `Bound.Licence.Covers`: what the machines that run the code allow.
* `Bound.Expr.Sound`, `Bound.Stmt.Sound`, `Bound.SoundBlock`: sound code.

## Main statements

* `Bound.Stmt.sound_of_wellScoped`: well-scoped statements are sound where what
  they read is known.
* `Lowered.soundBlock`, `Lowered.sound_operand`: the statements of a segment are sound, and so
  are the operands that close it.
-/

namespace Resumable

open Resumable.Bound (Access Procedure Stmt)

variable {stmts : List Stmt} {a : Access} {x : LocalId} {e operand : Bound.Expr} {s : Stmt}

namespace Bound

/-! ### Features -/

/-- Something in a body that not all machines can be trusted with. -/
inductive Feature where
  /-- A node left behind by an error. -/
  | error
  | lambda
  /-- A call of a procedure. -/
  | call
  /-- The introduction of a local without a value. -/
  | bare
  deriving DecidableEq, Repr

mutual

/-- The features of an expression. -/
def Expr.features : Expr → List Feature
  | .int .. | .float .. | .bool .. | .str .. | .unit ..
  | .localVar .. | .param .. | .field .. => []
  | .binary _ _ left right => left.features ++ right.features
  | .unary _ _ operand | .suspend _ operand => operand.features
  | .call _ (.procedure _) args => .call :: featuresOfArgs args
  | .call _ (.host _) args | .call _ (.primitive _) args => featuresOfArgs args
  | .lambda _ body => .lambda :: featuresOf body
  | .error _ => [.error]

/-- The features of arguments. -/
def featuresOfArgs : List Expr → List Feature
  | [] => []
  | e :: rest => e.features ++ featuresOfArgs rest

/-- The features of a statement. -/
def Stmt.features : Stmt → List Feature
  | .expr _ e | .bind _ _ e | .assign _ _ e | .ret _ e | .yield _ e => e.features
  | .declare .. => [.bare]
  | .branch _ cond onTrue onFalse => cond.features ++ featuresOf onTrue ++ featuresOf onFalse
  | .loop _ cond body => cond.features ++ featuresOf body
  | .breakLoop _ | .continueLoop _ | .leave _ | .goto .. | .label .. => []

/-- The features of statements. -/
def featuresOf : List Stmt → List Feature
  | [] => []
  | s :: rest => s.features ++ featuresOf rest

end

theorem mem_featuresOf {f : Feature} :
    f ∈ featuresOf stmts ↔ ∃ s ∈ stmts, f ∈ s.features := by
  induction stmts with
  | nil => simp [featuresOf]
  | cons s rest ih => simp [featuresOf, ih]

variable {args : List Expr} {scope : List LocalId}

theorem mem_featuresOfArgs {f : Feature} :
    f ∈ featuresOfArgs args ↔ ∃ e ∈ args, f ∈ e.features := by
  induction args with
  | nil => simp [featuresOfArgs]
  | cons e rest ih => simp [featuresOfArgs, ih]

theorem mem_accessesOfArgs : a ∈ accessesOfArgs args ↔ ∃ e ∈ args, a ∈ e.accesses := by
  induction args with
  | nil => simp [accessesOfArgs]
  | cons e rest ih => simp [accessesOfArgs, ih]

mutual

/-- The locals that the closures of an expression read. -/
def Expr.captures : Expr → List LocalId
  | .int .. | .float .. | .bool .. | .str .. | .unit ..
  | .localVar .. | .param .. | .field .. | .error _ => []
  | .binary _ _ left right => left.captures ++ right.captures
  | .unary _ _ operand | .suspend _ operand => operand.captures
  | .call _ _ args => capturesOfArgs args
  -- What an inner closure reads counts for both.
  | .lambda _ body => (accessesOf body).filterMap Access.read? ++ capturesOf body

/-- The locals that the closures of arguments read. -/
def capturesOfArgs : List Expr → List LocalId
  | [] => []
  | e :: rest => e.captures ++ capturesOfArgs rest

/-- The locals that the closures of a statement read. -/
def Stmt.captures : Stmt → List LocalId
  | .expr _ e | .bind _ _ e | .assign _ _ e | .ret _ e | .yield _ e => e.captures
  | .branch _ cond onTrue onFalse => cond.captures ++ capturesOf onTrue ++ capturesOf onFalse
  | .loop _ cond body => cond.captures ++ capturesOf body
  | .declare .. | .breakLoop _ | .continueLoop _ | .leave _ | .goto .. | .label .. => []

/-- The locals that the closures of statements read. -/
def capturesOf : List Stmt → List LocalId
  | [] => []
  | s :: rest => s.captures ++ capturesOf rest

end

theorem mem_capturesOf : x ∈ capturesOf stmts ↔ ∃ s ∈ stmts, x ∈ s.captures := by
  induction stmts with
  | nil => simp [capturesOf]
  | cons s rest ih => simp [capturesOf, ih]

theorem mem_capturesOfArgs : x ∈ capturesOfArgs args ↔ ∃ e ∈ args, x ∈ e.captures := by
  induction args with
  | nil => simp [capturesOfArgs]
  | cons e rest ih => simp [capturesOfArgs, ih]

mutual

/-- Without closures nothing is captured. -/
theorem Expr.captures_eq_nil : (e : Expr) → .lambda ∉ e.features → e.captures = []
  | .int .., _ | .float .., _ | .bool .., _ | .str .., _ | .unit .., _ | .localVar ..,
    _ | .param .., _ | .field .., _
  | .error _, _ => rfl
  | .binary _ _ left right, h => by
    obtain ⟨hleft, hright⟩ := not_or.mp (mt List.mem_append.mpr h)
    rw [Expr.captures, left.captures_eq_nil hleft,
      right.captures_eq_nil hright, List.append_nil]
  | .unary _ _ operand, h | .suspend _ operand, h => operand.captures_eq_nil h
  | .call _ (.procedure _) args, h =>
    capturesOfArgs_eq_nil args fun hmem => h (List.mem_cons_of_mem _ hmem)
  | .call _ (.host _) args, h | .call _ (.primitive _) args, h => capturesOfArgs_eq_nil args h
  | .lambda .., h => absurd List.mem_cons_self h

theorem capturesOfArgs_eq_nil :
    (args : List Expr) → .lambda ∉ featuresOfArgs args → capturesOfArgs args = []
  | [], _ => rfl
  | e :: rest, h => by
    obtain ⟨hfirst, hrest⟩ := not_or.mp (mt List.mem_append.mpr h)
    rw [capturesOfArgs, e.captures_eq_nil hfirst,
      capturesOfArgs_eq_nil rest hrest, List.append_nil]

theorem Stmt.captures_eq_nil : (s : Stmt) → .lambda ∉ s.features → s.captures = []
  | .expr _ e, h | .bind _ _ e, h | .assign _ _ e, h | .ret _ e, h | .yield _ e, h =>
    e.captures_eq_nil h
  | .declare .., _ | .breakLoop _, _ | .continueLoop _, _ | .leave _, _ | .goto ..,
      _ | .label .., _ => rfl
  | .branch _ cond onTrue onFalse, h => by
    obtain ⟨hfirst, hfalse⟩ := not_or.mp (mt List.mem_append.mpr h)
    obtain ⟨hcond, htrue⟩ := not_or.mp (mt List.mem_append.mpr hfirst)
    rw [Stmt.captures, cond.captures_eq_nil hcond, capturesOf_eq_nil onTrue htrue,
      capturesOf_eq_nil onFalse hfalse, List.append_nil, List.append_nil]
  | .loop _ cond body, h => by
    obtain ⟨hcond, hbody⟩ := not_or.mp (mt List.mem_append.mpr h)
    rw [Stmt.captures, cond.captures_eq_nil hcond,
      capturesOf_eq_nil body hbody, List.append_nil]

theorem capturesOf_eq_nil :
    (stmts : List Stmt) → .lambda ∉ featuresOf stmts → capturesOf stmts = []
  | [], _ => rfl
  | s :: rest, h => by
    obtain ⟨hfirst, hrest⟩ := not_or.mp (mt List.mem_append.mpr h)
    rw [capturesOf, s.captures_eq_nil hfirst, capturesOf_eq_nil rest hrest, List.append_nil]

end

/-! ### Sound code -/

/-- What the machines that run code allow. -/
structure Licence where
  /-- Nothing may go wrong. -/
  strict : Prop
  /-- All features are at hand. -/
  free : Prop
  /-- The parameters that have slots. -/
  slotted : Nat → Prop
  /-- The locals that closures may read. -/
  shared : LocalId → Prop

/-- May code have the feature? -/
def Licence.Permits (c : Licence) : Feature → Prop
  | .error => ¬ c.strict
  | .lambda => True
  | .call | .bare => c.free

/-- May code mention the parameter? -/
def Licence.Reaches (c : Licence) (i : Nat) : Prop := c.strict → c.slotted i

/-- **What a procedure contains is allowed.** -/
structure Licence.Covers (c : Licence) (p : Procedure) : Prop where
  permits : ∀ f ∈ featuresOf p.stmts, c.Permits f
  reaches : ∀ i ∈ (accessesOf p.stmts).filterMap Access.param?, c.Reaches i
  shares : ∀ x ∈ capturesOf p.stmts, c.shared x

/-- May code write the place? -/
def Place.Sound (c : Licence) : Place → Prop
  | .param i => c.Reaches i
  | .localVar _ | .field _ => True

mutual

/-- An expression that finds what it reads. -/
def Expr.Sound (c : Licence) (known : LocalId → Prop) : Expr → Prop
  | .int .. | .float .. | .bool .. | .str .. | .unit .. | .field .. => True
  | .localVar _ x => known x
  | .param _ i => c.Reaches i
  | .binary _ _ left right => left.Sound c known ∧ right.Sound c known
  | .unary _ _ operand => operand.Sound c known
  | .call _ (.procedure _) args => c.free ∧ SoundArgs c known args
  | .call _ (.host _) args | .call _ (.primitive _) args => SoundArgs c known args
  | .lambda _ body => SoundBlock c false (fun x => known x ∧ c.shared x) body
  | .error _ => ¬ c.strict
  | .suspend .. => False

/-- Arguments that find what they read. -/
def SoundArgs (c : Licence) (known : LocalId → Prop) : List Expr → Prop
  | [] => True
  | e :: rest => e.Sound c known ∧ SoundArgs c known rest

/-- A statement that finds what it reads. -/
def Stmt.Sound (c : Licence) (inLoop : Bool) (known : LocalId → Prop) : Stmt → Prop
  | .expr _ e | .bind _ _ e | .ret _ e => e.Sound c known
  | .declare .. => c.free
  | .assign _ target e => target.Sound c ∧ e.Sound c known
  | .branch _ cond onTrue onFalse =>
    cond.Sound c known ∧ SoundBlock c inLoop known onTrue ∧ SoundBlock c inLoop known onFalse
  | .loop _ cond body => cond.Sound c known ∧ SoundBlock c true known body
  | .breakLoop _ | .continueLoop _ => inLoop = true
  | .leave _ => True
  | .goto .. | .label .. | .yield .. => False

/-- Statements that find what they read, each knowing what those before it wrote. -/
def SoundBlock (c : Licence) (inLoop : Bool) (known : LocalId → Prop) : List Stmt → Prop
  | [] => True
  | s :: rest => s.Sound c inLoop known ∧ SoundBlock c inLoop (after known s) rest

end

/-- The locals that are known after statements. -/
def afterAll (known : LocalId → Prop) (stmts : List Stmt) : LocalId → Prop :=
  fun x => known x ∨ x ∈ stmts.filterMap writes?

theorem afterAll_nil (known : LocalId → Prop) : afterAll known [] = known := by
  funext x
  simp [afterAll]

theorem afterAll_cons (known : LocalId → Prop) (s : Stmt) (rest : List Stmt) :
    afterAll known (s :: rest) = afterAll (after known s) rest := by
  funext x
  unfold afterAll after
  cases hs : writes? s <;> simp [hs, or_assoc, eq_comm]

/-- Statements are sound when each is, where it stands. -/
theorem soundBlock_of_split {c : Licence} {inLoop : Bool} {known : LocalId → Prop}
    (h : ∀ seg s later, stmts = seg ++ s :: later → s.Sound c inLoop (afterAll known seg)) :
    SoundBlock c inLoop known stmts := by
  induction stmts generalizing known with
  | nil => trivial
  | cons s rest ih =>
    refine ⟨afterAll_nil known ▸ h [] s rest rfl, ih fun seg t later hsplit => ?_⟩
    rw [← afterAll_cons]
    exact h (s :: seg) t later (by rw [hsplit, List.cons_append])

/-! ### Soundness from scopes -/

/-- May the access stand in code of the scope, of which these locals are known? -/
def Access.Founded (c : Licence) (known : LocalId → Prop) (scope : List LocalId) :
    Access → Prop
  | .readLocal x => x ∈ scope → known x
  | .readParam i | .writeParam i => c.Reaches i
  | .declare _ | .writeLocal _ | .suspend => True

theorem Access.Founded.after {c : Licence} {known : LocalId → Prop}
    (h : a.Founded c known scope) (s : Stmt) :
    a.Founded c (after known s) (scope ++ s.introduced?.toList) := by
  cases a with
  | readLocal x => exact after_of_scope s h
  | _ => exact h

/-- What lowering has seen of code: it has a slotted form, and no loop
control without a loop. -/
structure Seen (strays : List Problem) (findings : List Finding) : Prop where
  strays : strays = []
  loops : ∀ keyword span, .strayLoopControl keyword span ∉ findings

theorem Seen.append {strays strays' : List Problem} {findings findings' : List Finding}
    (h : Seen (strays ++ strays') (findings ++ findings')) :
    Seen strays findings ∧ Seen strays' findings' := by
  obtain ⟨hfirst, hrest⟩ := List.append_eq_nil_iff.mp h.strays
  exact ⟨⟨hfirst, fun keyword span hmem =>
    h.loops keyword span (List.mem_append_left _ hmem)⟩, hrest, fun keyword span hmem =>
      h.loops keyword span (List.mem_append_right _ hmem)⟩

/-- **What code contains is allowed** where it stands: its features, its accesses and what
its closures read. -/
structure Suits (c : Licence) (known : LocalId → Prop) (scope : List LocalId)
    (features : List Feature) (accesses : List Access) (captures : List LocalId) : Prop where
  permits : ∀ f ∈ features, c.Permits f
  founded : ∀ a ∈ accesses, a.Founded c known scope
  shares : ∀ x ∈ captures, c.shared x

section

variable {c : Licence} {known : LocalId → Prop} {features features' : List Feature}
  {accesses accesses' : List Access} {captures captures' : List LocalId}

theorem Suits.mono (h : Suits c known scope features accesses captures)
    (hfeatures : features' ⊆ features) (haccesses : accesses' ⊆ accesses)
    (hcaptures : captures' ⊆ captures) : Suits c known scope features' accesses' captures' :=
  ⟨fun f hf => h.permits f (hfeatures hf), fun a ha => h.founded a (haccesses ha),
    fun x hx => h.shares x (hcaptures hx)⟩

theorem Suits.append
    (h : Suits c known scope (features ++ features') (accesses ++ accesses')
      (captures ++ captures')) :
    Suits c known scope features accesses captures ∧
    Suits c known scope features' accesses' captures' :=
  ⟨h.mono (List.subset_append_left _ _) (List.subset_append_left _ _)
    (List.subset_append_left _ _), h.mono (List.subset_append_right _ _)
    (List.subset_append_right _ _) (List.subset_append_right _ _)⟩

theorem Suits.after (h : Suits c known scope features accesses captures) (s : Stmt) :
    Suits c (after known s) (scope ++ s.introduced?.toList) features accesses captures :=
  ⟨h.permits, fun a ha => (h.founded a ha).after s, h.shares⟩

/-- What a closure contains is allowed with the locals that it shares. -/
theorem Suits.inClosure {body : List Stmt}
    (h : Suits c known scope (.lambda :: featuresOf body) (accessesOf body)
      ((accessesOf body).filterMap Access.read? ++ capturesOf body)) :
    Suits c (fun x => known x ∧ c.shared x) scope (featuresOf body) (accessesOf body)
      (capturesOf body) := by
  refine ⟨fun f hf => h.permits f (List.mem_cons_of_mem _ hf), fun a ha => ?_,
    fun x hx => h.shares x (List.mem_append_right _ hx)⟩
  have founded := h.founded a ha
  cases a with
  | readLocal x =>
    exact fun hx => ⟨founded hx, h.shares x
      (List.mem_append_left _ (List.mem_filterMap.mpr ⟨_, ha, rfl⟩))⟩
  | _ => exact founded

end

section

variable {c : Licence}

mutual

/-- **Well-scoped expressions are sound** where what they contain is allowed. -/
theorem Expr.sound_of_wellScoped {known : LocalId → Prop} {scope : List LocalId}
    (around : Surroundings) (whole : Bool) :
    (e : Expr) → e.isWellScoped scope = true →
    Seen (exprStrays e) (exprFindings around whole e) →
      Suits c known scope e.features e.accesses e.captures → e.Sound c known
  | .int .., _, _, _ | .float .., _, _, _ | .bool .., _, _, _ | .str .., _, _, _
  | .unit .., _, _, _ | .field .., _, _, _ => trivial
  | .localVar _ x, hscoped, _, suits =>
    suits.founded (.readLocal x) List.mem_cons_self (List.contains_iff_mem.mp hscoped)
  | .param _ i, _, _, suits => suits.founded (.readParam i) List.mem_cons_self
  | .error _, _, _, suits => suits.permits .error List.mem_cons_self
  | .suspend .., _, seen, _ => by cases seen.strays
  | .binary _ _ left right, hscoped, seen, suits => by
    obtain ⟨hleft, hright⟩ := Bool.and_eq_true_iff.mp hscoped
    obtain ⟨seenLeft, seenRight⟩ := Seen.append seen
    obtain ⟨suitsLeft, suitsRight⟩ := Suits.append suits
    exact ⟨left.sound_of_wellScoped around false hleft seenLeft suitsLeft,
      right.sound_of_wellScoped around false hright seenRight suitsRight⟩
  | .unary _ _ operand, hscoped, seen, suits =>
    operand.sound_of_wellScoped around false hscoped seen suits
  | .call _ (.procedure _) args, hscoped, seen, suits =>
    ⟨suits.permits .call List.mem_cons_self, soundArgs_of_wellScoped around args hscoped seen
      (suits.mono (List.subset_cons_self _ _) (List.Subset.refl _) (List.Subset.refl _))⟩
  | .call _ (.host _) args, hscoped, seen, suits | .call _ (.primitive _) args,
      hscoped, seen, suits =>
    soundArgs_of_wellScoped around args hscoped seen suits
  | .lambda info body, hscoped, seen, suits =>
    soundBlock_of_wellScoped (around.inClosure info.span) rfl body hscoped seen
      (Suits.inClosure suits)

/-- Well-scoped arguments are sound. -/
theorem soundArgs_of_wellScoped {known : LocalId → Prop} {scope : List LocalId}
    (around : Surroundings) :
    (args : List Expr) → areWellScoped scope args = true →
    Seen (argStrays args) (argsFindings around args) →
      Suits c known scope (featuresOfArgs args) (accessesOfArgs args) (capturesOfArgs args) →
      SoundArgs c known args
  | [], _, _, _ => trivial
  | e :: rest, hscoped, seen, suits => by
    obtain ⟨hfirst, hrest⟩ := Bool.and_eq_true_iff.mp hscoped
    obtain ⟨seenFirst, seenRest⟩ := Seen.append seen
    obtain ⟨suitsFirst, suitsRest⟩ := Suits.append suits
    exact ⟨e.sound_of_wellScoped around false hfirst seenFirst suitsFirst,
      soundArgs_of_wellScoped around rest hrest seenRest suitsRest⟩

/-- **Well-scoped statements are sound** where what they contain is allowed. -/
theorem Stmt.sound_of_wellScoped {known : LocalId → Prop} {scope : List LocalId}
    (around : Surroundings) {inLoop : Bool} (hloop : around.inLoop = inLoop) :
    (s : Stmt) → s.isWellScoped scope = true → Seen (stmtStrays s) (stmtFindings around s) →
      Suits c known scope s.features s.accesses s.captures → s.Sound c inLoop known
  | .expr _ e, hscoped, seen, suits => e.sound_of_wellScoped around true hscoped seen suits
  | .ret _ e, hscoped, seen, suits =>
    e.sound_of_wellScoped around false hscoped (@Seen.append [] _ _ _ seen).2 suits
  | .declare .., _, _, suits => suits.permits .bare List.mem_cons_self
  | .bind _ _ e, hscoped, seen, suits => e.sound_of_wellScoped around true hscoped seen
    (suits.mono (List.Subset.refl _) (List.subset_cons_self _ _) (List.Subset.refl _))
  | .assign _ target e, hscoped, seen, suits => by
    obtain ⟨hvalue, -⟩ := Bool.and_eq_true_iff.mp hscoped
    refine ⟨?_, e.sound_of_wellScoped around true hvalue seen
      (suits.mono (List.Subset.refl _) (List.subset_append_left _ _) (List.Subset.refl _))⟩
    cases target with
    | param i =>
      exact suits.founded (.writeParam i) (List.mem_append_right _ List.mem_cons_self)
    | localVar | field => trivial
  | .branch info cond onTrue onFalse, hscoped, seen, suits => by
    obtain ⟨hfirst, hfalse⟩ := Bool.and_eq_true_iff.mp hscoped
    obtain ⟨hcond, htrue⟩ := Bool.and_eq_true_iff.mp hfirst
    obtain ⟨seenFirst, seenFalse⟩ := Seen.append seen
    obtain ⟨seenCond, seenTrue⟩ := Seen.append seenFirst
    obtain ⟨suitsFirst, suitsFalse⟩ := Suits.append suits
    obtain ⟨suitsCond, suitsTrue⟩ := Suits.append suitsFirst
    exact ⟨cond.sound_of_wellScoped (around.inBranch info.span) false
      hcond seenCond suitsCond, soundBlock_of_wellScoped
      (around.inBranch info.span) hloop onTrue htrue seenTrue suitsTrue,
      soundBlock_of_wellScoped (around.inBranch info.span) hloop onFalse
        hfalse seenFalse suitsFalse⟩
  | .loop info cond body, hscoped, seen, suits => by
    obtain ⟨hcond, hbody⟩ := Bool.and_eq_true_iff.mp hscoped
    obtain ⟨seenCond, seenBody⟩ := Seen.append seen
    obtain ⟨suitsCond, suitsBody⟩ := Suits.append suits
    exact ⟨cond.sound_of_wellScoped (around.inLoopBody info.span) false
      hcond seenCond suitsCond, soundBlock_of_wellScoped
      (around.inLoopBody info.span) rfl body hbody seenBody suitsBody⟩
  | .breakLoop info, _, seen, _ => by
    have hfindings := seen.loops .breakLoop info.span
    unfold stmtFindings Surroundings.loopControlFindings at hfindings
    show inLoop = true
    simpa [hloop] using hfindings
  | .continueLoop info, _, seen, _ => by
    have hfindings := seen.loops .continueLoop info.span
    unfold stmtFindings Surroundings.loopControlFindings at hfindings
    show inLoop = true
    simpa [hloop] using hfindings
  | .leave _, _, _, _ => trivial
  | .goto .., _, seen, _ | .label .., _, seen, _ | .yield .., _, seen, _ => by
    cases seen.strays

/-- Well-scoped lists of statements are sound. -/
theorem soundBlock_of_wellScoped {known : LocalId → Prop} {scope : List LocalId}
    (around : Surroundings) {inLoop : Bool} (hloop : around.inLoop = inLoop) :
    (stmts : List Stmt) → isWellScopedBlock scope stmts = true →
    Seen (blockStrays stmts) (blockFindings around stmts) →
      Suits c known scope (featuresOf stmts) (accessesOf stmts) (capturesOf stmts) →
      SoundBlock c inLoop known stmts
  | [], _, _, _ => trivial
  | s :: rest, hscoped, seen, suits => by
    obtain ⟨hfirst, hrest⟩ := Bool.and_eq_true_iff.mp hscoped
    obtain ⟨seenFirst, seenRest⟩ := Seen.append seen
    obtain ⟨suitsFirst, suitsRest⟩ := Suits.append suits
    exact ⟨s.sound_of_wellScoped around hloop hfirst seenFirst suitsFirst,
      soundBlock_of_wellScoped around hloop rest hrest seenRest (suitsRest.after s)⟩

end

end

end Bound

/-! ### The operands of a suspension -/

/-- An expression that a suspension on an operand evaluates by itself. -/
def PartOf (e operand : Bound.Expr) : Prop :=
  e = operand ∨ ∃ info which args, operand = .call info (.primitive which) args ∧ e ∈ args

/-- What a suspension evaluates is part of its operand. -/
theorem Classified.partOf {kind : SuspensionKind} {carriesValue : Bool}
    (h : Classified operand kind carriesValue) (he : e ∈ kind.operands) :
    PartOf e operand := by
  cases h with
  | yield info => cases he
  | delegate operand _ _ => exact Or.inl (List.mem_singleton.mp he)
  | delay info e' | delayFrames info e' => exact Or.inr ⟨info, _, _, rfl, he⟩
  | whenAll info args _ | whenAny info args _ => exact Or.inr ⟨info, _, args, rfl, he⟩

namespace PartOf

variable (h : PartOf e operand)

include h

theorem isWellScoped {scope : List LocalId}
    (hscoped : operand.isWellScoped scope = true) : e.isWellScoped scope = true := by
  rcases h with rfl | ⟨info, which, args, rfl, he⟩
  · exact hscoped
  · exact Bound.isWellScoped_of_areWellScoped hscoped he

theorem features {f : Bound.Feature} (hf : f ∈ e.features) : f ∈ operand.features := by
  rcases h with rfl | ⟨info, which, args, rfl, he⟩
  · exact hf
  · exact Bound.mem_featuresOfArgs.mpr ⟨e, he, hf⟩

theorem accesses (ha : a ∈ e.accesses) : a ∈ operand.accesses := by
  rcases h with rfl | ⟨info, which, args, rfl, he⟩
  · exact ha
  · exact Bound.mem_accessesOfArgs.mpr ⟨e, he, ha⟩

theorem captures (hx : x ∈ e.captures) : x ∈ operand.captures := by
  rcases h with rfl | ⟨info, which, args, rfl, he⟩
  · exact hx
  · exact Bound.mem_capturesOfArgs.mpr ⟨e, he, hx⟩

theorem findings {around : Surroundings} {finding : Finding}
    (hf : finding ∈ exprFindings around false e) :
    finding ∈ exprFindings around false operand := by
  rcases h with rfl | ⟨info, which, args, rfl, he⟩
  · exact hf
  · show finding ∈ argsFindings around args
    induction args with
    | nil => cases he
    | cons first rest ih =>
      rcases List.mem_cons.mp he with rfl | he
      · exact List.mem_append_left _ hf
      · exact List.mem_append_right _ (ih he)

end PartOf

/-- What the operand of a suspension contains, the statement contains. -/
theorem contained_of_suspensionOf {info : ExprInfo}
    (h : suspensionOf s = some (info, operand)) :
    (∀ scope, s.isWellScoped scope = true → operand.isWellScoped scope = true) ∧
      (∀ f ∈ operand.features, f ∈ s.features) ∧ (∀ a ∈ operand.accesses, a ∈ s.accesses) ∧
      (∀ x ∈ operand.captures, x ∈ s.captures) ∧
      ∀ finding ∈ exprFindings .top false operand, finding ∈ topFindings s := by
  cases suspending_of_suspensionOf h with
  | expr =>
    exact ⟨fun _ hscope => hscope, fun f hf => hf, fun a ha => List.mem_cons_of_mem _ ha,
      fun x hx => hx, fun finding hmem => List.mem_cons_of_mem _ hmem⟩
  | bind =>
    exact ⟨fun _ hscope => hscope, fun f hf => hf,
      fun a ha => List.mem_cons_of_mem _ (List.mem_cons_of_mem _ ha),
      fun x hx => hx, fun finding hmem => List.mem_cons_of_mem _ hmem⟩
  | assign =>
    exact ⟨fun _ hscope => (Bool.and_eq_true_iff.mp hscope).1, fun f hf => hf,
      fun a ha => List.mem_append_left _ (List.mem_cons_of_mem _ ha),
      fun x hx => hx, fun finding hmem => List.mem_cons_of_mem _ hmem⟩

/-! ### The statements of a segment -/

namespace Lowered

open Resumable.Bound (SoundBlock afterAll)

variable {mode : LivenessMode} {names : NameTable} {p : Procedure} {m : Machine}

theorem no_strayLoopControl (b : Lowered mode names p m) (hs : s ∈ p.stmts)
    (keyword : LoopControl) (span : Span) :
    .strayLoopControl keyword span ∉ topFindings s := by
  intro hmem
  have hproblems := (List.append_eq_nil_iff.mp (b.stmtProblems_eq hs)).1
  cases List.filterMap_eq_nil_iff.mp hproblems _ hmem

section

variable {k : Nat} {st : Stretch} {seg later : List Stmt}

variable (b : Lowered mode names p m)

variable (tree : p.TreeShaped)

include tree

variable {c : Bound.Licence}

theorem isWellScoped_of_split (blocks : p.BlockScoped)
    (hst : (cut p.stmts b.points)[k]? = some st) (hsplit : st.content = seg ++ s :: later) :
    s.isWellScoped (Bound.introducedBy (b.before k ++ seg)) = true := by
  have hscopes := blocks.scopes
  rw [b.stmts_eq_split tree hst hsplit] at hscopes
  have hrest := (Bound.isWellScopedBlock_append.mp hscopes).2
  rw [List.nil_append] at hrest
  exact (Bool.and_eq_true_iff.mp hrest).1

variable (covers : c.Covers p)

include covers

/-- What a statement of a segment contains is allowed with what is known there. -/
theorem suits_of_split (hst : (cut p.stmts b.points)[k]? = some st)
    (hsplit : st.content = seg ++ s :: later) :
    Bound.Suits c (afterAll (b.Given k st) seg)
      (Bound.introducedBy (b.before k ++ seg)) s.features s.accesses
      s.captures := by
  have hs := b.mem_stmts_of_split tree hst hsplit
  refine ⟨fun f hf => covers.permits f (Bound.mem_featuresOf.mpr ⟨s, hs, hf⟩), fun a ha => ?_,
    fun x hx => covers.shares x (Bound.mem_capturesOf.mpr ⟨s, hs, hx⟩)⟩
  have hbody : a ∈ Bound.accessesOf p.stmts := Bound.mem_accessesOf.mpr ⟨s, hs, ha⟩
  cases a with
  | readLocal x => exact fun hx => b.given_of_read hsplit hx (mem_readsOf.mpr ha)
  | readParam i | writeParam i =>
    exact covers.reaches i (List.mem_filterMap.mpr ⟨_, hbody, rfl⟩)
  | declare | writeLocal | suspend => trivial

/-- **The statements of a segment are sound**, given what the segment needs from before and
what was delivered. -/
theorem soundBlock (blocks : p.BlockScoped) (hst : (cut p.stmts b.points)[k]? = some st) :
    SoundBlock c false (b.Given k st) st.stmts := by
  refine Bound.soundBlock_of_split fun seg s later hsplit => ?_
  have hcontent := st.content_eq hsplit
  have hbody := b.mem_stmts_of_split tree hst hcontent
  have hs : s ∈ st.stmts := by
    rw [hsplit]
    exact List.mem_append_right _ List.mem_cons_self
  exact s.sound_of_wellScoped .top rfl (b.isWellScoped_of_split tree blocks hst hcontent)
    ⟨b.stmtStrays_of_mem hst hs, b.no_strayLoopControl hbody⟩
      (b.suits_of_split tree covers hst hcontent)

/-- **The operands of the suspension that ends a segment** are sound after its statements. -/
theorem sound_operand (blocks : p.BlockScoped) (hst : (cut p.stmts b.points)[k]? = some st)
    {q : SuspensionPoint} (hq : st.closing = some q) (he : e ∈ q.kind.operands)
    (hstrays : exprStrays e = []) : e.Sound c (afterAll (b.Given k st) st.stmts) := by
  have hcontent : st.content = st.stmts ++ q.stmt :: [] := by
    rw [Stretch.content, hq]
    rfl
  have hpoint : q ∈ b.points := by
    rw [b.closing_eq tree hst] at hq
    exact List.mem_of_getElem? hq
  obtain ⟨site, i, gives, -⟩ := site_of_mem b.found hpoint
  have hpart : PartOf e q.operand := by
    rw [gives.operand]
    exact gives.kind.partOf he
  obtain ⟨info, hsus⟩ := b.suspensionOf_point hpoint
  obtain ⟨hscope, hfeatures, haccesses, hcaptures, hfindings⟩ :=
    contained_of_suspensionOf hsus
  have hbody := b.mem_stmts_of_split tree hst hcontent
  refine e.sound_of_wellScoped .top false
    (hpart.isWellScoped (hscope _ (b.isWellScoped_of_split tree blocks hst hcontent)))
    ⟨hstrays, fun keyword span hmem => ?_⟩ ?_
  · exact b.no_strayLoopControl hbody keyword span (hfindings _ (hpart.findings hmem))
  · exact (b.suits_of_split tree covers hst hcontent).mono
      (fun f hf => hfeatures f (hpart.features hf))
      (fun a ha => haccesses a (hpart.accesses ha)) fun x hx =>
        hcaptures x (hpart.captures hx)

end

end Lowered

end Resumable
