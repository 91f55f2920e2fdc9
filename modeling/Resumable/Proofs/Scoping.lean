import Resumable.Proofs.Body
import Resumable.Proofs.Mentions

/-!
# Scopes

A body is *block-scoped* when every local is introduced by one `let`, and every other
occurrence of the local, in a closure or not, lies in a later statement of the list that the
`let` stands in, or inside such a statement.  So what a statement mentions was introduced
before it at the levels around it, or is introduced inside it.

## Main definitions

* `Bound.Expr.isSimple`, `Bound.Stmt.isSimple`: code that calls only functions of the host and
  makes no closures; `Bound.Stmt.isPause`: a suspension for time.
* `Bound.Expr.isWellScoped`, `Bound.Stmt.isWellScoped`,
  `Bound.Procedure.BlockScoped`: block scoping.
* `Bound.Procedure.Timed`: block-scoped procedures of simple statements and
  suspensions for time.

## Main statements

* `Bound.isWellScopedBlock_append`: later statements have in scope what the
  earlier ones introduce.
* `Bound.Stmt.keepsTo`: what a statement mentions is in its scope or introduced inside it.
-/

namespace Resumable.Bound

variable {x : LocalId} {a : Access} {s : Stmt} {scope : List LocalId} {args : List Expr}

/-! ### Simple code -/

mutual

/-- Literals, variables, operators and calls of functions of the host. -/
def Expr.isSimple : Expr → Bool
  | .int .. | .float .. | .bool .. | .str .. | .unit .. | .localVar .. | .param .. | .field ..
  | .error .. => true
  | .binary _ _ left right => left.isSimple && right.isSimple
  | .unary _ _ operand => operand.isSimple
  | .call _ (.host _) args => areSimple args
  | .call _ (.procedure _) _ | .call _ (.primitive _) _ | .lambda .. | .suspend .. => false

/-- Arguments that are all simple. -/
def areSimple : List Expr → Bool
  | [] => true
  | e :: rest => e.isSimple && areSimple rest

end

mutual

/-- A statement of simple expressions. -/
def Stmt.isSimple : Stmt → Bool
  | .expr _ e | .bind _ _ e | .assign _ _ e | .ret _ e | .yield _ e => e.isSimple
  | .branch _ cond onTrue onFalse =>
    cond.isSimple && isSimpleBlock onTrue && isSimpleBlock onFalse
  | .loop _ cond body => cond.isSimple && isSimpleBlock body
  | .declare .. | .breakLoop _ | .continueLoop _ | .leave _ | .goto .. | .label .. => true

/-- Statements that are all simple. -/
def isSimpleBlock : List Stmt → Bool
  | [] => true
  | s :: rest => s.isSimple && isSimpleBlock rest

end

/-- A wait for time with simple arguments. -/
def Expr.isTimed : Expr → Bool
  | .call _ (.primitive .delay) args | .call _ (.primitive .delayFrames) args
  | .call _ (.primitive .yield) args => areSimple args
  | _ => false

/-- A statement that is a suspension for time. -/
def Stmt.isPause (s : Stmt) : Bool :=
  match suspensionOf s with
  | some (_, operand) => operand.isTimed
  | none => false

theorem areSimple_iff {args : List Expr} :
    areSimple args = true ↔ ∀ e ∈ args, e.isSimple = true := by
  induction args with
  | nil => simp [areSimple]
  | cons e rest ih => simp [areSimple, ih]

variable {stmts : List Stmt}

theorem isSimpleBlock_iff : isSimpleBlock stmts = true ↔ ∀ s ∈ stmts, s.isSimple = true := by
  induction stmts with
  | nil => simp [isSimpleBlock]
  | cons s rest ih => simp [isSimpleBlock, ih]

namespace Node

/-- Is the node one of simple code? -/
def isSimple : Node → Bool
  | .expr e => e.isSimple
  | .stmt s => s.isSimple

variable {n : Node}

/-- What is below simple code is simple, and below an expression stand expressions. -/
theorem isSimple_child {child : Node} (h : n.isSimple = true) (hchild : child ∈ n.children) :
    child.isSimple = true ∧ ∀ s, child = .stmt s → ∃ t, n = .stmt t := by
  cases n with
  | expr e =>
    cases e with
    | call info target args =>
      cases target <;> grind [isSimple, children, Expr.isSimple, areSimple_iff]
    | _ => grind [isSimple, children, Expr.isSimple]
  | stmt s => cases s <;> grind [isSimple, children, Stmt.isSimple, isSimpleBlock_iff]

theorem of_makes (h : n.isSimple = true) (hmakes : n.makes a = true) :
    a ≠ .suspend ∧ (a.declared? = none ∨ ∃ s, n = .stmt s) := by
  cases n with
  | expr e =>
    cases e <;> cases a <;> simp_all [makes, isSimple, Expr.isSimple, Access.declared?]
  | stmt s => cases a <;> simp_all [makes]

/-- **Simple code does not suspend**, and introduces locals only by statements. -/
theorem accesses_of_isSimple (h : n.isSimple = true) (ha : a ∈ n.accesses) :
    a ≠ .suspend ∧ (a.declared? = none ∨ ∃ s, n = .stmt s) := by
  induction n using Node.induct with
  | step n ih =>
    rw [n.accesses_eq, List.mem_append, List.mem_append, List.mem_flatMap] at ha
    obtain (ha | ⟨child, hchild, ha⟩) | ha := ha
    · exact of_makes h (makes_iff.mpr (Or.inl ha))
    · obtain ⟨hsimple, hstmt⟩ := isSimple_child h hchild
      exact (ih child hchild hsimple ha).imp_right fun hor =>
        hor.imp_right fun ⟨s, hs⟩ => hstmt s hs
    · exact of_makes h (makes_iff.mpr (Or.inr ha))

end Node

/-! ### Scopes -/

/-- The local that a statement introduces for the statements after it. -/
def Stmt.introduced? : Stmt → Option LocalId
  | .declare _ id | .bind _ id _ => some id
  | _ => none

/-- The locals that statements introduce for the statements after them. -/
def introducedBy (stmts : List Stmt) : List LocalId := stmts.filterMap Stmt.introduced?

theorem introducedBy_cons (s : Stmt) (rest : List Stmt) :
    introducedBy (s :: rest) = s.introduced?.toList ++ introducedBy rest := by
  unfold introducedBy
  cases hs : s.introduced? <;> simp [hs]

/-- What is introduced by two blocks in turn. -/
theorem mem_introducedBy_append {x : LocalId} {first rest : List Stmt} :
    x ∈ introducedBy (first ++ rest) ↔ x ∈ introducedBy first ∨ x ∈ introducedBy rest := by
  unfold introducedBy
  rw [List.filterMap_append, List.mem_append]

/-- Is the place a local of the scope, or no local? -/
def Place.isWellScoped (scope : List LocalId) : Place → Bool
  | .localVar x => scope.contains x
  | .param _ | .field _ => true

mutual

/-- Does the expression mention only locals of the scope, and in closures those
introduced before? -/
def Expr.isWellScoped (scope : List LocalId) : Expr → Bool
  | .int .. | .float .. | .bool .. | .str .. | .unit .. | .param .. | .field .. | .error .. =>
    true
  | .localVar _ x => scope.contains x
  | .binary _ _ left right => left.isWellScoped scope && right.isWellScoped scope
  | .unary _ _ operand | .suspend _ operand => operand.isWellScoped scope
  | .call _ _ args => areWellScoped scope args
  | .lambda _ body => isWellScopedBlock scope body

/-- Do the arguments keep to the scope? -/
def areWellScoped (scope : List LocalId) : List Expr → Bool
  | [] => true
  | e :: rest => e.isWellScoped scope && areWellScoped scope rest

/-- Does the statement mention only locals of the scope and those that it
introduces before? -/
def Stmt.isWellScoped (scope : List LocalId) : Stmt → Bool
  | .expr _ e | .bind _ _ e | .ret _ e | .yield _ e => e.isWellScoped scope
  | .assign _ target e => e.isWellScoped scope && target.isWellScoped scope
  | .branch _ cond onTrue onFalse =>
    cond.isWellScoped scope && isWellScopedBlock scope onTrue &&
      isWellScopedBlock scope onFalse
  | .loop _ cond body => cond.isWellScoped scope && isWellScopedBlock scope body
  | .declare .. | .breakLoop _ | .continueLoop _ | .leave _ | .goto .. | .label .. => true

/-- Does each statement keep to the scope, with what the statements before it introduce? -/
def isWellScopedBlock (scope : List LocalId) : List Stmt → Bool
  | [] => true
  | s :: rest =>
    s.isWellScoped scope && isWellScopedBlock (scope ++ s.introduced?.toList) rest

end

/-- **The scope of later statements** has what the earlier ones introduce. -/
theorem isWellScopedBlock_append {first rest : List Stmt} :
    isWellScopedBlock scope (first ++ rest) = true ↔ isWellScopedBlock scope first = true ∧
      isWellScopedBlock (scope ++ introducedBy first) rest = true := by
  induction first generalizing scope with
  | nil => simp [isWellScopedBlock, introducedBy]
  | cons s first ih =>
    simp only [List.cons_append, isWellScopedBlock, Bool.and_eq_true, ih, introducedBy_cons,
      List.append_assoc, and_assoc]

theorem isWellScoped_of_areWellScoped (h : areWellScoped scope args = true) {e : Expr}
    (he : e ∈ args) : e.isWellScoped scope = true := by
  induction args with
  | nil => cases he
  | cons first rest ih =>
    obtain ⟨hfirst, hrest⟩ := Bool.and_eq_true_iff.mp h
    rcases List.mem_cons.mp he with rfl | he
    · exact hfirst
    · exact ih hrest he

/-- A local introduced for later statements is one that the statement introduces. -/
theorem Stmt.mem_declaresOf_of_introduced? (h : s.introduced? = some x) :
    x ∈ declaresOf s := by
  refine List.mem_filterMap.mpr ⟨.declare x, ?_, rfl⟩
  cases s with
  | declare info id =>
    obtain rfl := Option.some.inj h
    exact List.mem_singleton.mpr rfl
  | bind info id init =>
    obtain rfl := Option.some.inj h
    exact List.mem_cons_self
  | _ => cases h

/-- What a statement introduces it writes. -/
theorem Stmt.writes?_of_introduced? (h : s.introduced? = some x) : writes? s = some x := by
  cases s with
  | declare | bind => exact h
  | _ => cases h

theorem mem_writes_of_introducedBy (h : x ∈ introducedBy stmts) :
    x ∈ stmts.filterMap writes? := by
  obtain ⟨s, hs, hx⟩ := List.mem_filterMap.mp h
  exact List.mem_filterMap.mpr ⟨s, hs, s.writes?_of_introduced? hx⟩

/-- The locals that statements introduce, anywhere inside them. -/
def declaredIn (stmts : List Stmt) : List LocalId :=
  (accessesOf stmts).filterMap Access.declared?

/-- Accesses of two blocks in turn. -/
theorem accessesOf_append (first rest : List Stmt) :
    accessesOf (first ++ rest) = accessesOf first ++ accessesOf rest := by
  induction first with
  | nil => rfl
  | cons s first ih => rw [List.cons_append, accessesOf, ih, accessesOf, List.append_assoc]

/-- The accesses of a block are those of its statements. -/
theorem mem_accessesOf : a ∈ accessesOf stmts ↔ ∃ s ∈ stmts, a ∈ s.accesses := by
  induction stmts with
  | nil => simp [accessesOf]
  | cons s rest ih => simp [accessesOf, ih]

/-- Declarations of two blocks in turn. -/
theorem declaredIn_append (first rest : List Stmt) :
    declaredIn (first ++ rest) = declaredIn first ++ declaredIn rest := by
  unfold declaredIn
  rw [accessesOf_append, List.filterMap_append]

/-- Declarations of a block, statement by statement. -/
theorem declaredIn_cons (s : Stmt) (rest : List Stmt) :
    declaredIn (s :: rest) = declaresOf s ++ declaredIn rest := by
  unfold declaredIn declaresOf
  rw [accessesOf, List.filterMap_append]

/-- A block declares what its statements declare. -/
theorem mem_declaredIn : x ∈ declaredIn stmts ↔ ∃ s ∈ stmts, x ∈ declaresOf s := by
  induction stmts with
  | nil => simp [declaredIn, accessesOf]
  | cons s rest ih => simp [declaredIn_cons, ih]

theorem introducedBy_subset_declaredIn (h : x ∈ introducedBy stmts) :
    x ∈ declaredIn stmts := by
  obtain ⟨s, hs, hx⟩ := List.mem_filterMap.mp h
  exact mem_declaredIn.mpr ⟨s, hs, Stmt.mem_declaresOf_of_introduced? hx⟩

/-- Are the locals that accesses mention in the scope, or introduced among them? -/
def KeepsTo (scope : List LocalId) (accesses : List Access) : Prop :=
  ∀ a ∈ accesses, ∀ x, a.referenced? = some x →
    x ∈ scope ∨ x ∈ accesses.filterMap Access.declared?

section

variable {first rest : List Access}

theorem KeepsTo.append (h : KeepsTo scope first) (h' : KeepsTo scope rest) :
    KeepsTo scope (first ++ rest) := by
  intro a ha x hx
  rw [List.filterMap_append, List.mem_append]
  rcases List.mem_append.mp ha with ha | ha
  · exact (h a ha x hx).imp_right Or.inl
  · exact (h' a ha x hx).imp_right Or.inr

/-- What is introduced first is in the scope of the rest. -/
theorem KeepsTo.after {new : List LocalId} (h : KeepsTo scope first)
    (h' : KeepsTo (scope ++ new) rest) (hnew : new ⊆ first.filterMap Access.declared?) :
    KeepsTo scope (first ++ rest) := by
  intro a ha x hx
  rw [List.filterMap_append, List.mem_append]
  rcases List.mem_append.mp ha with ha | ha
  · exact (h a ha x hx).imp_right Or.inl
  · rcases h' a ha x hx with hscope | hdeclared
    · exact (List.mem_append.mp hscope).imp_right fun hx => Or.inl (hnew hx)
    · exact Or.inr (Or.inr hdeclared)

theorem keepsTo_nil : KeepsTo scope [] := fun _ ha => absurd ha List.not_mem_nil

/-- A single access keeps to the scope where it mentions a local of it, or none. -/
theorem keepsTo_singleton (h : ∀ x, a.referenced? = some x → x ∈ scope) :
    KeepsTo scope [a] := by
  intro b hb x hx
  obtain rfl := List.mem_singleton.mp hb
  exact Or.inl (h x hx)

theorem keepsTo_local (ha : a.referenced? = some x) (h : scope.contains x = true) :
    KeepsTo scope [a] := by
  refine keepsTo_singleton fun y hy => ?_
  obtain rfl : x = y := Option.some.inj (ha.symm.trans hy)
  exact List.contains_iff_mem.mp h

end

theorem Place.keepsTo {target : Place} (h : target.isWellScoped scope = true) :
    KeepsTo scope target.accesses := by
  cases target with
  | localVar x => exact keepsTo_local rfl h
  | param i => exact keepsTo_singleton fun y hy => by cases hy
  | field name => exact keepsTo_nil

mutual

/-- **What an expression mentions** is in its scope or introduced inside it. -/
theorem Expr.keepsTo {scope : List LocalId} :
    (e : Expr) → e.isWellScoped scope = true → KeepsTo scope e.accesses
  | .int .., _ | .float .., _ | .bool .., _ | .str .., _ | .unit .., _ | .field .., _
  | .error .., _ => keepsTo_nil
  | .localVar _ x, h => keepsTo_local rfl h
  | .param _ i, _ => keepsTo_singleton fun y hy => by cases hy
  | .binary _ _ left right, h =>
    have hboth := Bool.and_eq_true_iff.mp h
    (left.keepsTo hboth.1).append (right.keepsTo hboth.2)
  | .unary _ _ operand, h => operand.keepsTo h
  | .suspend _ operand, h =>
    (keepsTo_singleton fun y hy => by cases hy).append (operand.keepsTo h)
  | .call _ _ args, h => keepsTo_args args h
  | .lambda _ body, h => keepsTo_block body h

theorem keepsTo_args {scope : List LocalId} :
    (args : List Expr) → areWellScoped scope args = true → KeepsTo scope (accessesOfArgs args)
  | [], _ => keepsTo_nil
  | e :: rest, h =>
    have hboth := Bool.and_eq_true_iff.mp h
    (e.keepsTo hboth.1).append (keepsTo_args rest hboth.2)

/-- **So is what a statement mentions.** -/
theorem Stmt.keepsTo {scope : List LocalId} :
    (s : Stmt) → s.isWellScoped scope = true → KeepsTo scope s.accesses
  | .expr _ e, h | .ret _ e, h | .yield _ e, h => e.keepsTo h
  | .declare .., _ => keepsTo_singleton fun y hy => by cases hy
  | .bind _ _ e, h => (keepsTo_singleton fun y hy => by cases hy).append (e.keepsTo h)
  | .assign _ target e, h =>
    have hboth := Bool.and_eq_true_iff.mp h
    (e.keepsTo hboth.1).append (Place.keepsTo hboth.2)
  | .branch _ cond onTrue onFalse, h => by
    obtain ⟨hfirst, hfalse⟩ := Bool.and_eq_true_iff.mp h
    obtain ⟨hcond, htrue⟩ := Bool.and_eq_true_iff.mp hfirst
    exact ((cond.keepsTo hcond).append (keepsTo_block onTrue htrue)).append
      (keepsTo_block onFalse hfalse)
  | .loop _ cond body, h =>
    have hboth := Bool.and_eq_true_iff.mp h
    (cond.keepsTo hboth.1).append (keepsTo_block body hboth.2)
  | .breakLoop _, _ | .continueLoop _, _ | .leave _, _ | .goto .., _ | .label .., _ =>
    keepsTo_nil

/-- What statements mention is in their scope, or introduced by one of them. -/
theorem keepsTo_block {scope : List LocalId} :
    (stmts : List Stmt) → isWellScopedBlock scope stmts = true →
    KeepsTo scope (accessesOf stmts)
  | [], _ => keepsTo_nil
  | s :: rest, h => by
    obtain ⟨hs, hrest⟩ := Bool.and_eq_true_iff.mp h
    exact (s.keepsTo hs).after (keepsTo_block rest hrest) fun x hx =>
      Stmt.mem_declaresOf_of_introduced? (Option.mem_toList.mp hx)

end

/-- **A simple expression mentions only what is in its scope**: it introduces nothing. -/
theorem Expr.mem_scope_of_isSimple {e : Expr} (simple : e.isSimple = true)
    (hscoped : e.isWellScoped scope = true) (ha : a ∈ e.accesses)
    (hx : a.referenced? = some x) : x ∈ scope := by
  refine (e.keepsTo hscoped a ha x hx).resolve_right fun hdeclared => ?_
  obtain ⟨b, hb, hintroduced⟩ := List.mem_filterMap.mp hdeclared
  obtain ⟨-, hnone | ⟨s, hs⟩⟩ := Node.accesses_of_isSimple (n := .expr e) simple hb
  · rw [hnone] at hintroduced
    cases hintroduced
  · cases hs

/-! ### Procedures -/

/-- **Block-scoped procedures.**  Locals are numbered by their position, those that are used
are declared and introduced once, and every other occurrence is in a later statement of the
same list or inside one. -/
structure Procedure.BlockScoped (p : Procedure) : Prop where
  numbered : p.locals.map LocalDecl.id = List.range p.locals.length
  declared : ∀ x ∈ (accessesOf p.stmts).filterMap Access.referenced?, x < p.locals.length
  once : (declaredIn p.stmts).Nodup
  scopes : isWellScopedBlock [] p.stmts = true

/-- **Block-scoped procedures of simple statements and suspensions for time.**  They take no
cancellation handle, and every number of a parameter is one of a declaration. -/
structure Procedure.Timed (p : Procedure) : Prop extends p.BlockScoped where
  simple : ∀ s ∈ p.stmts, s.isSimple = true ∨ s.isPause = true
  noHandle : p.cancellation = none
  params : ∀ i ∈ (accessesOf p.stmts).filterMap Access.param?, i < p.params.length
  tree : p.TreeShaped

namespace Procedure.Timed

variable {p : Procedure}

/-- A declaration is found by its number. -/
theorem find?_locals (h : p.Timed) {decl : LocalDecl} (hx : p.local? x = some decl) :
    p.locals.find? (fun decl => decl.id == x) = some decl := by
  have hid : ∀ k (d : LocalDecl), p.locals[k]? = some d → d.id = k := by
    intro k d hk
    have hmap := congrArg (fun ids => ids[k]?) h.numbered
    rw [List.getElem?_map, hk, Option.map_some, List.getElem?_range] at hmap
    · exact Option.some.inj hmap
    · exact (List.getElem?_eq_some_iff.mp hk).1
  have hmem : decl ∈ p.locals := List.mem_of_getElem? hx
  cases hfound : p.locals.find? (fun decl => decl.id == x) with
  | none =>
    have hnot := List.find?_eq_none.mp hfound decl hmem
    exact absurd (by simp [hid x decl hx]) hnot
  | some other =>
    obtain ⟨k, hk⟩ := List.getElem?_of_mem (List.mem_of_find?_eq_some hfound)
    have hother : other.id = x := by simpa using List.find?_some hfound
    have hk' := hid k other hk
    rw [hother] at hk'
    subst hk'
    exact hk.symm.trans hx

end Procedure.Timed

end Resumable.Bound
