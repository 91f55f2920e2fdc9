import Resumable.Proofs.BlockScope
import Resumable.Proofs.Counting

/-!
# The shapes that are accepted

The rules on shape are there so that a body can be cut at its suspensions.  Here they are
stated without the reading that finds their violations: *segmentable* procedures are described
by what may stand where in their trees.  **The rules accept exactly the segmentable
procedures**, and where they do not accept one, every problem that they report is at a
construct that breaks the rule it is reported under.

## Main definitions

* `Bound.Procedure.Segmentable`: procedures that can be cut at their suspensions.
* `Bound.Procedure.Breaks`: a span at which a procedure breaks a rule, by
  the code of the rule.
* `Bound.Spot.Gives`: what is found at a spot of a statement, by what stands around it.

## Main statements

* `gives_of_mem`, `exists_gives`: what is found at a spot.
* `shapeProblems_exact`: the rules accept the segmentable procedures, and
  report what breaks them.
-/

namespace Resumable

variable {root : Node} {P : Node → Prop} {s : Stmt} {span : Span} {f : Finding}
  {names : NameTable} {problem : Problem}

namespace Bound

/-! ### Segmentable procedures -/

/-- Is the spot the whole expression of an expression statement, the first value of a `let` or
the value of an assignment, where the root of the tree is that statement? -/
def Spot.IsValue {root : Node} (spot : Spot root) : Prop :=
  spot.above = [root] ∧ root.takesValue = true

/-- Does a suspension stand somewhere in the statement? -/
def Stmt.Suspends (s : Stmt) : Prop := ∃ spot : Spot (.stmt s), spot.node.isSuspend = true

/-- Does a suspension stand in the statement, outside closures? -/
def Stmt.SuspendsOutside (s : Stmt) : Prop :=
  ∃ spot : Spot (.stmt s), spot.node.isSuspend = true ∧ ¬ spot.InLambda

/-- **Top-level statements at which a body can be cut**, or which can
stand between the cuts. -/
structure Stmt.Segmentable (s : Stmt) : Prop where
  /-- No closure suspends. -/
  outsideLambdas : ∀ spot : Spot (.stmt s), spot.node.isSuspend = true → ¬ spot.InLambda
  /-- A suspension is all of the value of the statement. -/
  wholeValue : ∀ spot : Spot (.stmt s), spot.node.isSuspend = true → spot.IsValue
  /-- The statement suspends once at most. -/
  alone : ∀ spot other : Spot (.stmt s), spot.node.isSuspend = true →
    other.node.isSuspend = true →
    spot.path = other.path
  /-- There are no jumps, not even in closures. -/
  structured : ∀ spot : Spot (.stmt s), spot.node.isJump = false
  /-- A break or continue has its loop, in its own closure. -/
  loops : ∀ spot : Spot (.stmt s), spot.node.isLoopControl = true → spot.InLoop

/-- **Procedures that can be cut at their suspensions.** -/
structure Procedure.Segmentable (p : Procedure) : Prop where
  /-- The body is a block. -/
  block : ∃ stmts, p.body = .block stmts
  /-- The cancellation position names a parameter of the handle type. -/
  handle : ∀ i, p.cancellation = some i → ∃ param, p.params[i]? = some param ∧
    param.ty = .cancellation
  stmts : ∀ s ∈ p.stmts, s.Segmentable
  /-- No return outside closures stands in a top-level statement before the last
  one that suspends. -/
  returns : ∀ (i j : Nat) (s t : Stmt), p.stmts[i]? = some s →
    p.stmts[j]? = some t → t.Suspends →
    ∀ spot : Spot (.stmt s), spot.node.isReturn = true → ¬ spot.InLambda → j ≤ i
  /-- What yields outside closures does not suspend outside closures. -/
  generators : ∀ s ∈ p.stmts, ∀ spot : Spot (.stmt s),
    spot.node.isYield = true → ¬ spot.InLambda →
    ∀ t ∈ p.stmts, ¬ t.SuspendsOutside

/-- **The construct at a span breaks the rule** that a code stands for. -/
def Procedure.Breaks (p : Procedure) (code : ErrorCode) (span : Span) : Prop :=
  match code with
  | .expressionBody => ∃ e, p.body = .expr e ∧ span = e.span
  | .cancellationParam =>
    ∃ i, p.cancellation = some i ∧
      ((∃ param, p.params[i]? = some param ∧ param.ty ≠ .cancellation ∧ span = param.span) ∨
        p.params[i]? = none ∧ span = p.span)
  | .suspendInClosure =>
    ∃ s ∈ p.stmts, ∃ spot : Spot (.stmt s), spot.node.isSuspend = true ∧
      spot.InLambda ∧ span = spot.node.span
  | .suspendInControlFlow =>
    ∃ s ∈ p.stmts, ∃ spot : Spot (.stmt s), spot.node.isSuspend = true ∧
      spot.InControl ∧ span = spot.node.span
  | .suspendPlacement =>
    ∃ s ∈ p.stmts,
      (∃ spot : Spot (.stmt s), spot.node.isSuspend = true ∧ ¬ spot.IsValue ∧
        span = spot.node.span) ∨
        ∃ spot other : Spot (.stmt s), spot.node.isSuspend = true ∧
        other.node.isSuspend = true ∧
          spot.path ≠ other.path ∧ span = s.span
  | .unstructuredJump =>
    ∃ s ∈ p.stmts, ∃ spot : Spot (.stmt s), spot.node.isJump = true ∧ span = spot.node.span
  | .strayLoopControl =>
    ∃ s ∈ p.stmts, ∃ spot : Spot (.stmt s), spot.node.isLoopControl = true ∧
      ¬ spot.InLoop ∧ span = spot.node.span
  | .earlyReturn =>
    ∃ (i j : Nat) (s t : Stmt), p.stmts[i]? = some s ∧ p.stmts[j]? = some t ∧
      i < j ∧ t.SuspendsOutside ∧
      ∃ spot : Spot (.stmt s), spot.node.isReturn = true ∧
      ¬ spot.InLambda ∧ span = spot.node.span
  | .generatorMix =>
    (∃ s ∈ p.stmts, ∃ spot : Spot (.stmt s), spot.node.isYield = true ∧ ¬ spot.InLambda ∧
      span = spot.node.span) ∧
      ∃ t ∈ p.stmts, t.SuspendsOutside
  | _ => False

/-! ### Values of statements -/

/-- The node that was passed last is the root, or stands directly below a
node that was passed. -/
theorem Leads.last {n m last : Node} {path : List Nat} {above front : List Node}
    (h : Leads n path above m) (heq : above = front ++ [last]) :
    above = [n] ∧ last = n ∨ ∃ a ∈ above, last ∈ a.children := by
  induction h generalizing front with
  | here => simp at heq
  | @down n child m k path above step further ih =>
    rcases List.cons_eq_append_iff.mp heq with ⟨rfl, heq⟩ | ⟨front, rfl, rfl⟩
    · obtain ⟨rfl, rfl⟩ := List.cons.inj heq
      exact Or.inl ⟨rfl, rfl⟩
    · right
      rcases ih rfl with ⟨-, rfl⟩ | ⟨a, ha, hlast⟩
      · exact ⟨n, List.mem_cons_self, List.mem_of_getElem? step⟩
      · exact ⟨a, List.mem_cons_of_mem _ ha, hlast⟩

namespace Spot

variable {spot : Spot root}

/-- **A value of a top-level statement** is what is a whole value and has no closure, branch
or loop around. -/
theorem isValue_iff :
    spot.IsValue ↔ spot.isWhole false = true ∧ ¬ spot.InLambda ∧ ¬ spot.InControl := by
  obtain ⟨path, above, node, leads⟩ := spot
  unfold IsValue isWhole InLambda InControl
  dsimp only
  constructor
  · rintro ⟨rfl, htakes⟩
    cases root with
    | expr e => cases htakes
    | stmt s => cases s <;> simp_all [Node.takesValue, Node.isLambda, Node.isControl]
  · rintro ⟨hwhole, hlambda, hcontrol⟩
    cases hlast : above.getLast? with
    | none =>
      rw [hlast] at hwhole
      cases hwhole
    | some last =>
      rw [hlast] at hwhole
      have htakes : last.takesValue = true := hwhole
      obtain ⟨front, hfront⟩ := List.getLast?_eq_some_iff.mp hlast
      rcases leads.last hfront with ⟨habove, rfl⟩ | ⟨a, ha, hchild⟩
      · exact ⟨habove, htakes⟩
      · -- A statement that is not the root is below a closure, a branch or a loop.
        cases last with
        | expr e => cases htakes
        | stmt s =>
          rcases Node.isLambda_or_isControl hchild with h | h
          · exact absurd ⟨a, ha, h⟩ hlambda
          · exact absurd ⟨a, ha, h⟩ hcontrol

/-- There is one way to the value of a statement. -/
theorem IsValue.path_eq (h : spot.IsValue) : spot.path = [0] := by
  obtain ⟨path, above, node, leads⟩ := spot
  obtain ⟨rfl, htakes⟩ := h
  cases leads with
  | @down _ _ _ k _ _ step further =>
    cases further
    have hone : root.children.length = 1 := by
      cases root with
      | expr e => cases htakes
      | stmt s => cases s <;> first | rfl | cases htakes
    have hk := (List.getElem?_eq_some_iff.mp step).1
    exact congrArg (fun k => [k]) (show k = 0 by omega)

end Spot

end Bound

open Resumable.Bound (Expr Node Procedure Spot Stmt)

/-- What all of a statement has, the operand of its suspension has. -/
theorem all_of_suspensionOf {info : ExprInfo} {operand : Expr}
    (h : suspensionOf s = some (info, operand)) (all : (Node.stmt s).All P) :
    (Node.expr operand).All P := by
  cases suspending_of_suspensionOf h
  all_goals exact (all.child List.mem_cons_self).child List.mem_cons_self

theorem PartOf.all {e operand : Expr} (h : PartOf e operand)
    (all : (Node.expr operand).All P) : (Node.expr e).All P := by
  rcases h with rfl | ⟨info, which, args, rfl, he⟩
  · exact all
  · exact all.child (List.mem_map_of_mem he)

/-! ### What is found at a spot of a statement -/

/-- What is found at a spot, by what stands around it. -/
inductive Bound.Spot.Gives {root : Node} (spot : Spot root) : Finding → Prop where
  | inLambda (closure : Span) (suspend : spot.node.isSuspend = true) (inside : spot.InLambda)
    (named : (spot.around .top).closure = some closure) :
      spot.Gives (.suspendInClosure spot.node.span closure)
  | inControl (construct : Construct) (constructSpan : Span)
    (suspend : spot.node.isSuspend = true)
    (outside : ¬ spot.InLambda) (inside : spot.InControl)
    (named : (spot.around .top).control = some (construct, constructSpan)) :
    spot.Gives (.suspendInControlFlow spot.node.span construct constructSpan)
  | value (suspend : spot.node.isSuspend = true) (value : spot.IsValue) :
    spot.Gives (.suspend spot.node.span true)
  | buried (suspend : spot.node.isSuspend = true) (outside : ¬ spot.InLambda)
    (part : ¬ spot.IsValue) :
    spot.Gives (.suspend spot.node.span false)
  | jump (what : Jump) (label : Name) (jump : spot.node.isJump = true) :
    spot.Gives (.jump what label spot.node.span)
  | stray (keyword : LoopControl) (control : spot.node.isLoopControl = true)
    (outside : ¬ spot.InLoop) :
    spot.Gives (.strayLoopControl keyword spot.node.span)
  | ret (ret : spot.node.isReturn = true) (outside : ¬ spot.InLambda) :
    spot.Gives (.ret spot.node.span)
  | yield (yield : spot.node.isYield = true) (outside : ¬ spot.InLambda) :
    spot.Gives (.yield spot.node.span)

namespace Surroundings

variable {c : Surroundings} {keyword : LoopControl}

theorem mem_loopControlFindings :
    f ∈ c.loopControlFindings keyword span ↔ c.inLoop = false ∧
    f = .strayLoopControl keyword span := by
  unfold loopControlFindings
  cases c.inLoop <;> simp

theorem mem_retFindings : f ∈ c.retFindings span ↔ c.closure = none ∧ f = .ret span := by
  unfold retFindings
  cases c.closure <;> simp

theorem mem_yieldFindings :
    f ∈ c.yieldFindings span ↔ c.closure = none ∧ f = .yield span := by
  unfold yieldFindings
  cases c.closure <;> simp

end Surroundings

section

variable {spot : Spot root}

theorem not_inLambda_iff : ¬ spot.InLambda ↔ (spot.around .top).closure = none := by
  rw [spot.closure_around_eq_none]
  simp [Surroundings.top]

theorem not_inControl_iff : ¬ spot.InControl ↔ (spot.around .top).control = none := by
  rw [spot.control_around_eq_none]
  simp [Surroundings.top]

theorem inLoop_iff : spot.InLoop ↔ (spot.around .top).inLoop = true := by
  rw [spot.inLoop_around]
  simp [Surroundings.top]

/-- What a suspension is found as. -/
theorem gives_suspendFinding (suspend : spot.node.isSuspend = true) :
    spot.Gives ((spot.around .top).suspendFinding spot.node.span (spot.isWhole false)) := by
  unfold Surroundings.suspendFinding
  split
  case h_1 closure hclosure =>
    refine .inLambda closure suspend (Classical.not_not.mp fun h => ?_) hclosure
    rw [not_inLambda_iff.mp h] at hclosure
    cases hclosure
  case h_2 construct constructSpan hclosure hcontrol =>
    refine .inControl construct constructSpan suspend (not_inLambda_iff.mpr hclosure)
      (Classical.not_not.mp fun h => ?_) hcontrol
    rw [not_inControl_iff.mp h] at hcontrol
    cases hcontrol
  case h_3 hclosure hcontrol =>
    have houtside := not_inLambda_iff.mpr hclosure
    cases hwhole : spot.isWhole false with
    | true =>
      exact .value suspend (Spot.isValue_iff.mpr
        ⟨hwhole, houtside, not_inControl_iff.mpr hcontrol⟩)
    | false =>
      refine .buried suspend houtside fun hvalue => ?_
      rw [(Spot.isValue_iff.mp hvalue).1] at hwhole
      cases hwhole

/-- **What is found at a spot** depends on what stands around it. -/
theorem gives_of_mem (h : f ∈ spot.findings .top false) : spot.Gives f := by
  have hloop : ∀ keyword, spot.node.isLoopControl = true →
      f ∈ (spot.around .top).loopControlFindings keyword spot.node.span → spot.Gives f := by
    intro keyword hcontrol hmem
    obtain ⟨hout, rfl⟩ := Surroundings.mem_loopControlFindings.mp hmem
    exact .stray keyword hcontrol fun hin => by simp [inLoop_iff.mp hin] at hout
  have hret : spot.node.isReturn = true → f ∈ (spot.around .top).retFindings spot.node.span →
    spot.Gives f := by
    intro hreturn hmem
    obtain ⟨hout, rfl⟩ := Surroundings.mem_retFindings.mp hmem
    exact .ret hreturn (not_inLambda_iff.mpr hout)
  have hyield : spot.node.isYield = true →
    f ∈ (spot.around .top).yieldFindings spot.node.span → spot.Gives f := by
    intro hyields hmem
    obtain ⟨hout, rfl⟩ := Surroundings.mem_yieldFindings.mp hmem
    exact .yield hyields (not_inLambda_iff.mpr hout)
  have hjump : ∀ what label, spot.node.isJump = true →
    f ∈ [Finding.jump what label spot.node.span] → spot.Gives f := by
    intro what label hjumps hmem
    obtain rfl := List.mem_singleton.mp hmem
    exact .jump what label hjumps
  have hsuspend : spot.node.isSuspend = true →
      f ∈ [(spot.around .top).suspendFinding spot.node.span (spot.isWhole false)] →
      spot.Gives f := by
    intro hsuspends hmem
    obtain rfl := List.mem_singleton.mp hmem
    exact gives_suspendFinding hsuspends
  unfold Spot.findings at h
  cases hnode : spot.node with
  | expr e =>
    rw [hnode] at h hsuspend
    cases e with
    | suspend => exact hsuspend rfl h
    | _ => cases h
  | stmt s =>
    rw [hnode] at h hloop hret hyield hjump
    cases s with
    | breakLoop => exact hloop .breakLoop rfl h
    | continueLoop => exact hloop .continueLoop rfl h
    | leave | ret => exact hret rfl h
    | goto _ label => exact hjump .goto label rfl h
    | label _ label => exact hjump .label label rfl h
    | yield => exact hyield rfl h
    | _ => cases h

theorem Bound.Spot.Gives.isSuspend (h : spot.Gives f) (hf : f.isSuspension = true) :
    spot.node.isSuspend = true := by
  cases h with
  | inLambda _ suspend | inControl _ _ suspend | value suspend | buried suspend =>
    exact suspend
  | jump | stray | ret | yield => cases hf

/-- **A suspension is always found.** -/
theorem exists_of_isSuspend (h : spot.node.isSuspend = true) :
    ∃ f ∈ spot.findings .top false, f.isSuspension = true := by
  unfold Spot.findings
  generalize spot.node = n at h
  cases n with
  | stmt => cases h
  | expr e =>
    cases e with
    | suspend =>
      exact ⟨_, List.mem_singleton.mpr rfl, Surroundings.isSuspension_suspendFinding _ _ _⟩
    | _ => cases h

/-- So is a jump. -/
theorem exists_of_isJump (h : spot.node.isJump = true) :
    ∃ what label, .jump what label spot.node.span ∈ spot.findings .top false := by
  unfold Spot.findings
  generalize spot.node = n at h
  cases n with
  | expr => cases h
  | stmt s =>
    cases s with
    | goto _ label => exact ⟨.goto, label, List.mem_singleton.mpr rfl⟩
    | label _ label => exact ⟨.label, label, List.mem_singleton.mpr rfl⟩
    | _ => cases h

/-- A break or continue is found where it has no loop. -/
theorem exists_of_isLoopControl (h : spot.node.isLoopControl = true)
    (outside : ¬ spot.InLoop) :
    ∃ keyword, .strayLoopControl keyword spot.node.span ∈ spot.findings .top false := by
  have hout : (spot.around .top).inLoop = false :=
    Bool.eq_false_iff.mpr fun hin => outside (inLoop_iff.mpr hin)
  unfold Spot.findings
  generalize spot.node = n at h
  cases n with
  | expr => cases h
  | stmt s =>
    cases s with
    | breakLoop => exact ⟨.breakLoop, Surroundings.mem_loopControlFindings.mpr ⟨hout, rfl⟩⟩
    | continueLoop =>
      exact ⟨.continueLoop, Surroundings.mem_loopControlFindings.mpr ⟨hout, rfl⟩⟩
    | _ => cases h

/-- A return is found outside closures. -/
theorem mem_of_isReturn (h : spot.node.isReturn = true) (outside : ¬ spot.InLambda) :
    .ret spot.node.span ∈ spot.findings .top false := by
  unfold Spot.findings
  generalize spot.node = n at h
  cases n with
  | expr => cases h
  | stmt s =>
    cases s with
    | leave | ret => exact Surroundings.mem_retFindings.mpr ⟨not_inLambda_iff.mp outside, rfl⟩
    | _ => cases h

/-- So is a yield. -/
theorem mem_of_isYield (h : spot.node.isYield = true) (outside : ¬ spot.InLambda) :
    .yield spot.node.span ∈ spot.findings .top false := by
  unfold Spot.findings
  generalize spot.node = n at h
  cases n with
  | expr => cases h
  | stmt s =>
    cases s with
    | yield => exact Surroundings.mem_yieldFindings.mpr ⟨not_inLambda_iff.mp outside, rfl⟩
    | _ => cases h

end

/-! ### Statements -/

theorem mem_topFindings :
    f ∈ topFindings s ↔ ∃ spot : Spot (.stmt s), f ∈ spot.findings .top false :=
  @mem_findings .top false f (.stmt s)

/-- What is found in a statement is found at a spot of it. -/
theorem exists_gives (h : f ∈ topFindings s) : ∃ spot : Spot (.stmt s), spot.Gives f := by
  obtain ⟨spot, hspot⟩ := mem_topFindings.mp h
  exact ⟨spot, gives_of_mem hspot⟩

/-- No finding of a statement without problems is one by itself. -/
theorem problem?_eq_none (h : stmtProblems names s = []) (hf : f ∈ topFindings s) :
    f.problem? names = none :=
  List.filterMap_eq_nil_iff.mp (List.append_eq_nil_iff.mp h).1 f hf

/-- A statement without problems has no suspension inside a larger expression. -/
theorem buried_not_mem (h : stmtProblems names s = []) (span : Span) :
    Finding.suspend span false ∉ topFindings s := by
  intro hmem
  have hplacement := (List.append_eq_nil_iff.mp h).2
  unfold placementProblems at hplacement
  dsimp only at hplacement
  split at hplacement
  case isTrue => cases hplacement
  case isFalse =>
    have hnone := List.filterMap_eq_nil_iff.mp (List.map_eq_nil_iff.mp hplacement) _ hmem
    cases hnone

/-- A suspension in a statement without problems is its value. -/
theorem isValue_of_stmtProblems (h : stmtProblems names s = []) {spot : Spot (.stmt s)}
    (hsuspend : spot.node.isSuspend = true) : spot.IsValue := by
  obtain ⟨f, hf, hsuspension⟩ := exists_of_isSuspend hsuspend
  have hmem := mem_topFindings.mpr ⟨spot, hf⟩
  have hproblem := problem?_eq_none h hmem
  cases gives_of_mem hf with
  | inLambda | inControl => cases hproblem
  | value _ value => exact value
  | buried => exact absurd hmem (buried_not_mem h _)
  | jump | stray | ret | yield => cases hsuspension

theorem Bound.Spot.IsValue.not_inLambda {spot : Spot (.stmt s)} (h : spot.IsValue) :
    ¬ spot.InLambda :=
  (Spot.isValue_iff.mp h).2.1

/-- A statement without problems can be cut into segments. -/
theorem segmentable_of_stmtProblems (h : stmtProblems names s = []) : s.Segmentable where
  outsideLambdas _ hsuspend := (isValue_of_stmtProblems h hsuspend).not_inLambda
  wholeValue _ hsuspend := isValue_of_stmtProblems h hsuspend
  alone _ _ hsuspend hother :=
    (isValue_of_stmtProblems h hsuspend).path_eq.trans
      (isValue_of_stmtProblems h hother).path_eq.symm
  structured spot := by
    rw [Bool.eq_false_iff]
    intro hjump
    obtain ⟨what, label, hmem⟩ := exists_of_isJump hjump
    cases problem?_eq_none h (mem_topFindings.mpr ⟨spot, hmem⟩)
  loops spot hcontrol := by
    refine Classical.not_not.mp fun hout => ?_
    obtain ⟨keyword, hmem⟩ := exists_of_isLoopControl hcontrol hout
    cases problem?_eq_none h (mem_topFindings.mpr ⟨spot, hmem⟩)

/-- More than one suspension is found at two spots. -/
theorem exists_two_suspends
    (h : 1 < ((topFindings s).filterMap Finding.plainSuspension?).length) :
    ∃ spot other : Spot (.stmt s), spot.node.isSuspend = true ∧ other.node.isSuspend = true ∧
      spot.path ≠ other.path := by
  rw [List.length_filterMap_eq_countP] at h
  have hplain : ∀ {f : Finding}, f.plainSuspension?.isSome = true →
    f.isSuspension = true := by
    intro f hf
    cases f with
    | suspend => rfl
    | _ => cases hf
  obtain ⟨spot, other, hne, ⟨f, hf, hPf⟩, g, hg, hPg⟩ :=
    @exists_two_spots .top false _ (.stmt s) h
  exact ⟨spot, other, (gives_of_mem hf).isSuspend (hplain hPf),
    (gives_of_mem hg).isSuspend (hplain hPg), hne⟩

theorem placementProblems_eq_nil (h : s.Segmentable) :
    placementProblems s (topFindings s) = [] := by
  unfold placementProblems
  dsimp only
  rw [if_neg, List.map_eq_nil_iff, List.filterMap_eq_nil_iff]
  · intro f hf
    obtain ⟨spot, hspot⟩ := exists_gives hf
    cases hspot with
    | buried suspend _ part => exact absurd (h.wholeValue spot suspend) part
    | _ => rfl
  · intro htwo
    obtain ⟨spot, other, hspot, hother, hne⟩ := exists_two_suspends htwo
    exact hne (h.alone spot other hspot hother)

/-- **A statement has no problems** exactly when a body can be cut at it. -/
theorem stmtProblems_eq_nil_iff : stmtProblems names s = [] ↔ s.Segmentable := by
  refine ⟨segmentable_of_stmtProblems, fun h => ?_⟩
  unfold stmtProblems
  rw [placementProblems_eq_nil h, List.append_nil, List.filterMap_eq_nil_iff]
  intro f hf
  obtain ⟨spot, hspot⟩ := exists_gives hf
  cases hspot with
  | inLambda _ suspend inside => exact absurd inside (h.outsideLambdas spot suspend)
  | inControl _ _ suspend _ inside =>
    exact absurd inside (Spot.isValue_iff.mp (h.wholeValue spot suspend)).2.2
  | jump _ _ jump =>
    rw [h.structured spot] at jump
    cases jump
  | stray _ control outside => exact absurd (h.loops spot control) outside
  | value | buried | ret | yield => rfl

/-! ### Bodies -/

section

variable {stmts : List Stmt} {find : Finding → Option Span} {k : Nat}

theorem exists_of_mem_located (h : (k, span) ∈ located find stmts) :
    ∃ s f, stmts[k]? = some s ∧ f ∈ topFindings s ∧ find f = some span := by
  obtain ⟨⟨s, position⟩, hmem, hfound⟩ := List.mem_flatMap.mp h
  obtain ⟨_, hspan, heq⟩ := List.mem_map.mp hfound
  obtain ⟨rfl, rfl⟩ := Prod.mk.inj heq
  obtain ⟨f, hf, hfind⟩ := List.mem_filterMap.mp hspan
  exact ⟨s, f, List.mk_mem_zipIdx_iff_getElem?.mp hmem, hf, hfind⟩

theorem exists_of_suspension? (hf : f ∈ topFindings s) (hfind : f.suspension? = some span) :
    ∃ spot : Spot (.stmt s), spot.node.isSuspend = true ∧ ¬ spot.InLambda ∧
      span = spot.node.span := by
  obtain ⟨spot, hspot⟩ := exists_gives hf
  cases hspot with
  | inControl _ _ suspend outside | buried suspend outside =>
    exact ⟨spot, suspend, outside, (Option.some.inj hfind).symm⟩
  | value suspend value =>
    exact ⟨spot, suspend, value.not_inLambda, (Option.some.inj hfind).symm⟩
  | inLambda | jump | stray | ret | yield => cases hfind

theorem exists_suspension?_of_suspendsOutside (h : s.SuspendsOutside) :
    ∃ f ∈ topFindings s, ∃ span, f.suspension? = some span := by
  obtain ⟨spot, hsuspend, houtside⟩ := h
  obtain ⟨f, hf, hsuspension⟩ := exists_of_isSuspend hsuspend
  refine ⟨f, mem_topFindings.mpr ⟨spot, hf⟩, ?_⟩
  cases gives_of_mem hf with
  | inLambda _ _ inside => exact absurd inside houtside
  | inControl | value | buried => exact ⟨_, rfl⟩
  | jump | stray | ret | yield => cases hsuspension

/-- What is listed last has the last position. -/
theorem le_of_getLast?_located {last : Nat × Span}
    (hlast : (located find stmts).getLast? = some last) (h : (k, span) ∈ located find stmts) :
    k ≤ last.1 := by
  obtain ⟨front, hfront⟩ := List.getLast?_eq_some_iff.mp hlast
  have hsorted := located_pairwise find stmts
  rw [hfront] at hsorted h
  rcases List.mem_append.mp h with h | h
  · exact (List.pairwise_append.mp hsorted).2.2 _ h last List.mem_cons_self
  · exact Nat.le_of_eq (congrArg Prod.fst (List.mem_singleton.mp h))

/-- What the rule on returns objects to is a return before a suspension. -/
theorem exists_of_mem_returnProblems (h : problem ∈ returnProblems stmts) :
    ∃ (i j : Nat) (s t : Stmt), stmts[i]? = some s ∧ stmts[j]? = some t ∧ i < j ∧
      ∃ (spot : Spot (.stmt s)) (other : Spot (.stmt t)),
        spot.node.isReturn = true ∧ ¬ spot.InLambda ∧
        other.node.isSuspend = true ∧ ¬ other.InLambda ∧
          problem = .earlyReturn spot.node.span other.node.span := by
  unfold returnProblems at h
  split at h
  case h_1 => cases h
  case h_2 position last hlast =>
    obtain ⟨⟨i, span⟩, hmem, rfl⟩ := List.mem_map.mp h
    obtain ⟨hmem, hlt⟩ := List.mem_filter.mp hmem
    obtain ⟨s, f, hs, hf, hfind⟩ := exists_of_mem_located hmem
    obtain ⟨t, g, ht, hg, hsuspends⟩ := exists_of_mem_located (List.mem_of_getLast? hlast)
    obtain ⟨other, hsuspend, houtside, rfl⟩ := exists_of_suspension? hg hsuspends
    obtain ⟨spot, hspot⟩ := exists_gives hf
    refine ⟨i, position, s, t, hs, ht, of_decide_eq_true hlt, spot, other, ?_⟩
    cases hspot with
    | ret ret outside =>
      obtain rfl := Option.some.inj hfind
      exact ⟨ret, outside, hsuspend, houtside, rfl⟩
    | _ => cases hfind

/-- **The rule on returns** objects to every return before a suspension. -/
theorem returnProblems_eq_nil_iff : returnProblems stmts = [] ↔
    ∀ (i j : Nat) (s t : Stmt), stmts[i]? = some s → stmts[j]? = some t → t.SuspendsOutside →
      ∀ spot : Spot (.stmt s), spot.node.isReturn = true → ¬ spot.InLambda → j ≤ i := by
  constructor
  · intro h i j s t hs ht hsuspends spot hreturn houtside
    obtain ⟨f, hf, span, hfind⟩ := exists_suspension?_of_suspendsOutside hsuspends
    have hsuspension := mem_located Finding.suspension? ht hf hfind
    have hret := mem_located Finding.ret? hs
      (mem_topFindings.mpr ⟨spot, mem_of_isReturn hreturn houtside⟩) rfl
    unfold returnProblems at h
    cases hlast : (located Finding.suspension? stmts).getLast? with
    | none =>
      rw [List.getLast?_eq_none_iff.mp hlast] at hsuspension
      cases hsuspension
    | some last =>
      rw [hlast] at h
      have hle := le_of_getLast?_located hlast hsuspension
      refine Nat.le_of_not_lt fun hlt => ?_
      exact List.filter_eq_nil_iff.mp (List.map_eq_nil_iff.mp h) _ hret
        (decide_eq_true (Nat.lt_of_lt_of_le hlt hle))
  · intro h
    refine List.eq_nil_iff_forall_not_mem.mpr fun problem hproblem => ?_
    obtain ⟨i, j, s, t, hs, ht, hlt, spot, other, hreturn, houtside,
      hsuspend, houtside', -⟩ :=
      exists_of_mem_returnProblems hproblem
    exact absurd hlt
      (Nat.not_lt_of_le (h i j s t hs ht ⟨other, hsuspend, houtside'⟩ spot hreturn houtside))

/-- What the rule on generators objects to is a yield beside a suspension. -/
theorem exists_of_mem_generatorProblems (h : problem ∈ generatorProblems stmts) :
    ∃ s ∈ stmts, ∃ spot : Spot (.stmt s), spot.node.isYield = true ∧ ¬ spot.InLambda ∧
      (∃ suspend, problem = .generatorMix spot.node.span suspend) ∧
      ∃ t ∈ stmts, t.SuspendsOutside := by
  unfold generatorProblems at h
  split at h
  case h_2 => cases h
  case h_1 i span j suspend hyield hsuspend =>
    obtain rfl := List.mem_singleton.mp h
    obtain ⟨s, f, hs, hf, hfind⟩ := exists_of_mem_located (List.mem_of_head? hyield)
    obtain ⟨t, g, ht, hg, hsuspends⟩ := exists_of_mem_located (List.mem_of_head? hsuspend)
    obtain ⟨other, hsuspends, houtside, -⟩ := exists_of_suspension? hg hsuspends
    obtain ⟨spot, hspot⟩ := exists_gives hf
    refine ⟨s, List.mem_of_getElem? hs, spot, ?_⟩
    cases hspot with
    | yield yield outside =>
      obtain rfl := Option.some.inj hfind
      exact ⟨yield, outside, ⟨suspend, rfl⟩, t, List.mem_of_getElem? ht,
        other, hsuspends, houtside⟩
    | _ => cases hfind

/-- **The rule on generators** objects to every yield beside a suspension. -/
theorem generatorProblems_eq_nil_iff : generatorProblems stmts = [] ↔
    ∀ s ∈ stmts, ∀ spot : Spot (.stmt s), spot.node.isYield = true → ¬ spot.InLambda →
      ∀ t ∈ stmts, ¬ t.SuspendsOutside := by
  constructor
  · intro h s hs spot hyield houtside t ht hsuspends
    obtain ⟨i, hi⟩ := List.getElem?_of_mem hs
    obtain ⟨j, hj⟩ := List.getElem?_of_mem ht
    obtain ⟨f, hf, span, hfind⟩ := exists_suspension?_of_suspendsOutside hsuspends
    have hsuspension := mem_located Finding.suspension? hj hf hfind
    have hyields := mem_located Finding.yield? hi
      (mem_topFindings.mpr ⟨spot, mem_of_isYield hyield houtside⟩) rfl
    obtain ⟨first, yields, hyields⟩ := List.exists_cons_of_ne_nil (List.ne_nil_of_mem hyields)
    obtain ⟨other, suspensions, hsuspensions⟩ :=
      List.exists_cons_of_ne_nil (List.ne_nil_of_mem hsuspension)
    unfold generatorProblems at h
    rw [hyields, hsuspensions] at h
    cases h
  · intro h
    refine List.eq_nil_iff_forall_not_mem.mpr fun problem hproblem => ?_
    obtain ⟨s, hs, spot, hyield, houtside, -, t, ht, hsuspends⟩ :=
      exists_of_mem_generatorProblems hproblem
    exact h s hs spot hyield houtside t ht hsuspends

end

/-! ### Procedures -/

section

variable {p : Procedure}

/-- **The rule on cancellation** is that a position names a handle. -/
theorem cancellationProblems_eq_nil_iff : cancellationProblems names p = [] ↔
    ∀ i, p.cancellation = some i → ∃ param, p.params[i]? = some param ∧
      param.ty = .cancellation := by
  unfold cancellationProblems Procedure.param?
  cases p.cancellation with
  | none => simp
  | some index =>
    cases hparam : p.params[index]? with
    | none => simp [hparam]
    | some param => by_cases hty : param.ty = .cancellation <;> simp [hparam, hty]

theorem breaks_of_mem_cancellationProblems (h : problem ∈ cancellationProblems names p) :
    p.Breaks problem.code problem.span := by
  unfold cancellationProblems at h
  split at h
  case h_1 => cases h
  case h_2 i hi =>
    split at h
    case h_1 param hparam =>
      split at h
      case isTrue => cases h
      case isFalse hty =>
        obtain rfl := List.mem_singleton.mp h
        exact ⟨i, hi, Or.inl ⟨param, hparam, hty, rfl⟩⟩
    case h_2 hparam =>
      obtain rfl := List.mem_singleton.mp h
      exact ⟨i, hi, Or.inr ⟨hparam, rfl⟩⟩

/-- What is reported in a statement is at a construct of it that breaks the rule. -/
theorem breaks_of_mem_stmtProblems (hs : s ∈ p.stmts)
    (h : problem ∈ stmtProblems names s) : p.Breaks problem.code problem.span := by
  rcases List.mem_append.mp h with h | h
  · obtain ⟨f, hf, hproblem⟩ := List.mem_filterMap.mp h
    obtain ⟨spot, hspot⟩ := exists_gives hf
    cases hspot with
    | inLambda _ suspend inside | inControl _ _ suspend _ inside =>
      obtain rfl := Option.some.inj hproblem
      exact ⟨s, hs, spot, suspend, inside, rfl⟩
    | jump _ _ jump =>
      obtain rfl := Option.some.inj hproblem
      exact ⟨s, hs, spot, jump, rfl⟩
    | stray _ control outside =>
      obtain rfl := Option.some.inj hproblem
      exact ⟨s, hs, spot, control, outside, rfl⟩
    | value | buried | ret | yield => cases hproblem
  · unfold placementProblems at h
    dsimp only at h
    split at h
    case isTrue htwo =>
      obtain rfl := List.mem_singleton.mp h
      obtain ⟨spot, other, hspot, hother, hne⟩ := exists_two_suspends htwo
      exact ⟨s, hs, Or.inr ⟨spot, other, hspot, hother, hne, rfl⟩⟩
    case isFalse =>
      obtain ⟨span, hspan, rfl⟩ := List.mem_map.mp h
      obtain ⟨f, hf, hburied⟩ := List.mem_filterMap.mp hspan
      obtain ⟨spot, hspot⟩ := exists_gives hf
      cases hspot with
      | buried suspend _ part =>
        obtain rfl := Option.some.inj hburied
        exact ⟨s, hs, Or.inl ⟨spot, suspend, part, rfl⟩⟩
      | _ => cases hburied

/-- What is reported, rule by rule. -/
theorem shapeProblems_cases (h : problem ∈ shapeProblems names p) :
    problem ∈ cancellationProblems names p ∨
    (∃ e, p.body = .expr e ∧ problem = .expressionBody e.span) ∨
      (∃ s ∈ p.stmts, problem ∈ stmtProblems names s) ∨ problem ∈ returnProblems p.stmts ∨
      problem ∈ generatorProblems p.stmts := by
  rcases List.mem_append.mp h with h | h
  · exact Or.inl h
  · cases hbody : p.body with
    | expr e =>
      rw [hbody] at h
      exact Or.inr (Or.inl ⟨e, rfl, List.mem_singleton.mp h⟩)
    | block stmts =>
      rw [hbody] at h
      have hstmts : p.stmts = stmts := by rw [Procedure.stmts, hbody]
      rw [hstmts]
      simp only [List.mem_append, List.mem_flatMap] at h
      rcases h with (h | h) | h
      · exact Or.inr (Or.inr (Or.inl h))
      · exact Or.inr (Or.inr (Or.inr (Or.inl h)))
      · exact Or.inr (Or.inr (Or.inr (Or.inr h)))

/-- **What is reported is at a construct that breaks the rule.** -/
theorem breaks_of_mem_shapeProblems (h : problem ∈ shapeProblems names p) :
    p.Breaks problem.code problem.span := by
  rcases shapeProblems_cases h with h | ⟨e, hbody, rfl⟩ | ⟨s, hs, h⟩ | h | h
  · exact breaks_of_mem_cancellationProblems h
  · exact ⟨e, hbody, rfl⟩
  · exact breaks_of_mem_stmtProblems hs h
  · obtain ⟨i, j, s, t, hs, ht, hlt, spot, other, hreturn, houtside,
      hsuspend, houtside', rfl⟩ :=
      exists_of_mem_returnProblems h
    exact ⟨i, j, s, t, hs, ht, hlt, ⟨other, hsuspend, houtside'⟩, spot,
      hreturn, houtside, rfl⟩
  · obtain ⟨s, hs, spot, hyield, houtside, ⟨suspend, rfl⟩, hsuspends⟩ :=
      exists_of_mem_generatorProblems h
    exact ⟨⟨s, hs, spot, hyield, houtside, rfl⟩, hsuspends⟩

/-- **The rules are met** exactly by the procedures that can be cut at their suspensions. -/
theorem shapeProblems_eq_nil_iff : shapeProblems names p = [] ↔ p.Segmentable := by
  constructor
  · intro shape
    have hblock := block_of_shape shape
    have hrules := (List.append_eq_nil_iff.mp shape).2
    rw [hblock] at hrules
    obtain ⟨hrules, hgenerators⟩ := List.append_eq_nil_iff.mp hrules
    obtain ⟨-, hreturns⟩ := List.append_eq_nil_iff.mp hrules
    have hstmts : ∀ s ∈ p.stmts, s.Segmentable :=
      fun s hs => stmtProblems_eq_nil_iff.mp (stmtProblems_of_shape shape hs)
    refine ⟨⟨_, hblock⟩, cancellationProblems_eq_nil_iff.mp
      (List.append_eq_nil_iff.mp shape).1, hstmts, ?_,
      generatorProblems_eq_nil_iff.mp hgenerators⟩
    rintro i j s t hs ht ⟨spot, hsuspend⟩
    have houtside := (hstmts t (List.mem_of_getElem? ht)).outsideLambdas spot hsuspend
    exact returnProblems_eq_nil_iff.mp hreturns i j s t hs ht ⟨spot, hsuspend, houtside⟩
  · intro h
    obtain ⟨stmts, hbody⟩ := h.block
    have hstmts : p.stmts = stmts := by rw [Procedure.stmts, hbody]
    unfold shapeProblems
    rw [cancellationProblems_eq_nil_iff.mpr h.handle, hbody]
    dsimp only
    rw [← hstmts, List.flatMap_eq_nil_iff.mpr fun s hs =>
      stmtProblems_eq_nil_iff.mpr (h.stmts s hs), returnProblems_eq_nil_iff.mpr
      fun i j s t hs ht hsuspends =>
        h.returns i j s t hs ht (hsuspends.imp fun _ h => h.1),
      generatorProblems_eq_nil_iff.mpr h.generators]
    rfl

/-- **The rules on shape accept exactly the procedures that can be cut at their
suspensions**, and what they report of any other one is at a construct that breaks the rule
it is reported under. -/
theorem shapeProblems_exact (names : NameTable) (p : Procedure) :
    (shapeProblems names p = [] ↔ p.Segmentable) ∧
      ∀ problem ∈ shapeProblems names p, p.Breaks problem.code problem.span :=
  ⟨shapeProblems_eq_nil_iff, fun _ h => breaks_of_mem_shapeProblems h⟩

end

end Resumable
