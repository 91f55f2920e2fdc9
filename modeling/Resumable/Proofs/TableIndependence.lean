import Resumable.Proofs.Naming
import Resumable.Proofs.Occurrence
import Resumable.Proofs.Renaming

/-!
# Lowering with another table

The table of names that a program shares has grown by the time a procedure is lowered: it
has the slot names of every procedure lowered before.  So the same procedure gets other
numbers for its slots, depending on its company.  This module proves that **numbers are all
that changes**.  With two tables that give the names of a procedure the same strings,
lowering reports the same problems, or makes machines that are equal once every name is
replaced by its string.

Two runs are followed side by side.  A namer compares names by number when it looks for an
unused one.  What makes the runs go the same way is that every name in use was found in the
table under its string, so that two names in use are equal exactly when their strings are.

## Main definitions

* `NameTable.Concur`: two tables that know some names and give them the same strings.
* `NameTable.SameText`: names of the same string, each in its table.
* `SlotNamer.Twins`: namers that have handed out the same strings.
* `SameOutcome`: outcomes of lowering that are equal once names are replaced by their strings.

## Main statements

* `shapeProblems_congr`, `suspensionPoints_eq`: checks read a table only at the
  names of the procedure.
* `SlotNamer.Twins.fresh`: twins name alike.
* `sameOutcome_lowerProcedure`: lowering with tables that concur on the procedure.
-/

namespace Resumable

open Resumable.Bound (Expr Node Procedure Stmt namesOfArgs)

variable {t u t' u' : NameTable} {used used' : List Name} {p : Procedure} {stmts : List Stmt}
  {n m : SlotNamer} {which : Primitive} {args : List Expr} {q : SuspensionPoint}
  {points : List SuspensionPoint} {f g : Name → Name} {specs specs' : List SlotSpec}

/-! ### Tables -/

namespace NameTable

variable {names : List Name}

theorem Precedes.size_le (h : t.Precedes t') : t.size ≤ t'.size := List.IsPrefix.length_le h

/-- A name that is found under a string means the string. -/
theorem lookup_of_find? {s : String} {name : Name} (h : t.find? s = some name) :
    t.lookup name = s := by
  rw [lookup, find?_eq_some_iff.mp h]
  rfl

/-- **Two tables concur on names**: they know them, and give them the same strings. -/
def Concur (names : List Name) (t u : NameTable) : Prop :=
  ∀ name ∈ names, name.index < t.size ∧ name.index < u.size ∧ t.lookup name = u.lookup name

/-- Tables that have grown from one concur on what that one knows. -/
theorem concur_of_precedes {built : NameTable}
    (known : ∀ name ∈ names, name.index < built.size) (h : built.Precedes t)
    (h' : built.Precedes u) : Concur names t u := fun name hname =>
  have hlt := known name hname
  ⟨Nat.lt_of_lt_of_le hlt h.size_le, Nat.lt_of_lt_of_le hlt h'.size_le,
    (h.lookup hlt).trans (h'.lookup hlt).symm⟩

theorem Concur.mono (h : Concur names t u) (grown : t.Precedes t') (grown' : u.Precedes u') :
    Concur names t' u' :=
  fun name hname =>
    have ⟨hknown, hknown', hsame⟩ := h name hname
    ⟨Nat.lt_of_lt_of_le hknown grown.size_le, Nat.lt_of_lt_of_le hknown' grown'.size_le,
      (grown.lookup hknown).trans (hsame.trans (grown'.lookup hknown').symm)⟩

theorem Concur.of_subset {fewer : List Name} (h : Concur names t u) (hsub : fewer ⊆ names) :
    Concur fewer t u :=
  fun name hname => h name (hsub hname)

/-- Strings are the same, and so is what is made of them. -/
theorem Concur.agree (h : Concur names t u) : AgreeOn t.lookup u.lookup names :=
  fun name hname => (h name hname).2.2

theorem Concur.agree_comp (h : Concur names t u) (code : String → Name) :
    AgreeOn (code ∘ t.lookup) (code ∘ u.lookup) names :=
  fun name hname => congrArg code (h.agree name hname)

/-- **Names of the same string**, each in its table. -/
def SameText (t u : NameTable) (a b : Name) : Prop :=
  ∃ s, t.find? s = some a ∧ u.find? s = some b

variable {a b : Name}

/-- Growing tables keep the texts they have. -/
theorem SameText.mono (h : SameText t u a b) (grown : t.Precedes t')
    (grown' : u.Precedes u') : SameText t' u' a b :=
  have ⟨s, ha, hb⟩ := h
  ⟨s, grown.find? ha, grown'.find? hb⟩

theorem SameText.lookup_eq (h : SameText t u a b) : t.lookup a = u.lookup b :=
  have ⟨_, ha, hb⟩ := h
  (lookup_of_find? ha).trans (lookup_of_find? hb).symm

theorem sameText_intern (t u : NameTable) (s : String) :
    SameText (t.intern s).2 (u.intern s).2 (t.intern s).1 (u.intern s).1 :=
  ⟨s, find?_intern t s, find?_intern u s⟩

/-- In each of two tables, names found under the same strings are the same. -/
theorem SameText.eq_iff {a' b' : Name} (h : SameText t u a b) (h' : SameText t u a' b') :
    a = a' ↔ b = b' := by
  obtain ⟨s, ha, hb⟩ := h
  obtain ⟨s', ha', hb'⟩ := h'
  constructor
  · rintro rfl
    have hs : s = s' := (lookup_of_find? ha).symm.trans (lookup_of_find? ha')
    exact Option.some.inj ((hb.symm.trans (congrArg u.find? hs)).trans hb')
  · rintro rfl
    have hs : s = s' := (lookup_of_find? hb).symm.trans (lookup_of_find? hb')
    exact Option.some.inj ((ha.symm.trans (congrArg t.find? hs)).trans ha')

/-- A name is in use exactly where its twin is. -/
theorem SameText.mem_iff (h : SameText t u a b)
    (husage : List.Forall₂ (SameText t u) used used') : a ∈ used ↔ b ∈ used' := by
  induction husage with
  | nil => simp only [List.not_mem_nil]
  | cons hfirst _ ih => rw [List.mem_cons, List.mem_cons, h.eq_iff hfirst, ih]

end NameTable

open NameTable (Concur SameText)

/-! ### Problems -/

section

/-- Equal names give a type one text. -/
theorem Ty.text_congr {ty : Ty} (h : AgreeOn t.lookup u.lookup ty.names) :
    ty.text t = ty.text u := by
  induction ty with
  | object name | foreign name => exact h name List.mem_cons_self
  | array elem ih => exact congrArg (· ++ "[]") (ih h)
  | deferred output ih => exact congrArg (fun s => "Deferred<" ++ s ++ ">") (ih h)
  | byRef target ih => exact congrArg ("ref " ++ ·) (ih h)
  | unit | bool | int | float | str | cancellation | closure => rfl

/-- The type of an expression names nothing new. -/
theorem Bound.Expr.names_ty_subset (e : Expr) : e.ty.names ⊆ e.names := by
  cases e with
  | int info | float info | bool info | unit info | localVar info | param info | error info =>
    exact List.Subset.refl _
  | str info name | field info name => exact List.subset_cons_self _ _
  | binary info | call info =>
    exact List.Subset.trans (List.subset_append_left _ _) (List.subset_append_left _ _)
  | unary info | suspend info | lambda info => exact List.subset_append_left _ _

variable {s : Stmt} {operand : Expr}

theorem Bound.names_subset_namesOf (hs : s ∈ stmts) : s.names ⊆ Bound.namesOf stmts := by
  induction stmts with
  | nil => cases hs
  | cons first rest ih =>
    rcases List.mem_cons.mp hs with rfl | hs
    · exact List.subset_append_left _ _
    · exact List.Subset.trans (ih hs) (List.subset_append_right _ _)

namespace Bound.Node

/-- The names in a tree. -/
def names : Node → List Name
  | .expr e => e.names
  | .stmt s => s.names

/-- The names of a child are names of its parent. -/
theorem names_child_subset {n child : Node} (h : child ∈ n.children) :
    child.names ⊆ n.names := by
  have hblock : ∀ {stmts : List Stmt}, child ∈ stmts.map Node.stmt →
    child.names ⊆ namesOf stmts := by
    intro stmts hmem
    obtain ⟨s, hs, rfl⟩ := List.mem_map.mp hmem
    exact names_subset_namesOf hs
  cases n with
  | expr e =>
    cases e with
    | int | float | bool | str | unit | localVar | param | field | error => cases h
    | binary info op left right =>
      simp only [children, List.mem_cons, List.not_mem_nil] at h; grind [names, Expr.names]
    | unary | suspend => cases List.mem_singleton.mp h; exact List.subset_append_right _ _
    | call info target args =>
      obtain ⟨e, he, rfl⟩ := List.mem_map.mp h
      exact List.subset_append_of_subset_right _ (names_subset_namesOfArgs he)
    | lambda info body => exact List.subset_append_of_subset_right _ (hblock h)
  | stmt s =>
    cases s with
    | declare | breakLoop | continueLoop | leave | goto | label => cases h
    | expr | bind | ret | yield => cases List.mem_singleton.mp h; exact List.Subset.refl _
    | assign => cases List.mem_singleton.mp h; exact List.subset_append_right _ _
    | branch info cond onTrue onFalse =>
      simp only [children, List.mem_cons, List.mem_append] at h
      grind [names, Stmt.names]
    | loop info cond body => grind [names, Stmt.names, children]

/-- **The label of a jump** occurs where the jump was found. -/
theorem label_mem_names (n : Node) {what : Jump} {label : Name} {span : Span}
    {c : Surroundings} (whole : Bool) (h : .jump what label span ∈ n.findings c whole) :
    label ∈ n.names := by
  induction n using induct generalizing c whole with
  | step n ih =>
    rw [n.findings_eq, List.mem_append, List.mem_flatMap] at h
    rcases h with hown | ⟨child, hchild, h⟩
    · unfold own Surroundings.suspendFinding Surroundings.loopControlFindings
        Surroundings.retFindings
        Surroundings.yieldFindings at hown
      grind [names, Stmt.names]
    · exact names_child_subset hchild (ih child hchild _ h)

end Bound.Node

theorem stmtProblems_congr (h : AgreeOn t.lookup u.lookup s.names) :
    stmtProblems t s = stmtProblems u s := by
  have hproblem : (topFindings s).filterMap (Finding.problem? t) = (topFindings s).filterMap
    (Finding.problem? u) := by
    refine List.filterMap_congr fun finding hfinding => ?_
    cases finding with
    | jump what label span =>
      exact congrArg (fun text => some (Problem.unstructuredJump what text span))
        (h label (Node.label_mem_names (.stmt s) false hfinding))
    | strayLoopControl | suspendInClosure | suspendInControlFlow | suspend | ret | yield =>
      rfl
  rw [stmtProblems, stmtProblems, hproblem]

namespace Bound.Procedure

theorem name_mem_names : p.name ∈ p.names := List.mem_cons_self

theorem names_param {i : Nat} {param : Param} (h : p.param? i = some param) :
    param.name :: param.ty.names ⊆ p.names := fun name hname => by
  simp only [names, List.cons_append, List.mem_cons, List.mem_append, List.mem_flatMap]
  exact .inr (.inl (.inl (.inl ⟨param, List.mem_of_getElem? h, List.mem_cons.mp hname⟩)))

theorem names_local {id : LocalId} {decl : LocalDecl} (h : p.local? id = some decl) :
    decl.name :: decl.ty.names ⊆ p.names := fun name hname => by
  simp only [names, List.cons_append, List.mem_cons, List.mem_append, List.mem_flatMap]
  exact .inr (.inl (.inl (.inr ⟨decl, List.mem_of_getElem? h, List.mem_cons.mp hname⟩)))

theorem names_result : p.result.names ⊆ p.names := fun name hname => by
  simp only [names, List.cons_append, List.mem_cons, List.mem_append]
  exact .inr (.inl (.inr hname))

/-- The names in a statement are names of the procedure. -/
theorem names_stmt {s : Stmt} (hs : s ∈ p.stmts) : s.names ⊆ p.names := fun name hname => by
  simp only [names, List.cons_append, List.mem_cons, List.mem_append]
  unfold stmts at hs
  cases hbody : p.body with
  | expr e =>
    rw [hbody] at hs
    cases hs
  | block block =>
    rw [hbody] at hs
    exact .inr (.inr (Bound.names_subset_namesOf hs hname))

end Bound.Procedure

theorem cancellationProblems_congr (h : AgreeOn t.lookup u.lookup p.names) :
    cancellationProblems t p = cancellationProblems u p := by
  unfold cancellationProblems
  cases p.cancellation with
  | none => rfl
  | some index =>
    dsimp only
    cases hparam : p.param? index with
    | none => rfl
    | some param =>
      have hty : AgreeOn t.lookup u.lookup param.ty.names :=
        (agreeOn_cons.mp (h.of_subset (Procedure.names_param hparam))).2
      dsimp only
      rw [Ty.text_congr hty]

/-- **The problems of a shape** read a table only at the names of the procedure. -/
theorem shapeProblems_congr (h : AgreeOn t.lookup u.lookup p.names) :
    shapeProblems t p = shapeProblems u p := by
  have hstmts (s : Stmt) (hs : s ∈ p.stmts) : stmtProblems t s = stmtProblems u s :=
    stmtProblems_congr (h.of_subset (Procedure.names_stmt hs))
  unfold shapeProblems
  rw [cancellationProblems_congr h]
  unfold Procedure.stmts at hstmts
  cases hbody : p.body with
  | expr e => rfl
  | block stmts =>
    rw [hbody] at hstmts
    dsimp only at hstmts ⊢
    rw [List.flatMap_congr hstmts]

/-! ### Suspension points -/

theorem classifyTimed_eq {make : Expr → SuspensionKind} (span : Span)
    (h : AgreeOn t.lookup u.lookup (namesOfArgs args)) :
    classifyTimed t which make args span = classifyTimed u which make args span := by
  unfold classifyTimed
  split
  case h_1 timing =>
    have hty : AgreeOn t.lookup u.lookup timing.ty.names :=
      h.of_subset (List.Subset.trans timing.names_ty_subset
        (Bound.names_subset_namesOfArgs List.mem_cons_self))
    rw [Ty.text_congr hty]
  case h_2 => rfl

theorem classifyJoin_eq {make : List Expr → SuspensionKind} (span : Span)
    (h : AgreeOn t.lookup u.lookup (namesOfArgs args)) :
    classifyJoin t which make args span = classifyJoin u which make args span := by
  have hstrangers : ∀ arg ∈ args.filter (fun arg => !arg.ty.isDeferred),
    arg.ty.text t = arg.ty.text u :=
    fun arg harg => Ty.text_congr (h.of_subset (List.Subset.trans arg.names_ty_subset
      (Bound.names_subset_namesOfArgs (List.mem_of_mem_filter harg))))
  unfold classifyJoin
  dsimp only
  rw [List.map_congr_left fun arg harg => congrArg
    (Problem.nonDeferredOperand which · arg.span) (hstrangers arg harg)]

theorem classify_eq (h : AgreeOn t.lookup u.lookup operand.names) :
    classify t operand = classify u operand := by
  unfold classify
  split
  case h_1 info which args =>
    have hargs : AgreeOn t.lookup u.lookup (namesOfArgs args) :=
      h.of_subset (List.subset_append_right _ _)
    have hprimitive : classifyPrimitive t which args info.span =
      classifyPrimitive u which args info.span := by
      cases which with
      | delay | delayFrames => exact classifyTimed_eq _ hargs
      | whenAll | whenAny => exact classifyJoin_eq _ hargs
      | yield => rfl
    rw [hprimitive]
  case h_2 => rw [Ty.text_congr (h.of_subset operand.names_ty_subset)]

theorem placeName_congr (h : AgreeOn t.lookup u.lookup p.names) {place : Bound.Place}
    (hplace : AgreeOn t.lookup u.lookup place.names) :
    placeName t p place = placeName u p place := by
  cases place with
  | field name => exact hplace name List.mem_cons_self
  | localVar id =>
    simp only [placeName]
    cases hdecl : p.local? id with
    | none => rfl
    | some decl => exact h _ (Procedure.names_local hdecl List.mem_cons_self)
  | param i =>
    simp only [placeName]
    cases hparam : p.param? i with
    | none => rfl
    | some param => exact h _ (Procedure.names_param hparam List.mem_cons_self)

theorem names_of_suspensionOf {info : ExprInfo}
    (h : suspensionOf s = some (info, operand)) : operand.names ⊆ s.names := by
  cases suspending_of_suspensionOf h with
  | expr | bind => exact List.subset_append_right _ _
  | assign =>
    exact List.Subset.trans (List.subset_append_right _ _) (List.subset_append_right _ _)

theorem names_of_deliveryOf {delivery : Delivery} (h : deliveryOf s = some delivery) :
    delivery.target.names ⊆ s.names := by
  unfold deliveryOf at h
  split at h
  case h_1 =>
    obtain rfl := Option.some.inj h
    exact List.nil_subset _
  case h_2 =>
    obtain rfl := Option.some.inj h
    exact List.subset_append_left _ _
  case h_3 => cases h

/-- **The points of a body, or the problems with them**, read a table only at the
names of the procedure. -/
theorem suspensionPoints_eq (h : AgreeOn t.lookup u.lookup p.names) :
    suspensionPoints t p = suspensionPoints u p := by
  have hpoint : ∀ site ∈ suspensionSites p.stmts, ∀ index,
    site.point t p index = site.point u p index := by
    intro site hsite index
    obtain ⟨hstmt, hsus⟩ := suspends_of_mem_suspensionSites hsite
    have hnames := h.of_subset (Procedure.names_stmt hstmt)
    unfold SuspensionSite.point
    rw [classify_eq (hnames.of_subset (names_of_suspensionOf hsus))]
    cases classify u site.operand with
    | error problems => rfl
    | ok result =>
      dsimp only
      cases hdelivery : deliveryOf site.stmt with
      | none => rfl
      | some delivery =>
        dsimp only
        rw [placeName_congr h (hnames.of_subset (names_of_deliveryOf hdelivery))]
  unfold suspensionPoints
  congr 1
  refine List.ext_getElem? fun i => ?_
  rw [List.getElem?_mapIdx, List.getElem?_mapIdx]
  cases hsite : (suspensionSites p.stmts)[i]? with
  | none => rfl
  | some site => exact congrArg some (hpoint site (List.mem_of_getElem? hsite) i)

theorem mem_of_gather {α : Type} {results : List (Except (List Problem) α)} {as : List α}
    (h : gather results = .ok as) {a : α} (ha : a ∈ as) : .ok a ∈ results := by
  unfold gather at h
  dsimp only at h
  split at h
  case isFalse => cases h
  case isTrue =>
    obtain rfl := Except.ok.inj h
    obtain ⟨r, hr, hsome⟩ := List.mem_filterMap.mp ha
    cases r with
    | error problems => cases hsome
    | ok a' => exact Option.some.inj hsome ▸ hr

theorem Classified.names_operands {kind : SuspensionKind} {carriesValue : Bool}
    (h : Classified operand kind carriesValue) :
    namesOfArgs kind.operands ⊆ operand.names := by
  cases h with
  | yield info => exact List.nil_subset _
  | delay | delayFrames | whenAll | whenAny => exact List.subset_append_right _ _
  | delegate operand _ _ =>
    exact List.append_subset.mpr ⟨List.Subset.refl _, List.nil_subset _⟩

theorem Ty.names_output_subset (ty : Ty) : (ty.output?.getD .unit).names ⊆ ty.names := by
  cases ty with
  | deferred output => exact List.Subset.refl _
  | unit | bool | int | float | str | object | array | cancellation | byRef | closure
  | foreign => exact List.nil_subset _

theorem SuspensionSite.names_valueTy {site : SuspensionSite} {index : Nat}
    (h : site.point t p index = .ok q) : q.valueTy.names ⊆ site.operand.ty.names := by
  obtain ⟨kind, carriesValue, -, -, rfl⟩ := eq_of_point h
  cases carriesValue with
  | false => exact List.nil_subset _
  | true => exact site.operand.ty.names_output_subset

/-- **What a point brings into the code** occurs in the procedure. -/
theorem names_of_mem_points (h : suspensionPoints t p = .ok points) (hq : q ∈ points) :
    q.names ⊆ p.names := by
  obtain ⟨index, hindex, hpoint⟩ := List.mem_mapIdx.mp (mem_of_gather h hq)
  have gives := SuspensionSite.point_gives hpoint
  obtain ⟨hstmt, hsus⟩ := suspends_of_mem_suspensionSites (List.getElem_mem hindex)
  have hoperand := names_of_suspensionOf hsus
  refine List.Subset.trans ?_ (Procedure.names_stmt hstmt)
  refine List.append_subset.mpr ⟨List.append_subset.mpr ⟨?_, ?_⟩, ?_⟩
  · exact List.Subset.trans gives.kind.names_operands hoperand
  · exact List.Subset.trans (SuspensionSite.names_valueTy hpoint)
      (List.Subset.trans (Expr.names_ty_subset _) hoperand)
  · rw [gives.delivery]
    cases hdelivery : deliveryOf (suspensionSites p.stmts)[index].stmt with
    | none => exact List.nil_subset _
    | some delivery => exact names_of_deliveryOf hdelivery

end

/-- Stretches mention only the names of the body. -/
theorem Stretch.agrees_of_mem_cutFrom {all rest : List SuspensionPoint}
    {opening : Option SuspensionPoint} {position : Nat}
    (hall : ∀ q ∈ all, AgreeOn f g q.names) (hrest : rest ⊆ all)
    (hopening : ∀ q, opening = some q → AgreeOn f g q.names)
    (hstmts : ∀ s ∈ stmts, AgreeOn f g s.names) :
    ∀ st ∈ cutFrom all opening position stmts rest, st.Agrees f g := by
  induction rest generalizing opening position stmts with
  | nil =>
    intro st hst
    obtain rfl := List.mem_singleton.mp hst
    exact ⟨hstmts, hopening, nofun⟩
  | cons q rest ih =>
    intro st hst
    have hq : q ∈ all := hrest List.mem_cons_self
    rcases List.mem_cons.mp hst with rfl | hst
    · refine ⟨fun s hs => hstmts s (List.mem_of_mem_take hs), hopening, fun q' hq' => ?_⟩
      exact Option.some.inj hq' ▸ hall _ (pointOfStmt_mem hq)
    · refine ih (List.Subset.trans (List.subset_cons_self _ _) hrest) (fun q' hq' => ?_)
        (fun s hs => hstmts s (List.mem_of_mem_drop hs)) st hst
      exact Option.some.inj hq' ▸ hall q hq

/-! ### Namers -/

namespace SlotNamer

variable {names : List Name}

/-- The search for an unused text ends alike in both tables. -/
theorem sameText_search {base stem : String}
    (husage : List.Forall₂ (SameText t u) used used') (tries k : Nat) :
    SameText (search base stem used tries k t).2 (search base stem used' tries k u).2
      (search base stem used tries k t).1 (search base stem used' tries k u).1 := by
  induction tries generalizing k t u with
  | zero => exact NameTable.sameText_intern t u _
  | succ tries ih =>
    have hsame := NameTable.sameText_intern t u (candidate base stem k)
    have hgrown := husage.imp fun _ _ h =>
      h.mono (t.precedes_intern (candidate base stem k))
        (u.precedes_intern (candidate base stem k))
    have hmem := hsame.mem_iff hgrown
    unfold search
    dsimp only
    by_cases hused : (t.intern (candidate base stem k)).1 ∈ used
    · rw [if_pos hused, if_pos (hmem.mp hused)]
      exact ih hgrown (k + 1)
    · rw [if_neg hused, if_neg (mt hmem.mpr hused)]
      exact hsame

/-- **Namers that have handed out the same strings**, in tables that concur on some names. -/
structure Twins (names : List Name) (n m : SlotNamer) : Prop where
  base : n.base = m.base
  used : List.Forall₂ (SameText n.names m.names) n.used m.used
  concur : Concur names n.names m.names

/-- Twins name alike. -/
theorem Twins.fresh (h : Twins names n m) (stem : String) :
    Twins names (n.fresh stem).2 (m.fresh stem).2 ∧
      SameText (n.fresh stem).2.names (m.fresh stem).2.names (n.fresh stem).1
        (m.fresh stem).1 := by
  have hsame : SameText (n.fresh stem).2.names (m.fresh stem).2.names (n.fresh stem).1
    (m.fresh stem).1 := by
    unfold SlotNamer.fresh
    dsimp only
    rw [← h.base, ← h.used.length_eq]
    exact sameText_search h.used _ 0
  have hgrown := (n.precedes_fresh stem).names
  have hgrown' := (m.precedes_fresh stem).names
  exact ⟨⟨h.base, .cons hsame (h.used.imp fun _ _ h => h.mono hgrown hgrown'),
    h.concur.mono hgrown hgrown'⟩, hsame⟩

end SlotNamer

/-- Specifications of slots that differ in the number of a name only, with types
made of given names. -/
structure SlotSpec.Twins (names : List Name) (t u : NameTable) (s r : SlotSpec) : Prop where
  name : SameText t u s.name r.name
  ty : s.ty = r.ty
  role : s.role = r.role
  types : s.ty.names ⊆ names

/-- Lists of them. -/
def SpecTwins (names : List Name) (t u : NameTable) : List SlotSpec → List SlotSpec → Prop :=
  List.Forall₂ (SlotSpec.Twins names t u)

theorem SpecTwins.mono {names : List Name} (h : SpecTwins names t u specs specs')
    (grown : t.Precedes t') (grown' : u.Precedes u') : SpecTwins names t' u' specs specs' :=
  List.Forall₂.imp (fun _ _ h => ⟨h.name.mono grown grown', h.ty, h.role, h.types⟩) h

theorem SpecTwins.append {names : List Name} {more more' : List SlotSpec}
    (h : SpecTwins names t u specs specs') (h' : SpecTwins names t u more more') :
    SpecTwins names t u (specs ++ more) (specs' ++ more') := List.rel_append h h'

/-- What the specification of a slot is after renaming. -/
def SlotSpec.renamed (f : Name → Name) (s : SlotSpec) : SlotSpec :=
  { s with name := f s.name, ty := s.ty.renamed f }

theorem renamed_numberSlots (f : Name → Name) (specs : List SlotSpec) :
    (numberSlots specs).map (Machine.Slot.renamed f) =
      numberSlots (specs.map (SlotSpec.renamed f)) := by
  refine List.ext_getElem? fun i => ?_
  simp only [numberSlots, List.getElem?_map, List.getElem?_mapIdx, Option.map_map]
  rfl

theorem SpecTwins.renamed_eq {names : List Name} (h : SpecTwins names t u specs specs')
    (hconcur : Concur names t u) (code : String → Name) :
    specs.map (SlotSpec.renamed (code ∘ t.lookup)) =
      specs'.map (SlotSpec.renamed (code ∘ u.lookup)) := by
  induction h with
  | nil => rfl
  | cons hfirst _ ih =>
    obtain ⟨hname, hty, hrole, htypes⟩ := hfirst
    have hrenamed := Ty.renamed_congr ((hconcur.of_subset htypes).agree_comp code)
    rw [List.map_cons, List.map_cons, ih]
    congr 1
    simp only [SlotSpec.renamed, Function.comp_apply, hname.lookup_eq, hrenamed, ← hty, hrole]

namespace SlotNamer.Twins

variable {names : List Name}

theorem bookkeeping (h : Twins names n m) : Twins names n.bookkeeping.2 m.bookkeeping.2 ∧
      List.Forall₂ (SameText n.bookkeeping.2.names m.bookkeeping.2.names)
        [n.bookkeeping.1.state, n.bookkeeping.1.status, n.bookkeeping.1.result]
        [m.bookkeeping.1.state, m.bookkeeping.1.status, m.bookkeeping.1.result] := by
  obtain ⟨h₁, hstate⟩ := h.fresh "state"
  obtain ⟨h₂, hstatus⟩ := h₁.fresh "status"
  obtain ⟨h₃, hresult⟩ := h₂.fresh "result"
  have hgrown := (precedes_fresh (n.fresh "state").2 "status").names
  have hgrown' := (precedes_fresh (m.fresh "state").2 "status").names
  have hlast := (precedes_fresh ((n.fresh "state").2.fresh "status").2 "result").names
  have hlast' := (precedes_fresh ((m.fresh "state").2.fresh "status").2 "result").names
  rw [n.bookkeeping_eq, m.bookkeeping_eq]
  dsimp only
  exact ⟨h₃, .cons (hstate.mono (hgrown.trans hlast) (hgrown'.trans hlast'))
    (.cons (hstatus.mono hlast hlast') (.cons hresult .nil))⟩

/-- **Twins find the same variables that cannot be stored**, and name the slots
of the others alike. -/
theorem nameSlots (h : Twins names n m) {vars : List Variable}
    (hvars : ∀ v ∈ vars, v.name :: v.ty.names ⊆ names) :
    Twins names (nameSlots n vars).2.2 (nameSlots m vars).2.2 ∧
      (nameSlots n vars).1 = (nameSlots m vars).1 ∧
      SpecTwins names (nameSlots n vars).2.2.names (nameSlots m vars).2.2.names
        ((nameSlots n vars).2.1.map Hoisted.spec)
          ((nameSlots m vars).2.1.map Hoisted.spec) := by
  induction vars generalizing n m with
  | nil => exact ⟨h, rfl, .nil⟩
  | cons v rest ih =>
    obtain ⟨hv, hrest⟩ := List.forall_mem_cons.mp hvars
    obtain ⟨hname, hty⟩ := agreeOn_cons.mp (h.concur.of_subset hv).agree
    unfold Resumable.nameSlots
    split
    case isTrue =>
      rw [hname]
      obtain ⟨hnext, hsame⟩ := h.fresh (m.names.lookup v.name)
      generalize n.fresh (m.names.lookup v.name) = named,
        m.fresh (m.names.lookup v.name) = named' at *
      obtain ⟨slotName, next⟩ := named
      obtain ⟨slotName', next'⟩ := named'
      obtain ⟨hlast, hproblems, hspecs⟩ := ih hnext hrest
      refine ⟨hlast, hproblems, .cons ⟨?_, rfl, rfl, fun _ hmem =>
        hv (List.mem_cons_of_mem _ hmem)⟩ hspecs⟩
      exact hsame.mono (precedes_nameSlots _ _).names (precedes_nameSlots _ _).names
    case isFalse =>
      obtain ⟨hlast, hproblems, hspecs⟩ := ih h hrest
      refine ⟨hlast, ?_, hspecs⟩
      dsimp only
      rw [hname, Ty.text_congr hty, hproblems]

theorem awaitSpecsFrom (h : Twins names n m) (point count operand : Nat)
    {operands : List Expr} (htypes : ∀ e ∈ operands, e.ty.names ⊆ names) :
    Twins names (awaitSpecsFrom point count n operand operands).2
      (awaitSpecsFrom point count m operand operands).2 ∧
      SpecTwins names (awaitSpecsFrom point count n operand operands).2.names
        (awaitSpecsFrom point count m operand operands).2.names
        (awaitSpecsFrom point count n operand operands).1
          (awaitSpecsFrom point count m operand operands).1 := by
  induction operands generalizing n m operand with
  | nil => exact ⟨h, .nil⟩
  | cons e rest ih =>
    obtain ⟨he, hrest⟩ := List.forall_mem_cons.mp htypes
    obtain ⟨hnext, hsame⟩ := h.fresh (awaitStem point count operand)
    obtain ⟨hlast, hspecs⟩ := ih hnext (operand + 1) hrest
    refine ⟨hlast, .cons ⟨?_, rfl, rfl, he⟩ hspecs⟩
    exact hsame.mono (precedes_awaitSpecsFrom _ _ _ _ _).names
      (precedes_awaitSpecsFrom _ _ _ _ _).names

theorem awaitSpecs (h : Twins names n m) (hpoints : ∀ q ∈ points, q.names ⊆ names) :
    Twins names (awaitSpecs n points).2 (awaitSpecs m points).2 ∧
      SpecTwins names (awaitSpecs n points).2.names (awaitSpecs m points).2.names
        (awaitSpecs n points).1
        (awaitSpecs m points).1 := by
  induction points generalizing n m with
  | nil => exact ⟨h, .nil⟩
  | cons q rest ih =>
    obtain ⟨hq, hrest⟩ := List.forall_mem_cons.mp hpoints
    have htypes : ∀ e ∈ q.kind.awaited, e.ty.names ⊆ names := fun e he =>
      List.Subset.trans e.names_ty_subset (List.Subset.trans
        (Bound.names_subset_namesOfArgs (SuspensionKind.mem_operands_of_awaited he))
        (List.append_subset.mp (List.append_subset.mp hq).1).1)
    obtain ⟨hnext, hhere⟩ := h.awaitSpecsFrom q.index q.kind.awaited.length 0 htypes
    obtain ⟨hlast, hlater⟩ := ih hnext hrest
    refine ⟨hlast, (hhere.mono ?_ ?_).append hlater⟩
    · exact (precedes_awaitSpecs _ rest).names
    · exact (precedes_awaitSpecs _ rest).names

theorem dispatch (h : Twins names n m) :
    SameText n.dispatch.2.names m.dispatch.2.names n.dispatch.1 m.dispatch.1 := by
  unfold SlotNamer.dispatch
  rw [h.base]
  exact NameTable.sameText_intern _ _ _

/-- **Layouts by twins** differ in names only, and that until the tables grow further. -/
theorem layOut {hoisted hoisted' : List Hoisted} {books books' : BookkeepingNames}
    (h : Twins p.names n m) (hpoints : ∀ q ∈ points, q.names ⊆ p.names)
    (hbooks : List.Forall₂ (SameText n.names m.names) [books.state, books.status,
      books.result] [books'.state, books'.status, books'.result])
    (hhoisted : SpecTwins p.names n.names m.names (hoisted.map Hoisted.spec)
      (hoisted'.map Hoisted.spec)) :
    Twins p.names (layOut p points hoisted books n).2 (layOut p points hoisted' books' m).2 ∧
      ∀ {t u : NameTable}, (layOut p points hoisted books n).2.names.Precedes t →
        (layOut p points hoisted' books' m).2.names.Precedes u → ∀ code : String → Name,
          (layOut p points hoisted books n).1.map (SlotLayout.renamed (code ∘ t.lookup)) =
            (layOut p points hoisted' books' m).1.map
              (SlotLayout.renamed (code ∘ u.lookup)) := by
  obtain ⟨hlast, hawaited⟩ := h.awaitSpecs hpoints
  have hgrown := (precedes_awaitSpecs n points).names
  have hgrown' := (precedes_awaitSpecs m points).names
  cases hbooks with | cons hstate hbooks =>
  cases hbooks with | cons hstatus hbooks =>
  cases hbooks with | cons hresult _ =>
  have hfixed : SpecTwins p.names n.names m.names
    [⟨books.state, .int, .state⟩, ⟨books.status, .int, .status⟩]
      [⟨books'.state, .int, .state⟩, ⟨books'.status, .int, .status⟩] :=
    .cons ⟨hstate, rfl, rfl, List.nil_subset _⟩
      (.cons ⟨hstatus, rfl, rfl, List.nil_subset _⟩ .nil)
  have hresults : SpecTwins p.names n.names m.names
      (if p.returnsValue then [⟨books.result, p.result, .result⟩] else [])
      (if p.returnsValue then [⟨books'.result, p.result, .result⟩] else []) := by
    split
    · exact .cons ⟨hresult, rfl, rfl, Procedure.names_result⟩ .nil
    · exact .nil
  have hspecs :=
    (((hfixed.append hresults).append hhoisted).mono hgrown hgrown').append hawaited
  unfold Resumable.layOut
  dsimp only
  split
  case isTrue =>
    refine ⟨hlast, fun _ _ code => ?_⟩
    rw [Ty.text_congr (hlast.concur.agree.of_subset Procedure.names_result)]
    rfl
  case isFalse =>
    refine ⟨hlast, fun {t u} ht hu code => ?_⟩
    have hslots := (hspecs.mono ht hu).renamed_eq (hlast.concur.mono ht hu) code
    replace hslots := congrArg numberSlots hslots
    rw [← renamed_numberSlots, ← renamed_numberSlots] at hslots
    simp only [Except.map, SlotLayout.renamed, hslots]
    congr 2
    refine congrArg p.cancellation.bind (funext fun i => ?_)
    rw [← SlotLayout.slotWithRole?_renamed (code ∘ t.lookup), hslots,
      SlotLayout.slotWithRole?_renamed]

end SlotNamer.Twins

/-! ### Outcomes -/

/-- **Outcomes of lowering that are the same once every name is replaced by its string**,
whatever the strings are then taken for. -/
def SameOutcome {ε : Type} (t u : NameTable) (r r' : Except ε Machine) : Prop :=
  ∀ code : String → Name,
    r.map (Machine.renamed (code ∘ t.lookup)) = r'.map (Machine.renamed (code ∘ u.lookup))

section

variable {options : LowerOptions}

theorem names_of_mem_hoistedVariables {mode : LivenessMode} {v : Variable}
    (h : v ∈ hoistedVariables p mode points) : v.name :: v.ty.names ⊆ p.names := by
  obtain ⟨i, param, hparam, rfl⟩ | ⟨x, decl, hdecl, rfl⟩ := declares_of_mem h
  · exact Procedure.names_param hparam
  · exact Procedure.names_local hdecl

theorem SlotNamer.twins_new (h : Concur p.names t u) (slotPrefix : String) :
    Twins p.names (new t slotPrefix (t.lookup p.name))
      (new u slotPrefix (u.lookup p.name)) := by
  refine ⟨?_, .nil, h⟩
  rw [new, new, h.agree p.name Procedure.name_mem_names]

theorem agrees_of_mem_cut (h : AgreeOn f g p.names)
    (hpoints : ∀ q ∈ points, q.names ⊆ p.names) : ∀ st ∈ cut p.stmts points, st.Agrees f g :=
  Stretch.agrees_of_mem_cutFrom (fun q hq => h.of_subset (hpoints q hq))
    (List.Subset.refl _) nofun fun _ hs => h.of_subset (Procedure.names_stmt hs)

/-- Results that are the same after being mapped are both failures, for the same reason, or
both successes. -/
theorem alike_of_map_eq {ε α β γ : Type} {r : Except ε α} {r' : Except ε β} {f : α → γ}
    {g : β → γ} (h : r.map f = r'.map g) :
    (∃ e, r = .error e ∧ r' = .error e) ∨ ∃ a b, r = .ok a ∧ r' = .ok b ∧ f a = g b := by
  cases r with
  | error e =>
    cases r' with
    | error e' => exact .inl ⟨e, rfl, congrArg Except.error (Except.error.inj h).symm⟩
    | ok b => cases h
  | ok a =>
    cases r' with
    | error e' => cases h
    | ok b => exact .inr ⟨a, b, rfl, rfl, Except.ok.inj h⟩

/-- The machine around layouts by twins. -/
theorem SlotNamer.Twins.assemble {l l' : SlotLayout} {segs segs' : List Segment}
    (h : Twins p.names n m) (ht : n.dispatch.2.names.Precedes t')
    (hu : m.dispatch.2.names.Precedes u') (code : String → Name)
    (alike : l.renamed (code ∘ t'.lookup) = l'.renamed (code ∘ u'.lookup))
    (hsegs : segs.map (Segment.renamed (code ∘ t'.lookup)) =
      segs'.map (Segment.renamed (code ∘ u'.lookup))) :
    (assemble p segs l n.dispatch.1).renamed (code ∘ t'.lookup) =
      (assemble p segs' l' m.dispatch.1).renamed (code ∘ u'.lookup) := by
  have hnames := (h.concur.mono (NameTable.precedes_intern _ _)
    (NameTable.precedes_intern _ _)).mono ht hu
  exact renamed_assemble alike hsegs (congrArg code (h.dispatch.mono ht hu).lookup_eq)
    (hnames.agree_comp code)

/-- Lowering depends on the texts of names only. -/
theorem sameOutcome_lowerPoints (h : Concur p.names t u)
    (hpoints : ∀ q ∈ points, q.names ⊆ p.names)
    (ht : (lowerPoints options p points t).2.Precedes t')
    (hu : (lowerPoints options p points u).2.Precedes u') :
    SameOutcome t' u' (lowerPoints options p points t).1
      (lowerPoints options p points u).1 := by
  intro code
  have hvars (v : Variable) (hv : v ∈ hoistedVariables p options.liveness points) :=
    names_of_mem_hoistedVariables hv
  obtain ⟨hbooked, hbooks⟩ := (SlotNamer.twins_new h options.slotPrefix).bookkeeping
  unfold lowerPoints hoist at ht hu ⊢
  dsimp only at ht hu ⊢
  -- From here on only what the namers have in common matters.
  generalize (SlotNamer.new t options.slotPrefix (t.lookup p.name)).bookkeeping = booked at *
  generalize (SlotNamer.new u options.slotPrefix (u.lookup p.name)).bookkeeping = booked' at *
  obtain ⟨hnamed, hproblems, hspecs⟩ := hbooked.nameSlots hvars
  replace hbooks := hbooks.imp fun _ _ h =>
    h.mono (SlotNamer.precedes_nameSlots booked.2
      (hoistedVariables p options.liveness points)).names
      (SlotNamer.precedes_nameSlots booked'.2
        (hoistedVariables p options.liveness points)).names
  rw [hproblems] at ht ⊢
  generalize nameSlots booked.2 (hoistedVariables p options.liveness points) = named at *
  generalize nameSlots booked'.2 (hoistedVariables p options.liveness points) = named' at *
  cases hempty : named'.1.isEmpty with
  | false => rfl
  | true =>
    obtain ⟨hlaid, hlayouts⟩ := hnamed.layOut hpoints hbooks hspecs
    simp only [hempty, if_true] at ht hu ⊢
    generalize layOut p points named.2.1 booked.1 named.2.2 = laid at *
    generalize layOut p points named'.2.1 booked'.1 named'.2.2 = laid' at *
    obtain ⟨layout?, n⟩ := laid
    obtain ⟨layout?', m⟩ := laid'
    obtain ⟨problems, rfl, rfl⟩ | ⟨l, l', rfl, rfl, -⟩ :=
      alike_of_map_eq (hlayouts (.refl _) (.refl _) code)
    · rfl
    have hsegments {v w : NameTable} (hv : n.names.Precedes v) (hw : m.names.Precedes w) :=
      renamed_segments (Except.ok.inj (hlayouts hv hw code)) p
        (agrees_of_mem_cut ((hlaid.concur.mono hv hw).agree_comp code) hpoints)
    dsimp only at ht hu ⊢
    obtain ⟨problems, hsegs, hsegs'⟩ | ⟨segs, segs', hsegs, hsegs', -⟩ :=
      alike_of_map_eq (hsegments (.refl _) (.refl _))
    · rw [hsegs, hsegs']
      rfl
    · rw [hsegs] at ht ⊢
      rw [hsegs'] at hu ⊢
      have hv := (n.names.precedes_intern _).trans ht
      have hw := (m.names.precedes_intern _).trans hu
      have hpieces := hsegments hv hw
      rw [hsegs, hsegs'] at hpieces
      exact congrArg Except.ok (hlaid.assemble ht hu code
        (Except.ok.inj (hlayouts hv hw code)) (Except.ok.inj hpieces))

/-- A table only grows by lowering. -/
theorem precedes_lowerPoints (options : LowerOptions) (p : Procedure)
    (points : List SuspensionPoint) (t : NameTable) :
    t.Precedes (lowerPoints options p points t).2 := by
  have hbooked :=
    SlotNamer.precedes_bookkeeping (SlotNamer.new t options.slotPrefix (t.lookup p.name))
  have hhoisted := hbooked.trans (SlotNamer.precedes_hoist p points options.liveness _)
  unfold lowerPoints
  dsimp only
  split
  case h_1 => exact hhoisted.names
  case h_2 hoisted _ =>
    have hlaid (books : BookkeepingNames) :=
      hhoisted.trans (SlotNamer.precedes_layOut p points hoisted books _)
    split
    case h_1 => exact (hlaid _).names
    case h_2 =>
      split
      case h_1 => exact (hlaid _).names
      case h_2 => exact (hlaid _).names.trans (NameTable.precedes_intern _ _)

theorem precedes_lowerSteps (options : LowerOptions) (p : Procedure) (t : NameTable) :
    t.Precedes (lowerSteps options p t).2 := by
  unfold lowerSteps
  dsimp only
  split
  case isFalse => exact .refl t
  case isTrue =>
    split
    case h_1 => exact .refl t
    case h_2 points _ => exact precedes_lowerPoints options p points t

theorem sameOutcome_lowerSteps (h : Concur p.names t u)
    (ht : (lowerSteps options p t).2.Precedes t')
    (hu : (lowerSteps options p u).2.Precedes u') :
    SameOutcome t' u' (lowerSteps options p t).1 (lowerSteps options p u).1 := by
  unfold lowerSteps at ht hu ⊢
  rw [shapeProblems_congr h.agree, suspensionPoints_eq h.agree] at ht ⊢
  dsimp only at ht hu ⊢
  cases hshape : (shapeProblems u p).isEmpty with
  | false => exact fun code => rfl
  | true =>
    rw [hshape] at ht hu
    cases hpoints : suspensionPoints u p with
    | error problems => exact fun code => rfl
    | ok points =>
      rw [hpoints] at ht hu
      exact sameOutcome_lowerPoints h (fun q hq => names_of_mem_points hpoints hq) ht hu

/-- The outcome of lowering by that of its steps. -/
def outcomeOf (name : String) : Except (List Problem) Machine → Except LowerError Machine
  | .error problems => .error (.failed ⟨name, problems⟩)
  | .ok machine =>
    match machine.overlong? with
    | some list => .error (.oversized list)
    | none => .ok machine

theorem lowerProcedure_eq (options : LowerOptions) (p : Procedure) (t : NameTable) :
    lowerProcedure options p t =
      (outcomeOf (t.lookup p.name) (lowerSteps options p t).1,
        (lowerSteps options p t).2) := by
  unfold lowerProcedure
  split
  case h_1 heq =>
    rw [heq]
    rfl
  case h_2 machine names' heq =>
    simp only [heq, outcomeOf]
    cases machine.overlong? <;> rfl

theorem precedes_lowerProcedure (options : LowerOptions) (p : Procedure) (t : NameTable) :
    t.Precedes (lowerProcedure options p t).2 := by
  rw [lowerProcedure_eq]
  exact precedes_lowerSteps options p t

theorem map_outcomeOf (f : Name → Name) (name : String) (r : Except (List Problem) Machine) :
    (outcomeOf name r).map (Machine.renamed f) =
      outcomeOf name (r.map (Machine.renamed f)) := by
  cases r with
  | error problems => rfl
  | ok machine =>
    simp only [outcomeOf, Except.map, Machine.overlong?_renamed]
    cases machine.overlong? <;> rfl

/-- **The company of a procedure does not matter.**  With tables that concur on its names,
lowering fails for the same problems, or makes the same machine up to the numbers of names;
and that holds for the tables as they grow. -/
theorem sameOutcome_lowerProcedure (h : Concur p.names t u)
    (ht : (lowerProcedure options p t).2.Precedes t')
    (hu : (lowerProcedure options p u).2.Precedes u') :
    SameOutcome t' u' (lowerProcedure options p t).1 (lowerProcedure options p u).1 := by
  rw [lowerProcedure_eq] at ht hu ⊢
  rw [lowerProcedure_eq options p u]
  intro code
  dsimp only
  rw [map_outcomeOf, map_outcomeOf, sameOutcome_lowerSteps h ht hu code,
    h.agree p.name Procedure.name_mem_names]

end

end Resumable
