import Mathlib.Data.List.Forall2
import Mathlib.Data.List.Nodup
import Resumable.Lower.Lowering

/-!
# Bodies that can be lowered

What the shape rules and the classification of suspensions establish about a body, in the form
in which proofs about machines use it.

## Main definitions

* `Bound.Stmt.callees`, `Bound.Stmt.numbers`, `Bound.Stmt.returns`: what a statement calls,
  which statements it consists of, and whether it returns outside closures.
* `Bound.Procedure.TreeShaped`, `Bound.Procedure.CallsNoProcedure`: conditions on bodies.
* `Sliced`: statements cut at suspension points.

## Main statements

* `cut_sliced`: a tree-shaped body is cut at exactly its suspending statements.
* `returns_eq_false_of_lt_position`: nothing returns before a suspension point.
-/

namespace Resumable

variable {stmts : List Stmt} {s : Stmt} {target : CallTarget} {points : List SuspensionPoint}
  {info : ExprInfo} {which : Primitive} {carriesValue : Bool} {index i : Nat}

namespace Bound

mutual

/-- What the calls in an expression call, those in closures included. -/
def Expr.callees : Expr → List CallTarget
  | .int .. | .float .. | .bool .. | .str .. | .unit .. | .localVar .. | .param .. | .field ..
  | .error .. => []
  | .binary _ _ left right => left.callees ++ right.callees
  | .unary _ _ operand | .suspend _ operand => operand.callees
  | .call _ target args => target :: calleesOfArgs args
  | .lambda _ body => calleesOf body

/-- What the calls in arguments call. -/
def calleesOfArgs : List Expr → List CallTarget
  | [] => []
  | e :: rest => e.callees ++ calleesOfArgs rest

/-- What the calls in a statement call. -/
def Stmt.callees : Stmt → List CallTarget
  | .expr _ e | .bind _ _ e | .assign _ _ e | .ret _ e | .yield _ e => e.callees
  | .branch _ cond onTrue onFalse => cond.callees ++ calleesOf onTrue ++ calleesOf onFalse
  | .loop _ cond body => cond.callees ++ calleesOf body
  | .declare .. | .breakLoop _ | .continueLoop _ | .leave _ | .goto .. | .label .. => []

/-- What the calls in statements call. -/
def calleesOf : List Stmt → List CallTarget
  | [] => []
  | s :: rest => s.callees ++ calleesOf rest

end

mutual

/-- The numbers of the statements in an expression. -/
def Expr.numbers : Expr → List Nat
  | .int .. | .float .. | .bool .. | .str .. | .unit .. | .localVar .. | .param .. | .field ..
  | .error .. => []
  | .binary _ _ left right => left.numbers ++ right.numbers
  | .unary _ _ operand | .suspend _ operand => operand.numbers
  | .call _ _ args => numbersOfArgs args
  | .lambda _ body => numbersOf body

/-- The numbers of the statements in arguments. -/
def numbersOfArgs : List Expr → List Nat
  | [] => []
  | e :: rest => e.numbers ++ numbersOfArgs rest

/-- The numbers of a statement and of the statements in it. -/
def Stmt.numbers : Stmt → List Nat
  | .expr info e | .bind info _ e | .assign info _ e | .ret info e | .yield info e =>
    info.id :: e.numbers
  | .branch info cond onTrue onFalse =>
    info.id :: (cond.numbers ++ numbersOf onTrue ++ numbersOf onFalse)
  | .loop info cond body => info.id :: (cond.numbers ++ numbersOf body)
  | .declare info _ | .breakLoop info | .continueLoop info | .leave info | .goto info _
  | .label info _ => [info.id]

/-- The numbers of statements and of the statements in them. -/
def numbersOf : List Stmt → List Nat
  | [] => []
  | s :: rest => s.numbers ++ numbersOf rest

end

mutual

/-- Does the statement return, outside closures? -/
def Stmt.returns : Stmt → Bool
  | .branch _ _ onTrue onFalse => returnsIn onTrue || returnsIn onFalse
  | .loop _ _ body => returnsIn body
  | .leave _ | .ret .. => true
  | .expr .. | .declare .. | .bind .. | .assign .. | .breakLoop _ | .continueLoop _ | .goto ..
  | .label .. | .yield .. => false

/-- Does one of the statements return, outside closures? -/
def returnsIn : List Stmt → Bool
  | [] => false
  | s :: rest => s.returns || returnsIn rest

end

namespace Procedure

/-- No statement is used twice. -/
def TreeShaped (p : Procedure) : Prop := (numbersOf p.stmts).Nodup

/-- No call in the body, and none in its closures, calls a procedure. -/
def CallsNoProcedure (p : Procedure) : Prop := ∀ name, .procedure name ∉ calleesOf p.stmts

/-- The states of the procedure can be told apart by 64-bit integers, as they can for every
body that fits in memory. -/
def IsCountable (p : Procedure) : Prop := p.stmts.length < 1 <<< 63

instance (p : Procedure) : Decidable p.IsCountable := inferInstanceAs (Decidable (_ < _))

instance (p : Procedure) : Decidable p.TreeShaped :=
  inferInstanceAs (Decidable (List.Nodup _))

instance (p : Procedure) : Decidable p.CallsNoProcedure :=
  decidable_of_iff ((calleesOf p.stmts).all fun callee =>
      match callee with
      | .procedure _ => false
      | .primitive _ | .host _ => true)
    ⟨fun h name hmem => Bool.noConfusion (List.all_eq_true.mp h _ hmem),
      fun h => List.all_eq_true.mpr fun callee hmem => by
        cases callee with
        | procedure name => exact absurd hmem (h name)
        | primitive | host => rfl⟩

end Procedure

theorem Stmt.id_mem_numbers (s : Stmt) : s.id ∈ s.numbers := by
  cases s <;> exact List.mem_cons_self

theorem mem_numbersOf (h : s ∈ stmts) {n : Nat} (hn : n ∈ s.numbers) :
    n ∈ numbersOf stmts := by
  induction stmts with
  | nil => cases h
  | cons t rest ih =>
    rcases List.mem_cons.mp h with rfl | h
    · exact List.mem_append_left _ hn
    · exact List.mem_append_right _ (ih h)

/-- A block calls what its statements call. -/
theorem mem_calleesOf : target ∈ calleesOf stmts ↔ ∃ s ∈ stmts, target ∈ s.callees := by
  induction stmts with
  | nil => simp [calleesOf]
  | cons t rest ih => simp [calleesOf, ih]

theorem returnsIn_eq_false : returnsIn stmts = false ↔ ∀ s ∈ stmts, s.returns = false := by
  induction stmts with
  | nil => simp [returnsIn]
  | cons t rest ih => simp [returnsIn, ih]

/-- Statements of a body without repeated numbers have different numbers. -/
theorem nodup_ids (h : (numbersOf stmts).Nodup) : (stmts.map Stmt.id).Nodup := by
  induction stmts with
  | nil => exact List.nodup_nil
  | cons t rest ih =>
    obtain ⟨-, hrest, hdisjoint⟩ := List.nodup_append.mp h
    refine List.nodup_cons.mpr ⟨fun hmem => ?_, ih hrest⟩
    obtain ⟨u, hu, hid⟩ := List.mem_map.mp hmem
    exact hdisjoint _ t.id_mem_numbers _ (mem_numbersOf hu u.id_mem_numbers) hid.symm

end Bound

open Resumable.Bound (Expr Procedure Stmt StmtInfo)

/-! ### Returns -/

mutual

/-- A return outside closures is found. -/
theorem ret_mem_stmtFindings {c : Surroundings} (hc : c.closure = none) :
    (s : Stmt) → s.returns = true → ∃ span, Finding.ret span ∈ stmtFindings c s
  | .branch info cond onTrue onFalse, h => by
    have hinner : (c.inBranch info.span).closure = none := hc
    rcases Bool.or_eq_true_iff.mp h with h | h
    · obtain ⟨span, hmem⟩ := ret_mem_blockFindings hinner onTrue h
      exact ⟨span, List.mem_append_left _ (List.mem_append_right _ hmem)⟩
    · obtain ⟨span, hmem⟩ := ret_mem_blockFindings hinner onFalse h
      exact ⟨span, List.mem_append_right _ hmem⟩
  | .loop info cond body, h => by
    obtain ⟨span, hmem⟩ := ret_mem_blockFindings (c := c.inLoopBody info.span) hc body h
    exact ⟨span, List.mem_append_right _ hmem⟩
  | .leave info, _ => ⟨info.span, by simp [stmtFindings, Surroundings.retFindings, hc]⟩
  | .ret info _, _ => ⟨info.span, by simp [stmtFindings, Surroundings.retFindings, hc]⟩

/-- A return outside closures is found among statements. -/
theorem ret_mem_blockFindings {c : Surroundings} (hc : c.closure = none) :
    (stmts : List Stmt) → Bound.returnsIn stmts = true →
    ∃ span, Finding.ret span ∈ blockFindings c stmts
  | s :: rest, h => by
    rcases Bool.or_eq_true_iff.mp h with h | h
    · obtain ⟨span, hmem⟩ := ret_mem_stmtFindings hc s h
      exact ⟨span, List.mem_append_left _ hmem⟩
    · obtain ⟨span, hmem⟩ := ret_mem_blockFindings hc rest h
      exact ⟨span, List.mem_append_right _ hmem⟩

end

variable {k : Nat} {span : Span} {operand e : Expr} {kind : SuspensionKind}
  {names : NameTable} {args : List Expr} {p : Procedure} {site : SuspensionSite}
  {q : SuspensionPoint}

theorem mem_located (find : Finding → Option Span) (hs : stmts[k]? = some s) {f : Finding}
    (hf : f ∈ topFindings s) (hfind : find f = some span) :
    (k, span) ∈ located find stmts := by
  refine List.mem_flatMap.mpr ⟨(s, k), List.mk_mem_zipIdx_iff_getElem?.mpr hs, ?_⟩
  exact List.mem_map.mpr ⟨span, List.mem_filterMap.mpr ⟨f, hf, hfind⟩, rfl⟩

/-- What a body contains is listed by position. -/
theorem located_pairwise (find : Finding → Option Span) (stmts : List Stmt) :
    (located find stmts).Pairwise (fun a b => a.1 ≤ b.1) := by
  refine List.pairwise_flatMap.mpr ⟨fun a _ => ?_, ?_⟩
  · exact List.pairwise_map.mpr (List.pairwise_of_forall fun _ _ => Nat.le_refl a.2)
  · have increasing : (stmts.zipIdx.map Prod.snd).Pairwise (· < ·) := by
      rw [List.zipIdx_map_snd]
      exact List.pairwise_lt_range'
    refine (List.pairwise_map.mp increasing).imp fun {a b} hlt x hx y hy => ?_
    obtain ⟨_, -, rfl⟩ := List.mem_map.mp hx
    obtain ⟨_, -, rfl⟩ := List.mem_map.mp hy
    exact Nat.le_of_lt hlt

/-- The forms of a statement that suspends. -/
inductive Suspending (info : ExprInfo) (operand : Expr) : Stmt → Prop where
  | expr (stmt : StmtInfo) : Suspending info operand (.expr stmt (.suspend info operand))
  | bind (stmt : StmtInfo) (id : LocalId) :
    Suspending info operand (.bind stmt id (.suspend info operand))
  | assign (stmt : StmtInfo) (target : Bound.Place) :
    Suspending info operand (.assign stmt target (.suspend info operand))

/-- A statement in which a suspension is found is a suspending one. -/
theorem suspending_of_suspensionOf (h : suspensionOf s = some (info, operand)) :
    Suspending info operand s := by
  unfold suspensionOf at h
  split at h
  case h_4 => cases h
  all_goals
    obtain ⟨rfl, rfl⟩ := Prod.mk.inj (Option.some.inj h)
    constructor

/-- A suspending statement is found as a suspension. -/
theorem suspension_mem_topFindings (h : suspensionOf s = some (info, operand)) :
    Finding.suspend info.span true ∈ topFindings s := by
  cases suspending_of_suspensionOf h <;> exact List.mem_cons_self

/-- **Nothing returns before a suspension**: the rule on returns keeps the statements before a
suspending one free of returns outside closures. -/
theorem returns_eq_false_of_lt (h : returnProblems stmts = []) {j : Nat}
    {t : Stmt} (hs : stmts[k]? = some s) (ht : stmts[j]? = some t)
    (hsuspends : (suspensionOf t).isSome) (hlt : k < j) : s.returns = false := by
  rw [Bool.eq_false_iff]
  intro hreturns
  obtain ⟨⟨info, operand⟩, hsuspends⟩ := Option.isSome_iff_exists.mp hsuspends
  have hsus := mem_located Finding.suspension? ht (suspension_mem_topFindings hsuspends) rfl
  obtain ⟨span, hret⟩ := ret_mem_stmtFindings (c := .top) rfl s hreturns
  have hloc := mem_located Finding.ret? hs hret rfl
  unfold returnProblems at h
  cases hlast : (located Finding.suspension? stmts).getLast? with
  | none =>
    rw [List.getLast?_eq_none_iff.mp hlast] at hsus
    cases hsus
  | some last =>
    rw [hlast] at h
    obtain ⟨front, hfront⟩ := List.getLast?_eq_some_iff.mp hlast
    have hle : j ≤ last.1 := by
      have hsorted := located_pairwise Finding.suspension? stmts
      rw [hfront] at hsorted hsus
      rcases List.mem_append.mp hsus with hsus | hsus
      · exact (List.pairwise_append.mp hsorted).2.2 _ hsus last List.mem_cons_self
      · exact Nat.le_of_eq (congrArg Prod.fst (List.mem_singleton.mp hsus))
    have hmem : (k, span) ∈ (located Finding.ret? stmts).filter (·.1 < last.1) :=
      List.mem_filter.mpr ⟨hloc, decide_eq_true (Nat.lt_of_lt_of_le hlt hle)⟩
    rw [List.map_eq_nil_iff.mp h] at hmem
    cases hmem

/-! ### Points -/

/-- Where every failure has a reason, results without problems are successes. -/
theorem eq_map_of_gather {α : Type} {results : List (Except (List Problem) α)} {as : List α}
    (hreason : ∀ r ∈ results, r ≠ .error []) (h : gather results = .ok as) :
    results = as.map .ok := by
  unfold gather at h
  dsimp only at h
  split at h
  case isFalse => cases h
  case isTrue hempty =>
    obtain rfl := Except.ok.inj h
    have hnone := List.flatMap_eq_nil_iff.mp (List.isEmpty_iff.mp hempty)
    clear hempty h
    induction results with
    | nil => rfl
    | cons r rest ih =>
      have hr := hnone r List.mem_cons_self
      have hrest := ih (fun r hr => hreason r (List.mem_cons_of_mem _ hr))
        (fun r hr => hnone r (List.mem_cons_of_mem _ hr))
      cases r with
      | error problems =>
        subst hr
        exact absurd rfl (hreason _ List.mem_cons_self)
      | ok a => exact congrArg (List.cons _) hrest

/-- A refusal to classify has a reason. -/
theorem classify_ne_error_nil (names : NameTable) (operand : Expr) :
    classify names operand ≠ .error [] := by
  have timed : ∀ which make args span,
    classifyTimed names which make args span ≠ .error [] := by
    intro which make args span
    unfold classifyTimed
    split
    · split <;> simp
    · simp
  have join : ∀ which make args span,
    classifyJoin names which make args span ≠ .error [] := by
    intro which make args span
    unfold classifyJoin
    split
    · simp
    · dsimp only
      split
      · simp
      · next h => simpa using h
  unfold classify
  split
  · next info which args =>
      have hprimitive : classifyPrimitive names which args info.span ≠ .error [] := by
        unfold classifyPrimitive
        cases which with
        | delay | delayFrames => exact timed _ _ _ _
        | whenAll | whenAny => exact join _ _ _ _
        | yield => dsimp only; split <;> simp
      split
      · simp
      · next problems hproblems =>
          rw [hproblems] at hprimitive
          simpa using hprimitive
  · split <;> simp

/-- The operands that a wait is made from. -/
def SuspensionKind.operands : SuspensionKind → List Expr
  | .timedDelay e | .frameDelay e => [e]
  | .yieldStep => []
  | .joinAll operands | .joinAny operands => operands
  | .delegate operand => [operand]

/-- What is waited for is an operand. -/
theorem SuspensionKind.mem_operands_of_awaited (h : e ∈ kind.awaited) :
    e ∈ kind.operands := by
  cases kind with
  | timedDelay | frameDelay | yieldStep => cases h
  | joinAll | joinAny | delegate => exact h

/-- What an operand is waited for as, and whether that carries a value. -/
inductive Classified : Expr → SuspensionKind → Bool → Prop where
  | delay (info : ExprInfo) (e : Expr) :
    Classified (.call info (.primitive .delay) [e]) (.timedDelay e) false
  | delayFrames (info : ExprInfo) (e : Expr) :
    Classified (.call info (.primitive .delayFrames) [e]) (.frameDelay e) false
  | yield (info : ExprInfo) : Classified (.call info (.primitive .yield) []) .yieldStep false
  | whenAll (info : ExprInfo) (args : List Expr) (some : args ≠ []) :
    Classified (.call info (.primitive .whenAll) args) (.joinAll args) (deliversValue info.ty)
  | whenAny (info : ExprInfo) (args : List Expr) (some : args ≠ []) :
    Classified (.call info (.primitive .whenAny) args) (.joinAny args) (deliversValue info.ty)
  | delegate (operand : Expr) (deferred : operand.ty.isDeferred)
    (other : ∀ info which args, operand ≠ .call info (.primitive which) args) :
    Classified operand (.delegate operand) (deliversValue operand.ty)

theorem eq_of_classifyTimed {make : Expr → SuspensionKind}
    (h : classifyTimed names which make args span = .ok kind) :
    ∃ e, args = [e] ∧ kind = make e := by
  unfold classifyTimed at h
  split at h
  case h_2 => cases h
  case h_1 timing =>
    split at h
    case isFalse => cases h
    case isTrue => exact ⟨timing, rfl, (Except.ok.inj h).symm⟩

theorem eq_of_classifyJoin {make : List Expr → SuspensionKind}
    (h : classifyJoin names which make args span = .ok kind) :
    args ≠ [] ∧ kind = make args ∧ ∀ e ∈ args, e.ty.isDeferred = true := by
  unfold classifyJoin at h
  split at h
  case isTrue => cases h
  case isFalse hsome =>
    dsimp only at h
    split at h
    case isFalse => cases h
    case isTrue hnone =>
      have hall := List.filter_eq_nil_iff.mp (List.isEmpty_iff.mp hnone)
      exact ⟨by simpa using hsome, (Except.ok.inj h).symm, fun e he => by
        simpa using hall e he⟩

/-- **Classification reads off the operand** what is waited for, and makes sure that what is
awaited is deferred. -/
theorem classified_of_classify (h : classify names operand = .ok (kind, carriesValue)) :
    Classified operand kind carriesValue ∧ ∀ e ∈ kind.awaited, e.ty.isDeferred = true := by
  unfold classify at h
  split at h
  case h_1 info which args =>
    split at h
    case h_2 => cases h
    case h_1 kind' hkind =>
      obtain ⟨rfl, rfl⟩ := Prod.mk.inj (Except.ok.inj h)
      unfold classifyPrimitive at hkind
      cases which with
      | delay =>
        obtain ⟨e, rfl, rfl⟩ := eq_of_classifyTimed hkind
        simpa [SuspensionKind.awaitsTasks, SuspensionKind.awaited]
          using Classified.delay info e
      | delayFrames =>
        obtain ⟨e, rfl, rfl⟩ := eq_of_classifyTimed hkind
        simpa [SuspensionKind.awaitsTasks, SuspensionKind.awaited]
          using Classified.delayFrames info e
      | yield =>
        dsimp only at hkind
        split at hkind
        case isFalse => cases hkind
        case isTrue hargs =>
          obtain rfl := Except.ok.inj hkind
          rw [List.isEmpty_iff.mp hargs]
          simpa [SuspensionKind.awaitsTasks, SuspensionKind.awaited]
            using Classified.yield info
      | whenAll =>
        obtain ⟨hargs, rfl, hdeferred⟩ := eq_of_classifyJoin hkind
        exact ⟨by simpa [SuspensionKind.awaitsTasks] using Classified.whenAll info args hargs,
          hdeferred⟩
      | whenAny =>
        obtain ⟨hargs, rfl, hdeferred⟩ := eq_of_classifyJoin hkind
        exact ⟨by simpa [SuspensionKind.awaitsTasks] using Classified.whenAny info args hargs,
          hdeferred⟩
  case h_2 hother =>
    split at h
    case isFalse => cases h
    case isTrue hdeferred =>
      obtain ⟨rfl, rfl⟩ := Prod.mk.inj (Except.ok.inj h)
      exact ⟨.delegate operand hdeferred hother, fun e he =>
        List.mem_singleton.mp he ▸ hdeferred⟩

/-- An operand is waited for in one way. -/
theorem Classified.unique {kind' : SuspensionKind} {carries carries' : Bool}
    (h : Classified operand kind carries) (h' : Classified operand kind' carries') :
    kind = kind' ∧ carries = carries' := by
  cases h with
  | delegate operand _ other =>
    cases h' with
    | delegate => exact ⟨rfl, rfl⟩
    | _ => exact absurd rfl (other _ _ _)
  | _ =>
    cases h' with
    | delegate operand _ other => exact absurd rfl (other _ _ _)
    | _ => exact ⟨rfl, rfl⟩

theorem Bound.mem_calleesOfArgs :
    target ∈ Bound.calleesOfArgs args ↔ ∃ e ∈ args, target ∈ e.callees := by
  induction args with
  | nil => simp [Bound.calleesOfArgs]
  | cons t rest ih => simp [Bound.calleesOfArgs, ih]

/-- What a wait calls is called by the operand of the suspension. -/
theorem Classified.mem_callees (h : Classified operand kind carriesValue)
    (he : e ∈ kind.operands) (ht : target ∈ e.callees) : target ∈ operand.callees := by
  cases h with
  | yield info => cases he
  | delegate operand _ _ =>
    obtain rfl := List.mem_singleton.mp he
    exact ht
  | delay info e' | delayFrames info e' =>
    exact List.mem_cons_of_mem _ (Bound.mem_calleesOfArgs.mpr ⟨e, he, ht⟩)
  | whenAll info args _ | whenAny info args _ =>
    exact List.mem_cons_of_mem _ (Bound.mem_calleesOfArgs.mpr ⟨e, he, ht⟩)

theorem mem_callees_of_suspensionOf (h : suspensionOf s = some (info, operand))
    (ht : target ∈ operand.callees) : target ∈ s.callees := by
  cases suspending_of_suspensionOf h <;> exact ht

/-- What a point takes over from its site. -/
structure SuspensionSite.Gives (names : NameTable) (site : SuspensionSite) (index : Nat)
    (q : SuspensionPoint) : Prop where
  stmt : q.stmt = site.stmt
  position : q.position = site.position
  operand : q.operand = site.operand
  index : q.index = index
  kind : Classified site.operand q.kind q.carriesValue
  delivery : q.delivery = deliveryOf site.stmt
  /-- A value is only taken where one is carried. -/
  carries : q.delivery.isSome → q.carriesValue = true

/-- **A point is read off its site** and off how the operand is classified. -/
theorem SuspensionSite.eq_of_point (h : site.point names p index = .ok q) :
    ∃ kind carriesValue, classify names site.operand = .ok (kind, carriesValue) ∧
      ((deliveryOf site.stmt).isSome → carriesValue = true) ∧
      q = { index, kind, carriesValue, stmt :=
        site.stmt, position := site.position, operand := site.operand,
            valueTy := if carriesValue then site.operand.ty.output?.getD .unit else .unit,
            span := site.info.span, delivery := deliveryOf site.stmt } := by
  unfold point at h
  split at h
  case h_1 => cases h
  case h_2 kind carriesValue hkind =>
    refine ⟨kind, carriesValue, hkind, ?_⟩
    dsimp only at h
    split at h
    case h_1 hdelivery => exact ⟨by simp [hdelivery], (Except.ok.inj h).symm⟩
    case h_2 =>
      split at h
      case isFalse => cases h
      case isTrue hcarries =>
        subst hcarries
        exact ⟨fun _ => rfl, (Except.ok.inj h).symm⟩

/-- What a suspension gives to its point. -/
theorem SuspensionSite.point_gives (h : site.point names p index = .ok q) :
    site.Gives names index q := by
  obtain ⟨kind, carriesValue, hkind, hcarries, rfl⟩ := eq_of_point h
  exact ⟨rfl, rfl, rfl, rfl, (classified_of_classify hkind).1, rfl, hcarries⟩

theorem SuspensionSite.point_ne_error_nil (names : NameTable) (p : Procedure)
    (site : SuspensionSite) (index : Nat) : site.point names p index ≠ .error [] := by
  unfold point
  split
  · next problems hproblems =>
      have hclassify := classify_ne_error_nil names site.operand
      rw [hproblems] at hclassify
      simpa using hclassify
  · dsimp only
    split
    · simp
    · split <;> simp

/-- The span and the type of the value of a point. -/
theorem SuspensionSite.value_of_point (h : site.point names p index = .ok q) :
    q.span = site.info.span ∧ (q.carriesValue = true →
      q.valueTy = site.operand.ty.output?.getD .unit) := by
  obtain ⟨kind, carriesValue, -, -, rfl⟩ := eq_of_point h
  exact ⟨rfl, fun hcarries => if_pos hcarries⟩

/-- A point is that of the site with its number. -/
theorem point_of_points (h : suspensionPoints names p = .ok points) :
    points.length = (suspensionSites p.stmts).length ∧
      ∀ i q, points[i]? = some q →
        ∃ site : SuspensionSite, (suspensionSites p.stmts)[i]? = some site ∧
          site.point names p i = .ok q := by
  have heq : (suspensionSites p.stmts).mapIdx (fun index site => site.point names p index) =
      points.map .ok := by
    refine eq_map_of_gather (fun r hr => ?_) h
    obtain ⟨index, hindex, rfl⟩ := List.mem_mapIdx.mp hr
    exact SuspensionSite.point_ne_error_nil _ _ _ _
  constructor
  · simpa using (congrArg List.length heq).symm
  · intro i q hq
    have hi := congrArg (fun l => l[i]?) heq
    rw [List.getElem?_mapIdx, List.getElem?_map, hq, Option.map_some] at hi
    exact Option.map_eq_some_iff.mp hi

/-- **The points of a body are those of its suspending statements**, in order. -/
theorem points_give (h : suspensionPoints names p = .ok points) :
    points.length = (suspensionSites p.stmts).length ∧
      ∀ i q, points[i]? = some q → ∃ site : SuspensionSite,
          (suspensionSites p.stmts)[i]? = some site ∧ site.Gives names i q := by
  refine ⟨(point_of_points h).1, fun i q hq => ?_⟩
  obtain ⟨site, hsite, hpoint⟩ := (point_of_points h).2 i q hq
  exact ⟨site, hsite, SuspensionSite.point_gives hpoint⟩

/-- A site found is a statement of the body that suspends. -/
theorem suspends_of_mem_suspensionSites (h : site ∈ suspensionSites stmts) :
    site.stmt ∈ stmts ∧ suspensionOf site.stmt = some (site.info, site.operand) := by
  obtain ⟨⟨stmt, position⟩, hmem, hsome⟩ := List.mem_filterMap.mp h
  obtain ⟨⟨info, operand⟩, hsus, rfl⟩ := Option.map_eq_some_iff.mp hsome
  exact ⟨List.mem_of_getElem? (List.mk_mem_zipIdx_iff_getElem?.mp hmem), hsus⟩

section

variable (h : suspensionPoints names p = .ok points)

include h

/-- A point has a site in the body. -/
theorem site_of_mem (hq : q ∈ points) :
    ∃ site i, SuspensionSite.Gives names site i q ∧ site.stmt ∈ p.stmts ∧
      suspensionOf site.stmt = some (site.info, site.operand) := by
  obtain ⟨i, hi⟩ := List.getElem?_of_mem hq
  obtain ⟨site, hsite, gives⟩ := (points_give h).2 i q hi
  exact ⟨site, i, gives, suspends_of_mem_suspensionSites (List.mem_of_getElem? hsite)⟩

/-- What the wait at a point calls, the body calls. -/
theorem mem_calleesOf_of_point (hq : q ∈ points) (he : e ∈ q.kind.operands)
    (ht : target ∈ e.callees) : target ∈ Bound.calleesOf p.stmts := by
  obtain ⟨site, i, gives, hstmt, hsus⟩ := site_of_mem h hq
  exact Bound.mem_calleesOf.mpr
    ⟨site.stmt, hstmt, mem_callees_of_suspensionOf hsus (gives.kind.mem_callees he ht)⟩

/-- Points are numbered in order. -/
theorem index_of_points (hq : points[k]? = some q) : q.index = k := by
  obtain ⟨site, -, gives⟩ := (points_give h).2 k q hq
  exact gives.index

/-- The statement of a point is one of the body, and suspends. -/
theorem stmt_of_point (hq : q ∈ points) :
    q.stmt ∈ p.stmts ∧ ∃ info, suspensionOf q.stmt = some (info, q.operand) := by
  obtain ⟨site, i, gives, hstmt, hsus⟩ := site_of_mem h hq
  rw [gives.stmt, gives.operand]
  exact ⟨hstmt, site.info, hsus⟩

end

/-- The point of a statement is one of the points. -/
theorem pointOfStmt_mem (hq : q ∈ points) : pointOfStmt points q ∈ points := by
  unfold pointOfStmt
  cases hfound : points.reverse.find? fun r => r.stmt.id == q.stmt.id with
  | none => exact hq
  | some r => exact List.mem_reverse.mp (List.mem_of_find?_eq_some hfound)

/-- **A lookup by statement number** finds the last point that has the number. -/
theorem pointOfStmt_last
    (hindex : ∀ k (q : SuspensionPoint), points[k]? = some q → q.index = k)
    (hq : points[i]? = some q) :
    points[(pointOfStmt points q).index]? = some (pointOfStmt points q) ∧
      (pointOfStmt points q).stmt.id = q.stmt.id ∧
      ∀ k r, points[k]? = some r → r.stmt.id = q.stmt.id →
      k ≤ (pointOfStmt points q).index := by
  obtain ⟨last, hlast⟩ : ∃ last,
    points.reverse.find? (fun r => r.stmt.id == q.stmt.id) = some last := by
    refine Option.isSome_iff_exists.mp (List.find?_isSome.mpr ⟨q, ?_, beq_self_eq_true _⟩)
    exact List.mem_reverse.mpr (List.mem_of_getElem? hq)
  have heq : pointOfStmt points q = last := by
    unfold pointOfStmt
    rw [hlast]
    rfl
  obtain ⟨hid, later, earlier, hsplit, hlater⟩ := List.find?_eq_some_iff_append.mp hlast
  -- Read forwards, the points are those before the last one, itself, and those that have
  -- other numbers.
  have hpoints : points = earlier.reverse ++ last :: later.reverse := by
    rw [← List.reverse_reverse points, hsplit]
    simp
  have hat : points[earlier.length]? = some last := by
    rw [hpoints, List.getElem?_append_right (by simp)]
    simp
  rw [heq, hindex _ _ hat]
  refine ⟨hat, by simpa using hid, fun k r hk hr => Nat.le_of_not_lt fun hlt => ?_⟩
  have hmem : r ∈ later := by
    obtain ⟨d, rfl⟩ : ∃ d, k = earlier.reverse.length + (d + 1) :=
      ⟨k - (earlier.length + 1), by simp; omega⟩
    rw [hpoints, List.getElem?_append_right (Nat.le_add_right _ _), Nat.add_sub_cancel_left,
      List.getElem?_cons_succ] at hk
    exact List.mem_reverse.mp (List.mem_of_getElem? hk)
  have hne := hlater r hmem
  simp [hr] at hne

/-! ### First assignments -/

/-- A top-level statement that introduces a local is its first assignment, and the local
lives for one run. -/
theorem eq_assign_of_firstAssigned? {l : SlotLayout} {u : Usage} {x : LocalId}
    (h : firstAssigned? l u s = some (span, x, e)) :
    ∃ info, s = .assign info (.localVar x) e ∧ span = info.span ∧ l.local? x = none ∧
      u.knows x = false := by
  unfold firstAssigned? at h
  split at h
  case h_2 => cases h
  case h_1 info y value =>
    split at h
    case isFalse => cases h
    case isTrue hnew =>
      obtain ⟨rfl, heq⟩ := Prod.mk.inj (Option.some.inj h)
      obtain ⟨rfl, rfl⟩ := Prod.mk.inj heq
      refine ⟨info, rfl, rfl, ?_⟩
      simpa using hnew

/-! ### Slices -/

/-- Statements cut at points: between the points stand statements that do not suspend, and
the points are those of the statements that do.  `close` gives the point that a stretch
records where it ends. -/
inductive Sliced (close : SuspensionPoint → SuspensionPoint) :
    Option SuspensionPoint → List Stmt → List SuspensionPoint → List Stretch → Prop where
  | last {opening : Option SuspensionPoint} {stmts : List Stmt}
    (plain : ∀ s ∈ stmts, suspensionOf s = none) :
    Sliced close opening stmts [] [⟨opening, stmts, none⟩]
  | next {opening : Option SuspensionPoint} {stmts later : List Stmt} {q : SuspensionPoint}
    {rest : List SuspensionPoint} {stretches : List Stretch}
    (plain : ∀ s ∈ stmts, suspensionOf s = none) (suspends : (suspensionOf q.stmt).isSome)
    (tail : Sliced close (some q) later rest stretches) :
    Sliced close opening (stmts ++ q.stmt :: later) (q :: rest)
      (⟨opening, stmts, some (close q)⟩ :: stretches)

/-- The sites of statements of which the first has the given position. -/
private def sitesFrom (position : Nat) (stmts : List Stmt) : List SuspensionSite :=
  (stmts.zipIdx position).filterMap fun (stmt, position) =>
    (suspensionOf stmt).map fun (info, operand) => ⟨stmt, position, info, operand⟩

private theorem mem_zipIdx_of_mem (hs : s ∈ stmts) (position : Nat) :
    ∃ k, (s, k) ∈ stmts.zipIdx position := by
  obtain ⟨k, hk, rfl⟩ := List.getElem_of_mem hs
  refine ⟨position + k, ?_⟩
  rw [List.mk_mem_zipIdx_iff_le_and_getElem?_sub]
  simp [hk]

/-- Up to its first suspending statement, a body has plain statements. -/
private theorem sitesFrom_eq_cons {position : Nat} {sites : List SuspensionSite}
    (h : sitesFrom position stmts = site :: sites) :
    ∃ plain later, stmts = plain ++ site.stmt :: later ∧
      (∀ s ∈ plain, suspensionOf s = none) ∧
      suspensionOf site.stmt = some (site.info, site.operand) ∧
      site.position = position + plain.length ∧
      sitesFrom (site.position + 1) later = sites := by
  obtain ⟨before, a, after, hsplit, hnone, hsome, hrest⟩ := List.filterMap_eq_cons_iff.mp h
  obtain ⟨plain, stmts', rfl, rfl, hafter⟩ := List.zipIdx_eq_append_iff.mp hsplit
  obtain ⟨stmt, later, rfl, rfl, rfl⟩ := List.zipIdx_eq_cons_iff.mp hafter.symm
  obtain ⟨⟨info, operand⟩, hsus, rfl⟩ := Option.map_eq_some_iff.mp hsome
  refine ⟨plain, later, rfl, fun s hs => ?_, hsus, rfl, hrest⟩
  obtain ⟨k, hmem⟩ := mem_zipIdx_of_mem hs position
  exact Option.map_eq_none_iff.mp (hnone _ hmem)

/-- Cutting from any position slices what is left. -/
private theorem cutFrom_sliced {all : List SuspensionPoint} (names : NameTable) :
    ∀ {opening : Option SuspensionPoint} {position : Nat} {stmts : List Stmt},
      List.Forall₂ (fun site q => ∃ index, site.Gives names index q)
        (sitesFrom position stmts) points →
      Sliced (pointOfStmt all) opening stmts points
        (cutFrom all opening position stmts points) := by
  induction points with
  | nil =>
    intro opening position stmts h
    refine .last fun s hs => ?_
    have hnone := List.filterMap_eq_nil_iff.mp (List.forall₂_nil_right_iff.mp h)
    obtain ⟨k, hmem⟩ := mem_zipIdx_of_mem hs position
    exact Option.map_eq_none_iff.mp (hnone _ hmem)
  | cons q rest ih =>
    intro opening position stmts h
    obtain ⟨site, sites, ⟨index, gives⟩, htail, hsites⟩ := List.forall₂_cons_right_iff.mp h
    obtain ⟨plain, later, rfl, hplain, hsus, hposition, rfl⟩ := sitesFrom_eq_cons hsites
    have hlen : site.position - position = plain.length := by
      rw [hposition, Nat.add_sub_cancel_left]
    have hcut : cutFrom all opening position (plain ++ site.stmt :: later) (q :: rest) =
        ⟨opening, plain, some (pointOfStmt all q)⟩ ::
          cutFrom all (some q) (site.position + 1) later rest := by
      have hdrop : plain.drop (plain.length + 1) = [] :=
        List.drop_of_length_le (Nat.le_succ _)
      simp [cutFrom, hlen, gives.position, List.drop_append, hdrop]
    rw [hcut, ← gives.stmt]
    refine .next hplain ?_ (ih htail)
    rw [gives.stmt, hsus]
    rfl

/-- **A body is cut at exactly its suspending statements.** -/
theorem cut_sliced (h : suspensionPoints names p = .ok points) :
    Sliced (pointOfStmt points) none p.stmts points (cut p.stmts points) := by
  refine cutFrom_sliced names ?_
  obtain ⟨hlen, hgives⟩ := points_give h
  refine List.forall₂_iff_get.mpr ⟨hlen.symm, fun i hi hi' => ?_⟩
  obtain ⟨site, hsite, gives⟩ := hgives i _ (List.getElem?_eq_getElem hi')
  obtain ⟨_, rfl⟩ := List.getElem?_eq_some_iff.mp hsite
  exact ⟨i, gives⟩

section

variable {close : SuspensionPoint → SuspensionPoint} {opening : Option SuspensionPoint}
  {stretches : List Stretch}

namespace Sliced

/-- Cutting at the points gives one stretch more. -/
theorem length_eq (h : Sliced close opening stmts points stretches) :
    stretches.length = points.length + 1 := by
  induction h with
  | last _ => rfl
  | next _ _ _ ih => simp [ih]

/-- The points are those of statements of the body, in order. -/
theorem sublist (h : Sliced close opening stmts points stretches) :
    (points.map SuspensionPoint.stmt).Sublist stmts := by
  induction h with
  | last _ => exact List.nil_sublist _
  | next _ _ _ ih => exact (ih.cons_cons _).trans (List.sublist_append_right _ _)

variable {st : Stretch}

variable (h : Sliced close opening stmts points stretches)

include h

/-- **A stretch stands between two points**: the one before it opens it, the one
after it closes it. -/
theorem between (hst : stretches[i]? = some st) :
    st.opening = (if i = 0 then opening else points[i - 1]?) ∧
      st.closing = (points[i]?).map close := by
  induction h generalizing i with
  | last _ =>
    obtain ⟨rfl, rfl⟩ : i = 0 ∧ st = _ := by
      simpa [List.getElem?_singleton, eq_comm] using hst
    exact ⟨rfl, rfl⟩
  | next _ _ _ ih =>
    cases i with
    | zero =>
      obtain rfl := Option.some.inj hst
      exact ⟨rfl, rfl⟩
    | succ i =>
      obtain ⟨hopen, hclose⟩ := ih hst
      refine ⟨?_, hclose⟩
      rw [hopen]
      cases i <;> rfl

/-- The statements of a stretch are statements of the body that do not suspend. -/
theorem mem_stmts (hst : st ∈ stretches) (hs : s ∈ st.stmts) :
    s ∈ stmts ∧ suspensionOf s = none := by
  induction h with
  | last plain =>
    obtain rfl := List.mem_singleton.mp hst
    exact ⟨hs, plain s hs⟩
  | next plain _ _ ih =>
    rcases List.mem_cons.mp hst with rfl | hst
    · exact ⟨List.mem_append_left _ hs, plain s hs⟩
    · obtain ⟨hmem, hnone⟩ := ih hst
      exact ⟨List.mem_append_right _ (List.mem_cons_of_mem _ hmem), hnone⟩

/-- After every statement of a stretch that is closed, a statement suspends. -/
theorem suspends_after (hst : st ∈ stretches) (hclosed : st.closing.isSome)
    (hs : s ∈ st.stmts) :
    ∃ front t back, stmts = front ++ t :: back ∧ s ∈ front ∧ (suspensionOf t).isSome := by
  induction h with
  | last _ =>
    obtain rfl := List.mem_singleton.mp hst
    cases hclosed
  | @next _ plain later q _ _ _ suspends _ ih =>
    rcases List.mem_cons.mp hst with rfl | hst
    · exact ⟨plain, q.stmt, later, rfl, hs, suspends⟩
    · obtain ⟨front, t, back, rfl, hfront, ht⟩ := ih hst
      refine ⟨plain ++ q.stmt :: front, t, back, by simp, ?_, ht⟩
      exact List.mem_append_right _ (List.mem_cons_of_mem _ hfront)

/-- **Only the last stretch returns.** -/
theorem returns_eq_false (hreturns : returnProblems stmts = []) (hst : st ∈ stretches)
    (hclosed : st.closing.isSome) : Bound.returnsIn st.stmts = false := by
  refine Bound.returnsIn_eq_false.mpr fun s hs => ?_
  obtain ⟨front, t, back, rfl, hfront, ht⟩ := h.suspends_after hst hclosed hs
  obtain ⟨k, hk, rfl⟩ := List.getElem_of_mem hfront
  refine returns_eq_false_of_lt hreturns (k := k) (j := front.length) ?_ ?_ ht hk
  · rw [List.getElem?_append_left hk, List.getElem?_eq_getElem hk]
  · rw [List.getElem?_append_right (Nat.le_refl _), Nat.sub_self, List.getElem?_cons_zero]

end Sliced

end

/-- In a tree-shaped body a stretch records the point at which it was cut. -/
theorem pointOfStmt_eq_self (h : suspensionPoints names p = .ok points) (tree : p.TreeShaped)
    (hq : q ∈ points) : pointOfStmt points q = q := by
  have hnodup : (points.map fun q => q.stmt.id).Nodup := by
    have hsub := (cut_sliced h).sublist.map Stmt.id
    rw [List.map_map] at hsub
    exact (Bound.nodup_ids tree).sublist hsub
  unfold pointOfStmt
  cases hfound : points.reverse.find? fun r => r.stmt.id == q.stmt.id with
  | none => rfl
  | some r =>
    have hid : r.stmt.id = q.stmt.id := by simpa using List.find?_some hfound
    have hr := List.mem_reverse.mp (List.mem_of_find?_eq_some hfound)
    exact List.inj_on_of_nodup_map hnodup hr hq hid

end Resumable
