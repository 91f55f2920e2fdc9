import Resumable.Proofs.Generators
import Resumable.Proofs.Isolation
import Resumable.Proofs.TableIndependence

/-!
# Lowering a module

A module is lowered procedure by procedure, with one table of names and one sink for problems.
**A procedure is neither helped nor harmed by its company.**  The module has the machines of
the procedures that could be lowered, in order; the sink received the reports of the others,
in order; and there is evidence of an error exactly where a procedure failed.  What a
procedure gives does not depend on the procedures around it, on their order or on how far the
table had grown.

Evidence of an error is what a sink hands out for each report, while a queue may drop what it
is given.  The two do not drift apart, since a queue that has kept no error drops none.

## Main definitions

* `lowerEach`: the outcomes of procedures that are lowered in turn.
* `Collected`: a module that was put together from outcomes.

## Main statements

* `collected_lowerModule`: lowering a module collects the outcomes.
* `evidence_iff_hasErrors`: a queue that started empty has kept an error exactly where there
  is evidence of one.
* `lowerModule_isolates`: all of it, and the same outcome in any company.
-/

namespace Resumable

open Resumable.Bound (Procedure)

variable {options : LowerOptions} {p : Procedure} {names' : NameTable} {n : SlotNamer}
  {q : DiagnosticQueue} {d : Diagnostic} {ps : List Procedure}

/-! ### Reasons -/

section

variable {points : List SuspensionPoint} {names : NameTable} {problems : List Problem}

/-- A step that goes on unless it has problems fails for one. -/
theorem ne_nil_of_ite {α : Type} {found : List Problem} {a : α}
    (h : (if found.isEmpty then .ok a else .error found : Except (List Problem) α) =
      .error problems) : problems ≠ [] := by
  split at h
  case isTrue => cases h
  case isFalse hsome => exact Except.error.inj h ▸ mt List.isEmpty_iff.mpr hsome

theorem gather_reason {α : Type} {results : List (Except (List Problem) α)}
    (h : gather results = .error problems) : problems ≠ [] := by
  unfold gather at h
  exact ne_nil_of_ite h

theorem hoist_reason {mode : LivenessMode} (h : (hoist p points mode n).1 = .error problems) :
    problems ≠ [] := by
  unfold hoist at h
  exact ne_nil_of_ite h

theorem layOut_reason {hoisted : List Hoisted} {books : BookkeepingNames}
    (h : (layOut p points hoisted books n).1 = .error problems) : problems ≠ [] := by
  unfold layOut at h
  dsimp only at h
  split at h
  case isTrue =>
    obtain rfl := Except.error.inj h
    exact List.cons_ne_nil _ _
  case isFalse => cases h

theorem segments_reason {l : SlotLayout} (h : segments p points l = .error problems) :
    problems ≠ [] := by
  unfold segments at h
  split at h
  case h_1 =>
    obtain rfl := Except.error.inj h
    exact List.cons_ne_nil _ _
  case h_2 => exact ne_nil_of_ite h

theorem lowerPoints_reason (h : (lowerPoints options p points names).1 = .error problems) :
    problems ≠ [] := by
  unfold lowerPoints at h
  dsimp only at h
  split at h
  case h_1 heq => exact Except.error.inj h ▸ hoist_reason heq
  case h_2 =>
    split at h
    case h_1 heq => exact Except.error.inj h ▸ layOut_reason heq
    case h_2 =>
      split at h
      case h_1 heq => exact Except.error.inj h ▸ segments_reason heq
      case h_2 => cases h

theorem lowerSteps_reason (h : (lowerSteps options p names).1 = .error problems) :
    problems ≠ [] := by
  unfold lowerSteps at h
  dsimp only at h
  split at h
  case isFalse hsome =>
    obtain rfl := Except.error.inj h
    exact mt List.isEmpty_iff.mpr hsome
  case isTrue =>
    split at h
    case h_1 heq => exact Except.error.inj h ▸ gather_reason heq
    case h_2 => exact lowerPoints_reason h

/-- **A procedure fails for a reason.** -/
theorem diagnostics_ne_nil {failure : LowerFailure}
    (h : lowerProcedure options p names = (.error (.failed failure), names')) :
    failure.diagnostics ≠ [] :=
  mt List.map_eq_nil_iff.mp (lowerSteps_reason (steps_of_failed h))

end

/-! ### In turn -/

/-- **The outcomes of procedures that are lowered in turn**, each with the table as the one
before left it, and the table at the end. -/
def lowerEach (options : LowerOptions) (names : NameTable) :
    List Procedure → List (Except LowerError Machine) × NameTable
  | [] => ([], names)
  | p :: rest =>
    let (outcome, names) := lowerProcedure options p names
    let (outcomes, names) := lowerEach options names rest
    (outcome :: outcomes, names)

/-- What an outcome has to report. -/
def reportsOf : Except LowerError Machine → List Diagnostic
  | .error (.failed failure) => failure.diagnostics
  | .error (.oversized _) | .ok _ => []

/-- The list that was too long to be stored. -/
def oversized? : Except LowerError Machine → Option Oversized
  | .error (.oversized list) => some list
  | .error (.failed _) | .ok _ => none

/-- **A module that was put together from outcomes**, with what went to a sink that had some
evidence before. -/
structure Collected {σ : Type} (report : σ → Diagnostic → σ × ErrorReported) (sink : σ)
    (errors : Option ErrorReported) (outcomes : List (Except LowerError Machine))
    (names : NameTable) (m : LoweredModule σ) : Prop where
  /-- The machines of the successes, in order. -/
  machines : m.machines = outcomes.filterMap Except.toOption
  names : m.names = names
  /-- The sink received the reports of the failures, in order. -/
  sink : m.sink = (outcomes.flatMap reportsOf).foldl (fun sink d => (report sink d).1) sink
  /-- There is evidence of an error where a procedure failed. -/
  evidence : m.errors.isSome ↔ errors.isSome ∨ ∃ failure, .error (.failed failure) ∈ outcomes

section

variable {σ : Type} {report : σ → Diagnostic → σ × ErrorReported}

section

variable (sink : σ) (errors : Option ErrorReported) (ds : List Diagnostic)

theorem reportAll_fst :
    (reportAll report sink errors ds).1 =
      ds.foldl (fun sink d => (report sink d).1) sink := by
  induction ds generalizing sink errors with
  | nil => rfl
  | cons d rest ih => exact ih _ _

theorem isSome_reportAll_snd :
    (reportAll report sink errors ds).2.isSome ↔ errors.isSome ∨ ds ≠ [] := by
  induction ds generalizing sink errors with
  | nil => simp [reportAll]
  | cons d rest ih =>
    rw [reportAll, ih]
    simp

end

variable (names : NameTable) (sink : σ) (errors : Option ErrorReported) (ps : List Procedure)

/-- **Lowering a module collects the outcomes** of its procedures, unless one is too
long to be stored. -/
theorem collected_lowerModule
    (h : (lowerEach options names ps).1.findSome? oversized? = none) :
    ∃ m, lowerModule report options names sink errors ps = .ok m ∧
      Collected report sink errors (lowerEach options names ps).1
        (lowerEach options names ps).2 m := by
  induction ps generalizing names sink errors with
  | nil => exact ⟨_, rfl, rfl, rfl, rfl, by simp [lowerEach]⟩
  | cons p rest ih =>
    simp only [lowerEach, List.findSome?_cons] at h ⊢
    unfold lowerModule
    split
    case h_1 machine names' heq =>
      rw [heq] at h ⊢
      obtain ⟨m, hm, hmachines, hnames, hsink, hevidence⟩ := ih names' sink errors h
      refine ⟨{ m with machines := machine :: m.machines }, by rw [hm]; rfl,
        ?_, hnames, hsink, ?_⟩
      · exact congrArg (List.cons machine) hmachines
      · rw [hevidence]
        simp only [List.mem_cons, reduceCtorEq, false_or]
    case h_2 failure names' heq =>
      rw [heq] at h ⊢
      obtain ⟨m, hm, hmachines, hnames, hsink, hevidence⟩ :=
        ih names' (reportAll report sink errors failure.diagnostics).1
          (reportAll report sink errors failure.diagnostics).2 h
      refine ⟨m, hm, hmachines, hnames, ?_, ?_⟩
      · rw [hsink, reportAll_fst, List.flatMap_cons, List.foldl_append]
        rfl
      · have hreason := diagnostics_ne_nil heq
        rw [hevidence, isSome_reportAll_snd]
        exact iff_of_true (.inl (.inr hreason)) (.inr ⟨failure, List.mem_cons_self⟩)
    case h_3 list _ heq =>
      rw [heq] at h
      cases h

/-- A machine that is too long to be stored ends the work. -/
theorem lowerModule_oversized {list : Oversized}
    (h : (lowerEach options names ps).1.findSome? oversized? = some list) :
    lowerModule report options names sink errors ps = .error list := by
  induction ps generalizing names sink errors with
  | nil => cases h
  | cons p rest ih =>
    simp only [lowerEach, List.findSome?_cons] at h
    unfold lowerModule
    split
    case h_1 heq =>
      rw [heq] at h
      rw [ih _ _ _ h]
      rfl
    case h_2 heq =>
      rw [heq] at h
      exact ih _ _ _ h
    case h_3 heq =>
      rw [heq] at h
      exact congrArg Except.error (Option.some.inj h)

end

/-! ### Evidence -/

namespace DiagnosticQueue

/-- **A queue that has kept no error knows of none**, so that it drops none as a repeat. -/
def Candid (q : DiagnosticQueue) : Prop := q.errorCount = 0 → q.seen = []

/-- What an error leaves behind in such a queue. -/
theorem candid_emit (h : q.Candid) (herror : d.isError = true) :
    (q.emit d).1.Candid ∧ 0 < (q.emit d).1.errorCount := by
  have hpos (q : DiagnosticQueue) (hcount : 0 < q.errorCount) : q.Candid ∧ 0 < q.errorCount :=
    ⟨fun hzero => absurd hzero (Nat.ne_of_gt hcount), hcount⟩
  unfold emit report
  rw [if_pos herror]
  split
  case isTrue hlimit =>
    unfold limitReached at hlimit
    simp only [Bool.and_eq_true, decide_eq_true_eq] at hlimit
    exact hpos _ (Nat.lt_of_lt_of_le hlimit.1 hlimit.2)
  case isFalse =>
    split
    case isTrue =>
      split
      case isTrue hseen =>
        refine hpos _ (Nat.pos_of_ne_zero fun hzero => ?_)
        rw [h hzero] at hseen
        cases hseen
      case isFalse => exact hpos _ (Nat.succ_pos _)
    case isFalse => exact hpos _ (Nat.succ_pos _)

theorem errorCount_foldl_emit (h : q.Candid) {ds : List Diagnostic}
    (herrors : ∀ d ∈ ds, d.isError = true) :
    0 < (ds.foldl (fun q d => (q.emit d).1) q).errorCount ↔ 0 < q.errorCount ∨ ds ≠ [] := by
  induction ds generalizing q with
  | nil => simp
  | cons d rest ih =>
    obtain ⟨hd, hrest⟩ := List.forall_mem_cons.mp herrors
    obtain ⟨hcandid, hpos⟩ := candid_emit h hd
    rw [List.foldl_cons, ih hcandid hrest]
    simp [hpos]

end DiagnosticQueue

theorem isError_of_mem_reportsOf {outcome : Except LowerError Machine}
    (h : d ∈ reportsOf outcome) : d.isError = true := by
  unfold reportsOf at h
  split at h
  case h_1 failure _ =>
    obtain ⟨problem, -, rfl⟩ := List.mem_map.mp h
    cases problem <;> rfl
  case h_2 => cases h
  case h_3 => cases h

/-- Procedures that are lowered in turn have something to report exactly where one failed. -/
theorem reports_ne_nil_iff (options : LowerOptions) (names : NameTable)
    (ps : List Procedure) :
    (lowerEach options names ps).1.flatMap reportsOf ≠ [] ↔
      ∃ failure, .error (.failed failure) ∈ (lowerEach options names ps).1 := by
  induction ps generalizing names with
  | nil => simp [lowerEach]
  | cons p rest ih =>
    have hhead : reportsOf (lowerProcedure options p names).1 ≠ [] ↔
        ∃ failure, (lowerProcedure options p names).1 = .error (.failed failure) := by
      constructor
      · intro hsome
        unfold reportsOf at hsome
        split at hsome
        case h_1 failure heq => exact ⟨failure, heq⟩
        case h_2 => exact absurd rfl hsome
        case h_3 => exact absurd rfl hsome
      · rintro ⟨failure, heq⟩
        rw [heq]
        exact diagnostics_ne_nil (Prod.ext heq rfl)
    simp only [lowerEach, List.flatMap_cons, List.mem_cons, ne_eq, List.append_eq_nil_iff,
      not_and_or, exists_or]
    rw [← ne_eq, ← ne_eq, hhead, ih]
    simp only [eq_comm]

/-- **A queue that started empty has kept an error exactly where there is
evidence of one.** -/
theorem evidence_iff_hasErrors {names : NameTable} {config : QueueConfig}
    {m : LoweredModule DiagnosticQueue}
    (h : Collected DiagnosticQueue.emit (.new config) none
      (lowerEach options names ps).1 names' m) :
    m.errors.isSome ↔ m.sink.hasErrors.isSome := by
  have herrors (d : Diagnostic) (hd : d ∈ (lowerEach options names ps).1.flatMap reportsOf) :
    d.isError = true :=
    have ⟨_, _, hmem⟩ := List.mem_flatMap.mp hd
    isError_of_mem_reportsOf hmem
  have hcount :=
    DiagnosticQueue.errorCount_foldl_emit (q := .new config) (fun _ => rfl) herrors
  rw [reports_ne_nil_iff, ← h.sink] at hcount
  rw [h.evidence, DiagnosticQueue.hasErrors, ErrorReported.ofCount?]
  split
  case isTrue hpos => simpa [DiagnosticQueue.new] using hcount.mp hpos
  case isFalse hzero => simpa [DiagnosticQueue.new] using mt hcount.mpr hzero

/-! ### Company -/

theorem precedes_lowerEach (options : LowerOptions) (names : NameTable)
    (ps : List Procedure) : names.Precedes (lowerEach options names ps).2 := by
  induction ps generalizing names with
  | nil => exact .refl names
  | cons p rest ih => exact (precedes_lowerProcedure options p names).trans (ih _)

/-- **The turn of a procedure**: it is lowered with a table that has grown from the first and
grows into the last. -/
theorem exists_turn (options : LowerOptions) (names : NameTable) {i : Nat}
    (h : ps[i]? = some p) :
    ∃ t, names.Precedes t ∧ (lowerProcedure options p t).2.Precedes
      (lowerEach options names ps).2 ∧
      (lowerEach options names ps).1[i]? = some (lowerProcedure options p t).1 := by
  induction ps generalizing names i with
  | nil => cases h
  | cons q rest ih =>
    cases i with
    | zero =>
      obtain rfl := Option.some.inj h
      exact ⟨names, .refl names, precedes_lowerEach options _ rest, rfl⟩
    | succ i =>
      obtain ⟨t, hbefore, hafter, houtcome⟩ := ih (lowerProcedure options q names).2 h
      exact ⟨t, (precedes_lowerProcedure options q names).trans hbefore, hafter, houtcome⟩

/-- A procedure gives the same outcome in any company, with any tables that have grown from
one that knows its names. -/
theorem sameOutcome_of_turns {built names : NameTable} {qs : List Procedure} {i j : Nat}
    (grown : built.Precedes names) (grown' : built.Precedes names')
    (known : ∀ name ∈ p.names, name.index < built.size) (hi : ps[i]? = some p)
    (hj : qs[j]? = some p) :
    ∃ r r', (lowerEach options names ps).1[i]? = some r ∧
      (lowerEach options names' qs).1[j]? = some r' ∧
      SameOutcome (lowerEach options names ps).2 (lowerEach options names' qs).2 r r' := by
  obtain ⟨t, hbefore, hafter, hr⟩ := exists_turn options names hi
  obtain ⟨u, hbefore', hafter', hr'⟩ := exists_turn options names' hj
  have hconcur :=
    NameTable.concur_of_precedes known (grown.trans hbefore) (grown'.trans hbefore')
  exact ⟨_, _, hr, hr', sameOutcome_lowerProcedure hconcur hafter hafter'⟩

/-- **Lowering a module isolates its procedures.**

* For every sink, the module collects the outcomes of its procedures in turn: the machines
  of the successes in order, in the sink the reports of the failures in order, and
  evidence of an error exactly where a procedure failed.  Only a list that is too long to
  be stored ends the work.
* With a queue that started empty, there is evidence exactly where the queue has kept an
  error, whatever it drops.
* The outcome of a procedure is the same in any other list of procedures, at any position, and
  with any table that has grown from the one that the program was built with, once names are
  replaced by their strings. -/
theorem lowerModule_isolates (options : LowerOptions) (names : NameTable)
    (ps : List Procedure) :
    (∀ {σ : Type} (report : σ → Diagnostic → σ × ErrorReported) (sink : σ),
      ((lowerEach options names ps).1.findSome? oversized? = none →
        ∃ m, lowerModule report options names sink none ps = .ok m ∧
          Collected report sink none (lowerEach options names ps).1
            (lowerEach options names ps).2 m) ∧
      ∀ list, (lowerEach options names ps).1.findSome? oversized? = some list →
        lowerModule report options names sink none ps = .error list) ∧
    (∀ (config : QueueConfig) (m : LoweredModule DiagnosticQueue),
      lowerModule DiagnosticQueue.emit options names (.new config) none ps = .ok m →
        (m.errors.isSome ↔ m.sink.hasErrors.isSome)) ∧
    ∀ (built names' : NameTable) (qs : List Procedure) (p : Procedure) (i j : Nat),
      built.Precedes names → built.Precedes names' →
      (∀ name ∈ p.names, name.index < built.size) → ps[i]? = some p → qs[j]? = some p →
        ∃ r r', (lowerEach options names ps).1[i]? = some r ∧
          (lowerEach options names' qs).1[j]? = some r' ∧
          SameOutcome (lowerEach options names ps).2
            (lowerEach options names' qs).2 r r' := by
  refine ⟨fun report sink => ⟨collected_lowerModule names sink none ps, fun list h => ?_⟩,
    fun config m hm => ?_, fun built names' qs p i j grown grown' known hi hj =>
      sameOutcome_of_turns grown grown' known hi hj⟩
  · exact lowerModule_oversized names sink none ps h
  · cases hlong : (lowerEach options names ps).1.findSome? oversized? with
    | some list => cases hm.symm.trans (lowerModule_oversized names _ none ps hlong)
    | none =>
      obtain ⟨m', hm', hcollected⟩ := collected_lowerModule names _ none ps hlong
      obtain rfl := Except.ok.inj (hm.symm.trans hm')
      exact evidence_iff_hasErrors hcollected

/-! ### The relay in different company -/

namespace Relay

/-- A body that is one expression, which cannot be cut. -/
def bare : Procedure where
  name := ⟨5⟩
  params := []
  locals := []
  result := .unit
  cancellation := none
  body := .expr (.unit ⟨.unit, .none⟩)
  span := .none

/-- The machine of the procedure at a position of a list. -/
def machineAt (ps : List Procedure) (i : Nat) : Option Machine :=
  ((lowerEach {} names ps).1[i]?).bind Except.toOption

end Relay

theorem lead_alike_in_company :
    ((Relay.machineAt [Ticker.procedure, Relay.bare, Relay.lead] 2).map fun m =>
      m.dispatch.name.index) ≠
      ((Relay.machineAt [Relay.lead, Ticker.procedure] 0).map fun m =>
        m.dispatch.name.index) ∧
    ∃ r r',
      (lowerEach {} Relay.names [Ticker.procedure, Relay.bare, Relay.lead]).1[2]? = some r ∧
      (lowerEach {} Relay.names [Relay.lead, Ticker.procedure]).1[0]? = some r' ∧
      SameOutcome (lowerEach {} Relay.names [Ticker.procedure, Relay.bare, Relay.lead]).2
        (lowerEach {} Relay.names [Relay.lead, Ticker.procedure]).2 r r' :=
  ⟨by decide +kernel, (lowerModule_isolates
    {} Relay.names [Ticker.procedure, Relay.bare, Relay.lead]).2.2 Relay.names
    Relay.names [Relay.lead, Ticker.procedure] Relay.lead 2 0 (.refl _)
      (.refl _) (by decide) rfl rfl⟩

end Resumable
