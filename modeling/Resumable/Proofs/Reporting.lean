import Mathlib.Data.List.Induction
import Resumable.Diagnostic.Queue
import Resumable.Proofs.Freshness

/-!
# What a diagnostic queue keeps

A queue decides about a report when it comes, from counters and from a set of keys.  What it
has kept in the end can be said **without the queue, from the reports alone**: every
diagnostic that is no error, and of the errors the first ones that do not repeat an earlier
one, as many as the limit allows.  A flush hands this out, with a summary that counts the
errors reported when the limit had been reached, and leaves a new queue.

The limit is looked at before the repeats.  So an error that repeats one that was kept leaves
no trace as long as there is room, and is counted like any other error afterwards.

## Main definitions

* `withoutRepeats`: errors without those that say the same as an earlier one.
* `QueueConfig.admitted`, `QueueConfig.overdue`: the errors to be kept, and the number of
  those that came too late.
* `QueueStep`, `DiagnosticQueue.after`, `sinceFlush`: what is done to a queue, and the reports
  since the last flush.
* `DiagnosticQueue.Keeps`: what a queue has to show for a sequence of reports.

## Main statements

* `DiagnosticQueue.Tracks.report`: one report keeps the counters and the list in
  line with the reports.
* `keeps_after`: a queue keeps exactly what its configuration says.
* `DiagnosticQueue.Tracks.report_repeat`: repeats are dropped, and counted where the
  limit has been reached.
* `flush_insert_repeat_iff`: a repeat that is inserted among reports is invisible exactly
  where there was room.
-/

namespace Resumable

variable {key : ErrorKey} {reports : List Diagnostic} {d : Diagnostic} {q : DiagnosticQueue}

/-! ### The reports alone -/

/-- The errors of a sequence of reports. -/
def errorsOf (reports : List Diagnostic) : List Diagnostic :=
  reports.filter Diagnostic.isError

theorem errorsOf_concat (reports : List Diagnostic) (d : Diagnostic) :
    errorsOf (reports ++ [d]) = errorsOf reports ++ if d.isError then [d] else [] := by
  rw [errorsOf, List.filter_append, errorsOf]
  cases hd : d.isError <;> simp [hd]

/-- **Errors without those that say the same as an earlier one.** -/
def withoutRepeats : List Diagnostic → List Diagnostic
  | [] => []
  | d :: rest => d :: (withoutRepeats rest).filter fun e => e.key ≠ d.key

theorem withoutRepeats_concat (errors : List Diagnostic) (d : Diagnostic) :
    withoutRepeats (errors ++ [d]) =
      withoutRepeats errors ++ if d.key ∈ errors.map Diagnostic.key then [] else [d] := by
  induction errors with
  | nil => rfl
  | cons e rest ih =>
    rw [List.cons_append, withoutRepeats, withoutRepeats, ih,
      List.filter_append, List.cons_append]
    by_cases hkey : d.key = e.key
    · simp only [List.map_cons, List.mem_cons, hkey, true_or, if_true]
      split <;> simp [hkey]
    · simp only [List.map_cons, List.mem_cons, hkey, false_or]
      split <;> simp [hkey]

/-- Every key that occurs is the key of a first occurrence. -/
theorem mem_keys_withoutRepeats (errors : List Diagnostic) :
    key ∈ (withoutRepeats errors).map Diagnostic.key ↔ key ∈ errors.map Diagnostic.key := by
  induction errors using List.reverseRecOn with
  | nil => rfl
  | append_singleton errors d ih =>
    rw [withoutRepeats_concat, List.map_append, List.map_append,
      List.mem_append, List.mem_append, ih]
    split
    case isTrue hmem =>
      simp only [List.map_nil, List.not_mem_nil, or_false, List.map_cons, List.mem_singleton]
      exact ⟨Or.inl, fun h => h.elim id fun heq => heq ▸ hmem⟩
    case isFalse => rfl

namespace QueueConfig

variable (config : QueueConfig)

/-- Does an error say the same as an earlier one, where that counts? -/
def Repeats (errors : List Diagnostic) (d : Diagnostic) : Prop :=
  config.deduplicate = true ∧ d.key ∈ errors.map Diagnostic.key

instance (errors : List Diagnostic) (d : Diagnostic) : Decidable (config.Repeats errors d) :=
  inferInstanceAs (Decidable (_ ∧ _))

/-- The errors that are not left out as repeats. -/
def distinct (errors : List Diagnostic) : List Diagnostic :=
  if config.deduplicate then withoutRepeats errors else errors

/-- **The errors to be kept**: the first ones, as many as the limit allows. -/
def admitted (errors : List Diagnostic) : List Diagnostic :=
  if config.errorLimit = 0 then config.distinct errors else
    (config.distinct errors).take config.errorLimit

/-- Has the limit been reached by these reports? -/
def isFull (reports : List Diagnostic) : Bool :=
  decide (0 < config.errorLimit) && decide
    (config.errorLimit ≤ (config.distinct (errorsOf reports)).length)

/-- **The number of errors that came too late**: those reported when the
limit had been reached. -/
def overdue (reports : List Diagnostic) : Nat :=
  reports.zipIdx.countP fun x => x.1.isError && config.isFull (reports.take x.2)

variable {config} {errors : List Diagnostic}

theorem distinct_concat :
    config.distinct (errors ++ [d]) = config.distinct errors ++ if config.Repeats errors d
      then [] else [d] := by
  unfold distinct Repeats
  by_cases hdedup : config.deduplicate = true
  · simpa only [hdedup, if_true, true_and] using withoutRepeats_concat errors d
  · simp only [hdedup, false_and, if_false, Bool.false_eq_true]

theorem mem_keys_distinct :
    key ∈ (config.distinct errors).map Diagnostic.key ↔ key ∈ errors.map Diagnostic.key := by
  unfold distinct
  split
  · exact mem_keys_withoutRepeats errors
  · rfl

theorem length_lt_of_room (hroom : config.isFull reports = false)
    (hlimit : config.errorLimit ≠ 0) :
    (config.distinct (errorsOf reports)).length < config.errorLimit := by
  simp only [isFull, Bool.and_eq_false_iff, decide_eq_false_iff_not] at hroom
  omega

/-- While there is room, no error is left out but the repeats. -/
theorem admitted_eq_distinct (hroom : config.isFull reports = false) :
    config.admitted (errorsOf reports) = config.distinct (errorsOf reports) := by
  unfold admitted
  split
  case isTrue => rfl
  case isFalse hlimit =>
    exact List.take_of_length_le (Nat.le_of_lt (length_lt_of_room hroom hlimit))

theorem admitted_concat_of_room (hroom : config.isFull reports = false) :
    config.admitted (errorsOf reports ++ [d]) =
      config.admitted (errorsOf reports) ++ if config.Repeats (errorsOf reports) d
        then [] else [d] := by
  rw [admitted_eq_distinct hroom, ← distinct_concat]
  unfold admitted
  split
  case isTrue => rfl
  case isFalse hlimit =>
    have hlt := length_lt_of_room hroom hlimit
    have hone : (if config.Repeats (errorsOf reports) d then [] else [d]).length ≤ 1 := by
      split <;> simp
    refine List.take_of_length_le ?_
    rw [distinct_concat, List.length_append]
    omega

theorem admitted_concat_of_full (hfull : config.isFull reports = true) :
    config.admitted (errorsOf reports ++ [d]) = config.admitted (errorsOf reports) := by
  simp only [isFull, Bool.and_eq_true, decide_eq_true_eq] at hfull
  unfold admitted
  rw [if_neg (by omega), if_neg (by omega), distinct_concat]
  exact List.take_append_of_le_length hfull.2

/-- As many errors are admitted as the limit says exactly where it has been reached. -/
theorem limit_le_length_admitted :
    (decide (0 < config.errorLimit) && decide
      (config.errorLimit ≤ (config.admitted (errorsOf reports)).length)) =
      config.isFull reports := by
  unfold isFull admitted
  split
  case isTrue => rfl
  case isFalse => simp only [List.length_take, Nat.le_min, Nat.le_refl, true_and]

theorem overdue_concat :
    config.overdue (reports ++ [d]) =
      config.overdue reports + if d.isError && config.isFull reports then 1 else 0 := by
  unfold overdue
  rw [List.zipIdx_append, List.countP_append]
  congr 1
  · refine List.countP_congr fun x hx => ?_
    have hlt : x.2 < reports.length := by
      have := List.snd_lt_of_mem_zipIdx hx
      omega
    rw [List.take_append_of_le_length (Nat.le_of_lt hlt)]
  · rw [List.zipIdx_singleton, List.countP_singleton, Nat.zero_add, List.take_left]

end QueueConfig

/-! ### One report -/

/-- What is done to a queue. -/
inductive QueueStep where
  | report (d : Diagnostic)
  | flush

/-- The reports since the last flush, or since the queue was made. -/
def sinceFlush (steps : List QueueStep) : List Diagnostic :=
  steps.foldl (fun reports step => match step with
    | .report d => reports ++ [d]
    | .flush => []) []

namespace DiagnosticQueue

/-- The queue after a step. -/
def step (q : DiagnosticQueue) : QueueStep → DiagnosticQueue
  | .report d => (q.report d).2
  | .flush => q.flush.2

/-- **The queue after a sequence of steps.** -/
def after (q : DiagnosticQueue) (steps : List QueueStep) : DiagnosticQueue :=
  steps.foldl step q

/-- **A queue is in line with the reports**: its list, its counters and its keys say
what the reports say. -/
structure Tracks (config : QueueConfig) (reports : List Diagnostic)
    (q : DiagnosticQueue) : Prop where
  config_eq : q.config = config
  sublist : q.kept.Sublist reports
  others : (q.kept.filter fun d => !d.isError) = reports.filter fun d => !d.isError
  errors : errorsOf q.kept = config.admitted (errorsOf reports)
  count : q.errorCount = (errorsOf q.kept).length
  seen : config.deduplicate = true → ∀ key,
    key ∈ q.seen ↔ key ∈ (errorsOf q.kept).map Diagnostic.key
  suppressed : q.suppressed = config.overdue reports

variable {config : QueueConfig}

theorem Tracks.new (config : QueueConfig) : Tracks config [] (.new config) := by
  refine ⟨rfl, .slnil, rfl, ?_, rfl, fun _ _ => Iff.rfl, rfl⟩
  unfold QueueConfig.admitted QueueConfig.distinct
  split <;> split <;> simp [errorsOf, DiagnosticQueue.new, withoutRepeats]

namespace Tracks

variable (h : Tracks config reports q)

include h

theorem limitReached_eq : q.limitReached = config.isFull reports := by
  unfold limitReached
  rw [h.config_eq, h.count, h.errors, QueueConfig.limit_le_length_admitted]

/-- While there is room, the keys seen are those of all errors reported. -/
theorem mem_seen_iff (hroom : config.isFull reports = false)
    (hdedup : config.deduplicate = true) :
    key ∈ q.seen ↔ key ∈ (errorsOf reports).map Diagnostic.key := by
  rw [h.seen hdedup, h.errors, QueueConfig.admitted_eq_distinct hroom,
    QueueConfig.mem_keys_distinct]

end Tracks

/-- **What a queue does with a report.** -/
inductive Treats (config : QueueConfig) (reports : List Diagnostic) (q : DiagnosticQueue)
    (d : Diagnostic) :
    Bool × DiagnosticQueue → Prop
  /-- What is no error is kept. -/
  | other (harmless : d.isError = false) : Treats config reports q d
    (true, { q with kept := q.kept ++ [d] })
  /-- An error after the limit was reached is counted. -/
  | late (error : d.isError = true) (full : config.isFull reports = true) :
    Treats config reports q d (false, { q with suppressed := q.suppressed + 1 })
  /-- A repeat leaves no trace. -/
  | again (error : d.isError = true) (room : config.isFull reports = false)
    (repeats : config.Repeats (errorsOf reports) d) : Treats config reports q d (false, q)
  /-- Any other error is kept, and its key where repeats are dropped. -/
  | first (error : d.isError = true) (room : config.isFull reports = false)
    (new : ¬ config.Repeats (errorsOf reports) d) (seen : List ErrorKey)
    (noted : config.deduplicate = true → seen = d.key :: q.seen) :
    Treats config reports q d
      (true, { q with seen, errorCount := q.errorCount + 1, kept := q.kept ++ [d] })

namespace Tracks

variable (h : Tracks config reports q)

include h

/-- A queue in line with the reports decides by the reports. -/
theorem treats (d : Diagnostic) : Treats config reports q d (q.report d) := by
  unfold DiagnosticQueue.report
  rw [h.limitReached_eq]
  split
  case isFalse harmless => exact .other (Bool.eq_false_iff.mpr harmless)
  case isTrue error =>
    split
    case isTrue full => exact .late error full
    case isFalse hroom =>
      have room := Bool.eq_false_iff.mpr hroom
      have hconfig := h.config_eq
      split
      case isFalse hdedup =>
        rw [hconfig] at hdedup
        exact .first error room (fun repeats => hdedup repeats.1) _ fun heq =>
          absurd heq hdedup
      case isTrue hdedup =>
        rw [hconfig] at hdedup
        have hseen : d.key ∈ q.seen ↔ d.key ∈ (errorsOf reports).map Diagnostic.key :=
          h.mem_seen_iff room hdedup
        split
        case isTrue hmem => exact .again error room ⟨hdedup, hseen.mp hmem⟩
        case isFalse hmem =>
          exact .first error room (fun repeats => hmem (hseen.mpr repeats.2)) _ fun _ => rfl

/-- **One report keeps the queue in line.** -/
theorem report (d : Diagnostic) : Tracks config (reports ++ [d]) (q.report d).2 := by
  have hkept : (q.kept ++ [d]).Sublist (reports ++ [d]) := h.sublist.append_right [d]
  have hdropped : q.kept.Sublist (reports ++ [d]) :=
    h.sublist.trans (List.sublist_append_left _ _)
  have htreats := h.treats d
  generalize q.report d = r at htreats
  cases htreats with
  | other harmless =>
    refine ⟨h.config_eq, hkept, ?_, ?_, ?_, fun hdedup key => ?_, ?_⟩
    · simp only [List.filter_append, h.others]
    · simp only [errorsOf_concat, harmless, Bool.false_eq_true, if_false,
        List.append_nil, h.errors]
    · simp only [errorsOf_concat, harmless, Bool.false_eq_true, if_false,
        List.append_nil, h.count]
    · simp only [errorsOf_concat, harmless, Bool.false_eq_true, if_false,
        List.append_nil, h.seen hdedup]
    · simp only [QueueConfig.overdue_concat, harmless, Bool.false_and, Bool.false_eq_true,
        if_false, Nat.add_zero, h.suppressed]
  | late error full =>
    refine ⟨h.config_eq, hdropped, ?_, ?_, h.count, h.seen, ?_⟩
    · simp [List.filter_append, h.others, error]
    · rw [errorsOf_concat, error, if_pos rfl, QueueConfig.admitted_concat_of_full full]
      exact h.errors
    · simp [QueueConfig.overdue_concat, error, full, h.suppressed]
  | again error room repeats =>
    refine ⟨h.config_eq, hdropped, ?_, ?_, h.count, h.seen, ?_⟩
    · simp [List.filter_append, h.others, error]
    · rw [errorsOf_concat, error, if_pos rfl, QueueConfig.admitted_concat_of_room room,
        if_pos repeats, List.append_nil]
      exact h.errors
    · simp [QueueConfig.overdue_concat, room, h.suppressed]
  | first error room new seen noted =>
    refine ⟨h.config_eq, hkept, ?_, ?_, ?_, fun hdedup key => ?_, ?_⟩
    · simp only [List.filter_append, h.others]
    · rw [errorsOf_concat, errorsOf_concat, error, if_pos rfl,
        QueueConfig.admitted_concat_of_room room, if_neg new, h.errors]
    · simp [errorsOf_concat, error, h.count]
    · simp [errorsOf_concat, error, noted hdedup, h.seen hdedup, or_comm]
    · simp [QueueConfig.overdue_concat, room, h.suppressed]

end Tracks

/-- **A queue is in line with the reports since its last flush**, whatever was done to it. -/
theorem tracks_after (config : QueueConfig) (steps : List QueueStep) :
    Tracks config (sinceFlush steps) ((new config).after steps) := by
  induction steps using List.reverseRecOn with
  | nil => exact .new config
  | append_singleton steps step ih =>
    rw [after, sinceFlush, List.foldl_append, List.foldl_append]
    cases step with
    | report d => exact ih.report d
    | flush =>
      have hflush : ((new config).after steps).flush.2 = .new config :=
        congrArg new ih.config_eq
      show Tracks config [] ((new config).after steps).flush.2
      rw [hflush]
      exact .new config

/-- **What a queue has to show for a sequence of reports.** -/
structure Keeps (config : QueueConfig) (reports : List Diagnostic)
    (q : DiagnosticQueue) : Prop where
  /-- What is kept was reported, in this order. -/
  inOrder : q.kept.Sublist reports
  /-- All that is no error is kept. -/
  others : (q.kept.filter fun d => !d.isError) = reports.filter fun d => !d.isError
  /-- Of the errors, the first ones that repeat no earlier one are kept. -/
  errors : errorsOf q.kept = config.admitted (errorsOf reports)
  errorCount : q.errorCount = (errorsOf q.kept).length
  /-- A further report is kept if it is no error, or if there is room and it
  repeats no earlier error. -/
  answer : ∀ d, (q.report d).1 = true ↔
    d.isError = true → config.isFull reports = false ∧ ¬ config.Repeats (errorsOf reports) d
  /-- The answer to a report says whether it is kept. -/
  kept : ∀ d, (q.report d).2.kept = q.kept ++ if (q.report d).1 then [d] else []
  /-- A flush hands out what is kept, and counts the errors that came too late. -/
  flushed : ∃ summary : Diagnostic, summary.code.text = "E9002" ∧
    summary.notes = [s!"{config.overdue reports} further error(s) were not reported"] ∧
    q.flush.1 = q.kept ++ if config.overdue reports = 0 then [] else [summary]
  /-- A flush leaves a new queue. -/
  renewed : q.flush.2 = .new config

/-- The invariant gives what is promised of a queue. -/
theorem Tracks.keeps (h : Tracks config reports q) : Keeps config reports q := by
  refine ⟨h.sublist, h.others, h.errors, h.count, fun d => ?_, fun d =>
    ?_, ?_, congrArg DiagnosticQueue.new h.config_eq⟩
  · have htreats := h.treats d
    generalize q.report d = r at htreats ⊢
    cases htreats with
    | other harmless => simp [harmless]
    | late error full => simp [error, full]
    | again error room repeats => simp [error, repeats]
    | first error room new => simp [room, new]
  · have htreats := h.treats d
    generalize q.report d = r at htreats ⊢
    cases htreats with
    | other | first => rfl
    | late | again => exact (List.append_nil _).symm
  · refine ⟨tooManyErrors config.errorLimit (config.overdue reports), rfl, rfl, ?_⟩
    rw [flush, h.suppressed, h.config_eq]
    by_cases hzero : config.overdue reports = 0
    · simp [hzero]
    · rw [if_pos (Nat.pos_of_ne_zero hzero), if_neg hzero]

end DiagnosticQueue

/-- **A queue keeps exactly what its configuration says**, whatever was reported and however
often it was flushed. -/
theorem keeps_after (config : QueueConfig) (steps : List QueueStep) :
    DiagnosticQueue.Keeps config (sinceFlush steps)
      ((DiagnosticQueue.new config).after steps) :=
  (DiagnosticQueue.tracks_after config steps).keeps

/-! ### Repeats -/

namespace DiagnosticQueue

variable {config : QueueConfig}

/-- The queue with one more error counted as dropped by the limit. -/
def tallied (q : DiagnosticQueue) : DiagnosticQueue :=
  { q with suppressed := q.suppressed + 1 }

/-- **An error that says the same as one that was kept** is dropped.  Once the limit has been
reached it counts. -/
theorem Tracks.report_repeat (h : Tracks config reports q)
    (hdedup : config.deduplicate = true) (error : d.isError = true)
    (kept : d.key ∈ (errorsOf q.kept).map Diagnostic.key) :
    q.report d = (false, if q.limitReached then q.tallied else q) := by
  have htreats := h.treats d
  rw [h.limitReached_eq]
  generalize q.report d = r at htreats ⊢
  cases htreats with
  | other harmless =>
    rw [error] at harmless
    cases harmless
  | late _ full =>
    rw [full]
    rfl
  | again _ room =>
    rw [room]
    rfl
  | first _ room new =>
    refine absurd ⟨hdedup, ?_⟩ new
    exact (h.mem_seen_iff room hdedup).mp ((h.seen hdedup _).mpr kept)

theorem report_tallied (q : DiagnosticQueue) (d : Diagnostic) :
    q.tallied.report d = ((q.report d).1, (q.report d).2.tallied) := by
  have hlimit : q.tallied.limitReached = q.limitReached := rfl
  have hconfig : q.tallied.config = q.config := rfl
  have hseen : q.tallied.seen = q.seen := rfl
  unfold report
  rw [hlimit, hconfig, hseen]
  split
  · split
    · rfl
    · split
      · split <;> rfl
      · rfl
  · rfl

/-- What was counted once stays counted: no report depends on the number of dropped errors. -/
theorem after_tallied (q : DiagnosticQueue) (rest : List Diagnostic) :
    q.tallied.after (rest.map .report) = (q.after (rest.map .report)).tallied := by
  induction rest generalizing q with
  | nil => rfl
  | cons d rest ih =>
    have hstep : q.tallied.step (.report d) = (q.step (.report d)).tallied :=
      congrArg Prod.snd (q.report_tallied d)
    exact (congrArg (fun q => after q (rest.map .report)) hstep).trans (ih _)

/-- **One more dropped error shows in what a flush returns.** -/
theorem flush_tallied_ne (q : DiagnosticQueue) : q.tallied.flush.1 ≠ q.flush.1 := by
  intro heq
  have hclosing : (if 0 < q.suppressed + 1 then
    [tooManyErrors q.config.errorLimit (q.suppressed + 1)] else []) =
      if 0 < q.suppressed then [tooManyErrors q.config.errorLimit q.suppressed] else [] :=
    List.append_cancel_left heq
  rw [if_pos (Nat.succ_pos _)] at hclosing
  split at hclosing
  case isFalse => cases hclosing
  case isTrue =>
    have hnotes := congrArg Diagnostic.notes (List.singleton_inj.mp hclosing)
    have hnote := (String.append_left_inj _).mp (List.singleton_inj.mp hnotes)
    exact Nat.succ_ne_self _ (SlotNamer.repr_injective hnote)

end DiagnosticQueue

/-- **A repeat that is inserted among reports** of errors changes what a flush returns exactly
where the limit had been reached before it. -/
theorem flush_insert_repeat_iff {config : QueueConfig} (hdedup : config.deduplicate = true)
    (before : List QueueStep) (error : d.isError = true)
    (kept : d.key ∈ (errorsOf ((DiagnosticQueue.new config).after before).kept).map
      Diagnostic.key)
    (rest : List Diagnostic) :
    ((DiagnosticQueue.new config).after (before ++ .report d :: rest.map .report)).flush.1 =
        ((DiagnosticQueue.new config).after (before ++ rest.map .report)).flush.1 ↔
      ((DiagnosticQueue.new config).after before).limitReached = false := by
  have hrepeat := (DiagnosticQueue.tracks_after config before).report_repeat hdedup error kept
  generalize hq : (DiagnosticQueue.new config).after before = q at hrepeat
  have hwith : (DiagnosticQueue.new config).after (before ++ .report d :: rest.map .report) =
      DiagnosticQueue.after (if q.limitReached then q.tallied else q) (rest.map .report) := by
    have hstep : q.step (.report d) = if q.limitReached then q.tallied else q :=
      congrArg Prod.snd hrepeat
    rw [← hstep, ← hq, DiagnosticQueue.after, List.foldl_append]
    rfl
  have hwithout : (DiagnosticQueue.new config).after (before ++ rest.map .report) =
    q.after (rest.map .report) := by
    rw [← hq, DiagnosticQueue.after, List.foldl_append]
    rfl
  rw [hwith, hwithout]
  cases hlimit : q.limitReached with
  | false => simp
  | true => simpa [DiagnosticQueue.after_tallied] using DiagnosticQueue.flush_tallied_ne _

namespace Twofold

/-- A queue that keeps one error. -/
def config : QueueConfig := ⟨1, true⟩

/-- An error that is reported again and again. -/
def complaint : Diagnostic :=
  (Diagnostic.error .suspendInClosure "closure").withLabel ⟨10, 11⟩ "here"

end Twofold

/-- **A repeat is counted where the limit has been reached**: the one error there is, reported
twice, is shown with a note that says that another one was not. -/
theorem twofold_counted :
    ((DiagnosticQueue.new Twofold.config).after [.report Twofold.complaint]).flush.1 =
      [Twofold.complaint] ∧
      ((DiagnosticQueue.new Twofold.config).after
        [.report Twofold.complaint, .report Twofold.complaint]).flush.1 =
        [Twofold.complaint, tooManyErrors 1 1] := by
  decide +kernel

end Resumable
