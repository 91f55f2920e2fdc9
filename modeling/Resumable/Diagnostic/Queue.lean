import Resumable.Diagnostic.Basic

/-!
# The diagnostic queue

A queue keeps diagnostics in the order of their reports. It keeps a limited number of errors
and drops an error that says the same as one it has kept; other diagnostics are always kept.

## Main definitions

* `DiagnosticQueue.report`: offer a diagnostic.
* `DiagnosticQueue.flush`: take what was kept, with a closing summary when the limit dropped
  errors.
-/

namespace Resumable

/-- What a queue keeps. -/
structure QueueConfig where
  /-- The most errors kept; zero stands for no limit. -/
  errorLimit : Nat
  /-- Drop an error equal in code, place and message to one kept. -/
  deduplicate : Bool
  deriving DecidableEq, Repr

namespace QueueConfig

/-- Twenty errors, without repeats. -/
def standard : QueueConfig := ⟨20, true⟩

/-- Everything. -/
def unlimited : QueueConfig := ⟨0, false⟩

end QueueConfig

/-- What makes two errors say the same. -/
structure ErrorKey where
  code : ErrorCode
  place : Option Span
  message : String
  deriving DecidableEq, Repr

/-- The key of a diagnostic. -/
def Diagnostic.key (d : Diagnostic) : ErrorKey := ⟨d.code, d.primarySpan, d.message⟩

/-- Diagnostics kept so far. -/
structure DiagnosticQueue where
  config : QueueConfig
  kept : List Diagnostic
  /-- Keys of the errors kept, where repeats are dropped. -/
  seen : List ErrorKey
  errorCount : Nat
  /-- Errors dropped because of the limit. -/
  suppressed : Nat
  deriving DecidableEq, Repr

/-- The summary of errors that the limit dropped. -/
def tooManyErrors (limit suppressed : Nat) : Diagnostic :=
  (Diagnostic.error .tooManyErrors s!"stopped after {limit} errors")
    |>.withNote s!"{suppressed} further error(s) were not reported"
    |>.withSuggestion "raise `DiagnosticConfig::error_limit` to see them"

/-- Evidence that an error was reported. -/
inductive ErrorReported where
  | evidence
  deriving DecidableEq, Repr

namespace ErrorReported

/-- The evidence as shown. -/
def text (_ : ErrorReported) : String := "error(s) emitted"

/-- Evidence from a number of errors. -/
def ofCount? (count : Nat) : Option ErrorReported :=
  if 0 < count then some .evidence else none

end ErrorReported

namespace DiagnosticQueue

/-- A queue that has kept nothing. -/
def new (config : QueueConfig) : DiagnosticQueue := ⟨config, [], [], 0, 0⟩

/-- Has the queue as many errors as it keeps? -/
def limitReached (q : DiagnosticQueue) : Bool :=
  decide (0 < q.config.errorLimit) && decide (q.config.errorLimit ≤ q.errorCount)

/-- Evidence that the queue has kept an error. -/
def hasErrors (q : DiagnosticQueue) : Option ErrorReported :=
  ErrorReported.ofCount? q.errorCount

/-- Offer a diagnostic, and learn whether it was kept. -/
def report (q : DiagnosticQueue) (d : Diagnostic) : Bool × DiagnosticQueue :=
  if d.isError then
    if q.limitReached then
      (false, { q with suppressed := q.suppressed + 1 })
    else if q.config.deduplicate then
      if d.key ∈ q.seen then (false, q)
      else
        (true, { q with seen := d.key :: q.seen, errorCount := q.errorCount + 1,
                        kept := q.kept ++ [d] })
    else (true, { q with errorCount := q.errorCount + 1, kept := q.kept ++ [d] })
  else (true, { q with kept := q.kept ++ [d] })

/-- Offer an error, and have evidence of it whether or not it was kept. -/
def emit (q : DiagnosticQueue) (d : Diagnostic) : DiagnosticQueue × ErrorReported :=
  ((q.report d).2, .evidence)

/-- Take what was kept and start again. -/
def flush (q : DiagnosticQueue) : List Diagnostic × DiagnosticQueue :=
  (q.kept ++
      (if 0 < q.suppressed then [tooManyErrors q.config.errorLimit q.suppressed] else []),
    new q.config)

end DiagnosticQueue

end Resumable
