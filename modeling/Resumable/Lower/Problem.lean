import Resumable.Diagnostic.Basic
import Resumable.Operation

/-!
# Problems

Why a procedure cannot be lowered. Each step of lowering lists all the problems it finds; a
problem blocks only the procedure it was found in.

## Main definitions

* `Problem`: the causes.
* `Problem.code`, `Problem.span`, `Problem.diagnostic`: how each is reported.
* `LowerFailure`: the problems of one procedure.
-/

namespace Resumable

/-- Unstructured control flow. -/
inductive Jump where
  | goto
  | label
  deriving DecidableEq, Repr

/-- The word for a jump. -/
def Jump.word : Jump → String
  | .goto => "goto"
  | .label => "label"

/-- Statements that need an enclosing loop. -/
inductive LoopControl where
  | breakLoop
  | continueLoop
  deriving DecidableEq, Repr

/-- The word for a loop control. -/
def LoopControl.word : LoopControl → String
  | .breakLoop => "break"
  | .continueLoop => "continue"

/-- Statements with nested blocks. -/
inductive Construct where
  | branch
  | loop
  deriving DecidableEq, Repr

/-- The word for a construct. -/
def Construct.word : Construct → String
  | .branch => "if"
  | .loop => "while"

/-- How many arguments a primitive takes. -/
inductive Arity where
  | none
  | one
  | atLeastOne
  deriving DecidableEq, Repr

/-- The words for an arity. -/
def Arity.word : Arity → String
  | .none => "0"
  | .one => "1"
  | .atLeastOne => "at least 1"

/-- A reason why a procedure cannot be lowered. -/
inductive Problem where
  /-- The body is one expression, so that there is nothing to cut. -/
  | expressionBody (span : Span)
  | suspendInClosure (suspend closure : Span)
  | unstructuredJump (what : Jump) (label : String) (span : Span)
  | strayLoopControl (keyword : LoopControl) (span : Span)
  /-- A return that would skip a later suspension. -/
  | earlyReturn (ret lastSuspend : Span)
  /-- A generator's yield in a procedure that suspends. -/
  | generatorMix (yieldSpan suspend : Span)
  | suspendInControlFlow (suspend : Span) (construct : Construct) (constructSpan : Span)
  /-- A suspension inside a larger expression. -/
  | buriedSuspend (suspend : Span)
  | multipleSuspends (stmt : Span) (count : Nat)
  /-- The cancellation position names no parameter, or one of another type. -/
  | cancellationParam (index : Nat) (span : Span) (found : Option String)
  /-- The operand is neither a primitive nor deferred. -/
  | unrecognizedSuspension (span : Span) (ty : String)
  | primitiveArity (which : Primitive) (expected : Arity) (found : Nat) (span : Span)
  | nonNumericTiming (which : Primitive) (found : String) (span : Span)
  | nonDeferredOperand (which : Primitive) (found : String) (span : Span)
  /-- A value is taken from a suspension that delivers none. -/
  | valuelessDelivery (target : String) (span : Span)
  /-- A value that has to survive a suspension cannot be stored. -/
  | unpersistableSlot (name ty : String) (span : Span)
  /-- A rule of lowering itself is broken. -/
  | internalError (message : String) (span : Span)
  deriving DecidableEq, Repr

namespace Problem

/-- The name of the kind of problem. -/
def kind : Problem → String
  | .expressionBody .. => "ExpressionBody"
  | .suspendInClosure .. => "SuspendInClosure"
  | .unstructuredJump .. => "UnstructuredJump"
  | .strayLoopControl .. => "LoopControlOutsideLoop"
  | .earlyReturn .. => "ReturnBeforeLastSuspension"
  | .generatorMix .. => "GeneratorWithSuspend"
  | .suspendInControlFlow .. => "SuspendInControlFlow"
  | .buriedSuspend .. => "SuspendNotAtStatementLevel"
  | .multipleSuspends .. => "MultipleSuspendsInStatement"
  | .cancellationParam .. => "InvalidCancellationParam"
  | .unrecognizedSuspension .. => "UnrecognizedSuspension"
  | .primitiveArity .. => "PrimitiveArity"
  | .nonNumericTiming .. => "NonNumericTiming"
  | .nonDeferredOperand .. => "NonDeferredJoinOperand"
  | .valuelessDelivery .. => "ValuelessDelivery"
  | .unpersistableSlot .. => "UnpersistableSlot"
  | .internalError .. => "Internal"

/-- The code under which a problem is reported. -/
def code : Problem → ErrorCode
  | .expressionBody .. => .expressionBody
  | .suspendInClosure .. => .suspendInClosure
  | .unstructuredJump .. => .unstructuredJump
  | .strayLoopControl .. => .strayLoopControl
  | .earlyReturn .. => .earlyReturn
  | .generatorMix .. => .generatorMix
  | .suspendInControlFlow .. => .suspendInControlFlow
  | .buriedSuspend .. | .multipleSuspends .. => .suspendPlacement
  | .cancellationParam .. => .cancellationParam
  | .unrecognizedSuspension .. => .unrecognizedSuspension
  | .primitiveArity .. => .primitiveArity
  | .nonNumericTiming .. => .nonNumericTiming
  | .nonDeferredOperand .. => .nonDeferredOperand
  | .valuelessDelivery .. => .valuelessDelivery
  | .unpersistableSlot .. => .unpersistableSlot
  | .internalError .. => .internalError

/-- Where the problem is. -/
def span : Problem → Span
  | .expressionBody s | .unstructuredJump _ _ s | .strayLoopControl _ s
  | .cancellationParam _ s _ | .unrecognizedSuspension s _ | .primitiveArity _ _ _ s
  | .nonNumericTiming _ _ s | .nonDeferredOperand _ _ s | .valuelessDelivery _ s
  | .unpersistableSlot _ _ s | .internalError _ s => s
  | .suspendInClosure s _ | .suspendInControlFlow s _ _ | .buriedSuspend s => s
  | .earlyReturn s _ | .generatorMix s _ | .multipleSuspends s _ => s

/-- What a timing argument has to be. -/
def timingExpectation : Primitive → String
  | .delayFrames => "int"
  | _ => "int or float"

/-- The report of a problem in the named procedure. -/
def diagnostic (procedure : String) (p : Problem) : Diagnostic :=
  let report := Diagnostic.error p.code
  match p with
  | .expressionBody span =>
    report s!"async procedure `{procedure}` has an expression body"
      |>.withLabel span "no statement list to split at suspension points"
      |>.withSuggestion "convert the body to a statement block"
  | .suspendInClosure suspend closure =>
    report "`suspend` inside a closure"
      |>.withLabel suspend "suspends here"
      |>.withContext closure "inside this closure"
      |>.withNote "closures run outside the state machine and cannot be resumed"
      |>.withSuggestion "extract the suspending closure into a named procedure"
  | .unstructuredJump what label span =>
    report s!"`{what.word} {label}` in async procedure `{procedure}`"
      |>.withLabel span "unstructured jump"
      |>.withNote "jumps may cross segment boundaries"
      |>.withSuggestion "restructure with `if`/`while`"
  | .strayLoopControl keyword span =>
    report s!"`{keyword.word}` outside of a loop"
      |>.withLabel span s!"cannot `{keyword.word}` here"
      |>.withSuggestion s!"move the `{keyword.word}` inside a `while` loop"
  | .earlyReturn ret lastSuspend =>
    report "`return` before the last suspension point"
      |>.withLabel ret "returns here"
      |>.withContext lastSuspend "but execution may still suspend here"
      |>.withSuggestion "move the early exit after the final `suspend` or split the procedure"
  | .generatorMix yieldSpan suspend =>
    report s!"`{procedure}` mixes generator `yield return` with `suspend`"
      |>.withLabel yieldSpan "generator yield"
      |>.withContext suspend "suspension"
      |>.withSuggestion "split into two procedures"
  | .suspendInControlFlow suspend construct constructSpan =>
    report s!"`suspend` inside `{construct.word}`"
      |>.withLabel suspend "suspends here"
      |>.withContext constructSpan s!"inside this `{construct.word}`"
      |>.withNote "only top-level statements can end a segment"
      |>.withSuggestion "hoist the suspension to the top level of the body"
  | .buriedSuspend suspend =>
    report "`suspend` must be a whole statement"
      |>.withLabel suspend "nested inside a larger expression"
      |>.withNote
        "supported forms are `suspend E;`, `let x = suspend E;` and `x = suspend E;`"
      |>.withSuggestion "bind the awaited value to a local first"
  | .multipleSuspends stmt count =>
    report s!"{count} suspension points in one statement"
      |>.withLabel stmt "this statement"
      |>.withSuggestion "bind the awaited value to a local first"
  | .cancellationParam index span found =>
    report s!"cancellation handle of `{procedure}` is not a cancellation parameter"
      |>.withLabel span s!"parameter #{index}"
      |>.withSuggestion "declare the handle parameter with the cancellation token type"
      |>.withNote
        (match found with
          | some ty => s!"found type `{ty}`"
          | none => "no parameter at that position")
  | .unrecognizedSuspension span ty =>
    report "cannot suspend on this expression"
      |>.withLabel span s!"has type `{ty}`"
      |>.withNote "expected a scheduling primitive or a call returning a deferred result"
  | .primitiveArity which expected found span =>
    report s!"`{which.word}` takes {expected.word} argument(s) but {found} were supplied"
      |>.withLabel span "wrong number of arguments"
  | .nonNumericTiming which found span =>
    report s!"`{which.word}` expects {timingExpectation which}, found `{found}`"
      |>.withLabel span "timing argument"
  | .nonDeferredOperand which found span =>
    report s!"`{which.word}` operand is not a deferred result"
      |>.withLabel span s!"has type `{found}`"
  | .valuelessDelivery target span =>
    report s!"cannot assign to `{target}`: this suspension produces no value"
      |>.withLabel span "completes without a value"
  | .unpersistableSlot name ty span =>
    report s!"`{name}` must survive a suspension but `{ty}` cannot be stored per instance"
      |>.withLabel span "declared here"
      |>.withSuggestion "copy the value into a storable type before suspending"
  | .internalError message span =>
    report s!"internal lowering error: {message}"
      |>.withLabel span "while lowering this"

end Problem

/-- Why one procedure could not be lowered. -/
structure LowerFailure where
  procedure : String
  problems : List Problem
  deriving DecidableEq, Repr

namespace LowerFailure

/-- The reports of all problems. -/
def diagnostics (f : LowerFailure) : List Diagnostic :=
  f.problems.map (Problem.diagnostic f.procedure)

/-- The failure in one line. -/
def message (f : LowerFailure) : String :=
  s!"cannot lower `{f.procedure}`: {f.problems.length} problem(s)"

end LowerFailure

end Resumable
