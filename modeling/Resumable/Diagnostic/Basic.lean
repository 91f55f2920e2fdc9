import Resumable.Span

/-!
# Diagnostics

A diagnostic is a code, a severity, a message, labelled spans, notes and hints. The first
digit of a code tells which part of lowering reported it.
-/

namespace Resumable

/-- What a diagnostic is about. -/
inductive ErrorCode where
  | expressionBody
  | suspendInClosure
  | unstructuredJump
  | strayLoopControl
  | earlyReturn
  | generatorMix
  | suspendInControlFlow
  | suspendPlacement
  | cancellationParam
  | unrecognizedSuspension
  | primitiveArity
  | nonNumericTiming
  | nonDeferredOperand
  | valuelessDelivery
  | unpersistableSlot
  | internalError
  | tooManyErrors
  deriving DecidableEq, Repr

/-- The part of lowering that a code belongs to. -/
inductive Phase where
  | structural
  | classification
  | storage
  | internal
  deriving DecidableEq, Repr

/-- The word for a phase. -/
def Phase.word : Phase → String
  | .structural => "Structural"
  | .classification => "Classification"
  | .storage => "Storage"
  | .internal => "Internal"

namespace ErrorCode

/-- The code as shown. -/
def text : ErrorCode → String
  | .expressionBody => "E1001"
  | .suspendInClosure => "E1002"
  | .unstructuredJump => "E1003"
  | .strayLoopControl => "E1004"
  | .earlyReturn => "E1005"
  | .generatorMix => "E1006"
  | .suspendInControlFlow => "E1007"
  | .suspendPlacement => "E1008"
  | .cancellationParam => "E1009"
  | .unrecognizedSuspension => "E2001"
  | .primitiveArity => "E2002"
  | .nonNumericTiming => "E2003"
  | .nonDeferredOperand => "E2004"
  | .valuelessDelivery => "E2005"
  | .unpersistableSlot => "E3001"
  | .internalError => "E9001"
  | .tooManyErrors => "E9002"

/-- Every code, in the order of their numbers. -/
def all : List ErrorCode :=
  [.expressionBody, .suspendInClosure, .unstructuredJump, .strayLoopControl, .earlyReturn,
    .generatorMix, .suspendInControlFlow, .suspendPlacement, .cancellationParam,
    .unrecognizedSuspension, .primitiveArity, .nonNumericTiming, .nonDeferredOperand,
    .valuelessDelivery, .unpersistableSlot, .internalError, .tooManyErrors]

/-- The part of lowering that reports this code. -/
def phase : ErrorCode → Phase
  | .expressionBody | .suspendInClosure | .unstructuredJump | .strayLoopControl | .earlyReturn
  | .generatorMix | .suspendInControlFlow | .suspendPlacement | .cancellationParam =>
    .structural
  | .unrecognizedSuspension | .primitiveArity | .nonNumericTiming | .nonDeferredOperand
  | .valuelessDelivery => .classification
  | .unpersistableSlot => .storage
  | .internalError | .tooManyErrors => .internal

/-- Is the shape of the procedure at fault? -/
def isStructural (c : ErrorCode) : Bool := c.phase == .structural

end ErrorCode

/-- How bad it is. -/
inductive Severity where
  | error
  | warning
  | note
  deriving DecidableEq, Repr

/-- The word for a severity. -/
def Severity.word : Severity → String
  | .error => "error"
  | .warning => "warning"
  | .note => "note"

/-- A span with a message: the place itself, or related context. -/
structure Label where
  span : Span
  message : String
  isPrimary : Bool
  deriving DecidableEq, Repr

/-- A label as shown, on a line of its own. -/
def Label.text (l : Label) : String :=
  let marker := if l.isPrimary then "-->" else "   "
  s!"\n  {marker} {l.span.text}: {l.message}"

/-- A report to the user. -/
structure Diagnostic where
  code : ErrorCode
  severity : Severity
  message : String
  labels : List Label
  notes : List String
  suggestions : List String
  deriving DecidableEq, Repr

namespace Diagnostic

/-- An error with nothing but a message. -/
def error (code : ErrorCode) (message : String) : Diagnostic :=
  ⟨code, .error, message, [], [], []⟩

/-- Add the place itself. -/
def withLabel (d : Diagnostic) (span : Span) (message : String) : Diagnostic :=
  { d with labels := d.labels ++ [⟨span, message, true⟩] }

/-- Add related context. -/
def withContext (d : Diagnostic) (span : Span) (message : String) : Diagnostic :=
  { d with labels := d.labels ++ [⟨span, message, false⟩] }

/-- Add a note. -/
def withNote (d : Diagnostic) (note : String) : Diagnostic :=
  { d with notes := d.notes ++ [note] }

/-- Add a hint. -/
def withSuggestion (d : Diagnostic) (hint : String) : Diagnostic :=
  { d with suggestions := d.suggestions ++ [hint] }

/-- The first place the diagnostic points at. -/
def primarySpan (d : Diagnostic) : Option Span :=
  (d.labels.find? Label.isPrimary).map Label.span

/-- Is this an error? -/
def isError (d : Diagnostic) : Bool := d.severity == .error

/-- The diagnostic as shown. -/
def text (d : Diagnostic) : String :=
  s!"{d.severity.word} [{d.code.text}]: {d.message}" ++
    String.join (d.labels.map Label.text) ++
    String.join (d.notes.map ("\n  = note: " ++ ·)) ++
    String.join (d.suggestions.map ("\n  = help: " ++ ·))

end Diagnostic

end Resumable
