import Resumable.Name

/-!
# Static types

The types that a binder assigns to expressions, parameters and locals. Lowering asks three
questions of them: is this a deferred result, is this a cancellation handle, and can a value
of this type be stored per instance.
-/

namespace Resumable

/-- A static type. -/
inductive Ty where
  | unit
  | bool
  | int
  | float
  | str
  /-- An instance of a named type. -/
  | object (name : Name)
  | array (elem : Ty)
  /-- The result of a procedure that completes later. -/
  | deferred (output : Ty)
  /-- A cancellation handle. -/
  | cancellation
  /-- A reference to a variable. -/
  | byRef (target : Ty)
  | closure
  /-- A named type about which nothing is known. -/
  | foreign (name : Name)
  deriving DecidableEq, Repr, Inhabited

namespace Ty

/-- The type delivered by a deferred result. -/
def output? : Ty → Option Ty
  | .deferred t => some t
  | _ => none

/-- Is this a deferred result? -/
def isDeferred : Ty → Bool
  | .deferred _ => true
  | _ => false

/-- Is this a number type? -/
def isNumeric : Ty → Bool
  | .int | .float => true
  | _ => false

/-- Can a value of this type be stored per instance, across a suspension? -/
def isPersistable : Ty → Bool
  | .unit | .bool | .int | .float | .str | .object _ | .deferred _ | .cancellation => true
  | .array elem => elem.isPersistable
  | .byRef _ | .closure | .foreign _ => false

/-- The type as shown in messages. -/
def text (names : NameTable) : Ty → String
  | .unit => "void"
  | .bool => "bool"
  | .int => "int"
  | .float => "float"
  | .str => "string"
  | .object name | .foreign name => names.lookup name
  | .array elem => elem.text names ++ "[]"
  | .deferred output => "Deferred<" ++ output.text names ++ ">"
  | .cancellation => "CancellationToken"
  | .byRef target => "ref " ++ target.text names
  | .closure => "<closure>"

end Ty

end Resumable
