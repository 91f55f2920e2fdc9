import Resumable.Number.Decimal
import Resumable.Ty

/-!
# Values

What slots, locals, fields and arguments hold while machines run. Tasks, cancellation tokens
and closures live in the host; a value refers to them by number, which is shown and compared
as a `handle`.
-/

namespace Resumable

/-- An object that owns fields and persistent slots. -/
abbrev InstanceId := Nat

/-- A deferred result. -/
abbrev TaskId := Nat

/-- A cancellation token. -/
abbrev TokenId := Nat

/-- A closure made by a lambda. -/
abbrev ClosureId := Nat

/-- What programs see of the number of a task, a token or a closure: a handle has 32 bits, and
the numbers that it cannot hold share the last handle. -/
def handle (number : Nat) : UInt32 := .ofNatClamp number

/-- A value. -/
inductive Value where
  | unit
  | bool (value : Bool)
  | int (value : Int64)
  | float (value : Float)
  | str (value : String)
  | array (items : List Value)
  | task (id : TaskId)
  | token (id : TokenId)
  | closure (id : ClosureId)

/-- The classes of values. -/
inductive ValueKind where
  | unit
  | bool
  | int
  | float
  | str
  | array
  | task
  | token
  | closure
  deriving DecidableEq, Repr

/-- The word for a class of values in messages. -/
def ValueKind.word : ValueKind → String
  | .unit => "void"
  | .bool => "bool"
  | .int => "int"
  | .float => "float"
  | .str => "string"
  | .array => "array"
  | .task => "task"
  | .token => "cancellation token"
  | .closure => "closure"

namespace Value

instance : Inhabited Value := ⟨.unit⟩

/-- The class of a value. -/
def kind : Value → ValueKind
  | .unit => .unit
  | .bool _ => .bool
  | .int _ => .int
  | .float _ => .float
  | .str _ => .str
  | .array _ => .array
  | .task _ => .task
  | .token _ => .token
  | .closure _ => .closure

/-- What a slot or a local of a type holds at first. -/
def defaultFor : Ty → Value
  | .bool => .bool false
  | .int => .int 0
  | .float => .float 0
  | .str => .str ""
  | .array _ => .array []
  | .unit | .object _ | .deferred _ | .cancellation | .byRef _ | .closure | .foreign _ =>
    .unit

/-- The integer that a value is. -/
def int? : Value → Option Int64
  | .int v => some v
  | _ => none

/-- The number a value stands for; an integer widens. -/
def number? : Value → Option Float
  | .int v => some v.toFloat
  | .float v => some v
  | _ => none

/-- The boolean that a value is. -/
def bool? : Value → Option Bool
  | .bool v => some v
  | _ => none

/-- The task that a value is. -/
def task? : Value → Option TaskId
  | .task id => some id
  | _ => none

mutual

/-- Are two values equal? A float that is no number differs from itself. -/
def same : Value → Value → Bool
  | .unit, .unit => true
  | .bool a, .bool b => a == b
  | .int a, .int b => a == b
  | .float a, .float b => a == b
  | .str a, .str b => a == b
  | .array a, .array b => sameItems a b
  | .task a, .task b => handle a == handle b
  | .token a, .token b => handle a == handle b
  | .closure a, .closure b => handle a == handle b
  | _, _ => false

/-- Are two lists of values equal? -/
def sameItems : List Value → List Value → Bool
  | [], [] => true
  | a :: as, b :: bs => same a b && sameItems as bs
  | _, _ => false

end

mutual

/-- A value as shown in texts. -/
def text : Value → String
  | .unit => "()"
  | .bool v => if v then "true" else "false"
  | .int v => toString v.toInt
  | .float v => floatText v
  | .str v => v
  | .array items => "[" ++ ", ".intercalate (texts items) ++ "]"
  | .task id => s!"<task {handle id}>"
  | .token id => s!"<token {handle id}>"
  | .closure id => s!"<closure {handle id}>"

/-- The texts of values. -/
def texts : List Value → List String
  | [] => []
  | v :: rest => v.text :: texts rest

end

end Value

end Resumable
