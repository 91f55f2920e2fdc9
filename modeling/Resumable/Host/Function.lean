import Resumable.Host.State

/-!
# Functions to register

Simple functions that machines can call.
-/

namespace Resumable.HostFn

/-- Returns nothing. -/
def unit : HostFn := fun _ _ => .ok .unit

/-- Returns the first argument. -/
def firstArg : HostFn := fun _ call => .ok (call.args.head?.getD .unit)

/-- Returns the arguments as an array. -/
def allArgs : HostFn := fun _ call => .ok (.array call.args)

/-- Returns the same value always. -/
def constant (value : Value) : HostFn := fun _ _ => .ok value

/-- Counts its calls. -/
def count : HostFn := fun earlier _ => .ok (.int (.ofNat (earlier.length + 1)))

/-- Returns the number of the instance that calls. -/
def caller : HostFn := fun _ call => .ok (.int (.ofNat call.owner))

/-- Fails with a message, under a name. -/
def failing (name message : String) : HostFn := fun _ _ => .error (.function name message)

end Resumable.HostFn
