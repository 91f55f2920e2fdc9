import Resumable.Operation
import Resumable.Span
import Resumable.Ty

/-!
# Parameters and locals

The declarations that a bound procedure and the machine made from it have in common.
-/

namespace Resumable

/-- A formal parameter, known by its position. -/
structure Param where
  name : Name
  ty : Ty
  span : Span
  deriving DecidableEq, Repr

/-- The declaration of a local variable. A binder numbers locals by their position. -/
structure LocalDecl where
  id : LocalId
  name : Name
  ty : Ty
  span : Span
  deriving DecidableEq, Repr

/-- The static type and the span of an expression. -/
structure ExprInfo where
  ty : Ty
  span : Span
  deriving DecidableEq, Repr, Inhabited

end Resumable
