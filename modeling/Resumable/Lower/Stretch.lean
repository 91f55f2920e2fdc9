import Resumable.Lower.Suspension

/-!
# Stretches

The top-level statements of a body, cut at its suspension points. A stretch has the statements
of one segment; every stretch but the last is closed by a suspension.

A closing point is looked up by the number of its statement. Where a body uses a statement
several times, the lookup finds the last of its points.
-/

namespace Resumable

open Resumable.Bound (Stmt)

/-- The statements of one segment. -/
structure Stretch where
  /-- The point before the stretch. -/
  opening : Option SuspensionPoint
  /-- The statements up to the one that closes the stretch. -/
  stmts : List Stmt
  /-- The point that closes the stretch. -/
  closing : Option SuspensionPoint

/-- The last point with the statement number of `p`. -/
def pointOfStmt (points : List SuspensionPoint) (p : SuspensionPoint) : SuspensionPoint :=
  (points.reverse.find? fun q => q.stmt.id == p.stmt.id).getD p

/-- Cut statements, of which the first has the given position, at the remaining points. -/
def cutFrom (all : List SuspensionPoint) (opening : Option SuspensionPoint) (position : Nat)
    (stmts : List Stmt) : List SuspensionPoint → List Stretch
  | [] => [⟨opening, stmts, none⟩]
  | p :: rest =>
    let plain := p.position - position
    ⟨opening, stmts.take plain, some (pointOfStmt all p)⟩ ::
      cutFrom all (some p) (p.position + 1) (stmts.drop (plain + 1)) rest

/-- Cut the statements of a body at its points. -/
def cut (stmts : List Stmt) (points : List SuspensionPoint) : List Stretch :=
  cutFrom points none 0 stmts points

end Resumable
