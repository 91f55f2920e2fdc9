import Resumable.Number.Double
import Resumable.Signature

/-!
# Listings

A listing shows a tree with one line per node, in preorder, each line with its depth. This
module has the line and the words for leaves that bound and lowered trees share.
-/

namespace Resumable

/-- One line of a listing. -/
structure Line where
  depth : Nat
  text : String
  deriving DecidableEq, Repr

/-- The line with its depth in front. -/
def Line.render (l : Line) : String := s!"{l.depth} {l.text}"

/-- The hexadecimal digits of a number, most significant first, padded with zeros. -/
def hexDigits (width n : Nat) : String :=
  let digits := Nat.toDigits 16 n
  String.ofList (List.replicate (width - digits.length) '0' ++ digits)

/-- The bits of a float as sixteen hexadecimal digits; all bits that encode no number look the
same. -/
def bitsText (bits : UInt64) : String :=
  if isNaNBits bits then "nan" else hexDigits 16 bits.toNat

/-- The type and span that close the line of an expression. -/
def ExprInfo.text (names : NameTable) (info : ExprInfo) : String :=
  " :" ++ info.ty.text names ++ " @" ++ info.span.text

/-- Slot numbers in brackets, without blanks. -/
def slotList (slots : List Nat) : String :=
  "[" ++ ",".intercalate (slots.map toString) ++ "]"

end Resumable
