/-!
# Source spans

A span is a half-open range of offsets into the source text. Every node of a bound procedure
carries one, and every diagnostic points at one.

## Main definitions

* `Span`: the range.
* `Span.merge`: the smallest span that covers two others.
* `Span.covers`: containment of spans, the order in which nested nodes stand.
-/

namespace Resumable

/-- A half-open range of source offsets. -/
structure Span where
  start : Nat
  stop : Nat
  deriving DecidableEq, Repr, Inhabited

namespace Span

/-- The span of nodes that no source text stands behind. -/
def none : Span := ⟨0, 0⟩

/-- The empty span at an offset. -/
def point (offset : Nat) : Span := ⟨offset, offset⟩

/-- Number of offsets in the span. -/
def length (s : Span) : Nat := s.stop - s.start

/-- Does the span hold no offset? -/
def isEmpty (s : Span) : Bool := s.start == s.stop

/-- Is the offset in the span? The end is excluded. -/
def contains (s : Span) (offset : Nat) : Bool :=
  decide (s.start ≤ offset) && decide (offset < s.stop)

/-- Does `s` contain the whole of `t`? -/
def covers (s t : Span) : Bool :=
  decide (s.start ≤ t.start) && decide (t.stop ≤ s.stop)

/-- The smallest span that covers both. -/
def merge (s t : Span) : Span := ⟨min s.start t.start, max s.stop t.stop⟩

/-- Spans are ordered by their start, then by their end. -/
instance : Ord Span where
  compare s t := (compare s.start t.start).then (compare s.stop t.stop)

/-- The span as shown in messages. -/
def text (s : Span) : String := s!"{s.start}..{s.stop}"

theorem covers_iff {s t : Span} :
    s.covers t = true ↔ s.start ≤ t.start ∧ t.stop ≤ s.stop := by
  simp [covers]

end Span

end Resumable
