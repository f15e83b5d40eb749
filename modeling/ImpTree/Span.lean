/-!
# Spans

A span is a half-open range of byte offsets in the text that a tree was read from.  Nodes that were
built without a text carry the empty span at zero.

* `Span.cover` — the smallest span that covers two others.
* `Span.isNowhere` — does the span say nothing about a place in a text?
* `Span.text` — the form `start..stop` used in diagnostics.
-/

namespace ImpTree

/-- A half-open range of byte offsets. -/
structure Span where
  /-- The offset of the first byte. -/
  start : UInt64
  /-- The offset after the last byte. -/
  stop : UInt64
  deriving DecidableEq, Inhabited

namespace Span

/-- The span of a node that belongs to no text. -/
def nowhere : Span := ⟨0, 0⟩

/-- The smallest span that covers both. -/
def cover (a b : Span) : Span := ⟨min a.start b.start, max a.stop b.stop⟩

/-- Only the empty range at zero says nothing about a place. -/
def isNowhere (s : Span) : Bool := s.start == 0 && s.stop == 0

/-- The two offsets in decimal with two dots between them. -/
def text (s : Span) : String := s!"{s.start.toNat}..{s.stop.toNat}"

end Span

end ImpTree
