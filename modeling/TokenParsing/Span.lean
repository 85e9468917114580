/-!
# Spans

A span is a half-open range of positions. Positions count tokens from the origin of the input, so the spans of a
character stream count characters, whatever the number of bytes behind each of them.
-/

namespace TokenParsing

/-- The positions `i` with `start ≤ i < stop`. -/
structure Span where
  /-- The first position covered. -/
  start : Nat
  /-- The first position no longer covered. -/
  stop : Nat
  deriving DecidableEq, Repr

namespace Span

/-- The default span covers nothing, at the origin. -/
instance : Inhabited Span := ⟨⟨0, 0⟩⟩

/-- The span of the one token at a position. -/
def single (position : Nat) : Span :=
  ⟨position, position + 1⟩

/-- The number of positions covered. -/
def length (s : Span) : Nat :=
  s.stop - s.start

/-- Whether the span covers no position. -/
def isEmpty (s : Span) : Bool :=
  s.start == s.stop

/-- Whether `t` lies entirely within `s`, the two bounds included. -/
def contains (s t : Span) : Bool :=
  s.start ≤ t.start && t.stop ≤ s.stop

/-- The smallest span that covers both. -/
def merge (s t : Span) : Span :=
  ⟨min s.start t.start, max s.stop t.stop⟩

/-- The span moved `distance` positions away from the origin. -/
def shift (distance : Nat) (s : Span) : Span :=
  ⟨s.start + distance, s.stop + distance⟩

/-- The written form `start:stop`. -/
def render (s : Span) : String :=
  toString s.start ++ ":" ++ toString s.stop

instance : ToString Span := ⟨render⟩

end Span

end TokenParsing
