/-!
# Spans of source text

A span is a half-open range of byte offsets into the UTF-8 form of a source text. The spans
that the lexer and the parser make never run backwards; a span built by hand may, and is then
kept as it is until it takes part in a `merge`.
-/

namespace BlockScript

/-- The bytes from `start` up to, and not including, `stop`. -/
structure Span where
  start : Nat
  stop : Nat
  deriving DecidableEq, Repr, Inhabited

namespace Span

/-- The span between two offsets; a `stop` that precedes `start` is moved up to it. -/
def between (start stop : Nat) : Span := ⟨start, max start stop⟩

/-- The empty span at `offset`. -/
def point (offset : Nat) : Span := ⟨offset, offset⟩

/-- Width in bytes; zero when the span runs backwards. -/
def length (span : Span) : Nat := span.stop - span.start

/-- Whether the span holds no byte. -/
def isEmpty (span : Span) : Bool := span.stop ≤ span.start

/-- The smallest span that covers both. -/
def merge (left right : Span) : Span :=
  between (min left.start right.start) (max left.stop right.stop)

/-- The span moved `distance` bytes further into the text. -/
def shift (span : Span) (distance : Nat) : Span :=
  ⟨span.start + distance, span.stop + distance⟩

end Span

end BlockScript
