/-!
# Spans

Half-open ranges of byte offsets in a source text, and the two offsets at which a hint about a
list of ranges can stand: before the first range or after the last one.
-/

namespace Inlay

/-- The byte offsets from `start` up to but not including `stop`. -/
structure Span where
  start : UInt32
  stop : UInt32
deriving DecidableEq, Repr

namespace Span

/-- The empty range at the beginning of a text. -/
instance : Inhabited Span := ⟨⟨0, 0⟩⟩

/-- The two offsets with two dots between them. -/
def describe (s : Span) : String := toString s.start.toNat ++ ".." ++ toString s.stop.toNat

/-- The offset just before the ranges: the start of the first. -/
def before? (ranges : List Span) : Option UInt32 := ranges.head?.map (·.start)

/-- The offset just after the ranges: the end of the last. -/
def after? (ranges : List Span) : Option UInt32 := ranges.getLast?.map (·.stop)

@[simp] theorem before?_eq_none_iff {ranges : List Span} : before? ranges = none ↔ ranges = [] := by
  simp [before?]

@[simp] theorem after?_eq_none_iff {ranges : List Span} : after? ranges = none ↔ ranges = [] := by
  simp [after?]

end Span

end Inlay
