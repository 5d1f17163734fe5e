import Inlay.ClassName

/-!
# Hints

A hint is a short text shown next to a place in a source text. Its text is a list of segments, and
a segment that names a class can lead to the definition of that class.
-/

namespace Inlay

/-- A run of hint text. It may lead to a class, given by its qualified name. -/
structure Segment where
  text : String
  target : Option String
deriving DecidableEq, Repr

namespace Segment

/-- Text that leads nowhere. -/
def plain (text : String) : Segment := ⟨text, none⟩

/-- Text that leads to the class with the given qualified name. -/
def link (text target : String) : Segment := ⟨text, some target⟩

end Segment

/-- The side of the reported ranges on which a hint stands. -/
inductive Side where
  | before
  | after
deriving DecidableEq, Repr

/-- A text at a byte offset, which lies on the given side of the reported ranges. -/
structure Hint where
  offset : UInt32
  side : Side
  segments : List Segment
deriving DecidableEq, Repr

namespace Hint

/-- A hint in front of an offset. -/
def before (offset : UInt32) (segments : List Segment) : Hint := ⟨offset, .before, segments⟩

/-- A hint behind an offset. -/
def after (offset : UInt32) (segments : List Segment) : Hint := ⟨offset, .after, segments⟩

/-- The whole text of a hint. -/
def text (h : Hint) : String := String.join (h.segments.map (·.text))

end Hint

end Inlay
