import Inlay.Hint.Basic
import Inlay.Wire.Json

/-!
# Hints in JSON

The JSON form of hints, their sides and their segments. The target of a link is a record of its own.
-/

namespace Inlay

open Wire (Json)

namespace Side

/-- The variant of a side. -/
def toJson : Side → Json
  | .before => .string "Before"
  | .after => .string "After"

/-- Reads the variant of a side. -/
def ofJson? (j : Json) : Option Side :=
  match j.unit? with
  | some "Before" => some .before
  | some "After" => some .after
  | _ => none

end Side

namespace Segment

/-- The record of the target of a link. -/
def targetToJson (target : String) : Json := .object [("fq_name", .string target)]

/-- Reads the record of the target of a link. -/
def targetOfJson? (j : Json) : Option String :=
  match j.fields? ["fq_name"] with
  | some [some name] => name.value.string?
  | _ => none

/-- The record of a segment. -/
def toJson (s : Segment) : Json :=
  .object [("text", .string s.text), ("navigation", Json.optional targetToJson s.target)]

/-- Reads the record of a segment; without a target it is plain. -/
def ofJson? (j : Json) : Option Segment :=
  match j.fields? ["text", "navigation"] with
  | some [some text, target] => do
    return ⟨← text.value.string?, ← Json.optional? (fun p => targetOfJson? p.value) target⟩
  | _ => none

end Segment

namespace Hint

/-- The record of a hint. -/
def toJson (h : Hint) : Json :=
  .object [("offset", .word h.offset), ("anchor", h.side.toJson),
    ("segments", .array (h.segments.map Segment.toJson))]

/-- Reads the record of a hint. -/
def ofJson? (j : Json) : Option Hint :=
  match j.fields? ["offset", "anchor", "segments"] with
  | some [some offset, some side, some segments] => do
    return ⟨← offset.value.word?, ← Side.ofJson? side.value,
      ← (← segments.items?).mapM fun p => Segment.ofJson? p.value⟩
  | _ => none

end Hint

end Inlay
