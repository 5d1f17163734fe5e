import Inlay.ClassName
import Inlay.Span
import Inlay.Symbol
import Inlay.Variance
import Inlay.Wire.Json

/-!
# Names and places in JSON

The JSON form of class names, variances, spans and the handles of the host.
-/

namespace Inlay

open Wire (Json)

namespace ClassName

/-- The record of a class name. Both parts are kept as they are. -/
def toJson (c : ClassName) : Json :=
  .object [("package", .string c.package), ("relative_name", .string c.relative)]

/-- Reads the record of a class name. -/
def ofJson? (j : Json) : Option ClassName :=
  match j.fields? ["package", "relative_name"] with
  | some [some package, some relative] => do
    return ⟨← package.value.string?, ← relative.value.string?⟩
  | _ => none

end ClassName

namespace Variance

/-- The variant of a variance. -/
def toJson : Variance → Json
  | .invariant => .string "Invariant"
  | .contravariant => .string "In"
  | .covariant => .string "Out"

/-- Reads the variant of a variance. -/
def ofJson? (j : Json) : Option Variance :=
  match j.unit? with
  | some "Invariant" => some .invariant
  | some "In" => some .contravariant
  | some "Out" => some .covariant
  | _ => none

end Variance

namespace Span

/-- The record of a span. -/
def toJson (s : Span) : Json := .object [("start", .word s.start), ("end", .word s.stop)]

/-- Reads the record of a span. -/
def ofJson? (j : Json) : Option Span :=
  match j.fields? ["start", "end"] with
  | some [some start, some stop] => do return ⟨← start.value.word?, ← stop.value.word?⟩
  | _ => none

end Span

namespace Symbol

/-- The record of a symbol. -/
def toJson (s : Symbol) : Json := .object [("name", .string s.name)]

/-- Reads the record of a symbol. -/
def ofJson? (j : Json) : Option Symbol :=
  match j.fields? ["name"] with
  | some [some name] => do return ⟨← name.value.string?⟩
  | _ => none

end Symbol

namespace ArgumentId

/-- The number of an argument. -/
def toJson (a : ArgumentId) : Json := .word a.index

/-- Reads the number of an argument. -/
def ofJson? (j : Json) : Option ArgumentId := do return ⟨← j.word?⟩

end ArgumentId

end Inlay
