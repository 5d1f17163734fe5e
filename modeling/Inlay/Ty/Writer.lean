import Inlay.Ty.Basic

/-!
# Writing types

One walk over a type serves every destination. A destination is a state that takes plain text and
class names (`Writer`): a string that only grows, a log of the calls, or a hint under construction
whose class names can be followed to their definition.

* `Ty.write`: the walk.
* `Ty.render`: the text of a type.
* `Ty.calls`: the calls the walk makes, in order.
-/

namespace Inlay

/-! ## Destinations -/

/-- A state to which text can be appended. The name of a class is plain text unless the destination
keeps track of classes. -/
class Writer (σ : Type) where
  text : String → σ → σ
  className : ClassName → String → σ → σ := fun _ shown => text shown

/-- A string grows by what is written to it. -/
instance : Writer String where
  text s w := w ++ s

/-- One call on a destination. A class name comes with the text that shows it. -/
inductive Call where
  | text (s : String)
  | className (name : ClassName) (shown : String)
deriving DecidableEq, Repr

/-- A log of calls. -/
instance : Writer (Array Call) where
  text s log := log.push (.text s)
  className name shown log := log.push (.className name shown)

namespace Writer

variable {σ : Type} [Writer σ]

/-- Performs one call. -/
def perform (w : σ) : Call → σ
  | .text s => text s w
  | .className name shown => className name shown w

/-- Writes items one after the other with a separator between them. -/
def separated (sep : String) : List (σ → σ) → σ → σ
  | [], w => w
  | f :: fs, w => fs.foldl (fun w g => g (text sep w)) (f w)

@[simp] theorem separated_nil (sep : String) (w : σ) : separated sep [] w = w := rfl

@[simp] theorem separated_singleton (sep : String) (f : σ → σ) (w : σ) :
    separated sep [f] w = f w := rfl

theorem separated_cons_cons (sep : String) (f g : σ → σ) (fs : List (σ → σ)) (w : σ) :
    separated sep (f :: g :: fs) w = separated sep (g :: fs) (text sep (f w)) := rfl

/-- Writes type arguments in angle brackets, and nothing if there are none. -/
def angled : List (σ → σ) → σ → σ
  | [], w => w
  | fs, w => w |> text "<" |> separated ", " fs |> text ">"

/-- Writes the name of a class in the given form, or a placeholder for a missing name. -/
def name (form : NameForm) : Option ClassName → σ → σ
  | some c => className c (c.text form)
  | none => text placeholder

end Writer

/-! ## The walk -/

open Writer (text separated angled)

mutual

/-- Writes a type, with a question mark after it if it is nullable. -/
def Ty.write {σ : Type} [Writer σ] (form : NameForm) : Ty → σ → σ
  | ⟨s, false⟩, w => s.write form w
  | ⟨s, true⟩, w => w |> s.write form |> text "?"
termination_by structural t => t

/-- Writes a shape. -/
def Shape.write {σ : Type} [Writer σ] (form : NameForm) : Shape → σ → σ
  | .named c as, w => w |> Writer.name form c |> angled (Projection.writers form as)
  | .function r ps t, w =>
    w |> Ty.writeReceiver form r |> text "(" |> separated ", " (Ty.writers form ps)
      |> text (if ps.isEmpty then "-> " else " -> ") |> t.write form |> text ")"
  | .intersection ts, w => separated " & " (Ty.writers form ts) w
  | .flexible l u, w => w |> l.write form |> text " .. " |> u.write form
  | .nonNull t, w => w |> t.write form |> text " & Any"
  | .captured p, w => p.write form w
  | .parameter n, w => text n w
  | .error, w => text placeholder w
termination_by structural s => s

/-- Writes a projection: a star, or a type after the keyword of its variance. -/
def Projection.write {σ : Type} [Writer σ] (form : NameForm) : Projection → σ → σ
  | .star, w => text "*" w
  | .argument .invariant t, w => t.write form w
  | .argument v t, w => w |> text v.keyword |> text " " |> t.write form
termination_by structural p => p

/-- Writes the receiver of a function type and the dot after it. -/
def Ty.writeReceiver {σ : Type} [Writer σ] (form : NameForm) : Option Ty → σ → σ
  | none, w => w
  | some t, w => w |> t.write form |> text "."
termination_by structural t => t

/-- What writes each of the types. -/
def Ty.writers {σ : Type} [Writer σ] (form : NameForm) : List Ty → List (σ → σ)
  | [] => []
  | t :: ts => t.write form :: Ty.writers form ts
termination_by structural ts => ts

/-- What writes each of the projections. -/
def Projection.writers {σ : Type} [Writer σ] (form : NameForm) : List Projection → List (σ → σ)
  | [] => []
  | p :: ps => p.write form :: Projection.writers form ps
termination_by structural ps => ps

end

namespace Ty

/-- The text of a type with class names in the given form. -/
def render (form : NameForm) (t : Ty) : String := t.write form ""

/-- The calls that writing a type makes. -/
def calls (form : NameForm) (t : Ty) : List Call := (t.write form (#[] : Array Call)).toList

variable {σ : Type} [Writer σ]

/-- The writers of a list are those of its members. -/
theorem writers_eq_map (form : NameForm) (ts : List Ty) :
    (Ty.writers form ts : List (σ → σ)) = ts.map (Ty.write form) := by
  induction ts with
  | nil => rfl
  | cons t ts ih => rw [Ty.writers, ih, List.map_cons]

end Ty

/-- The writers of a list are those of its members. -/
theorem Projection.writers_eq_map {σ : Type} [Writer σ] (form : NameForm) (ps : List Projection) :
    (Projection.writers form ps : List (σ → σ)) = ps.map (Projection.write form) := by
  induction ps with
  | nil => rfl
  | cons p ps ih => rw [Projection.writers, ih, List.map_cons]

end Inlay
