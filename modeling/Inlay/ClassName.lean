import Inlay.Text.Dotted
import Inlay.Text.Uppercase

/-!
# Class names

A class is identified by its package and its name relative to that package. The relative name keeps
the nesting (`Map.Entry`), so that the short form of a nested class still shows the outer class.

Names are read from their dotted form by `ClassName.parse`: the package ends before the first
segment that starts with an uppercase character, and before the last segment if there is none.
The reader takes the set of uppercase characters as a parameter (`ClassName.parseWith`), since
nothing about it depends on which characters those are.
-/

namespace Inlay

open Text

/-- How much of a class name is shown: the name relative to the package, or also the package. -/
inductive NameForm where
  | short
  | qualified
deriving DecidableEq, Repr

/-- The qualified form where `b` holds, the short form elsewhere. -/
def NameForm.qualifiedIf (b : Bool) : NameForm := if b then .qualified else .short

/-- The identity of a class: dotted names of its package, which is empty for a class outside all
packages, and of the class inside it, outer classes first. -/
structure ClassName where
  package : String
  relative : String
deriving DecidableEq, Repr

namespace ClassName

/-- Class names are ordered by package, then by relative name, each by code points. -/
instance : Ord ClassName where
  compare a b := (compare a.package b.package).then (compare a.relative b.relative)

/-- Whether a segment starts with one of the characters `upper` accepts. -/
def startsUpper (upper : Char → Bool) : List Char → Bool
  | [] => false
  | c :: _ => upper c

/-- The segments of the package and those of the relative name. -/
def split (upper : Char → Bool) (segs : List (List Char)) : List (List Char) × List (List Char) :=
  if segs.any (startsUpper upper) then
    (segs.takeWhile (!startsUpper upper ·), segs.dropWhile (!startsUpper upper ·))
  else (segs.dropLast, segs.getLast?.toList)

/-- Reads a qualified name, where `upper` accepts the characters that start a class segment. -/
def parseWith (upper : Char → Bool) (name : String) : ClassName :=
  let parts := split upper (Dotted.segments name.toList)
  ⟨.ofList (Dotted.join parts.1), .ofList (Dotted.join parts.2)⟩

/-- Reads a qualified name: the package ends before the first segment that starts with an uppercase
character, and without such a segment the last one is the relative name. -/
def parse (name : String) : ClassName := parseWith isUppercase name

/-- The package and the relative name with a dot between them; without a package, the relative name
alone. -/
def qualified (c : ClassName) : String :=
  if c.package = "" then c.relative else c.package ++ "." ++ c.relative

/-- The name in the given form. -/
def text (c : ClassName) : NameForm → String
  | .short => c.relative
  | .qualified => c.qualified

/-- The name as shown to someone inspecting values. -/
def describe (c : ClassName) : String := "ClassId(" ++ c.qualified ++ ")"

/-- The names in order. -/
def sort (cs : List ClassName) : List ClassName := cs.mergeSort fun a b => (compare a b).isLE

/-- Nothing is lost between the two halves of a split. -/
theorem split_append (upper : Char → Bool) (segs : List (List Char)) :
    (split upper segs).1 ++ (split upper segs).2 = segs := by
  unfold split
  split
  · exact List.takeWhile_append_dropWhile
  · cases h : segs.getLast? with
    | none => simp [List.getLast?_eq_none_iff.1 h]
    | some s =>
      obtain ⟨init, rfl⟩ := List.getLast?_eq_some_iff.1 h
      simp

end ClassName

end Inlay
