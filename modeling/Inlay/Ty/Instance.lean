import Inlay.Ty.Basic

/-!
# Instances of a type

A type is an instance of a reference type if it arises from it by putting types in the place of
type parameters. Every type is an instance of a type parameter; a class is an instance of the same
class when every argument is an instance of the argument in its place. Nullability and variance
play no part, and a `*` on either side is never an instance.
-/

namespace Inlay

mutual

/-- Whether the first type is an instance of the second. -/
def Ty.isInstanceOf : Ty → Ty → Bool
  | ⟨s, _⟩, ⟨r, _⟩ => s.isInstanceOf r
termination_by structural t => t

/-- Whether the first shape is an instance of the second. -/
def Shape.isInstanceOf : Shape → Shape → Bool
  | .named (some c) as, .named (some d) bs => c == d && Projection.areInstancesOf as bs
  | _, .parameter _ => true
  | _, _ => false
termination_by structural s => s

/-- Whether both are types and the first is an instance of the second. -/
def Projection.isInstanceOf : Projection → Projection → Bool
  | .argument _ t, .argument _ r => t.isInstanceOf r
  | _, _ => false
termination_by structural p => p

/-- Whether the lists have the same length and are instances place by place. -/
def Projection.areInstancesOf : List Projection → List Projection → Bool
  | [], [] => true
  | p :: ps, q :: qs => p.isInstanceOf q && Projection.areInstancesOf ps qs
  | _, _ => false
termination_by structural ps => ps

end

namespace Ty

/-- The more informative of a declared type and a reported one: the declared type, where it is known
and an instance of the reported type. A report may name `List<T>` where the expression is known to
be a `List<Int>`. -/
def refine (declared : Option Ty) (reported : Ty) : Ty :=
  match declared with
  | some t => if t.isInstanceOf reported then t else reported
  | none => reported

@[simp] theorem refine_none (reported : Ty) : refine none reported = reported := rfl

/-- Which of the two types is taken. -/
theorem refine_eq_iff {declared : Option Ty} {reported t : Ty} :
    refine declared reported = t ↔
      (declared = some t ∧ t.isInstanceOf reported = true) ∨
      (reported = t ∧ ∀ u, declared = some u → u.isInstanceOf reported = false) := by
  cases declared with
  | none => simp
  | some u =>
    by_cases hu : u.isInstanceOf reported = true
    · have hrefine : refine (some u) reported = u := if_pos hu
      grind
    · have hrefine : refine (some u) reported = reported := if_neg hu
      grind

end Ty

end Inlay
