import Inlay.Ty.Basic

/-!
# Structural equality of types

Types are compared by structure: shape, names, arguments and every nullability flag. `Ty.beq` is
the test and `Ty.beq_iff` says that it decides equality, which gives the `DecidableEq` instances.
-/

namespace Inlay

mutual

/-- Whether two types are equal. -/
def Ty.beq : Ty → Ty → Bool
  | ⟨s, n⟩, ⟨s', n'⟩ => s.beq s' && n == n'
termination_by structural t => t

/-- Whether two shapes are equal. -/
def Shape.beq : Shape → Shape → Bool
  | .named c as, .named c' as' => c == c' && Projection.beqList as as'
  | .function r ps t, .function r' ps' t' => Ty.beqOption r r' && Ty.beqList ps ps' && t.beq t'
  | .intersection ts, .intersection ts' => Ty.beqList ts ts'
  | .flexible l u, .flexible l' u' => l.beq l' && u.beq u'
  | .nonNull t, .nonNull t' => t.beq t'
  | .captured p, .captured p' => p.beq p'
  | .parameter n, .parameter n' => n == n'
  | .error, .error => true
  | _, _ => false
termination_by structural s => s

/-- Whether two projections are equal. -/
def Projection.beq : Projection → Projection → Bool
  | .star, .star => true
  | .argument v t, .argument v' t' => v == v' && t.beq t'
  | _, _ => false
termination_by structural p => p

/-- Whether two optional types are equal. -/
def Ty.beqOption : Option Ty → Option Ty → Bool
  | none, none => true
  | some t, some t' => t.beq t'
  | _, _ => false
termination_by structural t => t

/-- Whether two lists of types are equal. -/
def Ty.beqList : List Ty → List Ty → Bool
  | [], [] => true
  | t :: ts, t' :: ts' => t.beq t' && Ty.beqList ts ts'
  | _, _ => false
termination_by structural ts => ts

/-- Whether two lists of projections are equal. -/
def Projection.beqList : List Projection → List Projection → Bool
  | [], [] => true
  | p :: ps, p' :: ps' => p.beq p' && Projection.beqList ps ps'
  | _, _ => false
termination_by structural ps => ps

end

mutual

/-- The test accepts exactly the equal types. -/
theorem Ty.beq_iff : ∀ a b : Ty, a.beq b = true ↔ a = b
  | ⟨s, _⟩, ⟨s', _⟩ => by simp [Ty.beq, Shape.beq_iff s s']

theorem Shape.beq_iff : ∀ a b : Shape, a.beq b = true ↔ a = b
  | .named _ as, b => by cases b <;> simp [Shape.beq, Projection.beqList_iff as]
  | .function r ps t, b => by
    cases b <;> simp [Shape.beq, Ty.beqOption_iff r, Ty.beqList_iff ps, Ty.beq_iff t, and_assoc]
  | .intersection ts, b => by cases b <;> simp [Shape.beq, Ty.beqList_iff ts]
  | .flexible l u, b => by cases b <;> simp [Shape.beq, Ty.beq_iff l, Ty.beq_iff u]
  | .nonNull t, b => by cases b <;> simp [Shape.beq, Ty.beq_iff t]
  | .captured p, b => by cases b <;> simp [Shape.beq, Projection.beq_iff p]
  | .parameter _, b => by cases b <;> simp [Shape.beq]
  | .error, b => by cases b <;> simp [Shape.beq]

theorem Projection.beq_iff : ∀ a b : Projection, a.beq b = true ↔ a = b
  | .star, b => by cases b <;> simp [Projection.beq]
  | .argument _ t, b => by cases b <;> simp [Projection.beq, Ty.beq_iff t]

theorem Ty.beqOption_iff : ∀ a b : Option Ty, Ty.beqOption a b = true ↔ a = b
  | none, b => by cases b <;> simp [Ty.beqOption]
  | some t, b => by cases b <;> simp [Ty.beqOption, Ty.beq_iff t]

theorem Ty.beqList_iff : ∀ a b : List Ty, Ty.beqList a b = true ↔ a = b
  | [], b => by cases b <;> simp [Ty.beqList]
  | t :: ts, b => by cases b <;> simp [Ty.beqList, Ty.beq_iff t, Ty.beqList_iff ts]

theorem Projection.beqList_iff : ∀ a b : List Projection, Projection.beqList a b = true ↔ a = b
  | [], b => by cases b <;> simp [Projection.beqList]
  | p :: ps, b => by
    cases b <;> simp [Projection.beqList, Projection.beq_iff p, Projection.beqList_iff ps]

end

instance : DecidableEq Ty := fun a b => decidable_of_iff _ (Ty.beq_iff a b)

instance : DecidableEq Shape := fun a b => decidable_of_iff _ (Shape.beq_iff a b)

instance : DecidableEq Projection := fun a b => decidable_of_iff _ (Projection.beq_iff a b)

end Inlay
