import Inlay.Ty.Writer

/-!
# Telling types apart by name

Types are shown by their short names where possible. Two different types can share a short name
(`List` of one package and `List` of another), and then both are shown with their packages.

* `NameMatch.of`: how the names of two types relate.
* `Names.pairForm`: the form in which two types are shown side by side.
* `Names.listForms`: the form of every member of a list that is shown together.
-/

namespace Inlay

/-- The two texts of a type, with class names in either form. -/
structure Names where
  short : String
  qualified : String
deriving DecidableEq, Repr

/-- The two texts of a type. -/
def Ty.names (t : Ty) : Names := ⟨t.render .short, t.render .qualified⟩

/-- The text in the given form. -/
def Names.text (n : Names) : NameForm → String
  | .short => n.short
  | .qualified => n.qualified

/-- How the names of two types relate: the qualified ones are equal, only the short ones are, or
not even these. -/
inductive NameMatch where
  | exact
  | shortOnly
  | different
deriving DecidableEq, Repr

namespace NameMatch

/-- Compares the qualified names, then the short ones. -/
def of (a b : Names) : NameMatch :=
  if a.qualified = b.qualified then .exact else if a.short = b.short then .shortOnly else .different

theorem of_eq_exact_iff {a b : Names} : of a b = .exact ↔ a.qualified = b.qualified := by
  by_cases hq : a.qualified = b.qualified <;> by_cases hs : a.short = b.short <;>
    simp [of, hq, hs]

theorem of_eq_shortOnly_iff {a b : Names} :
    of a b = .shortOnly ↔ a.qualified ≠ b.qualified ∧ a.short = b.short := by
  by_cases hq : a.qualified = b.qualified <;> by_cases hs : a.short = b.short <;>
    simp [of, hq, hs]

theorem of_eq_different_iff {a b : Names} :
    of a b = .different ↔ a.qualified ≠ b.qualified ∧ a.short ≠ b.short := by
  by_cases hq : a.qualified = b.qualified <;> by_cases hs : a.short = b.short <;>
    simp [of, hq, hs]

/-- Whether the two have to be shown with their packages to be told apart. -/
def needsQualification (m : NameMatch) : Bool := m == .shortOnly

/-- The form that tells the two apart. -/
def form (m : NameMatch) : NameForm := .qualifiedIf m.needsQualification

end NameMatch

namespace Names

/-- Whether two types look alike by their short names and differ by their qualified ones. -/
def clash (a b : Names) : Bool := (NameMatch.of a b).needsQualification

/-- Names clash when the short ones agree and the qualified ones do not. -/
theorem clash_iff (a b : Names) :
    a.clash b = true ↔ a.short = b.short ∧ a.qualified ≠ b.qualified := by
  rw [clash, NameMatch.needsQualification, beq_iff_eq, NameMatch.of_eq_shortOnly_iff, and_comm]

/-- The common form in which two types are shown side by side. -/
def pairForm (a b : Names) : NameForm := (NameMatch.of a b).form

/-- The form of each member of a list shown together: qualified where some other member shares the
short name and not the qualified one. -/
def listForms (ns : List Names) : List NameForm :=
  ns.zipIdx.map fun (n, i) => .qualifiedIf <| ns.zipIdx.any fun (m, j) =>
    i != j && n.short == m.short && n.qualified != m.qualified

@[simp] theorem length_listForms (ns : List Names) : (listForms ns).length = ns.length := by
  simp [listForms]

/-- The place of a member need not be left out, since no names clash with themselves. -/
theorem any_other_eq_any_clash {ns : List Names} {n : Names} {i : Nat} (hi : ns[i]? = some n) :
    (ns.zipIdx.any fun (m, j) => i != j && n.short == m.short && n.qualified != m.qualified) =
      ns.any n.clash := by
  rw [Bool.eq_iff_iff, List.any_eq_true, List.any_eq_true]
  constructor
  · rintro ⟨⟨m, j⟩, hm, h⟩
    have hmem : m ∈ ns := List.mem_of_getElem? (List.mem_zipIdx_iff_getElem?.1 hm)
    simp only [Bool.and_eq_true, bne_iff_ne, beq_iff_eq] at h
    obtain ⟨⟨-, hshort⟩, hne⟩ := h
    exact ⟨m, hmem, (clash_iff n m).2 ⟨hshort, hne⟩⟩
  · rintro ⟨m, hm, h⟩
    obtain ⟨hshort, hne⟩ := (clash_iff n m).1 h
    obtain ⟨j, hj⟩ := List.getElem?_of_mem hm
    have hij : i ≠ j := by
      rintro rfl
      rw [hi, Option.some.injEq] at hj
      exact hne (congrArg qualified hj)
    exact ⟨(m, j), List.mem_zipIdx_iff_getElem?.2 hj, by simp [hij, hshort, hne]⟩

/-- The form of a member depends on its names and not on its place. -/
theorem listForms_eq_map (ns : List Names) :
    listForms ns = ns.map fun n => .qualifiedIf (ns.any n.clash) := by
  refine List.ext_getElem? fun i => ?_
  cases hi : ns[i]? with
  | none => simp [listForms, hi]
  | some n => simp [listForms, hi, any_other_eq_any_clash hi]

end Names

end Inlay
