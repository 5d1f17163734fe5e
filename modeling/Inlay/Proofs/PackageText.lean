import Inlay.Proofs.Walk
import Mathlib.Algebra.GroupWithZero.Nat

/-!
# What qualification adds to a text

The walks of the two forms make the same calls and differ only where a class has a package: there
the qualified form writes the package and a dot in front of the name (`ClassName.lead`). Each call
keeps two facts, and so do the walks:

* the short text is the qualified text with some characters left out (`Ty.render_short_sublist`);
* in every size under which texts add up, such as characters or bytes, the qualified text is larger
  by what stands in front of its class names (`Ty.size_render_qualified`).
-/

namespace Inlay

open Writer (perform Simulates)

namespace ClassName

/-- What the qualified form writes in front of the relative name. -/
def lead (c : ClassName) : String := if c.package = "" then "" else c.package ++ "."

theorem qualified_eq_append (c : ClassName) : c.qualified = c.lead ++ c.relative := by
  by_cases hp : c.package = "" <;> simp [qualified, lead, hp]

theorem lead_eq_empty_iff (c : ClassName) : c.lead = "" ↔ c.package = "" := by
  by_cases hp : c.package = "" <;> simp [lead, hp]

end ClassName

/-! ## The short text inside the qualified one -/

theorem sublist_simulates :
    Simulates .short .qualified fun w x : String => w.toList.Sublist x.toList where
  text s w x hr := by
    show (w ++ s).toList.Sublist (x ++ s).toList
    rw [String.toList_append, String.toList_append]
    exact hr.append (List.Sublist.refl _)
  className c w x hr := by
    show (w ++ c.relative).toList.Sublist (x ++ c.qualified).toList
    rw [String.toList_append, String.toList_append, c.qualified_eq_append, String.toList_append]
    exact hr.append (List.sublist_append_right _ _)

theorem Ty.render_short_sublist (t : Ty) :
    (t.render .short).toList.Sublist (t.render .qualified).toList :=
  t.write_simulates sublist_simulates (List.Sublist.refl _)

/-! ## Sizes -/

/-- The text that a call appends. -/
def Call.shown : Call → String
  | .text s => s
  | .className _ shown => shown

section
variable {size : String → Nat} (hsize : ∀ s s' : String, size (s ++ s') = size s + size s')
include hsize

theorem size_empty : size "" = 0 := by
  have h := hsize "" ""
  rw [String.append_empty] at h
  omega

theorem size_replay (calls : List Call) (w : String) :
    size (calls.foldl perform w) = size w + (calls.map fun c => size c.shown).sum := by
  induction calls generalizing w with
  | nil => simp
  | cons c calls ih =>
    have hstep : size (perform w c) = size w + size c.shown := by
      cases c with
      | text s => exact hsize w s
      | className c shown => exact hsize w shown
    rw [List.foldl_cons, ih, hstep, List.map_cons, List.sum_cons, Nat.add_assoc]

/-- Calls of the two forms that do the same differ in size by the packages of their classes. -/
theorem size_alike {calls calls' : List Call}
    (h : List.Forall₂ (Call.Alike .short .qualified) calls calls') :
    (calls'.map fun c => size c.shown).sum = (calls.map fun c => size c.shown).sum +
      ((calls.filterMap Call.className?).map fun c => size c.lead).sum := by
  induction h with
  | nil => rfl
  | cons hcall _ ih =>
    cases hcall with
    | text s =>
      simp only [List.map_cons, List.sum_cons, List.filterMap_cons, Call.className?, ih]
      omega
    | className c =>
      have hc : size (Call.className c (c.text .qualified)).shown =
          size c.lead + size (Call.className c (c.text .short)).shown := by
        show size c.qualified = size c.lead + size c.relative
        rw [c.qualified_eq_append, hsize]
      simp only [List.map_cons, List.sum_cons, List.filterMap_cons, Call.className?, hc, ih]
      omega

theorem Ty.size_render_qualified (t : Ty) :
    size (t.render .qualified) =
      size (t.render .short) + (t.classNames.map fun c => size c.lead).sum := by
  have h := size_alike hsize (t.calls_alike .short .qualified)
  rw [t.calls_classNames] at h
  rw [Ty.render, Ty.render, Ty.write_eq_replay, Ty.write_eq_replay, size_replay hsize,
    size_replay hsize, h, Nat.add_assoc]

/-- Only classes with a package have anything in front of their name. -/
theorem sum_size_lead (cs : List ClassName) :
    (cs.map fun c => size c.lead).sum =
      ((cs.filter (·.package ≠ "")).map fun c => size c.package + size ".").sum := by
  induction cs with
  | nil => rfl
  | cons c cs ih =>
    rw [List.map_cons, List.sum_cons, ih]
    by_cases hp : c.package = ""
    · simp [ClassName.lead, hp, size_empty hsize]
    · simp [ClassName.lead, hp, hsize]

end

theorem Ty.render_qualified_eq_short_iff (t : Ty) :
    t.render .qualified = t.render .short ↔ ∀ c ∈ t.classNames, c.package = "" := by
  have hlength := t.size_render_qualified String.length_append
  have hsum : (t.classNames.map fun c => c.lead.length).sum = 0 ↔
      ∀ c ∈ t.classNames, c.package = "" := by
    simp [List.sum_eq_zero_iff_forall_eq_nat, ClassName.lead_eq_empty_iff]
  rw [← hsum]
  constructor
  · intro h
    rw [h] at hlength
    omega
  · intro h
    -- a text inside another one is all of it if it is as long
    refine String.toList_injective (t.render_short_sublist.eq_of_length ?_).symm
    rw [String.length_toList, String.length_toList]
    omega

/-- **Qualified texts are short texts with packages.** Counted in characters and in bytes, the
qualified text of a type exceeds the short one by the packages of its classes and a dot for each
package that is not empty. So the short text, which is the qualified one with characters left out,
is never the longer one, and the two are equal exactly if no class of the type has a package. -/
theorem Ty.qualified_adds_packages (t : Ty) :
    (t.render .qualified).length = (t.render .short).length +
      ((t.classNames.filter (·.package ≠ "")).map fun c => c.package.length + 1).sum ∧
    (t.render .qualified).utf8ByteSize = (t.render .short).utf8ByteSize +
      ((t.classNames.filter (·.package ≠ "")).map fun c => c.package.utf8ByteSize + 1).sum ∧
    (t.render .short).toList.Sublist (t.render .qualified).toList ∧
    (t.render .short).length ≤ (t.render .qualified).length ∧
    (t.render .short).utf8ByteSize ≤ (t.render .qualified).utf8ByteSize ∧
    (t.render .qualified = t.render .short ↔ ∀ c ∈ t.classNames, c.package = "") := by
  have hlength := t.size_render_qualified String.length_append
  have hbytes := t.size_render_qualified fun _ _ => String.utf8ByteSize_append
  rw [sum_size_lead String.length_append] at hlength
  rw [sum_size_lead fun _ _ => String.utf8ByteSize_append] at hbytes
  refine ⟨hlength, hbytes, t.render_short_sublist, ?_, ?_, t.render_qualified_eq_short_iff⟩
  · rw [hlength]
    exact Nat.le_add_right _ _
  · rw [hbytes]
    exact Nat.le_add_right _ _

/-- Packages are shown in every position that holds a class. -/
example :
    let inPackage (package relative : String) : Ty :=
      .ofShape (.named (some ⟨package, relative⟩) [])
    let receiver := Ty.ofShape (.captured (.argument .covariant (inPackage "p" "A")))
    let bounded := Ty.ofShape (.flexible (inPackage "p" "B") (inPackage "p.q" "B").orNull)
    let both := Ty.ofShape (.intersection [.ofShape (.nonNull (inPackage "" "C")),
      .ofShape (.parameter "T")])
    let result := Ty.ofShape (.named (some ⟨"r", "D.E"⟩)
      [.star, .argument .contravariant (.ofShape .error)])
    let t := Ty.ofShape (.function (some receiver) [bounded, both] result)
    t.render .short = "out A.(B .. B?, C & Any & T -> D.E<*, in ??>)" ∧
      t.render .qualified = "out p.A.(p.B .. p.q.B?, C & Any & T -> r.D.E<*, in ??>)" := by
  decide

end Inlay
