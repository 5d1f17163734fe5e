import Inlay.Proofs.ProblemHint
import Mathlib.Data.Fin.Rev
import Mathlib.Order.Fin.Basic

/-!
# Types shown together

`Names.listForms` compares every member of a list with the members at other places, and
`Names.clash` compares two types. The two agree: a member is qualified exactly where it clashes with
some member (`Ty.jointForms_eq_qualified_iff`). So the form of a member depends on its own names and
on which names occur in the list, whatever their places and however often.

* **Monotonicity** (`Ty.formAmong_mono`): with more names around it, a qualified type stays so.
* **Placement**: where the members of one list stand in another, the forms go along, qualified ones
  always (`Ty.qualified_place`), all of them if the other list has no new names
  (`Ty.jointForms_place`). Permutations and insertions are placements.
-/

namespace Inlay

namespace Names

theorem clash_comm (a b : Names) : a.clash b = b.clash a := by
  rw [Bool.eq_iff_iff, clash_iff, clash_iff, eq_comm, ne_comm]

theorem clash_self (a : Names) : a.clash a = false := by
  rw [Bool.eq_false_iff]
  intro h
  exact ((clash_iff a a).1 h).2 rfl

end Names

namespace Ty

/-- The forms of types that are shown together. -/
def jointForms (types : List Ty) : List NameForm := Names.listForms (types.map names)

/-! ## Members and the names around them -/

theorem formAmong_eq_qualified_iff (others : List Ty) (t : Ty) :
    t.formAmong others = .qualified ↔ ∃ u ∈ others, t.names.clash u.names = true := by
  simp [formAmong, Names.clash_iff, names]

theorem formAmong_mono {others others' : List Ty} (h : others.map names ⊆ others'.map names)
    {t : Ty} (ht : t.formAmong others = .qualified) : t.formAmong others' = .qualified := by
  rw [formAmong_eq_qualified_iff] at ht ⊢
  obtain ⟨u, hu, hclash⟩ := ht
  obtain ⟨u', hu', hnames⟩ := List.mem_map.1 (h (List.mem_map_of_mem hu))
  exact ⟨u', hu', by rwa [hnames]⟩

/-- Only the names around a type matter for its form. -/
theorem formAmong_congr {others others' : List Ty} (h : others.map names ⊆ others'.map names)
    (h' : others'.map names ⊆ others.map names) (t : Ty) :
    t.formAmong others = t.formAmong others' := by
  have hiff : t.formAmong others = .qualified ↔ t.formAmong others' = .qualified :=
    ⟨formAmong_mono h, formAmong_mono h'⟩
  cases hf : t.formAmong others <;> cases hf' : t.formAmong others' <;> simp_all

theorem jointForms_getElem? (types : List Ty) (i : Fin types.length) :
    (jointForms types)[i.val]? = some (types[i].formAmong types) := by
  rw [jointForms, listForms_names, List.getElem?_map, List.getElem?_eq_getElem i.isLt]
  rfl

/-- A member of a list is qualified where the rule for pairs qualifies it against some member. -/
theorem jointForms_eq_qualified_iff (types : List Ty) (i : Fin types.length) :
    (jointForms types)[i.val]? = some .qualified ↔
      ∃ j : Fin types.length, types[i].names.clash types[j].names = true := by
  rw [jointForms_getElem?, Option.some.injEq, formAmong_eq_qualified_iff]
  constructor
  · rintro ⟨u, hu, hclash⟩
    obtain ⟨j, hj, rfl⟩ := List.mem_iff_getElem.1 hu
    exact ⟨⟨j, hj⟩, hclash⟩
  · rintro ⟨j, hclash⟩
    exact ⟨types[j], List.getElem_mem j.isLt, hclash⟩

theorem jointForms_pair (a b : Ty) :
    jointForms [a, b] =
      [.qualifiedIf (a.names.clash b.names), .qualifiedIf (a.names.clash b.names)] := by
  simp [jointForms, Names.listForms_eq_map, Names.clash_self, Names.clash_comm b.names]

/-! ## The same members elsewhere -/

section
variable {types others : List Ty} {place : Fin types.length → Fin others.length}

theorem subset_of_place (h : ∀ i, others[place i] = types[i]) : types ⊆ others := by
  intro t ht
  obtain ⟨i, hi, rfl⟩ := List.mem_iff_getElem.1 ht
  have hget : others[place ⟨i, hi⟩] = types[i] := h ⟨i, hi⟩
  rw [← hget]
  exact List.getElem_mem (place ⟨i, hi⟩).isLt

theorem qualified_place (h : ∀ i, others[place i] = types[i]) (i : Fin types.length)
    (hi : (jointForms types)[i.val]? = some .qualified) :
    (jointForms others)[(place i).val]? = some .qualified := by
  rw [jointForms_getElem?, Option.some.injEq] at hi
  rw [jointForms_getElem?, h i, formAmong_mono (List.map_subset names (subset_of_place h)) hi]

theorem jointForms_place (h : ∀ i, others[place i] = types[i])
    (hnames : ∀ j : Fin others.length, ∃ i : Fin types.length, others[j].names = types[i].names)
    (i : Fin types.length) :
    (jointForms others)[(place i).val]? = (jointForms types)[i.val]? := by
  have hback : others.map names ⊆ types.map names := by
    intro n hn
    obtain ⟨u, hu, rfl⟩ := List.mem_map.1 hn
    obtain ⟨j, hj, rfl⟩ := List.mem_iff_getElem.1 hu
    obtain ⟨k, hk⟩ := hnames ⟨j, hj⟩
    exact List.mem_map.2 ⟨types[k], List.getElem_mem k.isLt, hk.symm⟩
  rw [jointForms_getElem?, jointForms_getElem?, h i,
    formAmong_congr hback (List.map_subset names (subset_of_place h))]

end

/-- **Lists follow the rule for pairs.** Each of the types shown together has a form, and it is the
qualified one exactly where the type clashes with some member of the list. So two types have the
form of their pair, and clashing is symmetric and irreflexive. A permutation of the types permutes
their forms. Insertion of further types leaves qualified types qualified, and it changes no form at
all if each of the inserted types has the texts of a type that was there. -/
theorem jointForms_follow_pairs :
    (∀ types : List Ty, (jointForms types).length = types.length ∧
      ∀ i : Fin types.length, (jointForms types)[i.val]? = some .qualified ↔
        ∃ j : Fin types.length, types[i].names.clash types[j].names = true) ∧
    (∀ a b : Ty, jointForms [a, b] =
      [.qualifiedIf (a.names.clash b.names), .qualifiedIf (a.names.clash b.names)]) ∧
    (∀ a b : Ty, a.names.clash b.names = b.names.clash a.names) ∧
    (∀ a : Ty, a.names.clash a.names = false) ∧
    (∀ (types permuted : List Ty) (place : Fin types.length ≃ Fin permuted.length),
      (∀ i, permuted[place i] = types[i]) →
      ∀ i, (jointForms permuted)[(place i).val]? = (jointForms types)[i.val]?) ∧
    ∀ (types extended : List Ty) (place : Fin types.length ↪o Fin extended.length),
      (∀ i, extended[place i] = types[i]) →
      (∀ i : Fin types.length, (jointForms types)[i.val]? = some .qualified →
        (jointForms extended)[(place i).val]? = some .qualified) ∧
      ((∀ j, j ∉ Set.range place → ∃ i : Fin types.length, extended[j].names = types[i].names) →
        ∀ i, (jointForms extended)[(place i).val]? = (jointForms types)[i.val]?) := by
  refine ⟨fun types => ⟨?_, jointForms_eq_qualified_iff types⟩, jointForms_pair,
    fun a b => Names.clash_comm a.names b.names, fun a => Names.clash_self a.names, ?_, ?_⟩
  · rw [jointForms, Names.length_listForms, List.length_map]
  · intro types permuted place h
    -- every place of the permuted list was taken by a member
    refine jointForms_place h fun j => ?_
    obtain ⟨i, rfl⟩ := place.surjective j
    exact ⟨i, by rw [h]⟩
  · intro types extended place h
    refine ⟨qualified_place h, fun hnew => jointForms_place h fun j => ?_⟩
    by_cases hj : j ∈ Set.range place
    · obtain ⟨i, rfl⟩ := hj
      exact ⟨i, by rw [h]⟩
    · exact hnew j hj

/-- Lists of two packages and a type that clashes with neither, turned around, and with an
intersection put in that reads like the first of them. -/
theorem jointForms_follow_pairs_lists :
    let kotlin := ofShape (.named (some ⟨"kotlin.collections", "List"⟩) [])
    let java := ofShape (.named (some ⟨"java.util", "List"⟩) [])
    let int := ofShape (.named (some ⟨"kotlin", "Int"⟩) [])
    let same := ofShape (.intersection [kotlin])
    (∀ i : Fin 3, (jointForms [int, java, kotlin])[(Fin.revPerm i).val]? =
      (jointForms [kotlin, java, int])[i.val]?) ∧
    (jointForms [kotlin, java, int])[0]? = some .qualified ∧
    (jointForms [kotlin, same, java, int])[0]? = some .qualified ∧
    same.names = kotlin.names ∧
    ∀ i : Fin 3, (jointForms [kotlin, same, java, int])[(Fin.succAboveOrderEmb 1 i).val]? =
      (jointForms [kotlin, java, int])[i.val]? := by
  intro kotlin java int same
  have hqualified : (jointForms [kotlin, java, int])[0]? = some .qualified := by decide
  have hsame : same.names = kotlin.names := by decide
  have hreversed : ∀ i : Fin 3, [int, java, kotlin][Fin.revPerm i] = [kotlin, java, int][i] := by
    decide
  have hinserted : ∀ i : Fin 3,
      [kotlin, same, java, int][Fin.succAboveOrderEmb 1 i] = [kotlin, java, int][i] := by
    decide
  have hnew : ∀ j : Fin 4, j ∉ Set.range (Fin.succAboveOrderEmb (1 : Fin 4)) →
      ∃ i : Fin 3, [kotlin, same, java, int][j].names = [kotlin, java, int][i].names := by
    intro j hj
    have hone : j = 1 := by
      by_contra hne
      exact hj (Fin.exists_succAbove_eq hne)
    subst hone
    exact ⟨0, hsame⟩
  obtain ⟨-, -, -, -, hpermute, hinsert⟩ := jointForms_follow_pairs
  have hextended := hinsert [kotlin, java, int] [kotlin, same, java, int]
    (Fin.succAboveOrderEmb 1) hinserted
  exact ⟨hpermute [kotlin, java, int] [int, java, kotlin] Fin.revPerm hreversed, hqualified,
    hextended.1 0 hqualified, hsame, hextended.2 hnew⟩

end Ty

end Inlay
