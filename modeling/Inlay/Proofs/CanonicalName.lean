import Inlay.ClassName

/-!
# Canonical class names

`ClassName.parseWith` cuts a qualified name where the package ends. A class name is *canonical* if
the cut falls between its own package and relative name: no segment of the package starts with an
uppercase character, and the relative name starts with one or is a single segment.

* `Dotted.segments_append_dot`: a dot between two names separates their segments.
* `ClassName.split_of_upper`, `ClassName.split_of_lower`: where the package ends.
* `ClassName.parseWith_qualified`: a canonical name is read back from its qualified form.
-/

namespace Inlay

open Text

/-! ## Segments -/

namespace Text.Dotted

theorem segments_append_dot : ∀ a b : List Char,
    segments (a ++ '.' :: b) = segments a ++ segments b
  | [], b => by simp
  | c :: a, b => by
    have ih := segments_append_dot a b
    by_cases hc : c = '.'
    · subst hc
      rw [List.cons_append, segments_dot, ih, segments_dot, List.cons_append]
    · rw [List.cons_append, segments_cons_of_ne hc, ih, segments_cons_of_ne hc]
      cases hs : segments a with
      | nil => exact absurd hs (segments_ne_nil a)
      | cons s rest => rfl

/-- A name without a dot is one segment. -/
theorem segments_of_not_mem : ∀ {cs : List Char}, '.' ∉ cs → segments cs = [cs]
  | [], _ => rfl
  | c :: cs, h => by
    rw [List.mem_cons, not_or] at h
    rw [segments_cons_of_ne (Ne.symm h.1), segments_of_not_mem h.2]
    rfl

/-- Every character of a name is a dot or stands in a segment. -/
theorem mem_cases : ∀ {cs : List Char} {c : Char}, c ∈ cs → c = '.' ∨ ∃ s ∈ segments cs, c ∈ s
  | d :: cs, c, h => by
    by_cases hd : d = '.'
    · subst hd
      rcases List.mem_cons.1 h with rfl | h
      · exact .inl rfl
      · rw [segments_dot]
        exact (mem_cases h).imp_right fun ⟨s, hs, hc⟩ => ⟨s, List.mem_cons_of_mem _ hs, hc⟩
    · rw [segments_cons_of_ne hd]
      have ih : c ∈ cs → c = '.' ∨ ∃ s ∈ segments cs, c ∈ s := mem_cases
      cases hs : segments cs with
      | nil => exact absurd hs (segments_ne_nil cs)
      | cons s rest =>
        -- `d` goes in front of the first segment of the rest
        rw [hs] at ih
        rw [List.modifyHead_cons]
        rcases List.mem_cons.1 h with rfl | h
        · exact .inr ⟨_, List.mem_cons_self, List.mem_cons_self⟩
        · refine (ih h).imp_right fun ⟨s', hs', hc⟩ => ?_
          rcases List.mem_cons.1 hs' with rfl | hs'
          · exact ⟨_, List.mem_cons_self, List.mem_cons_of_mem _ hc⟩
          · exact ⟨s', List.mem_cons_of_mem _ hs', hc⟩

end Text.Dotted

open Text

namespace ClassName

variable {upper : Char → Bool}

/-- A name that starts with an uppercase character has a first segment that does. -/
theorem segments_of_startsUpper (hdot : upper '.' = false) {cs : List Char}
    (h : startsUpper upper cs = true) :
    ∃ s rest, Dotted.segments cs = s :: rest ∧ startsUpper upper s = true := by
  cases cs with
  | nil => cases h
  | cons c cs =>
    have hc : c ≠ '.' := by
      rintro rfl
      exact Bool.noConfusion (hdot.symm.trans h)
    rw [Dotted.segments_cons_of_ne hc]
    cases hs : Dotted.segments cs with
    | nil => exact absurd hs (Dotted.segments_ne_nil cs)
    | cons s rest => exact ⟨c :: s, rest, rfl, h⟩

/-! ## Where the package ends -/

/-- The package ends before the first uppercase segment. -/
theorem split_of_upper {ps rs : List (List Char)} {r : List Char}
    (hps : ∀ s ∈ ps, startsUpper upper s = false) (hr : startsUpper upper r = true) :
    split upper (ps ++ r :: rs) = (ps, r :: rs) := by
  have hany : (ps ++ r :: rs).any (startsUpper upper) = true :=
    List.any_eq_true.2 ⟨r, by simp, hr⟩
  have hall : ∀ s ∈ ps, (!startsUpper upper s) = true := fun s hs => by rw [hps s hs]; rfl
  rw [split, if_pos hany, List.takeWhile_append_of_pos hall, List.dropWhile_append_of_pos hall,
    List.takeWhile_cons_of_neg (by simp [hr]), List.dropWhile_cons_of_neg (by simp [hr]),
    List.append_nil]

/-- Without an uppercase segment, the package ends before the last one. -/
theorem split_of_lower {ps : List (List Char)} {r : List Char}
    (hps : ∀ s ∈ ps, startsUpper upper s = false) (hr : startsUpper upper r = false) :
    split upper (ps ++ [r]) = (ps, [r]) := by
  have hany : ¬ (ps ++ [r]).any (startsUpper upper) = true := by
    rw [List.any_eq_true]
    rintro ⟨s, hs, hu⟩
    rcases List.mem_append.1 hs with hs | hs
    · exact Bool.noConfusion ((hps s hs).symm.trans hu)
    · rw [List.mem_singleton.1 hs] at hu
      exact Bool.noConfusion (hr.symm.trans hu)
  rw [split, if_neg hany, List.dropLast_concat, List.getLast?_concat]
  rfl

/-! ## Canonical names -/

/-- The package ends where the reader looks for its end: no segment of it starts with an uppercase
character, and the relative name starts with one or has no dot. -/
structure Canonical (upper : Char → Bool) (c : ClassName) : Prop where
  package : ∀ s ∈ Dotted.segments c.package.toList, startsUpper upper s = false
  relative : startsUpper upper c.relative.toList = true ∨ '.' ∉ c.relative.toList

instance (c : ClassName) : Decidable (c.Canonical upper) :=
  decidable_of_iff (_ ∧ _) ⟨fun h => ⟨h.1, h.2⟩, fun h => ⟨h.package, h.relative⟩⟩

/-- After segments that are not uppercase, those of a canonical relative name are cut off whole. -/
theorem Canonical.split (hdot : upper '.' = false) {c : ClassName} (h : c.Canonical upper)
    {ps : List (List Char)} (hps : ∀ s ∈ ps, startsUpper upper s = false) :
    ClassName.split upper (ps ++ Dotted.segments c.relative.toList) =
      (ps, Dotted.segments c.relative.toList) := by
  rcases h.relative with hr | hr
  · obtain ⟨s, rest, hs, hu⟩ := segments_of_startsUpper hdot hr
    rw [hs]
    exact split_of_upper hps hu
  · rw [Dotted.segments_of_not_mem hr]
    cases hu : startsUpper upper c.relative.toList with
    | true => exact split_of_upper hps hu
    | false => exact split_of_lower hps hu

/-- **A canonical name is read back from its qualified form.** -/
theorem parseWith_qualified (hdot : upper '.' = false) {c : ClassName} (h : c.Canonical upper) :
    parseWith upper c.qualified = c := by
  by_cases hp : c.package = ""
  · have hsplit : split upper (Dotted.segments c.relative.toList) = _ :=
      h.split hdot (List.forall_mem_nil _)
    rw [parseWith, qualified, if_pos hp, hsplit]
    dsimp only
    rw [Dotted.join_segments, Dotted.join_nil, String.ofList_toList, String.ofList_nil, ← hp]
  · have hsegs : Dotted.segments (c.package ++ "." ++ c.relative).toList =
        Dotted.segments c.package.toList ++ Dotted.segments c.relative.toList := by
      rw [← Dotted.segments_append_dot]
      simp
    rw [parseWith, qualified, if_neg hp, hsegs, h.split hdot h.package]
    dsimp only
    rw [Dotted.join_segments, Dotted.join_segments, String.ofList_toList, String.ofList_toList]

/-- Canonical names with the same qualified form are the same. -/
theorem Canonical.eq_of_qualified (hdot : upper '.' = false) {c d : ClassName}
    (hc : c.Canonical upper) (hd : d.Canonical upper) (h : c.qualified = d.qualified) : c = d := by
  rw [← parseWith_qualified hdot hc, ← parseWith_qualified hdot hd, h]

end ClassName

end Inlay
