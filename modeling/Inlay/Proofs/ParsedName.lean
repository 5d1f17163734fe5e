import Inlay.Proofs.CanonicalName
import Mathlib.Data.Set.Function

/-!
# What reading a name keeps

`ClassName.parseWith` cuts a dotted name in two, and `ClassName.qualified` puts the halves together
again. The two are inverse to each other up to one dot: an empty package is not shown, and a name
that starts with a dot is read with an empty package if the package ends right there.

* `ClassName.exists_cut`, `ClassName.Cut.split`: every name has a place where its package ends, and
  this is where the reader cuts it.
* `ClassName.Cut.qualified`: what the two halves show.
* `ClassName.parseWith_keeps`: the name that was read is shown, but for that dot, and what is shown
  is read the same way.
* `ClassName.reads_back_iff_canonical`: the class names that are read are the canonical ones, and
  these are the ones that are read back from what they show.

Nothing here depends on which characters are uppercase, except that a dot is not.
-/

namespace Inlay

open Text

/-! ## Cutting and joining -/

namespace Text.Dotted

theorem not_mem_of_mem_segments {cs s : List Char} (h : s ∈ segments cs) : '.' ∉ s := by
  induction cs generalizing s with
  | nil =>
    rw [segments_nil, List.mem_singleton] at h
    subst h
    simp
  | cons c cs ih =>
    by_cases hc : c = '.'
    · subst hc
      rw [segments_dot, List.mem_cons] at h
      rcases h with rfl | h
      · simp
      · exact ih h
    · obtain ⟨t, rest, hs⟩ := List.exists_cons_of_ne_nil (segments_ne_nil cs)
      rw [hs] at ih
      rw [segments_cons_of_ne hc, hs, List.modifyHead_cons, List.mem_cons] at h
      rcases h with rfl | h
      · simp [Ne.symm hc, ih List.mem_cons_self]
      · exact ih (List.mem_cons_of_mem t h)

theorem segments_join {segs : List (List Char)} (hne : segs ≠ []) (hdots : ∀ s ∈ segs, '.' ∉ s) :
    segments (join segs) = segs := by
  induction segs with
  | nil => exact absurd rfl hne
  | cons s segs ih =>
    have hs := segments_of_not_mem (hdots s List.mem_cons_self)
    cases segs with
    | nil => exact hs
    | cons t rest =>
      have hcons := List.cons_ne_nil t rest
      have hrest := ih hcons fun u hu => hdots u (List.mem_cons_of_mem s hu)
      rw [join_cons hcons, segments_append_dot, hs, hrest, List.singleton_append]

theorem join_append {ps rs : List (List Char)} (hps : ps ≠ []) (hrs : rs ≠ []) :
    join (ps ++ rs) = join ps ++ '.' :: join rs := by
  induction ps with
  | nil => exact absurd rfl hps
  | cons p ps ih =>
    cases ps with
    | nil => exact join_cons hrs p
    | cons q ps =>
      have hcons := List.cons_ne_nil q ps
      rw [List.cons_append, join_cons (List.append_ne_nil_of_left_ne_nil hcons rs), ih hcons,
        join_cons hcons, List.append_assoc, List.cons_append]

/-- The empty name has no segments or one empty segment; two segments have a dot between them. -/
theorem join_eq_nil_iff {segs : List (List Char)} : join segs = [] ↔ segs = [] ∨ segs = [[]] := by
  rcases segs with _ | ⟨s, _ | ⟨t, rest⟩⟩
  · simp
  · simp
  · simp [join]

end Text.Dotted

namespace ClassName

variable {upper : Char → Bool} {ps rest : List (List Char)} {r : List Char} {name : String}

/-! ## Where a name is cut -/

/-- A package with segments `ps` ends before a relative name with segments `r :: rest`. -/
structure Cut (upper : Char → Bool) (ps : List (List Char)) (r : List Char)
    (rest : List (List Char)) : Prop where
  package : ∀ s ∈ ps, startsUpper upper s = false
  relative : startsUpper upper r = true ∨ rest = []

theorem Cut.split (h : Cut upper ps r rest) : split upper (ps ++ r :: rest) = (ps, r :: rest) := by
  cases hu : startsUpper upper r with
  | true => exact split_of_upper h.package hu
  | false =>
    obtain hr | rfl := h.relative
    · rw [hu] at hr
      cases hr
    · exact split_of_lower h.package hu

theorem exists_cut (upper : Char → Bool) {segs : List (List Char)} (hne : segs ≠ []) :
    ∃ ps r rest, segs = ps ++ r :: rest ∧ Cut upper ps r rest := by
  induction segs with
  | nil => exact absurd rfl hne
  | cons s segs ih =>
    cases hu : startsUpper upper s with
    | true => exact ⟨[], s, segs, rfl, List.forall_mem_nil _, .inl hu⟩
    | false =>
      cases segs with
      | nil => exact ⟨[], s, [], rfl, List.forall_mem_nil _, .inr rfl⟩
      | cons t segs =>
        obtain ⟨ps, r, rest, hsegs, hcut⟩ := ih (List.cons_ne_nil t segs)
        refine ⟨s :: ps, r, rest, by rw [hsegs, List.cons_append], ?_, hcut.relative⟩
        exact List.forall_mem_cons.2 ⟨hu, hcut.package⟩

theorem Cut.parseWith (h : Cut upper ps r rest)
    (hname : Dotted.segments name.toList = ps ++ r :: rest) :
    parseWith upper name = ⟨.ofList (Dotted.join ps), .ofList (Dotted.join (r :: rest))⟩ := by
  rw [ClassName.parseWith, hname, h.split]

/-! ## What the halves show -/

/-- The halves of a name show the name, unless the package is one empty segment. -/
theorem Cut.qualified (h : Cut upper ps r rest)
    (hname : Dotted.segments name.toList = ps ++ r :: rest) (hps : ps ≠ [[]]) :
    (ClassName.parseWith upper name).qualified = name := by
  have hjoin : name.toList = Dotted.join (ps ++ r :: rest) := by rw [← hname, Dotted.join_segments]
  rw [h.parseWith hname, ClassName.qualified]
  by_cases hnil : ps = []
  · rw [hnil, List.nil_append] at hjoin
    simp [hnil, ← hjoin]
  · have hshown : Dotted.join ps ≠ [] := by simp [Dotted.join_eq_nil_iff, hnil, hps]
    rw [Dotted.join_append hnil (List.cons_ne_nil r rest)] at hjoin
    rw [if_neg (by simpa using hshown)]
    apply String.toList_injective
    simp [hjoin]

/-- A name that starts with a dot, where the segment after the dot is uppercase or the last one. -/
def DropsDot (upper : Char → Bool) (name : String) : Prop :=
  ∃ cs r rest, name.toList = '.' :: cs ∧ Dotted.segments cs = r :: rest ∧
    (startsUpper upper r = true ∨ rest = [])

/-- The package of such a name is one empty segment, and of no other. -/
theorem dropsDot_iff :
    DropsDot upper name ↔ (split upper (Dotted.segments name.toList)).1 = [[]] := by
  constructor
  · rintro ⟨cs, r, rest, hname, hsegs, hr⟩
    have hcut : Cut upper [[]] r rest := ⟨by simp [startsUpper], hr⟩
    rw [hname, Dotted.segments_dot, hsegs]
    exact congrArg Prod.fst hcut.split
  · intro h
    obtain ⟨ps, r, rest, hname, hcut⟩ := exists_cut upper (Dotted.segments_ne_nil name.toList)
    rw [hname, hcut.split] at h
    obtain rfl : ps = [[]] := h
    have hjoin := Dotted.join_segments name.toList
    rw [hname, Dotted.join_append (by simp) (by simp)] at hjoin
    refine ⟨Dotted.join (r :: rest), r, rest, hjoin.symm, ?_, hcut.relative⟩
    rw [← hjoin] at hname
    simpa using hname

/-- Without the dot, the name is read the same way. -/
theorem DropsDot.parseWith (h : DropsDot upper name) :
    name = "." ++ (ClassName.parseWith upper name).qualified ∧
    ClassName.parseWith upper (ClassName.parseWith upper name).qualified =
      ClassName.parseWith upper name := by
  obtain ⟨cs, r, rest, hname, hsegs, hr⟩ := h
  have hcut : Cut upper [[]] r rest := ⟨by simp [startsUpper], hr⟩
  have hcut' : Cut upper [] r rest := ⟨List.forall_mem_nil _, hr⟩
  have hparse : ClassName.parseWith upper name = ⟨"", .ofList cs⟩ := by
    rw [hcut.parseWith (by rw [hname, Dotted.segments_dot, hsegs]; rfl), ← hsegs,
      Dotted.join_segments]
    rfl
  have hparse' : ClassName.parseWith upper (.ofList cs) = ⟨"", .ofList cs⟩ := by
    rw [hcut'.parseWith (by simpa using hsegs), ← hsegs, Dotted.join_segments]
    rfl
  rw [hparse]
  refine ⟨?_, hparse'⟩
  apply String.toList_injective
  simp [ClassName.qualified, hname]

theorem qualified_parseWith (h : ¬ DropsDot upper name) :
    (ClassName.parseWith upper name).qualified = name := by
  obtain ⟨ps, r, rest, hname, hcut⟩ := exists_cut upper (Dotted.segments_ne_nil name.toList)
  apply hcut.qualified hname
  rwa [dropsDot_iff, hname, hcut.split] at h

/-- **A name is kept but for one dot.** What is read from a name shows that name, unless the name
starts with a dot and the package ends right behind it; then the dot is missing, and nothing else.
In any case the name that is shown is read the same way. -/
theorem parseWith_keeps (upper : Char → Bool) (name : String) :
    ((parseWith upper name).qualified = name ↔ ¬ DropsDot upper name) ∧
    (DropsDot upper name ↔ (split upper (Dotted.segments name.toList)).1 = [[]]) ∧
    (DropsDot upper name → name = "." ++ (parseWith upper name).qualified) ∧
    parseWith upper (parseWith upper name).qualified = parseWith upper name := by
  refine ⟨⟨fun hshown hdrops => ?_, qualified_parseWith⟩, dropsDot_iff, fun h => h.parseWith.1, ?_⟩
  · have hname := congrArg String.length hdrops.parseWith.1
    rw [hshown, String.length_append] at hname
    simp at hname
  · by_cases h : DropsDot upper name
    · exact h.parseWith.2
    · rw [qualified_parseWith h]

/-- The dot is missing where the package ends at once, and nowhere else. -/
theorem parseWith_keeps_leadingDot :
    (DropsDot isUppercase ".Map.Entry" ∧ ".Map.Entry" = "." ++ (parse ".Map.Entry").qualified) ∧
    (¬ DropsDot isUppercase ".util.Map.Entry" ∧
      (parse ".util.Map.Entry").qualified = ".util.Map.Entry") := by
  have hdrops : DropsDot isUppercase ".Map.Entry" :=
    ⟨"Map.Entry".toList, "Map".toList, ["Entry".toList], by decide, by decide, .inl (by decide)⟩
  have hshown : (parse ".util.Map.Entry").qualified = ".util.Map.Entry" := by decide
  obtain ⟨-, -, hdot, -⟩ := parseWith_keeps isUppercase ".Map.Entry"
  obtain ⟨hkeeps, -⟩ := parseWith_keeps isUppercase ".util.Map.Entry"
  exact ⟨⟨hdrops, hdot hdrops⟩, hkeeps.1 hshown, hshown⟩

/-! ## Which class names are read -/

theorem startsUpper_join (hr : startsUpper upper r = true) :
    startsUpper upper (Dotted.join (r :: rest)) = true := by
  cases r with
  | nil => cases hr
  | cons c r => cases rest <;> exact hr

theorem canonical_parseWith (upper : Char → Bool) (name : String) :
    (parseWith upper name).Canonical upper := by
  obtain ⟨ps, r, rest, hname, hcut⟩ := exists_cut upper (Dotted.segments_ne_nil name.toList)
  have hdots : ∀ s ∈ ps ++ r :: rest, '.' ∉ s := by
    intro s hs
    rw [← hname] at hs
    exact Dotted.not_mem_of_mem_segments hs
  rw [hcut.parseWith hname]
  refine ⟨fun s hs => ?_, ?_⟩
  · rw [String.toList_ofList] at hs
    by_cases hnil : ps = []
    · -- no package is shown as an empty one, which is one empty segment
      have hs : s = [] := by simpa [hnil] using hs
      rw [hs]
      rfl
    · rw [Dotted.segments_join hnil fun t ht => hdots t (List.mem_append_left _ ht)] at hs
      exact hcut.package s hs
  · rw [String.toList_ofList]
    rcases hcut.relative with hr | rfl
    · exact .inl (startsUpper_join hr)
    · exact .inr (hdots r (by simp))

theorem parseWith_qualified_iff (hdot : upper '.' = false) (c : ClassName) :
    parseWith upper c.qualified = c ↔ c.Canonical upper := by
  refine ⟨fun h => ?_, parseWith_qualified hdot⟩
  rw [← h]
  exact canonical_parseWith upper c.qualified

/-- **Which class names are read back.** A class name is read back from its qualified form if and
only if no segment of its package starts with an uppercase character and its relative name starts
with one or has no dot. Every name is read as such a class name, so these are all that are ever
read, and no two of them have the same qualified form. -/
theorem reads_back_iff_canonical :
    (∀ package relative : String,
      parse (qualified ⟨package, relative⟩) = ⟨package, relative⟩ ↔
        (∀ s ∈ Dotted.segments package.toList, startsUpper isUppercase s = false) ∧
        (startsUpper isUppercase relative.toList = true ∨ '.' ∉ relative.toList)) ∧
    (∀ name, (parse name).Canonical isUppercase) ∧
    Set.range parse = {c | c.Canonical isUppercase} ∧
    Set.InjOn qualified {c | c.Canonical isUppercase} := by
  refine ⟨fun package relative => ?_, canonical_parseWith isUppercase, ?_, ?_⟩
  · rw [parse, parseWith_qualified_iff isUppercase_dot]
    exact ⟨fun h => ⟨h.package, h.relative⟩, fun h => ⟨h.1, h.2⟩⟩
  · ext c
    refine ⟨fun h => ?_, fun hc => ⟨c.qualified, parseWith_qualified isUppercase_dot hc⟩⟩
    obtain ⟨name, rfl⟩ := h
    exact canonical_parseWith isUppercase name
  · intro c hc d hd h
    exact hc.eq_of_qualified isUppercase_dot hd h

end ClassName

end Inlay
