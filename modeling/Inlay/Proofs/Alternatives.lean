import Inlay.Proofs.HintText
import Inlay.Proofs.PackageText
import Inlay.Proofs.UniqueReading

/-!
# Alternatives are told apart

Each of the types that are offered as alternatives is shown in a form of its own, so the qualified
text of one might be the short text of another. It never is, since a package can be read off a text:
`Reading` goes through a text from left to right, and finds a package where a name starts with a
segment that is not uppercase and goes on with another one. For types whose names are well spelled
(`Ty.Spelled`),

* `ClassName.Spelled.scan_text`: a package is found in the name of a class exactly if one is shown;
* `Ty.Spelled.scan_render`: the same of the text of a type and the classes in it.

So a short text that equals a qualified one shows no packages at all, and `Hint.alternatives_apart`
follows.
-/

namespace Inlay

open Text

/-! ## Well-spelled types -/

/-- The characters that give the text of a type its structure, with those of intersections. -/
def Text.typeMarks : List Char := '&' :: marks

/-- Types of any shape whose classes and type parameters have well-spelled names. -/
inductive Ty.Spelled : Ty → Prop
  | named {c : Option ClassName} {as : List Projection} {n : Bool}
      (hc : ∀ d ∈ c, d.Spelled typeMarks) (has : ∀ v t, .argument v t ∈ as → Ty.Spelled t) :
      Ty.Spelled ⟨.named c as, n⟩
  | function {r : Option Ty} {ps : List Ty} {t : Ty} {n : Bool} (hr : ∀ s ∈ r, Ty.Spelled s)
      (hps : ∀ p ∈ ps, Ty.Spelled p) (ht : Ty.Spelled t) : Ty.Spelled ⟨.function r ps t, n⟩
  | intersection {ts : List Ty} {n : Bool} (hts : ∀ t ∈ ts, Ty.Spelled t) :
      Ty.Spelled ⟨.intersection ts, n⟩
  | flexible {l u : Ty} {n : Bool} (hl : Ty.Spelled l) (hu : Ty.Spelled u) :
      Ty.Spelled ⟨.flexible l u, n⟩
  | nonNull {t : Ty} {n : Bool} (ht : Ty.Spelled t) : Ty.Spelled ⟨.nonNull t, n⟩
  | captured {p : Projection} {n : Bool} (hp : ∀ v t, p = .argument v t → Ty.Spelled t) :
      Ty.Spelled ⟨.captured p, n⟩
  | parameter {x : String} {n : Bool} (hx : IsWord typeMarks x.toList) :
      Ty.Spelled ⟨.parameter x, n⟩
  | error {n : Bool} : Ty.Spelled ⟨.error, n⟩

/-! ## Reading for packages -/

/-- Where a reader stands who looks for a package: where a name can begin, in a first segment that
is not uppercase, behind the dot after such a segment, in a name that begins otherwise, or behind a
package. -/
inductive Reading where
  | start
  | lower
  | dot
  | plain
  | package
deriving DecidableEq, Repr

namespace Reading

def afterDot : Reading → Reading
  | .lower => .dot
  | .package => .package
  | _ => .plain

def afterMark : Reading → Reading
  | .package => .package
  | _ => .start

def afterLetter (upper : Bool) : Reading → Reading
  | .start => if upper then .plain else .lower
  | .dot => .package
  | r => r

def next (r : Reading) (c : Char) : Reading :=
  if c = '.' then r.afterDot else if c ∈ typeMarks then r.afterMark
  else r.afterLetter (isUppercase c)

/-- Where a text leads. -/
def scan (s : String) (r : Reading) : Reading := s.toList.foldl next r

/-- A reader takes in what is written and does not see which texts are class names. -/
instance : Writer Reading where
  text := scan

theorem scan_append (s t : String) (r : Reading) : scan (s ++ t) r = scan t (scan s r) := by
  rw [scan, String.toList_append, List.foldl_append]
  rfl

theorem next_letter {c : Char} (h : c ∉ typeMarks) (r : Reading) :
    r.next c = r.afterLetter (isUppercase c) := by
  have hdot : c ≠ '.' := fun he => h (he ▸ by decide)
  rw [next, if_neg hdot, if_neg h]

/-! ## Names -/

theorem foldl_eq_self {r : Reading} {cs : List Char} (h : ∀ c ∈ cs, r.next c = r) :
    cs.foldl next r = r := by
  induction cs with
  | nil => rfl
  | cons c cs ih =>
    obtain ⟨hc, hcs⟩ := List.forall_mem_cons.1 h
    rw [List.foldl_cons, hc, ih hcs]

theorem foldl_package (cs : List Char) : cs.foldl next .package = .package := by
  refine foldl_eq_self fun c _ => ?_
  unfold next
  split
  · rfl
  · split <;> rfl

theorem foldl_plain {cs : List Char} (h : ∀ c ∈ cs, c = '.' ∨ c ∉ typeMarks) :
    cs.foldl next .plain = .plain := by
  refine foldl_eq_self fun c hc => ?_
  rcases h c hc with rfl | hc
  · rfl
  · exact next_letter hc .plain

theorem foldl_lower {cs : List Char} (h : ∀ c ∈ cs, c ∉ typeMarks) :
    cs.foldl next .lower = .lower :=
  foldl_eq_self fun c hc => next_letter (h c hc) .lower

/-- A word tells by its first character which kind of name it starts. -/
theorem foldl_word {s : List Char} (h : IsWord typeMarks s) :
    s.foldl next .start = if ClassName.startsUpper isUppercase s then .plain else .lower := by
  obtain ⟨hne, hs⟩ := h
  cases s with
  | nil => exact absurd rfl hne
  | cons c cs =>
    obtain ⟨hc, hcs⟩ := List.forall_mem_cons.1 hs
    rw [List.foldl_cons, next_letter hc, ClassName.startsUpper, afterLetter]
    split
    · exact foldl_plain fun d hd => .inr (hcs d hd)
    · exact foldl_lower hcs

/-- A name of which the first segment is not uppercase, and not the last, shows a package. -/
theorem foldl_packaged {cs s : List Char} {rest : List (List Char)}
    (hcs : Dotted.segments cs = s :: rest) (hs : IsWord typeMarks s)
    (hlower : ClassName.startsUpper isUppercase s = false) (hne : rest ≠ [])
    (hrest : ∀ t ∈ rest, IsWord typeMarks t) : cs.foldl next .start = .package := by
  obtain ⟨d, x, hd, hx⟩ : ∃ d x, d ∉ typeMarks ∧ Dotted.join rest = d :: x := by
    obtain ⟨t, us, rfl⟩ := List.exists_cons_of_ne_nil hne
    obtain ⟨htne, ht⟩ := hrest t List.mem_cons_self
    obtain ⟨d, t, rfl⟩ := List.exists_cons_of_ne_nil htne
    cases us with
    | nil => exact ⟨d, t, ht d List.mem_cons_self, rfl⟩
    | cons u us => exact ⟨d, _, ht d List.mem_cons_self, rfl⟩
  have hdot : next .lower '.' = .dot := rfl
  have hletter : next .dot d = .package := next_letter hd .dot
  rw [← Dotted.join_segments cs, hcs, Dotted.join_cons hne, hx, List.foldl_append, foldl_word hs,
    hlower, if_neg Bool.false_ne_true, List.foldl_cons, hdot, List.foldl_cons, hletter,
    foldl_package]

end Reading

open Reading (scan)

theorem ClassName.Spelled.scan_relative {c : ClassName} (h : c.Spelled typeMarks) :
    scan c.relative .start ≠ .package := by
  unfold scan
  rcases h.relative with hupper | hdot
  · -- the name starts uppercase, so its dots belong to nested classes
    obtain ⟨x, xs, hr⟩ : ∃ x xs, c.relative.toList = x :: xs :=
      List.exists_cons_of_ne_nil fun hnil => by rw [hnil] at hupper; cases hupper
    have hchars : ∀ y ∈ (c.text .short).toList, y = '.' ∨ y ∉ typeMarks := fun y hy =>
      h.mem_text hy
    rw [ClassName.text, hr] at hchars
    rw [hr] at hupper
    obtain ⟨hx, hxs⟩ := List.forall_mem_cons.1 hchars
    have hmark : x ∉ typeMarks := hx.resolve_left fun he => by
      rw [he, startsUpper, isUppercase_dot] at hupper
      cases hupper
    have hnext : Reading.next .start x = .plain := by
      rw [Reading.next_letter hmark, show isUppercase x = true from hupper]
      rfl
    rw [hr, List.foldl_cons, hnext, Reading.foldl_plain hxs]
    exact Reading.noConfusion
  · have hword : IsWord typeMarks c.relative.toList :=
      h.relativeWords _ (by rw [Dotted.segments_of_not_mem hdot]; exact List.mem_singleton.2 rfl)
    rw [Reading.foldl_word hword]
    split <;> exact Reading.noConfusion

theorem ClassName.Spelled.scan_qualified {c : ClassName} (h : c.Spelled typeMarks)
    (hp : c.package ≠ "") : scan (c.package ++ "." ++ c.relative) .start = .package := by
  obtain ⟨s, ps, hps⟩ := List.exists_cons_of_ne_nil (Dotted.segments_ne_nil c.package.toList)
  have hs : s ∈ Dotted.segments c.package.toList := by rw [hps]; exact List.mem_cons_self
  have hsegments : Dotted.segments (c.package ++ "." ++ c.relative).toList =
      s :: (ps ++ Dotted.segments c.relative.toList) := by
    rw [← List.cons_append, ← hps, ← Dotted.segments_append_dot]
    simp
  refine Reading.foldl_packaged hsegments (h.packageWords hp s hs) (h.package s hs) ?_ ?_
  · exact List.append_ne_nil_of_right_ne_nil _ (Dotted.segments_ne_nil _)
  · intro t ht
    rcases List.mem_append.1 ht with ht | ht
    · exact h.packageWords hp t (by rw [hps]; exact List.mem_cons_of_mem _ ht)
    · exact h.relativeWords t ht

/-- A package is found in the name of a class exactly where one is shown. -/
theorem ClassName.Spelled.scan_text {c : ClassName} (h : c.Spelled typeMarks) (form : NameForm) :
    scan (c.text form) .start = .package ↔ form = .qualified ∧ c.package ≠ "" := by
  cases form with
  | short => simpa [ClassName.text] using h.scan_relative
  | qualified =>
    by_cases hp : c.package = ""
    · simpa [ClassName.text, ClassName.qualified, hp] using h.scan_relative
    · rw [ClassName.text, ClassName.qualified, if_neg hp]
      exact iff_of_true (h.scan_qualified hp) ⟨rfl, hp⟩

/-! ## Types -/

/-- A form shows a package of one of the classes. -/
def NameForm.ShowsPackage (form : NameForm) (cs : List ClassName) : Prop :=
  form = .qualified ∧ ∃ c ∈ cs, c.package ≠ ""

@[simp] theorem NameForm.not_showsPackage_nil (form : NameForm) : ¬ form.ShowsPackage [] := by
  simp [ShowsPackage]

@[simp] theorem NameForm.showsPackage_append (form : NameForm) (cs ds : List ClassName) :
    form.ShowsPackage (cs ++ ds) ↔ form.ShowsPackage cs ∨ form.ShowsPackage ds := by
  simp only [ShowsPackage, List.mem_append, or_and_right, exists_or, and_or_left]

/-- What stands between the names of a type. -/
def Text.separators : List String :=
  ["?", "<", ", ", ">", "(", "-> ", " -> ", ")", " & ", " .. ", "*", placeholder]

namespace Reading

/-- Nothing of a name has been read yet, unless a package was found. -/
def Settled (r : Reading) : Prop := r.afterMark = r

/-- Written where a name can begin, `p` shows a package exactly if `P` holds. -/
def Tells (p : Reading → Reading) (P : Prop) : Prop :=
  ∀ r : Reading, r.Settled → (p r = .package ↔ r = .package ∨ P)

theorem settled_afterMark (r : Reading) : r.afterMark.Settled := by cases r <;> rfl

@[simp] theorem afterMark_eq_package (r : Reading) : r.afterMark = .package ↔ r = .package := by
  cases r <;> decide

theorem text_separator {s : String} (hs : s ∈ separators) (r : Reading) :
    Writer.text s r = r.afterMark := by
  cases r <;> revert s <;> decide

theorem text_receiver (r : Reading) : Writer.text "(" (Writer.text "." r) = r.afterMark := by
  cases r <;> rfl

theorem text_keyword (v : Variance) {r : Reading} (hr : r.Settled) :
    Writer.text " " (Writer.text v.keyword r) = r := by
  cases r with
  | start | package => cases v <;> rfl
  | lower | dot | plain => cases hr

theorem text_any (r : Reading) : Writer.text " & Any" r = .package ↔ r = .package := by
  cases r <;> decide

section
variable {form : NameForm}

theorem name_tells {c : Option ClassName} (hc : ∀ d ∈ c, d.Spelled typeMarks) :
    Tells (Writer.name form c) (form.ShowsPackage c.toList) := by
  intro r hr
  cases c with
  | none =>
    rw [Writer.name, text_separator (by decide), afterMark_eq_package]
    simp
  | some c =>
    show scan (c.text form) r = .package ↔ _
    cases r with
    | start => simp [(hc c rfl).scan_text form, NameForm.ShowsPackage]
    | package => exact iff_of_true (foldl_package _) (.inl rfl)
    | lower | dot | plain => cases hr

theorem text_word {x : String} (hx : IsWord typeMarks x.toList) {r : Reading} (hr : r.Settled) :
    Writer.text x r = .package ↔ r = .package := by
  show scan x r = .package ↔ _
  cases r with
  | start =>
    rw [scan, foldl_word hx]
    split <;> decide
  | package => exact iff_of_true (foldl_package _) rfl
  | lower | dot | plain => cases hr

/-- Separated items tell of their classes one after the other. -/
theorem foldl_tells {α : Type} {sep : String} (hsep : sep ∈ separators)
    {write : α → Reading → Reading} {names : α → List ClassName} {xs : List α}
    (hs : ∀ x ∈ xs, Tells (write x) (form.ShowsPackage (names x))) (r : Reading) :
    (xs.map write).foldl (fun r p => p (Writer.text sep r)) r = .package ↔
      r = .package ∨ form.ShowsPackage (xs.flatMap names) := by
  induction xs generalizing r with
  | nil => simp
  | cons x xs ih =>
    obtain ⟨hx, hxs⟩ := List.forall_mem_cons.1 hs
    rw [List.map_cons, List.foldl_cons, ih hxs, text_separator hsep, hx _ (settled_afterMark r),
      afterMark_eq_package, List.flatMap_cons, NameForm.showsPackage_append, or_assoc]

theorem separated_tells {α : Type} {sep : String} (hsep : sep ∈ separators)
    {write : α → Reading → Reading} {names : α → List ClassName} {xs : List α}
    (hs : ∀ x ∈ xs, Tells (write x) (form.ShowsPackage (names x))) :
    Tells (Writer.separated sep (xs.map write)) (form.ShowsPackage (xs.flatMap names)) := by
  intro r hr
  cases xs with
  | nil => simp
  | cons x xs =>
    obtain ⟨hx, hxs⟩ := List.forall_mem_cons.1 hs
    rw [List.map_cons, Writer.separated, foldl_tells hsep hxs, hx r hr, List.flatMap_cons,
      NameForm.showsPackage_append, or_assoc]

/-- Arguments tell of their classes wherever they stand, since a bracket ends the name before. -/
theorem angled_tells {α : Type} {write : α → Reading → Reading} {names : α → List ClassName}
    {xs : List α} (hs : ∀ x ∈ xs, Tells (write x) (form.ShowsPackage (names x))) (r : Reading) :
    Writer.angled (xs.map write) r = .package ↔
      r = .package ∨ form.ShowsPackage (xs.flatMap names) := by
  cases xs with
  | nil => simp [Writer.angled]
  | cons x xs =>
    have hxs := separated_tells (show ", " ∈ separators by decide) hs _ (settled_afterMark r)
    rw [List.map_cons] at hxs ⊢
    rw [Writer.angled, text_separator (by decide), afterMark_eq_package,
      text_separator (by decide), hxs, afterMark_eq_package]
    exact List.cons_ne_nil _ _

theorem nullable_tells {s : Shape} (hs : Tells (s.write form) (form.ShowsPackage s.classNames))
    (n : Bool) : Tells (Ty.write form ⟨s, n⟩) (form.ShowsPackage (Ty.classNames ⟨s, n⟩)) := by
  intro r hr
  cases n with
  | false => exact hs r hr
  | true =>
    rw [Ty.write, text_separator (by decide), afterMark_eq_package, hs r hr]
    rfl

theorem projection_tells {p : Projection} (hp : ∀ v t, p = .argument v t →
    Tells (t.write form) (form.ShowsPackage t.classNames)) :
    Tells (p.write form) (form.ShowsPackage p.classNames) := by
  intro r hr
  match p with
  | .star =>
    rw [Projection.write, text_separator (by decide), afterMark_eq_package]
    simp [Projection.classNames]
  | .argument .invariant t => exact hp _ t rfl r hr
  | .argument .contravariant t | .argument .covariant t =>
    rw [Projection.write, text_keyword _ hr]
    · exact hp _ t rfl r hr
    · exact Variance.noConfusion

/-- The bracket of a function type ends the name of the receiver before it. -/
theorem receiver_tells {q : Option Ty}
    (hq : ∀ t ∈ q, Tells (t.write form) (form.ShowsPackage t.classNames)) {r : Reading}
    (hr : r.Settled) :
    (Writer.text "(" (Ty.writeReceiver form q r)).Settled ∧
    (Writer.text "(" (Ty.writeReceiver form q r) = .package ↔
      r = .package ∨ form.ShowsPackage (Ty.classNamesOption q)) := by
  cases q with
  | none =>
    rw [Ty.writeReceiver, text_separator (by decide), afterMark_eq_package]
    exact ⟨settled_afterMark r, by simp [Ty.classNamesOption]⟩
  | some t =>
    rw [Ty.writeReceiver, text_receiver, afterMark_eq_package, hq t rfl r hr]
    exact ⟨settled_afterMark _, Iff.rfl⟩

end

end Reading

section
open Reading

/-- Written where a name can begin, a well-spelled type shows a package exactly if one of its
classes does. -/
theorem Ty.Spelled.tells {form : NameForm} {t : Ty} (ht : t.Spelled) :
    Tells (t.write form) (form.ShowsPackage t.classNames) := by
  induction ht with
  | @named c as n hc has ih =>
    have hargs : ∀ p ∈ as, Tells (p.write form) (form.ShowsPackage p.classNames) := fun p hp =>
      projection_tells fun v t e => ih v t (e ▸ hp)
    refine nullable_tells (fun r hr => ?_) n
    rw [Shape.write, Shape.classNames, Projection.writers_eq_map, Projection.classNamesAll_eq,
      angled_tells hargs, name_tells hc r hr, NameForm.showsPackage_append,
      or_assoc]
  | @function q ps t n hq hps ht ihq ihps iht =>
    refine nullable_tells (fun r hr => ?_) n
    -- a bracket or an arrow stands before each part, so each starts where a name can begin
    obtain ⟨hsettled, hreceiver⟩ := receiver_tells ihq hr
    have hparams := separated_tells (show ", " ∈ separators by decide) ihps _ hsettled
    have harrow : (if ps.isEmpty then "-> " else " -> ") ∈ separators := by split <;> decide
    rw [Shape.write, Shape.classNames, Ty.writers_eq_map, Ty.classNamesAll_eq,
      text_separator (by decide), afterMark_eq_package,
      text_separator harrow, iht _ (settled_afterMark _),
      afterMark_eq_package, hparams, hreceiver, NameForm.showsPackage_append,
      NameForm.showsPackage_append, or_assoc, or_assoc, or_assoc]
  | @intersection ts n hts ih =>
    refine nullable_tells (fun r hr => ?_) n
    rw [Shape.write, Shape.classNames, Ty.writers_eq_map, Ty.classNamesAll_eq]
    exact separated_tells (by decide) ih r hr
  | @flexible l u n hl hu ihl ihu =>
    refine nullable_tells (fun r hr => ?_) n
    rw [Shape.write, Shape.classNames, text_separator (by decide),
      ihu _ (settled_afterMark _), afterMark_eq_package, ihl r hr,
      NameForm.showsPackage_append, or_assoc]
  | @nonNull t n ht ih =>
    refine nullable_tells (fun r hr => ?_) n
    rw [Shape.write, Shape.classNames, text_any, ih r hr]
  | @captured p n hp ih =>
    refine nullable_tells (fun r hr => ?_) n
    rw [Shape.write, Shape.classNames]
    exact projection_tells ih r hr
  | @parameter x n hx =>
    refine nullable_tells (fun r hr => ?_) n
    rw [Shape.write, text_word hx hr]
    simp [Shape.classNames]
  | @error n =>
    refine nullable_tells (fun r hr => ?_) n
    rw [Shape.write, text_separator (by decide), afterMark_eq_package]
    simp [Shape.classNames]

end

theorem scan_simulates (form : NameForm) :
    Writer.Simulates form form fun (w : String) (r : Reading) => r = scan w .start where
  text s w r hr := by
    show scan s r = scan (w ++ s) .start
    rw [hr, Reading.scan_append]
  className c w r hr := by
    show scan (c.text form) r = scan (w ++ c.text form) .start
    rw [hr, Reading.scan_append]

/-- A package is found in the text of a type exactly where one of its classes shows it. -/
theorem Ty.Spelled.scan_render {t : Ty} (ht : t.Spelled) (form : NameForm) :
    scan (t.render form) .start = .package ↔ form.ShowsPackage t.classNames := by
  have hscan : t.write form Reading.start = scan (t.render form) .start :=
    t.write_simulates (scan_simulates form) rfl
  rw [← hscan, ht.tells .start rfl]
  simp

/-! ## Forms that agree -/

/-- A qualified text that is the short text of some type shows no packages. -/
theorem Ty.Spelled.render_qualified_eq_short {a b : Ty} (ha : a.Spelled) (hb : b.Spelled)
    (h : a.render .short = b.render .qualified) : b.render .qualified = b.render .short := by
  have hshort : ¬ NameForm.short.ShowsPackage a.classNames := fun hs => NameForm.noConfusion hs.1
  rw [← ha.scan_render, h, hb.scan_render] at hshort
  refine b.render_qualified_eq_short_iff.2 fun c hc => ?_
  by_contra hp
  exact hshort ⟨rfl, c, hc, hp⟩

/-! ## Alternatives -/

namespace Hint

theorem render_qualified_eq_of_alternatives {types : List Ty} (hts : ∀ t ∈ types, t.Spelled)
    {a b : Ty} (ha : a ∈ types) (hb : b ∈ types)
    (h : a.render (a.formAmong types) = b.render (b.formAmong types)) :
    a.render .qualified = b.render .qualified := by
  by_contra hne
  by_cases hshort : a.render .short = b.render .short
  · have hfa : a.formAmong types = .qualified := if_pos ⟨b, hb, hshort, hne⟩
    have hfb : b.formAmong types = .qualified := if_pos ⟨a, ha, hshort.symm, Ne.symm hne⟩
    rw [hfa, hfb] at h
    exact hne h
  · -- only one of the two is qualified, and it then shows its short text as well
    cases hfa : a.formAmong types <;> cases hfb : b.formAmong types <;> rw [hfa, hfb] at h
    · exact hshort h
    · exact hshort (h.trans ((hts a ha).render_qualified_eq_short (hts b hb) h))
    · exact hshort ((h.symm.trans
        ((hts b hb).render_qualified_eq_short (hts a ha) h.symm)).symm)
    · exact hne h

/-- **Alternatives are told apart.** A hint for an ambiguous type shows the alternatives in angle
brackets, and if two of them read the same, so do their qualified texts. -/
theorem alternatives_apart {types : List Ty} (hts : ∀ t ∈ types, t.Spelled) :
    (∀ (declared : Option Ty) (ranges : List Span) (h : Hint),
      Problem.hint (m := Id) declared ranges (.ambiguousType types) = some h →
      h.text = "<" ++ " or ".intercalate (alternativeTexts types) ++ ">") ∧
    ∀ (i j : Nat) (a b : Ty), types[i]? = some a → types[j]? = some b →
      (alternativeTexts types)[i]? = (alternativeTexts types)[j]? →
      a.render .qualified = b.render .qualified := by
  refine ⟨fun declared ranges h hh => text_alternatives hh, fun i j a b hi hj h => ?_⟩
  rw [alternativeTexts_eq_map, List.getElem?_map, List.getElem?_map, hi, hj] at h
  exact render_qualified_eq_of_alternatives hts (List.mem_of_getElem? hi)
    (List.mem_of_getElem? hj) (Option.some.inj h)

/-- Lists of nullable `T`, for the lists of a package. -/
def listIn (package : String) : Ty :=
  ⟨.named (some ⟨package, "List"⟩) [.argument .covariant ⟨.parameter "T", true⟩], false⟩

/-- An intersection of one type reads like that type, also where packages are shown. -/
theorem alternatives_apart_lists :
    let lists := Ty.ofShape (.intersection [listIn "kotlin.collections"])
    let types := [listIn "kotlin.collections", listIn "java.util", lists]
    (∀ t ∈ types, t.Spelled) ∧ (alternativeTexts types)[0]? = (alternativeTexts types)[2]? ∧
      (listIn "kotlin.collections").render .qualified = lists.render .qualified := by
  intro lists types
  have hlist : ∀ package, ClassName.Spelled typeMarks ⟨package, "List"⟩ →
      (listIn package).Spelled := by
    intro package hp
    have ht : Ty.Spelled ⟨.parameter "T", true⟩ := .parameter (by decide)
    exact .named (by simpa using hp) (by simp [ht])
  have hk := hlist "kotlin.collections" (by decide)
  have hj := hlist "java.util" (by decide)
  have hlists : lists.Spelled := .intersection (by simp [hk])
  have hts : ∀ t ∈ types, t.Spelled := by simp [types, hk, hj, hlists]
  have htexts : (alternativeTexts types)[0]? = (alternativeTexts types)[2]? := by decide
  exact ⟨hts, htexts, (alternatives_apart hts).2 0 2 _ _ rfl rfl htexts⟩

/-- A relative name that looks like a package is not well spelled, and can be mistaken for one. -/
example :
    let type (package relative : String) : Ty := .ofShape (.named (some ⟨package, relative⟩) [])
    alternativeTexts [type "p" "a.B", type "a" "B", type "b" "B"] = ["a.B", "a.B", "b.B"] := by
  decide

end Hint

end Inlay
