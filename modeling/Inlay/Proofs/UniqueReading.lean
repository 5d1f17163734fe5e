import Inlay.Proofs.CanonicalName
import Inlay.Proofs.Walk
import Inlay.Ty.Names

/-!
# A type is known by its text

The text of a type is read from its end. There a question mark, a bracket or a character of a name
tells at once which kind of type it is, while from the front a receiver looks like a type of its own
until the dot and the bracket after it. Reading stops where a type can begin (`TypeStart`), so each
part of a type can be cut off the text without looking further (`Cancels`):

* `word_cancel`, `items_cancel`: names, and lists with their separators.
* `Ty.Readable.cancel`: types, by induction on the types that can be read back (`Ty.Readable`).

What is read back is the type as its form shows it: all of it in the qualified form
(`Ty.Readable.eq_of_render_qualified`), and all but the packages in the short form
(`Ty.Readable.render_short_iff`). `NameMatch.of_readable` says what this makes of comparing names.
-/

namespace Inlay

open Text

/-! ## Renaming classes -/

mutual

/-- The type with every class renamed. -/
def Ty.rename (f : ClassName → ClassName) : Ty → Ty
  | ⟨s, n⟩ => ⟨s.rename f, n⟩
termination_by structural t => t

/-- The shape with every class renamed. -/
def Shape.rename (f : ClassName → ClassName) : Shape → Shape
  | .named c as => .named (c.map f) (Projection.renameAll f as)
  | .function r ps t => .function (Ty.renameOption f r) (Ty.renameAll f ps) (t.rename f)
  | .intersection ts => .intersection (Ty.renameAll f ts)
  | .flexible l u => .flexible (l.rename f) (u.rename f)
  | .nonNull t => .nonNull (t.rename f)
  | .captured p => .captured (p.rename f)
  | .parameter n => .parameter n
  | .error => .error
termination_by structural s => s

/-- The projection with every class renamed. -/
def Projection.rename (f : ClassName → ClassName) : Projection → Projection
  | .star => .star
  | .argument v t => .argument v (t.rename f)
termination_by structural p => p

/-- The optional type with every class renamed. -/
def Ty.renameOption (f : ClassName → ClassName) : Option Ty → Option Ty
  | none => none
  | some t => some (t.rename f)
termination_by structural t => t

/-- The types with every class renamed. -/
def Ty.renameAll (f : ClassName → ClassName) : List Ty → List Ty
  | [] => []
  | t :: ts => t.rename f :: Ty.renameAll f ts
termination_by structural ts => ts

/-- The projections with every class renamed. -/
def Projection.renameAll (f : ClassName → ClassName) : List Projection → List Projection
  | [] => []
  | p :: ps => p.rename f :: Projection.renameAll f ps
termination_by structural ps => ps

end

theorem Ty.renameAll_eq_map (f : ClassName → ClassName) (ts : List Ty) :
    Ty.renameAll f ts = ts.map (Ty.rename f) := by
  induction ts with
  | nil => rfl
  | cons t ts ih => rw [Ty.renameAll, ih, List.map_cons]

theorem Projection.renameAll_eq_map (f : ClassName → ClassName) (ps : List Projection) :
    Projection.renameAll f ps = ps.map (Projection.rename f) := by
  induction ps with
  | nil => rfl
  | cons p ps ih => rw [Projection.renameAll, ih, List.map_cons]

mutual

theorem Ty.rename_id : ∀ t : Ty, t.rename id = t
  | ⟨s, _⟩ => by rw [Ty.rename, Shape.rename_id s]

theorem Shape.rename_id : ∀ s : Shape, s.rename id = s
  | .named _ as => by rw [Shape.rename, Option.map_id, Projection.renameAll_id as]; rfl
  | .function r ps t => by
    rw [Shape.rename, Ty.renameOption_id r, Ty.renameAll_id ps, Ty.rename_id t]
  | .intersection ts => by rw [Shape.rename, Ty.renameAll_id ts]
  | .flexible l u => by rw [Shape.rename, Ty.rename_id l, Ty.rename_id u]
  | .nonNull t => by rw [Shape.rename, Ty.rename_id t]
  | .captured p => by rw [Shape.rename, Projection.rename_id p]
  | .parameter _ => rfl
  | .error => rfl

theorem Projection.rename_id : ∀ p : Projection, p.rename id = p
  | .star => rfl
  | .argument _ t => by rw [Projection.rename, Ty.rename_id t]

theorem Ty.renameOption_id : ∀ r : Option Ty, Ty.renameOption id r = r
  | none => rfl
  | some t => by rw [Ty.renameOption, Ty.rename_id t]

theorem Ty.renameAll_id : ∀ ts : List Ty, Ty.renameAll id ts = ts
  | [] => rfl
  | t :: ts => by rw [Ty.renameAll, Ty.rename_id t, Ty.renameAll_id ts]

theorem Projection.renameAll_id : ∀ ps : List Projection, Projection.renameAll id ps = ps
  | [] => rfl
  | p :: ps => by rw [Projection.renameAll, Projection.rename_id p, Projection.renameAll_id ps]

end

section
variable {f : ClassName → ClassName} {form : NameForm}

theorem name_rename (hf : ∀ c, (f c).text form = c.text form) (c : Option ClassName) (w : String) :
    Writer.name form (c.map f) w = Writer.name form c w := by
  cases c with
  | none => rfl
  | some c => exact congrArg (w ++ ·) (hf c)

mutual

/-- Renaming that does not show in a form does not show in the text. -/
theorem Ty.write_rename (hf : ∀ c, (f c).text form = c.text form) :
    ∀ (t : Ty) (w : String), (t.rename f).write form w = t.write form w
  | ⟨s, false⟩, w => Shape.write_rename hf s w
  | ⟨s, true⟩, w => by rw [Ty.rename, Ty.write, Ty.write, Shape.write_rename hf s]

theorem Shape.write_rename (hf : ∀ c, (f c).text form = c.text form) :
    ∀ (s : Shape) (w : String), (s.rename f).write form w = s.write form w
  | .named c as, w => by
    rw [Shape.rename, Shape.write, Shape.write, Projection.writers_rename hf as, name_rename hf]
  | .function r ps t, w => by
    have hps : (Ty.renameAll f ps).isEmpty = ps.isEmpty := by cases ps <;> rfl
    rw [Shape.rename, Shape.write, Shape.write, Ty.writers_rename hf ps,
      Ty.writeReceiver_rename hf r, Ty.write_rename hf t, hps]
  | .intersection ts, w => by
    rw [Shape.rename, Shape.write, Shape.write, Ty.writers_rename hf ts]
  | .flexible l u, w => by
    rw [Shape.rename, Shape.write, Shape.write, Ty.write_rename hf l, Ty.write_rename hf u]
  | .nonNull t, w => by rw [Shape.rename, Shape.write, Shape.write, Ty.write_rename hf t]
  | .captured p, w => Projection.write_rename hf p w
  | .parameter _, _ => rfl
  | .error, _ => rfl

theorem Projection.write_rename (hf : ∀ c, (f c).text form = c.text form) :
    ∀ (p : Projection) (w : String), (p.rename f).write form w = p.write form w
  | .star, _ => rfl
  | .argument .invariant t, w => Ty.write_rename hf t w
  | .argument .contravariant t, _ => Ty.write_rename hf t _
  | .argument .covariant t, _ => Ty.write_rename hf t _

theorem Ty.writeReceiver_rename (hf : ∀ c, (f c).text form = c.text form) :
    ∀ (r : Option Ty) (w : String),
      Ty.writeReceiver form (Ty.renameOption f r) w = Ty.writeReceiver form r w
  | none, _ => rfl
  | some t, w => by rw [Ty.renameOption, Ty.writeReceiver, Ty.writeReceiver, Ty.write_rename hf t]

theorem Ty.writers_rename (hf : ∀ c, (f c).text form = c.text form) : ∀ ts : List Ty,
    (Ty.writers form (Ty.renameAll f ts) : List (String → String)) = Ty.writers form ts
  | [] => rfl
  | t :: ts => by
    rw [Ty.renameAll, Ty.writers, Ty.writers, funext (Ty.write_rename hf t),
      Ty.writers_rename hf ts]

theorem Projection.writers_rename (hf : ∀ c, (f c).text form = c.text form) :
    ∀ ps : List Projection, (Projection.writers form (Projection.renameAll f ps) :
      List (String → String)) = Projection.writers form ps
  | [] => rfl
  | p :: ps => by
    rw [Projection.renameAll, Projection.writers, Projection.writers,
      funext (Projection.write_rename hf p), Projection.writers_rename hf ps]

end

end

/-! ## Readable types -/

/-- The characters that give the text of a type its structure. -/
def Text.marks : List Char := ['.', '<', '>', '(', ')', ',', '?', '*', '-', ' ']

/-- A segment of a name that can be told from what stands around it. -/
def Text.IsWord (marks s : List Char) : Prop := s ≠ [] ∧ ∀ c ∈ s, c ∉ marks

instance (marks s : List Char) : Decidable (Text.IsWord marks s) :=
  -- the quantifier is over the segment, not over all characters
  @instDecidableAnd _ _ inferInstance (List.decidableBAll _ s)

/-- A canonical name whose segments are words. -/
structure ClassName.Spelled (marks : List Char) (c : ClassName) : Prop
    extends c.Canonical isUppercase where
  relativeWords : ∀ s ∈ Dotted.segments c.relative.toList, IsWord marks s
  packageWords : c.package ≠ "" → ∀ s ∈ Dotted.segments c.package.toList, IsWord marks s

instance (marks : List Char) (c : ClassName) : Decidable (c.Spelled marks) :=
  decidable_of_iff (_ ∧ _ ∧ _)
    ⟨fun h => ⟨h.1, h.2.1, h.2.2⟩, fun h => ⟨h.toCanonical, h.relativeWords, h.packageWords⟩⟩

/-- A form shows of classes what `f` keeps of them. -/
def NameForm.Shows (form : NameForm) (f : ClassName → ClassName) : Prop :=
  ∀ c d : ClassName, c.Spelled marks → d.Spelled marks → c.text form = d.text form → f c = f d

/-- Types built from resolved classes and functions alone, with names that are well spelled. -/
inductive Ty.Readable : Ty → Prop
  | named {c : ClassName} {as : List Projection} {n : Bool} (hc : c.Spelled marks)
      (has : ∀ v t, .argument v t ∈ as → Ty.Readable t) : Ty.Readable ⟨.named (some c) as, n⟩
  | function {r : Option Ty} {ps : List Ty} {t : Ty} {n : Bool} (hr : ∀ s ∈ r, Ty.Readable s)
      (hps : ∀ p ∈ ps, Ty.Readable p) (ht : Ty.Readable t) : Ty.Readable ⟨.function r ps t, n⟩

/-- A character of a name: a dot or no mark at all. -/
theorem ClassName.Spelled.mem_text {ms : List Char} {c : ClassName} (h : c.Spelled ms)
    {form : NameForm} {x : Char} (hx : x ∈ (c.text form).toList) : x = '.' ∨ x ∉ ms := by
  have hword : ∀ {cs : List Char}, (∀ s ∈ Dotted.segments cs, IsWord ms s) → x ∈ cs →
      x = '.' ∨ x ∉ ms := fun hs hx =>
    (Dotted.mem_cases hx).imp_right fun ⟨s, hm, hc⟩ => (hs s hm).2 x hc
  cases form with
  | short => exact hword h.relativeWords hx
  | qualified =>
    by_cases hp : c.package = ""
    · rw [ClassName.text, ClassName.qualified, if_pos hp] at hx
      exact hword h.relativeWords hx
    · rw [ClassName.text, ClassName.qualified, if_neg hp] at hx
      simp only [String.toList_append, List.mem_append] at hx
      rcases hx with (hx | hx) | hx
      · exact hword (h.packageWords hp) hx
      · exact .inl (List.mem_singleton.1 hx)
      · exact hword h.relativeWords hx

theorem ClassName.Spelled.text_ne_nil {c : ClassName} (h : c.Spelled marks) (form : NameForm) :
    (c.text form).toList ≠ [] := by
  have hrel : c.relative.toList ≠ [] := fun he => by
    have hs := h.relativeWords [] (by rw [he]; exact List.mem_singleton.2 rfl)
    exact hs.1 rfl
  cases form with
  | short => exact hrel
  | qualified =>
    by_cases hp : c.package = ""
    · rwa [ClassName.text, ClassName.qualified, if_pos hp]
    · simp [ClassName.text, ClassName.qualified, hp]

/-! ## Texts read backwards -/

section
variable (form : NameForm)

/-- The text of a type from its last character to its first. -/
def Ty.backward (t : Ty) : List Char := (t.render form).toList.reverse

def Shape.backward (s : Shape) : List Char := (s.write form "").toList.reverse

def Projection.backward (p : Projection) : List Char := (p.write form "").toList.reverse

def Ty.receiverBackward : Option Ty → List Char
  | none => []
  | some t => '.' :: t.backward form

/-- The keyword of a variance and the blank after it, read backwards. -/
def Variance.backward : Variance → List Char
  | .invariant => []
  | .contravariant => [' ', 'n', 'i']
  | .covariant => [' ', 't', 'u', 'o']

/-- A separated list read backwards: its last members `xs`, the last one first, then the first
member `x`. -/
def itemsBackward {α : Type} (back : α → List Char) (xs : List α) (x : α) : List Char :=
  xs.flatMap (fun y => back y ++ [' ', ',']) ++ back x

/-- The parameters of a function type read backwards, from the arrow to the bracket in front of
them, and what stands further in front. -/
def Ty.parametersBackward : List Ty → List Char → List Char
  | [], u => '(' :: u
  | p :: ps, u => ' ' :: (itemsBackward (Ty.backward form) ps.reverse p ++ '(' :: u)

theorem itemsBackward_cons {α : Type} (back : α → List Char) (y : α) (xs : List α) (x : α) :
    itemsBackward back (y :: xs) x = back y ++ ' ' :: ',' :: itemsBackward back xs x := by
  simp [itemsBackward]

theorem Ty.write_backward (t : Ty) (w : String) :
    (t.write form w).toList.reverse = t.backward form ++ w.toList.reverse := by
  rw [Ty.write_string, String.toList_append, List.reverse_append, Ty.backward]

theorem Shape.write_backward (s : Shape) (w : String) :
    (s.write form w).toList.reverse = s.backward form ++ w.toList.reverse := by
  rw [Shape.write_string, String.toList_append, List.reverse_append, Shape.backward]

theorem Projection.write_backward (p : Projection) (w : String) :
    (p.write form w).toList.reverse = p.backward form ++ w.toList.reverse := by
  rw [Projection.write_string, String.toList_append, List.reverse_append, Projection.backward]

theorem Writer.text_backward (s w : String) :
    (Writer.text s w).toList.reverse = s.toList.reverse ++ w.toList.reverse := by
  show (w ++ s).toList.reverse = _
  rw [String.toList_append, List.reverse_append]

theorem foldl_backward {α : Type} {write : α → String → String} {back : α → List Char}
    (h : ∀ x w, (write x w).toList.reverse = back x ++ w.toList.reverse) :
    ∀ (xs : List α) (w : String),
      ((xs.map write).foldl (fun w p => p (Writer.text ", " w)) w).toList.reverse =
        xs.reverse.flatMap (fun y => back y ++ [' ', ',']) ++ w.toList.reverse
  | [], _ => by simp
  | x :: xs, w => by
    rw [List.map_cons, List.foldl_cons, foldl_backward h xs, h, Writer.text_backward,
      List.reverse_cons, List.flatMap_append]
    simp

theorem separated_backward {α : Type} {write : α → String → String} {back : α → List Char}
    (h : ∀ x w, (write x w).toList.reverse = back x ++ w.toList.reverse) (x : α) (xs : List α)
    (w : String) : (Writer.separated ", " ((x :: xs).map write) w).toList.reverse =
      itemsBackward back xs.reverse x ++ w.toList.reverse := by
  rw [List.map_cons, Writer.separated, foldl_backward h, h, itemsBackward, List.append_assoc]

theorem Ty.backward_false (s : Shape) : Ty.backward form ⟨s, false⟩ = s.backward form := rfl

theorem Ty.backward_true (s : Shape) : Ty.backward form ⟨s, true⟩ = '?' :: s.backward form := by
  rw [Ty.backward, Ty.render, Ty.write, Writer.text_backward, Shape.backward]
  simp

theorem Shape.backward_named (c : ClassName) :
    Shape.backward form (.named (some c) []) = (c.text form).toList.reverse := by
  show ("" ++ c.text form).toList.reverse = _
  rw [String.empty_append]

theorem Shape.backward_applied (c : ClassName) (p : Projection) (ps : List Projection) :
    Shape.backward form (.named (some c) (p :: ps)) =
      '>' :: (itemsBackward (Projection.backward form) ps.reverse p ++
        '<' :: (c.text form).toList.reverse) := by
  have hname : (Writer.name form (some c) "").toList.reverse = (c.text form).toList.reverse :=
    backward_named form c
  rw [Shape.backward, Shape.write, Projection.writers_eq_map, List.map_cons, Writer.angled,
    Writer.text_backward, ← List.map_cons, separated_backward (Projection.write_backward form),
    Writer.text_backward, hname]
  · simp
  · exact List.cons_ne_nil _ _

theorem Ty.writeReceiver_backward (r : Option Ty) (w : String) :
    (Ty.writeReceiver form r w).toList.reverse = receiverBackward form r ++ w.toList.reverse := by
  cases r with
  | none => rfl
  | some t =>
    rw [Ty.writeReceiver, Writer.text_backward, Ty.write_backward, receiverBackward]
    simp

/-- A function type ends with a bracket, after its result and the arrow. -/
theorem Shape.backward_function (r : Option Ty) (ps : List Ty) (t : Ty) (u : List Char) :
    Shape.backward form (.function r ps t) ++ u =
      ')' :: (t.backward form ++ ' ' :: '>' :: '-' ::
        Ty.parametersBackward form ps (Ty.receiverBackward form r ++ u)) := by
  rw [Shape.backward, Shape.write, Writer.text_backward, Ty.write_backward, Writer.text_backward]
  cases ps with
  | nil =>
    rw [Ty.writers, Writer.separated_nil, Writer.text_backward, Ty.writeReceiver_backward]
    simp [Ty.parametersBackward]
  | cons p ps =>
    rw [Ty.writers_eq_map, separated_backward (Ty.write_backward form), Writer.text_backward,
      Ty.writeReceiver_backward]
    simp [Ty.parametersBackward]

theorem Projection.backward_star : Projection.backward form .star = ['*'] := by
  rw [Projection.backward, Projection.write, Writer.text_backward]
  rfl

theorem Projection.backward_argument (v : Variance) (t : Ty) :
    Projection.backward form (.argument v t) = t.backward form ++ v.backward := by
  cases v
  case invariant => exact (List.append_nil _).symm
  all_goals
    rw [Projection.backward, Projection.write, Ty.write_backward, Writer.text_backward,
      Writer.text_backward]
    · rfl
    · exact Variance.noConfusion

end

/-! ## Reading from the end -/

/-- What can stand in front of a type, read backwards: nothing, a blank or an opening bracket. -/
def TypeStart (u : List Char) : Prop := ∀ c ∈ u.head?, c = ' ' ∨ c = '<' ∨ c = '('

/-- What can stand in front of a member of a list, read backwards. -/
inductive ItemStart : List Char → Prop
  | angle (u : List Char) : ItemStart ('<' :: u)
  | paren (u : List Char) : ItemStart ('(' :: u)
  | comma (u : List Char) : ItemStart (' ' :: ',' :: u)

/-- Where the texts of `x` and `y` cannot be told apart, `x` and `y` look the same and what stands
in front of them is the same. -/
def Cancels {α β : Type} (P : List Char → Prop) (back : α → List Char) (view : α → β) (x y : α) :
    Prop := ∀ u v : List Char, P u → P v → back x ++ u = back y ++ v → view x = view y ∧ u = v

theorem typeStart_blank (u : List Char) : TypeStart (' ' :: u) :=
  fun _ hc => .inl (Option.some.inj hc).symm

theorem ItemStart.typeStart {u : List Char} (h : ItemStart u) : TypeStart u := by
  intro c hc
  cases h with
  | angle => exact .inr (.inl (Option.some.inj hc).symm)
  | paren => exact .inr (.inr (Option.some.inj hc).symm)
  | comma => exact .inl (Option.some.inj hc).symm

theorem Cancels.mono {α β : Type} {P Q : List Char → Prop} {back : α → List Char} {view : α → β}
    {x y : α} (h : Cancels P back view x y) (hPQ : ∀ u, Q u → P u) : Cancels Q back view x y :=
  fun u v hu hv => h u v (hPQ u hu) (hPQ v hv)

/-- A name ends, read backwards, where a type can begin. -/
theorem word_cancel : ∀ {l l' u v : List Char},
    (∀ x ∈ l, ¬ (x = ' ' ∨ x = '<' ∨ x = '(')) → (∀ x ∈ l', ¬ (x = ' ' ∨ x = '<' ∨ x = '(')) →
    TypeStart u → TypeStart v → l ++ u = l' ++ v → l = l' ∧ u = v
  | [], [], _, _, _, _, _, _, h => ⟨rfl, h⟩
  | [], y :: l', u, v, _, hl', hu, _, h => by
    -- the character with which the longer name goes on stands where a type begins
    rw [List.nil_append, List.cons_append] at h
    exact absurd (hu y (by rw [h]; rfl)) (hl' y List.mem_cons_self)
  | x :: l, [], u, v, hl, _, _, hv, h => by
    rw [List.nil_append, List.cons_append] at h
    exact absurd (hv x (by rw [← h]; rfl)) (hl x List.mem_cons_self)
  | x :: l, y :: l', u, v, hl, hl', hu, hv, h => by
    rw [List.cons_append, List.cons_append, List.cons.injEq] at h
    obtain ⟨rfl, h⟩ := h
    obtain ⟨rfl, huv⟩ := word_cancel (fun z hz => hl z (List.mem_cons_of_mem _ hz))
      (fun z hz => hl' z (List.mem_cons_of_mem _ hz)) hu hv h
    exact ⟨rfl, huv⟩

/-- Separated lists are read member by member, up to the bracket in front of them. -/
theorem items_cancel {α β : Type} {back : α → List Char} {view : α → β} {as bs : List α} {o : Char}
    (hc : ∀ x ∈ as, ∀ y ∈ bs, Cancels ItemStart back view x y)
    (ho : ∀ w, ItemStart (o :: w)) (hne : o ≠ ' ') {x y : α} (hx : x ∈ as) (hy : y ∈ bs)
    {u v : List Char} : ∀ {xs ys : List α}, xs ⊆ as → ys ⊆ bs →
      itemsBackward back xs x ++ o :: u = itemsBackward back ys y ++ o :: v →
      xs.map view = ys.map view ∧ view x = view y ∧ u = v
  | [], [], _, _, h => by
    obtain ⟨hxy, huv⟩ := hc x hx y hy _ _ (ho u) (ho v) h
    exact ⟨rfl, hxy, (List.cons.inj huv).2⟩
  | [], y' :: ys, _, hys, h => by
    -- one list is over where the other has a comma and a blank
    rw [itemsBackward_cons, List.append_assoc] at h
    obtain ⟨-, huv⟩ := hc x hx y' (hys List.mem_cons_self) _ _ (ho u) (.comma _) h
    exact absurd (List.cons.inj huv).1 hne
  | x' :: xs, [], hxs, _, h => by
    rw [itemsBackward_cons, List.append_assoc] at h
    obtain ⟨-, huv⟩ := hc x' (hxs List.mem_cons_self) y hy _ _ (.comma _) (ho v) h
    exact absurd (List.cons.inj huv).1.symm hne
  | x' :: xs, y' :: ys, hxs, hys, h => by
    obtain ⟨hx', hxs⟩ := List.cons_subset.1 hxs
    obtain ⟨hy', hys⟩ := List.cons_subset.1 hys
    rw [itemsBackward_cons, itemsBackward_cons, List.append_assoc, List.append_assoc] at h
    obtain ⟨hxy', hrest⟩ := hc x' hx' y' hy' _ _ (.comma _) (.comma _) h
    obtain ⟨hviews, hxy, huv⟩ := items_cancel hc ho hne hx hy hxs hys
      (List.cons.inj (List.cons.inj hrest).2).2
    exact ⟨by rw [List.map_cons, List.map_cons, hxy', hviews], hxy, huv⟩

/-- The members of a list in the order they are written, the last of which is read first. -/
theorem items_reverse_cancel {α β : Type} {back : α → List Char} {view : α → β} {x y : α}
    {xs ys : List α} {o : Char} {u v : List Char}
    (hc : ∀ a ∈ x :: xs, ∀ b ∈ y :: ys, Cancels ItemStart back view a b)
    (ho : ∀ w, ItemStart (o :: w)) (hne : o ≠ ' ')
    (h : itemsBackward back xs.reverse x ++ o :: u = itemsBackward back ys.reverse y ++ o :: v) :
    (x :: xs).map view = (y :: ys).map view ∧ u = v := by
  have hxs : xs.reverse ⊆ x :: xs := fun z hz => List.mem_cons_of_mem x (List.mem_reverse.1 hz)
  have hys : ys.reverse ⊆ y :: ys := fun z hz => List.mem_cons_of_mem y (List.mem_reverse.1 hz)
  obtain ⟨hviews, hxy, huv⟩ :=
    items_cancel hc ho hne List.mem_cons_self List.mem_cons_self hxs hys h
  rw [List.map_reverse, List.map_reverse, List.reverse_inj] at hviews
  exact ⟨by rw [List.map_cons, List.map_cons, hxy, hviews], huv⟩

/-! ## Types -/

section
variable (form : NameForm)

/-- The last character of a name is no mark but a dot. -/
theorem ClassName.Spelled.head {c : ClassName} (hc : c.Spelled marks) :
    ∃ x r, (c.text form).toList.reverse = x :: r ∧ ∀ m ∈ marks, m ≠ '.' → x ≠ m := by
  cases hr : (c.text form).toList.reverse with
  | nil => exact absurd (List.reverse_eq_nil_iff.1 hr) (hc.text_ne_nil form)
  | cons x r =>
    refine ⟨x, r, rfl, fun m hm hne he => ?_⟩
    subst he
    rcases hc.mem_text (List.mem_reverse.1 (hr ▸ List.mem_cons_self)) with hx | hx
    · exact hne hx
    · exact hx hm

/-- The text of a readable type ends with a character of a name, a bracket or a question mark, and
the last only where the type is nullable. -/
theorem Ty.Readable.shape_head {s : Shape} {n : Bool} (h : Ty.Readable ⟨s, n⟩) :
    ∃ c r, s.backward form = c :: r ∧ c ≠ '?' ∧ c ≠ '*' := by
  cases h with
  | @named c as _ hc has =>
    cases as with
    | cons p ps => exact ⟨_, _, Shape.backward_applied form c p ps, by decide, by decide⟩
    | nil =>
      obtain ⟨x, r, hr, hx⟩ := hc.head form
      exact ⟨x, r, (Shape.backward_named form c).trans hr, hx _ (by decide) (by decide),
        hx _ (by decide) (by decide)⟩
  | @function r ps t =>
    have hs := Shape.backward_function form r ps t []
    rw [List.append_nil] at hs
    exact ⟨_, _, hs, by decide, by decide⟩

theorem Ty.Readable.head {t : Ty} (h : t.Readable) : ∃ c r, t.backward form = c :: r ∧ c ≠ '*' := by
  obtain ⟨s, n⟩ := t
  cases n with
  | true => exact ⟨_, _, Ty.backward_true form s, by decide⟩
  | false =>
    obtain ⟨c, r, hs, -, hne⟩ := h.shape_head form
    exact ⟨c, r, hs, hne⟩

end

section
variable {form : NameForm} {f : ClassName → ClassName}

theorem variance_cancel {v w : Variance} {x y : List Char} (hx : ItemStart x) (hy : ItemStart y)
    (h : v.backward ++ x = w.backward ++ y) : v = w ∧ x = y := by
  cases v <;> cases w <;> cases hx <;> cases hy <;> simp_all [Variance.backward]

theorem variance_start (v : Variance) {x : List Char} (hx : ItemStart x) :
    TypeStart (v.backward ++ x) := by
  cases v with
  | invariant => exact hx.typeStart
  | contravariant => exact typeStart_blank _
  | covariant => exact typeStart_blank _

theorem Projection.cancel {p q : Projection} (hp : ∀ v s, p = .argument v s → s.Readable)
    (hq : ∀ v t, q = .argument v t → t.Readable)
    (hc : ∀ v s w t, p = .argument v s → q = .argument w t →
      Cancels TypeStart (Ty.backward form) (Ty.rename f) s t) :
    Cancels ItemStart (Projection.backward form) (Projection.rename f) p q := by
  intro u v hu hv h
  match p, q with
  | .star, .star => exact ⟨rfl, List.append_cancel_left h⟩
  | .star, .argument w t =>
    obtain ⟨c, r, ht, hne⟩ := (hq w t rfl).head form
    rw [backward_star, backward_argument, ht] at h
    exact absurd (List.cons.inj h).1.symm hne
  | .argument w s, .star =>
    obtain ⟨c, r, hs, hne⟩ := (hp w s rfl).head form
    rw [backward_star, backward_argument, hs] at h
    exact absurd (List.cons.inj h).1 hne
  | .argument w s, .argument w' t =>
    rw [backward_argument, backward_argument, List.append_assoc, List.append_assoc] at h
    obtain ⟨hst, hrest⟩ :=
      hc w s w' t rfl rfl _ _ (variance_start w hu) (variance_start w' hv) h
    obtain ⟨rfl, huv⟩ := variance_cancel hu hv hrest
    exact ⟨by rw [Projection.rename, Projection.rename, hst], huv⟩

/-- The classes are the same where their names are, read backwards up to what stands in front. -/
theorem className_cancel (hf : form.Shows f) {c d : ClassName} (hc : c.Spelled marks)
    (hd : d.Spelled marks) :
    Cancels TypeStart (fun c => (c.text form).toList.reverse) f c d := by
  intro u v hu hv h
  have hchars : ∀ {c : ClassName}, c.Spelled marks → ∀ x ∈ (c.text form).toList.reverse,
      ¬ (x = ' ' ∨ x = '<' ∨ x = '(') := by
    intro c hc x hx hor
    have hm := hc.mem_text (List.mem_reverse.1 hx)
    rcases hor with rfl | rfl | rfl <;> revert hm <;> decide
  obtain ⟨hname, huv⟩ := word_cancel (hchars hc) (hchars hd) hu hv h
  exact ⟨hf c d hc hd (String.toList_injective (List.reverse_injective hname)), huv⟩

theorem Shape.named_cancel (hf : form.Shows f) {c d : ClassName} (hc : c.Spelled marks)
    (hd : d.Spelled marks) {as bs : List Projection}
    (hargs : ∀ p ∈ as, ∀ q ∈ bs,
      Cancels ItemStart (Projection.backward form) (Projection.rename f) p q) :
    Cancels TypeStart (Shape.backward form) (Shape.rename f) (.named (some c) as)
      (.named (some d) bs) := by
  intro u v hu hv h
  have hname := className_cancel hf hc hd
  match as, bs with
  | [], [] =>
    rw [Shape.backward_named, Shape.backward_named] at h
    obtain ⟨hcd, huv⟩ := hname u v hu hv h
    exact ⟨by rw [Shape.rename, Shape.rename, Option.map_some, Option.map_some, hcd], huv⟩
  | [], q :: qs =>
    -- arguments end with a bracket, and no name does
    obtain ⟨x, r, hr, hx⟩ := hc.head form
    rw [Shape.backward_named, Shape.backward_applied, hr] at h
    exact absurd (List.cons.inj h).1 (hx _ (by decide) (by decide))
  | p :: ps, [] =>
    obtain ⟨x, r, hr, hx⟩ := hd.head form
    rw [Shape.backward_named, Shape.backward_applied, hr] at h
    exact absurd (List.cons.inj h).1.symm (hx _ (by decide) (by decide))
  | p :: ps, q :: qs =>
    rw [Shape.backward_applied, Shape.backward_applied, List.cons_append, List.cons_append,
      List.append_assoc, List.append_assoc] at h
    obtain ⟨hviews, hnames⟩ := items_reverse_cancel hargs .angle (by decide) (List.cons.inj h).2
    obtain ⟨hcd, huv⟩ := hname u v hu hv hnames
    refine ⟨?_, huv⟩
    rw [Shape.rename, Shape.rename, Projection.renameAll_eq_map, Projection.renameAll_eq_map,
      hviews, Option.map_some, Option.map_some, hcd]

theorem Ty.receiver_cancel {r r' : Option Ty}
    (hr : ∀ s ∈ r, ∀ s' ∈ r', Cancels TypeStart (Ty.backward form) (Ty.rename f) s s') :
    Cancels TypeStart (Ty.receiverBackward form) (Ty.renameOption f) r r' := by
  intro u v hu hv h
  match r, r' with
  | none, none => exact ⟨rfl, h⟩
  | none, some s' =>
    have hdot := hu '.' (by rw [show u = _ from h]; rfl)
    exact absurd hdot (by decide)
  | some s, none =>
    have hdot := hv '.' (by rw [show v = _ from h.symm]; rfl)
    exact absurd hdot (by decide)
  | some s, some s' =>
    obtain ⟨hss, huv⟩ := hr s rfl s' rfl u v hu hv (List.cons.inj h).2
    exact ⟨by rw [Ty.renameOption, Ty.renameOption, hss], huv⟩

theorem Ty.parameters_cancel {ps ps' : List Ty} {u v : List Char}
    (hc : ∀ p ∈ ps, ∀ p' ∈ ps', Cancels TypeStart (Ty.backward form) (Ty.rename f) p p')
    (h : Ty.parametersBackward form ps u = Ty.parametersBackward form ps' v) :
    Ty.renameAll f ps = Ty.renameAll f ps' ∧ u = v := by
  match ps, ps' with
  | [], [] => exact ⟨rfl, (List.cons.inj h).2⟩
  | [], _ :: _ => exact absurd (List.cons.inj h).1 (by decide)
  | _ :: _, [] => exact absurd (List.cons.inj h).1 (by decide)
  | p :: ps, p' :: ps' =>
    have hc' : ∀ q ∈ p :: ps, ∀ q' ∈ p' :: ps',
        Cancels ItemStart (Ty.backward form) (Ty.rename f) q q' :=
      fun q hq q' hq' => (hc q hq q' hq').mono fun _ => ItemStart.typeStart
    obtain ⟨hviews, huv⟩ := items_reverse_cancel hc' .paren (by decide) (List.cons.inj h).2
    exact ⟨by rw [Ty.renameAll_eq_map, Ty.renameAll_eq_map, hviews], huv⟩

theorem Shape.function_cancel {r r' : Option Ty} {ps ps' : List Ty} {t t' : Ty}
    (hr : ∀ s ∈ r, ∀ s' ∈ r', Cancels TypeStart (Ty.backward form) (Ty.rename f) s s')
    (hps : ∀ p ∈ ps, ∀ p' ∈ ps', Cancels TypeStart (Ty.backward form) (Ty.rename f) p p')
    (ht : Cancels TypeStart (Ty.backward form) (Ty.rename f) t t') :
    Cancels TypeStart (Shape.backward form) (Shape.rename f) (.function r ps t)
      (.function r' ps' t') := by
  intro u v hu hv h
  rw [backward_function, backward_function] at h
  obtain ⟨htt, harrow⟩ := ht _ _ (typeStart_blank _) (typeStart_blank _) (List.cons.inj h).2
  simp only [List.cons.injEq, true_and] at harrow
  obtain ⟨hpp, hrest⟩ := Ty.parameters_cancel hps harrow
  obtain ⟨hrr, huv⟩ := Ty.receiver_cancel hr u v hu hv hrest
  exact ⟨by rw [Shape.rename, Shape.rename, htt, hpp, hrr], huv⟩

theorem Shape.named_ne_function {c : ClassName} (hc : c.Spelled marks) {as : List Projection}
    {r : Option Ty} {ps : List Ty} {t : Ty} (u v : List Char) :
    Shape.backward form (.named (some c) as) ++ u ≠
      Shape.backward form (.function r ps t) ++ v := by
  rw [backward_function]
  cases as with
  | nil =>
    obtain ⟨x, r, hr, hx⟩ := hc.head form
    rw [backward_named, hr]
    exact fun h => hx _ (by decide) (by decide) (List.cons.inj h).1
  | cons p ps =>
    rw [backward_applied]
    exact fun h => absurd (List.cons.inj h).1 (by decide)

theorem Ty.nullable_cancel {s s' : Shape} {n n' : Bool} (ha : Ty.Readable ⟨s, n⟩)
    (hb : Ty.Readable ⟨s', n'⟩)
    (hs : Cancels TypeStart (Shape.backward form) (Shape.rename f) s s') :
    Cancels TypeStart (Ty.backward form) (Ty.rename f) ⟨s, n⟩ ⟨s', n'⟩ := by
  intro u v hu hv h
  obtain ⟨c, r, hc, hne, -⟩ := ha.shape_head form
  obtain ⟨c', r', hc', hne', -⟩ := hb.shape_head form
  match n, n' with
  | false, false =>
    obtain ⟨hss, huv⟩ := hs u v hu hv h
    exact ⟨by rw [Ty.rename, Ty.rename, hss], huv⟩
  | false, true =>
    rw [backward_false, backward_true, hc] at h
    exact absurd (List.cons.inj h).1 hne
  | true, false =>
    rw [backward_false, backward_true, hc'] at h
    exact absurd (List.cons.inj h).1.symm hne'
  | true, true =>
    rw [backward_true, backward_true] at h
    obtain ⟨hss, huv⟩ := hs u v hu hv (List.cons.inj h).2
    exact ⟨by rw [Ty.rename, Ty.rename, hss], huv⟩

/-- **Unique reading**: the text of a readable type, read backwards, ends where the type begins and
shows the type up to what the form does not show of its classes. -/
theorem Ty.Readable.cancel (hf : form.Shows f) {a b : Ty} (ha : a.Readable) (hb : b.Readable) :
    Cancels TypeStart (Ty.backward form) (Ty.rename f) a b := by
  -- the parts of `a` are compared with those of `b`, so `b` varies along
  induction ha generalizing b with
  | @named c as n hc has ih =>
    obtain ⟨s', n'⟩ := b
    refine Ty.nullable_cancel (.named hc has) hb ?_
    cases hb with
    | @named d bs _ hd hbs =>
      refine Shape.named_cancel hf hc hd fun p hp q hq => Projection.cancel ?_ ?_ ?_
      · exact fun v s e => has v s (e ▸ hp)
      · exact fun v t e => hbs v t (e ▸ hq)
      · exact fun v s w t e e' => ih v s (e ▸ hp) (hbs w t (e' ▸ hq))
    | function =>
      exact fun u v _ _ h => absurd h (Shape.named_ne_function hc u v)
  | @function r ps t n hr hps ht ihr ihps iht =>
    obtain ⟨s', n'⟩ := b
    refine Ty.nullable_cancel (.function hr hps ht) hb ?_
    cases hb with
    | named hd =>
      exact fun u v _ _ h => absurd h.symm (Shape.named_ne_function hd v u)
    | function hr' hps' ht' =>
      exact Shape.function_cancel (fun s hs s' hs' => ihr s hs (hr' s' hs'))
        (fun p hp p' hp' => ihps p hp (hps' p' hp')) (iht ht')

end

/-! ## What names tell -/

def ClassName.withoutPackage (c : ClassName) : ClassName := { c with package := "" }

/-- The type with every class moved out of its package. -/
def Ty.withoutPackages (t : Ty) : Ty := t.rename ClassName.withoutPackage

theorem Ty.Readable.rename_eq {form : NameForm} {f : ClassName → ClassName} (hf : form.Shows f)
    {a b : Ty} (ha : a.Readable) (hb : b.Readable) (h : a.render form = b.render form) :
    a.rename f = b.rename f := by
  have hback : a.backward form ++ [] = b.backward form ++ [] := by
    rw [Ty.backward, Ty.backward, h]
  exact (ha.cancel hf hb [] [] nofun nofun hback).1

/-- Readable types with the same qualified text are the same. -/
theorem Ty.Readable.eq_of_render_qualified {a b : Ty} (ha : a.Readable) (hb : b.Readable)
    (h : a.render .qualified = b.render .qualified) : a = b := by
  have hid : NameForm.qualified.Shows id := fun _ _ hc hd hcd =>
    hc.toCanonical.eq_of_qualified isUppercase_dot hd.toCanonical hcd
  rw [← Ty.rename_id a, ← Ty.rename_id b]
  exact ha.rename_eq hid hb h

/-- The short text shows nothing of the packages. -/
theorem Ty.render_withoutPackages (t : Ty) :
    t.withoutPackages.render .short = t.render .short := by
  have hshort : ∀ c : ClassName, c.withoutPackage.text .short = c.text .short := fun _ => rfl
  exact t.write_rename hshort ""

/-- Readable types have the same short text exactly when they differ in packages at most. -/
theorem Ty.Readable.render_short_iff {a b : Ty} (ha : a.Readable) (hb : b.Readable) :
    a.render .short = b.render .short ↔ a.withoutPackages = b.withoutPackages := by
  constructor
  · intro h
    have hpackage : NameForm.short.Shows ClassName.withoutPackage := fun _ _ _ _ hcd =>
      congrArg (ClassName.mk "") hcd
    exact ha.rename_eq hpackage hb h
  · intro h
    rw [← a.render_withoutPackages, h, b.render_withoutPackages]

/-- **What a name match means.** The names of readable types match exactly for equal types, match in
their short forms alone for types that differ in packages and nowhere else, and differ for all
others: the qualified text determines the type, and the short text determines it up to packages. -/
theorem NameMatch.of_readable {a b : Ty} (ha : a.Readable) (hb : b.Readable) :
    (NameMatch.of a.names b.names = .exact ↔ a = b) ∧
    (NameMatch.of a.names b.names = .shortOnly ↔
      a ≠ b ∧ a.withoutPackages = b.withoutPackages) ∧
    (NameMatch.of a.names b.names = .different ↔
      a ≠ b ∧ a.withoutPackages ≠ b.withoutPackages) ∧
    (a.render .qualified = b.render .qualified ↔ a = b) ∧
    (a.render .short = b.render .short ↔ a.withoutPackages = b.withoutPackages) := by
  have hq : a.render .qualified = b.render .qualified ↔ a = b :=
    ⟨ha.eq_of_render_qualified hb, fun h => by rw [h]⟩
  have hs := ha.render_short_iff hb
  refine ⟨?_, ?_, ?_, hq, hs⟩
  · exact of_eq_exact_iff.trans hq
  · exact of_eq_shortOnly_iff.trans (and_congr (not_congr hq) hs)
  · exact of_eq_different_iff.trans (and_congr (not_congr hq) (not_congr hs))

/-- Functions on nullable lists of entries, for the lists of a package. -/
def listFunction (package : String) : Ty :=
  let entry : Ty := ⟨.named (some ⟨"kotlin.collections", "Map.Entry"⟩) [.star], true⟩
  let list : Ty := ⟨.named (some ⟨package, "List"⟩) [.argument .covariant entry], true⟩
  ⟨.function (some list) [entry, list] entry, false⟩

theorem of_readable_listFunction :
    (listFunction "kotlin.collections").Readable ∧ (listFunction "java.util").Readable ∧
    NameMatch.of (listFunction "kotlin.collections").names (listFunction "java.util").names =
      .shortOnly := by
  have hentry : Ty.Readable ⟨.named (some ⟨"kotlin.collections", "Map.Entry"⟩) [.star], true⟩ :=
    .named (by decide) (by simp)
  have hlist : ∀ package, ClassName.Spelled marks ⟨package, "List"⟩ →
      (listFunction package).Readable := by
    intro package hp
    have hl : Ty.Readable ⟨.named (some ⟨package, "List"⟩) [.argument .covariant
        ⟨.named (some ⟨"kotlin.collections", "Map.Entry"⟩) [.star], true⟩], true⟩ :=
      .named hp (by simp [hentry])
    exact .function (by simp [hl]) (by simp [hentry, hl]) hentry
  have hk := hlist "kotlin.collections" (by decide)
  have hj := hlist "java.util" (by decide)
  exact ⟨hk, hj, (NameMatch.of_readable hk hj).2.1.2 ⟨by decide, by decide⟩⟩

end Inlay
