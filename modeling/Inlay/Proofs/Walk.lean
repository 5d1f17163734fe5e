import Inlay.Hint.Draft
import Mathlib.Data.List.Forall2

/-!
# One walk for every destination

`Ty.write` is polymorphic in its destination, so whatever it does is a sequence of calls that does
not depend on the destination. Everything here comes from two inductions over types:

* **Simulation** (`Ty.write_simulates`): a relation between the states of two destinations that
  every call keeps is kept by the walk, also when the two walks show class names in different forms.
* **Collection** (`Ty.write_collects`): a view of a destination that grows by one entry for each
  class name and by nothing for plain text grows by the classes of the type, from left to right
  (`Ty.classNames`).

With a log as one of the destinations, simulation says that the walk replays its own log
(`Ty.write_eq_replay`) and that the logs of the two forms agree call by call (`Ty.calls_alike`).
-/

namespace Inlay

open Writer (text className separated angled perform)

/-! ## Two walks side by side -/

/-- The calls keep `R`: the same text on both sides, and the same class on both sides, in form `f`
on the left and in form `g` on the right. -/
structure Writer.Simulates {σ τ : Type} [Writer σ] [Writer τ] (f g : NameForm)
    (R : σ → τ → Prop) : Prop where
  text : ∀ (s : String) {w : σ} {x : τ}, R w x → R (text s w) (text s x)
  className : ∀ (c : ClassName) {w : σ} {x : τ}, R w x →
    R (className c (c.text f) w) (className c (c.text g) x)

section
variable {σ τ : Type} [Writer σ] [Writer τ] {f g : NameForm} {R : σ → τ → Prop}

/-- Two writers of the same item that keep `R`. -/
def Writer.Keeps (R : σ → τ → Prop) (p : σ → σ) (q : τ → τ) : Prop := ∀ {w x}, R w x → R (p w) (q x)

namespace Writer.Simulates

variable (h : Simulates f g R)
include h

theorem name (c : Option ClassName) : Keeps R (Writer.name f c) (Writer.name g c) := by
  intro w x hr
  cases c with
  | none => exact h.text _ hr
  | some c => exact h.className c hr

theorem foldl (sep : String) {ps : List (σ → σ)} {qs : List (τ → τ)}
    (hs : List.Forall₂ (Keeps R) ps qs) :
    Keeps R (fun w => ps.foldl (fun w p => p (Writer.text sep w)) w)
      (fun x => qs.foldl (fun x q => q (Writer.text sep x)) x) := by
  induction hs with
  | nil => exact fun hr => hr
  | cons hp _ ih => exact fun hr => ih (hp (h.text sep hr))

theorem separated (sep : String) {ps : List (σ → σ)} {qs : List (τ → τ)}
    (hs : List.Forall₂ (Keeps R) ps qs) :
    Keeps R (Writer.separated sep ps) (Writer.separated sep qs) := by
  intro w x hr
  cases hs with
  | nil => exact hr
  | cons hp hps => exact h.foldl sep hps (hp hr)

theorem angled {ps : List (σ → σ)} {qs : List (τ → τ)} (hs : List.Forall₂ (Keeps R) ps qs) :
    Keeps R (Writer.angled ps) (Writer.angled qs) := by
  intro w x hr
  cases hs with
  | nil => exact hr
  | cons hp hps => exact h.text ">" (h.separated ", " (.cons hp hps) (h.text "<" hr))

end Writer.Simulates

open Writer (Keeps Simulates)

mutual

/-- **Simulation**: what every call keeps, the walk keeps. -/
theorem Ty.write_simulates (h : Simulates f g R) : ∀ t : Ty, Keeps R (t.write f) (t.write g)
  | ⟨s, false⟩, _, _, hr => Shape.write_simulates h s hr
  | ⟨s, true⟩, _, _, hr => h.text "?" (Shape.write_simulates h s hr)

theorem Shape.write_simulates (h : Simulates f g R) : ∀ s : Shape, Keeps R (s.write f) (s.write g)
  | .named c as, _, _, hr => h.angled (Projection.writers_simulate h as) (h.name c hr)
  | .function r ps t, _, _, hr => by
    have hopen := h.text "(" (Ty.writeReceiver_simulates h r hr)
    have hparams := h.separated ", " (Ty.writers_simulate h ps) hopen
    have harrow := h.text (if ps.isEmpty then "-> " else " -> ") hparams
    exact h.text ")" (Ty.write_simulates h t harrow)
  | .intersection ts, _, _, hr => h.separated " & " (Ty.writers_simulate h ts) hr
  | .flexible l u, _, _, hr =>
    Ty.write_simulates h u (h.text " .. " (Ty.write_simulates h l hr))
  | .nonNull t, _, _, hr => h.text " & Any" (Ty.write_simulates h t hr)
  | .captured p, _, _, hr => Projection.write_simulates h p hr
  | .parameter n, _, _, hr => h.text n hr
  | .error, _, _, hr => h.text placeholder hr

theorem Projection.write_simulates (h : Simulates f g R) :
    ∀ p : Projection, Keeps R (p.write f) (p.write g)
  | .star, _, _, hr => h.text "*" hr
  | .argument .invariant t, _, _, hr => Ty.write_simulates h t hr
  | .argument .contravariant t, _, _, hr =>
    Ty.write_simulates h t (h.text " " (h.text Variance.contravariant.keyword hr))
  | .argument .covariant t, _, _, hr =>
    Ty.write_simulates h t (h.text " " (h.text Variance.covariant.keyword hr))

theorem Ty.writeReceiver_simulates (h : Simulates f g R) :
    ∀ r : Option Ty, Keeps R (Ty.writeReceiver f r) (Ty.writeReceiver g r)
  | none, _, _, hr => hr
  | some t, _, _, hr => h.text "." (Ty.write_simulates h t hr)

theorem Ty.writers_simulate (h : Simulates f g R) :
    ∀ ts : List Ty, List.Forall₂ (Keeps R) (Ty.writers f ts) (Ty.writers g ts)
  | [] => .nil
  | t :: ts => .cons (Ty.write_simulates h t) (Ty.writers_simulate h ts)

theorem Projection.writers_simulate (h : Simulates f g R) : ∀ ps : List Projection,
    List.Forall₂ (Keeps R) (Projection.writers f ps) (Projection.writers g ps)
  | [] => .nil
  | p :: ps => .cons (Projection.write_simulates h p) (Projection.writers_simulate h ps)

end

end

open Writer (Simulates)

/-! ## The log of a walk -/

/-- Two calls that do the same: the same text, or the same class, shown in form `f` by one and in
form `g` by the other. -/
inductive Call.Alike (f g : NameForm) : Call → Call → Prop
  | text (s : String) : Alike f g (.text s) (.text s)
  | className (c : ClassName) : Alike f g (.className c (c.text f)) (.className c (c.text g))

/-- The class that a call names. -/
def Call.className? : Call → Option ClassName
  | .text _ => none
  | .className c _ => some c

theorem replay_simulates {σ : Type} [Writer σ] (form : NameForm) (w₀ : σ) :
    Simulates form form fun (log : Array Call) w => w = log.toList.foldl perform w₀ where
  text s log w hr := by
    subst hr
    simp [text, perform]
  className c log w hr := by
    subst hr
    simp [className, perform]

/-- **Replay**: on every destination and from every state, the walk does what its log says. -/
theorem Ty.write_eq_replay {σ : Type} [Writer σ] (form : NameForm) (t : Ty) (w : σ) :
    t.write form w = (t.calls form).foldl perform w :=
  t.write_simulates (replay_simulates form w) (w := #[]) rfl

theorem alike_simulates (f g : NameForm) :
    Simulates f g fun log log' : Array Call =>
      List.Forall₂ (Call.Alike f g) log.toList log'.toList where
  text s log log' hr := by
    simp only [text, Array.toList_push]
    exact List.rel_append hr (.cons (.text s) .nil)
  className c log log' hr := by
    simp only [className, Array.toList_push]
    exact List.rel_append hr (.cons (.className c) .nil)

/-- The logs of two forms agree call by call. -/
theorem Ty.calls_alike (f g : NameForm) (t : Ty) :
    List.Forall₂ (Call.Alike f g) (t.calls f) (t.calls g) :=
  t.write_simulates (alike_simulates f g) (w := #[]) (x := #[]) .nil

/-! ## The classes of a type -/

mutual

/-- The classes that a type names, from left to right; classes that cannot be resolved have no
name. -/
def Ty.classNames : Ty → List ClassName
  | ⟨s, _⟩ => s.classNames
termination_by structural t => t

/-- The classes that a shape names: the class before its arguments, the receiver before the
parameters and these before the result, the lower bound before the upper one. -/
def Shape.classNames : Shape → List ClassName
  | .named c as => c.toList ++ Projection.classNamesAll as
  | .function r ps t => Ty.classNamesOption r ++ Ty.classNamesAll ps ++ t.classNames
  | .intersection ts => Ty.classNamesAll ts
  | .flexible l u => l.classNames ++ u.classNames
  | .nonNull t => t.classNames
  | .captured p => p.classNames
  | .parameter _ | .error => []
termination_by structural s => s

/-- The classes that a projection names. -/
def Projection.classNames : Projection → List ClassName
  | .star => []
  | .argument _ t => t.classNames
termination_by structural p => p

/-- The classes that an optional type names. -/
def Ty.classNamesOption : Option Ty → List ClassName
  | none => []
  | some t => t.classNames
termination_by structural t => t

/-- The classes that the members of a list name. -/
def Ty.classNamesAll : List Ty → List ClassName
  | [] => []
  | t :: ts => t.classNames ++ Ty.classNamesAll ts
termination_by structural ts => ts

/-- The classes that the members of a list name. -/
def Projection.classNamesAll : List Projection → List ClassName
  | [] => []
  | p :: ps => p.classNames ++ Projection.classNamesAll ps
termination_by structural ps => ps

end

theorem Ty.classNamesAll_eq (ts : List Ty) : Ty.classNamesAll ts = ts.flatMap Ty.classNames := by
  induction ts with
  | nil => rfl
  | cons t ts ih => rw [Ty.classNamesAll, ih, List.flatMap_cons]

theorem Projection.classNamesAll_eq (ps : List Projection) :
    Projection.classNamesAll ps = ps.flatMap Projection.classNames := by
  induction ps with
  | nil => rfl
  | cons p ps ih => rw [Projection.classNamesAll, ih, List.flatMap_cons]

/-- `view` lists an entry for each class name that was written, and nothing else. -/
structure Writer.Collects {σ β : Type} [Writer σ] (entry : ClassName → β) (view : σ → List β) :
    Prop where
  text : ∀ (s : String) (w : σ), view (text s w) = view w
  className : ∀ (c : ClassName) (shown : String) (w : σ),
    view (className c shown w) = view w ++ [entry c]

section
variable {σ β : Type} [Writer σ] {entry : ClassName → β} {view : σ → List β} {form : NameForm}

/-- The writer `p` adds the entries of the classes `cs`. -/
def Writer.Adds (entry : ClassName → β) (view : σ → List β) (p : σ → σ) (cs : List ClassName) :
    Prop := ∀ w, view (p w) = view w ++ cs.map entry

namespace Writer.Collects

variable (h : Collects entry view)
include h

theorem name (c : Option ClassName) : Adds entry view (Writer.name form c) c.toList := by
  intro w
  cases c with
  | none => simp [Writer.name, h.text]
  | some c => simp [Writer.name, h.className]

theorem foldl {α : Type} (sep : String) (write : α → σ → σ) (names : α → List ClassName)
    (xs : List α) (hs : ∀ x ∈ xs, Adds entry view (write x) (names x)) :
    Adds entry view (fun w => (xs.map write).foldl (fun w p => p (Writer.text sep w)) w)
      (xs.flatMap names) := by
  induction xs with
  | nil => simp [Adds]
  | cons x xs ih =>
    intro w
    have hx := hs x List.mem_cons_self
    have hxs := ih fun y hy => hs y (List.mem_cons_of_mem _ hy)
    simp only [List.map_cons, List.foldl_cons, List.flatMap_cons, List.map_append]
    rw [hxs, hx, h.text, List.append_assoc]

theorem separated {α : Type} (sep : String) (write : α → σ → σ) (names : α → List ClassName)
    (xs : List α) (hs : ∀ x ∈ xs, Adds entry view (write x) (names x)) :
    Adds entry view (Writer.separated sep (xs.map write)) (xs.flatMap names) := by
  intro w
  cases xs with
  | nil => simp
  | cons x xs =>
    have hx := hs x List.mem_cons_self
    have hxs := h.foldl sep write names xs fun y hy => hs y (List.mem_cons_of_mem _ hy)
    rw [List.map_cons, Writer.separated, hxs, hx, List.flatMap_cons, List.map_append,
      List.append_assoc]

theorem angled {α : Type} (write : α → σ → σ) (names : α → List ClassName)
    (xs : List α) (hs : ∀ x ∈ xs, Adds entry view (write x) (names x)) :
    Adds entry view (Writer.angled (xs.map write)) (xs.flatMap names) := by
  intro w
  cases xs with
  | nil => simp [Writer.angled]
  | cons x xs =>
    have hxs := h.separated ", " write names (x :: xs) hs
    rw [List.map_cons] at hxs ⊢
    rw [Writer.angled, h.text, hxs, h.text]
    simp

end Writer.Collects

open Writer (Adds Collects)

mutual

/-- **Collection**: the walk adds the entries of the classes of a type, from left to right. -/
theorem Ty.write_collects (h : Collects entry view) :
    ∀ t : Ty, Adds entry view (t.write form) t.classNames
  | ⟨s, false⟩, w => Shape.write_collects h s w
  | ⟨s, true⟩, w => (h.text "?" _).trans (Shape.write_collects h s w)

theorem Shape.write_collects (h : Collects entry view) :
    ∀ s : Shape, Adds entry view (s.write form) s.classNames
  | .named c as, w => by
    have has := h.angled _ _ as (Projection.writeAll_collects h as)
    rw [Shape.write, Shape.classNames, Projection.writers_eq_map, Projection.classNamesAll_eq, has,
      h.name, List.map_append, List.append_assoc]
  | .function r ps t, w => by
    have hps := h.separated ", " _ _ ps (Ty.writeAll_collects h ps)
    rw [Shape.write, Shape.classNames, Ty.writers_eq_map, Ty.classNamesAll_eq, h.text,
      Ty.write_collects h t, h.text, hps, h.text, Ty.writeReceiver_collects h r]
    simp only [List.map_append, List.append_assoc]
  | .intersection ts, w => by
    have hts := h.separated " & " _ _ ts (Ty.writeAll_collects h ts)
    rw [Shape.write, Shape.classNames, Ty.writers_eq_map, Ty.classNamesAll_eq, hts]
  | .flexible l u, w => by
    rw [Shape.write, Shape.classNames, Ty.write_collects h u, h.text, Ty.write_collects h l,
      List.map_append, List.append_assoc]
  | .nonNull t, w => (h.text " & Any" _).trans (Ty.write_collects h t w)
  | .captured p, w => Projection.write_collects h p w
  | .parameter n, w => by simp [Shape.write, Shape.classNames, h.text]
  | .error, w => by simp [Shape.write, Shape.classNames, h.text]

theorem Projection.write_collects (h : Collects entry view) :
    ∀ p : Projection, Adds entry view (p.write form) p.classNames
  | .star, w => by simp [Projection.write, Projection.classNames, h.text]
  | .argument .invariant t, w => Ty.write_collects h t w
  | .argument .contravariant t, w => by
    rw [Projection.write, Projection.classNames, Ty.write_collects h t, h.text, h.text]
    simp
  | .argument .covariant t, w => by
    rw [Projection.write, Projection.classNames, Ty.write_collects h t, h.text, h.text]
    simp

theorem Ty.writeReceiver_collects (h : Collects entry view) :
    ∀ r : Option Ty, Adds entry view (Ty.writeReceiver form r) (Ty.classNamesOption r)
  | none, w => by simp [Ty.writeReceiver, Ty.classNamesOption]
  | some t, w => (h.text "." _).trans (Ty.write_collects h t w)

theorem Ty.writeAll_collects (h : Collects entry view) :
    ∀ ts : List Ty, ∀ t ∈ ts, Adds entry view (t.write form) t.classNames
  | [] => List.forall_mem_nil _
  | t :: ts => List.forall_mem_cons.2 ⟨Ty.write_collects h t, Ty.writeAll_collects h ts⟩

theorem Projection.writeAll_collects (h : Collects entry view) :
    ∀ ps : List Projection, ∀ p ∈ ps, Adds entry view (p.write form) p.classNames
  | [] => List.forall_mem_nil _
  | p :: ps =>
    List.forall_mem_cons.2 ⟨Projection.write_collects h p, Projection.writeAll_collects h ps⟩

end

end

open Writer (Collects)

theorem calls_collects :
    Collects id fun log : Array Call => log.toList.filterMap Call.className? where
  text s log := by simp [text, Call.className?]
  className c shown log := by simp [className, Call.className?]

/-- The classes in the log of a walk are those of the type. -/
theorem Ty.calls_classNames (form : NameForm) (t : Ty) :
    (t.calls form).filterMap Call.className? = t.classNames := by
  have h : (t.calls form).filterMap Call.className? = [] ++ t.classNames.map id :=
    t.write_collects calls_collects #[]
  rw [h, List.map_id, List.nil_append]

/-! ## Texts and drafts -/

theorem append_simulates (form : NameForm) (w₀ : String) :
    Simulates form form fun w x : String => x = w₀ ++ w where
  text s w x hr := by rw [hr]; exact String.append_assoc
  className c w x hr := by rw [hr]; exact String.append_assoc

/-- Writing to a string appends the text of the type. -/
theorem Ty.write_string (form : NameForm) (t : Ty) (w : String) :
    t.write form w = w ++ t.render form :=
  t.write_simulates (append_simulates form w) String.append_empty.symm

theorem Shape.write_string (form : NameForm) (s : Shape) (w : String) :
    s.write form w = w ++ s.write form "" :=
  s.write_simulates (append_simulates form w) String.append_empty.symm

theorem Projection.write_string (form : NameForm) (p : Projection) (w : String) :
    p.write form w = w ++ p.write form "" :=
  p.write_simulates (append_simulates form w) String.append_empty.symm

namespace Draft

/-- The text of a draft: the texts of its segments. -/
def content (d : Draft) : String := String.join (d.segments.map (·.text))

/-- Where the links of a draft lead. -/
def targets (d : Draft) : List String := d.segments.filterMap (·.target)

/-- Plain text either makes the last segment longer or is a segment of its own. -/
theorem segments_text_cases (s : String) (d : Draft) :
    (s = "" ∧ (d.text s).segments = d.segments) ∨
    (∃ init last, d.segments = init ++ [.plain last] ∧
      (d.text s).segments = init ++ [.plain (last ++ s)]) ∨
    (d.text s).segments = d.segments ++ [.plain s] := by
  by_cases hs : s = ""
  · exact .inl ⟨hs, by rw [hs, text_empty]⟩
  · obtain ⟨segs⟩ := d
    unfold text
    rw [if_neg hs]
    dsimp only
    -- a draft has its last segment at the head
    split
    · rename_i last rest
      exact .inr (.inl ⟨rest.reverse, last, by simp [segments, Segment.plain], by simp [segments]⟩)
    · exact .inr (.inr (by simp [segments]))

@[simp] theorem content_text (s : String) (d : Draft) : (d.text s).content = d.content ++ s := by
  unfold content
  rcases segments_text_cases s d with ⟨rfl, h⟩ | ⟨init, last, hd, h⟩ | h
  · rw [h, String.append_empty]
  · simp [h, hd, Segment.plain, String.join_append, String.append_assoc]
  · simp [h, Segment.plain, String.join_append]

@[simp] theorem content_link (s target : String) (d : Draft) :
    (d.link s target).content = d.content ++ s := by
  simp [content, Segment.link, String.join_append]

@[simp] theorem targets_text (s : String) (d : Draft) : (d.text s).targets = d.targets := by
  unfold targets
  rcases segments_text_cases s d with ⟨rfl, h⟩ | ⟨init, last, hd, h⟩ | h
  · rw [h]
  · simp [h, hd, Segment.plain]
  · simp [h, Segment.plain]

@[simp] theorem targets_link (s target : String) (d : Draft) :
    (d.link s target).targets = d.targets ++ [target] := by
  simp [targets, Segment.link]

theorem content_simulates (form : NameForm) (d₀ : Draft) :
    Simulates form form fun (w : String) (d : Draft) => d.content = d₀.content ++ w where
  text s w d hr := by
    show (d.text s).content = d₀.content ++ (w ++ s)
    rw [content_text, hr, String.append_assoc]
  className c w d hr := by
    show (d.link (c.text form) c.qualified).content = d₀.content ++ (w ++ c.text form)
    rw [content_link, hr, String.append_assoc]

/-- A type adds its text to a draft. -/
theorem content_type (t : Ty) (form : NameForm) (d : Draft) :
    (d.type t form).content = d.content ++ t.render form :=
  t.write_simulates (content_simulates form d) String.append_empty.symm

theorem targets_collects : Collects ClassName.qualified targets where
  text := targets_text
  className c shown d := targets_link shown c.qualified d

/-- A type adds links to its classes to a draft. -/
theorem targets_type (t : Ty) (form : NameForm) (d : Draft) :
    (d.type t form).targets = d.targets ++ t.classNames.map ClassName.qualified :=
  t.write_collects targets_collects d

end Draft

/-- **One walk serves every destination.** The log of a walk replays on every destination from every
state; the logs of the two forms agree call by call, with the same text or with the same class in
the form of its walk; their classes are those of the type, from left to right. So a type adds to a
draft exactly its own text, and links to its classes whichever form they are shown in. -/
theorem Ty.walk_serves_every_writer (t : Ty) :
    (∀ (form : NameForm) (σ : Type) [Writer σ] (w : σ),
      t.write form w = (t.calls form).foldl perform w) ∧
    List.Forall₂ (Call.Alike .short .qualified) (t.calls .short) (t.calls .qualified) ∧
    (∀ form, (t.calls form).filterMap Call.className? = t.classNames) ∧
    ∀ (form : NameForm) (d : Draft),
      (d.type t form).content = d.content ++ t.render form ∧
      (d.type t form).targets = d.targets ++ t.classNames.map ClassName.qualified :=
  ⟨fun form _ _ w => t.write_eq_replay form w, t.calls_alike .short .qualified,
    fun form => t.calls_classNames form,
    fun form d => ⟨d.content_type t form, d.targets_type t form⟩⟩

end Inlay
