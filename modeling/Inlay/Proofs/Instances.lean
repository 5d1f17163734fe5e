import Inlay.Ty.Instance
import Mathlib.Data.List.Forall2

/-!
# Instances of patterns

`Ty.isInstanceOf` compares two types place by place. Here the same relation is described by what has
to be put into the reference type to get the other one:

* `Ty.IsPattern`: the types that have instances, built from type parameters and from resolved
  classes without `*`.
* `Ty.Filled`: a type with some type in the place of every type parameter. Each occurrence is filled
  on its own, so the two places of `Map<T, T>` may take different types.
* `Ty.erase`: what is compared, which is all but nullability and variance.

`Ty.isInstanceOf_iff_filled` says that the instances of a type are its fillings, up to erasure, if
it is a pattern, and that it has none otherwise.
-/

namespace Inlay

/-! ## Erasure -/

mutual

/-- The type with nothing nullable and every projection invariant. -/
def Ty.erase : Ty → Ty
  | ⟨s, _⟩ => ⟨s.erase, false⟩
termination_by structural t => t

def Shape.erase : Shape → Shape
  | .named c as => .named c (Projection.eraseAll as)
  | .function r ps t => .function (Ty.eraseOption r) (Ty.eraseAll ps) t.erase
  | .intersection ts => .intersection (Ty.eraseAll ts)
  | .flexible l u => .flexible l.erase u.erase
  | .nonNull t => .nonNull t.erase
  | .captured p => .captured p.erase
  | .parameter x => .parameter x
  | .error => .error
termination_by structural s => s

def Projection.erase : Projection → Projection
  | .star => .star
  | .argument _ t => .argument .invariant t.erase
termination_by structural p => p

def Ty.eraseOption : Option Ty → Option Ty
  | none => none
  | some t => some t.erase
termination_by structural t => t

def Ty.eraseAll : List Ty → List Ty
  | [] => []
  | t :: ts => t.erase :: Ty.eraseAll ts
termination_by structural ts => ts

def Projection.eraseAll : List Projection → List Projection
  | [] => []
  | p :: ps => p.erase :: Projection.eraseAll ps
termination_by structural ps => ps

end

mutual

/-- Erasure on either side does not change which types are instances. -/
theorem Ty.isInstanceOf_erase : ∀ t r : Ty, t.erase.isInstanceOf r.erase = t.isInstanceOf r
  | ⟨s, _⟩, ⟨r, _⟩ => Shape.isInstanceOf_erase s r

theorem Shape.isInstanceOf_erase : ∀ s r : Shape, s.erase.isInstanceOf r.erase = s.isInstanceOf r
  | .named (some c) as, r => by
    cases r with
    | named d bs =>
      cases d with
      | none => rfl
      | some d =>
        simp only [Shape.erase, Shape.isInstanceOf]
        rw [Projection.areInstancesOf_erase as bs]
    | _ => rfl
  | .named none _, r => by cases r <;> rfl
  | .function .., r | .intersection _, r | .flexible .., r | .nonNull _, r | .captured _, r
  | .parameter _, r | .error, r => by cases r <;> rfl

theorem Projection.isInstanceOf_erase :
    ∀ p q : Projection, p.erase.isInstanceOf q.erase = p.isInstanceOf q
  | .star, q => by cases q <;> rfl
  | .argument _ t, .star => rfl
  | .argument _ t, .argument _ r => Ty.isInstanceOf_erase t r

theorem Projection.areInstancesOf_erase : ∀ ps qs : List Projection,
    Projection.areInstancesOf (Projection.eraseAll ps) (Projection.eraseAll qs) =
      Projection.areInstancesOf ps qs
  | [], qs => by cases qs <;> rfl
  | p :: ps, [] => rfl
  | p :: ps, q :: qs => by
    simp only [Projection.eraseAll, Projection.areInstancesOf]
    rw [Projection.isInstanceOf_erase p q, Projection.areInstancesOf_erase ps qs]

end

/-! ## Patterns and their fillings -/

/-- Type parameters, and resolved classes whose arguments are all patterns. -/
inductive Ty.IsPattern : Ty → Prop
  | parameter (x : String) (n : Bool) : Ty.IsPattern ⟨.parameter x, n⟩
  | named {c : ClassName} {as : List Projection} {n : Bool} (hstar : .star ∉ as)
      (has : ∀ v t, .argument v t ∈ as → Ty.IsPattern t) : Ty.IsPattern ⟨.named (some c) as, n⟩

mutual

/-- `t'` is `t` with some type in the place of every occurrence of a type parameter. -/
inductive Ty.Filled : Ty → Ty → Prop
  | parameter {x : String} {n : Bool} (t' : Ty) : Ty.Filled ⟨.parameter x, n⟩ t'
  | named {c : Option ClassName} {as as' : List Projection} {n : Bool} :
      List.Forall₂ Projection.Filled as as' → Ty.Filled ⟨.named c as, n⟩ ⟨.named c as', n⟩
  | function {r r' : Option Ty} {ps ps' : List Ty} {t t' : Ty} {n : Bool} :
      Option.Rel Ty.Filled r r' → List.Forall₂ Ty.Filled ps ps' → Ty.Filled t t' →
      Ty.Filled ⟨.function r ps t, n⟩ ⟨.function r' ps' t', n⟩
  | intersection {ts ts' : List Ty} {n : Bool} :
      List.Forall₂ Ty.Filled ts ts' → Ty.Filled ⟨.intersection ts, n⟩ ⟨.intersection ts', n⟩
  | flexible {l l' u u' : Ty} {n : Bool} :
      Ty.Filled l l' → Ty.Filled u u' → Ty.Filled ⟨.flexible l u, n⟩ ⟨.flexible l' u', n⟩
  | nonNull {t t' : Ty} {n : Bool} : Ty.Filled t t' → Ty.Filled ⟨.nonNull t, n⟩ ⟨.nonNull t', n⟩
  | captured {p p' : Projection} {n : Bool} :
      Projection.Filled p p' → Ty.Filled ⟨.captured p, n⟩ ⟨.captured p', n⟩
  | error {n : Bool} : Ty.Filled ⟨.error, n⟩ ⟨.error, n⟩

inductive Projection.Filled : Projection → Projection → Prop
  | star : Projection.Filled .star .star
  | argument {v : Variance} {t t' : Ty} :
      Ty.Filled t t' → Projection.Filled (.argument v t) (.argument v t')

end

mutual

/-- The type with the parameter `x` replaced by `σ x`; a nullable occurrence stays nullable. -/
def Ty.subst (σ : String → Ty) : Ty → Ty
  | ⟨.parameter x, n⟩ => (σ x).withNullable ((σ x).nullable || n)
  | ⟨.named c as, n⟩ => ⟨.named c (Projection.substAll σ as), n⟩
  | ⟨.function r ps t, n⟩ => ⟨.function (Ty.substOption σ r) (Ty.substAll σ ps) (t.subst σ), n⟩
  | ⟨.intersection ts, n⟩ => ⟨.intersection (Ty.substAll σ ts), n⟩
  | ⟨.flexible l u, n⟩ => ⟨.flexible (l.subst σ) (u.subst σ), n⟩
  | ⟨.nonNull t, n⟩ => ⟨.nonNull (t.subst σ), n⟩
  | ⟨.captured p, n⟩ => ⟨.captured (p.subst σ), n⟩
  | ⟨.error, n⟩ => ⟨.error, n⟩
termination_by structural t => t

def Projection.subst (σ : String → Ty) : Projection → Projection
  | .star => .star
  | .argument v t => .argument v (t.subst σ)
termination_by structural p => p

def Ty.substOption (σ : String → Ty) : Option Ty → Option Ty
  | none => none
  | some t => some (t.subst σ)
termination_by structural t => t

def Ty.substAll (σ : String → Ty) : List Ty → List Ty
  | [] => []
  | t :: ts => t.subst σ :: Ty.substAll σ ts
termination_by structural ts => ts

def Projection.substAll (σ : String → Ty) : List Projection → List Projection
  | [] => []
  | p :: ps => p.subst σ :: Projection.substAll σ ps
termination_by structural ps => ps

end

mutual

/-- A substitution fills every occurrence of a parameter with the same type. -/
theorem Ty.filled_subst (σ : String → Ty) : ∀ t : Ty, t.Filled (t.subst σ)
  | ⟨.parameter _, _⟩ => .parameter _
  | ⟨.named _ as, _⟩ => .named (Projection.filled_substAll σ as)
  | ⟨.function r ps t, _⟩ =>
    .function (Ty.filled_substOption σ r) (Ty.filled_substAll σ ps) (Ty.filled_subst σ t)
  | ⟨.intersection ts, _⟩ => .intersection (Ty.filled_substAll σ ts)
  | ⟨.flexible l u, _⟩ => .flexible (Ty.filled_subst σ l) (Ty.filled_subst σ u)
  | ⟨.nonNull t, _⟩ => .nonNull (Ty.filled_subst σ t)
  | ⟨.captured p, _⟩ => .captured (Projection.filled_subst σ p)
  | ⟨.error, _⟩ => .error

theorem Projection.filled_subst (σ : String → Ty) : ∀ p : Projection, p.Filled (p.subst σ)
  | .star => .star
  | .argument _ t => .argument (Ty.filled_subst σ t)

theorem Ty.filled_substOption (σ : String → Ty) :
    ∀ r : Option Ty, Option.Rel Ty.Filled r (Ty.substOption σ r)
  | none => .none
  | some t => .some (Ty.filled_subst σ t)

theorem Ty.filled_substAll (σ : String → Ty) :
    ∀ ts : List Ty, List.Forall₂ Ty.Filled ts (Ty.substAll σ ts)
  | [] => .nil
  | t :: ts => .cons (Ty.filled_subst σ t) (Ty.filled_substAll σ ts)

theorem Projection.filled_substAll (σ : String → Ty) :
    ∀ ps : List Projection, List.Forall₂ Projection.Filled ps (Projection.substAll σ ps)
  | [] => .nil
  | p :: ps => .cons (Projection.filled_subst σ p) (Projection.filled_substAll σ ps)

end

/-! ## Instances and fillings -/

theorem Ty.isInstanceOf_parameter (t : Ty) (x : String) (n : Bool) :
    t.isInstanceOf ⟨.parameter x, n⟩ = true := by
  obtain ⟨s, m⟩ := t
  cases s with
  | named c as => cases c <;> rfl
  | _ => rfl

/-- A type with instances is a parameter, or a class of which its instances are applications. -/
theorem Ty.isInstanceOf_cases {t : Ty} {r : Shape} {n : Bool}
    (h : t.isInstanceOf ⟨r, n⟩ = true) :
    (∃ x, r = .parameter x) ∨ ∃ c as m bs, t = ⟨.named (some c) as, m⟩ ∧
      r = .named (some c) bs ∧ Projection.areInstancesOf as bs = true := by
  obtain ⟨s, m⟩ := t
  cases r with
  | parameter x => exact .inl ⟨x, rfl⟩
  | named d bs =>
    refine .inr ?_
    cases s with
    | named c as =>
      cases c with
      | none => cases h
      | some c =>
        cases d with
        | none => cases h
        | some d =>
          have hcd : (c == d && Projection.areInstancesOf as bs) = true := h
          rw [Bool.and_eq_true, beq_iff_eq] at hcd
          obtain ⟨rfl, hargs⟩ := hcd
          exact ⟨c, as, m, bs, rfl, rfl, hargs⟩
    | _ => cases h
  | _ =>
    cases s with
    | named c as => cases c <;> cases h
    | _ => cases h

mutual

/-- A type with an instance is a pattern, and the instance fills it: what stands in the place of a
parameter goes there. -/
theorem Ty.filled_of_isInstanceOf : ∀ {r t : Ty}, t.isInstanceOf r = true →
    r.IsPattern ∧ ∃ r', r.Filled r' ∧ r'.erase = t.erase
  | ⟨.parameter x, n⟩, t, _ => ⟨.parameter x n, t, .parameter t, rfl⟩
  | ⟨.named d bs, n⟩, t, h => by
    obtain ⟨x, hx⟩ | ⟨c, as, m, bs', rfl, hr, hargs⟩ := Ty.isInstanceOf_cases h
    · cases hx
    · injection hr with hd hbs
      subst hd
      rw [← hbs] at hargs
      -- the filling keeps the nullability of the pattern and takes only the arguments from `t`
      obtain ⟨hpattern, cs, hcs, herase⟩ := Projection.filled_of_areInstancesOf hargs
      refine ⟨.named (fun hstar => ?_) (fun v r hr => ?_), ⟨.named (some c) cs, n⟩, .named hcs, ?_⟩
      · obtain ⟨v, r, hne, -⟩ := hpattern _ hstar
        cases hne
      · obtain ⟨v', r', he, hr'⟩ := hpattern _ hr
        cases he
        exact hr'
      · simp only [Ty.erase, Shape.erase, herase]
  | ⟨.function .., _⟩, _, h | ⟨.intersection _, _⟩, _, h | ⟨.flexible .., _⟩, _, h
  | ⟨.nonNull _, _⟩, _, h | ⟨.captured _, _⟩, _, h | ⟨.error, _⟩, _, h => by
    obtain ⟨x, hx⟩ | ⟨c, as, m, bs, -, hr, -⟩ := Ty.isInstanceOf_cases h
    · cases hx
    · cases hr

theorem Projection.filled_of_isInstanceOf : ∀ {q p : Projection}, p.isInstanceOf q = true →
    (∃ w r, q = .argument w r ∧ r.IsPattern) ∧ ∃ q', q.Filled q' ∧ q'.erase = p.erase
  | .star, p, h => by cases p <;> cases h
  | .argument w r, .star, h => by cases h
  | .argument w r, .argument v t, h => by
    obtain ⟨hr, r', hfilled, herase⟩ := Ty.filled_of_isInstanceOf (r := r) (t := t) h
    refine ⟨⟨w, r, rfl, hr⟩, .argument w r', .argument hfilled, ?_⟩
    simp only [Projection.erase, herase]

theorem Projection.filled_of_areInstancesOf : ∀ {qs ps : List Projection},
    Projection.areInstancesOf ps qs = true →
    (∀ q ∈ qs, ∃ w r, q = .argument w r ∧ r.IsPattern) ∧
      ∃ qs', List.Forall₂ Projection.Filled qs qs' ∧
        Projection.eraseAll qs' = Projection.eraseAll ps
  | [], [], _ => ⟨List.forall_mem_nil _, [], .nil, rfl⟩
  | [], _ :: _, h => by cases h
  | _ :: _, [], h => by cases h
  | q :: qs, p :: ps, h => by
    rw [Projection.areInstancesOf, Bool.and_eq_true] at h
    obtain ⟨hq, q', hfilled, herase⟩ := Projection.filled_of_isInstanceOf h.1
    obtain ⟨hqs, qs', hfilleds, herases⟩ := Projection.filled_of_areInstancesOf h.2
    refine ⟨List.forall_mem_cons.2 ⟨hq, hqs⟩, q' :: qs', .cons hfilled hfilleds, ?_⟩
    simp only [Projection.eraseAll, herase, herases]

end

/-- A type that erases to an application of a class is one. -/
theorem Ty.erase_eq_named {t : Ty} {c : Option ClassName} {bs : List Projection} {n : Bool}
    (h : Ty.erase ⟨.named c bs, n⟩ = t.erase) :
    ∃ as m, t = ⟨.named c as, m⟩ ∧ Projection.eraseAll bs = Projection.eraseAll as := by
  obtain ⟨s, m⟩ := t
  cases s with
  | named d as =>
    simp only [Ty.erase, Shape.erase, Ty.mk.injEq, Shape.named.injEq, and_true] at h
    obtain ⟨rfl, has⟩ := h
    exact ⟨as, m, rfl, has⟩
  | _ => simp [Ty.erase, Shape.erase] at h

/-- Arguments that erase to those of a filled pattern are instances place by place. -/
theorem Projection.areInstancesOf_of_filled {bs bs' : List Projection}
    (hfilled : List.Forall₂ Projection.Filled bs bs') (hstar : .star ∉ bs)
    (hbs : ∀ w r, .argument w r ∈ bs → ∀ {r' t : Ty}, r.Filled r' → r'.erase = t.erase →
      t.isInstanceOf r = true) :
    ∀ {as : List Projection}, Projection.eraseAll bs' = Projection.eraseAll as →
      Projection.areInstancesOf as bs = true := by
  induction hfilled with
  | nil =>
    intro as h
    cases as with
    | nil => rfl
    | cons p ps => cases h
  | @cons q q' qs qs' hq _ ih =>
    intro as h
    rw [List.mem_cons, not_or] at hstar
    cases as with
    | nil => cases h
    | cons p ps =>
      rw [Projection.eraseAll, Projection.eraseAll, List.cons.injEq] at h
      rw [Projection.areInstancesOf, Bool.and_eq_true]
      refine ⟨?_, ih hstar.2 (fun w r hr => hbs w r (List.mem_cons_of_mem _ hr)) h.2⟩
      cases hq with
      | star => exact absurd rfl hstar.1
      | @argument w r r' hr =>
        cases p with
        | star => cases h.1
        | argument v t =>
          have herase : r'.erase = t.erase := (Projection.argument.inj h.1).2
          exact hbs w r List.mem_cons_self hr herase

/-- Whatever fills a pattern is an instance of it, up to erasure. -/
theorem Ty.IsPattern.isInstanceOf {r : Ty} (hr : r.IsPattern) : ∀ {r' t : Ty}, r.Filled r' →
    r'.erase = t.erase → t.isInstanceOf r = true := by
  -- on the pattern, since a filling of a parameter says nothing about its shape
  induction hr with
  | parameter x n => exact fun _ _ => Ty.isInstanceOf_parameter _ x n
  | @named c bs n hstar hbs ih =>
    intro r' t hfilled herase
    cases hfilled with
    | named hargs =>
      obtain ⟨as, m, rfl, has⟩ := Ty.erase_eq_named herase
      have hinst : Projection.areInstancesOf as bs = true :=
        Projection.areInstancesOf_of_filled hargs hstar ih has
      show (c == c && Projection.areInstancesOf as bs) = true
      rw [hinst, beq_self_eq_true, Bool.and_self]

theorem Ty.isInstanceOf_iff {t r : Ty} :
    t.isInstanceOf r = true ↔ r.IsPattern ∧ ∃ r', r.Filled r' ∧ r'.erase = t.erase :=
  ⟨Ty.filled_of_isInstanceOf, fun ⟨hr, _, hfilled, herase⟩ => hr.isInstanceOf hfilled herase⟩

/-- **Instances are fillings.** A type has instances exactly if it is a pattern, and these are what
fills it, up to nullability and variance, each occurrence of a parameter on its own. So nullability
and variance never matter on either side, and every substitution gives an instance. -/
theorem Ty.isInstanceOf_iff_filled (t r : Ty) :
    (t.isInstanceOf r = true ↔ r.IsPattern ∧ ∃ r', r.Filled r' ∧ r'.erase = t.erase) ∧
    (∀ t' r' : Ty, t'.erase = t.erase → r'.erase = r.erase →
      t'.isInstanceOf r' = t.isInstanceOf r) ∧
    (r.IsPattern → ∀ σ : String → Ty, (r.subst σ).isInstanceOf r = true) := by
  refine ⟨Ty.isInstanceOf_iff, ?_, ?_⟩
  · intro t' r' ht hr
    rw [← Ty.isInstanceOf_erase t' r', ht, hr, Ty.isInstanceOf_erase]
  · intro hr σ
    exact hr.isInstanceOf (r.filled_subst σ) rfl

/-- The declared type is taken if it fills the reported one, up to nullability and variance. -/
theorem Ty.refine_eq_declared_iff (t reported : Ty) : refine (some t) reported = t ↔
    reported = t ∨ reported.IsPattern ∧ ∃ r', reported.Filled r' ∧ r'.erase = t.erase := by
  rw [← Ty.isInstanceOf_iff, Ty.refine_eq_iff]
  constructor
  · rintro (⟨-, ht⟩ | ⟨h, -⟩)
    · exact .inr ht
    · exact .inl h
  · rintro (h | ht)
    · by_cases ht : t.isInstanceOf reported = true
      · exact .inl ⟨rfl, ht⟩
      · exact .inr ⟨h, by simpa using ht⟩
    · exact .inl ⟨rfl, ht⟩

/-- Maps, with keys and values of the given types. -/
def mapOf (key value : Ty) : Ty :=
  ⟨.named (some ⟨"kotlin.collections", "Map"⟩) [.exactly key, .argument .covariant value], true⟩

/-- The two places of one parameter are filled with different types. -/
theorem isInstanceOf_iff_filled_mapOf :
    let reference := mapOf (.ofShape (.parameter "T")) (.ofShape (.parameter "T"))
    let map := (mapOf (.simple "kotlin.Int") (.simple "kotlin.String")).withNullable false
    reference.IsPattern ∧ map.isInstanceOf reference = true ∧
      ∃ r', reference.Filled r' ∧ r'.erase = map.erase := by
  intro reference map
  have hmap : map.isInstanceOf reference = true := by decide
  obtain ⟨hpattern, hfilled⟩ := (Ty.isInstanceOf_iff_filled map reference).1.1 hmap
  exact ⟨hpattern, hmap, hfilled⟩

end Inlay
