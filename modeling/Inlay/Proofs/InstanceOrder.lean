import Inlay.Proofs.Instances
import Inlay.Ty.Equality

/-!
# The order of instances

`Ty.isInstanceOf` orders types from special to general, as far as they can be compared at all. The
reference type of a comparison that succeeds is a pattern (`Ty.filled_of_isInstanceOf`), so the laws
are proved by induction on patterns:

* `Ty.isInstanceOf_trans`: an instance of an instance is an instance.
* `Ty.isInstanceOf_self_iff`: the patterns are the types that are instances of themselves.
* `Ty.skeleton_eq_of_isInstanceOf`: types that are instances of each other differ at most in
  nullability, variance and the names of their type parameters.
-/

namespace Inlay

/-! ## Arguments place by place -/

theorem Projection.areInstancesOf_iff_forall₂ : ∀ {ps qs : List Projection},
    Projection.areInstancesOf ps qs = true ↔
      List.Forall₂ (Projection.isInstanceOf · ·) ps qs
  | [], [] => by simp [Projection.areInstancesOf]
  | [], _ :: _ => by simp [Projection.areInstancesOf]
  | _ :: _, [] => by simp [Projection.areInstancesOf]
  | p :: ps, q :: qs => by
    rw [Projection.areInstancesOf, Bool.and_eq_true, List.forall₂_cons,
      Projection.areInstancesOf_iff_forall₂]

theorem Projection.isInstanceOf_argument {p : Projection} {w : Variance} {r : Ty} :
    p.isInstanceOf (.argument w r) = true ↔
      ∃ v t, p = .argument v t ∧ t.isInstanceOf r = true := by
  cases p <;> simp [Projection.isInstanceOf]

theorem Ty.isInstanceOf_named {t : Ty} {c : ClassName} {bs : List Projection} {n : Bool} :
    t.isInstanceOf ⟨.named (some c) bs, n⟩ = true ↔
      ∃ as m, t = ⟨.named (some c) as, m⟩ ∧
        List.Forall₂ (Projection.isInstanceOf · ·) as bs := by
  constructor
  · intro h
    obtain ⟨x, hx⟩ | ⟨c', as, m, bs', rfl, hr, hargs⟩ := Ty.isInstanceOf_cases h
    · cases hx
    · cases hr
      exact ⟨as, m, rfl, Projection.areInstancesOf_iff_forall₂.1 hargs⟩
  · rintro ⟨as, m, rfl, hargs⟩
    have hinst : Projection.areInstancesOf as bs = true :=
      Projection.areInstancesOf_iff_forall₂.2 hargs
    show (c == c && Projection.areInstancesOf as bs) = true
    rw [hinst, beq_self_eq_true, Bool.and_self]

/-- Only type parameters are instantiated by a type parameter. -/
theorem Ty.parameter_isInstanceOf {r : Ty} {x : String} {n : Bool}
    (h : Ty.isInstanceOf ⟨.parameter x, n⟩ r = true) : ∃ y m, r = ⟨.parameter y, m⟩ := by
  obtain ⟨s, m⟩ := r
  obtain ⟨y, rfl⟩ | ⟨c, as, k, bs, ht, -⟩ := Ty.isInstanceOf_cases h
  · exact ⟨y, m, rfl⟩
  · cases ht

/-! ## Transitivity -/

theorem Projection.forall₂_trans {cs : List Projection}
    (hcs : ∀ w r, .argument w r ∈ cs → ∀ {s t : Ty}, s.isInstanceOf t = true →
      t.isInstanceOf r = true → s.isInstanceOf r = true)
    {as bs : List Projection} (hab : List.Forall₂ (Projection.isInstanceOf · ·) as bs)
    (hbc : List.Forall₂ (Projection.isInstanceOf · ·) bs cs) :
    List.Forall₂ (Projection.isInstanceOf · ·) as cs := by
  induction hbc generalizing as with
  | nil => exact hab
  | @cons q r bs cs hqr _ ih =>
    cases hab with
    | @cons p _ as _ hpq hab =>
      refine .cons ?_ (ih (fun w r hr => hcs w r (List.mem_cons_of_mem _ hr)) hab)
      cases r with
      | star => cases q <;> cases hqr
      | argument w r =>
        obtain ⟨v, t, rfl, htr⟩ := Projection.isInstanceOf_argument.1 hqr
        obtain ⟨u, s, rfl, hst⟩ := Projection.isInstanceOf_argument.1 hpq
        exact hcs w r List.mem_cons_self hst htr

theorem Ty.isInstanceOf_trans {a b c : Ty} (hab : a.isInstanceOf b = true)
    (hbc : b.isInstanceOf c = true) : a.isInstanceOf c = true := by
  have hc : c.IsPattern := (Ty.filled_of_isInstanceOf hbc).1
  induction hc generalizing a b with
  | parameter x n => exact Ty.isInstanceOf_parameter a x n
  | named _ _ ih =>
    obtain ⟨bs, m, rfl, hbs⟩ := Ty.isInstanceOf_named.1 hbc
    obtain ⟨as, k, rfl, has⟩ := Ty.isInstanceOf_named.1 hab
    refine Ty.isInstanceOf_named.2 ⟨as, k, rfl, ?_⟩
    exact Projection.forall₂_trans (fun w r hr _ _ h1 h2 => ih w r hr h1 h2) has hbs

/-! ## Reflexivity -/

theorem Ty.IsPattern.isInstanceOf_self {t : Ty} (h : t.IsPattern) : t.isInstanceOf t = true := by
  induction h with
  | parameter x n => rfl
  | @named c as n hstar _ ih =>
    refine Ty.isInstanceOf_named.2 ⟨as, n, rfl, List.forall₂_same.2 fun p hp => ?_⟩
    cases p with
    | star => exact absurd hp hstar
    | argument v t => exact ih v t hp

/-- The types that are instances of themselves are the patterns. -/
theorem Ty.isInstanceOf_self_iff {t : Ty} : t.isInstanceOf t = true ↔ t.IsPattern :=
  ⟨fun h => (Ty.filled_of_isInstanceOf h).1, Ty.IsPattern.isInstanceOf_self⟩

theorem Ty.isPattern_iff {t : Ty} :
    t.IsPattern ↔ t.isParameter = true ∨ ∃ c as n, t = ⟨.named (some c) as, n⟩ ∧ .star ∉ as ∧
      ∀ v u, .argument v u ∈ as → u.IsPattern := by
  constructor
  · rintro (⟨x, n⟩ | ⟨hstar, has⟩)
    · exact .inl rfl
    · exact .inr ⟨_, _, _, rfl, hstar, has⟩
  · rintro (hx | ⟨c, as, n, rfl, hstar, has⟩)
    · obtain ⟨s, n⟩ := t
      cases s with
      | parameter x => exact .parameter x n
      | _ => cases hx
    · exact .named hstar has

/-! ## Antisymmetry -/

/-- The type with nothing nullable, every projection invariant and type parameters without names. -/
def Ty.skeleton (t : Ty) : Ty := (t.subst fun _ => .ofShape (.parameter "")).erase

def Projection.skeletons (ps : List Projection) : List Projection :=
  Projection.eraseAll (Projection.substAll (fun _ => .ofShape (.parameter "")) ps)

theorem Ty.skeleton_named (c : Option ClassName) (as : List Projection) (n : Bool) :
    Ty.skeleton ⟨.named c as, n⟩ = ⟨.named c (Projection.skeletons as), false⟩ := rfl

theorem Projection.skeletons_argument_cons (v : Variance) (t : Ty) (ps : List Projection) :
    Projection.skeletons (.argument v t :: ps) =
      .argument .invariant t.skeleton :: Projection.skeletons ps := rfl

theorem Projection.skeletons_eq {as : List Projection}
    (has : ∀ v t, .argument v t ∈ as → ∀ {r : Ty}, t.isInstanceOf r = true →
      r.isInstanceOf t = true → t.skeleton = r.skeleton)
    {bs : List Projection} (hab : List.Forall₂ (Projection.isInstanceOf · ·) as bs)
    (hba : List.Forall₂ (Projection.isInstanceOf · ·) bs as) :
    Projection.skeletons as = Projection.skeletons bs := by
  induction hab with
  | nil => rfl
  | @cons p q as bs hpq _ ih =>
    obtain ⟨hqp, hba'⟩ := List.forall₂_cons.1 hba
    cases q with
    | star => cases p <;> cases hpq
    | argument w r =>
      obtain ⟨v, t, rfl, htr⟩ := Projection.isInstanceOf_argument.1 hpq
      rw [Projection.skeletons_argument_cons, Projection.skeletons_argument_cons,
        has v t List.mem_cons_self htr hqp,
        ih (fun v t ht => has v t (List.mem_cons_of_mem _ ht)) hba']

theorem Ty.skeleton_eq_of_isInstanceOf {a b : Ty} (hab : a.isInstanceOf b = true)
    (hba : b.isInstanceOf a = true) : a.skeleton = b.skeleton := by
  have ha : a.IsPattern := (Ty.filled_of_isInstanceOf hba).1
  induction ha generalizing b with
  | parameter x n =>
    -- `b` has a parameter as instance, so it is one
    obtain ⟨y, m, rfl⟩ := Ty.parameter_isInstanceOf hab
    rfl
  | named _ _ ih =>
    obtain ⟨bs, m, rfl, hbs⟩ := Ty.isInstanceOf_named.1 hba
    obtain ⟨as, n, has, hargs⟩ := Ty.isInstanceOf_named.1 hab
    cases has
    rw [Ty.skeleton_named, Ty.skeleton_named, Projection.skeletons_eq _ hargs hbs]
    exact fun v t ht _ h1 h2 => ih v t ht h1 h2

/-! ## The laws together -/

/-- **Instances are ordered.** Being an instance is transitive. It is reflexive on type parameters
and on resolved classes whose arguments are types, none of them `*`, on which it is reflexive, and
on no others. Types that are instances of each other are the same up to nullability, variance and
the names of type parameters. -/
theorem Ty.isInstanceOf_order :
    (∀ a b c : Ty, a.isInstanceOf b = true → b.isInstanceOf c = true → a.isInstanceOf c = true) ∧
    (∀ t : Ty, t.isInstanceOf t = true ↔ t.isParameter = true ∨
      ∃ c as n, t = ⟨.named (some c) as, n⟩ ∧ .star ∉ as ∧
        ∀ v u, .argument v u ∈ as → u.isInstanceOf u = true) ∧
    ∀ a b : Ty, a.isInstanceOf b = true → b.isInstanceOf a = true → a.skeleton = b.skeleton := by
  refine ⟨fun _ _ _ => Ty.isInstanceOf_trans, fun t => ?_,
    fun _ _ => Ty.skeleton_eq_of_isInstanceOf⟩
  simp only [Ty.isInstanceOf_self_iff]
  exact Ty.isPattern_iff

/-- Maps to lists of texts, to any lists, and to anything; the last under two spellings. -/
theorem isInstanceOf_order_mapOf :
    let list (t : Ty) : Ty := .applied "kotlin.List" [.exactly t]
    let parameter (x : String) : Ty := .ofShape (.parameter x)
    let texts := mapOf (.simple "kotlin.Int") (list (.simple "kotlin.String"))
    let lists := mapOf (parameter "K") (list (parameter "E"))
    let maps := mapOf (parameter "K") (parameter "V")
    let maps' := (mapOf (parameter "T").orNull (parameter "T")).withNullable false
    texts.isInstanceOf maps = true ∧ maps.isInstanceOf lists = false ∧
      maps ≠ maps' ∧ maps.skeleton = maps'.skeleton := by
  intro list parameter texts lists maps maps'
  obtain ⟨htrans, -, hanti⟩ := Ty.isInstanceOf_order
  refine ⟨htrans texts lists maps (by decide) (by decide), by decide, by decide, ?_⟩
  exact hanti maps maps' (by decide) (by decide)

end Inlay
