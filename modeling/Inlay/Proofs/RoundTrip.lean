import Inlay.Wire.Hint
import Inlay.Wire.Ty
import Mathlib.Logic.Function.Basic

/-!
# What is written can be read

Types, class names and hints are read back from JSON as they were written (`Wire.faithful`).

A reader goes down into parts of a value, and parts carry proofs that they are smaller. To keep
these out of the argument, each reader is first described on the values it is meant for, by what it
reads from their members (`Ty.ofJson?_object`, `Shape.ofJson?_class` and so on), where
`Json.nullable?` and `Json.list?` read a member that may be `null` and one that is a list. The round
trip is then an induction on the type.
-/

namespace Inlay

namespace Wire

/-- Nothing is lost by writing: what is written is read back, so no two values are written alike. -/
structure Faithful {α : Type} (write : α → Json) (read : Json → Option α) : Prop where
  read_write : ∀ a, read (write a) = some a
  injective : Function.Injective write

theorem Faithful.of_read_write {α : Type} {write : α → Json} {read : Json → Option α}
    (h : ∀ a, read (write a) = some a) : Faithful write read := by
  refine ⟨h, fun a b hab => ?_⟩
  have hread : some a = some b := by rw [← h a, hab, h b]
  exact Option.some.inj hread

/-! ## Members that may be `null`, and lists -/

namespace Json

variable {α : Type} {j : Json}

/-- Reads a value that may be `null`. -/
def nullable? (read : Json → Option α) : Json → Option (Option α)
  | .null => some none
  | v => (read v).map some

/-- Reads the items of an array. -/
def list? (read : Json → Option α) : Json → Option (List α)
  | .array items => items.mapM read
  | _ => none

theorem optional?_some (read : Json → Option α) (p : j.Part) :
    optional? (fun q => read q.value) (some p) = nullable? read p.value := by
  obtain ⟨v, hv⟩ := p
  cases v <;> rfl

theorem nullable?_of_ne {read : Json → Option α} {v : Json} (h : v ≠ .null) :
    nullable? read v = (read v).map some := by
  cases v with
  | null => exact absurd rfl h
  | _ => rfl

theorem nullable?_optional {write : α → Json} {read : Json → Option α} {a : Option α}
    (h : ∀ x ∈ a, write x ≠ .null ∧ read (write x) = some x) :
    nullable? read (optional write a) = some a := by
  cases a with
  | none => rfl
  | some x =>
    obtain ⟨hnull, hread⟩ := h x rfl
    rw [optional, nullable?_of_ne hnull, hread, Option.map_some]

theorem mapM_value (read : Json → Option α) (ps : List j.Part) :
    ps.mapM (fun p => read p.value) = (ps.map (·.value)).mapM read := by
  rw [List.mapM_map]
  rfl

theorem items?_array (items : List Json) :
    ∃ ps, (Json.array items).items? = some ps ∧ ps.map (·.value) = items := by
  refine ⟨_, rfl, ?_⟩
  rw [List.map_map]
  exact List.attach_map_subtype_val items

theorem items?_bind_mapM {β : Type} (read : Json → Option α) (p : j.Part)
    (next : List α → Option β) :
    (p.items?.bind fun ps => (ps.mapM fun q => read q.value).bind next) =
      (list? read p.value).bind next := by
  obtain ⟨v, hv⟩ := p
  cases v with
  | array items =>
    obtain ⟨ps, hps, hvalues⟩ := items?_array items
    have htrans : (ps.map (Part.trans ⟨.array items, hv⟩)).map (·.value) = items := by
      rw [List.map_map]
      exact hvalues
    rw [Part.items?, hps, Option.map_some, Option.bind_some, mapM_value, htrans]
    rfl
  | _ => rfl

theorem list?_map {write : α → Json} {read : Json → Option α} {as : List α}
    (h : ∀ a ∈ as, read (write a) = some a) : list? read (.array (as.map write)) = some as := by
  show (as.map write).mapM read = some as
  induction as with
  | nil => rfl
  | cons a as ih =>
    rw [List.forall_mem_cons] at h
    rw [List.map_cons, List.mapM_cons, h.1, ih h.2]
    rfl

end Json

end Wire

open Wire (Json Faithful)

/-! ## Names -/

theorem ClassName.ofJson?_toJson (c : ClassName) : ClassName.ofJson? c.toJson = some c := rfl

theorem ClassName.toJson_ne_null (c : ClassName) : c.toJson ≠ .null := nofun

theorem Variance.ofJson?_toJson (v : Variance) : Variance.ofJson? v.toJson = some v := by
  cases v <;> rfl

/-! ## Hints -/

theorem Side.ofJson?_toJson (s : Side) : Side.ofJson? s.toJson = some s := by
  cases s <;> rfl

theorem Segment.targetOfJson?_targetToJson (target : String) :
    Segment.targetOfJson? (Segment.targetToJson target) = some target := rfl

theorem Segment.ofJson?_toJson (s : Segment) : Segment.ofJson? s.toJson = some s := by
  obtain ⟨text, target⟩ := s
  cases target <;> rfl

theorem Hint.ofJson?_object (offset side segments : Json) :
    Hint.ofJson? (.object [("offset", offset), ("anchor", side), ("segments", segments)]) =
      (do
        let offset ← offset.word?
        let side ← Side.ofJson? side
        let segments ← Json.list? Segment.ofJson? segments
        return ⟨offset, side, segments⟩) := by
  show (offset.word?.bind fun offset => (Side.ofJson? side).bind fun side =>
    (Json.Part.items? ⟨segments, _⟩).bind fun ps =>
      (ps.mapM fun p => Segment.ofJson? p.value).bind fun segments =>
        some (Hint.mk offset side segments)) = _
  simp only [Json.items?_bind_mapM Segment.ofJson?]
  rfl

theorem Hint.ofJson?_toJson (h : Hint) : Hint.ofJson? h.toJson = some h := by
  rw [Hint.toJson, Hint.ofJson?_object, Json.word?_word, Side.ofJson?_toJson,
    Json.list?_map fun s _ => Segment.ofJson?_toJson s]
  rfl

/-! ## Types -/

theorem Ty.toJson_ne_null (t : Ty) : t.toJson ≠ .null := by
  obtain ⟨s, n⟩ := t
  exact nofun

theorem Ty.optionToJson_eq (t : Option Ty) : Ty.optionToJson t = Json.optional Ty.toJson t := by
  cases t <;> rfl

theorem Ty.listToJson_eq_map (ts : List Ty) : Ty.listToJson ts = ts.map Ty.toJson := by
  induction ts with
  | nil => rfl
  | cons t ts ih => rw [Ty.listToJson, ih, List.map_cons]

theorem Projection.listToJson_eq_map (ps : List Projection) :
    Projection.listToJson ps = ps.map Projection.toJson := by
  induction ps with
  | nil => rfl
  | cons p ps ih => rw [Projection.listToJson, ih, List.map_cons]

theorem Ty.ofJson?_object (kind nullable : Json) :
    Ty.ofJson? (.object [("kind", kind), ("nullable", nullable)]) =
      (do return ⟨← Shape.ofJson? kind, ← nullable.bool?⟩) := by
  rw [Ty.ofJson?]
  rfl

namespace Shape

theorem ofJson?_class (name arguments : Json) :
    Shape.ofJson? (.object [("Class", .object [("class_id", name), ("arguments", arguments)])]) =
      (do
        let name ← Json.nullable? ClassName.ofJson? name
        let arguments ← Json.list? Projection.ofJson? arguments
        return .named name arguments) := by
  rw [Shape.ofJson?]
  show ((Json.optional? (fun p => ClassName.ofJson? p.value) (some ⟨name, _⟩)).bind fun name =>
    (Json.Part.items? ⟨arguments, _⟩).bind fun ps =>
      (ps.mapM fun p => Projection.ofJson? p.value).bind fun arguments =>
        some (Shape.named name arguments)) = _
  simp only [Json.optional?_some ClassName.ofJson?, Json.items?_bind_mapM Projection.ofJson?]
  rfl

theorem ofJson?_function (receiver parameters result : Json) :
    Shape.ofJson? (.object [("Function", .object [("receiver", receiver),
      ("parameters", parameters), ("return_type", result)])]) =
      (do
        let receiver ← Json.nullable? Ty.ofJson? receiver
        let parameters ← Json.list? Ty.ofJson? parameters
        let result ← Ty.ofJson? result
        return .function receiver parameters result) := by
  rw [Shape.ofJson?]
  show ((Json.optional? (fun p => Ty.ofJson? p.value) (some ⟨receiver, _⟩)).bind fun receiver =>
    (Json.Part.items? ⟨parameters, _⟩).bind fun ps =>
      (ps.mapM fun p => Ty.ofJson? p.value).bind fun parameters =>
        (Ty.ofJson? result).bind fun result =>
          some (Shape.function receiver parameters result)) = _
  simp only [Json.optional?_some Ty.ofJson?, Json.items?_bind_mapM Ty.ofJson?]
  rfl

theorem ofJson?_intersection (conjuncts : Json) :
    Shape.ofJson? (.object [("Intersection", .object [("conjuncts", conjuncts)])]) =
      (do return .intersection (← Json.list? Ty.ofJson? conjuncts)) := by
  rw [Shape.ofJson?]
  show ((Json.Part.items? ⟨conjuncts, _⟩).bind fun ps =>
    (ps.mapM fun p => Ty.ofJson? p.value).bind fun conjuncts =>
      some (Shape.intersection conjuncts)) = _
  simp only [Json.items?_bind_mapM Ty.ofJson?]
  rfl

theorem ofJson?_flexible (lower upper : Json) :
    Shape.ofJson? (.object [("Flexible", .object [("lower", lower), ("upper", upper)])]) =
      (do return .flexible (← Ty.ofJson? lower) (← Ty.ofJson? upper)) := by
  rw [Shape.ofJson?]
  rfl

theorem ofJson?_nonNull (underlying : Json) :
    Shape.ofJson? (.object [("DefinitelyNotNull", .object [("original", underlying)])]) =
      (do return .nonNull (← Ty.ofJson? underlying)) := by
  rw [Shape.ofJson?]
  rfl

theorem ofJson?_captured (projection : Json) :
    Shape.ofJson? (.object [("Captured", .object [("projection", projection)])]) =
      (do return .captured (← Projection.ofJson? projection)) := by
  rw [Shape.ofJson?]
  rfl

theorem ofJson?_parameter (name : Json) :
    Shape.ofJson? (.object [("TypeParameter", .object [("name", name)])]) =
      (do return .parameter (← name.string?)) := by
  rw [Shape.ofJson?]
  rfl

theorem ofJson?_error : Shape.ofJson? (.string "Error") = some .error := by
  rw [Shape.ofJson?]
  rfl

end Shape

theorem Projection.ofJson?_star : Projection.ofJson? (.string "Star") = some .star := by
  rw [Projection.ofJson?]
  rfl

theorem Projection.ofJson?_argument (variance type : Json) :
    Projection.ofJson? (.object [("Argument", .object [("variance", variance), ("ty", type)])]) =
      (do return .argument (← Variance.ofJson? variance) (← Ty.ofJson? type)) := by
  rw [Projection.ofJson?]
  rfl

mutual

theorem Ty.ofJson?_toJson : ∀ t : Ty, Ty.ofJson? t.toJson = some t
  | ⟨s, n⟩ => by
    rw [Ty.toJson, Ty.ofJson?_object, Shape.ofJson?_toJson s]
    rfl

theorem Shape.ofJson?_toJson : ∀ s : Shape, Shape.ofJson? s.toJson = some s
  | .named c as => by
    rw [Shape.toJson, Shape.ofJson?_class, Projection.listToJson_eq_map,
      Json.nullable?_optional fun c _ => ⟨c.toJson_ne_null, c.ofJson?_toJson⟩,
      Json.list?_map (Projection.ofJson?_toJson_mem as)]
    rfl
  | .function r ps t => by
    rw [Shape.toJson, Shape.ofJson?_function, Ty.optionToJson_eq, Ty.listToJson_eq_map,
      Json.nullable?_optional fun t ht => ⟨t.toJson_ne_null, Ty.ofJson?_toJson_option r t ht⟩,
      Json.list?_map (Ty.ofJson?_toJson_mem ps), Ty.ofJson?_toJson t]
    rfl
  | .intersection ts => by
    rw [Shape.toJson, Shape.ofJson?_intersection, Ty.listToJson_eq_map,
      Json.list?_map (Ty.ofJson?_toJson_mem ts)]
    rfl
  | .flexible l u => by
    rw [Shape.toJson, Shape.ofJson?_flexible, Ty.ofJson?_toJson l, Ty.ofJson?_toJson u]
    rfl
  | .nonNull t => by
    rw [Shape.toJson, Shape.ofJson?_nonNull, Ty.ofJson?_toJson t]
    rfl
  | .captured p => by
    rw [Shape.toJson, Shape.ofJson?_captured, Projection.ofJson?_toJson p]
    rfl
  | .parameter x => by
    rw [Shape.toJson, Shape.ofJson?_parameter]
    rfl
  | .error => by rw [Shape.toJson, Shape.ofJson?_error]

theorem Projection.ofJson?_toJson : ∀ p : Projection, Projection.ofJson? p.toJson = some p
  | .star => by rw [Projection.toJson, Projection.ofJson?_star]
  | .argument v t => by
    rw [Projection.toJson, Projection.ofJson?_argument, Variance.ofJson?_toJson,
      Ty.ofJson?_toJson t]
    rfl

theorem Ty.ofJson?_toJson_option :
    ∀ r : Option Ty, ∀ t ∈ r, Ty.ofJson? t.toJson = some t
  | none => nofun
  | some t => fun _ ht => by
    cases ht
    exact Ty.ofJson?_toJson t

theorem Ty.ofJson?_toJson_mem : ∀ ts : List Ty, ∀ t ∈ ts, Ty.ofJson? t.toJson = some t
  | [] => nofun
  | t :: ts => List.forall_mem_cons.2 ⟨Ty.ofJson?_toJson t, Ty.ofJson?_toJson_mem ts⟩

theorem Projection.ofJson?_toJson_mem :
    ∀ ps : List Projection, ∀ p ∈ ps, Projection.ofJson? p.toJson = some p
  | [] => nofun
  | p :: ps =>
    List.forall_mem_cons.2 ⟨Projection.ofJson?_toJson p, Projection.ofJson?_toJson_mem ps⟩

end

/-! ## All of them -/

/-- **Nothing is lost in JSON.** Types with their shapes and projections, variances, class names
with any package and relative name, and hints with their sides, segments and targets are read back
as they were written. -/
theorem Wire.faithful :
    Faithful Ty.toJson Ty.ofJson? ∧ Faithful Shape.toJson Shape.ofJson? ∧
    Faithful Projection.toJson Projection.ofJson? ∧ Faithful Variance.toJson Variance.ofJson? ∧
    Faithful ClassName.toJson ClassName.ofJson? ∧
    Faithful Hint.toJson Hint.ofJson? ∧ Faithful Side.toJson Side.ofJson? ∧
    Faithful Segment.toJson Segment.ofJson? ∧
    Faithful Segment.targetToJson Segment.targetOfJson? :=
  ⟨.of_read_write Ty.ofJson?_toJson, .of_read_write Shape.ofJson?_toJson,
    .of_read_write Projection.ofJson?_toJson, .of_read_write Variance.ofJson?_toJson,
    .of_read_write ClassName.ofJson?_toJson, .of_read_write Hint.ofJson?_toJson,
    .of_read_write Side.ofJson?_toJson, .of_read_write Segment.ofJson?_toJson,
    .of_read_write Segment.targetOfJson?_targetToJson⟩

-- a class name that no text is parsed to, since its package has a segment in uppercase
example : ClassName.ofJson? (ClassName.toJson ⟨"a.B", "c.D"⟩) = some ⟨"a.B", "c.D"⟩ := rfl

end Inlay
