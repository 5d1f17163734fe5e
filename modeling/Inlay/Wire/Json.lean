/-!
# JSON values

The values that are exchanged with a host in text form, and the two patterns by which structured
data is laid out in them:

* a *record* is an object with a member for each field, in any order and possibly among others, or
  an array of the fields in their order;
* a *variant* is an object with one member, whose name says which variant it is and whose value is
  its content; a variant without content may also be just its name.

A reader of recursive data goes down into parts of a value. `Json.Part` is a value together with the
proof that it is smaller than the one it is part of, which is why such a reader ends.
-/

namespace Inlay.Wire

/-- A JSON value. -/
inductive Json where
  | null
  | bool (b : Bool)
  /-- The number `mantissa / 10 ^ scale`; a whole number is written without places, so its scale
  is zero. -/
  | number (mantissa : Int) (scale : Nat)
  | string (s : String)
  | array (items : List Json)
  | object (members : List (String × Json))
deriving Inhabited

namespace Json

/-! ## Parts -/

/-- A value inside `j`. -/
structure Part (j : Json) where
  /-- The value. -/
  value : Json
  smaller : sizeOf value < sizeOf j

/-- A part of a part is a part. -/
def Part.trans {j : Json} (p : j.Part) (q : p.value.Part) : j.Part :=
  ⟨q.value, Nat.lt_trans q.smaller p.smaller⟩

/-- The items of an array. -/
def items? : (j : Json) → Option (List j.Part)
  | .array items => some (items.attach.map fun v => ⟨v.1, by
      have := List.sizeOf_lt_of_mem v.2
      simp only [array.sizeOf_spec]
      omega⟩)
  | _ => none

/-- The first of some members that has the given name. -/
def find? (name : String) (members : List (String × Json)) : Option { v // (name, v) ∈ members } :=
  match members with
  | [] => none
  | (key, v) :: rest =>
    if h : key = name then some ⟨v, by simp [h]⟩
    else (find? name rest).map fun v => ⟨v.1, List.mem_cons_of_mem _ v.2⟩

/-- The member of an object with the given name. -/
def member? (name : String) : (j : Json) → Option j.Part
  | .object members => (find? name members).map fun v => ⟨v.1, by
      have := List.sizeOf_lt_of_mem v.2
      simp only [object.sizeOf_spec, Prod.mk.sizeOf_spec] at this ⊢
      omega⟩
  | _ => none

/-! ## Records and variants -/

/-- Whether a value is an object. -/
def isObject : Json → Bool
  | .object _ => true
  | _ => false

/-- The members of an object with the given names; a name without a member gives `none`. -/
def members? (names : List String) (j : Json) : Option (List (Option j.Part)) :=
  if j.isObject then some (names.map fun name => j.member? name) else none

/-- The fields of a record: the members of an object, or all items of an array in order. -/
def fields? (names : List String) (j : Json) : Option (List (Option j.Part)) :=
  match j.items? with
  | some items => if items.length = names.length then some (items.map some) else none
  | none => j.members? names

/-- The name of a variant and its content. -/
def variant? : (j : Json) → Option (String × Option j.Part)
  | .string name => some (name, none)
  | .object [(name, content)] => some (name, some ⟨content, by
      simp only [object.sizeOf_spec, List.cons.sizeOf_spec, Prod.mk.sizeOf_spec]
      omega⟩)
  | _ => none

/-- The items of a part that is an array. -/
def Part.items? {j : Json} (p : j.Part) : Option (List j.Part) := p.value.items?.map (·.map p.trans)

/-- The members of a part that is an object. -/
def Part.members? {j : Json} (names : List String) (p : j.Part) : Option (List (Option j.Part)) :=
  (p.value.members? names).map (·.map (·.map p.trans))

/-- Whether the content of a variant says nothing: it is absent or `null`. -/
def Part.isVoid {j : Json} : Option j.Part → Bool
  | none | some ⟨.null, _⟩ => true
  | _ => false

/-- The name of a variant without content. -/
def unit? (j : Json) : Option String :=
  match j.variant? with
  | some (name, content) => if Part.isVoid content then some name else none
  | none => none

/-! ## Scalars -/

/-- A truth value. -/
def bool? : Json → Option Bool
  | .bool b => some b
  | _ => none

/-- A text. -/
def string? : Json → Option String
  | .string s => some s
  | _ => none

/-- A whole number of 32 bits. -/
def word? : Json → Option UInt32
  | .number n 0 => if 0 ≤ n ∧ n < UInt32.size then some (.ofNat n.toNat) else none
  | _ => none

/-- The number of a word. -/
def word (n : UInt32) : Json := .number n.toNat 0

/-- A value that may be `null`. -/
def optional {α : Type} (write : α → Json) : Option α → Json
  | none => .null
  | some a => write a

/-- Reads a field that may be absent or `null`. -/
def optional? {j : Json} {α : Type} (read : j.Part → Option α) : Option j.Part → Option (Option α)
  | none | some ⟨.null, _⟩ => some none
  | some p => (read p).map some

theorem word?_word (n : UInt32) : word? (word n) = some n := by
  have h : 0 ≤ (n.toNat : Int) ∧ (n.toNat : Int) < UInt32.size :=
    ⟨Int.natCast_nonneg _, Int.ofNat_lt.2 n.toNat_lt_size⟩
  rw [word, word?, if_pos h, Int.toNat_natCast, UInt32.ofNat_toNat]

end Json

end Inlay.Wire
