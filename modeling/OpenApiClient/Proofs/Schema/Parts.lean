import OpenApiClient.Document.Schema
import OpenApiClient.Naming.ClassName

/-!
The parts of a schema: the places in it that have names of their own, each with the role that the
place has there, and the members of `allOf`, which have none. What holds of a schema whenever it
holds of its parts holds of every schema.
-/

namespace OpenApiClient

inductive Role where
  | property (key : String)
  | additional
  | item
  | oneOf (i : Nat)
  | anyOf (i : Nat)

namespace Role

-- The name of what has a role in something called `name`.
def nameIn (name : String) : Role → String
  | property key => Naming.nested name key
  | additional   => Naming.nested name "additionalProperty"
  | item         => Naming.nested name "item"
  | oneOf i      => Naming.nested name ("oneOf" ++ toString (i + 1))
  | anyOf i      => Naming.nested name ("anyOf" ++ toString (i + 1))

-- The way to what has a role.
def segments : Role → List String
  | property key => ["properties", key]
  | additional   => ["additionalProperties"]
  | item         => ["items"]
  | oneOf i      => ["oneOf", toString i]
  | anyOf i      => ["anyOf", toString i]

theorem «exists» {P : Role → Prop} : (∃ role, P role) ↔
    (∃ key, P (property key)) ∨ P additional ∨ P item ∨ (∃ i, P (oneOf i)) ∨ ∃ i, P (anyOf i) where
  mp
    | ⟨property _, h⟩ => .inl ⟨_, h⟩
    | ⟨additional, h⟩ => .inr <| .inl h
    | ⟨item, h⟩       => .inr <| .inr <| .inl h
    | ⟨oneOf _, h⟩    => .inr <| .inr <| .inr <| .inl ⟨_, h⟩
    | ⟨anyOf _, h⟩    => .inr <| .inr <| .inr <| .inr ⟨_, h⟩
  mpr h := by
    rcases h with ⟨_, h⟩ | h | h | ⟨_, h⟩ | ⟨_, h⟩ <;> exact ⟨_, h⟩

end Role

namespace Schema

inductive Has (s : Schema) : Role → SchemaRef → Prop
  | property : (key, place) ∈ s.properties → Has s (.property key) place
  | additional : s.additionalProperties = some (.schema place) → Has s .additional place
  | item : s.items = some place → Has s .item place
  | oneOf : s.oneOf[i]? = some place → Has s (.oneOf i) place
  | anyOf : s.anyOf[i]? = some place → Has s (.anyOf i) place

section

variable {s : Schema} {key : String} {i : Nat} {place : SchemaRef}

@[simp] theorem has_property : s.Has (.property key) place ↔ (key, place) ∈ s.properties where
  mp | .property h => h
  mpr := .property

@[simp] theorem has_additional :
    s.Has .additional place ↔ s.additionalProperties = some (.schema place) where
  mp | .additional h => h
  mpr := .additional

@[simp] theorem has_item : s.Has .item place ↔ s.items = some place where
  mp | .item h => h
  mpr := .item

@[simp] theorem has_oneOf : s.Has (.oneOf i) place ↔ s.oneOf[i]? = some place where
  mp | .oneOf h => h
  mpr := .oneOf

@[simp] theorem has_anyOf : s.Has (.anyOf i) place ↔ s.anyOf[i]? = some place where
  mp | .anyOf h => h
  mpr := .anyOf

end

-- A member of `allOf` that is no reference.
def Merges (s : Schema) (i : Nat) (member : Schema) : Prop :=
  s.allOf[i]? = some (.inline member)

theorem Has.sizeOf_lt {s c : Schema} {role : Role} (h : s.Has role (.inline c)) :
    sizeOf c < sizeOf s := by
  cases s
  cases h
  case property h =>
    have := List.sizeOf_lt_of_mem h
    simp at this ⊢
    omega
  case additional h | item h =>
    cases h
    simp
    omega
  case oneOf h | anyOf h =>
    have := List.sizeOf_lt_of_mem (List.mem_of_getElem? h)
    simp at this ⊢
    omega

theorem Merges.sizeOf_lt {s m : Schema} {i : Nat} (h : s.Merges i m) : sizeOf m < sizeOf s := by
  cases s
  have := List.sizeOf_lt_of_mem (List.mem_of_getElem? h)
  simp at this ⊢
  omega

@[elab_as_elim]
theorem induction {motive : Schema → Prop}
    (step : ∀ s, (∀ {role c}, s.Has role (.inline c) → motive c) →
      (∀ {i m}, s.Merges i m → motive m) → motive s) (s : Schema) : motive s :=
  step s (fun {_ c} _ => induction step c) (fun {_ m} _ => induction step m)
termination_by sizeOf s
decreasing_by
  · exact Has.sizeOf_lt ‹_›
  · exact Merges.sizeOf_lt ‹_›

end Schema

end OpenApiClient
