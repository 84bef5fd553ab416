import OpenApiClient.Proofs.Equality

/-!
Schemas that say the same are of the same kind: what decides the kind is not touched by the order of
keys or the form of numbers.
-/

namespace OpenApiClient

theorem sameOption_isSome {α : Type} {same : α → α → Bool} {a b : Option α}
    (h : sameOption same a b) : a.isSome = b.isSome := by
  cases a <;> cases b <;> simp_all [sameOption]

theorem sameList_isEmpty {α : Type} {same : α → α → Bool} {a b : List α}
    (h : sameList same a b) : a.isEmpty = b.isEmpty := by
  cases a <;> cases b <;> simp_all [sameList]

theorem sameEntries_isEmpty {α : Type} {same : α → α → Bool} {a b : List (String × α)}
    (h : sameEntries same a b) : a.isEmpty = b.isEmpty := by
  have ⟨hl, _⟩ := sameEntries_iff.mp h
  cases a <;> cases b <;> simp_all

theorem sameList_iff_map {α β : Type} {same : α → α → Bool} {f : α → β}
    (h : ∀ a b, same a b ↔ f a = f b) {as bs : List α} :
    sameList same as bs ↔ as.map f = bs.map f := by
  induction as generalizing bs <;> cases bs <;> simp_all [sameList]

namespace Json.Value

@[simp] theorem isNull_plain (v : Value) : v.plain.isNull = v.isNull := by
  cases v <;> simp [plain, isNull]

@[simp] theorem isString_plain (v : Value) : v.plain.isString = v.isString := by
  cases v <;> simp [plain, isString]

@[simp] theorem isStructured_plain (v : Value) : v.plain.isStructured = v.isStructured := by
  cases v <;> simp [plain, isStructured]

@[simp] theorem isSigned64_plain (v : Value) : v.plain.isSigned64 = v.isSigned64 := by
  cases v
  case number n => cases n <;> simp [plain, Number.plain, isSigned64]
  all_goals simp [plain, isSigned64]

end Json.Value

namespace Schema

theorem scalarValues_map_plain (values : List Json.Value) :
    scalarValues (values.map Json.Value.plain) = (scalarValues values).map Json.Value.plain := by
  simp only [scalarValues, List.filter_map, List.any_map, Function.comp_def,
    Json.Value.isNull_plain, Json.Value.isStructured_plain]
  split <;> rfl

theorem enumKind?_map_plain (values : List Json.Value) :
    enumKind? (values.map Json.Value.plain) = enumKind? values := by
  simp [enumKind?, scalarValues_map_plain, Function.comp_def]

theorem enumKind?_eq_of_same {a b : List Json.Value} (h : sameList Json.Value.equals a b) :
    enumKind? a = enumKind? b := by
  rw [← enumKind?_map_plain a, (sameList_iff_map Json.Value.equals_iff).mp h, enumKind?_map_plain]

-- What of a schema decides its kind.
structure Shape (a b : Schema) : Prop where
  typeKeyword : a.typeKeyword = b.typeKeyword
  properties : a.properties.isEmpty = b.properties.isEmpty
  additional : a.additionalProperties.isSome = b.additionalProperties.isSome
  additionalSchema : a.additionalSchema.isSome = b.additionalSchema.isSome
  items : a.items.isSome = b.items.isSome
  allOf : sameList sameRef a.allOf b.allOf
  enumValues : enumKind? a.enumValues = enumKind? b.enumValues
  isStructured : a.isStructured = b.isStructured

theorem shape_of_same {a b : Schema} (h : a.same b) : Shape a b := by
  simp only [same_eq, Bool.and_eq_true, beq_iff_eq] at h
  obtain ⟨types, -, -, -, -, -, properties, required, additional, items, allOf, oneOf, anyOf,
    discriminator, enumValues, constValue, -⟩ := h
  have additionalProperties : a.additionalProperties.isSome = b.additionalProperties.isSome ∧
      a.additionalSchema.isSome = b.additionalSchema.isSome := by
    unfold additionalSchema
    match ha : a.additionalProperties with
    | none => simp [sameAdditional_none.mp (ha ▸ additional)]
    | some (.allowed _) => simp [sameAdditional_allowed.mp (ha ▸ additional)]
    | some (.schema _) =>
      have ⟨_, hb, _⟩ := sameAdditional_schema.mp (ha ▸ additional)
      simp [hb]
  exact {
    typeKeyword := types
    properties := sameEntries_isEmpty properties
    additional := additionalProperties.1
    additionalSchema := additionalProperties.2
    items := sameOption_isSome items
    allOf
    enumValues := enumKind?_eq_of_same enumValues
    isStructured := by
      simp [Schema.isStructured, types, sameEntries_isEmpty properties, required,
        additionalProperties.1, sameOption_isSome items, sameList_isEmpty oneOf,
        sameList_isEmpty anyOf, sameOption_isSome discriminator, sameList_isEmpty enumValues,
        sameOption_isSome constValue] }

theorem Shape.isAnnotation_eq {a b : Schema} (h : Shape a b) : a.isAnnotation = b.isAnnotation := by
  simp [Schema.isAnnotation, h.isStructured, sameList_isEmpty h.allOf]

-- Members that say the same refer to the same, and what is written in them has one shape.
theorem members_of_same {as bs : List SchemaRef} (h : sameList sameRef as bs) :
    as.filterMap RefOr.target? = bs.filterMap RefOr.target? ∧
      (as.filterMap RefOr.inline?).all isAnnotation =
        (bs.filterMap RefOr.inline?).all isAnnotation := by
  induction as generalizing bs <;> cases bs <;> simp only [sameList, Bool.and_eq_true] at h
  case nil.nil => simp
  case nil.cons | cons.nil => contradiction
  case cons.cons a as ih b bs =>
    obtain ⟨targets, annotations⟩ := ih h.2
    cases a
    case ref t =>
      cases sameRef_ref.mp h.1
      exact ⟨congrArg (t :: ·) targets, annotations⟩
    case inline s =>
      obtain ⟨t, rfl, hs⟩ := sameRef_inline.mp h.1
      have := (shape_of_same hs).isAnnotation_eq
      exact ⟨targets, congrArg₂ (· && ·) this annotations⟩

theorem Shape.annotatedReference {a b : Schema} (h : Shape a b) :
    a.annotatedReference = b.annotatedReference := by
  have ⟨targets, annotations⟩ := members_of_same h.allOf
  simp [Schema.annotatedReference, h.isStructured, targets, annotations]

theorem kind_eq (s : Schema) : s.kind =
    match enumKind? s.enumValues with
    | some kind => kind
    | none =>
      if s.hasType .object then .object
      else if s.hasType .array then .array
      else if s.typeKeyword.isSome then .primitive
      else if !s.properties.isEmpty || s.additionalSchema.isSome ||
        (s.annotatedReference.isNone && composes s.allOf == some true) then .object
      else if s.items.isSome then .array
      else .primitive := by
  cases s
  unfold kind
  rfl

theorem kind_eq_of_same {a b : Schema} (h : a.same b) : a.kind = b.kind := by
  induction a using Schema.induction generalizing b with
  | step a parts members =>
    have shape := shape_of_same h
    have composed : composes a.allOf = composes b.allOf := by
      have kinds : ∀ m ∈ a.allOf, m.Only fun s => ∀ t, s.same t → s.kind = t.kind := by
        rintro _ hm s rfl t hs
        have ⟨_, hi⟩ := List.mem_iff_getElem?.mp hm
        exact members hi hs
      have := shape.allOf
      generalize a.allOf = as at kinds this
      generalize b.allOf = bs at this
      induction as generalizing bs <;> cases bs <;> simp only [sameList, Bool.and_eq_true] at this
      case nil.nil => rfl
      case nil.cons | cons.nil => contradiction
      case cons.cons m as ih m' bs =>
        have ih := ih (List.forall_mem_cons.mp kinds).2 bs this.2
        cases m
        case ref =>
          cases sameRef_ref.mp this.1
          simp [composes, ih]
        case inline s =>
          obtain ⟨t, rfl, hs⟩ := sameRef_inline.mp this.1
          have hk := (List.forall_mem_cons.mp kinds).1 s rfl t hs
          simp [composes, ih, (shape_of_same hs).isAnnotation_eq, hk]
    rw [kind_eq, kind_eq b]
    simp only [hasType, types, shape.enumValues, shape.typeKeyword, shape.properties,
      shape.additionalSchema, shape.annotatedReference, shape.items, composed]
    rfl

end Schema

end OpenApiClient
