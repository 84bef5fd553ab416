import OpenApiClient.Php.Enumeration
import OpenApiClient.Proofs.Client.Decoded
import OpenApiClient.Proofs.Hint.NullMember

/-!
The types of the values of an enum: the kind of its schema, the hints for its values as they are decoded, the cases and
the class that is written for it all tell of the same types.
-/

namespace OpenApiClient

theorem eraseDups_map {α β : Type} [DecidableEq α] [DecidableEq β] {f : α → β} {as : List α}
    (inj : ∀ a ∈ as, ∀ b ∈ as, f a = f b → a = b) : (as.map f).eraseDups = as.eraseDups.map f := by
  induction as using List.reverseRecOn with
  | nil => rfl
  | append_singleton as a ih =>
    have same : f a ∈ as.map f ↔ a ∈ as := by
      refine ⟨fun there => ?_, List.mem_map_of_mem⟩
      obtain ⟨b, hb, same⟩ := List.mem_map.mp there
      exact inj b (List.mem_append_left _ hb) a (by simp) same ▸ hb
    have ih := ih fun a ha b hb => inj a (List.mem_append_left _ ha) b (List.mem_append_left _ hb)
    rw [List.map_append, List.map_singleton, eraseDups_concat, eraseDups_concat, ih]
    by_cases old : a ∈ as
    case pos => rw [if_pos (same.mpr old), if_pos old]
    case neg => rw [if_neg (mt same.mp old), if_neg old, List.map_append, List.map_singleton]

namespace Hints

variable {hints : List Hint}

theorem ofList_eq_eraseDups (hints : List Hint) : ofList hints = hints.eraseDups := by
  induction hints using List.reverseRecOn with
  | nil => rfl
  | append_singleton hints hint ih =>
    have pushed : ofList (hints ++ [hint]) = (ofList hints).push hint := ofList_append
    rw [pushed, eraseDups_concat, ← ih, push]
    simp only [mem_ofList]

theorem withoutNull_eq_self (h : .null ∉ hints) : withoutNull hints = hints :=
  List.filter_eq_self.mpr fun hint mem => by simpa using ne_of_mem_of_not_mem mem h

theorem withoutNull_push_null (h : .null ∉ hints) : withoutNull (push hints .null) = hints := by
  rw [push_of_not_mem h, withoutNull, List.filter_append, ← withoutNull, withoutNull_eq_self h]
  simp

theorem text_eq (hints : Hints) : hints.text = "|".intercalate (hints.map Hint.text) := by
  have texts : hintTexts hints = hints.map Hint.text := by
    induction hints with
    | nil => rfl
    | cons hint rest ih => rw [hintTexts, ih, List.map_cons]
  rw [text, texts]

end Hints

theorem BasicType.name_injective : Function.Injective BasicType.name := by
  intro a b same
  cases a <;> cases b <;> first | rfl | exact absurd same (by decide)

namespace Literal

variable {l : Literal}

theorem hint_eq_string_iff : l.hint = .string ↔ ∃ text, l = .string text := by
  cases l <;> simp [hint]

theorem hint_eq_int_iff : l.hint = .int ↔ ∃ n, l = .int n := by
  cases l <;> simp [hint]

theorem hint_inj_of_text {a b : Literal} (same : a.hint.text = b.hint.text) : a.hint = b.hint := by
  have basic (l : Literal) : ∃ type, l.hint = .basic type := by cases l <;> exact ⟨_, rfl⟩
  obtain ⟨type, hint⟩ := basic a
  obtain ⟨type', hint'⟩ := basic b
  rw [hint, hint'] at same ⊢
  exact congrArg Hint.basic (BasicType.name_injective same)

theorem literalType_eq (l : Literal) : Php.literalType l = l.hint.text := by
  cases l <;> rfl

end Literal

namespace Schema

variable {s : Schema} {kind : SchemaKind} {value : Json.Value} {values : List Json.Value}

theorem literalHint_eq_string_iff : literalHint value = .string ↔ value.isString := by
  cases value with
  | number x =>
    simp only [literalHint]
    split <;> simp [Json.Value.isString]
  | _ => simp [literalHint, Json.Value.isString, Json.Value.isSigned64]

theorem literalHint_eq_int_iff : literalHint value = .int ↔ value.isSigned64 := by
  cases value with
  | number x => simp [literalHint]
  | _ => simp [literalHint, Json.Value.isSigned64]

-- The cases are of the types of the values.
theorem mem_caseTypes {type : Hint} : type ∈ (EnumCase.ofValues values).map (·.value.hint) ↔
    type ∈ (scalarValues values).map literalHint := by
  rw [← Hints.mem_ofList, EnumCase.hints_ofValues, Hints.mem_ofList]

-- What the kind of an enum says of the types of its cases.
inductive Typed (types : List Hint) : SchemaKind → Prop
  | strings : (∀ type ∈ types, type = .string) → Typed types .stringEnum
  | ints : (∀ type ∈ types, type = .int) → Typed types .intEnum
  | mixed : ¬ (∀ type ∈ types, type = .string) → ¬ (∀ type ∈ types, type = .int) → Typed types .mixedEnum

theorem typed_of_enumKind? (h : enumKind? values = some kind) :
    Typed ((EnumCase.ofValues values).map (·.value.hint)) kind := by
  have strings : (scalarValues values).all Json.Value.isString ↔
      ∀ type ∈ (EnumCase.ofValues values).map (·.value.hint), type = .string := by
    simp only [mem_caseTypes, List.forall_mem_map, literalHint_eq_string_iff, List.all_eq_true]
  have ints : (scalarValues values).all Json.Value.isSigned64 ↔
      ∀ type ∈ (EnumCase.ofValues values).map (·.value.hint), type = .int := by
    simp only [mem_caseTypes, List.forall_mem_map, literalHint_eq_int_iff, List.all_eq_true]
  simp only [enumKind?, strings, ints] at h
  split at h
  case isTrue => contradiction
  case isFalse =>
    split at h
    case isTrue all_strings =>
      cases h
      exact .strings all_strings
    case isFalse not_strings =>
      split at h <;> cases h
      case isTrue all_ints => exact .ints all_ints
      case isFalse not_ints => exact .mixed not_strings not_ints

theorem enumKind?_of_isEnum (h : s.kind.isEnum) : enumKind? s.enumValues = some s.kind := by
  rw [kind_eq] at h ⊢
  split at h
  case h_1 kind known => exact known
  case h_2 =>
    contrapose! h
    repeat' split
    all_goals simp [SchemaKind.isEnum]

theorem cases_ne_nil (h : s.kind.isEnum) : EnumCase.ofValues s.enumValues ≠ [] := by
  obtain ⟨value, mem⟩ := List.exists_mem_of_ne_nil _ (isEnum_iff.mp h)
  have type_mem := mem_caseTypes.mpr (List.mem_map_of_mem (f := literalHint) mem)
  exact fun none => by simp [none] at type_mem

-- What an enum is decoded as: a value of one of the types of its cases, or null.
theorem exists_decoded_hints (h : s.kind.isEnum) : ∃ hints : Hints,
    (∀ expand name, hintsAt expand .decoded name (.inline s) = .ok hints) ∧
    hints.withoutNull = ((EnumCase.ofValues s.enumValues).map (·.value.hint)).eraseDups := by
  have values : s.enumValues ≠ [] := fun none => absurd h (not_isEnum none)
  have unwrapped : s.annotatedReference = none := by simp [annotatedReference, isStructured, values]
  obtain ⟨types, types_eq⟩ : ∃ types, types = Hints.ofList ((scalarValues s.enumValues).map literalHint) := ⟨_, rfl⟩
  have no_null : .null ∉ types := by
    rw [types_eq, Hints.mem_ofList, List.mem_map]
    rintro ⟨value, -, null⟩
    exact literalHint_ne_null null
  refine ⟨if s.admitsNull then types.push .null else types, fun expand name => ?_, ?_⟩
  · rw [hintsAt_inline unwrapped, hints_eq, if_pos h, types_eq]
    rfl
  · rw [← Hints.ofList_eq_eraseDups, EnumCase.hints_ofValues, ← types_eq]
    split
    case isTrue => exact Hints.withoutNull_push_null no_null
    case isFalse => exact Hints.withoutNull_eq_self no_null

end Schema

namespace Php

variable {cases : List EnumCase} {parts : List Lines} {part : Lines} {line : String}

theorem mem_spaced (hp : part ∈ parts) (hl : line ∈ part) : line ∈ spaced parts := by
  induction parts with
  | nil => contradiction
  | cons first parts ih =>
    cases parts with
    | nil =>
      obtain rfl := List.mem_singleton.mp hp
      simpa [spaced, List.intercalate] using hl
    | cons =>
      rw [spaced, List.intercalate_cons_cons, List.mem_append, List.mem_append]
      cases List.mem_cons.mp hp
      case inl this => exact .inl (.inl (this ▸ hl))
      case inr later => exact .inr (ih later)

-- The types of the cases, as they are called.
theorem literalTypes_eq (cases : List EnumCase) : (cases.map (literalType ·.value)).eraseDups =
    ((cases.map (·.value.hint)).eraseDups).map Hint.text := by
  have types : cases.map (literalType ·.value) = (cases.map (·.value.hint)).map Hint.text := by
    simp [Literal.literalType_eq]
  rw [types]
  refine eraseDups_map fun a ha b hb same => ?_
  obtain ⟨c, _, rfl⟩ := List.mem_map.mp ha
  obtain ⟨c', _, rfl⟩ := List.mem_map.mp hb
  exact Literal.hint_inj_of_text same

theorem valueType_eq (h : cases ≠ []) :
    valueType cases = "|".intercalate (cases.map (literalType ·.value)).eraseDups := by
  obtain ⟨c, hc⟩ := List.exists_mem_of_ne_nil cases h
  have type_mem := List.mem_eraseDups.mpr (List.mem_map_of_mem (f := (literalType ·.value)) hc)
  unfold valueType
  split
  case h_1 none => simp [none] at type_mem
  case h_2 => rfl

end Php

-- Whatever tells of the values of an enum tells of the same types in the same order.
theorem Schema.enum_types_agree {s : Schema} (h : s.kind.isEnum) :
    let cases := EnumCase.ofValues s.enumValues
    cases ≠ [] ∧
    (s.kind = .stringEnum → ∀ c ∈ cases, ∃ text, c.value = .string text) ∧
    (s.kind = .intEnum → ∀ c ∈ cases, ∃ n, c.value = .int n) ∧
    (s.kind = .mixedEnum → ¬ (∀ c ∈ cases, ∃ text, c.value = .string text) ∧
      ¬ ∀ c ∈ cases, ∃ n, c.value = .int n) ∧
    ∃ hints : Hints, (∀ expand name, hintsAt expand .decoded name (.inline s) = .ok hints) ∧
      hints.withoutNull = (cases.map (·.value.hint)).eraseDups ∧
      hints.withoutNull.map Hint.text = (cases.map (Php.literalType ·.value)).eraseDups ∧
      hints.withoutNull.text = Php.valueType cases ∧
      ∀ (n : NamedDocument) name origin, ∃ e, n.entity ⟨name, s, s.kind, origin⟩ = .ok e ∧ e.cases = cases ∧
        (s.kind = .mixedEnum → ∀ root, ∃ f, Php.enumFile? root e = some f ∧
          "private function __construct(public readonly " ++ hints.withoutNull.text ++ " $value)" ∈ f.members) := by
  intro cases
  have some_case : cases ≠ [] := cases_ne_nil h
  have typed : Typed (cases.map (·.value.hint)) s.kind := typed_of_enumKind? (enumKind?_of_isEnum h)
  simp only [← Literal.hint_eq_string_iff, ← Literal.hint_eq_int_iff]
  obtain ⟨hints, decoded, types⟩ := exists_decoded_hints h
  have texts : hints.withoutNull.map Hint.text = (cases.map (Php.literalType ·.value)).eraseDups := by
    rw [types, Php.literalTypes_eq]
  have value : hints.withoutNull.text = Php.valueType cases := by
    rw [Php.valueType_eq some_case, Hints.text_eq, texts]
  refine ⟨some_case, fun strings => ?_, fun ints => ?_, fun mixed => ?_, hints, decoded, types, texts, value, ?_⟩
  · cases strings ▸ typed
    case strings all_strings => exact List.forall_mem_map.mp all_strings
  · cases ints ▸ typed
    case ints all_ints => exact List.forall_mem_map.mp all_ints
  · cases mixed ▸ typed
    case mixed not_strings not_ints =>
      rw [List.forall_mem_map] at not_strings not_ints
      exact ⟨not_strings, not_ints⟩
  · intro n name origin
    have is_enum : (NamedSchema.mk name s s.kind origin).kind.isEnum := h
    obtain ⟨e, built, kind, of_e⟩ := n.exists_enum_entity is_enum
    have of_e : e.cases = cases := of_e
    refine ⟨e, built, of_e, fun mixed root => ⟨Php.instancesFile root e, by rw [Php.enumFile?, kind, mixed], ?_⟩⟩
    rw [value, ← of_e]
    have line : _ ∈ Php.Instances.constructor (Php.valueType e.cases) := List.mem_cons_self
    exact Php.mem_spaced (by simp) line

def Sizes.schema : Schema := { enumValues := Sizes.values }

theorem Schema.sizes_types_agree : Sizes.schema.kind.isEnum ∧ Sizes.schema.kind = .mixedEnum ∧ ∃ hints : Hints,
    (∀ expand name, hintsAt expand .decoded name (.inline Sizes.schema) = .ok hints) ∧
    hints.withoutNull = [.string, .int, .float, .bool] ∧
    hints.withoutNull.text = Php.valueType (EnumCase.ofValues Sizes.values) ∧
    ∀ n : NamedDocument, ∃ e, n.entity ⟨"Size", Sizes.schema, Sizes.schema.kind, "/components/schemas/Size"⟩ = .ok e ∧
      ∃ f, Php.enumFile? "Acme" e = some f ∧
        "private function __construct(public readonly string|int|float|bool $value)" ∈ f.members := by
  have kind : Sizes.schema.kind = .mixedEnum := by decide +kernel
  have is_enum : Sizes.schema.kind.isEnum := by rw [kind]; rfl
  have types : ((EnumCase.ofValues Sizes.values).map (·.value.hint)).eraseDups = [.string, .int, .float, .bool] := by
    decide +kernel
  obtain ⟨-, -, -, -, hints, decoded, agree, -, value, built⟩ := enum_types_agree is_enum
  have kinds : hints.withoutNull = [.string, .int, .float, .bool] := agree.trans types
  refine ⟨is_enum, kind, hints, decoded, kinds, value, fun n => ?_⟩
  obtain ⟨e, entity, -, emitted⟩ := built n "Size" "/components/schemas/Size"
  have line := emitted kind "Acme"
  rw [kinds] at line
  exact ⟨e, entity, line⟩

end OpenApiClient
