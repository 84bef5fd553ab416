import OpenApiClient.Document.Reader
import OpenApiClient.Proofs.Distinct

/-!
What is read from a text: a map takes each key once, however often it is written, so that no map in a
document that was read has a key twice.
-/

namespace OpenApiClient

-- All that a reader makes of a source has a property.
def Gives {α : Type} (read : Source → Option α) (P : α → Prop) : Prop :=
  ∀ ⦃s a⦄, read s = some a → P a

section

variable {α : Type} {P : α → Prop} {read : Source → Option α} {place : Place} {f : Fields}
  {name : String}

theorem forall_mem_of_mapM {β : Type} {f : β → Option α} {xs : List β} {ys : List α}
    (hf : ∀ x ∈ xs, ∀ y, f x = some y → P y) (h : xs.mapM f = some ys) : ∀ y ∈ ys, P y := by
  induction xs generalizing ys with
  | nil => simp_all
  | cons x xs ih =>
    simp only [List.mapM_cons, Option.bind_eq_bind, Option.bind_eq_some_iff, Option.pure_def,
      Option.some.injEq] at h
    obtain ⟨y, hy, ys, hys, rfl⟩ := h
    have ⟨first, others⟩ := List.forall_mem_cons.mp hf
    exact List.forall_mem_cons.mpr ⟨first y hy, ih others hys⟩

theorem Entries.forall_mem_ofPairs {pairs : List (String × α)} (h : ∀ pair ∈ pairs, P pair.2) :
    ∀ entry ∈ Entries.ofPairs pairs, P entry.2 := by
  refine List.foldlRecOn (motive := fun entries : List (String × α) => ∀ entry ∈ entries, P entry.2)
    pairs _ (List.forall_mem_nil _) ?_
  intro entries known pair hp entry he
  cases Entries.mem_put he
  case inl he => exact known entry he
  case inr he => exact he ▸ h pair hp

theorem Gives.any : Gives read fun _ => True :=
  fun _ _ _ => trivial

theorem Gives.map (h : Gives read P) : Gives (place.map? read) (Entries.Of P) := by
  intro s entries hs
  simp only [Place.map?, Option.bind_eq_bind, Option.bind_eq_some_iff, Option.pure_def,
    Option.some.injEq] at hs
  obtain ⟨sources, _, pairs, hp, rfl⟩ := hs
  have values : ∀ pair ∈ pairs, P pair.2 := by
    refine forall_mem_of_mapM (fun _ _ pair hpair => ?_) hp
    obtain ⟨value, hv, rfl⟩ := Option.map_eq_some_iff.mp hpair
    exact h hv
  exact ⟨Entries.nodup_keys_ofPairs pairs, fun hm => Entries.forall_mem_ofPairs values _ hm⟩

theorem Gives.list (h : Gives read P) : Gives (place.list? read) (∀ a ∈ ·, P a) := by
  intro s items hs
  simp only [Place.list?, Option.bind_eq_bind, Option.bind_eq_some_iff] at hs
  obtain ⟨sources, _, hs⟩ := hs
  exact forall_mem_of_mapM (fun _ _ _ ha => h ha) hs

theorem Gives.refOr (h : Gives read P) : Gives (Source.refOr? read) (RefOr.Only P) := by
  intro s place hs
  unfold Source.refOr? at hs
  split at hs
  case h_1 =>
    cases hs
    exact RefOr.only_ref
  case h_2 =>
    obtain ⟨value, hv, rfl⟩ := Option.map_eq_some_iff.mp hs
    exact RefOr.only_inline.mpr (h hv)

theorem Gives.choice (h : Gives read P) : Gives (Source.choice? read) (RefOr.Only P) := by
  intro s place hs
  unfold Source.choice? at hs
  split at hs
  case isTrue => exact h.refOr hs
  case isFalse => contradiction

theorem Gives.required {a : α} (h : Gives read P) (ha : f.required name read = some a) : P a := by
  simp only [Fields.required, Option.bind_eq_bind, Option.bind_eq_some_iff] at ha
  obtain ⟨_, _, ha⟩ := ha
  exact h ha

theorem Gives.optional {found : Option α} (h : Gives read P)
    (ho : f.optional place name read = some found) : ∀ a ∈ found, P a := by
  unfold Fields.optional at ho
  split at ho
  case h_1 =>
    split at ho <;> cases ho
    simp
  case h_2 =>
    simp only [Option.bind_eq_bind, Option.bind_eq_some_iff] at ho
    obtain ⟨absent, _, ho⟩ := ho
    split at ho
    case isTrue => cases ho; simp
    case isFalse =>
      obtain ⟨a, ha, rfl⟩ := Option.map_eq_some_iff.mp ho
      rintro _ ⟨⟩
      exact h ha

theorem Gives.defaulted {a value : α} (h : Gives read P) (hv : P value)
    (ha : f.defaulted name value read = some a) : P a := by
  unfold Fields.defaulted at ha
  split at ha
  case h_1 => exact Option.some.inj ha ▸ hv
  case h_2 => exact h ha

end

theorem Discriminator.gives : Gives Discriminator.read? (Entries.Distinct ·.mapping) := by
  intro s d h
  simp only [read?, Option.bind_eq_bind, Option.bind_eq_some_iff, Option.pure_def,
    Option.some.injEq] at h
  obtain ⟨f, _, name, _, mapping, hm, rfl⟩ := h
  exact (Gives.any.map.defaulted Entries.Of.nil hm).distinct

-- What a source says about the properties that are not named.
def AdditionalProperties.read? {σ : Type} (inner : Source → Option σ) (s : Source) : Option (AdditionalProperties σ) :=
  match Place.choice.flag? s with
  | some flag => some (.allowed flag)
  | none => (inner s).map .schema

theorem Gives.additionalProperties {σ : Type} {P : σ → Prop} {inner : Source → Option σ} (h : Gives inner P) :
    Gives (AdditionalProperties.read? inner) fun a => ∀ place, a = .schema place → P place := by
  intro s a hs place hp
  subst hp
  unfold AdditionalProperties.read? at hs
  split at hs
  case h_1 => cases hs
  case h_2 =>
    obtain ⟨place, hplace, ⟨⟩⟩ := Option.map_eq_some_iff.mp hs
    exact h hplace

namespace Schema

-- All that reading a schema comes to, field by field.
structure ReadFrom (inner : Source → Option SchemaRef) (f : Fields) (s : Schema) : Prop where
  typeKeyword : f.optional .choice "type" TypeKeyword.read? = some s.typeKeyword
  format : f.optional .choice "format" Place.choice.text? = some s.format
  title : f.optional .choice "title" Place.choice.text? = some s.title
  description : f.optional .choice "description" Place.choice.text? = some s.description
  defaultValue : f.optional .choice "default" Source.toJson? = some s.defaultValue
  nullable : f.optional .choice "nullable" Place.choice.flag? = some s.nullable
  properties : f.defaulted "properties" [] (Place.choice.map? inner) = some s.properties
  required : f.defaulted "required" [] (Place.choice.list? Place.choice.text?) = some s.required
  additionalProperties : f.optional .choice "additionalProperties" (AdditionalProperties.read? inner) =
    some s.additionalProperties
  items : f.optional .choice "items" inner = some s.items
  allOf : f.defaulted "allOf" [] (Place.choice.list? inner) = some s.allOf
  oneOf : f.defaulted "oneOf" [] (Place.choice.list? inner) = some s.oneOf
  anyOf : f.defaulted "anyOf" [] (Place.choice.list? inner) = some s.anyOf
  discriminator : f.optional .choice "discriminator" Discriminator.read? = some s.discriminator
  enumValues : f.defaulted "enum" [] (Place.choice.list? Source.toJson?) = some s.enumValues
  constValue : f.optional .choice "const" Source.toJson? = some s.constValue
  readOnly : f.optional .choice "readOnly" Place.choice.flag? = some s.readOnly
  writeOnly : f.optional .choice "writeOnly" Place.choice.flag? = some s.writeOnly
  deprecated : f.optional .choice "deprecated" Place.choice.flag? = some s.deprecated
  exampleValue : f.optional .choice "example" Source.toJson? = some s.exampleValue

theorem readWith?_eq_some {inner : Source → Option SchemaRef} {source : Source} {s : Schema} :
    readWith? inner source = some s ↔ ∃ f, Place.choice.fields? fieldNames source = some f ∧ ReadFrom inner f s := by
  constructor
  case mp =>
    intro h
    obtain ⟨f, hf, h⟩ := Option.bind_eq_some_iff.mp h
    obtain ⟨_, typeKeyword, h⟩ := Option.bind_eq_some_iff.mp h
    obtain ⟨_, format, h⟩ := Option.bind_eq_some_iff.mp h
    obtain ⟨_, title, h⟩ := Option.bind_eq_some_iff.mp h
    obtain ⟨_, description, h⟩ := Option.bind_eq_some_iff.mp h
    obtain ⟨_, defaultValue, h⟩ := Option.bind_eq_some_iff.mp h
    obtain ⟨_, nullable, h⟩ := Option.bind_eq_some_iff.mp h
    obtain ⟨_, properties, h⟩ := Option.bind_eq_some_iff.mp h
    obtain ⟨_, required, h⟩ := Option.bind_eq_some_iff.mp h
    obtain ⟨_, additionalProperties, h⟩ := Option.bind_eq_some_iff.mp h
    obtain ⟨_, items, h⟩ := Option.bind_eq_some_iff.mp h
    obtain ⟨_, allOf, h⟩ := Option.bind_eq_some_iff.mp h
    obtain ⟨_, oneOf, h⟩ := Option.bind_eq_some_iff.mp h
    obtain ⟨_, anyOf, h⟩ := Option.bind_eq_some_iff.mp h
    obtain ⟨_, discriminator, h⟩ := Option.bind_eq_some_iff.mp h
    obtain ⟨_, enumValues, h⟩ := Option.bind_eq_some_iff.mp h
    obtain ⟨_, constValue, h⟩ := Option.bind_eq_some_iff.mp h
    obtain ⟨_, readOnly, h⟩ := Option.bind_eq_some_iff.mp h
    obtain ⟨_, writeOnly, h⟩ := Option.bind_eq_some_iff.mp h
    obtain ⟨_, deprecated, h⟩ := Option.bind_eq_some_iff.mp h
    obtain ⟨_, exampleValue, h⟩ := Option.bind_eq_some_iff.mp h
    cases h
    exact ⟨f, hf, typeKeyword, format, title, description, defaultValue, nullable, properties, required,
      additionalProperties, items, allOf, oneOf, anyOf, discriminator, enumValues, constValue, readOnly, writeOnly,
      deprecated, exampleValue⟩
  case mpr =>
    rintro ⟨f, hf, read⟩
    have next {α : Type} {found : Option α} {a : α} {rest : α → Option Schema} (ha : found = some a)
        (hr : rest a = some s) : found.bind rest = some s := Option.bind_eq_some_iff.mpr ⟨a, ha, hr⟩
    exact next hf <| next read.typeKeyword <| next read.format <| next read.title <| next read.description <|
      next read.defaultValue <| next read.nullable <| next read.properties <| next read.required <|
      next read.additionalProperties <| next read.items <| next read.allOf <| next read.oneOf <| next read.anyOf <|
      next read.discriminator <| next read.enumValues <| next read.constValue <| next read.readOnly <|
      next read.writeOnly <| next read.deprecated <| next read.exampleValue <| by cases s; rfl

theorem gives_readWith {inner : Source → Option SchemaRef}
    (hi : Gives inner (RefOr.Only Schema.Distinct)) : Gives (readWith? inner) Schema.Distinct := by
  intro source s h
  obtain ⟨f, _, read⟩ := readWith?_eq_some.mp h
  have empty : ∀ place ∈ ([] : List SchemaRef), place.Only Schema.Distinct := List.forall_mem_nil _
  refine Schema.distinct_iff.mpr ⟨hi.map.defaulted .nil read.properties, fun place additional => ?_,
    hi.optional read.items, hi.list.defaulted empty read.allOf, hi.list.defaulted empty read.oneOf,
    hi.list.defaulted empty read.anyOf, Discriminator.gives.optional read.discriminator⟩
  exact hi.additionalProperties.optional read.additionalProperties _ additional place rfl

theorem gives_readLevels (levels : Nat) : Gives (readLevels? levels) (RefOr.Only Schema.Distinct) := by
  induction levels with
  | zero => nofun
  | succ levels ih => exact (gives_readWith ih).refOr

theorem gives_readRefOr : Gives readRefOr? (RefOr.Only Schema.Distinct) :=
  fun s _ h => gives_readLevels (s.height + 1) h

end Schema

theorem MediaType.gives : Gives MediaType.read? MediaType.Distinct := by
  intro s m h
  simp only [read?, Option.bind_eq_bind, Option.bind_eq_some_iff, Option.pure_def,
    Option.some.injEq] at h
  obtain ⟨f, _, schema, hs, _, _, examples, he, rfl⟩ := h
  exact ⟨Schema.gives_readRefOr.optional hs, (Gives.any.map.defaulted .nil he).distinct⟩

theorem Parameter.gives : Gives Parameter.read? Parameter.Distinct := by
  intro s p h
  simp only [read?, Option.bind_eq_bind, Option.bind_eq_some_iff, Option.pure_def,
    Option.some.injEq] at h
  obtain ⟨f, _, _, _, _, _, _, _, _, _, _, _, schema, hs, _, _, _, _, rfl⟩ := h
  exact Schema.gives_readRefOr.optional hs

theorem RequestBody.gives : Gives RequestBody.read? RequestBody.Distinct := by
  intro s b h
  simp only [read?, Option.bind_eq_bind, Option.bind_eq_some_iff, Option.pure_def,
    Option.some.injEq] at h
  obtain ⟨f, _, _, _, content, hc, _, _, rfl⟩ := h
  exact MediaType.gives.map.required hc

theorem Response.gives : Gives Response.read? Response.Distinct := by
  intro s r h
  simp only [read?, Option.bind_eq_bind, Option.bind_eq_some_iff, Option.pure_def,
    Option.some.injEq] at h
  obtain ⟨f, _, _, _, content, hc, headers, hh, rfl⟩ := h
  exact ⟨MediaType.gives.map.defaulted .nil hc, (Gives.any.map.defaulted .nil hh).distinct⟩

theorem Operation.gives : Gives Operation.read? Operation.Distinct := by
  intro s op h
  simp only [read?, Option.bind_eq_bind, Option.bind_eq_some_iff, Option.pure_def,
    Option.some.injEq] at h
  obtain ⟨f, _, _, _, _, _, _, _, _, _, parameters, hp, body, hb, responses, hr, _, _, rfl⟩ := h
  exact {
    parameters := Parameter.gives.choice.list.defaulted (List.forall_mem_nil _) hp
    requestBody := RequestBody.gives.choice.optional hb
    responses := Response.gives.choice.map.defaulted .nil hr }

theorem PathItem.gives : Gives PathItem.read? PathItem.Distinct := by
  intro s item h
  simp only [read?, Option.bind_eq_bind, Option.bind_eq_some_iff, Option.pure_def,
    Option.some.injEq] at h
  obtain ⟨f, _, _, _, _, _, parameters, hp, get, hget, put, hput, post, hpost, delete, hdelete,
    options, hoptions, head, hhead, patch, hpatch, trace, htrace, rfl⟩ := h
  refine ⟨Parameter.gives.choice.list.defaulted (List.forall_mem_nil _) hp, fun (m, op) hm => ?_⟩
  replace hm := PathItem.mem_operations.mp hm
  cases m
  case get => exact Operation.gives.optional hget op hm
  case put => exact Operation.gives.optional hput op hm
  case post => exact Operation.gives.optional hpost op hm
  case delete => exact Operation.gives.optional hdelete op hm
  case options => exact Operation.gives.optional hoptions op hm
  case head => exact Operation.gives.optional hhead op hm
  case patch => exact Operation.gives.optional hpatch op hm
  case trace => exact Operation.gives.optional htrace op hm

theorem Components.gives : Gives Components.read? Components.Distinct := by
  intro s c h
  simp only [read?, Option.bind_eq_bind, Option.bind_eq_some_iff, Option.pure_def,
    Option.some.injEq] at h
  obtain ⟨f, _, schemas, hs, responses, hr, parameters, hp, bodies, hb, rfl⟩ := h
  have schema : Gives Source.schema? (RefOr.Only Schema.Distinct) := by
    intro s place hs
    unfold Source.schema? at hs
    split at hs
    case isTrue => exact Schema.gives_readRefOr hs
    case isFalse => contradiction
  exact {
    schemas := schema.map.defaulted .nil hs
    responses := Response.gives.choice.map.defaulted .nil hr
    parameters := Parameter.gives.choice.map.defaulted .nil hp
    requestBodies := RequestBody.gives.choice.map.defaulted .nil hb }

theorem Server.gives : Gives Server.read? (Entries.Distinct ·.placeholders) := by
  intro s server h
  simp only [read?, Option.bind_eq_bind, Option.bind_eq_some_iff, Option.pure_def,
    Option.some.injEq] at h
  obtain ⟨f, _, _, _, _, _, placeholders, hp, rfl⟩ := h
  exact (Gives.any.map.defaulted Entries.Of.nil hp).distinct

namespace Document

theorem gives : Gives read? Document.Distinct := by
  intro s d h
  simp only [read?, Option.bind_eq_bind, Option.bind_eq_some_iff, Option.pure_def,
    Option.some.injEq] at h
  obtain ⟨f, _, _, _, _, _, servers, hs, paths, hp, components, hc, _, _, rfl⟩ := h
  exact {
    servers := Server.gives.list.defaulted (List.forall_mem_nil _) hs
    paths := PathItem.gives.map.defaulted .nil hp
    components := Components.gives.optional hc }

-- No document that was read has a map with a key twice.
theorem distinct_of_source {format : Format} {source : Option Source} {d : Document}
    (h : ofSource format source = .ok d) : d.Distinct := by
  unfold ofSource at h
  split at h
  case h_1 => contradiction
  case h_2 hs =>
    split at h <;> cases h
    obtain ⟨_, _, hd⟩ := Option.bind_eq_some_iff.mp hs
    exact gives hd

end Document

end OpenApiClient
