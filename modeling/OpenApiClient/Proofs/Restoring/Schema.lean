import OpenApiClient.Proofs.Restoring.References
import OpenApiClient.Proofs.Restoring.Values

/-!
Schemas are restored, by the levels of schemas that were read: what is written for a schema has at least as many levels as
it takes to read the schemas in it.
-/

namespace OpenApiClient

open Json (Value)

variable {m : Nat}

theorem TypeKeyword.read?_eq : read? = fun s => ((s.oneOf? TypeName.all TypeName.name).map .single).or
    ((Place.choice.list? (·.oneOf? TypeName.all TypeName.name) s).map .list) := by
  funext s
  unfold read?
  cases s.oneOf? TypeName.all TypeName.name <;> rfl

theorem TypeKeyword.restores : Restores TypeKeyword.read? TypeKeyword.read? TypeKeyword.toJson m := by
  have one : Restores (Source.oneOf? TypeName.all TypeName.name) _ TypeName.toJson m :=
    Restores.oneOf fun t => by cases t <;> rfl
  rw [TypeKeyword.read?_eq]
  refine .either one one.list fun names => ?_
  rw [TypeKeyword.toJson, Value.source_array]
  rfl

theorem Discriminator.toJson_present (d : Discriminator) : d.toJson = .object (present [
    ("propertyName", some (.string d.propertyName)),
    ("mapping", mapJson? (writeEntries .string d.mapping))]) := by
  simp [toJson]

theorem Discriminator.restores : Restores Discriminator.read? Discriminator.read? Discriminator.toJson m := by
  intro n s d hs h
  simp only [Discriminator.read?, Option.bind_eq_bind, Option.bind_eq_some_iff, Option.pure_def, Option.some.injEq] at h
  obtain ⟨f, hf, name, hname, mapping, hmapping, rfl⟩ := h
  obtain ⟨n, rfl, fits⟩ := fits_fields hs hf
  have text : Restores Place.choice.text? Place.choice.text? .string m := .text
  have name := text.required fits hname
  have mapping := text.defaultMap fits hmapping
  rw [Discriminator.toJson_present]
  refine .of_succ (record_kept .choice ["propertyName", "mapping"] rfl (by decide) ⟨name.fits, mapping.fits⟩ ?_)
  intro s f hf holds
  simp [Discriminator.read?, hf, name.back holds (by simp), mapping.back holds (by simp)]

theorem AdditionalProperties.read?_eq {σ : Type} (inner : Source → Option σ) :
    read? inner = fun s => ((Place.choice.flag? s).map .allowed).or ((inner s).map .schema) := by
  funext s
  unfold read?
  cases Place.choice.flag? s <;> rfl

theorem Restores.additionalProperties {σ : Type} {inner inner' : Source → Option σ} {write : σ → Value}
    (h : Restores inner inner' write m) (apart : ∀ a, Place.choice.flag? (write a).source = none) :
    Restores (AdditionalProperties.read? inner) (AdditionalProperties.read? inner') (AdditionalProperties.toJson write)
      m := by
  rw [AdditionalProperties.read?_eq, AdditionalProperties.read?_eq]
  exact .either .flag h apart

namespace Schema

theorem toJson_present (s : Schema) : s.toJson = .object (present [
    ("type", s.typeKeyword.map TypeKeyword.toJson),
    ("format", s.format.map .string),
    ("title", s.title.map .string),
    ("description", s.description.map .string),
    ("default", s.defaultValue),
    ("nullable", s.nullable.map .bool),
    ("properties", mapJson? (writeEntries (RefOr.toJson toJson) s.properties)),
    ("required", listJson? (s.required.map .string)),
    ("additionalProperties", s.additionalProperties.map (AdditionalProperties.toJson (RefOr.toJson toJson))),
    ("items", s.items.map (RefOr.toJson toJson)),
    ("allOf", listJson? (s.allOf.map (RefOr.toJson toJson))),
    ("oneOf", listJson? (s.oneOf.map (RefOr.toJson toJson))),
    ("anyOf", listJson? (s.anyOf.map (RefOr.toJson toJson))),
    ("discriminator", s.discriminator.map Discriminator.toJson),
    ("enum", listJson? s.enumValues),
    ("const", s.constValue),
    ("readOnly", s.readOnly.map .bool),
    ("writeOnly", s.writeOnly.map .bool),
    ("deprecated", s.deprecated.map .bool),
    ("example", s.exampleValue)]) := by
  rw [toJson_eq]
  simp only [present_cons, present_nil]
  simp only [optionalMember_map, optionalMember_listJson?, optionalMember_mapJson?]
  simp only [List.append_assoc, List.append_nil]

theorem reference?_toJson (s : Schema) : s.toJson.source.reference? = none := by
  rw [toJson_present]
  exact reference?_record (show fieldNames.Nodup by decide) (show "$ref" ∉ fieldNames by decide)

theorem flag?_refOrToJson (place : SchemaRef) : Place.choice.flag? (RefOr.toJson toJson place).source = none := by
  cases place <;> simp [RefOr.toJson, referenceJson, toJson_eq, Value.source_object, Source.object, Place.flag?]

theorem restores_readWith {inner inner' : Source → Option SchemaRef}
    (schema : Restores inner inner' (RefOr.toJson toJson) m) :
    Restores (readWith? inner) (readWith? inner') toJson (m + 1) := by
  intro n source s hs h
  obtain ⟨f, hf, read⟩ := readWith?_eq_some.mp h
  obtain ⟨n, rfl, fits⟩ := fits_fields hs hf
  have text : Restores Place.choice.text? Place.choice.text? .string m := .text
  have flag : Restores Place.choice.flag? Place.choice.flag? .bool m := .flag
  have value : Restores Source.toJson? Source.toJson? id m := .value
  have typeKeyword := TypeKeyword.restores (m := m) |>.optional fits read.typeKeyword
  have format := text.optional fits read.format
  have title := text.optional fits read.title
  have description := text.optional fits read.description
  have defaultValue := value.optional fits read.defaultValue
  have nullable := flag.optional fits read.nullable
  have properties := schema.defaultMap fits read.properties
  have required := text.defaultList fits read.required
  have additional := schema.additionalProperties flag?_refOrToJson |>.optional fits read.additionalProperties
  have items := schema.optional fits read.items
  have allOf := schema.defaultList fits read.allOf
  have oneOf := schema.defaultList fits read.oneOf
  have anyOf := schema.defaultList fits read.anyOf
  have discriminator := Discriminator.restores (m := m) |>.optional fits read.discriminator
  have enumValues := value.defaultList fits read.enumValues
  have constValue := value.optional fits read.constValue
  have readOnly := flag.optional fits read.readOnly
  have writeOnly := flag.optional fits read.writeOnly
  have deprecated := flag.optional fits read.deprecated
  have exampleValue := value.optional fits read.exampleValue
  simp only [Option.map_id, id_eq, List.map_id] at defaultValue enumValues constValue exampleValue
  rw [toJson_present]
  refine record_kept .choice fieldNames rfl (by decide) ⟨typeKeyword.fits, format.fits, title.fits, description.fits,
    defaultValue.fits, nullable.fits, properties.fits, required.fits, additional.fits, items.fits, allOf.fits, oneOf.fits,
    anyOf.fits, discriminator.fits, enumValues.fits, constValue.fits, readOnly.fits, writeOnly.fits, deprecated.fits,
    exampleValue.fits⟩ fun {_ f'} hf' holds => readWith?_eq_some.mpr ⟨f', hf', ?_⟩
  exact {
    typeKeyword := typeKeyword.back holds (by simp)
    format := format.back holds (by simp)
    title := title.back holds (by simp)
    description := description.back holds (by simp)
    defaultValue := defaultValue.back holds (by simp)
    nullable := nullable.back holds (by simp)
    properties := properties.back holds (by simp)
    required := required.back holds (by simp)
    additionalProperties := additional.back holds (by simp)
    items := items.back holds (by simp)
    allOf := allOf.back holds (by simp)
    oneOf := oneOf.back holds (by simp)
    anyOf := anyOf.back holds (by simp)
    discriminator := discriminator.back holds (by simp)
    enumValues := enumValues.back holds (by simp)
    constValue := constValue.back holds (by simp)
    readOnly := readOnly.back holds (by simp)
    writeOnly := writeOnly.back holds (by simp)
    deprecated := deprecated.back holds (by simp)
    exampleValue := exampleValue.back holds (by simp) }

theorem height_refOrToJson (place : SchemaRef) : 0 < (RefOr.toJson toJson place).source.height := by
  cases place <;> simp [RefOr.toJson, referenceJson, toJson_eq, Value.source_object, Source.object, Source.height]

theorem restores_readLevels (levels m : Nat) :
    Restores (readLevels? levels) (readLevels? m) (RefOr.toJson toJson) m := by
  induction levels generalizing m with
  | zero => nofun
  | succ levels ih =>
    have next (m : Nat) : Restores (readLevels? (levels + 1)) (readLevels? (m + 1)) (RefOr.toJson toJson) (m + 1) :=
      (restores_readWith (ih m)).refOr reference?_toJson
    cases m with
    | succ m => exact next m
    | zero =>
      -- Something is written for every schema, and it has a level.
      exact fun _ _ place hs hr =>
        { next 0 hs hr with back := fun height => absurd height (height_refOrToJson place).not_ge }

theorem restores_readRefOr : Restores readRefOr? readRefOr? refOrToJson m := by
  intro n s place hs hr
  rw [refOrToJson_eq]
  have kept := restores_readLevels (s.height + 1) ((RefOr.toJson toJson place).source.height + 1) hs hr
  exact { kept with back := fun _ => kept.back (Nat.le_succ _) }

end Schema

end OpenApiClient
