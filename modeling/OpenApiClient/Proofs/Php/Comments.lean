import OpenApiClient.Proofs.Client.Mentioned
import OpenApiClient.Proofs.Php.FileComments
import OpenApiClient.Proofs.Php.Methods

/-!
The docblocks of a client. They end where they are meant to, whatever the document says, but for what is written into
them as it is: the tag of a class that is not described, the content type of a body, and the namespace.
-/

namespace OpenApiClient

open Naming Php

namespace NamedDocument

variable {n : NamedDocument} {found : NamedSchema} {e : Entity}

theorem properties_of_entity (h : n.entity found = .ok e) : ∀ p ∈ e.properties, IsWord p.name.camel := by
  intro p hp
  have ⟨_, _, entry, _, made⟩ := (describes_of_entity h).property hp
  simp only [property, bind_eq_ok, resolved_eq_ok, pure_eq_ok] at made
  obtain ⟨_, _, _, _, rfl⟩ := made
  exact WireName.isWord_camel _

-- Only objects have properties.
theorem object_of_entity (h : n.entity found = .ok e) (hk : e.kind ≠ .object) :
    e.properties = [] ∧ e.additional = none := by
  have kind := (describes_of_entity h).kind
  unfold entity at h
  rw [if_neg (kind ▸ hk)] at h
  cases h
  exact ⟨rfl, rfl⟩

end NamedDocument

-- What is known of all values that a client makes.
theorem Client.forall_reads {c : Client} {P : ValueType → Prop} : (∀ v, c.Reads v → P v) ↔
    (∀ e ∈ c.entities, (∀ p ∈ e.properties, P p.value) ∧ ∀ v ∈ e.additional, P v) ∧
      ∀ r ∈ c.responses, ∀ b ∈ r.body, P b.value := by
  constructor
  · exact fun h => ⟨fun e he => ⟨fun p hp => h _ (.property he hp), fun v hv => h v (.additional he hv)⟩,
      fun r hr b hb => h _ (.body hr hb)⟩
  · rintro ⟨entities, responses⟩ _ (⟨he, hp⟩ | ⟨he, hv⟩ | ⟨hr, hb⟩)
    case property => exact (entities _ he).1 _ hp
    case additional => exact (entities _ he).2 _ hv
    case body => exact responses _ hr _ hb

namespace Php

variable {root : String}

theorem sealed_entityFile_iff {e : Entity} (named : ∀ p ∈ e.properties, IsWord p.name.camel)
    (object : e.kind ≠ .object → e.properties = [] ∧ e.additional = none) :
    (∀ f ∈ entityFile? root e, ∀ block ∈ docblocks f.lines, Sealed block) ↔
      (∀ p ∈ e.properties, Inert (describedType root p.value.hints)) ∧
        ∀ v ∈ e.additional, Inert (describedType root v.hints) := by
  unfold entityFile?
  split
  case isTrue => simpa using sealed_modelFile_iff named
  case isFalse hk =>
    have enum : ∀ f ∈ enumFile? root e, ∀ block ∈ docblocks f.lines, Sealed block := by
      unfold enumFile?
      split
      case h_1 => simpa using sealed_backedEnumFile root e "string"
      case h_2 => simpa using sealed_backedEnumFile root e "int"
      case h_3 => simpa using sealed_instancesFile root e
      all_goals exact nofun
    obtain ⟨properties, additional⟩ := object hk
    exact iff_of_true enum (by simp [properties, additional])

theorem classFiles_eq {c : Client} (in_range : ∀ api ∈ c.apis, ∀ i ∈ api.operations, i < c.endpoints.length) :
    classFiles c = .ok (c.entities.filterMap (entityFile? c.rootNamespace) ++
      c.responses.map (responseFile c.rootNamespace) ++
      c.apis.map (fun api => apiFile c.rootNamespace api (api.operations.filterMap (c.endpoints[·]?))) ++
      [configurationFile c.rootNamespace c, abstractApiFile c.rootNamespace, apiExceptionFile c.rootNamespace]) := by
  have apis : c.apis.mapM (tagFile c) =
      .ok (c.apis.map fun api => apiFile c.rootNamespace api (api.operations.filterMap (c.endpoints[·]?))) := by
    refine mapM_eq_ok_map fun api ha => ?_
    rw [tagFile, apiEndpoints_eq_ok (in_range api ha)]
  rw [classFiles, apis]
  rfl

-- Whether the docblocks of a client are sealed depends on the types of values, and on two more kinds of text.
theorem sealed_classFiles_iff {c : Client} (in_range : ∀ api ∈ c.apis, ∀ i ∈ api.operations, i < c.endpoints.length)
    (properties : ∀ e ∈ c.entities, ∀ p ∈ e.properties, IsWord p.name.camel)
    (objects : ∀ e ∈ c.entities, e.kind ≠ .object → e.properties = [] ∧ e.additional = none)
    (responses : ∀ r ∈ c.responses, IsWord r.name) : ∃ files, classFiles c = .ok files ∧
      ((∀ f ∈ files, ∀ block ∈ docblocks f.lines, Sealed block) ↔
        (∀ v, c.Reads v → Inert (describedType c.rootNamespace v.hints)) ∧
        (∀ r ∈ c.responses, ∀ b ∈ r.body, Inert b.contentType) ∧
        ∀ api ∈ c.apis, nonempty api.description = none → Inert api.tag.written) := by
  refine ⟨_, classFiles_eq in_range, ?_⟩
  have entity_files : (∀ f ∈ c.entities.filterMap (entityFile? c.rootNamespace), ∀ block ∈ docblocks f.lines,
      Sealed block) ↔ ∀ e ∈ c.entities, (∀ p ∈ e.properties, Inert (describedType c.rootNamespace p.value.hints)) ∧
        ∀ v ∈ e.additional, Inert (describedType c.rootNamespace v.hints) := by
    rw [List.forall_mem_filterMap]
    exact forall₂_congr fun e he => sealed_entityFile_iff (properties e he) (objects e he)
  have response_files : (∀ f ∈ c.responses.map (responseFile c.rootNamespace), ∀ block ∈ docblocks f.lines,
      Sealed block) ↔ ∀ r ∈ c.responses, (∀ b ∈ r.body, Inert b.contentType) ∧
        ∀ b ∈ r.body, Inert (describedType c.rootNamespace b.value.hints) := by
    rw [List.forall_mem_map]
    exact forall₂_congr fun r hr => sealed_responseFile_iff (responses r hr)
  have api_files : (∀ f ∈ c.apis.map (fun api => apiFile c.rootNamespace api
      (api.operations.filterMap (c.endpoints[·]?))), ∀ block ∈ docblocks f.lines, Sealed block) ↔
        ∀ api ∈ c.apis, nonempty api.description = none → Inert api.tag.written := by
    rw [List.forall_mem_map]
    exact forall₂_congr fun api _ => sealed_apiFile_iff ..
  have fixed : ∀ f ∈ [configurationFile c.rootNamespace c, abstractApiFile c.rootNamespace,
      apiExceptionFile c.rootNamespace], ∀ block ∈ docblocks f.lines, Sealed block := by
    simp only [List.forall_mem_cons]
    exact ⟨sealed_configurationFile _ c, sealed_abstractApiFile _, sealed_apiExceptionFile _, nofun⟩
  rw [List.forall_mem_append, List.forall_mem_append, List.forall_mem_append, entity_files, response_files, api_files,
    and_iff_left fixed, Client.forall_reads]
  simp only [forall_and]
  tauto

end Php

namespace Document

open NamedDocument

variable {d : Document} {c : Client} {rootNamespace : String}

theorem rootNamespace_of (hc : d.client rootNamespace = .ok c) : c.rootNamespace = rootNamespace := by
  simp only [client, bind_eq_ok, pure_eq_ok] at hc
  obtain ⟨_, _, _, _, _, _, _, _, _, _, rfl⟩ := hc
  rfl

theorem sealed_files_iff (hc : d.client rootNamespace = .ok c) : ∃ files, classFiles c = .ok files ∧
    ((∀ f ∈ files, ∀ block ∈ docblocks f.lines, Sealed block) ↔
      (∀ v, c.Reads v → Inert (describedType rootNamespace v.hints)) ∧
      (∀ r ∈ c.responses, ∀ b ∈ r.body, Inert b.contentType) ∧
      ∀ api ∈ c.apis, nonempty api.description = none → Inert api.tag.written) := by
  have ⟨n, builds⟩ := builds_of_client hc
  have made : ∀ e ∈ c.entities, ∃ found, n.entity found = .ok e := fun e he =>
    have ⟨found, _, made⟩ := mem_of_mapM builds.entities e he
    ⟨found, made⟩
  obtain rfl := rootNamespace_of hc
  refine sealed_classFiles_iff (fun api => in_range_of_api hc) (fun e he => ?_) (fun e he => ?_)
    fun r hr => isWord_of_named (response_named hc hr)
  · have ⟨_, made⟩ := made e he
    exact properties_of_entity made
  · have ⟨_, made⟩ := made e he
    exact object_of_entity made

-- Every docblock of a client ends where it is meant to, exactly if what is not made safe is safe already: the tags of
-- classes without a description, the content types of bodies, and the namespace where a type has a class in it.
theorem docblocks_sealed_iff (hd : d.Distinct) (hc : d.client rootNamespace = .ok c) :
    ∃ files, classFiles c = .ok files ∧
      ((∀ f ∈ files, ∀ block ∈ docblocks f.lines, Sealed block) ↔
        (∀ api ∈ c.apis, nonempty api.description = none → Inert api.tag.written) ∧
        (∀ r ∈ c.responses, ∀ b ∈ r.body, Inert b.contentType) ∧
        ((∃ v cls, c.Reads v ∧ Hints.Write v.hints cls) → Inert (trimNamespace rootNamespace))) := by
  have types : (∀ v, c.Reads v → Inert (describedType rootNamespace v.hints)) ↔
      ((∃ v cls, c.Reads v ∧ Hints.Write v.hints cls) → Inert (trimNamespace rootNamespace)) := by
    constructor
    · rintro inert ⟨v, cls, hv, writes⟩
      exact (inert_describedType_iff (isWord_of_reads hd hc hv)).mp (inert v hv) ⟨cls, writes⟩
    · intro root_inert v hv
      refine (inert_describedType_iff (isWord_of_reads hd hc hv)).mpr ?_
      exact fun ⟨cls, writes⟩ => root_inert ⟨v, cls, hv, writes⟩
  obtain ⟨files, hf, sealed_iff⟩ := sealed_files_iff hc
  refine ⟨files, hf, sealed_iff.trans ?_⟩
  rw [types]
  tauto

end Document

namespace Notes

-- Notes for an operation of one tag. All descriptions have the end of a comment in them, as has the path.
def document (tag contentType : String) : Document where
  openapi := "3.1.0"
  info := { title := "*/", version := "1" }
  paths := [("/*/", { get := some { tags := [tag], description := some "**//", responses := [("200", .inline {
    description := "* */\n/"
    content := [(contentType, { schema := some (.ref "#/components/schemas/Note") })] })] } })]
  components := some { schemas := [("Note", .inline { description := some "*/", properties := [
    ("text", .inline { description := some "*/", typeKeyword := some (.single .string) })] })] }

theorem distinct (tag contentType : String) : (document tag contentType).Distinct := by
  simp [Document.distinct_iff, Components.distinct_iff, PathItem.distinct_iff, Operation.distinct_iff,
    Response.distinct_iff, MediaType.distinct_iff, Schema.distinct_iff, document, Entries.keys, Entries.Distinct,
    PathItem.operations, PathItem.operation, HttpMethod.all]

-- What is not made safe.
def texts (c : Client) : List (Option String × String) × List (Option String) :=
  (c.apis.map fun api => (api.description, api.tag.written), c.responses.map (·.body.map (·.contentType)))

theorem exists_of_texts {c : Client} {tag contentType : String}
    (h : texts c = ([(none, tag)], [some contentType])) : ∃ api r b, c.apis = [api] ∧ api.description = none ∧
      api.tag.written = tag ∧ c.responses = [r] ∧ r.body = some b ∧ b.contentType = contentType := by
  obtain ⟨tags, types⟩ := Prod.mk.inj h
  obtain ⟨api, apis, tags⟩ := List.map_eq_singleton_iff.mp tags
  obtain ⟨description, written⟩ := Prod.mk.inj tags
  obtain ⟨r, responses, types⟩ := List.map_eq_singleton_iff.mp types
  obtain ⟨b, body, type⟩ := Option.map_eq_some_iff.mp types
  exact ⟨api, r, b, apis, description, written, responses, body, type⟩

end Notes

namespace Document

theorem notes_docblocks_sealed : ∃ c files,
    (Notes.document "notes" "application/json").client Client.defaultNamespace = .ok c ∧
    Notes.texts c = ([(none, "notes")], [some "application/json"]) ∧ classFiles c = .ok files ∧
    ∀ f ∈ files, ∀ block ∈ docblocks f.lines, Sealed block := by
  have texts : ((Notes.document "notes" "application/json").client Client.defaultNamespace).toOption.map Notes.texts =
      some ([(none, "notes")], [some "application/json"]) := by decide +kernel
  obtain ⟨c, hc, texts⟩ := exists_ok texts
  obtain ⟨api, r, b, apis, _, tag, responses, body, type⟩ := Notes.exists_of_texts texts
  obtain ⟨files, hf, sealed_iff⟩ := docblocks_sealed_iff (Notes.distinct ..) hc
  have tag_inert : Inert "notes" := .literal rfl
  have type_inert : Inert "application/json" := .literal rfl
  have root_inert : Inert (trimNamespace Client.defaultNamespace) := by decide +kernel
  refine ⟨c, files, hc, texts, hf, sealed_iff.mpr ⟨?_, ?_, fun _ => root_inert⟩⟩
  · simpa [apis, tag] using fun _ => tag_inert
  · simpa [responses, body, type] using type_inert

-- A tag and a content type that end the comments that they are in.
theorem not_docblocks_sealed : ∃ c files,
    (Notes.document "a */ b" "application/json; */").client Client.defaultNamespace = .ok c ∧
    Notes.texts c = ([(none, "a */ b")], [some "application/json; */"]) ∧ classFiles c = .ok files ∧
    (∃ f ∈ files, f.sub = some "Api" ∧ ∃ block ∈ docblocks f.lines, ¬ Sealed block) ∧
    ∃ f ∈ files, f.sub = some "Response" ∧ ∃ block ∈ docblocks f.lines, ¬ Sealed block := by
  have texts : ((Notes.document "a */ b" "application/json; */").client Client.defaultNamespace).toOption.map
      Notes.texts = some ([(none, "a */ b")], [some "application/json; */"]) := by decide +kernel
  obtain ⟨c, hc, texts⟩ := exists_ok texts
  obtain ⟨api, r, b, apis, description, tag, responses, body, type⟩ := Notes.exists_of_texts texts
  have tag_closes : ¬ Inert "a */ b" := by decide
  have type_closes : ¬ Inert "application/json; */" := by decide
  have api_mem : api ∈ c.apis := by simp [apis]
  have response_mem : r ∈ c.responses := by simp [responses]
  have in_range : ∀ api ∈ c.apis, ∀ i ∈ api.operations, i < c.endpoints.length := fun _ => in_range_of_api hc
  refine ⟨c, _, hc, texts, classFiles_eq in_range, ?tag, ?type⟩
  case tag =>
    refine ⟨_, List.mem_append_left _ (List.mem_append_right _ (List.mem_map_of_mem api_mem)), rfl, ?_⟩
    by_contra! sealed
    exact tag_closes (tag ▸ (sealed_apiFile_iff ..).mp sealed (by rw [description]; rfl))
  case type =>
    refine ⟨_, List.mem_append_left _ (List.mem_append_left _ (List.mem_append_right _ (List.mem_map_of_mem
      response_mem))), rfl, ?_⟩
    by_contra! sealed
    have word := isWord_of_named (response_named hc response_mem)
    exact type_closes (type ▸ ((sealed_responseFile_iff word).mp sealed).1 b body)

end Document

end OpenApiClient
