import OpenApiClient.Proofs.Client.Places

/-!
The classes that the parts of a client mention: each of them is generated, as the kind of class that
the schema needs which the hint is for.
-/

namespace OpenApiClient

namespace NamedDocument

-- The hints of a place mention what schemas make there, through references too, and each of these
-- schemas has a class of its kind.
structure Covered (n : NamedDocument) (entities : List Entity) (name : String)
    (place : Option SchemaRef) (hints : Hints) : Prop where
  hints_eq : n.hintsAt .typed name place = .ok hints
  source {cls} : Hints.Mention hints cls →
    ∃ p ∈ place, ∃ source, Schema.Makes (n.document.Leads n.schemas) name p cls source
  entity {p cls source} : p ∈ place → Schema.Makes (n.document.Leads n.schemas) name p cls source →
    ∃ e ∈ entities, e.name = cls ∧ e.kind = source.kind

-- The parts of a client whose hints are covered, and where they are from.
def CoversEntity (n : NamedDocument) (entities : List Entity) (e : Entity) : Prop :=
  ∃ found ∈ n.schemas.classes, n.entity found = .ok e ∧
    (∀ p ∈ e.properties, ∃ merged,
      n.mergeProperties found.name found.schema {} SchemaPosition.maxDepth = .ok merged ∧
      ∃ entry ∈ merged.properties, n.property merged.required entry.1 entry.2 = .ok p ∧
        n.Covered entities (Naming.nested entry.2.parent entry.1) (some entry.2.schema) p.value.hints) ∧
    ∀ value ∈ e.additional, n.Covered entities (Naming.nested found.name "additionalProperty")
      found.schema.additionalSchema value.hints

def CoversResponse (n : NamedDocument) (entities : List Entity) (r : ResponseClass) : Prop :=
  ∀ body ∈ r.body, ∃ found ∈ n.responses.entries, n.responseClass found = .ok r ∧
    ∃ m, found.response.json? = some (body.contentType, m) ∧
      n.Covered entities (Naming.responseBodyName found.name) m.schema body.value.hints

def CoversPayload (n : NamedDocument) (entities : List Entity) (e : Endpoint) : Prop :=
  ∀ payload ∈ e.payload, ∃ o ∈ n.document.operations, n.endpoint o = .ok e ∧
    ∃ place body m name, o.operation.requestBody = some place ∧
      n.document.requestBodyOf place = .ok body ∧ body.json? = some (payload.contentType, m) ∧
      n.Covered entities name m.schema payload.hints

variable {n : NamedDocument} {found : NamedSchema} {e : Entity} {name : String}
  {place : Option SchemaRef}

-- What an entity says, by the schema that it was found for.
structure Describes (n : NamedDocument) (found : NamedSchema) (e : Entity) : Prop where
  name : e.name = found.name
  kind : e.kind = found.kind
  property {p} : p ∈ e.properties → ∃ merged,
    n.mergeProperties found.name found.schema {} SchemaPosition.maxDepth = .ok merged ∧
      ∃ entry ∈ merged.properties, n.property merged.required entry.1 entry.2 = .ok p
  additional {value} : value ∈ e.additional →
    n.additional found.name found.schema = .ok (some value)

theorem describes_of_entity (h : n.entity found = .ok e) : n.Describes found e := by
  unfold entity at h
  split at h
  case isTrue =>
    simp only [bind_eq_ok, pure_eq_ok] at h
    obtain ⟨merged, hm, properties, hp, additional, ha, rfl⟩ := h
    exact {
      name := rfl
      kind := rfl
      property := fun hmem => ⟨merged, hm, mem_of_mapM hp _ hmem⟩
      additional := fun hv => ha.trans (congrArg _ hv) }
  case isFalse =>
    cases h
    exact { name := rfl, kind := rfl, property := by simp, additional := by simp }

theorem of_valueAt {value : ValueType} (h : n.valueAt name place = .ok value) :
    n.hintsAt .typed name place = .ok value.hints ∧
      n.hintsAt .decoded name place = .ok value.decoded ∧
      value.factory = n.schemas.factory value.hints := by
  simp only [valueAt, bind_eq_ok, pure_eq_ok] at h
  obtain ⟨hints, hh, decoded, hd, rfl⟩ := h
  exact ⟨hh, hd, rfl⟩

theorem valueAt_of_property {required : List String} {key : String} {source : MergedProperty}
    {p : Property} (h : n.property required key source = .ok p) :
    n.valueAt (Naming.nested source.parent key) (some source.schema) = .ok p.value := by
  simp only [property, bind_eq_ok, pure_eq_ok] at h
  obtain ⟨value, hv, _, _, rfl⟩ := h
  exact hv

-- The values that are not named are those that the schema allows itself.
theorem valueAt_of_additional {s : Schema} {value : ValueType}
    (h : n.additional name s = .ok (some value)) :
    n.valueAt (Naming.nested name "additionalProperty") s.additionalSchema = .ok value := by
  unfold additional at h
  split at h
  case h_1 hs =>
    simp only [bind_eq_ok, pure_eq_ok, Option.some.injEq] at h
    obtain ⟨_, hv, rfl⟩ := h
    simpa [Schema.additionalSchema, hs] using hv
  case h_2 hs =>
    simp only [bind_eq_ok, pure_eq_ok, Option.some.injEq] at h
    obtain ⟨_, hv, rfl⟩ := h
    simpa [Schema.additionalSchema, hs] using hv
  all_goals cases h

theorem valueAt_of_responseClass {found : NamedResponse} {r : ResponseClass} {body : ResponseBody}
    (h : n.responseClass found = .ok r) (hb : body ∈ r.body) :
    ∃ m, found.response.json? = some (body.contentType, m) ∧
      n.valueAt (Naming.responseBodyName found.name) m.schema = .ok body.value := by
  unfold responseClass at h
  split at h
  case h_1 contentType m hj =>
    simp only [bind_eq_ok, pure_eq_ok, exists_eq_left'] at h
    obtain ⟨value, hv, rfl⟩ := h
    cases hb
    exact ⟨m, hj, hv⟩
  case h_2 =>
    cases h
    contradiction

-- What an endpoint takes and sends, by the operation.
structure Offers (n : NamedDocument) (o : OperationSite) (e : Endpoint) : Prop where
  arguments : ∃ parameters, n.document.operationParameters o = .ok parameters ∧
    parameters.mapM (n.argument o.stem) = .ok e.arguments
  payload {payload} : payload ∈ e.payload → ∃ place, o.operation.requestBody = some place ∧
    n.payload o place = .ok (some payload)

theorem offers_of_endpoint {o : OperationSite} {e : Endpoint} (h : n.endpoint o = .ok e) :
    n.Offers o e := by
  simp only [endpoint, bind_eq_ok, resolved_eq_ok] at h
  obtain ⟨parameters, hp, arguments, ha, h⟩ := h
  split at h
  case h_1 place hb =>
    simp only [bind_eq_ok, pure_eq_ok] at h
    obtain ⟨_, hpayload, _, _, rfl⟩ := h
    exact { arguments := ⟨parameters, hp, ha⟩, payload := fun hm => ⟨place, hb, hm ▸ hpayload⟩ }
  case h_2 =>
    simp only [bind_eq_ok, pure_eq_ok, exists_eq_left'] at h
    obtain ⟨_, _, rfl⟩ := h
    exact { arguments := ⟨parameters, hp, ha⟩, payload := by simp }

theorem hintsAt_of_payload {o : OperationSite} {place : RefOr RequestBody} {payload : Payload}
    (h : n.payload o place = .ok (some payload)) : ∃ position body m name,
      n.standsAt .requestBody (o.pointer ++ "/requestBody") place = .ok position ∧
      n.document.requestBodyOf place = .ok body ∧ body.json? = some (payload.contentType, m) ∧
      n.payloadName o.stem position payload.contentType = .ok name ∧
      n.hintsAt .typed name m.schema = .ok payload.hints := by
  simp only [NamedDocument.payload, bind_eq_ok, resolved_eq_ok] at h
  obtain ⟨position, hp, body, hb, h⟩ := h
  split at h
  case h_1 => cases h
  case h_2 contentType m hj =>
    simp only [bind_eq_ok, pure_eq_ok, Option.some.injEq] at h
    obtain ⟨name, hn, hints, hh, rfl⟩ := h
    exact ⟨position, body, m, name, hp, hb, hj, hn, hh⟩

end NamedDocument

namespace Document

open NamedDocument

variable {d : Document} {n : NamedDocument} {entities : List Entity} {name cls : String}
  {place : Option SchemaRef} {hints : Hints}

-- The index has a class for what was visited and needs one.
theorem found_of_named {s : Schema} (hd : d.Distinct) (h : d.named = .ok n)
    (hs : d.Named n.responses cls s) (hk : s.kind.hasClass) : ∃ found ∈ n.schemas.classes,
      n.schemas.get? cls = some found ∧ found.name = cls ∧ found.schema.same s ∧
      found.kind = s.kind := by
  obtain ⟨_, hv⟩ := hs
  obtain ⟨_, hv⟩ := hv.step (of_named h).2.1
  have primitive : s.kind ≠ .primitive := by
    intro hp
    simp [hp, SchemaKind.hasClass, SchemaKind.isEnum] at hk
  obtain ⟨found, hf, same, kind⟩ := entry_of_visit hd h hv primitive
  obtain ⟨mem, found_name⟩ := SchemaIndex.of_get?_eq_some hf
  exact ⟨found, List.mem_filter.mpr ⟨mem, kind ▸ hk⟩, hf, found_name, same, kind⟩

theorem entity_of_named {s : Schema} (hd : d.Distinct) (h : d.named = .ok n)
    (he : n.entities = .ok entities) (hs : d.Named n.responses cls s) (hk : s.kind.hasClass) :
    ∃ e ∈ entities, e.name = cls ∧ e.kind = s.kind := by
  obtain ⟨found, mem, _, found_name, _, kind⟩ := found_of_named hd h hs hk
  obtain ⟨e, hm, hfound⟩ := mem_mapM he found mem
  have describes := describes_of_entity hfound
  exact ⟨e, hm, describes.name.trans found_name, describes.kind.trans kind⟩

theorem covered_of_known (hd : d.Distinct) (h : d.named = .ok n) (he : n.entities = .ok entities)
    (hk : n.Known name place) (hh : n.hintsAt .typed name place = .ok hints) :
    n.Covered entities name place hints := by
  obtain rfl := (of_named h).1
  refine ⟨hh, makes_of_hintsAt hh, fun {p cls source} hp hm => ?_⟩
  exact entity_of_named hd h he (named_of_makes hd h hm fun s hs => hk s (hs ▸ hp)) hm.hasClass

-- An entity is about a schema that was visited under its name.
theorem named_of_found {found : NamedSchema} (h : d.named = .ok n) (hf : found ∈ n.schemas.entries) :
    d.Named n.responses found.name found.schema := by
  have ⟨_, hr, index⟩ := of_named h
  have ⟨_, hp, _, hf⟩ := index.visit_of_entry found hf
  have ⟨way, _, hv⟩ := visits_of_step hr hp
  exact hf ▸ ⟨way, hv⟩

theorem coversEntity (hd : d.Distinct) (h : d.named = .ok n) (he : n.entities = .ok entities) :
    ∀ e ∈ entities, n.CoversEntity entities e := by
  intro e hm
  have document := (of_named h).1
  have ⟨found, hf, hfound⟩ := mem_of_mapM he e hm
  have named := named_of_found h (List.mem_filter.mp hf).1
  have describes := describes_of_entity hfound
  refine ⟨found, hf, hfound, fun p hp => ?_, fun value hv => ?_⟩
  · have ⟨merged, hmerged, entry, hentry, hp⟩ := describes.property hp
    have known := knownProperties_of_mergeProperties hd h knownProperties_nil
      (document ▸ named) .self hmerged
    have covered := covered_of_known hd h he (known entry hentry) (of_valueAt (valueAt_of_property hp)).1
    exact ⟨merged, hmerged, entry, hentry, hp, covered⟩
  · have known := known_additional named document
    have value := valueAt_of_additional (describes.additional hv)
    exact covered_of_known hd h he known (of_valueAt value).1

theorem coversResponse {responses : List ResponseClass} (hd : d.Distinct) (h : d.named = .ok n)
    (he : n.entities = .ok entities) (hr : n.responseClasses = .ok responses) :
    ∀ r ∈ responses, n.CoversResponse entities r := by
  intro r hm body hb
  have ⟨found, hf, hfound⟩ := mem_of_mapM hr r hm
  have ⟨m, hj, value⟩ := valueAt_of_responseClass hfound hb
  have covered := covered_of_known hd h he (known_response h hf hj) (of_valueAt value).1
  exact ⟨found, hf, hfound, m, hj, covered⟩

theorem coversPayload {endpoints : List Endpoint} (hd : d.Distinct) (h : d.named = .ok n)
    (he : n.entities = .ok entities) (hs : n.endpoints = .ok endpoints) :
    ∀ e ∈ endpoints, n.CoversPayload entities e := by
  intro e hm payload hp
  obtain rfl := (of_named h).1
  have ⟨o, ho, hendpoint⟩ := mem_of_mapM hs e hm
  have ⟨place, hplace, hpayload⟩ := (offers_of_endpoint hendpoint).payload hp
  obtain ⟨_, body, m, name, hposition, hb, hj, hn, hh⟩ := hintsAt_of_payload hpayload
  obtain ⟨way, rfl, hw⟩ := walk_of_requestBody hd ho hplace hposition hb
  have covered := covered_of_known hd h he (known_payload hd h hw hj hn) hh
  exact ⟨o, ho, hendpoint, place, body, m, name, hplace, hb, hj, covered⟩

-- No class is missing among those that properties, responses and payloads mention, and none is of
-- another kind than the schema that it is mentioned for.
theorem classes_covered {rootNamespace : String} {c : Client} (hd : d.Distinct)
    (hc : d.client rootNamespace = .ok c) : ∃ n, d.named = .ok n ∧
      (c.entities.map (·.name)).Nodup ∧
      (∀ e ∈ c.entities, n.CoversEntity c.entities e) ∧
      (∀ r ∈ c.responses, n.CoversResponse c.entities r) ∧
      ∀ e ∈ c.endpoints, n.CoversPayload c.entities e := by
  simp only [client, bind_eq_ok, pure_eq_ok] at hc
  obtain ⟨n, h, entities, he, responses, hr, endpoints, hs, _, _, rfl⟩ := hc
  have names : entities.map (·.name) = n.schemas.classes.map (·.name) :=
    map_of_mapM (fun h => (describes_of_entity h).name) he
  have distinct : (entities.map (·.name)).Nodup :=
    names ▸ (of_named h).2.2.names.sublist (List.filter_sublist.map _)
  exact ⟨n, h, distinct, coversEntity hd h he, coversResponse hd h he hr, coversPayload hd h he hs⟩

theorem petStore_classes : ∃ n c, PetStore.document.named = .ok n ∧
    PetStore.document.client Client.defaultNamespace = .ok c ∧
    c.endpoints.map (·.payload.map (·.hints)) = [none, some [.model "AddPetRequestBody"]] ∧
    (∀ e ∈ c.entities, n.CoversEntity c.entities e) ∧
    (∀ r ∈ c.responses, n.CoversResponse c.entities r) ∧
    ∀ e ∈ c.endpoints, n.CoversPayload c.entities e := by
  have payloads : (PetStore.document.client Client.defaultNamespace).toOption.map
      (·.endpoints.map (·.payload.map (·.hints))) = some [none, some [.model "AddPetRequestBody"]] := by
    decide +kernel
  have ⟨c, hc, payloads⟩ := exists_ok payloads
  have ⟨n, hn, _, covers⟩ := classes_covered PetStore.distinct hc
  exact ⟨n, c, hn, hc, payloads, covers⟩

end Document

end OpenApiClient
