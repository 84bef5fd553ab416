import OpenApiClient.Proofs.Client.Apis
import OpenApiClient.Proofs.Client.Responses
import OpenApiClient.Proofs.Index.Within
import OpenApiClient.Proofs.Naming.ClassName

/-!
The names of the classes of a client. All of them are words, and all can stand for classes but for those that are
named after an operation whose id, with what is appended to it, starts with a digit.
-/

namespace OpenApiClient

open Naming

namespace Schema

variable {s s' : Schema} {name name' : String} {rest : List String}

theorem Below.extends (h : s.Below name rest name' s') :
    ∃ suffix, name' = name ++ suffix ∧ ∀ c ∈ suffix.toList, isNameChar c := by
  have part (role : Role) (name : String) : ∃ suffix, role.nameIn name = name ++ suffix ∧
      ∀ c ∈ suffix.toList, isNameChar c := by
    cases role <;> exact ⟨_, rfl, fun _ => isNameChar_of_mem_joinCapitalized⟩
  induction h with
  | part hs => exact part _ _
  | @deeper name _ role _ _ _ _ _ _ ih =>
    obtain ⟨suffix, part_eq, chars⟩ := part role name
    obtain ⟨suffix', rfl, chars'⟩ := ih
    refine ⟨suffix ++ suffix', by rw [part_eq, String.append_assoc], ?_⟩
    simp only [String.toList_append, List.mem_append]
    exact fun c hc => hc.elim (chars c) (chars' c)
  | merged _ _ ih => exact ih

-- What is below a schema can stand for a class exactly if the schema can.
theorem Within.isClassName_iff {P : Prop} (h : s.Within name rest name' s')
    (hn : IsWord name ∧ (IsClassName name ↔ P)) : IsWord name' ∧ (IsClassName name' ↔ P) := by
  cases h with
  | self => exact hn
  | below h =>
    obtain ⟨suffix, rfl, chars⟩ := h.extends
    exact ⟨hn.1.append chars, (isClassName_append_iff hn.1 chars).trans hn.2⟩

end Schema

namespace Document

-- A class is for a response of an operation, or for a schema in what it sends or receives. It is named after the
-- operation, and then after `text`.
inductive NamedAfter (d : Document) : OperationSite → String → String → Prop
  | response {o status r} : o ∈ d.operations → (status, .inline r) ∈ o.operation.responses →
    NamedAfter d o status (responseName o.stem status)
  | body {o status r media s rest name s'} : o ∈ d.operations → (status, .inline r) ∈ o.operation.responses →
    jsonSchema? r.content = some (media, s) →
    s.Within (responseBodyName (responseName o.stem status)) rest name s' → NamedAfter d o status name
  | payload {o body media s rest name s'} : o ∈ d.operations →
    o.operation.requestBody = some (.inline body) → jsonSchema? body.content = some (media, s) →
    s.Within (requestBodyName o.stem) rest name s' → NamedAfter d o "" name
  | argument {o p q s rest name s'} : d.Effective o p → p.source = .inline q →
    q.schema = some (.inline s) → s.Within (parameterName o.stem p.localName) rest name s' →
    NamedAfter d o p.localName name

variable {d : Document} {responses : ResponseIndex} {root : Root} {o : OperationSite} {text name name' : String}
  {s s' : Schema} {rest : List String} {c : Client} {rootNamespace : String}

-- The names that are made from one of an operation, by what is appended to it.
theorem isClassName_of_stem (o : OperationSite) (text : String) {suffix : String} (hs : IsClassName suffix) :
    IsWord (o.stem ++ joinCapitalized text ++ suffix) ∧
      (IsClassName (o.stem ++ joinCapitalized text ++ suffix) ↔
        ∀ id ∈ o.operation.id?, digitFirst (id ++ text) = false) :=
  ⟨isWord_operationName hs.toIsWord, isClassName_operationName hs⟩

theorem isClassName_responseName (o : OperationSite) (status : String) :
    IsWord (responseName o.stem status) ∧ (IsClassName (responseName o.stem status) ↔
      ∀ id ∈ o.operation.id?, digitFirst (id ++ status) = false) :=
  isClassName_of_stem o status (by decide)

theorem isClassName_parameterName (o : OperationSite) (parameter : String) :
    IsWord (parameterName o.stem parameter) ∧ (IsClassName (parameterName o.stem parameter) ↔
      ∀ id ∈ o.operation.id?, digitFirst (id ++ parameter) = false) :=
  isClassName_of_stem o parameter (by decide)

theorem isClassName_requestBodyName (o : OperationSite) :
    IsWord (requestBodyName o.stem) ∧ (IsClassName (requestBodyName o.stem) ↔
      ∀ id ∈ o.operation.id?, digitFirst (id ++ "") = false) := by
  have name_eq : requestBodyName o.stem = o.stem ++ joinCapitalized "" ++ "RequestBody" := by
    rw [show joinCapitalized "" = "" by decide, String.append_empty]
    rfl
  exact name_eq ▸ isClassName_of_stem o "" (by decide)

theorem NamedAfter.isClassName_iff (h : d.NamedAfter o text name) :
    IsWord name ∧ (IsClassName name ↔ ∀ id ∈ o.operation.id?, digitFirst (id ++ text) = false) := by
  cases h with
  | response => exact isClassName_responseName o text
  | body _ _ _ within =>
    have ⟨word, class_iff⟩ := isClassName_responseName o text
    have chars := (by decide : IsWord "JsonSchema").chars
    exact within.isClassName_iff ⟨word.append chars, (isClassName_append_iff word chars).trans class_iff⟩
  | payload _ _ _ within => exact within.isClassName_iff (isClassName_requestBodyName o)
  | argument _ _ _ within => exact within.isClassName_iff (isClassName_parameterName o _)

theorem NamedAfter.mem (h : d.NamedAfter o text name) : o ∈ d.operations := by
  cases h with
  | response ho => exact ho
  | body ho => exact ho
  | payload ho => exact ho
  | argument hp => exact hp.1

-- A class is named after a component, or after an operation.
theorem HasResponse.named {place : ResponsePlace} {r : Response} (h : d.HasResponse place (.ok name) r) :
    IsClassName name ∨ ∃ o status, name = responseName o.stem status ∧ o ∈ d.operations ∧
      (status, .inline r) ∈ o.operation.responses := by
  generalize hc : Except.ok name = cls at h
  cases h with
  | component => exact .inl (isClassName_of_ofComponentKey hc.symm)
  | operation ho hr => exact .inr ⟨_, _, Except.ok.inj hc, ho, hr⟩

theorem Begins.named (h : d.Begins responses root name s) (hw : s.Within name rest name' s') :
    IsClassName name' ∨ ∃ o text, d.NamedAfter o text name' := by
  have component (hn : IsClassName name) : IsClassName name' :=
    (hw.isClassName_iff ⟨hn.toIsWord, .rfl⟩).2.mpr hn
  cases h with
  | schema _ key_name => exact .inl <| component <| isClassName_of_ofComponentKey key_name
  | response _ hr _ json =>
    rcases hr.named with hn | ⟨o, status, same, ho, hm⟩
    case inl => exact .inl <| component <| hn.append (IsWord.chars (by decide))
    case inr => exact .inr ⟨o, status, .body ho hm json (same ▸ hw)⟩
  | requestBody _ _ key_name =>
    exact .inl <| component <| (isClassName_of_ofComponentKey key_name).append (IsWord.chars (by decide))
  | parameter _ _ key_name =>
    exact .inl <| component <| (isClassName_of_ofComponentKey key_name).append (IsWord.chars (by decide))
  | payload ho hb json => exact .inr ⟨_, _, .payload ho hb json hw⟩
  | argument hp _ _ hq hs => exact .inr ⟨_, _, .argument hp hq hs hw⟩

theorem entity_named (hc : d.client rootNamespace = .ok c) {e : Entity} (he : e ∈ c.entities) :
    IsClassName e.name ∨ ∃ o text, d.NamedAfter o text e.name := by
  have ⟨n, builds⟩ := builds_of_client hc
  have ⟨_, hr, index⟩ := of_named builds.named
  obtain ⟨found, hf, made⟩ := mem_of_mapM builds.entities e he
  obtain ⟨p, hp, -, rfl⟩ := index.visit_of_entry found (List.mem_filter.mp hf).1
  have ⟨_, _, visits⟩ := visits_of_step hr hp
  obtain ⟨_, _, _, _, _, begins, within⟩ := visits.within
  exact (NamedDocument.describes_of_entity made).name ▸ begins.named within

theorem response_named (hc : d.client rootNamespace = .ok c) {r : ResponseClass} (hr : r ∈ c.responses) :
    IsClassName r.name ∨ ∃ o text, d.NamedAfter o text r.name := by
  have ⟨n, builds⟩ := builds_of_client hc
  obtain ⟨found, hf, made⟩ := mem_of_mapM builds.responses r hr
  obtain ⟨place, hp, -⟩ := hasResponse_of_index (of_named builds.named).2.1 found hf
  rw [NamedDocument.name_of_responseClass made]
  rcases hp.named with hn | ⟨o, status, same, ho, hm⟩
  case inl => exact .inl hn
  case inr => exact .inr ⟨o, status, same ▸ .response ho hm⟩

-- Each class has a word for a name, and it can stand for a class unless it is named after an operation whose id,
-- with what follows it in the name, has a digit before all letters.
theorem class_names (hc : d.client rootNamespace = .ok c) :
    (∀ api ∈ c.apis, IsClassName api.className) ∧
    ∀ name ∈ c.entities.map (·.name) ++ c.responses.map (·.name), IsWord name ∧
      (IsClassName name ↔ ∀ o text id, d.NamedAfter o text name → o.operation.id? = some id →
        digitFirst (id ++ text) = false) := by
  constructor
  · intro api ha
    rw [(apis_of hc).names api ha]
    exact isClassName_apiName _
  · intro name hn
    have named : IsClassName name ∨ ∃ o text, d.NamedAfter o text name := by
      rcases List.mem_append.mp hn with hn | hn
      · obtain ⟨e, he, rfl⟩ := List.mem_map.mp hn
        exact entity_named hc he
      · obtain ⟨r, hr, rfl⟩ := List.mem_map.mp hn
        exact response_named hc hr
    have exact_when (hn : IsClassName name) : ∀ o text id, d.NamedAfter o text name →
        o.operation.id? = some id → digitFirst (id ++ text) = false :=
      fun _ _ id h hid => h.isClassName_iff.2.mp hn id hid
    rcases named with hn | ⟨o, text, h⟩
    case inl => exact ⟨hn.toIsWord, fun _ => exact_when hn, fun _ => hn⟩
    case inr =>
      have ⟨word, class_iff⟩ := h.isClassName_iff
      exact ⟨word, exact_when, fun digits => class_iff.mpr fun id hid => digits o text id h hid⟩

theorem petStore_class_names : ∃ c, PetStore.document.client Client.defaultNamespace = .ok c ∧
    c.entities.map (·.name) =
      ["Pet", "PetTag", "ListPetsOrderParameter", "AddPetRequestBody", "AddPetRequestBodyNote"] ∧
    c.responses.map (·.name) = ["ListPets200Response"] ∧
    ∀ name ∈ c.entities.map (·.name) ++ c.responses.map (·.name), IsClassName name := by
  have names : (PetStore.document.client Client.defaultNamespace).toOption.map
      (fun c => (c.entities.map (·.name), c.responses.map (·.name))) =
        some (["Pet", "PetTag", "ListPetsOrderParameter", "AddPetRequestBody", "AddPetRequestBodyNote"],
          ["ListPets200Response"]) := by
    decide +kernel
  have ids : PetStore.document.operations.map (·.operation.id?) = [some "listPets", some "addPet"] := by
    decide +kernel
  have ⟨c, hc, names⟩ := exists_ok names
  have ⟨entities, responses⟩ := Prod.mk.inj names
  refine ⟨c, hc, entities, responses, fun name hn => ((class_names hc).2 name hn).2.mpr ?_⟩
  intro o text id named hid
  have id_mem := List.mem_map_of_mem (f := (·.operation.id?)) named.mem
  rw [ids, hid] at id_mem
  have : id = "listPets" ∨ id = "addPet" := by simpa using id_mem
  rcases this with rfl | rfl
  case inl => exact digitFirst_append ..
  case inr => exact digitFirst_append ..

end Document

namespace Digits

-- An operation, a component and a tag that are all called the same.
def document : Document where
  openapi := "3.1.0"
  info := { title := "T", version := "1" }
  paths := [("/a", { get := some {
    operationId := some "3d", tags := ["3d"], responses := [("200", .inline { description := "OK" })] } })]
  components := some { schemas := [("3d", .inline { typeKeyword := some (.single .object) })] }

end Digits

-- What is named after the component and after the tag is kept from starting with a digit.
theorem Document.not_class_names : ∃ c, Digits.document.client Client.defaultNamespace = .ok c ∧
    c.entities.map (·.name) = ["_3d"] ∧ c.apis.map (·.className) = ["_3dApi"] ∧
    c.responses.map (·.name) = ["3d200Response"] ∧ ¬ IsClassName "3d200Response" := by
  have names : (Digits.document.client Client.defaultNamespace).toOption.map
      (fun c => (c.entities.map (·.name), c.apis.map (·.className), c.responses.map (·.name))) =
        some (["_3d"], ["_3dApi"], ["3d200Response"]) := by
    decide +kernel
  have ⟨c, hc, names⟩ := exists_ok names
  have ⟨entities, names⟩ := Prod.mk.inj names
  have ⟨apis, responses⟩ := Prod.mk.inj names
  exact ⟨c, hc, entities, apis, responses, by decide⟩

end OpenApiClient
