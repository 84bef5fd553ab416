import OpenApiClient.Proofs.Client.Decoded

/-!
The classes for tags. They hold every operation under each of its tags and nothing else, by its position among
all operations, and they come in the order of the tags.
-/

namespace OpenApiClient

theorem idxOf_lt_of_filter {α : Type} [DecidableEq α] {p : α → Bool} {a b : α} {xs : List α}
    (ha : p a) (hb : p b) (h : (xs.filter p).idxOf a < (xs.filter p).idxOf b) : xs.idxOf a < xs.idxOf b := by
  induction xs with
  | nil => contradiction
  | cons x xs ih =>
    rw [List.filter_cons] at h
    grind

-- Dropping repetitions keeps the order of first occurrences.
theorem eraseDups_pairwise {α : Type} [DecidableEq α] :
    (xs : List α) → xs.eraseDups.Pairwise fun a b => xs.idxOf a < xs.idxOf b
  | [] => .nil
  | x :: xs => by
    have others {a : α} (h : a ∈ (xs.filter fun y => !y == x).eraseDups) : a ≠ x := by
      simpa using (List.mem_filter.mp (List.mem_eraseDups.mp h)).2
    rw [List.eraseDups_cons]
    refine .cons (fun a ha => ?_) <| (eraseDups_pairwise (xs.filter fun y => !y == x)).imp_of_mem ?_
    · have := others ha
      grind
    · intro a b ha hb h
      have := idxOf_lt_of_filter (by simpa using others ha) (by simpa using others hb) h
      grind
termination_by xs => xs.length
decreasing_by
  have := List.length_filter_le (fun y => !y == x) xs
  simp only [List.length_cons]
  omega

namespace Document

variable {d : Document} {tag : String} {i : Nat}

-- The tags of the operations, in the order in which operations mention them.
def mentionedTags (d : Document) : List String :=
  d.operations.flatMap (·.operation.tags)

-- One tag comes before another: as they are declared, and otherwise as operations mention them first.
inductive TagBefore (d : Document) : String → String → Prop
  | declared {s t} : s ∈ d.tags.map (·.name) → t ∈ d.tags.map (·.name) →
    (d.tags.map (·.name)).idxOf s < (d.tags.map (·.name)).idxOf t → TagBefore d s t
  | undeclared {s t} : s ∈ d.tags.map (·.name) → t ∉ d.tags.map (·.name) → TagBefore d s t
  | mentioned {s t} : s ∉ d.tags.map (·.name) → t ∉ d.tags.map (·.name) →
    d.mentionedTags.idxOf s < d.mentionedTags.idxOf t → TagBefore d s t

theorem tagNames_pairwise (d : Document) : d.tagNames.Pairwise d.TagBefore := by
  refine (eraseDups_pairwise _).imp fun {s t} h => ?_
  rw [List.idxOf_append, List.idxOf_append] at h
  by_cases hs : s ∈ d.tags.map (·.name) <;> by_cases ht : t ∈ d.tags.map (·.name)
  · exact .declared hs ht (by simpa [hs, ht] using h)
  · exact .undeclared hs ht
  · have := List.idxOf_lt_length_of_mem ht
    simp only [hs, ht, if_true, if_false] at h
    omega
  · exact .mentioned hs ht (by simpa [hs, ht, mentionedTags] using h)

theorem mem_operationsTagged :
    i ∈ d.operationsTagged tag ↔ ∃ o, d.operations[i]? = some o ∧ tag ∈ o.operation.tags := by
  simp [operationsTagged, List.mk_mem_zipIdx_iff_getElem?]

theorem operationsTagged_increasing (d : Document) (tag : String) :
    (d.operationsTagged tag).Pairwise (· < ·) := by
  have positions : (d.operations.zipIdx.map (·.2)).Pairwise (· < ·) := by
    rw [List.zipIdx_map_snd]
    exact List.pairwise_lt_range'
  exact positions.sublist (List.filter_sublist.map _)

theorem mem_operationsByTag {operations : List Nat} : (tag, operations) ∈ d.operationsByTag ↔
    tag ∈ d.tagNames ∧ operations = d.operationsTagged tag := by
  simp only [operationsByTag, List.mem_map, Prod.mk.injEq]
  constructor
  · rintro ⟨_, ht, rfl, rfl⟩
    exact ⟨ht, rfl⟩
  · rintro ⟨ht, rfl⟩
    exact ⟨tag, ht, rfl, rfl⟩

-- A tag that an operation carries is among all tags.
theorem mem_tagNames (hi : i ∈ d.operationsTagged tag) : tag ∈ d.tagNames := by
  have ⟨o, ho, carries⟩ := mem_operationsTagged.mp hi
  have mentioned : tag ∈ d.mentionedTags :=
    List.mem_flatMap.mpr ⟨o, List.mem_of_getElem? ho, carries⟩
  exact List.mem_eraseDups.mpr <| List.mem_append_right _ mentioned

end Document

namespace Api

variable {d : Document} {endpoints : List Endpoint} {apis apis' : List Api} {tag : String}
  {operations : List Nat} {past : List (String × List Nat)}

-- All that adding the class of a tag can do.
inductive Adds (apis : List Api) (tag : String) (operations : List Nat) : List Api → Prop
  | skip : tag = "" ∨ operations = [] → Adds apis tag operations apis
  | new {api : Api} : tag ≠ "" → operations ≠ [] → api.tag.written = tag → api.operations = operations →
    api.className = Naming.apiName tag → (∀ other ∈ apis, other.className ≠ api.className) →
    Adds apis tag operations (apis ++ [api])

theorem adds (h : Api.add d endpoints apis tag operations = .ok apis') :
    Adds apis tag operations apis' := by
  unfold add at h
  split at h
  case isTrue hs =>
    cases h
    exact .skip hs
  case isFalse hs =>
    have ⟨named, used⟩ := not_or.mp hs
    generalize className_eq : Naming.apiName tag = className at h
    dsimp only at h
    split at h
    case h_1 => exact absurd h throw_ne_ok
    case h_2 hf =>
      simp only [bind_eq_ok, pure_eq_ok] at h
      obtain ⟨_, _, rfl⟩ := h
      exact .new named used rfl rfl className_eq.symm (by simpa using hf)

-- There is a class for each tag so far that is not empty and has operations.
structure Of (past : List (String × List Nat)) (apis : List Api) : Prop where
  groups : apis.map (fun api => (api.tag.written, api.operations)) =
    past.filter fun (tag, operations) => tag ≠ "" ∧ operations ≠ []
  names : ∀ api ∈ apis, api.className = Naming.apiName api.tag.written
  classes : (apis.map (·.className)).Nodup

theorem Of.nil : Of [] [] where
  groups := rfl
  names := nofun
  classes := List.nodup_nil

theorem Of.add (h : Of past apis) (ha : Api.add d endpoints apis tag operations = .ok apis') :
    Of (past ++ [(tag, operations)]) apis' := by
  cases adds ha with
  | skip hs =>
    refine ⟨?_, h.names, h.classes⟩
    have : ¬ (tag ≠ "" ∧ operations ≠ []) := by tauto
    simp [h.groups, this]
  | new named used tag_eq operations_eq name_eq fresh =>
    refine ⟨?_, ?_, ?_⟩
    · simp [h.groups, named, used, tag_eq, operations_eq]
    · simpa [or_imp, forall_and, tag_eq, name_eq] using h.names
    · simp only [List.map_append, List.nodup_append, h.classes]
      simpa using fresh

theorem Of.mem_iff (h : Of past apis) :
    (∃ api ∈ apis, api.tag.written = tag ∧ api.operations = operations) ↔
      (tag, operations) ∈ past ∧ tag ≠ "" ∧ operations ≠ [] := by
  simpa using iff_of_eq <| congrArg ((tag, operations) ∈ ·) h.groups

end Api

-- The classes of a client group its operations by their tags.
structure Client.Groups (c : Client) (d : Document) : Prop where
  -- An operation has the same position in the document and in the client.
  endpoints : List.Forall₂ (fun o e => e.path = o.path ∧ e.method = o.method ∧ e.tags = o.operation.tags)
    d.operations c.endpoints
  positions : c.endpoints.map (fun e => (e.path, e.method)) = d.paths.flatMap fun (path, item) =>
    (HttpMethod.all.filter fun method => (item.operation method).isSome).map (path, ·)
  holds {tag : String} {i : Nat} : (∃ api ∈ c.apis, api.tag.written = tag ∧ i ∈ api.operations) ↔
    tag ≠ "" ∧ ∃ o, d.operations[i]? = some o ∧ tag ∈ o.operation.tags
  increasing : ∀ api ∈ c.apis, api.operations.Pairwise (· < ·)
  in_range : ∀ api ∈ c.apis, ∀ i ∈ api.operations, i < c.endpoints.length
  used : ∀ api ∈ c.apis, api.operations ≠ []
  order : (c.apis.map (·.tag.written)).Pairwise d.TagBefore
  classes : (c.apis.map (·.className)).Nodup

namespace Document

variable {d : Document} {c : Client} {rootNamespace : String}

theorem apis_of (hc : d.client rootNamespace = .ok c) : Api.Of d.operationsByTag c.apis := by
  simp only [client, bind_eq_ok, pure_eq_ok] at hc
  obtain ⟨_, _, _, _, _, _, endpoints, _, apis, ha, rfl⟩ := hc
  exact foldlM_induction (P := Api.Of) .nil .add (named_eq_ok.mp ha)

theorem of_endpoint {n : NamedDocument} {o : OperationSite} {e : Endpoint} (h : n.endpoint o = .ok e) :
    e.path = o.path ∧ e.method = o.method ∧ e.tags = o.operation.tags := by
  simp only [NamedDocument.endpoint, bind_eq_ok, resolved_eq_ok] at h
  obtain ⟨_, _, _, _, h⟩ := h
  split at h
  all_goals
    simp only [bind_eq_ok, pure_eq_ok] at h
    obtain ⟨_, _, _, _, rfl⟩ := h
    exact ⟨rfl, rfl, rfl⟩

theorem group_of_api (hc : d.client rootNamespace = .ok c) {api : Api} (ha : api ∈ c.apis) :
    api.tag.written ≠ "" ∧ api.operations ≠ [] ∧ api.operations = d.operationsTagged api.tag.written := by
  have ⟨mem, named, used⟩ := (apis_of hc).mem_iff.mp ⟨api, ha, rfl, rfl⟩
  exact ⟨named, used, (mem_operationsByTag.mp mem).2⟩

-- The positions of the operations of a class are those of operations of the client.
theorem in_range_of_api (hc : d.client rootNamespace = .ok c) {api : Api} (ha : api ∈ c.apis) :
    ∀ i ∈ api.operations, i < c.endpoints.length := by
  have ⟨n, builds⟩ := builds_of_client hc
  obtain rfl := (of_named builds.named).1
  have endpoints := forall₂_of_mapM builds.endpoints fun _ _ _ => of_endpoint
  intro i hi
  have ⟨o, ho, _⟩ := mem_operationsTagged.mp ((group_of_api hc ha).2.2 ▸ hi)
  exact endpoints.length_eq ▸ (List.getElem?_eq_some_iff.mp ho).1

theorem mem_api_iff (hc : d.client rootNamespace = .ok c) {tag : String} {i : Nat} :
    (∃ api ∈ c.apis, api.tag.written = tag ∧ i ∈ api.operations) ↔
      tag ≠ "" ∧ ∃ o, d.operations[i]? = some o ∧ tag ∈ o.operation.tags := by
  rw [← mem_operationsTagged]
  constructor
  · rintro ⟨api, ha, rfl, hi⟩
    have ⟨named, _, same⟩ := group_of_api hc ha
    exact ⟨named, same ▸ hi⟩
  · rintro ⟨named, hi⟩
    have group := mem_operationsByTag.mpr ⟨mem_tagNames hi, rfl⟩
    obtain ⟨api, ha, rfl, same⟩ := (apis_of hc).mem_iff.mpr ⟨group, named, List.ne_nil_of_mem hi⟩
    exact ⟨api, ha, rfl, same ▸ hi⟩

theorem apis_pairwise (hc : d.client rootNamespace = .ok c) :
    (c.apis.map (·.tag.written)).Pairwise d.TagBefore := by
  have tags : c.apis.map (·.tag.written) =
      (c.apis.map fun api => (api.tag.written, api.operations)).map (·.1) := by simp
  have names : d.operationsByTag.map (·.1) = d.tagNames := by simp [operationsByTag, Function.comp_def]
  rw [tags, (apis_of hc).groups]
  exact (names ▸ d.tagNames_pairwise).sublist (List.filter_sublist.map _)

-- Paths come as in the document, and the methods of a path in an order of their own.
theorem operations_positions (d : Document) : d.operations.map (fun o => (o.path, o.method)) =
    d.paths.flatMap fun (path, item) =>
      (HttpMethod.all.filter fun method => (item.operation method).isSome).map (path, ·) := by
  have methods (item : PathItem) : item.operations.map (·.1) =
      HttpMethod.all.filter fun method => (item.operation method).isSome := by
    unfold PathItem.operations
    induction HttpMethod.all with
    | nil => rfl
    | cons method rest ih => cases h : item.operation method <;> simp [h, ih]
  simp only [operations, List.map_flatMap, List.map_map, ← methods]
  rfl

-- Each operation is in the classes of its tags, and in no others.
theorem operations_grouped (hc : d.client rootNamespace = .ok c) : c.Groups d := by
  have ⟨n, builds⟩ := builds_of_client hc
  obtain rfl := (of_named builds.named).1
  have endpoints := forall₂_of_mapM builds.endpoints fun _ _ _ => of_endpoint
  have positions : c.endpoints.map (fun e => (e.path, e.method)) =
      n.document.operations.map fun o => (o.path, o.method) :=
    map_of_mapM (fun h => by simp [of_endpoint h]) builds.endpoints
  exact {
    endpoints
    positions := positions.trans n.document.operations_positions
    holds := mem_api_iff hc
    increasing api ha := (group_of_api hc ha).2.2 ▸ operationsTagged_increasing ..
    in_range api ha i hi := by
      have ⟨_, o, ho, _⟩ := (mem_api_iff hc).mp ⟨api, ha, rfl, hi⟩
      exact endpoints.length_eq ▸ (List.getElem?_eq_some_iff.mp ho).1
    used api ha := (group_of_api hc ha).2.1
    order := apis_pairwise hc
    classes := (apis_of hc).classes }

end Document

namespace Tagged

-- One tag is declared and not used, one is declared twice, and one is carried twice.
def document : Document where
  openapi := "3.0.0"
  info := { title := "Tagged", version := "1" }
  tags := [{ name := "store" }, { name := "unused" }, { name := "store" }]
  paths := [("/pets", { get := some { tags := ["pet", "store", "pet", ""] }, post := some { tags := ["store"] } }),
    ("/users", { get := some { tags := ["user", "pet"] } })]

end Tagged

theorem Document.tagged_grouped : ∃ c, Tagged.document.client Client.defaultNamespace = .ok c ∧
    c.apis.map (fun api => (api.className, api.operations)) =
      [("StoreApi", [0, 1]), ("PetApi", [0, 2]), ("UserApi", [2])] ∧ c.Groups Tagged.document := by
  have apis : (Tagged.document.client Client.defaultNamespace).toOption.map
      (·.apis.map fun api => (api.className, api.operations)) =
        some [("StoreApi", [0, 1]), ("PetApi", [0, 2]), ("UserApi", [2])] := by decide +kernel
  have ⟨c, hc, apis⟩ := exists_ok apis
  exact ⟨c, hc, apis, operations_grouped hc⟩

end OpenApiClient
