import OpenApiClient.Proofs.Index.Root

/-!
The walk visits the schemas that `Visits` describes, and no others.
-/

namespace OpenApiClient

open Pointer

theorem ResponseIndex.mem_insert {m m' : ResponseIndex} {found other : NamedResponse}
    (h : m.insert found = .ok m') (ho : other ∈ m'.entries) : other ∈ m.entries ∨ other = found := by
  unfold insert at h
  split at h
  case h_1 =>
    cases h
    simpa using ho
  case h_2 =>
    split at h
    case isTrue =>
      cases h
      exact .inl ho
    case isFalse => contradiction

namespace Document

variable {d : Document} {responses : ResponseIndex}

theorem hasResponse_of_site {site : ResponseSite} {r : Response} (h : site ∈ d.responseSites)
    (hr : site.response = .inline r) :
    ∃ place, d.HasResponse place site.name r ∧ site.origin = ofSegments place.way := by
  cases List.mem_append.mp h
  case inl h =>
    obtain ⟨⟨key, place⟩, hk, rfl⟩ := List.mem_map.mp h
    cases hr
    cases hc : d.components
    case none => simp [hc] at hk
    case some c =>
      simp only [hc, Option.map_some, Option.getD_some] at hk
      refine ⟨_, .component hc hk, ?_⟩
      simp (disch := decide) [← String.toList_inj, toList_ofSegments, escapeSegment_eq_self,
        ResponsePlace.way]
  case inr h =>
    have ⟨o, ho, h⟩ := List.mem_flatMap.mp h
    obtain ⟨⟨status, place⟩, hk, rfl⟩ := List.mem_map.mp h
    cases hr
    refine ⟨_, .operation ho hk, ?_⟩
    simp (disch := decide) [← String.toList_inj, toList_ofSegments, escapeSegment_eq_self,
      ResponsePlace.way, OperationSite.pointer_eq]

-- Whatever the index of responses holds was found in the document.
theorem hasResponse_of_index (hr : d.responseIndex = .ok responses) : ∀ found ∈ responses.entries,
    ∃ place, d.HasResponse place (.ok found.name) found.response ∧
      found.origin = ofSegments place.way := by
  have sites : ∀ found ∈ responses.entries, ∃ site ∈ d.responseSites,
      site.response = .inline found.response ∧ site.name = .ok found.name ∧
        site.origin = found.origin := by
    refine foldlM_induction (P := fun past m => ∀ found ∈ m.entries, ∃ site ∈ past,
      site.response = .inline found.response ∧ site.name = .ok found.name ∧
        site.origin = found.origin) nofun ?_ hr
    intro past site m m' known h found hf
    unfold addResponse at h
    split at h
    case h_1 =>
      simp only [bind_eq_ok, pure_eq_ok] at h
      obtain ⟨_, _, rfl⟩ := h
      obtain ⟨site, hs, h⟩ := known found hf
      exact ⟨site, List.mem_append_left _ hs, h⟩
    case h_2 hs =>
      simp only [bind_eq_ok, named_eq_ok] at h
      obtain ⟨name, hn, h⟩ := h
      rcases ResponseIndex.mem_insert h hf with hf | rfl
      case inl =>
        obtain ⟨site, hs, h⟩ := known found hf
        exact ⟨site, List.mem_append_left _ hs, h⟩
      case inr => exact ⟨site, by simp, hs, hn, rfl⟩
  intro found hf
  obtain ⟨site, hs, hr, hn, ho⟩ := sites found hf
  exact hn ▸ ho ▸ hasResponse_of_site hs hr

-- The walk starts with the roots.
theorem visit_mem_indexSteps (hr : d.responseIndex = .ok responses) {p : SchemaPosition} :
    .visit p ∈ d.indexSteps responses ↔ ∃ root name s, d.Begins responses root name s ∧
      .visit p ∈ Schema.stepsAt [] name (ofSegments root.way) (.inline s) := by
  have origin (found : NamedResponse) {base : List String} (h : found.origin = ofSegments base)
      (media : String) : found.origin ++ "/content/" ++ escapeSegment media ++ "/schema" =
        ofSegments (base ++ ["content", media, "schema"]) :=
    h ▸ content_pointer base media
  simp only [indexSteps, List.mem_append, visit_mem_componentSchemaSteps, visit_mem_responseSteps,
    List.mem_flatMap, Option.mem_toList, visit_mem_componentRequestBodySteps,
    visit_mem_componentParameterSteps]
  constructor
  · rintro (((⟨_, _, _, hk, hn, hv⟩ | ⟨found, hf, media, _, hs, hv⟩) | ⟨_, hc,
      ⟨_, _, _, _, _, hk, hn, hs, hv⟩ | ⟨_, _, _, _, hk, hn, hs, hv⟩⟩) | ⟨o, ho, hv⟩)
    · exact ⟨_, _, _, .schema hk hn, hv⟩
    · have ⟨place, hb, ho⟩ := hasResponse_of_index hr found hf
      exact ⟨_, _, _, .response hf hb ho hs, origin found ho media ▸ hv⟩
    · exact ⟨_, _, _, .requestBody hc hk hn hs, hv⟩
    · exact ⟨_, _, _, .parameter hc hk hn hs, hv⟩
    · rcases (visit_mem_operationSteps ho).mp hv with ⟨_, _, _, hb, hs, hv⟩ | ⟨p, hp, hv⟩
      · exact ⟨_, _, _, .payload ho hb hs, hv⟩
      · have ⟨_, place, hl, hb⟩ := hp.listed
        have ⟨q, s, hq, hs, hv⟩ := (visit_mem_parameterSteps hb).mp hv
        exact ⟨_, _, _, .argument hp hl hb hq hs, hv⟩
  · rintro ⟨_, _, s, h, hv⟩
    cases h with
    | schema hk hn => exact .inl <| .inl <| .inl ⟨_, _, _, hk, hn, hv⟩
    | response hf _ ho hs =>
      exact .inl <| .inl <| .inr ⟨_, hf, _, _, hs, origin _ ho _ ▸ hv⟩
    | requestBody hc hk hn hs => exact .inl <| .inr ⟨_, hc, .inl ⟨_, _, _, _, _, hk, hn, hs, hv⟩⟩
    | parameter hc hk hn hs => exact .inl <| .inr ⟨_, hc, .inr ⟨_, _, _, _, hk, hn, hs, hv⟩⟩
    | payload ho hb hs =>
      exact .inr ⟨_, ho, (visit_mem_operationSteps ho).mpr <| .inl ⟨_, _, _, hb, hs, hv⟩⟩
    | argument hp _ hb hq hs =>
      refine .inr ⟨_, hp.1, (visit_mem_operationSteps hp.1).mpr <| .inr ⟨_, hp, ?_⟩⟩
      exact (visit_mem_parameterSteps hb).mpr ⟨_, _, hq, hs, hv⟩

theorem visits_of_step (hr : d.responseIndex = .ok responses) {p : SchemaPosition}
    (h : .visit p ∈ d.indexSteps responses) :
    ∃ way, p.pointer = ofSegments way ∧ d.Visits responses way p.name p.schema := by
  have ⟨root, name, s, begins, hv⟩ := (visit_mem_indexSteps hr).mp h
  obtain ⟨_, ⟨⟩, rfl | hv⟩ := Schema.visit_mem_stepsAt.mp hv
  case inl => exact ⟨root.way, rfl, .root begins⟩
  case inr =>
    have ⟨rest, hp, below⟩ := Schema.below_of_visit hv
    exact ⟨root.way ++ rest, hp, .below begins below⟩

theorem Visits.step (hr : d.responseIndex = .ok responses) {way : List String} {name : String}
    {s : Schema} (h : d.Visits responses way name s) :
    ∃ enclosing, .visit ⟨name, s, ofSegments way, enclosing⟩ ∈ d.indexSteps responses := by
  cases h with
  | root begins =>
    exact ⟨[], (visit_mem_indexSteps hr).mpr
      ⟨_, _, _, begins, Schema.visit_mem_stepsAt.mpr ⟨_, rfl, .inl rfl⟩⟩⟩
  | @below root root_name _ _ _ _ begins below =>
    have ⟨enclosing, hv⟩ := below.visit [root_name] root.way
    exact ⟨enclosing, (visit_mem_indexSteps hr).mpr
      ⟨_, _, _, begins, Schema.visit_mem_stepsAt.mpr ⟨_, rfl, .inr hv⟩⟩⟩

end Document

end OpenApiClient
