import OpenApiClient.Proofs.Equality
import OpenApiClient.Proofs.Reference.Place

/-!
The index of responses after a part of them. Whatever response was written so far has an entry under the name
that it gets where it is written, and the entry says the same, even if it was made for another place.
-/

namespace OpenApiClient

open Pointer

namespace ResponseIndex

-- All that inserting a response can do.
inductive Inserts (m : ResponseIndex) (found : NamedResponse) : ResponseIndex → Prop
  | new : m.get? found.name = none → Inserts m found { m with entries := m.entries ++ [found] }
  | known {first} : m.get? found.name = some first → first.response.same found.response →
    Inserts m found m

variable {m m' : ResponseIndex} {found : NamedResponse} {name : String}

theorem inserts (h : m.insert found = .ok m') : m.Inserts found m' := by
  unfold insert at h
  split at h
  case h_1 hn =>
    cases h
    exact .new hn
  case h_2 hf =>
    split at h
    case isTrue hs =>
      cases h
      exact .known hf hs
    case isFalse => contradiction

theorem get?_eq_none : m.get? name = none ↔ ∀ found ∈ m.entries, found.name ≠ name := by
  simp [get?]

theorem of_get?_eq_some (h : m.get? name = some found) : found ∈ m.entries ∧ found.name = name :=
  ⟨List.mem_of_find?_eq_some h, by simpa using List.find?_some h⟩

theorem of_nameAt?_eq_some {pointer : String} (h : m.nameAt? pointer = some name) :
    ∃ found ∈ m.entries, found.name = name ∧ found.origin = pointer := by
  obtain ⟨found, hf, rfl⟩ := Option.map_eq_some_iff.mp h
  exact ⟨found, List.mem_of_find?_eq_some hf, rfl, by simpa using List.find?_some hf⟩

-- The index was made of the responses in these places.
structure Of (past : List Document.ResponseSite) (m : ResponseIndex) : Prop where
  names : (m.entries.map (·.name)).Nodup
  entry_of_site {site : Document.ResponseSite} {name : String} {r : Response} : site ∈ past →
    site.response = .inline r → site.name = .ok name →
      ∃ found ∈ m.entries, found.name = name ∧ (found.response = r ∨ found.response.same r)

namespace Of

variable {past : List Document.ResponseSite} {site : Document.ResponseSite} {d : Document}

theorem nil : Of [] {} where
  names := List.nodup_nil
  entry_of_site := nofun

-- What has an entry keeps it, so that only the place that was added is left.
theorem extend (h : Of past m) (names : (m'.entries.map (·.name)).Nodup)
    (kept : m.entries ⊆ m'.entries)
    (added : ∀ {name r}, site.response = .inline r → site.name = .ok name →
      ∃ found ∈ m'.entries, found.name = name ∧ (found.response = r ∨ found.response.same r)) :
    Of (past ++ [site]) m' where
  names := names
  entry_of_site hm hr hn := by
    cases List.mem_append.mp hm
    case inl hm =>
      have ⟨found, hf, same⟩ := h.entry_of_site hm hr hn
      exact ⟨found, kept hf, same⟩
    case inr hm =>
      cases List.mem_singleton.mp hm
      exact added hr hn

theorem addResponse (h : Of past m) (hs : d.addResponse m site = .ok m') : Of (past ++ [site]) m' := by
  unfold Document.addResponse at hs
  split at hs
  case h_1 hr =>
    simp only [bind_eq_ok, pure_eq_ok] at hs
    obtain ⟨_, _, rfl⟩ := hs
    exact h.extend h.names (List.Subset.refl _) fun hi => by cases hr.symm.trans hi
  case h_2 response hr =>
    simp only [bind_eq_ok, named_eq_ok] at hs
    obtain ⟨name, hn, hs⟩ := hs
    cases inserts hs with
    | new fresh =>
      refine h.extend ?_ (List.subset_append_left ..) fun hi hn' => ?_
      · have := get?_eq_none.mp fresh
        simp only [List.map_append, List.nodup_append, h.names]
        simpa using this
      · cases hr.symm.trans hi
        cases hn.symm.trans hn'
        exact ⟨_, List.mem_append_right _ (List.mem_singleton_self _), rfl, .inl rfl⟩
    | known hf same =>
      refine h.extend h.names (List.Subset.refl _) fun hi hn' => ?_
      cases hr.symm.trans hi
      cases hn.symm.trans hn'
      obtain ⟨mem, first_name⟩ := of_get?_eq_some hf
      exact ⟨_, mem, first_name, .inr same⟩

end Of

end ResponseIndex

namespace Document

variable {d : Document} {responses : ResponseIndex} {place : ResponsePlace} {name : String} {r : Response}

theorem responseIndex_of (h : d.responseIndex = .ok responses) : responses.Of d.responseSites :=
  foldlM_induction (P := ResponseIndex.Of) .nil .addResponse h

theorem site_of_hasResponse {name : Except NamingError String} (h : d.HasResponse place name r) :
    ∃ site ∈ d.responseSites, site.response = .inline r ∧ site.name = name := by
  cases h with
  | @component c key _ hc hk =>
    have mem : (key, .inline r) ∈ (d.components.map (·.responses)).getD [] := by simpa [hc] using hk
    exact ⟨_, List.mem_append_left _ (List.mem_map_of_mem mem), rfl, rfl⟩
  | @operation o status _ ho hk =>
    have ⟨site, hs, response, site_name⟩ : ∃ site ∈ operationResponseSites o,
        site.response = .inline r ∧ site.name = .ok (Naming.responseName o.stem status) :=
      ⟨_, List.mem_map.mpr ⟨_, hk, rfl⟩, rfl, rfl⟩
    exact ⟨site, List.mem_append_right _ (List.mem_flatMap.mpr ⟨o, ho, hs⟩), response, site_name⟩

-- The index has what is written in the document,
theorem entry_of_hasResponse (hd : d.Distinct) (hr : d.responseIndex = .ok responses)
    (h : d.HasResponse place (.ok name) r) :
    ∃ found ∈ responses.entries, found.name = name ∧ found.response.same r := by
  have ⟨site, hs, response, site_name⟩ := site_of_hasResponse h
  have ⟨found, hf, found_name, same⟩ := (responseIndex_of hr).entry_of_site hs response site_name
  refine ⟨found, hf, found_name, ?_⟩
  cases same
  case inl same => exact same ▸ (Response.equivAt_same (hd.response h)).refl
  case inr same => exact same

-- and what it says about a place is what is written there.
theorem entry_of_responseAt {way : List String} (hd : d.Distinct) (hr : d.responseIndex = .ok responses)
    (hn : responses.nameAt? (ofSegments way) = some name)
    (hw : (Node.document d).walk way = .ok (.response r)) :
    ∃ found ∈ responses.entries, found.name = name ∧ found.response.same r := by
  obtain ⟨found, hf, found_name, origin⟩ := ResponseIndex.of_nameAt?_eq_some hn
  obtain ⟨place, hp, at_place⟩ := hasResponse_of_index hr found hf
  obtain rfl := ofSegments_injective (origin.symm.trans at_place)
  cases Node.Reaches.response hd hp _ hw
  exact ⟨found, hf, found_name, (Response.equivAt_same (hd.response hp)).refl⟩

end Document

end OpenApiClient
