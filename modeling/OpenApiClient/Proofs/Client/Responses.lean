import OpenApiClient.Proofs.Client.Decoded
import OpenApiClient.Proofs.Index.Responses

/-!
The responses of operations: each of them has one class, made for a response that says the same as what is
written for the operation, or as what the reference there leads to.
-/

namespace OpenApiClient

namespace NamedDocument

-- What a client says of one response of an operation.
structure Answers (n : NamedDocument) (classes : List ResponseClass) (entry : String × RefOr Response)
    (r : StatusResponse) : Prop where
  status : r.status = entry.1
  made : ∃ answer found response, classes.filter (·.name = r.className) = [answer] ∧
    found ∈ n.responses.entries ∧ n.responseClass found = .ok answer ∧
    n.document.valueOf .response entry.2 = .ok response ∧ found.response.same response

variable {n : NamedDocument} {found : NamedResponse} {answer : ResponseClass} {o : OperationSite}
  {e : Endpoint} {r : StatusResponse} {name status reference : String} {place : RefOr Response}

theorem name_of_responseClass (h : n.responseClass found = .ok answer) : answer.name = found.name := by
  unfold responseClass at h
  split at h
  case h_1 =>
    simp only [bind_eq_ok, pure_eq_ok, exists_eq_left'] at h
    obtain ⟨_, _, rfl⟩ := h
    rfl
  case h_2 =>
    cases h
    rfl

theorem responses_of_endpoint (h : n.endpoint o = .ok e) : o.operation.responses.mapM
    (fun (status, place) => n.statusResponse o status place) = .ok e.responses := by
  simp only [endpoint, bind_eq_ok, resolved_eq_ok] at h
  obtain ⟨_, _, _, _, h⟩ := h
  split at h
  all_goals
    simp only [bind_eq_ok, pure_eq_ok] at h
    obtain ⟨_, _, _, hr, rfl⟩ := h
    exact hr

theorem of_statusResponse (h : n.statusResponse o status place = .ok r) : r.status = status ∧
    n.document.responseNameOf n.responses o.stem status place = .ok r.className := by
  simp only [statusResponse, bind_eq_ok, pure_eq_ok] at h
  obtain ⟨_, hn, rfl⟩ := h
  exact ⟨rfl, hn⟩

-- A referenced response is named where the reference leads.
theorem of_responseNameOf_ref {stem : String}
    (h : n.document.responseNameOf n.responses stem status (.ref reference) = .ok name) :
    ∃ position response, n.standsAt .response o.pointer (.ref reference) = .ok position ∧
      n.document.valueOf .response (.ref reference) = .ok response ∧
      n.responses.nameAt? position = some name := by
  simp only [Document.responseNameOf, bind_eq_ok, resolved_eq_ok] at h
  obtain ⟨⟨terminal, response⟩, hd, position, hp, h⟩ := h
  split at h
  case h_1 hn =>
    cases h
    refine ⟨position, response, ?_, ?_, hn⟩
    · simpa [standsAt, hd] using hp
    · simp [Document.valueOf, hd]
  case h_2 => contradiction

end NamedDocument

namespace Document

open NamedDocument

variable {d : Document} {n : NamedDocument} {c : Client} {o : OperationSite} {r : StatusResponse}
  {name status rootNamespace : String} {place : RefOr Response}

-- Whichever way a response gets its name, the index has what is meant under it.
theorem entry_of_responseNameOf (hd : d.Distinct) (h : d.named = .ok n) (ho : o ∈ d.operations)
    (hm : (status, place) ∈ o.operation.responses)
    (hn : d.responseNameOf n.responses o.stem status place = .ok name) :
    ∃ found response, found ∈ n.responses.entries ∧ found.name = name ∧
      d.valueOf .response place = .ok response ∧ found.response.same response := by
  obtain ⟨rfl, hr, _⟩ := of_named h
  cases place with
  | inline response =>
    cases hn
    have ⟨found, hf, found_name, same⟩ := entry_of_hasResponse hd hr (.operation ho hm)
    exact ⟨found, response, hf, found_name, rfl, same⟩
  | ref reference =>
    obtain ⟨position, response, hp, hv, hn⟩ := of_responseNameOf_ref (o := o) hn
    obtain ⟨way, node, rfl, hw, pick⟩ := walk_of_standsAt hp hv
    cases node <;> cases pick
    have ⟨found, hf, found_name, same⟩ := entry_of_responseAt hd hr hn hw
    exact ⟨found, response, hf, found_name, hv, same⟩

theorem Builds.responses_nodup (h : d.Builds n c) : (c.responses.map (·.name)).Nodup := by
  have names : c.responses.map (·.name) = n.responses.entries.map (·.name) :=
    map_of_mapM name_of_responseClass h.responses
  exact names ▸ (responseIndex_of (of_named h.named).2.1).names

theorem Builds.response_of_found (h : d.Builds n c) {found : NamedResponse}
    (hf : found ∈ n.responses.entries) : ∃ answer, n.responseClass found = .ok answer ∧
      c.responses.filter (·.name = found.name) = [answer] := by
  obtain ⟨answer, ha, made⟩ := mem_mapM h.responses found hf
  exact ⟨answer, made, name_of_responseClass made ▸ filter_of_nodup h.responses_nodup ha⟩

theorem Builds.answers (h : d.Builds n c) (hd : d.Distinct) (ho : o ∈ d.operations)
    (hm : (status, place) ∈ o.operation.responses) (hr : n.statusResponse o status place = .ok r) :
    n.Answers c.responses (status, place) r := by
  obtain ⟨status_eq, hn⟩ := of_statusResponse hr
  obtain rfl := (of_named h.named).1
  obtain ⟨found, response, hf, found_name, hv, same⟩ := entry_of_responseNameOf hd h.named ho hm hn
  obtain ⟨answer, made, only⟩ := h.response_of_found hf
  exact ⟨status_eq, answer, found, response, found_name ▸ only, hf, made, hv, same⟩

-- Each response of each operation is answered for, in the order of the document.
theorem responses_answered (hd : d.Distinct) (hc : d.client rootNamespace = .ok c) :
    ∃ n, d.named = .ok n ∧ List.Forall₂
      (fun o e => List.Forall₂ (n.Answers c.responses) o.operation.responses e.responses)
      d.operations c.endpoints := by
  have ⟨n, h⟩ := builds_of_client hc
  obtain rfl := (of_named h.named).1
  refine ⟨n, h.named, forall₂_of_mapM h.endpoints fun o ho e he => ?_⟩
  exact forall₂_of_mapM (responses_of_endpoint he) fun (_, _) hm _ hr => h.answers hd ho hm hr

end Document

namespace Page

-- A page that is not there is answered through two references, and any other status as 200 is.
def get : Operation where
  responses := [("200", .inline { description := "A page" }), ("404", .ref "#/components/responses/Gone"),
    ("default", .ref "#/paths/~1page/get/responses/200")]

def document : Document where
  openapi := "3.0.0"
  info := { title := "Page", version := "1" }
  paths := [("/page", { get := some get })]
  components := some { responses := [("Missing", .inline { description := "No page" }),
    ("Gone", .ref "#/components/responses/Missing")] }

theorem distinct : document.Distinct := by
  simp [Document.distinct_iff, Components.distinct_iff, PathItem.distinct_iff, Operation.distinct_iff,
    Response.distinct_iff, document, get, Entries.keys, Entries.Distinct, PathItem.operations,
    PathItem.operation, HttpMethod.all]

end Page

theorem Document.page_answered : ∃ n c, Page.document.named = .ok n ∧
    Page.document.client Client.defaultNamespace = .ok c ∧
    c.endpoints.map (·.responses.map fun r => (r.status, r.className)) =
      [[("200", "GetPage200Response"), ("404", "Missing"), ("default", "GetPage200Response")]] ∧
    List.Forall₂ (fun o e => List.Forall₂ (n.Answers c.responses) o.operation.responses e.responses)
      Page.document.operations c.endpoints := by
  have names : (Page.document.client Client.defaultNamespace).toOption.map
      (·.endpoints.map (·.responses.map fun r => (r.status, r.className))) =
        some [[("200", "GetPage200Response"), ("404", "Missing"), ("default", "GetPage200Response")]] := by
    decide +kernel
  have ⟨c, hc, names⟩ := exists_ok names
  have ⟨n, hn, answered⟩ := responses_answered Page.distinct hc
  exact ⟨n, c, hn, hc, names, answered⟩

end OpenApiClient
