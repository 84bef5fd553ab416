import OpenApiClient.Proofs.Reference.Place

/-!
The other way round: what leads to a request body or to a parameter. There are few places where these
can be written, so that the way to one of them tells which place it is.
-/

namespace OpenApiClient

namespace Node

variable {node : Node}

-- The last step of a way that is not empty.
theorem walk_cases {start : Node} {way : List String} (h : start.walk way = .ok node) :
    way = [] ∧ start = node ∨ ∃ init segment prev, way = init ++ [segment] ∧
      start.walk init = .ok prev ∧ prev.Step segment node := by
  rcases List.eq_nil_or_concat way with rfl | ⟨init, segment, rfl⟩
  · exact .inl ⟨rfl, walk_nil_eq_ok.mp h⟩
  · rw [List.concat_eq_append, walk_append] at h
    simp only [bind_eq_ok, walk_cons_eq_ok, walk_nil_eq_ok, exists_eq_right] at h
    obtain ⟨prev, hp, hs⟩ := h
    exact .inr ⟨init, segment, prev, List.concat_eq_append, hp, .of_step? hs⟩

end Node

namespace Document

variable {d d' : Document} {way : List String}

-- Nothing leads back to the document.
theorem walk_document (h : (Node.document d).walk way = .ok (.document d')) : way = [] ∧ d = d' := by
  rcases Node.walk_cases h with ⟨rfl, ⟨⟩⟩ | ⟨_, _, _, _, _, ⟨⟩⟩
  exact ⟨rfl, rfl⟩

theorem walk_components {c : Components} (h : (Node.document d).walk way = .ok (.components c)) :
    way = ["components"] ∧ d.components = some c := by
  rcases Node.walk_cases h with ⟨_, ⟨⟩⟩ | ⟨_, _, _, rfl, hw, ⟨hc⟩⟩
  obtain ⟨rfl, rfl⟩ := walk_document hw
  exact ⟨rfl, hc⟩

theorem walk_paths {entries : List (String × PathItem)}
    (h : (Node.document d).walk way = .ok (.paths entries)) : way = ["paths"] ∧ entries = d.paths := by
  rcases Node.walk_cases h with ⟨_, ⟨⟩⟩ | ⟨_, _, _, rfl, hw, ⟨⟩⟩
  obtain ⟨rfl, rfl⟩ := walk_document hw
  exact ⟨rfl, rfl⟩

theorem walk_pathItem {item : PathItem} (h : (Node.document d).walk way = .ok (.pathItem item)) :
    ∃ path, way = ["paths", path] ∧ (path, item) ∈ d.paths := by
  rcases Node.walk_cases h with ⟨_, ⟨⟩⟩ | ⟨_, _, _, rfl, hw, step⟩
  cases step with
  | pathItem hp =>
    obtain ⟨rfl, rfl⟩ := walk_paths hw
    exact ⟨_, rfl, hp⟩

theorem walk_operation {op : Operation} (h : (Node.document d).walk way = .ok (.operation op)) :
    ∃ o ∈ d.operations, way = ["paths", o.path, o.method.key] ∧ o.operation = op := by
  rcases Node.walk_cases h with ⟨_, ⟨⟩⟩ | ⟨_, _, _, rfl, hw, step⟩
  cases step with
  | operation ho =>
    obtain ⟨path, rfl, hp⟩ := walk_pathItem hw
    exact ⟨⟨path, _, _, op⟩, mem_operations.mpr ⟨hp, ho⟩, rfl, rfl⟩

-- A request body is a component, or the one of an operation.
theorem walk_requestBody {b : RequestBody} (h : (Node.document d).walk way = .ok (.requestBody b)) :
    (∃ c key, d.components = some c ∧ (key, .inline b) ∈ c.requestBodies ∧
      way = ["components", "requestBodies", key]) ∨
    ∃ o ∈ d.operations, o.operation.requestBody = some (.inline b) ∧
      way = ["paths", o.path, o.method.key, "requestBody"] := by
  rcases Node.walk_cases h with ⟨_, ⟨⟩⟩ | ⟨_, _, _, rfl, hw, step⟩
  cases step with
  | payload hb =>
    obtain ⟨o, ho, rfl, rfl⟩ := walk_operation hw
    exact .inr ⟨o, ho, hb, rfl⟩
  | bodyEntry hb =>
    rcases Node.walk_cases hw with ⟨_, ⟨⟩⟩ | ⟨_, _, _, rfl, hw', ⟨⟩⟩
    obtain ⟨rfl, hc⟩ := walk_components hw'
    exact .inl ⟨_, _, hc, hb, rfl⟩

-- A parameter is a component, or it is listed by an operation or a path.
theorem walk_parameter {p : Parameter} (h : (Node.document d).walk way = .ok (.parameter p)) :
    (∃ c key, d.components = some c ∧ (key, .inline p) ∈ c.parameters ∧
      way = ["components", "parameters", key]) ∨
    (∃ o ∈ d.operations, ∃ segment i, Node.position? segment = some i ∧
      o.operation.parameters[i]? = some (.inline p) ∧
      way = ["paths", o.path, o.method.key, "parameters", segment]) ∨
    ∃ path item segment i, (path, item) ∈ d.paths ∧ Node.position? segment = some i ∧
      item.parameters[i]? = some (.inline p) ∧ way = ["paths", path, "parameters", segment] := by
  rcases Node.walk_cases h with ⟨_, ⟨⟩⟩ | ⟨_, _, _, rfl, hw, step⟩
  cases step with
  | parameterEntry hp =>
    rcases Node.walk_cases hw with ⟨_, ⟨⟩⟩ | ⟨_, _, _, rfl, hw', ⟨⟩⟩
    obtain ⟨rfl, hc⟩ := walk_components hw'
    exact .inl ⟨_, _, hc, hp, rfl⟩
  | parameterItem hi hp =>
    rcases Node.walk_cases hw with ⟨_, ⟨⟩⟩ | ⟨_, _, _, rfl, hw', step⟩
    cases step with
    | ownParameters =>
      obtain ⟨o, ho, rfl, rfl⟩ := walk_operation hw'
      exact .inr <| .inl ⟨o, ho, _, _, hi, hp, rfl⟩
    | sharedParameters =>
      obtain ⟨path, rfl, hpath⟩ := walk_pathItem hw'
      exact .inr <| .inr ⟨path, _, _, _, hpath, hi, hp, rfl⟩

end Document

end OpenApiClient
