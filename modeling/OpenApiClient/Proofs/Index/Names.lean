import OpenApiClient.Index.NamedDocument
import OpenApiClient.Proofs.Index.Visit
import OpenApiClient.Proofs.Reference.Place
import OpenApiClient.Proofs.SameKind

/-!
The index of schemas after a part of the walk. It knows every schema that was visited, each under the
name it was visited with, and nothing else; what it holds under a name is the same for all of them.
-/

namespace OpenApiClient

namespace SchemaIndex

variable {m : SchemaIndex} {name : String} {e : NamedSchema}

theorem get?_eq_none : m.get? name = none ↔ ∀ e ∈ m.entries, e.name ≠ name := by
  simp [get?]

theorem of_get?_eq_some (h : m.get? name = some e) : e ∈ m.entries ∧ e.name = name :=
  ⟨List.mem_of_find?_eq_some h, by simpa using List.find?_some h⟩

theorem nameOf_component {reference key : String}
    (h : Pointer.segments reference = .ok ["components", "schemas", key])
    (hn : Naming.ofComponentKey key = .ok name) : m.nameOf reference = .ok name := by
  simp [nameOf, h, hn]

-- Whatever is not a component is named by what was found where the reference points to.
theorem nameOf_eq {reference : String} {way : List String}
    (h : Pointer.segments reference = .ok way) (hw : ∀ key, way ≠ ["components", "schemas", key]) :
    m.nameOf reference = match m.nameAt? (Pointer.ofSegments way) with
      | some name => .ok name
      | none => .error (.naming (.unnamedReference reference)) := by
  have canonical_eq : Pointer.canonical reference = .ok (Pointer.ofSegments way) := by
    simp [Pointer.canonical, h]
  -- No component is meant, so the first alternative of the lookup is out by `hw`.
  simp only [nameOf, h, canonical_eq, resolved_ok_bind]
  rfl

end SchemaIndex

-- What the index holds for a position, if there is nothing under its name yet.
def SchemaPosition.found (p : SchemaPosition) : NamedSchema where
  name := p.name
  schema := p.schema
  kind := p.schema.kind
  origin := p.pointer

-- The index was made by steps that were taken so far.
structure SchemaIndex.Of (past : List IndexStep) (m : SchemaIndex) : Prop where
  positions {pointer name : String} : (pointer, name) ∈ m.positions ↔
    ∃ p, .visit p ∈ past ∧ p.pointer = pointer ∧ p.name = name
  names : (m.entries.map (·.name)).Nodup
  entry_of_visit {p : SchemaPosition} : .visit p ∈ past → p.schema.kind ≠ .primitive →
    ∃ e, m.get? p.name = some e ∧ (e.schema = p.schema ∨ e.schema.same p.schema)
  visit_of_entry : ∀ e ∈ m.entries, ∃ p, .visit p ∈ past ∧ p.schema.kind ≠ .primitive ∧ e = p.found

-- All that recording a position can do.
inductive SchemaPosition.Records (p : SchemaPosition) (m m' : SchemaIndex) : Prop
  | primitive : p.schema.kind = .primitive → m'.entries = m.entries → Records p m m'
  | new : p.schema.kind ≠ .primitive → m.get? p.name = none →
    m'.entries = m.entries ++ [p.found] → Records p m m'
  | known {e} : p.schema.kind ≠ .primitive → m.get? p.name = some e → e.schema.same p.schema →
    m'.entries = m.entries → Records p m m'

theorem SchemaPosition.records {p : SchemaPosition} {m m' : SchemaIndex}
    (h : p.record m = .ok m') : m'.positions = (p.pointer, p.name) :: m.positions ∧
      p.Records m m' := by
  unfold record at h
  split at h
  case isTrue => contradiction
  case isFalse =>
    dsimp only at h
    split at h
    case isTrue hk =>
      cases h
      exact ⟨rfl, .primitive hk rfl⟩
    case isFalse hk =>
      unfold SchemaIndex.insert at h
      split at h
      case h_1 hn =>
        cases h
        exact ⟨rfl, .new hk hn rfl⟩
      case h_2 e he =>
        split at h
        case isTrue hs =>
          cases h
          exact ⟨rfl, .known hk he hs rfl⟩
        case isFalse => contradiction

namespace SchemaIndex.Of

variable {past : List IndexStep} {m m' : SchemaIndex} {d : Document}

theorem nil : Of [] {} where
  positions := by simp
  names := List.nodup_nil
  entry_of_visit := nofun
  visit_of_entry := nofun

-- A step that visits nothing leaves the index as it is.
theorem follow {step : IndexStep} (h : Of past m) (hs : ∀ p, step ≠ .visit p) :
    Of (past ++ [step]) m := by
  have same (p : SchemaPosition) : .visit p ∈ past ++ [step] ↔ .visit p ∈ past := by
    simp [(hs p).symm]
  exact {
    positions := h.positions.trans <| by simp only [same]
    names := h.names
    entry_of_visit := fun hp => h.entry_of_visit ((same _).mp hp)
    visit_of_entry := by simpa only [same] using h.visit_of_entry }

theorem record {p : SchemaPosition} (h : Of past m) (hp : p.record m = .ok m') :
    Of (past ++ [.visit p]) m' := by
  have ⟨positions, records⟩ := SchemaPosition.records hp
  have visited (q : SchemaPosition) : .visit q ∈ past ++ [.visit p] ↔ .visit q ∈ past ∨ q = p := by
    simp
  have positions {pointer name : String} : (pointer, name) ∈ m'.positions ↔
      ∃ q, .visit q ∈ past ++ [.visit p] ∧ q.pointer = pointer ∧ q.name = name := by
    simp only [positions, List.mem_cons, Prod.mk.injEq, h.positions, visited, or_and_right, exists_or,
      exists_eq_left]
    grind
  have earlier {e : NamedSchema} (he : e ∈ m.entries) : ∃ q, .visit q ∈ past ++ [.visit p] ∧
      q.schema.kind ≠ .primitive ∧ e = q.found := by
    have ⟨q, hq, he⟩ := h.visit_of_entry e he
    exact ⟨q, List.mem_append_left _ hq, he⟩
  cases records with
  | primitive hk entries =>
    have get (name : String) : m'.get? name = m.get? name := by rw [get?, entries, get?]
    refine ⟨positions, entries ▸ h.names, fun hq hn => ?_, fun e he => earlier (entries ▸ he)⟩
    cases (visited _).mp hq
    case inl hq => exact get _ ▸ h.entry_of_visit hq hn
    case inr hq => exact absurd (hq ▸ hk) hn
  | known hk he hs entries =>
    have get (name : String) : m'.get? name = m.get? name := by rw [get?, entries, get?]
    refine ⟨positions, entries ▸ h.names, fun hq hn => ?_, fun e he => earlier (entries ▸ he)⟩
    cases (visited _).mp hq
    case inl hq => exact get _ ▸ h.entry_of_visit hq hn
    case inr hq => exact hq ▸ get _ ▸ ⟨_, he, .inr hs⟩
  | new hk fresh entries =>
    have get (name : String) : m'.get? name =
        (m.get? name).or ([p.found].find? (·.name == name)) := by
      simp [get?, entries]
    refine ⟨positions, ?_, fun {q} hq hn => ?_, fun e he => ?_⟩
    · have := get?_eq_none.mp fresh
      simp only [entries, List.map_append, List.nodup_append, h.names]
      simpa [SchemaPosition.found] using this
    · cases (visited q).mp hq
      case inl hq =>
        have ⟨e, he, hs⟩ := h.entry_of_visit hq hn
        exact ⟨e, by simp [get, he], hs⟩
      case inr hq => exact ⟨p.found, by simp [get, hq, fresh, SchemaPosition.found], .inl (hq ▸ rfl)⟩
    · cases List.mem_append.mp (entries ▸ he)
      case inl he => exact earlier he
      case inr he => exact ⟨p, by simp, hk, List.mem_singleton.mp he⟩

theorem takeStep {step : IndexStep} (h : Of past m) (hs : d.takeStep m step = .ok m') :
    Of (past ++ [step]) m' := by
  cases step with
  | visit p =>
    exact h.record (named_eq_ok.mp hs)
  | fail => contradiction
  | followSchema | followRequestBody | followParameter =>
    simp only [Document.takeStep, bind_eq_ok, pure_eq_ok] at hs
    obtain ⟨_, _, rfl⟩ := hs
    exact h.follow (by simp)

theorem visit_of_nameAt? {pointer name : String} (h : Of past m)
    (hn : m.nameAt? pointer = some name) :
    ∃ p, .visit p ∈ past ∧ p.pointer = pointer ∧ p.name = name := by
  have ⟨_, _, hp, _⟩ := List.lookup_eq_some_iff.mp hn
  exact h.positions.mp (by simp [hp])

theorem nameAt?_of_visit {p : SchemaPosition} (h : Of past m) (hp : .visit p ∈ past) :
    ∃ name, m.nameAt? p.pointer = some name := by
  have hm := h.positions.mpr ⟨p, hp, rfl, rfl⟩
  have : (m.nameAt? p.pointer).isSome := by
    simpa [SchemaIndex.nameAt?] using ⟨_, hm⟩
  exact Option.isSome_iff_exists.mp this

end SchemaIndex.Of

namespace Document

variable {d : Document} {n : NamedDocument}

theorem schemaIndex_of {responses : ResponseIndex} {m : SchemaIndex}
    (h : d.schemaIndex responses = .ok m) : m.Of (d.indexSteps responses) :=
  foldlM_induction (P := SchemaIndex.Of) .nil .takeStep h

theorem of_named (h : d.named = .ok n) : n.document = d ∧ d.responseIndex = .ok n.responses ∧
    n.schemas.Of (d.indexSteps n.responses) := by
  simp only [named, bind_eq_ok, pure_eq_ok] at h
  obtain ⟨responses, hr, schemas, hs, rfl⟩ := h
  exact ⟨rfl, hr, schemaIndex_of hs⟩

-- Nothing on the walk has failed, so that the keys of components have names.
theorem fail_not_mem (h : d.named = .ok n) (error : BuildError) :
    .fail error ∉ d.indexSteps n.responses := by
  simp only [named, bind_eq_ok, pure_eq_ok] at h
  obtain ⟨responses, _, schemas, hs, rfl⟩ := h
  intro hf
  obtain ⟨_, _, ht⟩ := step_of_foldlM hs hf
  contradiction

theorem exists_name (h : d.named = .ok n) {key : String}
    (fails : ∀ e, Naming.ofComponentKey key = .error e → .fail (.naming e) ∈ d.indexSteps n.responses) :
    ∃ name, Naming.ofComponentKey key = .ok name := by
  cases hn : Naming.ofComponentKey key with
  | ok name => exact ⟨name, rfl⟩
  | error e => exact absurd (fails e hn) (fail_not_mem h (.naming e))

theorem name_of_componentSchema (h : d.named = .ok n) {key : String} {s : Schema}
    (hk : (key, .inline s) ∈ d.componentSchemas) : ∃ name, Naming.ofComponentKey key = .ok name := by
  refine exists_name h fun e hn => ?_
  have fails : .fail (.naming e) ∈ d.componentSchemaSteps :=
    List.mem_flatMap.mpr ⟨_, hk, by simp [hn, failing]⟩
  simp [indexSteps, fails]

theorem name_of_requestBody (h : d.named = .ok n) {c : Components} {key : String}
    {body : RequestBody} (hc : d.components = some c) (hk : (key, .inline body) ∈ c.requestBodies) :
    ∃ name, Naming.ofComponentKey key = .ok name := by
  refine exists_name h fun e hn => ?_
  have fails : .fail (.naming e) ∈ componentRequestBodySteps c :=
    List.mem_flatMap.mpr ⟨_, hk, by simp [hn, failing]⟩
  simp [indexSteps, hc, fails]

theorem name_of_parameter (h : d.named = .ok n) {c : Components} {key : String} {p : Parameter}
    {place : SchemaRef} (hc : d.components = some c) (hk : (key, .inline p) ∈ c.parameters)
    (hp : p.schema = some place) : ∃ name, Naming.ofComponentKey key = .ok name := by
  refine exists_name h fun e hn => ?_
  have fails : .fail (.naming e) ∈ componentParameterSteps c :=
    List.mem_flatMap.mpr ⟨_, hk, by simp [hp, hn, failing]⟩
  simp [indexSteps, hc, fails]

theorem distinct_of_visit (hd : d.Distinct) (h : d.named = .ok n) {p : SchemaPosition}
    (hp : .visit p ∈ d.indexSteps n.responses) : p.schema.Distinct :=
  have ⟨_, _, hv⟩ := visits_of_step (of_named h).2.1 hp
  hv.distinct hd

-- What was visited under a name is what the index has there.
theorem entry_of_visit (hd : d.Distinct) (h : d.named = .ok n) {p : SchemaPosition}
    (hp : .visit p ∈ d.indexSteps n.responses) (hk : p.schema.kind ≠ .primitive) :
    ∃ e, n.schemas.get? p.name = some e ∧ e.schema.same p.schema ∧ e.kind = p.schema.kind := by
  have ⟨_, _, index⟩ := of_named h
  have ⟨e, he, hs⟩ := index.entry_of_visit hp hk
  have ⟨q, _, _, hq⟩ := index.visit_of_entry e (SchemaIndex.of_get?_eq_some he).1
  have same : e.schema.same p.schema := by
    cases hs
    case inl hs => exact hs ▸ (Schema.equivAt_same (distinct_of_visit hd h hp)).refl
    case inr hs => exact hs
  refine ⟨e, he, same, ?_⟩
  rw [← Schema.kind_eq_of_same same, hq]
  rfl

-- No name stands for two schemas: all that was visited under it is the same, and is in the index.
theorem named_unambiguous (hd : d.Distinct) (h : d.named = .ok n) :
    (∀ p, .visit p ∈ d.indexSteps n.responses → p.schema.kind ≠ .primitive →
      ∃ e, n.schemas.get? p.name = some e ∧ e.schema.same p.schema ∧ e.kind = p.schema.kind) ∧
    (∀ p q, .visit p ∈ d.indexSteps n.responses → .visit q ∈ d.indexSteps n.responses →
      p.schema.kind ≠ .primitive → q.schema.kind ≠ .primitive → p.name = q.name →
      p.schema.same q.schema ∧ p.schema.kind = q.schema.kind) ∧
    ∀ e ∈ n.schemas.entries, ∃ p, .visit p ∈ d.indexSteps n.responses ∧
      p.schema.kind ≠ .primitive ∧ e = p.found := by
  refine ⟨fun p => entry_of_visit hd h, ?_, (of_named h).2.2.visit_of_entry⟩
  intro p q hp hq kp kq hn
  have ⟨e, he, same, kind⟩ := entry_of_visit hd h hp kp
  have ⟨e', he', same', kind'⟩ := entry_of_visit hd h hq kq
  cases he.symm.trans (hn ▸ he')
  have ⟨r, hr, _, er⟩ := (of_named h).2.2.visit_of_entry e (SchemaIndex.of_get?_eq_some he).1
  have equiv : EquivAt Schema.same e.schema := er ▸ Schema.equivAt_same (distinct_of_visit hd h hr)
  have equiv' : EquivAt Schema.same p.schema := Schema.equivAt_same (distinct_of_visit hd h hp)
  exact ⟨equiv'.trans (equiv.symm same) same', kind.symm.trans kind'⟩

theorem petStore_unambiguous : ∃ n, PetStore.document.named = .ok n ∧
    (∀ p, .visit p ∈ PetStore.document.indexSteps n.responses → p.schema.kind ≠ .primitive →
      ∃ e, n.schemas.get? p.name = some e ∧ e.schema.same p.schema ∧ e.kind = p.schema.kind) ∧
    n.schemas.entries.map (·.name) = ["Pet", "PetTag", "ListPets200ResponseJsonSchema",
      "ListPetsOrderParameter", "AddPetRequestBody", "AddPetRequestBodyNote"] := by
  have names : PetStore.document.named.toOption.map (·.schemas.entries.map (·.name)) =
      some ["Pet", "PetTag", "ListPets200ResponseJsonSchema", "ListPetsOrderParameter",
        "AddPetRequestBody", "AddPetRequestBodyNote"] := by decide +kernel
  have ⟨n, hn, names⟩ := exists_ok names
  exact ⟨n, hn, (named_unambiguous PetStore.distinct hn).1, names⟩

end Document

end OpenApiClient
