import Mathlib.Data.List.Induction
import OpenApiClient.Proofs.Index.Within
import OpenApiClient.Proofs.Reference.Reordered

/-!
The order in which the components list their schemas. Whether the walk can take a step does not depend on what it found
before, unless something else is called the same; and what it finds under a name, or at a place, does not depend on the
step that it takes first.
-/

namespace OpenApiClient

open Pointer

theorem lookup_eq_of_perm {entries others : List (String × String)}
    (once : ∀ {key value value'}, (key, value) ∈ entries → (key, value') ∈ entries → value = value')
    (h : entries.Perm others) (key : String) : entries.lookup key = others.lookup key := by
  have mem {entries : List (String × String)} {value : String} (found : entries.lookup key = some value) :
      (key, value) ∈ entries := by
    obtain ⟨before, after, rfl, -⟩ := List.lookup_eq_some_iff.mp found
    simp
  cases found : entries.lookup key with
  | none =>
    have absent := List.lookup_eq_none_iff.mp found
    exact (List.lookup_eq_none_iff.mpr fun entry he => absent entry (h.mem_iff.mpr he)).symm
  | some value =>
    cases found' : others.lookup key with
    | none =>
      have := List.lookup_eq_none_iff.mp found' _ (h.mem_iff.mp (mem found))
      simp at this
    | some value' => rw [once (mem found) (h.mem_iff.mpr (mem found'))]

namespace IndexStep

-- What the positions get from a step.
def place? : IndexStep → Option (String × String)
  | visit p => some (p.pointer, p.name)
  | _       => none

theorem mem_places {steps : List IndexStep} {pointer name : String} : (pointer, name) ∈ steps.filterMap place? ↔
    ∃ p, .visit p ∈ steps ∧ p.pointer = pointer ∧ p.name = name := by
  rw [List.mem_filterMap]
  constructor
  case mp =>
    rintro ⟨step, hs, place⟩
    cases step with
    | visit p =>
      obtain ⟨rfl, rfl⟩ := Prod.mk.inj (Option.some.inj place)
      exact ⟨p, hs, rfl, rfl⟩
    | followSchema | followRequestBody | followParameter | fail => contradiction
  case mpr =>
    rintro ⟨p, hs, rfl, rfl⟩
    exact ⟨.visit p, hs, rfl⟩

-- A step that can be taken, as far as the document decides this.
inductive Passes (d : Document) : IndexStep → Prop
  | visit {p : SchemaPosition} : p.name ∉ p.enclosing → p.enclosing.length < SchemaPosition.maxDepth →
    Passes d (.visit p)
  | followSchema {reference found} : d.destination .schema reference = .ok found →
    Passes d (.followSchema reference)
  | followRequestBody {reference found} : d.destination .requestBody reference = .ok found →
    Passes d (.followRequestBody reference)
  | followParameter {reference found} : d.destination .parameter reference = .ok found →
    Passes d (.followParameter reference)

-- Whatever gets a class under one name says the same.
def Agree (steps : List IndexStep) : Prop :=
  ∀ ⦃p q : SchemaPosition⦄, .visit p ∈ steps → .visit q ∈ steps → p.schema.kind ≠ .primitive →
    q.schema.kind ≠ .primitive → p.name = q.name → p.schema.same q.schema

theorem Agree.subset {steps others : List IndexStep} (h : Agree steps) (hs : others ⊆ steps) : Agree others :=
  fun _ _ hp hq => h (hs hp) (hs hq)

end IndexStep

namespace SchemaPosition

variable {p : SchemaPosition} {m m' : SchemaIndex}

theorem enclosing_of_record (h : p.record m = .ok m') :
    p.name ∉ p.enclosing ∧ p.enclosing.length < maxDepth := by
  unfold record at h
  split at h
  case isTrue => contradiction
  case isFalse proper => exact ⟨fun cyclic => proper (.inl cyclic), Nat.not_le.mp fun deep => proper (.inr deep)⟩

theorem record_of_alike (fresh : p.name ∉ p.enclosing) (depth : p.enclosing.length < maxDepth)
    (alike : ∀ e, p.schema.kind ≠ .primitive → m.get? p.name = some e → e.schema.same p.schema) :
    ∃ m', p.record m = .ok m' := by
  unfold record
  rw [if_neg (not_or.mpr ⟨fresh, Nat.not_le.mpr depth⟩)]
  dsimp only
  split
  case isTrue => exact ⟨_, rfl⟩
  case isFalse named =>
    unfold SchemaIndex.insert
    split
    case h_1 => exact ⟨_, rfl⟩
    case h_2 e known =>
      rw [if_pos (alike e named known)]
      exact ⟨_, rfl⟩

end SchemaPosition

-- Two indices that differ only in the order of their entries, and in the places that these come from.
structure SchemaIndex.Alike (m m' : SchemaIndex) : Prop where
  names : (m.entries.map (·.name)).Perm (m'.entries.map (·.name))
  entries : ∀ e ∈ m.entries, ∀ e' ∈ m'.entries, e.name = e'.name →
    e.schema.same e'.schema ∧ e.kind = e'.kind
  nameAt? : ∀ pointer, m.nameAt? pointer = m'.nameAt? pointer

namespace SchemaIndex.Of

open IndexStep

variable {past others : List IndexStep} {m m' : SchemaIndex}

-- Steps that were all taken agree: what the index has under a name says the same as all that was found there.
theorem agree (h : Of past m) (distinct : ∀ {p}, .visit p ∈ past → p.schema.Distinct) : Agree past := by
  have said {p : SchemaPosition} (hp : .visit p ∈ past) (hk : p.schema.kind ≠ .primitive) :
      ∃ e, m.get? p.name = some e ∧ e.schema.same p.schema := by
    obtain ⟨e, he, same⟩ := h.entry_of_visit hp hk
    refine ⟨e, he, same.elim (fun equal => ?_) id⟩
    rw [equal]
    exact (Schema.equivAt_same (distinct hp)).refl
  intro p q hp hq kp kq name
  obtain ⟨e, he, same⟩ := said hp kp
  obtain ⟨e', he', same'⟩ := said hq kq
  obtain rfl : e = e' := Option.some.inj (he.symm.trans (name ▸ he'))
  obtain ⟨first, visited, -, rfl⟩ := h.visit_of_entry e (of_get?_eq_some he).1
  have back : p.schema.same first.schema := (Schema.equivAt_same (distinct visited)).symm same
  exact (Schema.equivAt_same (distinct hp)).trans back same'

theorem mem_names (h : Of past m) {name : String} : name ∈ m.entries.map (·.name) ↔
    ∃ p, .visit p ∈ past ∧ p.schema.kind ≠ .primitive ∧ p.name = name := by
  constructor
  case mp =>
    intro hn
    obtain ⟨e, he, rfl⟩ := List.mem_map.mp hn
    obtain ⟨p, hp, hk, rfl⟩ := h.visit_of_entry e he
    exact ⟨p, hp, hk, rfl⟩
  case mpr =>
    rintro ⟨p, hp, hk, rfl⟩
    obtain ⟨e, he, -⟩ := h.entry_of_visit hp hk
    obtain ⟨mem, name⟩ := of_get?_eq_some he
    exact List.mem_map.mpr ⟨e, mem, name⟩

variable (h : Of past m) (h' : Of others m') (hp : others.Perm past)
include h h' hp

theorem names_perm : (m.entries.map (·.name)).Perm (m'.entries.map (·.name)) := by
  rw [List.perm_ext_iff_of_nodup h.names h'.names]
  intro name
  simp only [h.mem_names, h'.mem_names, hp.mem_iff]

theorem same_of_name (agree : Agree past) {e e' : NamedSchema} (he : e ∈ m.entries) (he' : e' ∈ m'.entries)
    (name : e.name = e'.name) : e.schema.same e'.schema ∧ e.kind = e'.kind := by
  obtain ⟨p, hv, hk, rfl⟩ := h.visit_of_entry e he
  obtain ⟨q, hv', hk', rfl⟩ := h'.visit_of_entry e' he'
  have same : p.schema.same q.schema := agree hv (hp.mem_iff.mp hv') hk hk' name
  exact ⟨same, Schema.kind_eq_of_same same⟩

end SchemaIndex.Of

namespace Document

open IndexStep

variable {d : Document} {past steps : List IndexStep} {step : IndexStep} {m m' : SchemaIndex}

theorem passes_of_takeStep (h : d.takeStep m step = .ok m') : step.Passes d := by
  cases step with
  | visit p =>
    obtain ⟨fresh, depth⟩ := SchemaPosition.enclosing_of_record (named_eq_ok.mp h)
    exact .visit fresh depth
  | followSchema | followRequestBody | followParameter =>
    simp only [takeStep, bind_eq_ok, resolved_eq_ok] at h
    obtain ⟨_, found, -⟩ := h
    constructor
    exact found
  | fail => contradiction

theorem takeStep_of_passes (passes : step.Passes d) (of : m.Of past) (agree : Agree (past ++ [step])) :
    ∃ m', d.takeStep m step = .ok m' := by
  cases passes with
  | @visit p fresh depth =>
    have alike (e : NamedSchema) (hk : p.schema.kind ≠ .primitive) (known : m.get? p.name = some e) :
        e.schema.same p.schema := by
      obtain ⟨mem, name⟩ := SchemaIndex.of_get?_eq_some known
      obtain ⟨q, visited, hk', rfl⟩ := of.visit_of_entry e mem
      exact agree (List.mem_append_left _ visited) (by simp) hk' hk name
    obtain ⟨m', recorded⟩ := SchemaPosition.record_of_alike fresh depth alike
    exact ⟨m', named_eq_ok.mpr recorded⟩
  | followSchema found | followRequestBody found | followParameter found =>
    refine ⟨m, ?_⟩
    rw [takeStep, found]
    rfl

-- Some order of steps can be taken exactly if each step can be taken and no two of them clash.
theorem takeSteps_ok_iff (distinct : ∀ {p}, .visit p ∈ steps → p.schema.Distinct) :
    (∃ m, steps.foldlM d.takeStep {} = .ok m) ↔ (∀ step ∈ steps, step.Passes d) ∧ Agree steps := by
  constructor
  case mp =>
    rintro ⟨m, taken⟩
    have of : m.Of steps := foldlM_induction (P := SchemaIndex.Of) .nil .takeStep taken
    refine ⟨fun step hs => ?_, of.agree distinct⟩
    obtain ⟨_, _, one⟩ := step_of_foldlM taken hs
    exact passes_of_takeStep one
  case mpr =>
    rintro ⟨passes, agree⟩
    clear distinct
    induction steps using List.reverseRecOn with
    | nil => exact ⟨{}, rfl⟩
    | append_singleton steps step ih =>
      obtain ⟨m, taken⟩ := ih (fun step hs => passes step (List.mem_append_left _ hs))
        (agree.subset (List.subset_append_left ..))
      have of : m.Of steps := foldlM_induction (P := SchemaIndex.Of) .nil .takeStep taken
      obtain ⟨m', last⟩ := takeStep_of_passes (passes step (by simp)) of agree
      refine ⟨m', ?_⟩
      rw [List.foldlM_append]
      exact bind_eq_ok.mpr ⟨m, taken, by simpa using last⟩

theorem positions_of_takeStep (h : d.takeStep m step = .ok m') :
    m'.positions = step.place?.toList ++ m.positions := by
  cases step with
  | visit p => exact (SchemaPosition.records (named_eq_ok.mp h)).1
  | followSchema | followRequestBody | followParameter =>
    simp only [takeStep, bind_eq_ok, pure_eq_ok] at h
    obtain ⟨_, _, rfl⟩ := h
    rfl
  | fail => contradiction

theorem positions_of_takeSteps (h : steps.foldlM d.takeStep {} = .ok m) :
    m.positions = (steps.filterMap place?).reverse := by
  refine foldlM_induction (P := fun past m => m.positions = (past.filterMap place?).reverse) rfl ?_ h
  intro past step m m' before taken
  rw [positions_of_takeStep taken, before]
  cases hp : step.place? <;> simp [hp]

end Document

namespace Schema

variable {s : Schema} {p : SchemaPosition} {enclosing : List String} {name pointer : String}

-- Wherever a schema stands, what is visited below it has each key once if the schema has.
theorem distinct_of_stepsBelow (hd : s.Distinct) (h : .visit p ∈ s.stepsBelow enclosing name pointer) :
    p.schema.Distinct := by
  induction s using Schema.induction generalizing enclosing name pointer with
  | step s parts members =>
    rcases mem_stepsBelow_iff.mp h with ⟨role, _, hs, hv⟩ | ⟨_, _, hv⟩ | ⟨i, m, hm, hv⟩
    case inl =>
      obtain ⟨c, rfl, rfl | below⟩ := visit_mem_stepsAt.mp hv
      case inl => exact hd.part hs
      case inr => exact parts hs (hd.part hs) below
    case inr.inl => contradiction
    case inr.inr => exact members hm (hd.member hm) hv

theorem distinct_of_stepsAt (hd : s.Distinct) (h : .visit p ∈ stepsAt enclosing name pointer (.inline s)) :
    p.schema.Distinct := by
  obtain ⟨_, ⟨⟩, rfl | below⟩ := visit_mem_stepsAt.mp h
  case inl => exact hd
  case inr => exact distinct_of_stepsBelow hd below

end Schema

-- The responses of an index have each key once.
def ResponseIndex.Distinct (responses : ResponseIndex) : Prop :=
  ∀ found ∈ responses.entries, found.response.Distinct

namespace Document

open IndexStep

variable {d : Document} {responses : ResponseIndex} {schemas : List (String × SchemaRef)} {p q : SchemaPosition}
  {m m' : SchemaIndex}

theorem responseIndex_distinct (hd : d.Distinct) (hr : d.responseIndex = .ok responses) : responses.Distinct := by
  intro found hf
  obtain ⟨place, response, -⟩ := hasResponse_of_index hr found hf
  exact hd.response response

theorem distinct_of_indexSteps (hd : d.Distinct) (hr : responses.Distinct) (h : .visit p ∈ d.indexSteps responses) :
    p.schema.Distinct := by
  simp only [indexSteps, List.mem_append, visit_mem_componentSchemaSteps, visit_mem_responseSteps, List.mem_flatMap,
    Option.mem_toList, visit_mem_componentRequestBodySteps, visit_mem_componentParameterSteps] at h
  obtain ⟨name, pointer, s, distinct, hv⟩ : ∃ name pointer s, s.Distinct ∧
      .visit p ∈ Schema.stepsAt [] name pointer (.inline s) := by
    have begun {root : Root} {name : String} {s : Schema} (h : d.Begins responses root name s) : s.Distinct :=
      h.distinct hd
    rcases h with (((⟨_, _, _, hk, hn, hv⟩ | ⟨found, hf, _, _, hs, hv⟩) | ⟨_, hc,
      ⟨_, _, _, _, _, hk, hn, hs, hv⟩ | ⟨_, _, _, _, hk, hn, hs, hv⟩⟩) | ⟨o, ho, hv⟩)
    · exact ⟨_, _, _, begun (.schema hk hn), hv⟩
    · exact ⟨_, _, _, distinct_of_jsonSchema? (hr found hf).content hs, hv⟩
    · exact ⟨_, _, _, begun (.requestBody hc hk hn hs), hv⟩
    · exact ⟨_, _, _, begun (.parameter hc hk hn hs), hv⟩
    · rcases (visit_mem_operationSteps ho).mp hv with ⟨_, _, _, hb, hs, hv⟩ | ⟨p, hp, hv⟩
      · exact ⟨_, _, _, begun (.payload ho hb hs), hv⟩
      · obtain ⟨_, place, hl, hb⟩ := hp.listed
        obtain ⟨q, s, hq, hs, hv⟩ := (visit_mem_parameterSteps hb).mp hv
        exact ⟨_, _, _, begun (.argument hp hl hb hq hs), hv⟩
  exact Schema.distinct_of_stepsAt distinct hv

-- The place of a schema among the components has one name.
theorem name_eq_of_componentSchemaSteps (hp : .visit p ∈ d.componentSchemaSteps)
    (hq : .visit q ∈ d.componentSchemaSteps) (pointer : p.pointer = q.pointer) : p.name = q.name := by
  have within {p : SchemaPosition} (h : .visit p ∈ d.componentSchemaSteps) :
      ∃ (key name : String) (s : Schema) (rest : List String), Naming.ofComponentKey key = .ok name ∧
        p.pointer = ofSegments ("components" :: "schemas" :: key :: rest) ∧ s.Within name rest p.name p.schema := by
    obtain ⟨key, name, s, -, hn, hv⟩ := visit_mem_componentSchemaSteps.mp h
    obtain ⟨rest, hp, within⟩ := Schema.within_of_visit hv
    exact ⟨key, name, s, rest, hn, hp, within⟩
  obtain ⟨key, name, s, rest, hn, at_p, below⟩ := within hp
  obtain ⟨key', name', s', rest', hn', at_q, below'⟩ := within hq
  obtain ⟨rfl, rfl⟩ : key = key' ∧ rest = rest' := by
    simpa using ofSegments_injective (at_p.symm.trans (pointer.trans at_q))
  obtain rfl : name = name' := Except.ok.inj (hn.symm.trans hn')
  exact below.name_eq below'

theorem componentSchemas_withSchemas (hp : schemas.Perm d.componentSchemas) :
    (d.withSchemas schemas).componentSchemas.Perm d.componentSchemas := by
  cases hc : d.components with
  | none => simp [componentSchemas, withSchemas, hc]
  | some c => simpa [componentSchemas, withSchemas, hc] using hp

theorem componentSchemaSteps_withSchemas (hp : schemas.Perm d.componentSchemas) :
    (d.withSchemas schemas).componentSchemaSteps.Perm d.componentSchemaSteps :=
  (componentSchemas_withSchemas hp).flatMap_right _

-- The steps after those at the schemas of the components stay.
theorem indexSteps_withSchemas (responses : ResponseIndex) (hd : d.Distinct) (hp : schemas.Perm d.componentSchemas) :
    ∃ later, d.indexSteps responses = d.componentSchemaSteps ++ later ∧
      (d.withSchemas schemas).indexSteps responses = (d.withSchemas schemas).componentSchemaSteps ++ later := by
  have components : (d.withSchemas schemas).components.toList.flatMap
      (fun c => componentRequestBodySteps c ++ componentParameterSteps c) =
        d.components.toList.flatMap fun c => componentRequestBodySteps c ++ componentParameterSteps c := by
    cases hc : d.components <;> simp [withSchemas, hc, componentRequestBodySteps, componentParameterSteps]
  have operations : (d.withSchemas schemas).operationSteps = d.operationSteps := by
    funext o
    simp only [operationSteps, operationParameters_withSchemas hd hp]
  refine ⟨_, by rw [indexSteps, List.append_assoc, List.append_assoc], ?_⟩
  rw [indexSteps, components, operations, List.append_assoc, List.append_assoc]
  rfl

theorem takeStep_withSchemas (hd : d.Distinct) (hp : schemas.Perm d.componentSchemas) :
    (d.withSchemas schemas).takeStep = d.takeStep := by
  funext m step
  cases step with
  | visit | fail => rfl
  | followSchema => simp only [takeStep, destination_withSchemas hd hp Reference.Target.ordered_schema]
  | followRequestBody => simp only [takeStep, destination_withSchemas hd hp Reference.Target.ordered_requestBody]
  | followParameter => simp only [takeStep, destination_withSchemas hd hp Reference.Target.ordered_parameter]

theorem schemaIndex_withSchemas (hd : d.Distinct) (hp : schemas.Perm d.componentSchemas) :
    (d.withSchemas schemas).schemaIndex responses =
      ((d.withSchemas schemas).indexSteps responses).foldlM d.takeStep {} := by
  rw [schemaIndex, takeStep_withSchemas hd hp]

theorem indexSteps_perm (responses : ResponseIndex) (hd : d.Distinct) (hp : schemas.Perm d.componentSchemas) :
    ((d.withSchemas schemas).indexSteps responses).Perm (d.indexSteps responses) := by
  obtain ⟨later, before, after⟩ := indexSteps_withSchemas responses hd hp
  rw [before, after]
  exact (componentSchemaSteps_withSchemas hp).append_right later

section

variable (hd : d.Distinct) (hr : responses.Distinct) (hp : schemas.Perm d.componentSchemas)
include hd hr hp

theorem schemaIndex_withSchemas_ok_iff : (∃ m, (d.withSchemas schemas).schemaIndex responses = .ok m) ↔
    ∃ m, d.schemaIndex responses = .ok m := by
  have perm := indexSteps_perm responses hd hp
  rw [schemaIndex_withSchemas hd hp, schemaIndex,
    takeSteps_ok_iff fun hv => distinct_of_indexSteps hd hr (perm.mem_iff.mp hv),
    takeSteps_ok_iff (distinct_of_indexSteps hd hr)]
  simp only [perm.mem_iff, Agree]

omit hr in
-- The schemas of the components come first. Whatever comes later has the last word, and it is the same.
theorem nameAt?_withSchemas (h : d.schemaIndex responses = .ok m)
    (h' : (d.withSchemas schemas).schemaIndex responses = .ok m') (pointer : String) :
    m.nameAt? pointer = m'.nameAt? pointer := by
  obtain ⟨later, before, after⟩ := indexSteps_withSchemas responses hd hp
  rw [schemaIndex, before] at h
  rw [schemaIndex_withSchemas hd hp, after] at h'
  have turns : (d.componentSchemaSteps.filterMap place?).Perm
      ((d.withSchemas schemas).componentSchemaSteps.filterMap place?) :=
    ((componentSchemaSteps_withSchemas hp).filterMap _).symm
  have first : (d.componentSchemaSteps.filterMap place?).reverse.lookup pointer =
      ((d.withSchemas schemas).componentSchemaSteps.filterMap place?).reverse.lookup pointer := by
    refine lookup_eq_of_perm ?_ ((List.reverse_perm _).trans (turns.trans (List.reverse_perm _).symm)) pointer
    intro pointer name name' hm hm'
    obtain ⟨p, hv, at_p, rfl⟩ := mem_places.mp (List.mem_reverse.mp hm)
    obtain ⟨q, hv', at_q, rfl⟩ := mem_places.mp (List.mem_reverse.mp hm')
    exact name_eq_of_componentSchemaSteps hv hv' (at_p.trans at_q.symm)
  simp only [SchemaIndex.nameAt?, positions_of_takeSteps h, positions_of_takeSteps h', List.filterMap_append,
    List.reverse_append, List.lookup_append, first]

theorem alike_withSchemas (h : d.schemaIndex responses = .ok m)
    (h' : (d.withSchemas schemas).schemaIndex responses = .ok m') : m.Alike m' := by
  have perm := indexSteps_perm responses hd hp
  have of : m.Of (d.indexSteps responses) := schemaIndex_of h
  have of' : m'.Of ((d.withSchemas schemas).indexSteps responses) := schemaIndex_of h'
  have agree : Agree (d.indexSteps responses) := of.agree (distinct_of_indexSteps hd hr)
  exact {
    names := of.names_perm of' perm
    entries := fun _ he _ he' => of.same_of_name of' perm agree he he'
    nameAt? := nameAt?_withSchemas hd hp h h' }

-- The order of the schemas decides neither whether there is an index nor what it says.
theorem schemaIndex_order : ((∃ m, d.schemaIndex responses = .ok m) ↔
      ∃ m, (d.withSchemas schemas).schemaIndex responses = .ok m) ∧
    ∀ m m', d.schemaIndex responses = .ok m → (d.withSchemas schemas).schemaIndex responses = .ok m' →
      m.Alike m' :=
  ⟨(schemaIndex_withSchemas_ok_iff hd hr hp).symm, fun _ _ => alike_withSchemas hd hr hp⟩

end

-- The pets, listed the other way round: the tag in a pet and the component `PetTag` say the same under one name, and
-- now the latter is found first.
theorem petStore_order : ∃ responses m m', PetStore.document.responseIndex = .ok responses ∧
    PetStore.document.schemaIndex responses = .ok m ∧
    (PetStore.document.withSchemas PetStore.document.componentSchemas.reverse).schemaIndex responses = .ok m' ∧
    (m.entries.map (·.origin)).head? = some "#/components/schemas/Pet" ∧
    (m'.entries.map (·.origin)).head? = some "#/components/schemas/PetTag" ∧ m.Alike m' := by
  have first : PetStore.document.named.toOption.map (fun n => (n.schemas.entries.map (·.origin)).head?) =
      some (some "#/components/schemas/Pet") := by decide +kernel
  have turned : (PetStore.document.withSchemas PetStore.document.componentSchemas.reverse).named.toOption.map
      (fun n => (n.schemas.entries.map (·.origin)).head?) =
      some (some "#/components/schemas/PetTag") := by decide +kernel
  obtain ⟨n, hn, first⟩ := exists_ok first
  obtain ⟨n', hn', turned⟩ := exists_ok turned
  have perm := List.reverse_perm PetStore.document.componentSchemas
  simp only [named, bind_eq_ok, pure_eq_ok, responseIndex_withSchemas PetStore.distinct perm] at hn hn'
  obtain ⟨responses, hr, m, hm, rfl⟩ := hn
  obtain ⟨_, hr', m', hm', rfl⟩ := hn'
  obtain rfl := Except.ok.inj (hr.symm.trans hr')
  have alike := (schemaIndex_order PetStore.distinct (responseIndex_distinct PetStore.distinct hr) perm).2 m m' hm hm'
  exact ⟨responses, m, m', hr, hm, hm', first, turned, alike⟩

end Document

end OpenApiClient
