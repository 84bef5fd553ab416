import Mathlib.Data.List.Nodup
import OpenApiClient.Proofs.Index.Names

/-!
When a place has two names. The walk comes to a place twice only if it is, or is in, a parameter that
operations of one path share; each of these operations names it after itself.
-/

namespace OpenApiClient

open Pointer

@[simp] theorem HttpMethod.key_ne_parameters (m : HttpMethod) : m.key ≠ "parameters" := by
  cases m <;> decide

@[simp] theorem HttpMethod.key_inj {m m' : HttpMethod} : m.key = m'.key ↔ m = m' := by
  cases m <;> cases m' <;> decide

theorem ParameterPlace.way_inj {a b : ParameterPlace} (h : a.way = b.way) : a = b := by
  cases a <;> cases b <;> simp_all [way]

-- The beginning of a way says which root it comes from, and the rest is the way below the root.
theorem Root.way_append_inj {r r' : Root} {a b : List String} (h : r.way ++ a = r'.way ++ b) :
    r = r' ∧ a = b := by
  have key (m : HttpMethod) : "parameters" ≠ m.key := m.key_ne_parameters.symm
  rcases r with _ | ⟨_ | _, _⟩ | _ | _ | _ | ⟨_ | _⟩ <;>
    rcases r' with _ | ⟨_ | _, _⟩ | _ | _ | _ | ⟨_ | _⟩ <;>
    simp [way, ResponsePlace.way, ParameterPlace.way, key] at h ⊢ <;>
    simp [h]

theorem OperationParameter.map_pointer_nameApart {taken : List String}
    {parameters : List OperationParameter} :
    (nameApart taken parameters).map (·.pointer) = parameters.map (·.pointer) := by
  induction parameters generalizing taken <;> simp_all [nameApart]

namespace Document

variable {d : Document} {o o' : OperationSite} {p p' : OperationParameter}

theorem pointers_of_parametersAt {base : List String} {parameters : List (RefOr Parameter)}
    {all : List OperationParameter} (h : d.parametersAt (ofSegments base) parameters = .ok all) :
    (all.map (·.pointer)).Nodup := by
  let pointer (i : Nat) : String := ofSegments base ++ "/parameters/" ++ toString i
  have pointer_inj : Function.Injective pointer := by
    intro i j h
    simpa [pointer] using h
  have pointers : all.map (·.pointer) = (parameters.zipIdx.map (·.2)).map pointer := by
    rw [List.map_map]
    refine map_of_mapM (fun {x y} h => ?_) h
    simp only [bind_eq_ok, pure_eq_ok] at h
    obtain ⟨_, _, rfl⟩ := h
    rfl
  rw [pointers, List.zipIdx_map_snd]
  exact List.Nodup.map pointer_inj List.nodup_range'

-- No two parameters of an operation are written in one place.
theorem pointers_nodup {parameters : List OperationParameter}
    (h : d.operationParameters o = .ok parameters) : (parameters.map (·.pointer)).Nodup := by
  simp only [operationParameters, OperationSite.pointer_eq, OperationSite.pathPointer_eq, bind_eq_ok,
    pure_eq_ok] at h
  obtain ⟨own, ho, shared, hs, rfl⟩ := h
  rw [OperationParameter.map_pointer_nameApart, List.map_append, List.nodup_append]
  refine ⟨(pointers_of_parametersAt hs).sublist (List.filter_sublist.map _),
    pointers_of_parametersAt ho, ?_⟩
  intro _ hp _ hq heq
  obtain ⟨p, hm, rfl⟩ := List.mem_map.mp hp
  obtain ⟨q, hm', rfl⟩ := List.mem_map.mp hq
  obtain ⟨_, i, _, hp⟩ := of_mem_parametersAt hs p (List.mem_filter.mp hm).1
  obtain ⟨_, j, _, hq⟩ := of_mem_parametersAt ho q hm'
  have := ofSegments_injective <| hp.symm.trans (heq.trans hq)
  simp at this

theorem Effective.eq (h : d.Effective o p) (h' : d.Effective o p') (hp : p.pointer = p'.pointer) :
    p = p' := by
  have ⟨_, all, ha, hm⟩ := h
  have ⟨_, _, ha', hm'⟩ := h'
  cases ha.symm.trans ha'
  exact List.inj_on_of_nodup_map (pointers_nodup ha) hm hm' hp

theorem item_eq (hd : d.Distinct) (ho : o ∈ d.operations) (ho' : o' ∈ d.operations)
    (path : o.path = o'.path) : o.item = o'.item :=
  hd.paths.distinct.value_unique (mem_operations.mp ho).1 (path ▸ (mem_operations.mp ho').1)

theorem operation_eq (hd : d.Distinct) (ho : o ∈ d.operations) (ho' : o' ∈ d.operations)
    (path : o.path = o'.path) (method : o.method = o'.method) : o = o' := by
  have item := item_eq hd ho ho' path
  have operation : o.operation = o'.operation := Option.some.inj <|
    (mem_operations.mp ho).2.symm.trans (item ▸ method ▸ (mem_operations.mp ho').2)
  cases o
  cases o'
  simp_all

-- What is written in one place is the same for all operations.
theorem Effective.source_eq (hd : d.Distinct) (h : d.Effective o p) (h' : d.Effective o' p')
    (hp : p'.pointer = p.pointer) : p'.source = p.source := by
  have ⟨_, place, hl, hw⟩ := h.listed
  have ⟨_, place', hl', hw'⟩ := h'.listed
  obtain rfl := ParameterPlace.way_inj (ofSegments_injective (hw'.symm.trans (hp.trans hw)))
  cases place' with
  | own =>
    simp only [OperationSite.lists_own] at hl hl'
    have same := operation_eq hd h.1 h'.1 (hl.1.trans hl'.1.symm) (hl.2.1.trans hl'.2.1.symm)
    exact Option.some.inj <| hl'.2.2.symm.trans (same ▸ hl.2.2)
  | shared =>
    simp only [OperationSite.lists_shared] at hl hl'
    have item := item_eq hd h.1 h'.1 (hl.1.trans hl'.1.symm)
    exact Option.some.inj <| hl'.2.symm.trans (item ▸ hl.2)

theorem HasResponse.name_eq (hd : d.Distinct) {place : ResponsePlace}
    {name name' : Except NamingError String} {r r' : Response} (h : d.HasResponse place name r)
    (h' : d.HasResponse place name' r') : name = name' := by
  generalize hp : place = place' at h'
  cases h <;> cases h'
  case component.component =>
    cases hp
    rfl
  case operation.operation ho _ _ _ ho' _ =>
    obtain ⟨path, method, rfl⟩ := ResponsePlace.operation.inj hp
    rw [operation_eq hd ho ho' path method]
  all_goals contradiction

theorem HasResponse.response_eq (hd : d.Distinct) {place : ResponsePlace}
    {name name' : Except NamingError String} {r r' : Response} (h : d.HasResponse place name r)
    (h' : d.HasResponse place name' r') : r = r' := by
  have same := (walk_of_hasResponse hd h).symm.trans (walk_of_hasResponse hd h')
  exact Node.response.inj (Except.ok.inj same)

-- The operations of a path agree on the names of the parameters that they share, as far as these have
-- schemas to be named.
def SharedNamesAgree (d : Document) : Prop :=
  ∀ ⦃path i o p o' p' q s⦄, d.Effective o p → d.Effective o' p' →
    p.pointer = ofSegments (ParameterPlace.shared path i).way → p'.pointer = p.pointer →
    p.source = .inline q → q.schema = some (.inline s) →
    Naming.parameterName o.stem p.localName = Naming.parameterName o'.stem p'.localName

-- What is listed in one place has one name, as far as the operations of a path agree.
theorem Effective.name_eq (hd : d.Distinct) (agree : d.SharedNamesAgree) (h : d.Effective o p)
    (h' : d.Effective o' p') {place : ParameterPlace} (hl : o.Lists place p.source)
    (hl' : o'.Lists place p'.source) (hb : p.pointer = ofSegments place.way)
    (hb' : p'.pointer = ofSegments place.way) {q : Parameter} {s : Schema}
    (hq : p.source = .inline q) (hs : q.schema = some (.inline s)) :
    Naming.parameterName o.stem p.localName = Naming.parameterName o'.stem p'.localName := by
  have same : p'.pointer = p.pointer := hb'.trans hb.symm
  cases place with
  | own =>
    have ⟨path, method, _⟩ := OperationSite.lists_own.mp hl
    have ⟨path', method', _⟩ := OperationSite.lists_own.mp hl'
    obtain rfl := operation_eq hd h.1 h'.1 (path.trans path'.symm) (method.trans method'.symm)
    rw [h.eq h' same.symm]
  | shared => exact agree h h' hb same hq hs

variable {responses : ResponseIndex}

-- One schema is written at a root, however often the walk begins there, and it begins with another name
-- only for another one of the operations that share a parameter.
theorem Begins.unique (hd : d.Distinct) {root : Root} {name name' : String} {s s' : Schema}
    (h : d.Begins responses root name s) (h' : d.Begins responses root name' s') :
    s = s' ∧ (d.SharedNamesAgree → name = name') := by
  generalize hr : root = root' at h'
  cases h with
  | schema hk hn =>
    cases h' with
    | schema hk' hn' =>
      cases hr
      obtain ⟨c, hc, hk⟩ := mem_componentSchemas.mp hk
      obtain ⟨c', hc', hk'⟩ := mem_componentSchemas.mp hk'
      obtain rfl := Option.some.inj (hc.symm.trans hc')
      exact ⟨RefOr.inline.inj ((hd.components c hc).schemas.distinct.value_unique hk hk'),
        fun _ => Except.ok.inj (hn.symm.trans hn')⟩
    | _ => contradiction
  | response _ hb _ hs =>
    cases h' with
    | response _ hb' _ hs' =>
      obtain ⟨rfl, rfl⟩ := Root.response.inj hr
      have named := hb.name_eq hd hb'
      rw [hb.response_eq hd hb', hs'] at hs
      cases hs
      exact ⟨rfl, fun _ => by rw [Except.ok.inj named]⟩
    | _ => contradiction
  | requestBody hc hk hn hs =>
    cases h' with
    | requestBody hc' hk' hn' hs' =>
      cases hr
      obtain rfl := Option.some.inj (hc.symm.trans hc')
      obtain rfl := RefOr.inline.inj ((hd.components _ hc).requestBodies.distinct.value_unique hk hk')
      cases hs.symm.trans hs'
      exact ⟨rfl, fun _ => by rw [Except.ok.inj (hn.symm.trans hn')]⟩
    | _ => contradiction
  | parameter hc hk hn hs =>
    cases h' with
    | parameter hc' hk' hn' hs' =>
      cases hr
      obtain rfl := Option.some.inj (hc.symm.trans hc')
      obtain rfl := RefOr.inline.inj ((hd.components _ hc).parameters.distinct.value_unique hk hk')
      cases hs.symm.trans hs'
      exact ⟨rfl, fun _ => by rw [Except.ok.inj (hn.symm.trans hn')]⟩
    | _ => contradiction
  | payload ho hb hs =>
    cases h' with
    | payload ho' hb' hs' =>
      obtain ⟨path, method, rfl⟩ := Root.payload.inj hr
      obtain rfl := operation_eq hd ho ho' path method
      cases hb.symm.trans hb'
      cases hs.symm.trans hs'
      exact ⟨rfl, fun _ => rfl⟩
    | _ => contradiction
  | argument hp hl hb hq hs =>
    cases h' with
    | argument hp' hl' hb' hq' hs' =>
      cases hr
      cases hq.symm.trans ((hp.source_eq hd hp' (hb'.trans hb.symm)).symm.trans hq')
      cases hs.symm.trans hs'
      exact ⟨rfl, fun agree => hp.name_eq hd agree hp' hl hl' hb hb' hq hs⟩
    | _ => contradiction

-- What is visited at a root is what the walk begins with there.
theorem Visits.begins {root : Root} {name : String} {s : Schema}
    (h : d.Visits responses root.way name s) : d.Begins responses root name s := by
  generalize hw : root.way = way at h
  cases h with
  | root begins =>
    obtain ⟨rfl, -⟩ := Root.way_append_inj (a := []) (b := []) (by simpa using hw)
    exact begins
  | below _ below =>
    have := Root.way_append_inj (a := []) (by simpa using hw)
    exact absurd this.2.symm below.ne_nil

theorem Visits.name_eq (hd : d.Distinct) (agree : d.SharedNamesAgree) {way way' : List String}
    {name name' : String} {s s' : Schema} (h : d.Visits responses way name s)
    (h' : d.Visits responses way' name' s') (hw : way = way') : name = name' := by
  cases h with
  | @root root _ _ begins =>
    cases h' with
    | root begins' =>
      have := Root.way_append_inj (a := []) (b := []) (by simpa using hw)
      obtain rfl := this.1
      exact (begins.unique hd begins').2 agree
    | below begins' below' =>
      have := Root.way_append_inj (a := []) (by simpa using hw)
      exact absurd this.2.symm below'.ne_nil
  | below begins below =>
    cases h' with
    | root begins' =>
      have := Root.way_append_inj (b := []) (by simpa using hw)
      exact absurd this.2 below.ne_nil
    | below begins' below' =>
      obtain ⟨rfl, rfl⟩ := Root.way_append_inj hw
      exact below.name_eq ((begins.unique hd begins').2 agree ▸ below')

-- One way to a place, as the walk sees it, is one pointer.
theorem Effective.visit (h : d.Effective o p) {responses : ResponseIndex}
    (hr : d.responseIndex = .ok responses) {q : Parameter} {s : Schema} (hq : p.source = .inline q)
    (hs : q.schema = some (.inline s)) : ∃ v, .visit v ∈ d.indexSteps responses ∧
      v.pointer = p.pointer ++ "/schema" ∧ v.name = Naming.parameterName o.stem p.localName := by
  have ⟨_, place, hl, hb⟩ := h.listed
  have ⟨_, hv⟩ := (Visits.root (.argument h hl hb hq hs)).step hr
  exact ⟨_, hv, by rw [hb, schema_pointer]; rfl, rfl⟩

variable {n : NamedDocument}

-- No place has two names, and each class is found where it comes from, exactly if operations agree on
-- what they share.
theorem one_name_iff (hd : d.Distinct) (h : d.named = .ok n) :
    ((∀ p q, .visit p ∈ d.indexSteps n.responses → .visit q ∈ d.indexSteps n.responses →
      p.pointer = q.pointer → p.name = q.name) ↔ d.SharedNamesAgree) ∧
    (d.SharedNamesAgree → ∀ e ∈ n.schemas.entries, n.schemas.nameAt? e.origin = some e.name) := by
  have ⟨_, hr, index⟩ := of_named h
  have one_name (agree : d.SharedNamesAgree) {p q : SchemaPosition}
      (hp : .visit p ∈ d.indexSteps n.responses) (hq : .visit q ∈ d.indexSteps n.responses)
      (hpq : p.pointer = q.pointer) : p.name = q.name := by
    have ⟨way, hw, vp⟩ := visits_of_step hr hp
    have ⟨way', hw', vq⟩ := visits_of_step hr hq
    exact vp.name_eq hd agree vq <| ofSegments_injective <| hw.symm.trans (hpq.trans hw')
  refine ⟨⟨fun one path i o p o' p' q s hp hp' hb same hq hs => ?_, fun agree p q => one_name agree⟩,
    fun agree e he => ?_⟩
  · have source := hp.source_eq hd hp' same
    have ⟨v, hv, pointer, name⟩ := hp.visit hr hq hs
    have ⟨v', hv', pointer', name'⟩ := hp'.visit hr (source.trans hq) hs
    rw [← name, ← name']
    exact one v v' hv hv' (by rw [pointer, pointer', same])
  · have ⟨p, hp, _, hf⟩ := index.visit_of_entry e he
    have ⟨name, hn⟩ := index.nameAt?_of_visit hp
    have ⟨q, hq, hpq, hqn⟩ := index.visit_of_nameAt? hn
    rw [hf, show p.found.origin = p.pointer from rfl, hn, ← hqn]
    exact congrArg some (one_name agree hq hp hpq)

theorem petStore_one_name : ∃ n, PetStore.document.named = .ok n ∧
    PetStore.document.SharedNamesAgree ∧
    ∀ e ∈ n.schemas.entries, n.schemas.nameAt? e.origin = some e.name := by
  have once : (PetStore.document.named.toOption.map fun n => decide (∀ x ∈ n.schemas.positions,
      ∀ y ∈ n.schemas.positions, x.1 = y.1 → x.2 = y.2)) = some true := by decide +kernel
  have ⟨n, hn, once⟩ := exists_ok once
  have once := of_decide_eq_true once
  have ⟨iff, found⟩ := one_name_iff PetStore.distinct hn
  have agree := iff.mp fun p q hp hq hpq =>
    have index := (of_named hn).2.2
    once (p.pointer, p.name) (index.positions.mpr ⟨p, hp, rfl, rfl⟩)
      (q.pointer, q.name) (index.positions.mpr ⟨q, hq, rfl, rfl⟩) hpq
  exact ⟨n, hn, agree, found agree⟩

-- A parameter that two operations share, so that each of them gives a name to its schema.
def twoNames : Document where
  openapi := "3.1.0"
  info := { title := "T", version := "1" }
  paths := [("/a", {
    parameters := [.inline {
      name := "x"
      location := .query
      schema := some (.inline {
        typeKeyword := some (.single .string)
        enumValues := [.string "p", .string "q"] }) }]
    get := some {}
    post := some {} })]

theorem not_one_name : ∃ n, twoNames.named = .ok n ∧
    (∃ p q, .visit p ∈ twoNames.indexSteps n.responses ∧ .visit q ∈ twoNames.indexSteps n.responses ∧
      p.pointer = q.pointer ∧ p.name = "GetAXParameter" ∧ q.name = "PostAXParameter") ∧
    ∃ e ∈ n.schemas.entries, e.name = "GetAXParameter" ∧
      n.schemas.nameAt? e.origin = some "PostAXParameter" := by
  have index : twoNames.named.toOption.map
      (fun n => (n.schemas.positions, n.schemas.entries.map fun e => (e.name, e.origin))) = some (
        [("#/paths/~1a/parameters/0/schema", "PostAXParameter"),
          ("#/paths/~1a/parameters/0/schema", "GetAXParameter")],
        [("GetAXParameter", "#/paths/~1a/parameters/0/schema"),
          ("PostAXParameter", "#/paths/~1a/parameters/0/schema")]) := by decide +kernel
  have ⟨n, hn, index⟩ := exists_ok index
  have ⟨positions, entries⟩ := Prod.mk.inj index
  have index := (of_named hn).2.2
  have get : ("#/paths/~1a/parameters/0/schema", "GetAXParameter") ∈ n.schemas.positions := by
    simp [positions]
  have post : ("#/paths/~1a/parameters/0/schema", "PostAXParameter") ∈ n.schemas.positions := by
    simp [positions]
  have ⟨p, hp, pp, np⟩ := index.positions.mp get
  have ⟨q, hq, pq, nq⟩ := index.positions.mp post
  have ⟨e, he, ne⟩ : ∃ e ∈ n.schemas.entries,
      (e.name, e.origin) = ("GetAXParameter", "#/paths/~1a/parameters/0/schema") :=
    List.mem_map.mp (by simp [entries])
  have ⟨name, origin⟩ := Prod.mk.inj ne
  have found : n.schemas.nameAt? e.origin = some "PostAXParameter" := by
    rw [origin, SchemaIndex.nameAt?, positions]
    decide
  exact ⟨n, hn, ⟨p, q, hp, hq, pp.trans pq.symm, np, nq⟩, e, he, name, found⟩

end Document

end OpenApiClient
