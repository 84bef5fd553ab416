import OpenApiClient.Proofs.Client.Classes
import OpenApiClient.Proofs.Index.OneName

/-!
The classes that the arguments of an operation mention. A parameter that is written in an operation or
its path is only looked at where it has effect, but a reference leads to it wherever it is.
-/

namespace OpenApiClient

open Pointer

namespace Document

-- The walk looks at the schema of the parameter in this place.
inductive Discovers (d : Document) : String → Prop
  | component {c key q} : d.components = some c → (key, .inline q) ∈ c.parameters →
    Discovers d (ofSegments ["components", "parameters", key])
  | effective {o p q} : d.Effective o p → p.source = .inline q → Discovers d p.pointer

variable {d : Document} {n : NamedDocument} {o : OperationSite} {p : OperationParameter}
  {s : Schema} {position : String}

-- A parameter that has effect where it is written has the name of one of the operations that it is for.
theorem named_of_effective (hd : d.Distinct) (h : d.named = .ok n) (hp : d.Effective o p)
    {q : Parameter} (hq : p.source = .inline q) (hs : q.schema = some (.inline s)) :
    ∃ name, n.schemas.nameAt? (p.pointer ++ "/schema") = some name ∧
      d.Named n.responses name s := by
  have ⟨_, hr, index⟩ := of_named h
  have ⟨v, hv, pointer, _⟩ := hp.visit hr hq hs
  have ⟨name, hn⟩ := index.nameAt?_of_visit hv
  rw [pointer] at hn
  have ⟨_, place, hl, hb⟩ := hp.listed
  obtain ⟨v', hv', pointer', rfl⟩ := index.visit_of_nameAt? hn
  have ⟨way, hway, visits⟩ := visits_of_step hr hv'
  rw [hb, schema_pointer] at pointer'
  obtain rfl := ofSegments_injective (hway.symm.trans pointer')
  have begins : d.Begins n.responses (.argument place) v'.name v'.schema := Visits.begins visits
  exact ⟨_, hn, _, (begins.unique hd (.argument hp hl hb hq hs)).1 ▸ visits⟩

theorem Begins.discovers {responses : ResponseIndex} {place : ParameterPlace} {name : String}
    (h : d.Begins responses (.argument place) name s) : d.Discovers (ofSegments place.way) := by
  cases h with
  | argument hp _ hb hq => exact hb ▸ .effective hp hq

theorem discovers_of_visits {responses : ResponseIndex} {way : List String} {q : Parameter}
    {name : String} (hw : (Node.document d).walk way = .ok (.parameter q))
    (hv : d.Visits responses (way ++ ["schema"]) name s) : d.Discovers (ofSegments way) := by
  obtain ⟨root, name, s, begins, rest, hway⟩ : ∃ root name s, d.Begins responses root name s ∧
      ∃ rest, root.way ++ rest = way ++ ["schema"] := by
    generalize hway : way ++ ["schema"] = whole at hv
    cases hv with
    | root begins => exact ⟨_, _, _, begins, [], List.append_nil _⟩
    | below begins => exact ⟨_, _, _, begins, _, rfl⟩
  have parameters (m : HttpMethod) : "parameters" ≠ m.key := m.key_ne_parameters.symm
  rcases walk_parameter hw with ⟨c, key, hc, hk, rfl⟩ | ⟨o, ho, segment, i, _, _, rfl⟩ |
      ⟨path, item, segment, i, _, _, _, rfl⟩
  case inl => exact .component hc hk
  -- Of all roots only a parameter of the same list is on the way.
  all_goals
    rcases root with _ | ⟨_ | _, _⟩ | _ | _ | _ | ⟨_ | _⟩ <;>
      simp [Root.way, ResponsePlace.way, ParameterPlace.way, parameters] at hway
  all_goals
    have found := begins.discovers
    simpa [ParameterPlace.way, hway] using found

theorem nameAt?_of_discovers {way : List String} {q : Parameter} (hd : d.Distinct)
    (h : d.named = .ok n) (hw : (Node.document d).walk way = .ok (.parameter q))
    (hs : q.schema = some (.inline s)) (discovers : d.Discovers (ofSegments way)) :
    ∃ name, n.schemas.nameAt? (ofSegments (way ++ ["schema"])) = some name := by
  have ⟨_, hr, index⟩ := of_named h
  generalize hway : ofSegments way = position at discovers
  cases discovers with
  | component =>
    obtain rfl := ofSegments_injective hway
    rcases walk_parameter hw with ⟨c, key, hc, hk, same⟩ | ⟨_, _, _, _, _, _, other⟩ |
      ⟨_, _, _, _, _, _, _, other⟩
    case inl =>
      have ⟨_, hn⟩ := name_of_parameter h hc hk hs
      have ⟨_, hv⟩ := (Visits.root (.parameter hc hk hn hs)).step hr
      exact same ▸ index.nameAt?_of_visit hv
    all_goals simp at other
  | effective hp hq =>
    have ⟨_, place, hl, hb⟩ := hp.listed
    obtain rfl := ofSegments_injective (hway.trans hb)
    cases Node.Reaches.parameter hd hp.1 (hq ▸ hl) _ hw
    have ⟨_, hv, pointer, _⟩ := hp.visit hr hq hs
    rw [← schema_pointer, hway, ← pointer]
    exact index.nameAt?_of_visit hv

-- A parameter in effect stands where it is written, or where its reference leads.
theorem Effective.stands (h : n.document.Effective o p)
    (hs : n.standsAt .parameter p.pointer p.source = .ok position) :
    (p.source = .inline p.parameter ∧ position = p.pointer) ∨
      ∃ way, position = ofSegments way ∧
        (Node.document n.document).walk way = .ok (.parameter p.parameter) := by
  have parameter := h.listed.1
  cases hsource : p.source with
  | inline =>
    rw [hsource] at hs parameter
    cases hs
    cases parameter
    exact .inl ⟨rfl, rfl⟩
  | ref =>
    rw [hsource] at hs parameter
    obtain ⟨way, node, rfl, hw, pick⟩ := NamedDocument.walk_of_standsAt hs parameter
    cases node <;> cases pick
    exact .inr ⟨way, rfl, hw⟩

-- If the index has a name for what is written in a parameter in effect, then this was visited under it,
theorem named_of_argument {name : String} (hd : d.Distinct) (h : d.named = .ok n)
    (hp : d.Effective o p) (hs : n.standsAt .parameter p.pointer p.source = .ok position)
    (hschema : p.parameter.schema = some (.inline s))
    (hn : n.schemas.nameAt? (position ++ "/schema") = some name) : d.Named n.responses name s := by
  obtain rfl := (of_named h).1
  rcases hp.stands hs with ⟨hsource, rfl⟩ | ⟨way, rfl, hw⟩
  case inl =>
    have ⟨_, hn', named⟩ := named_of_effective hd h hp hsource hschema
    exact Option.some.inj (hn'.symm.trans hn) ▸ named
  case inr =>
    rw [schema_pointer] at hn
    refine named_of_nameAt? hd h hn <| (Node.walk_append_of hw).trans ?_
    simp [hschema]

-- and it has one exactly for those parameters that the walk discovers.
theorem discovers_iff (hd : d.Distinct) (h : d.named = .ok n) (hp : d.Effective o p)
    (hs : n.standsAt .parameter p.pointer p.source = .ok position)
    (hschema : p.parameter.schema = some (.inline s)) :
    d.Discovers position ↔ ∃ name, n.schemas.nameAt? (position ++ "/schema") = some name := by
  have ⟨_, hr, index⟩ := of_named h
  obtain rfl := (of_named h).1
  rcases hp.stands hs with ⟨hsource, rfl⟩ | ⟨way, rfl, hw⟩
  case inl =>
    have ⟨name, hn, _⟩ := named_of_effective hd h hp hsource hschema
    exact ⟨fun _ => ⟨name, hn⟩, fun _ => .effective hp hsource⟩
  case inr =>
    rw [schema_pointer]
    refine ⟨nameAt?_of_discovers hd h hw hschema, fun ⟨_, hn⟩ => ?_⟩
    obtain ⟨_, hv, pointer, -⟩ := index.visit_of_nameAt? hn
    have ⟨_, hway, visits⟩ := visits_of_step hr hv
    obtain rfl := ofSegments_injective (hway.symm.trans pointer)
    exact discovers_of_visits hw visits

end Document

namespace NamedDocument

-- All that hints mention is there.
def Declares (entities : List Entity) (hints : Hints) : Prop :=
  ∀ cls, Hints.Mention hints cls → ∃ e ∈ entities, e.name = cls

-- The walk discovers each parameter in effect, or what is written in it is declared by chance.
def ArgumentsFound (n : NamedDocument) (entities : List Entity) : Prop :=
  ∀ ⦃o p position⦄, n.document.Effective o p →
    n.standsAt .parameter p.pointer p.source = .ok position → n.document.Discovers position ∨
      ∀ place ∈ p.parameter.schema, ∀ cls source,
        Schema.Writes (Naming.parameterName o.stem p.localName) place cls source →
        ∃ e ∈ entities, e.name = cls

variable {n : NamedDocument} {o : OperationSite} {p : OperationParameter}

theorem hintsAt_of_argument {stem : String} {a : Argument} (h : n.argument stem p = .ok a) :
    ∃ position, n.standsAt .parameter p.pointer p.source = .ok position ∧
      n.hintsAt .typed ((n.schemas.nameAt? (position ++ "/schema")).getD
        (Naming.parameterName stem p.localName)) p.parameter.schema = .ok a.hints := by
  simp only [argument, bind_eq_ok, pure_eq_ok] at h
  obtain ⟨position, hp, hints, hh, rfl⟩ := h
  exact ⟨position, hp, hh⟩

end NamedDocument

namespace Document

open NamedDocument

variable {d : Document} {n : NamedDocument} {o : OperationSite} {p : OperationParameter}
  {entities : List Entity} {name cls target : String} {source : Schema}

-- What a reference makes was visited, and is declared.
theorem entity_of_reference (hd : d.Distinct) (h : d.named = .ok n) (he : n.entities = .ok entities)
    (hm : Schema.Makes (d.Leads n.schemas) name (.ref target) cls source) :
    ∃ e ∈ entities, e.name = cls := by
  have named := named_of_makes hd h hm RefOr.only_ref
  have ⟨e, hm, name, _⟩ := entity_of_named hd h he named hm.hasClass
  exact ⟨e, hm, name⟩

-- An argument mentions what is not there exactly if the walk has not been to its parameter, and nothing
-- else has given the name away that is made up for it.
theorem declares_argument_iff {position : String} {a : Argument} (hd : d.Distinct)
    (h : d.named = .ok n) (he : n.entities = .ok entities) (hp : d.Effective o p)
    (hs : n.standsAt .parameter p.pointer p.source = .ok position)
    (ha : n.argument o.stem p = .ok a) : Declares entities a.hints ↔
      d.Discovers position ∨ ∀ place ∈ p.parameter.schema, ∀ cls source,
        Schema.Writes (Naming.parameterName o.stem p.localName) place cls source →
        ∃ e ∈ entities, e.name = cls := by
  obtain ⟨_, hs', hh⟩ := hintsAt_of_argument ha
  cases hs.symm.trans hs'
  constructor
  · intro declares
    by_cases discovers : d.Discovers position
    case pos => exact .inl discovers
    case neg =>
      refine .inr fun place hplace cls source hw => declares cls ?_
      cases place with
      | ref => cases hw; contradiction
      | inline s =>
        have unnamed : n.schemas.nameAt? (position ++ "/schema") = none :=
          Option.eq_none_iff_forall_ne_some.mpr fun name hn =>
            discovers <| (discovers_iff hd h hp hs hplace).mpr ⟨name, hn⟩
        rw [unnamed, Option.mem_def.mp hplace] at hh
        exact hw.mention hh
  · intro found cls hm
    obtain rfl := (of_named h).1
    have ⟨place, hplace, source, makes⟩ := makes_of_hintsAt hh hm
    rcases makes.cases_ref with hw | ⟨_, _, hr⟩
    case inr => exact entity_of_reference hd h he hr
    cases place with
    | ref => cases hw; contradiction
    | inline s =>
      have iff := discovers_iff hd h hp hs hplace
      cases hn : n.schemas.nameAt? (position ++ "/schema")
      case some name =>
        rw [hn] at makes
        have named := named_of_argument hd h hp hs hplace hn
        have named := named_of_makes hd h makes (RefOr.only_inline.mpr named)
        have ⟨e, he, name, _⟩ := entity_of_named hd h he named makes.hasClass
        exact ⟨e, he, name⟩
      case none =>
        rw [hn] at hw
        cases found
        case inl discovers => simpa [hn] using iff.mp discovers
        case inr declares => exact declares _ hplace _ _ hw

-- Arguments mention only classes that are there exactly if each parameter in effect was discovered, or
-- has nothing in it that would be missed.
theorem declares_arguments_iff {rootNamespace : String} {c : Client} (hd : d.Distinct)
    (hc : d.client rootNamespace = .ok c) : ∃ n, d.named = .ok n ∧
      ((∀ e ∈ c.endpoints, ∀ a ∈ e.arguments, Declares c.entities a.hints) ↔
        n.ArgumentsFound c.entities) := by
  simp only [client, bind_eq_ok, pure_eq_ok] at hc
  obtain ⟨n, h, entities, he, _, _, endpoints, hs, _, _, rfl⟩ := hc
  obtain rfl := (of_named h).1
  refine ⟨n, h, fun declares o p position hp hposition => ?_, fun found e hm a ha => ?_⟩
  · have effective := hp
    obtain ⟨ho, parameters, hparameters, hmem⟩ := hp
    obtain ⟨e, hm, hendpoint⟩ := mem_mapM hs o ho
    obtain ⟨parameters', hparameters', harguments⟩ := (offers_of_endpoint hendpoint).arguments
    cases hparameters.symm.trans hparameters'
    obtain ⟨a, hm', ha⟩ := mem_mapM harguments p hmem
    exact (declares_argument_iff hd h he effective hposition ha).mp (declares e hm a hm')
  · obtain ⟨o, ho, hendpoint⟩ := mem_of_mapM hs e hm
    obtain ⟨parameters, hparameters, harguments⟩ := (offers_of_endpoint hendpoint).arguments
    obtain ⟨p, hmem, ha⟩ := mem_of_mapM harguments a ha
    have hp : n.document.Effective o p := ⟨ho, parameters, hparameters, hmem⟩
    obtain ⟨position, hposition, _⟩ := hintsAt_of_argument ha
    exact (declares_argument_iff hd h he hp hposition ha).mpr (found hp hposition)

theorem petStore_arguments : ∃ n c, PetStore.document.named = .ok n ∧
    PetStore.document.client Client.defaultNamespace = .ok c ∧ n.ArgumentsFound c.entities ∧
    c.endpoints.map (·.arguments.map (·.hints)) =
      [[[.model "ListPetsOrderParameter"]], [[.basic .mixed]]] := by
  have outcome : (PetStore.document.client Client.defaultNamespace).toOption.map
      (fun c => (c.endpoints.map (·.arguments.map (·.hints)), c.entities.map (·.name))) = some (
        [[[.model "ListPetsOrderParameter"]], [[.basic .mixed]]],
        ["Pet", "PetTag", "ListPetsOrderParameter", "AddPetRequestBody", "AddPetRequestBodyNote"]) := by
    decide +kernel
  have ⟨c, hc, outcome⟩ := exists_ok outcome
  have ⟨arguments, names⟩ := Prod.mk.inj outcome
  have ⟨n, hn, iff⟩ := declares_arguments_iff PetStore.distinct hc
  refine ⟨n, c, hn, hc, iff.mp fun e he a ha cls hm => ?_, arguments⟩
  have hints : a.hints ∈ (c.endpoints.map (·.arguments.map (·.hints))).flatten :=
    List.mem_flatten.mpr ⟨_, List.mem_map.mpr ⟨e, he, rfl⟩, List.mem_map.mpr ⟨a, ha, rfl⟩⟩
  have cls_eq : cls = "ListPetsOrderParameter" := by
    simp only [arguments, List.flatten_cons, List.flatten_nil, List.append_nil, List.singleton_append,
      List.mem_cons, List.not_mem_nil, or_false] at hints
    rcases hints with hints | hints
    · simpa [hints] using hm
    · simp [hints] at hm
  exact List.mem_map.mp (by simp [names, cls_eq])

-- An operation refers to the parameter of its path that this reference replaces.
def replaced : Document where
  openapi := "3.1.0"
  info := { title := "T", version := "1" }
  paths := [("/a", {
    parameters := [.inline {
      name := "x"
      location := .query
      schema := some (.inline {
        typeKeyword := some (.single .string)
        enumValues := [.string "p", .string "q"] }) }]
    get := some { parameters := [.ref "#/paths/~1a/parameters/0"] } })]

theorem not_declares_arguments : ∃ c, replaced.client Client.defaultNamespace = .ok c ∧
    (∃ e ∈ c.endpoints, ∃ a ∈ e.arguments, Hints.Mention a.hints "GetAXParameter") ∧
    ∀ e ∈ c.entities, e.name ≠ "GetAXParameter" := by
  have outcome : (replaced.client Client.defaultNamespace).toOption.map
      (fun c => (c.endpoints.map (·.arguments.map (·.hints)), c.entities.map (·.name))) =
        some ([[[.model "GetAXParameter"]]], []) := by decide +kernel
  have ⟨c, hc, outcome⟩ := exists_ok outcome
  have ⟨arguments, names⟩ := Prod.mk.inj outcome
  have ⟨e, he, ha⟩ : ∃ e ∈ c.endpoints, e.arguments.map (·.hints) = [[.model "GetAXParameter"]] :=
    List.mem_map.mp (by simp [arguments])
  have ⟨a, hm, hints⟩ : ∃ a ∈ e.arguments, a.hints = [.model "GetAXParameter"] :=
    List.mem_map.mp (by simp [ha])
  refine ⟨c, hc, ⟨e, he, a, hm, by simp [hints]⟩, fun e he => ?_⟩
  rw [List.map_eq_nil_iff] at names
  simp [names] at he

end Document

end OpenApiClient
