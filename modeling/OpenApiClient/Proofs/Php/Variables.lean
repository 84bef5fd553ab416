import OpenApiClient.Php.Method
import OpenApiClient.Php.Model
import OpenApiClient.Proofs.Client.LocalNames

/-!
The variables that a method or a constructor takes. Names that differ make variables that differ, except for `this`,
whose variable another name may have; and the last variable of all is called without regard to those before it.
-/

namespace OpenApiClient

namespace Php

section

variable {names : List String} {name : String}

theorem variableNames_nodup_iff :
    (names.map variableName).Nodup ↔ names.Nodup ∧ ¬ ("this" ∈ names ∧ "thisValue" ∈ names) := by
  constructor
  · intro h
    have nodup := h.of_map
    refine ⟨nodup, fun ⟨this, value⟩ => ?_⟩
    have same := List.inj_on_of_nodup_map h this value (by decide)
    contradiction
  · rintro ⟨nodup, apart⟩
    refine (Naming.nodup_map_ite_iff nodup ?_ ?_).mpr ?_
    · rintro _ _ rfl rfl _
      rfl
    · rintro _ rfl
      decide
    · rintro _ this rfl value
      exact apart ⟨this, value⟩

example : ["this", "thisValue"].map variableName = ["thisValue", "thisValue"] := by decide +kernel

theorem mem_variableNames (not_this : name ≠ "this") (not_value : name ≠ "thisValue") :
    name ∈ names.map variableName ↔ name ∈ names := by
  have variableName_eq (other : String) : variableName other = name ↔ other = name := by
    unfold variableName
    grind
  simp [variableName_eq]

-- Variables for names, with one more behind them if there is anything that it is for.
theorem variables_nodup_iff {α : Type} {last : Option α} (not_this : name ≠ "this") (not_value : name ≠ "thisValue") :
    (names.map variableName ++ last.toList.map fun _ => name).Nodup ↔
      names.Nodup ∧ ¬ ("this" ∈ names ∧ "thisValue" ∈ names) ∧ (last.isSome → name ∉ names) := by
  rw [← and_assoc, ← variableNames_nodup_iff]
  cases last with
  | none => simp
  | some =>
    rw [Option.toList_some, List.map_singleton, List.nodup_append_comm, List.singleton_append, List.nodup_cons,
      mem_variableNames not_this not_value]
    simp [and_comm]

end

def methodVariables (root : String) (e : Endpoint) : List String :=
  (methodParameters root e).map (·.name)

-- The constructor of an object takes what its properties are called, and the values that are not named.
def constructorVariables (root : String) (e : Entity) : List String :=
  (modelFields root e).map (·.name) ++ e.additional.toList.map fun _ => "additionalProperties"

-- What is required comes first, whatever the order of the document.
theorem methodVariables_perm (root : String) (e : Endpoint) : (methodVariables root e).Perm <|
    (e.arguments.map (·.name.camel)).map variableName ++ e.payload.toList.map fun _ => payloadVariable := by
  refine ((List.filter_append_perm _ _).map _).trans (.of_eq ?_)
  simp [MethodParameter.ofHints, Function.comp_def]

theorem constructorVariables_perm (root : String) (e : Entity) : (constructorVariables root e).Perm <|
    (e.properties.map (·.name.camel)).map variableName ++ e.additional.toList.map fun _ => "additionalProperties" := by
  refine (((List.filter_append_perm _ _).map _).trans (.of_eq ?_)).append_right _
  simp [ModelField.ofProperty]

end Php

namespace Document

open Php

variable {d : Document} {c : Client} {rootNamespace : String}

-- The variables of a method differ, unless it has arguments for both names that make one variable, or one that is
-- called like the body.
theorem methodVariables_nodup_iff (hc : d.client rootNamespace = .ok c) : ∀ e ∈ c.endpoints,
    (methodVariables c.rootNamespace e).Nodup ↔
      ¬ ("this" ∈ e.arguments.map (·.name.camel) ∧ "thisValue" ∈ e.arguments.map (·.name.camel)) ∧
      (e.payload.isSome → "requestBody" ∉ e.arguments.map (·.name.camel)) := by
  intro e he
  have apart := (methodVariables_perm c.rootNamespace e).nodup_iff.trans
    (variables_nodup_iff (by decide) (by decide))
  rwa [and_iff_right (camels_nodup hc e he)] at apart

end Document

namespace Form

def parameter (key : String) : RefOr Parameter :=
  .inline { name := key, location := .query, schema := some (.inline { typeKeyword := some (.single .string) }) }

def body : RequestBody where
  content := [("application/json", { schema := some (.inline { typeKeyword := some (.single .object) }) })]

-- A form that is shown with some parameters, and sent with a body and others.
def document (shown sent : List String) : Document where
  openapi := "3.1.0"
  info := { title := "Form", version := "1" }
  paths := [("/form", {
    get := some { parameters := shown.map parameter }
    post := some { parameters := sent.map parameter, requestBody := some (.inline body) } })]

end Form

namespace Document

open Php

theorem form_methodVariables : ∃ c,
    (Form.document ["this", "request-body"] ["this", "value"]).client Client.defaultNamespace = .ok c ∧
    c.endpoints.map (methodVariables c.rootNamespace) =
      [["thisValue", "requestBody"], ["thisValue", "value", "requestBody"]] ∧
    ∀ e ∈ c.endpoints, (methodVariables c.rootNamespace e).Nodup := by
  have built : ((Form.document ["this", "request-body"] ["this", "value"]).client
      Client.defaultNamespace).toOption.map (fun c => (c.endpoints.map (methodVariables c.rootNamespace),
        c.endpoints.map fun e => (e.arguments.map (·.name.camel), e.payload.isSome))) =
          some ([["thisValue", "requestBody"], ["thisValue", "value", "requestBody"]],
            [(["this", "requestBody"], false), (["this", "value"], true)]) := by decide +kernel
  obtain ⟨c, hc, built⟩ := exists_ok built
  obtain ⟨variable_names, names⟩ := Prod.mk.inj built
  refine ⟨c, hc, variable_names, fun e he => (methodVariables_nodup_iff hc e he).mpr ?_⟩
  have : (e.arguments.map (·.name.camel), e.payload.isSome) ∈
      [(["this", "requestBody"], false), (["this", "value"], true)] := names ▸ List.mem_map_of_mem he
  generalize e.arguments.map (·.name.camel) = camels, e.payload.isSome = payload at this ⊢
  simp only [List.mem_cons, List.not_mem_nil, or_false, Prod.mk.injEq] at this
  obtain ⟨rfl, rfl⟩ | ⟨rfl, rfl⟩ := this
  all_goals decide

-- Two parameters make one variable in the one method, and a parameter makes that of the body in the other.
theorem not_methodVariables_nodup : ∃ c,
    (Form.document ["this", "this-value"] ["request-body"]).client Client.defaultNamespace = .ok c ∧
    c.endpoints.map (methodVariables c.rootNamespace) = [["thisValue", "thisValue"], ["requestBody", "requestBody"]] ∧
    ∀ e ∈ c.endpoints, ¬ (methodVariables c.rootNamespace e).Nodup := by
  have built : ((Form.document ["this", "this-value"] ["request-body"]).client Client.defaultNamespace).toOption.map
      (fun c => c.endpoints.map (methodVariables c.rootNamespace)) =
        some [["thisValue", "thisValue"], ["requestBody", "requestBody"]] := by decide +kernel
  obtain ⟨c, hc, built⟩ := exists_ok built
  refine ⟨c, hc, built, fun e he => ?_⟩
  have repeated : ∀ names ∈ [["thisValue", "thisValue"], ["requestBody", "requestBody"]], ¬ names.Nodup := by
    decide
  exact repeated _ (built ▸ List.mem_map_of_mem he)

variable {d : Document} {c : Client} {rootNamespace : String}

-- The variables of a constructor differ, unless two keys are one in camel case, or there are properties for both names
-- that make one variable, or one that is called like the values that are not named.
theorem constructorVariables_nodup_iff (hc : d.client rootNamespace = .ok c) : ∀ e ∈ c.entities,
    (constructorVariables c.rootNamespace e).Nodup ↔
      (∀ p ∈ e.properties, ∀ q ∈ e.properties, p.name.camel = q.name.camel → p.name.written = q.name.written) ∧
      ¬ ("this" ∈ e.properties.map (·.name.camel) ∧ "thisValue" ∈ e.properties.map (·.name.camel)) ∧
      (e.additional.isSome → "additionalProperties" ∉ e.properties.map (·.name.camel)) := by
  intro e he
  have keys := keys_nodup hc e he
  have apart := (constructorVariables_perm c.rootNamespace e).nodup_iff.trans
    (variables_nodup_iff (by decide) (by decide))
  rw [apart, List.nodup_map_iff_inj_on keys.of_map]
  refine and_congr_left' ⟨fun inj p hp q hq same => inj p hp q hq same ▸ rfl, fun inj p hp q hq same => ?_⟩
  exact List.inj_on_of_nodup_map keys hp hq (inj p hp q hq same)

end Document

namespace Record

def property (key : String) : String × SchemaRef :=
  (key, .inline { typeKeyword := some (.single .string) })

-- An object with some properties by way of a member and some of its own. Its other values are strings.
def schema (inherited own : List String) : Schema where
  allOf := [.inline { properties := inherited.map property }]
  properties := own.map property
  additionalProperties := some (.schema (.inline { typeKeyword := some (.single .string) }))

def document (schemas : List (String × Schema)) : Document where
  openapi := "3.1.0"
  info := { title := "Record", version := "1" }
  components := some { schemas := schemas.map fun (name, s) => (name, .inline s) }

def apart : Document := document [("Record", schema ["record-id"] ["this", "value"])]

def clashing : Document := document [("Folded", schema ["record-id"] ["recordId"]),
  ("Renamed", schema ["this"] ["this-value"]), ("Other", schema [] ["additional_properties"])]

end Record

namespace Document

open Php

theorem record_constructorVariables : ∃ c e, Record.apart.client Client.defaultNamespace = .ok c ∧ c.entities = [e] ∧
    constructorVariables c.rootNamespace e = ["recordId", "thisValue", "value", "additionalProperties"] ∧
    (constructorVariables c.rootNamespace e).Nodup := by
  have built : (Record.apart.client Client.defaultNamespace).toOption.map (fun c => c.entities.map fun e =>
      (constructorVariables c.rootNamespace e, e.properties.map fun p => (p.name.written, p.name.camel))) =
        some [(["recordId", "thisValue", "value", "additionalProperties"],
          [("record-id", "recordId"), ("this", "this"), ("value", "value")])] := by decide +kernel
  obtain ⟨c, hc, built⟩ := exists_ok built
  obtain ⟨e, entities, built⟩ := List.map_eq_singleton_iff.mp built
  obtain ⟨variable_names, names⟩ := Prod.mk.inj built
  have camels : e.properties.map (·.name.camel) = ["recordId", "this", "value"] := by
    simpa [Function.comp_def] using congrArg (·.map (·.2)) names
  have keys : ∀ p ∈ [("record-id", "recordId"), ("this", "this"), ("value", "value")],
      ∀ q ∈ [("record-id", "recordId"), ("this", "this"), ("value", "value")], p.2 = q.2 → p.1 = q.1 := by decide
  refine ⟨c, e, hc, entities, variable_names, (constructorVariables_nodup_iff hc e (by simp [entities])).mpr ?_⟩
  rw [camels]
  refine ⟨fun p hp q hq => ?_, by decide, fun _ => by decide⟩
  exact keys _ (names ▸ List.mem_map_of_mem hp) _ (names ▸ List.mem_map_of_mem hq)

-- Two keys are one in camel case, two make one variable, and one makes that of the values that are not named.
theorem not_constructorVariables_nodup : ∃ c, Record.clashing.client Client.defaultNamespace = .ok c ∧
    c.entities.map (constructorVariables c.rootNamespace) = [["recordId", "recordId", "additionalProperties"],
      ["thisValue", "thisValue", "additionalProperties"], ["additionalProperties", "additionalProperties"]] ∧
    ∀ e ∈ c.entities, ¬ (constructorVariables c.rootNamespace e).Nodup := by
  have built : (Record.clashing.client Client.defaultNamespace).toOption.map
      (fun c => c.entities.map (constructorVariables c.rootNamespace)) =
        some [["recordId", "recordId", "additionalProperties"], ["thisValue", "thisValue", "additionalProperties"],
          ["additionalProperties", "additionalProperties"]] := by decide +kernel
  obtain ⟨c, hc, built⟩ := exists_ok built
  refine ⟨c, hc, built, fun e he => ?_⟩
  have repeated : ∀ names ∈ [["recordId", "recordId", "additionalProperties"],
      ["thisValue", "thisValue", "additionalProperties"], ["additionalProperties", "additionalProperties"]],
        ¬ names.Nodup := by decide
  exact repeated _ (built ▸ List.mem_map_of_mem he)

end Document

end OpenApiClient
