import OpenApiClient.Php.ApiFile
import OpenApiClient.Php.Support
import OpenApiClient.Proofs.Client.Apis
import OpenApiClient.Proofs.Naming.Apart

/-!
The methods of the class for a tag. None of them is called like one that the class inherits. No two of them are called
alike, except that what an operation is called instead of an inherited method may be the name of another operation.
-/

namespace OpenApiClient

open Naming

namespace Api

variable {d : Document} {endpoints : List Endpoint} {apis apis' : List Api} {tag : String}
  {operations : List Nat}

theorem nodup_of_checkMethods {className : String} {seen : List (String × Endpoint)}
    (h : checkMethods className seen endpoints = .ok ()) :
    (endpoints.map fun e => foldCase (asMethod e.methodName)).Nodup ∧
      ∀ e ∈ endpoints, ∀ entry ∈ seen, foldCase (asMethod e.methodName) ≠ entry.1 := by
  induction endpoints generalizing seen with
  | nil => simp
  | cons e rest ih =>
    rw [checkMethods] at h
    split at h
    case h_1 => contradiction
    case h_2 free =>
      obtain ⟨nodup, apart⟩ := ih h
      have free : ∀ entry ∈ seen, foldCase (asMethod e.methodName) ≠ entry.1 := by
        simpa [List.lookup_eq_none_iff] using free
      constructor
      · rw [List.map_cons, List.nodup_cons]
        refine ⟨fun there => ?_, nodup⟩
        obtain ⟨e', he, same⟩ := List.mem_map.mp there
        exact apart e' he _ List.mem_cons_self same
      · refine List.forall_mem_cons.mpr ⟨free, fun e' he entry seen_before => ?_⟩
        exact apart e' he entry (List.mem_cons_of_mem _ seen_before)

-- The methods of a class were checked when it was added.
theorem checked_of_add (h : Api.add d endpoints apis tag operations = .ok apis') : ∀ api ∈ apis',
    api ∈ apis ∨ checkMethods api.className [] (api.operations.filterMap (endpoints[·]?)) = .ok () := by
  unfold add at h
  split at h
  case isTrue =>
    cases h
    exact fun api ha => .inl ha
  case isFalse =>
    generalize Naming.apiName tag = className at h
    dsimp only at h
    split at h
    case h_1 => exact absurd h throw_ne_ok
    case h_2 =>
      simp only [bind_eq_ok, pure_eq_ok] at h
      obtain ⟨_, checked, rfl⟩ := h
      intro api ha
      rcases List.mem_append.mp ha with ha | ha
      case inl => exact .inl ha
      case inr =>
        obtain rfl := List.mem_singleton.mp ha
        exact .inr checked

end Api

namespace Document

variable {d : Document} {c : Client} {rootNamespace : String}

theorem identifiers_nodup (hc : d.client rootNamespace = .ok c) : ∀ api ∈ c.apis,
    ((api.operations.filterMap (c.endpoints[·]?)).map fun e => foldCase (asMethod e.methodName)).Nodup := by
  simp only [client, bind_eq_ok, pure_eq_ok] at hc
  obtain ⟨_, _, _, _, _, _, endpoints, _, apis, ha, rfl⟩ := hc
  refine foldlM_induction (P := fun _ apis => ∀ api ∈ apis, ((api.operations.filterMap (endpoints[·]?)).map
    fun e => foldCase (asMethod e.methodName)).Nodup) (by simp) ?_ (named_eq_ok.mp ha)
  intro _ _ _ _ checked added api ha
  rcases Api.checked_of_add added api ha with ha | check
  case inl => exact checked api ha
  case inr => exact (Api.nodup_of_checkMethods check).1

end Document

namespace Php

-- The operations of a class, if all of them are there.
theorem apiEndpoints_eq_ok {a : Api} {endpoints : List Endpoint} (h : ∀ i ∈ a.operations, i < endpoints.length) :
    apiEndpoints a endpoints = .ok (a.operations.filterMap (endpoints[·]?)) := by
  unfold apiEndpoints
  generalize a.operations = operations at h
  induction operations with
  | nil => rfl
  | cons i rest ih =>
    have ⟨hi, h⟩ := List.forall_mem_cons.mp h
    simp [List.mapM_cons, ih h, hi, bind, Except.bind, pure, Except.pure]

-- The method that a line declares, if it can be called from classes below.
def visibleMethod? (line : String) : Option String :=
  (["public function ", "protected function "].find? fun head => head.toList.isPrefixOf line.toList).map fun head =>
    String.ofList ((line.toList.drop head.toList.length).takeWhile (· ≠ '('))

def visibleMethods (f : ClassFile) : List String := f.members.filterMap visibleMethod?

section

variable {first last : String} {body : Lines}

-- What is indented belongs to a method, and declares none.
theorem filterMap_indent : (indent body).filterMap visibleMethod? = [] := by
  induction body with
  | nil => rfl
  | cons line rest ih => by_cases h : line = "" <;> simp_all [indent, visibleMethod?]

theorem filterMap_enclose : (enclose first body last).filterMap visibleMethod? =
    [first, last].filterMap visibleMethod? := by
  simp [enclose, List.filterMap_cons, filterMap_indent]

theorem filterMap_braced {head : String} :
    (braced head body).filterMap visibleMethod? = (visibleMethod? head).toList := by
  have braces : ["\x7b", "\x7d"].filterMap visibleMethod? = [] := by decide
  rw [braced, List.filterMap_cons, filterMap_enclose, braces]
  cases visibleMethod? head <;> rfl

theorem filterMap_comment {lines : List (Option String)} : (comment lines).filterMap visibleMethod? = [] := by
  unfold comment
  induction lines with
  | nil => simp [visibleMethod?]
  | cons line rest ih => cases line <;> simp_all [visibleMethod?]

theorem filterMap_spaced {parts : List Lines} : (spaced parts).filterMap visibleMethod? =
    parts.flatMap (·.filterMap visibleMethod?) := by
  have empty : [""].filterMap visibleMethod? = [] := by decide
  induction parts with
  | nil => rfl
  | cons part parts ih =>
    cases parts with
    | nil => simp [spaced, List.intercalate]
    | cons =>
      rw [spaced] at ih
      rw [spaced, List.intercalate_cons_cons, List.filterMap_append, List.filterMap_append, ih, empty,
        List.append_nil]
      rfl

open AbstractApi in
-- What is kept apart from inherited methods is kept apart from all methods that are inherited.
theorem visibleMethods_abstractApi (root : String) : visibleMethods (abstractApiFile root) = inheritedMethods := by
  have last : ["\x7d"].filterMap visibleMethod? = [] := by decide
  have constructor : constructor.filterMap visibleMethod? = ["__construct"] := by
    have lines : ["public function __construct(", ") \x7b"].filterMap visibleMethod? = ["__construct"] := by decide
    rw [constructor, constructorLines, List.filterMap_append, filterMap_enclose, lines, last]
    rfl
  have send : send.filterMap visibleMethod? = ["send"] := by
    have lines : ["protected function send(", "): ResponseInterface \x7b"].filterMap visibleMethod? = ["send"] := by
      decide
    rw [send, List.filterMap_append, List.filterMap_append, List.filterMap_append, filterMap_comment,
      filterMap_enclose, filterMap_indent, lines, last]
    rfl
  have decode : decode.filterMap visibleMethod? = ["decode"] := filterMap_braced.trans (by decide)
  have scalar : scalar.filterMap visibleMethod? = ["scalar"] := filterMap_braced.trans (by decide)
  have queryValue : queryValue.filterMap visibleMethod? = [] := filterMap_braced.trans (by decide)
  have plain : plain.filterMap visibleMethod? = [] := filterMap_braced.trans (by decide)
  rw [visibleMethods, abstractApiFile, filterMap_spaced]
  simp only [List.flatMap_cons, List.flatMap_nil, constructor, send, decode, scalar, queryValue, plain]
  rfl

end

theorem foldCase_inherited : ∀ method ∈ inheritedMethods, foldCase method = method := by
  decide

-- The name of a method without regard to case, by that of the identifier.
def renamed (identifier : String) : String :=
  if identifier ∈ inheritedMethods then identifier ++ foldCase "Operation" else identifier

theorem foldCase_methodName (name : String) : foldCase (methodName name) = renamed (foldCase (asMethod name)) := by
  have inherited : inheritedMethods.any (foldCase · = foldCase (asMethod name)) ↔
      foldCase (asMethod name) ∈ inheritedMethods := by
    simp only [List.any_eq_true, decide_eq_true_eq]
    constructor
    · rintro ⟨method, hm, same⟩
      exact same ▸ (foldCase_inherited method hm).symm ▸ hm
    · exact fun hm => ⟨_, hm, foldCase_inherited _ hm⟩
  simp only [methodName, renamed, inherited, apply_ite foldCase, foldCase_append]

example : foldCase (methodName "Send") = "sendoperation" := by decide +kernel

theorem renamed_not_inherited : ∀ name ∈ inheritedMethods, name ++ foldCase "Operation" ∉ inheritedMethods := by
  decide

theorem foldCase_methodName_not_mem (name : String) : foldCase (methodName name) ∉ inheritedMethods := by
  rw [foldCase_methodName, renamed]
  split
  case isTrue inherited => exact renamed_not_inherited _ inherited
  case isFalse free => exact free

-- One operation is called like an inherited method, and another one as the method of the first is called instead.
def Displaces (e e' : Endpoint) : Prop :=
  foldCase (asMethod e.methodName) ∈ inheritedMethods ∧
    foldCase (asMethod e'.methodName) = foldCase (asMethod e.methodName) ++ foldCase "Operation"

theorem methodNames_nodup_iff {endpoints : List Endpoint}
    (h : (endpoints.map fun e => foldCase (asMethod e.methodName)).Nodup) :
    (endpoints.map fun e => foldCase (methodName e.methodName)).Nodup ↔
      ∀ e ∈ endpoints, ∀ e' ∈ endpoints, ¬ Displaces e e' := by
  have renames : (endpoints.map fun e => foldCase (methodName e.methodName)) =
      (endpoints.map fun e => foldCase (asMethod e.methodName)).map renamed := by
    simp [foldCase_methodName]
  rw [renames]
  refine (nodup_map_ite_iff h ?_ renamed_not_inherited).trans ?_
  · intro x y _ _ same
    simpa [← String.toList_inj] using same
  · constructor
    · rintro apart e he e' he' ⟨inherited, same⟩
      exact apart _ (List.mem_map_of_mem he) inherited (List.mem_map.mpr ⟨e', he', same⟩)
    · intro apart name hn inherited there
      obtain ⟨e, he, rfl⟩ := List.mem_map.mp hn
      obtain ⟨e', he', same⟩ := List.mem_map.mp there
      exact apart e he e' he' ⟨inherited, same⟩

end Php

namespace Document

open Php

variable {d : Document} {c : Client} {rootNamespace : String}

-- The methods of a class are called differently, whatever the case of letters, unless one operation displaces
-- another; and none of them is called like a method of the class that it extends.
theorem methods_distinct_iff (hc : d.client rootNamespace = .ok c) : ∀ api ∈ c.apis, ∃ endpoints,
    apiEndpoints api c.endpoints = .ok endpoints ∧
    ((endpoints.map fun e => foldCase (methodName e.methodName)).Nodup ↔
      ∀ e ∈ endpoints, ∀ e' ∈ endpoints, ¬ Displaces e e') ∧
    ∀ e ∈ endpoints, ∀ inherited ∈ visibleMethods (abstractApiFile rootNamespace),
      foldCase (methodName e.methodName) ≠ foldCase inherited := by
  intro api ha
  have in_range := in_range_of_api hc ha
  refine ⟨_, apiEndpoints_eq_ok in_range, methodNames_nodup_iff (identifiers_nodup hc api ha), ?_⟩
  rw [visibleMethods_abstractApi]
  intro e _ inherited hi same
  have not_inherited := foldCase_methodName_not_mem e.methodName
  rw [same, foldCase_inherited inherited hi] at not_inherited
  exact not_inherited hi

end Document

namespace Mailbox

-- Operations of one tag, by what they are called.
def document (names : List String) : Document where
  openapi := "3.1.0"
  info := { title := "Mailbox", version := "1" }
  paths := names.map fun name => ("/" ++ name, { get := some { operationId := some name, tags := ["mail"] } })

-- What the operations of each tag are called in one way or another.
def names (naming : String → String) (c : Client) : List (Option (List String)) :=
  c.apis.map fun api => (Php.apiEndpoints api c.endpoints).toOption.map (·.map (naming ·.methodName))

theorem exists_of_names {naming : String → String} {c : Client} {given : List String}
    (h : names naming c = [some given]) : ∃ api endpoints, c.apis = [api] ∧
      Php.apiEndpoints api c.endpoints = .ok endpoints ∧ endpoints.map (naming ·.methodName) = given := by
  obtain ⟨api, apis, endpoints⟩ := List.map_eq_singleton_iff.mp h
  obtain ⟨endpoints, he, given⟩ := exists_ok endpoints
  exact ⟨api, endpoints, apis, he, given⟩

end Mailbox

namespace Document

open Php

theorem mailbox_methods_distinct : ∃ c api endpoints,
    (Mailbox.document ["send", "decode", "sendLater"]).client Client.defaultNamespace = .ok c ∧ c.apis = [api] ∧
    apiEndpoints api c.endpoints = .ok endpoints ∧
    endpoints.map (asMethod ·.methodName) = ["send", "decode", "sendLater"] ∧
    (endpoints.map fun e => foldCase (Php.methodName e.methodName)).Nodup ∧
    ∀ e ∈ endpoints, ∀ inherited ∈ visibleMethods (abstractApiFile Client.defaultNamespace),
      foldCase (Php.methodName e.methodName) ≠ foldCase inherited := by
  have names : ((Mailbox.document ["send", "decode", "sendLater"]).client Client.defaultNamespace).toOption.map
      (Mailbox.names asMethod) = some [some ["send", "decode", "sendLater"]] := by decide +kernel
  obtain ⟨c, hc, names⟩ := exists_ok names
  obtain ⟨api, endpoints, apis, he, names⟩ := Mailbox.exists_of_names names
  obtain ⟨_, he', distinct, apart⟩ := methods_distinct_iff hc api (by simp [apis])
  obtain rfl := Except.ok.inj (he.symm.trans he')
  have none_displaced : ∀ name ∈ ["send", "decode", "sendLater"], ∀ name' ∈ ["send", "decode", "sendLater"],
      ¬ (foldCase name ∈ inheritedMethods ∧ foldCase name' = foldCase name ++ foldCase "Operation") := by decide
  refine ⟨c, api, endpoints, hc, apis, he, names, distinct.mpr fun e hm e' hm' => ?_, apart⟩
  exact none_displaced _ (names ▸ List.mem_map_of_mem hm) _ (names ▸ List.mem_map_of_mem hm')

-- The operation `send` takes the name of the operation after it.
theorem not_methods_distinct : ∃ c api endpoints,
    (Mailbox.document ["send", "sendOperation"]).client Client.defaultNamespace = .ok c ∧ c.apis = [api] ∧
    apiEndpoints api c.endpoints = .ok endpoints ∧
    endpoints.map (Php.methodName ·.methodName) = ["sendOperation", "sendOperation"] ∧
    ¬ (endpoints.map fun e => foldCase (Php.methodName e.methodName)).Nodup := by
  have names : ((Mailbox.document ["send", "sendOperation"]).client Client.defaultNamespace).toOption.map
      (Mailbox.names Php.methodName) = some [some ["sendOperation", "sendOperation"]] := by decide +kernel
  obtain ⟨c, hc, names⟩ := exists_ok names
  obtain ⟨api, endpoints, apis, he, names⟩ := Mailbox.exists_of_names names
  refine ⟨c, api, endpoints, hc, apis, he, names, ?_⟩
  have folded : endpoints.map (fun e => foldCase (Php.methodName e.methodName)) =
      ["sendOperation", "sendOperation"].map foldCase := by simp [← names]
  rw [folded]
  decide

end Document

end OpenApiClient
