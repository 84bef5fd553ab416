import OpenApiClient.Proofs.Client.Mentioned
import OpenApiClient.Proofs.Php.FileComments
import OpenApiClient.Proofs.Text.Pieces

/-!
Type declarations that take null. Making a declared type take it comes to the same as declaring the type of what may be
null, although the one goes by the text of the type and the other by its alternatives.
-/

namespace OpenApiClient.Php

-- The name of one type, which says nothing of null.
structure IsTypeName (name : String) : Prop where
  one : '|' ∉ name.toList
  plain : '?' ∉ name.toList.head?
  ne_mixed : name ≠ "mixed"
  ne_null : name ≠ "null"

-- The types that null is a value of.
inductive TakesNull : String → Prop
  | mixed : TakesNull "mixed"
  | optional {name} : IsTypeName name → TakesNull ("?" ++ name)
  | union {names} : 2 ≤ names.length → (∀ name ∈ names, IsTypeName name) → TakesNull ("|".intercalate (names ++ ["null"]))

-- The names that stand in the declaration of a type, none for `mixed`.
def declaredNames (root : String) (hints : Hints) : List String :=
  if .mixed ∈ hints then [] else (hints.filterMap (declaredName root)).eraseDups

-- A declaration by its names, and by whether there may be null.
def declaration (names : List String) (null : Bool) : String :=
  if names = [] then "mixed"
  else if null = false then "|".intercalate names
  else if names.length = 1 then "?" ++ "|".intercalate names
  else "|".intercalate (names ++ ["null"])

section

variable {root name type : String} {names : List String} {hints : Hints}

theorem declaredType_eq (root : String) (hints : Hints) :
    declaredType root hints = declaration (declaredNames root hints) (.null ∈ hints) := by
  unfold declaredType declaredNames
  by_cases mixed : .mixed ∈ hints
  case pos => simp [mixed, declaration]
  case neg =>
    cases hints with
    | nil => rfl
    | cons hint rest =>
      rw [if_neg (by simp [mixed]), if_neg mixed]
      generalize ((hint :: rest).filterMap (declaredName root)).eraseDups = names
      by_cases null : .null ∈ hint :: rest
      all_goals
        rcases names with - | ⟨first, - | ⟨second, others⟩⟩
        all_goals simp [null, declaration]

theorem declaredNames_push_null : declaredNames root (hints.push .null) = declaredNames root hints := by
  have no_name : [Hint.null].filterMap (declaredName root) = [] := rfl
  unfold declaredNames Hints.push
  split
  case isTrue => rfl
  case isFalse => simp [no_name]

theorem namesNull_intercalate (some_name : names ≠ []) (h : ∀ name ∈ names, '|' ∉ name.toList) :
    namesNull ("|".intercalate names) = names.contains "null" := by
  have pieces : Text.splitWhere (· == '|') ("|".intercalate names).toList = names.map String.toList := by
    rw [String.toList_intercalate]
    exact Text.splitWhere_intercalate (List.forall_mem_map.mpr h) (by simpa using some_name)
  rw [namesNull, pieces, Bool.eq_iff_iff, List.contains_iff_mem, List.contains_iff_mem,
    List.mem_map_of_injective fun _ _ => String.toList_inj.mp]

theorem namesNull_append (type : String) : namesNull (type ++ "|null") := by
  have last : Text.splitWhere (· == '|') "null".toList = ["null".toList] := rfl
  have text : (type ++ "|null").toList = type.toList ++ '|' :: "null".toList := String.toList_append
  rw [namesNull, text, Text.splitWhere_eq_splitOnP, List.splitOnP_append_cons _ _ rfl, ← Text.splitWhere_eq_splitOnP,
    ← Text.splitWhere_eq_splitOnP, last]
  simp

theorem optional_iff : "?".isPrefixOf type ↔ '?' ∈ type.toList.head? := by
  rw [String.isPrefixOf, String.startsWith_string_iff]
  cases chars : type.toList <;> simp [eq_comm]

-- The four cases of `nullable`.
theorem nullable_of_taken (h : type = "mixed" ∨ "?".isPrefixOf type ∨ namesNull type) : nullable type = type :=
  if_pos h

theorem nullable_of_union (h : ¬ (type = "mixed" ∨ "?".isPrefixOf type ∨ namesNull type)) (bar : '|' ∈ type.toList) :
    nullable type = type ++ "|null" := by
  rw [nullable, if_neg h, if_pos (by simpa using bar)]

theorem nullable_of_single (h : ¬ (type = "mixed" ∨ "?".isPrefixOf type ∨ namesNull type)) (bar : '|' ∉ type.toList) :
    nullable type = "?" ++ type := by
  rw [nullable, if_neg h, if_neg (by simpa using bar)]

theorem nullable_optional (type : String) : nullable ("?" ++ type) = "?" ++ type :=
  nullable_of_taken (.inr (.inl (optional_iff.mpr (by simp))))

theorem nullable_nullable (type : String) : nullable (nullable type) = nullable type := by
  by_cases taken : type = "mixed" ∨ "?".isPrefixOf type ∨ namesNull type
  case pos => rw [nullable_of_taken taken, nullable_of_taken taken]
  case neg =>
    by_cases bar : '|' ∈ type.toList
    case pos =>
      rw [nullable_of_union taken bar]
      exact nullable_of_taken (.inr (.inr (namesNull_append type)))
    case neg =>
      rw [nullable_of_single taken bar]
      exact nullable_optional type

theorem intercalate_concat_null (h : names ≠ []) :
    "|".intercalate (names ++ ["null"]) = "|".intercalate names ++ "|null" := by
  rw [String.intercalate_append_of_ne_nil h (List.cons_ne_nil _ _), String.intercalate_singleton, String.append_assoc]
  rfl

theorem toList_union (first second : String) (others : List String) : ("|".intercalate (first :: second :: others)).toList =
    first.toList ++ '|' :: ("|".intercalate (second :: others)).toList := by
  rw [String.intercalate_cons_cons, String.toList_append, String.toList_append, List.append_assoc]
  rfl

-- What names are put together to is no type of its own, and it shows null only as one of them.
theorem not_taken (some_name : names ≠ []) (h : ∀ name ∈ names, IsTypeName name) :
    ¬ ("|".intercalate names = "mixed" ∨ "?".isPrefixOf ("|".intercalate names) ∨ namesNull ("|".intercalate names)) := by
  obtain ⟨first, rest, rfl⟩ := List.exists_cons_of_ne_nil some_name
  have ⟨_, plain, not_mixed, _⟩ := h first List.mem_cons_self
  rintro (mixed | optional | named)
  · rcases rest with - | ⟨second, others⟩
    case nil => exact not_mixed (String.intercalate_singleton.symm.trans mixed)
    case cons =>
      have bar : '|' ∈ "mixed".toList := by
        rw [← mixed, toList_union]
        exact List.mem_append_right _ List.mem_cons_self
      exact absurd bar (by decide)
  · rw [optional_iff] at optional
    rcases rest with - | ⟨second, others⟩
    case nil => exact plain (by rwa [String.intercalate_singleton] at optional)
    case cons =>
      rw [toList_union, List.head?_append, Option.mem_def, Option.or_eq_some_iff] at optional
      rcases optional with optional | ⟨-, bar⟩
      · exact plain optional
      · exact absurd (Option.some.inj bar) (by decide)
  · rw [namesNull_intercalate some_name fun name hn => (h name hn).one] at named
    exact (h _ (List.contains_iff_mem.mp named)).ne_null rfl

-- Types that are put together from names take null, unless they do already.
theorem nullable_declaration (h : ∀ name ∈ names, IsTypeName name) (null : Bool) :
    nullable (declaration names null) = declaration names true := by
  rcases names with - | ⟨first, - | ⟨second, others⟩⟩
  · exact nullable_of_taken (.inl rfl)
  · cases null with
    | true => exact nullable_optional _
    | false =>
      have single : "|".intercalate [first] = first := String.intercalate_singleton
      have not_taken := not_taken (List.cons_ne_nil _ _) h
      rw [single] at not_taken
      rw [declaration, declaration, if_neg (List.cons_ne_nil _ _), if_pos rfl, single]
      exact nullable_of_single not_taken (h first List.mem_cons_self).one
  · have some_name : first :: second :: others ≠ [] := List.cons_ne_nil _ _
    have union : declaration (first :: second :: others) true = "|".intercalate (first :: second :: others) ++ "|null" := by
      rw [← intercalate_concat_null some_name]
      simp [declaration]
    cases null with
    | true =>
      rw [union]
      exact nullable_of_taken (.inr (.inr (namesNull_append _)))
    | false =>
      rw [union]
      refine nullable_of_union (not_taken some_name h) ?_
      rw [declaration, if_neg some_name, if_pos rfl, toList_union]
      exact List.mem_append_right _ List.mem_cons_self

theorem takesNull_declaration (h : ∀ name ∈ names, IsTypeName name) : TakesNull (declaration names true) := by
  rcases names with - | ⟨first, - | ⟨second, others⟩⟩
  · exact .mixed
  · have optional : declaration [first] true = "?" ++ first := by simp [declaration]
    exact optional ▸ .optional (h first List.mem_cons_self)
  · have union : declaration (first :: second :: others) true = "|".intercalate (first :: second :: others ++ ["null"]) := by
      simp [declaration]
    exact union ▸ .union (by simp) h

theorem mem_of_mem_trimNamespace {c : Char} (h : c ∈ (trimNamespace root).toList) : c ∈ root.toList := by
  rw [trimNamespace, String.toList_ofList, List.mem_reverse] at h
  exact (List.dropWhile_sublist _).subset (List.mem_reverse.mp ((List.dropWhile_sublist _).subset h))

theorem isTypeName_rooted (h : '|' ∉ name.toList) : IsTypeName ("\\" ++ name) := by
  have chars : ("\\" ++ name).toList = '\\' :: name.toList := String.toList_append
  have other {text : String} (head : text.toList.head? ≠ some '\\') : "\\" ++ name ≠ text := by
    rintro rfl
    exact head (congrArg List.head? chars)
  exact {
    one := by simpa [chars] using h
    plain := by simp [chars]
    ne_mixed := other (by decide)
    ne_null := other (by decide) }

theorem isTypeName_modelClass (hr : '|' ∉ root.toList) (hn : '|' ∉ name.toList) : IsTypeName (modelClass root name) := by
  have root_one : '|' ∉ (trimNamespace root).toList := fun bar => hr (mem_of_mem_trimNamespace bar)
  have class_one : '|' ∉ (className "Model" name).toList := by
    unfold className
    split
    case isTrue => simpa using hn
    case isFalse => exact hn
  refine isTypeName_rooted ?_
  unfold within
  split
  case isTrue => simpa using class_one
  case isFalse => simpa using ⟨root_one, class_one⟩

theorem isTypeName_of_declaredNames (hr : '|' ∉ root.toList) (h : ∀ name, .model name ∈ hints → '|' ∉ name.toList) :
    ∀ name ∈ declaredNames root hints, IsTypeName name := by
  have fixed {name : String} (h : '|' ∉ name.toList ∧ '?' ∉ name.toList.head? ∧ name ≠ "mixed" ∧ name ≠ "null") :
      IsTypeName name := ⟨h.1, h.2.1, h.2.2.1, h.2.2.2⟩
  intro name hn
  unfold declaredNames at hn
  split at hn
  case isTrue => contradiction
  case isFalse =>
    obtain ⟨hint, hm, said⟩ := List.mem_filterMap.mp (List.mem_eraseDups.mp hn)
    cases hint with
    | model cls => exact Option.some.inj said ▸ isTypeName_modelClass hr (h cls hm)
    | array => exact Option.some.inj said ▸ fixed (by decide)
    | basic type =>
      cases type
      all_goals first
        | contradiction
        | exact Option.some.inj said ▸ fixed (by decide)

theorem takesNull_nullable (h : ∀ name ∈ declaredNames root hints, IsTypeName name) :
    TakesNull (nullable (declaredType root hints)) := by
  rw [declaredType_eq, nullable_declaration h]
  exact takesNull_declaration h

theorem takesNull_of_isNullable (h : ∀ name ∈ declaredNames root hints, IsTypeName name) (nullable : hints.isNullable) :
    TakesNull (declaredType root hints) := by
  rw [declaredType_eq]
  obtain null | mixed : .null ∈ hints ∨ .mixed ∈ hints := by simpa [Hints.isNullable] using nullable
  · simpa [null] using takesNull_declaration h
  · simpa [declaredNames, declaration, mixed] using TakesNull.mixed

-- What is declared for a value, which takes null where the value may be left out.
theorem takesNull_optional (h : ∀ name ∈ declaredNames root hints, IsTypeName name) :
    TakesNull (if !false && !hints.isNullable then nullable (declaredType root hints) else declaredType root hints) := by
  cases nullable : hints.isNullable with
  | true => exact takesNull_of_isNullable h nullable
  | false => exact takesNull_nullable h

theorem isTypeName_of_isWord (hr : '|' ∉ root.toList) (words : ∀ cls, Hints.Mention hints cls → Naming.IsWord cls) :
    ∀ name ∈ declaredNames root hints, IsTypeName name := by
  refine isTypeName_of_declaredNames hr fun name hm bar => ?_
  exact absurd ((words name ⟨_, hm, .model⟩).chars _ bar) (by decide)

theorem takesNull_methodParameter {e : Endpoint} (hr : '|' ∉ root.toList)
    (arguments : ∀ a ∈ e.arguments, ∀ cls, Hints.Mention a.hints cls → Naming.IsWord cls)
    (payload : ∀ b ∈ e.payload, ∀ cls, Hints.Mention b.hints cls → Naming.IsWord cls) :
    ∀ p ∈ methodParameters root e, p.required = false → TakesNull p.declared := by
  have made {name : String} {hints : Hints} {required : Bool} {description : Option String}
      (words : ∀ cls, Hints.Mention hints cls → Naming.IsWord cls) :
      (MethodParameter.ofHints root name hints required description).required = false →
        TakesNull (MethodParameter.ofHints root name hints required description).declared := by
    rintro (rfl : required = false)
    exact takesNull_optional (isTypeName_of_isWord hr words)
  intro p hp
  rw [methodParameters, (List.filter_append_perm _ _).mem_iff, List.mem_append] at hp
  rcases hp with hp | hp
  · obtain ⟨a, ha, rfl⟩ := List.mem_map.mp hp
    exact made (arguments a ha)
  · obtain ⟨b, hb, rfl⟩ := List.mem_map.mp hp
    exact made (payload b (Option.mem_toList.mp hb))

theorem takesNull_modelField {e : Entity} (hr : '|' ∉ root.toList)
    (properties : ∀ p ∈ e.properties, ∀ cls, Hints.Mention p.value.hints cls → Naming.IsWord cls) :
    ∀ f ∈ modelFields root e, f.required = false → TakesNull f.declared := by
  intro f hf not_required
  obtain ⟨p, hp, rfl⟩ := mem_modelFields.mp hf
  have not_required : p.required = false := not_required
  rw [ModelField.ofProperty]
  dsimp only
  rw [not_required]
  exact takesNull_optional (isTypeName_of_isWord hr (properties p hp))

end

-- A type declaration that is made to take null is that of the alternatives and null, where no name has a bar in it.
-- It does not matter how often it is done. In a client this makes all types take null whose values may be left out:
-- those of arguments and properties that are not required, and those of bodies.
theorem null_taken {root : String} (hr : '|' ∉ root.toList) :
    (∀ hints, (∀ name, .model name ∈ hints → '|' ∉ name.toList) →
      nullable (declaredType root hints) = declaredType root (hints.push .null)) ∧
    (∀ type, nullable (nullable type) = nullable type) ∧
    ∀ (d : Document) c, d.Distinct → d.client root = .ok c →
      (∀ e ∈ c.endpoints, ∀ p ∈ methodParameters root e, p.required = false → TakesNull p.declared) ∧
      (∀ e ∈ c.entities, ∀ f ∈ modelFields root e, f.required = false → TakesNull f.declared) ∧
      ∀ r ∈ c.responses, ∀ b ∈ r.body, TakesNull (DeclaredBody.ofBody root b).declared := by
  refine ⟨fun hints h => ?_, nullable_nullable, fun d c hd hc => ⟨?_, ?_, ?_⟩⟩
  · rw [declaredType_eq, declaredType_eq, nullable_declaration (isTypeName_of_declaredNames hr h), declaredNames_push_null]
    simp
  · intro e he
    exact takesNull_methodParameter hr (Document.isWord_of_argument hd hc he) (Document.isWord_of_payload hd hc he)
  · intro e he
    exact takesNull_modelField hr fun p hp => Document.isWord_of_reads hd hc (.property he hp)
  · intro r hr' b hb
    exact takesNull_nullable (isTypeName_of_isWord hr (Document.isWord_of_reads hd hc (.body hr' hb)))

-- The parameters of these methods may all be left out.
theorem petStore_null_taken : ∃ c, PetStore.document.client Client.defaultNamespace = .ok c ∧
    '|' ∉ Client.defaultNamespace.toList ∧
    nullable (declaredType Client.defaultNamespace [.int, .model "Pet"]) =
      declaredType Client.defaultNamespace [.int, .model "Pet", .null] ∧
    c.endpoints.map (fun e => (methodParameters Client.defaultNamespace e).map fun p => (p.name, p.required)) =
      [[("order", false)], [("order", false), ("requestBody", false)]] ∧
    (∀ e ∈ c.endpoints, ∀ p ∈ methodParameters Client.defaultNamespace e, TakesNull p.declared) := by
  have parameters : (PetStore.document.client Client.defaultNamespace).toOption.map (fun c =>
      c.endpoints.map fun e => (methodParameters Client.defaultNamespace e).map fun p => (p.name, p.required)) =
        some [[("order", false)], [("order", false), ("requestBody", false)]] := by
    decide +kernel
  obtain ⟨c, hc, parameters⟩ := exists_ok parameters
  have root_one : '|' ∉ Client.defaultNamespace.toList := by decide
  obtain ⟨commutes, -, clients⟩ := null_taken root_one
  refine ⟨c, hc, root_one, commutes _ fun name hm => ?_, parameters, fun e he p hp => ?_⟩
  · obtain rfl : name = "Pet" := by simpa using hm
    decide
  · refine (clients _ c PetStore.distinct hc).1 e he p hp ?_
    have optional : ∀ names ∈ [[("order", false)], [("order", false), ("requestBody", false)]], ∀ parameter ∈ names,
        parameter.2 = false := by decide
    exact optional _ (parameters ▸ List.mem_map_of_mem he) _ (List.mem_map_of_mem hp)

-- A bar in the name of a class is taken for one between two types.
theorem not_null_taken : '|' ∉ "Acme".toList ∧
    nullable (declaredType "Acme" [.model "A|B"]) = "\\Acme\\Model\\A|B|null" ∧
    declaredType "Acme" (Hints.push [.model "A|B"] .null) = "?\\Acme\\Model\\A|B" := by
  have declared : declaredType "Acme" [.model "A|B"] = "\\Acme\\Model\\A|B" := by decide +kernel
  refine ⟨by decide, ?_, by decide +kernel⟩
  rw [declared]
  refine nullable_of_union ?_ (by decide)
  rw [optional_iff]
  decide

end OpenApiClient.Php
