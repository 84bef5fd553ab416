import OpenApiClient.Index.NamedDocument
import OpenApiClient.Proofs.Hint.Mentions
import OpenApiClient.Proofs.Reference.Chain

/-!
What hints look like, in either form: no alternative is there twice, something beside null is known of each
value, and objects and enums are classes in the one form and plain data in the other. This holds of the
elements of lists as well, at any depth.
-/

namespace OpenApiClient

inductive Hint.WellFormed (form : ValueForm) : Hint → Prop
  | basic {type} : (type = .untyped → form = .decoded) → WellFormed form (.basic type)
  | model {name} : form = .typed → WellFormed form (.model name)
  | array {items} : items.Nodup → (∃ hint ∈ items, hint ≠ .null) →
    (∀ hint ∈ items, WellFormed form hint) → WellFormed form (.array items)

structure Hints.WellFormed (form : ValueForm) (hints : List Hint) : Prop where
  nodup : hints.Nodup
  known : ∃ hint ∈ hints, hint ≠ .null
  each : ∀ hint ∈ hints, hint.WellFormed form

-- Hints are inside themselves, and what is inside the elements of a list among them is inside, too.
inductive Hints.Inside : Hints → Hints → Prop
  | self {hints} : Inside hints hints
  | element {hints items inner} : .array items ∈ hints → Inside inner items → Inside inner hints

variable {form : ValueForm} {hint : Hint} {hints items inner : List Hint} {name cls : String}

@[simp] theorem Hint.wellFormed_array :
    (Hint.array items).WellFormed form ↔ Hints.WellFormed form items where
  mp | .array nodup known each => ⟨nodup, known, each⟩
  mpr h := .array h.nodup h.known h.each

@[simp] theorem Hint.wellFormed_model : (Hint.model name).WellFormed form ↔ form = .typed where
  mp | .model h => h
  mpr := .model

@[simp] theorem Hint.wellFormed_basic {type : BasicType} :
    (Hint.basic type).WellFormed form ↔ (type = .untyped → form = .decoded) where
  mp | .basic h => h
  mpr := .basic

namespace Hints

-- Hints that leave nothing open or null alone are those with something else among them.
theorem eq_nil_or_null_iff (hn : hints.Nodup) :
    hints = [] ∨ hints = [.null] ↔ ∀ hint ∈ hints, hint = .null := by
  constructor
  case mp => rintro (rfl | rfl) <;> simp
  case mpr =>
    intro nulls
    rcases hints with - | ⟨first, - | ⟨second, rest⟩⟩
    · exact .inl rfl
    · exact .inr (by simpa using nulls)
    · have same : first = second := by
        rw [nulls first (by simp), nulls second (by simp)]
      simp [same] at hn

theorem forall_mem_push {P : Hint → Prop} :
    (∀ other ∈ Hints.push hints hint, P other) ↔ (∀ other ∈ hints, P other) ∧ P hint := by
  simp [or_imp, forall_and]

theorem WellFormed.push (h : WellFormed form hints) (hh : hint.WellFormed form) :
    WellFormed form (Hints.push hints hint) where
  nodup := push_nodup h.nodup hint
  known :=
    have ⟨other, hm, hne⟩ := h.known
    ⟨other, mem_push.mpr (.inl hm), hne⟩
  each := forall_mem_push.mpr ⟨h.each, hh⟩

theorem WellFormed.single (h : hint.WellFormed form) (hne : hint ≠ .null) :
    WellFormed form [hint] where
  nodup := by simp
  known := ⟨hint, List.mem_singleton_self hint, hne⟩
  each := by simpa using h

theorem wellFormed_mixed : WellFormed form [.mixed] :=
  .single (by simp) nofun

theorem WellFormed.inside (h : WellFormed form hints) (inside : Inside inner hints) : WellFormed form inner := by
  induction inside with
  | self => exact h
  | element hm _ ih => exact ih (Hint.wellFormed_array.mp (h.each _ hm))

-- What is decoded has no class yet.
theorem WellFormed.not_mention (h : WellFormed .decoded hints) : ¬ Mention hints cls := by
  rintro ⟨hint, hm, mentions⟩
  have wf := h.each hint hm
  clear hm h
  induction mentions with
  | model => cases Hint.wellFormed_model.mp wf
  | array hm _ ih => exact ih ((Hint.wellFormed_array.mp wf).each _ hm)

end Hints

namespace Schema

open Hints

variable {expand : String → Except BuildError Hints} {s : Schema}

-- The values of an enum without null, which there are exactly if it is an enum at all.
theorem isEnum_iff : s.kind.isEnum ↔ scalarValues s.enumValues ≠ [] := by
  rw [kind_eq]
  cases he : enumKind? s.enumValues with
  | some kind =>
    have scalars : scalarValues s.enumValues ≠ [] := by
      intro h
      simp [enumKind?, h] at he
    simp [scalars, isEnum_of_enumKind? he]
  | none =>
    have scalars : scalarValues s.enumValues = [] := by
      simp only [enumKind?] at he
      grind
    simp only [scalars, ne_eq, not_true_eq_false, iff_false]
    grind [SchemaKind.isEnum]

theorem literalHint_wellFormed {value : Json.Value} : (literalHint value).WellFormed form := by
  unfold literalHint
  split
  · simp
  · simp
  · split <;> simp

theorem literalHint_ne_null {value : Json.Value} : literalHint value ≠ .null := by
  unfold literalHint
  split
  · simp
  · simp
  · split <;> simp

theorem enumHints_wellFormed (he : s.kind.isEnum) : WellFormed form (s.enumHints form name) := by
  cases form with
  | typed => exact .single (by simp) nofun
  | decoded =>
    have ⟨value, hv⟩ := List.exists_mem_of_ne_nil _ (isEnum_iff.mp he)
    refine ⟨ofList_nodup _, ⟨literalHint value, ?_, literalHint_ne_null⟩, fun hint hm => ?_⟩
    · exact mem_ofList.mpr (List.mem_map_of_mem hv)
    · obtain ⟨value, _, rfl⟩ := List.mem_map.mp (mem_ofList.mp hm)
      exact literalHint_wellFormed

theorem objectHint_wellFormed : (objectHint form name).WellFormed form := by
  cases form <;> simp [objectHint]

theorem orMixed_wellFormed (hn : hints.Nodup) (each : ∀ hint ∈ hints, hint.WellFormed form) :
    WellFormed form (orMixed hints) := by
  unfold orMixed
  split
  case isTrue =>
    exact ⟨push_nodup hn _, ⟨.mixed, mem_push.mpr (.inr rfl), nofun⟩,
      forall_mem_push.mpr ⟨each, by simp⟩⟩
  case isFalse h =>
    rw [eq_nil_or_null_iff hn] at h
    exact ⟨hn, by simpa using h, each⟩

-- What is asked of the places in a schema: that they look as they should, if they have hints.
def WellFormedAt (expand : String → Except BuildError Hints) (form : ValueForm) (name : String)
    (place : SchemaRef) : Prop :=
  ∀ ⦃hints⦄, hintsAt expand form name place = .ok hints → WellFormed form hints

theorem wellFormed_itemHints {items : Option SchemaRef}
    (hi : ∀ place ∈ items, WellFormedAt expand form (Naming.nested name "item") place)
    (h : itemHints expand form name items = .ok hints) : WellFormed form hints := by
  cases items with
  | none =>
    cases h
    exact wellFormed_mixed
  | some place => exact hi place rfl h

theorem wellFormed_memberHints {keyword : String} {i : Nat} {members : List SchemaRef}
    (hm : ∀ place ∈ members, ∀ name, WellFormedAt expand form name place)
    (h : memberHints expand form name keyword i members = .ok hints) :
    ∀ hint ∈ hints, hint.WellFormed form := by
  induction members generalizing i hints with
  | nil =>
    cases h
    simp
  | cons place rest ih =>
    simp only [memberHints, bind_eq_ok, pure_eq_ok] at h
    obtain ⟨first, hf, others, ho, rfl⟩ := h
    obtain ⟨hp, hr⟩ := List.forall_mem_cons.mp hm
    exact List.forall_mem_append.mpr ⟨(hp _ hf).each, ih hr ho⟩

theorem wellFormed_impliedHints
    (hi : ∀ place ∈ s.items, WellFormedAt expand form (Naming.nested name "item") place)
    (h : s.impliedHints expand form name = .ok hints) : ∀ hint ∈ hints, hint.WellFormed form := by
  unfold impliedHints at h
  split at h
  case h_1 =>
    cases h
    simpa using objectHint_wellFormed
  case h_2 =>
    simp only [bind_eq_ok, pure_eq_ok] at h
    obtain ⟨items, h, rfl⟩ := h
    simpa using wellFormed_itemHints hi h
  case h_3 =>
    cases h
    simp

theorem wellFormed_declaredHint {t : TypeName}
    (hi : ∀ place ∈ s.items, WellFormedAt expand form (Naming.nested name "item") place)
    (h : s.declaredHint expand form name t = .ok hint) : hint.WellFormed form := by
  cases t <;> simp only [declaredHint, bind_eq_ok, pure_eq_ok] at h
  case object => exact h ▸ objectHint_wellFormed
  case array =>
    obtain ⟨items, h, rfl⟩ := h
    exact Hint.wellFormed_array.mpr (wellFormed_itemHints hi h)
  all_goals
    subst h
    simp

theorem wellFormed_hints
    (parts : ∀ role place, s.Has role place → ∀ name, WellFormedAt expand form name place)
    (h : s.hints expand form name = .ok hints) : WellFormed form hints := by
  rw [hints_eq] at h
  split at h
  case isTrue he =>
    cases h
    split
    · exact (enumHints_wellFormed he).push (by simp)
    · exact enumHints_wellFormed he
  case isFalse =>
    simp only [bind_eq_ok, pure_eq_ok] at h
    obtain ⟨implied, hi, ones, ho, anys, ha, declared, hd, rfl⟩ := h
    have items (place : SchemaRef) (hm : place ∈ s.items) :
        WellFormedAt expand form (Naming.nested name "item") place :=
      parts .item place (.item hm) _
    have union {members : List SchemaRef} {role : Nat → Role}
        (h : ∀ {j place}, members[j]? = some place → s.Has (role j) place) (place : SchemaRef)
        (hm : place ∈ members) (name : String) : WellFormedAt expand form name place := by
      obtain ⟨_, hj⟩ := List.getElem?_of_mem hm
      exact parts _ place (h hj) name
    refine orMixed_wellFormed (ofList_nodup _) fun hint hm => ?_
    simp only [mem_ofList, List.mem_append] at hm
    rcases hm with ((hm | hm | hm) | hm) | hm
    · exact wellFormed_impliedHints items hi hint hm
    · exact wellFormed_memberHints (union .oneOf) ho hint hm
    · exact wellFormed_memberHints (union .anyOf) ha hint hm
    · obtain ⟨_, _, hd⟩ := mem_of_mapM hd hint hm
      exact wellFormed_declaredHint items hd
    · split at hm <;> simp_all

theorem wellFormed_hintsAt (place : SchemaRef)
    (href : ∀ ⦃target hints⦄, expand target = .ok hints → WellFormed form hints) (name : String) :
    WellFormedAt expand form name place := by
  cases place with
  | ref target => exact fun _ h => href h
  | inline s =>
    induction s using Schema.induction generalizing name with
    | step s parts =>
      intro hints h
      cases ha : s.annotatedReference with
      | some target =>
        simp only [hintsAt, ha, bind_eq_ok, pure_eq_ok] at h
        obtain ⟨more, he, rfl⟩ := h
        split
        · exact (href he).push (by simp)
        · exact href he
      | none =>
        rw [hintsAt_inline ha] at h
        refine wellFormed_hints (fun role place has name => ?_) h
        cases place with
        | ref target => exact fun _ h => href h
        | inline c => exact parts has name

end Schema

namespace Document

open Hints

variable {d : Document} {schemas : SchemaIndex}

theorem wellFormed_expandReference {visiting : List String} {target : String} {steps : Nat}
    (h : d.expandReference schemas form visiting target steps = .ok hints) :
    WellFormed form hints := by
  induction steps generalizing visiting target hints with
  | zero =>
    cases h
    exact wellFormed_mixed
  | succ steps ih =>
    simp only [expandReference, bind_eq_ok, resolved_eq_ok] at h
    obtain ⟨⟨terminal, s⟩, ht, name, hn, h⟩ := h
    split at h
    case isTrue =>
      cases h
      exact wellFormed_mixed
    case isFalse =>
      have ha := (resolve_of_meantSchema ht).2
      rw [← Schema.hintsAt_inline ha] at h
      exact Schema.wellFormed_hintsAt (.inline s) (fun _ _ h => ih h) name h

theorem wellFormed_hintsAt {place : Option SchemaRef}
    (h : d.hintsAt schemas form name place = .ok hints) : WellFormed form hints := by
  cases place with
  | none =>
    cases h
    exact wellFormed_mixed
  | some p => exact Schema.wellFormed_hintsAt p (fun _ _ h => wellFormed_expandReference h) name h

-- The hints of a place, and those of the elements of lists in them at any depth, are some that are not null alone
-- and all different. What is handed over is never left as it was decoded, and what is decoded is of no class.
theorem hintsAt_inside {place : Option SchemaRef} (h : d.hintsAt schemas form name place = .ok hints)
    (inside : Inside inner hints) :
    inner ≠ [] ∧ inner ≠ [.null] ∧ inner.Nodup ∧ (form = .typed → .untyped ∉ inner) ∧
      (form = .decoded → ∀ cls, .model cls ∉ inner) := by
  have wf := (wellFormed_hintsAt h).inside inside
  obtain ⟨hint, hm, known⟩ := wf.known
  refine ⟨List.ne_nil_of_mem hm, ?_, wf.nodup, ?_, ?_⟩
  · rintro rfl
    exact known (List.mem_singleton.mp hm)
  · rintro rfl untyped
    cases Hint.wellFormed_basic.mp (wf.each _ untyped) rfl
  · rintro rfl cls model
    cases Hint.wellFormed_model.mp (wf.each _ model)

end Document

namespace PetStore

-- A list of pets, or null.
def petList : Schema where
  typeKeyword := some (.single .array)
  items := some (.ref "#/components/schemas/Pet")
  nullable := some true

end PetStore

namespace Document

theorem petStore_hintsAt_inside : ∃ n, PetStore.document.named = .ok n ∧
    PetStore.document.hintsAt n.schemas .typed "Pets" (some (.inline PetStore.petList)) =
      .ok [.array [.model "Pet"], .null] ∧
    PetStore.document.hintsAt n.schemas .decoded "Pets" (some (.inline PetStore.petList)) =
      .ok [.array [.untyped], .null] ∧
    .untyped ∉ [Hint.model "Pet"] ∧ ∀ cls, .model cls ∉ [Hint.untyped] := by
  have run : PetStore.document.named.toOption.map (fun n =>
      ((PetStore.document.hintsAt n.schemas .typed "Pets" (some (.inline PetStore.petList))).toOption.map id,
        (PetStore.document.hintsAt n.schemas .decoded "Pets" (some (.inline PetStore.petList))).toOption.map id)) =
      some (some [.array [.model "Pet"], .null], some [.array [.untyped], .null]) := by decide +kernel
  obtain ⟨n, named, run⟩ := exists_ok run
  obtain ⟨typed, decoded⟩ := Prod.mk.inj run
  obtain ⟨_, typed, rfl⟩ := exists_ok typed
  obtain ⟨_, decoded, rfl⟩ := exists_ok decoded
  obtain ⟨-, -, -, closed, -⟩ := hintsAt_inside typed (.element List.mem_cons_self .self)
  obtain ⟨-, -, -, -, untyped⟩ := hintsAt_inside decoded (.element List.mem_cons_self .self)
  exact ⟨n, named, typed, decoded, closed rfl, untyped rfl⟩

end Document

end OpenApiClient
