import OpenApiClient.Proofs.Hint.Named
import OpenApiClient.Proofs.Hint.WellFormed

/-!
Hints with every class replaced by what its values are decoded from. The two forms of the hints of a place
differ by this alone, whatever references, lists and unions there are on the way.
-/

namespace OpenApiClient

section

variable (classes : String → List Hint)

mutual

-- A class may become several alternatives.
def Hint.erased : Hint → List Hint
  | .basic type => [.basic type]
  | .model name => classes name
  | .array items => [.array (Hints.ofList (erasedAll items))]

def Hint.erasedAll : List Hint → List Hint
  | [] => []
  | hint :: rest => hint.erased ++ erasedAll rest

end

def Hints.erased (hints : List Hint) : Hints :=
  ofList (Hint.erasedAll classes hints)

end

namespace Hints

variable {hints more others : Hints} {hint other : Hint}

theorem push_of_mem (h : hint ∈ hints) : hints.push hint = hints :=
  if_pos h

theorem push_of_not_mem (h : hint ∉ hints) : hints.push hint = hints ++ [hint] :=
  if_neg h

theorem extend_append : hints.extend (more ++ others) = (hints.extend more).extend others :=
  List.foldl_append

theorem ofList_append : ofList (more ++ others) = (ofList more).extend others :=
  extend_append

theorem extend_of_subset (h : more ⊆ hints) : hints.extend more = hints := by
  induction more with
  | nil => rfl
  | cons hint rest ih =>
    have ⟨first, rest⟩ := List.cons_subset.mp h
    calc hints.extend (hint :: _)
      _ = (hints.push hint).extend _ := rfl
      _ = hints.extend _ := by rw [push_of_mem first]
      _ = hints := ih rest

-- What is left out of a list as a duplicate would add nothing where the list is put.
theorem extend_push : hints.extend (more.push hint) = (hints.extend more).push hint := by
  by_cases h : hint ∈ more
  case pos => rw [push_of_mem h, push_of_mem (mem_extend.mpr (.inr h))]
  case neg => rw [push_of_not_mem h, extend_append]; rfl

theorem extend_extend : hints.extend (more.extend others) = (hints.extend more).extend others := by
  induction others generalizing more with
  | nil => rfl
  | cons hint rest ih =>
    calc hints.extend (more.extend (hint :: rest))
      _ = hints.extend ((more.push hint).extend rest) := rfl
      _ = (hints.extend (more.push hint)).extend rest := ih
      _ = ((hints.extend more).push hint).extend rest := by rw [extend_push]

theorem extend_ofList : hints.extend (ofList more) = hints.extend more :=
  extend_extend

theorem ofList_append_congr {more' others' : List Hint} (h : ofList more = ofList more')
    (h' : ofList others = ofList others') : ofList (more ++ others) = ofList (more' ++ others') := by
  rw [ofList_append, ofList_append, ← extend_ofList, h, h', extend_ofList]

theorem extend_eq_append (h : (hints ++ more).Nodup) : hints.extend more = hints ++ more := by
  induction more generalizing hints with
  | nil => exact (List.append_nil hints).symm
  | cons hint rest ih =>
    have fresh : hint ∉ hints := fun hm =>
      (List.nodup_append.mp h).2.2 hint hm hint List.mem_cons_self rfl
    rw [List.append_cons] at h ⊢
    calc hints.extend (hint :: rest)
      _ = (hints.push hint).extend rest := rfl
      _ = (hints ++ [hint]).extend rest := by rw [push_of_not_mem fresh]
      _ = hints ++ [hint] ++ rest := ih h

theorem ofList_eq_self (h : hints.Nodup) : ofList hints = hints :=
  extend_eq_append h

variable {classes : String → List Hint}

theorem erasedAll_append : Hint.erasedAll classes (hints ++ more) =
    Hint.erasedAll classes hints ++ Hint.erasedAll classes more := by
  induction hints with
  | nil => rfl
  | cons hint rest ih => simp [Hint.erasedAll, ih]

theorem mem_erasedAll :
    other ∈ Hint.erasedAll classes hints ↔ ∃ hint ∈ hints, other ∈ hint.erased classes := by
  induction hints with
  | nil => simp [Hint.erasedAll]
  | cons hint rest ih => simp [Hint.erasedAll, ih]

theorem mem_erased : other ∈ erased classes hints ↔ ∃ hint ∈ hints, other ∈ hint.erased classes := by
  rw [erased, mem_ofList, mem_erasedAll]

theorem erased_nodup : (erased classes hints).Nodup :=
  ofList_nodup _

theorem erased_push :
    erased classes (hints.push hint) = (erased classes hints).extend (hint.erased classes) := by
  by_cases h : hint ∈ hints
  case pos =>
    rw [push_of_mem h, extend_of_subset]
    exact fun _ hm => mem_erased.mpr ⟨hint, h, hm⟩
  case neg =>
    rw [push_of_not_mem h, erased, erasedAll_append, ofList_append]
    simp [Hint.erasedAll, erased]

-- Duplicates may be dropped before or after.
theorem erased_extend :
    erased classes (hints.extend more) = (erased classes hints).extend (Hint.erasedAll classes more) := by
  induction more generalizing hints with
  | nil => rfl
  | cons hint rest ih =>
    calc erased classes (hints.extend (hint :: rest))
      _ = erased classes ((hints.push hint).extend rest) := rfl
      _ = (erased classes (hints.push hint)).extend (Hint.erasedAll classes rest) := ih
      _ = (erased classes hints).extend (Hint.erasedAll classes (hint :: rest)) := by
        rw [erased_push, Hint.erasedAll, extend_append]

theorem erased_ofList : erased classes (ofList hints) = ofList (Hint.erasedAll classes hints) :=
  erased_extend

theorem erasedAll_eq_self (h : ∀ hint ∈ hints, hint.erased classes = [hint]) :
    Hint.erasedAll classes hints = hints := by
  induction hints with
  | nil => rfl
  | cons hint rest ih =>
    have ⟨first, rest⟩ := List.forall_mem_cons.mp h
    rw [Hint.erasedAll, first, ih rest, List.singleton_append]

-- What mentions no class is decoded as it is.
theorem erased_eq_self {form : ValueForm} (h : WellFormed form hints)
    (hm : ∀ cls, ¬ Mention hints cls) : erased classes hints = hints := by
  have each {hint : Hint} (h : hint.WellFormed form) (hm : ∀ cls, ¬ hint.Mentions cls) :
      hint.erased classes = [hint] := by
    induction h with
    | basic => rfl
    | @model name => exact absurd .model (hm name)
    | @array items nodup _ _ ih =>
      have unmentioned : ∀ hint ∈ items, hint.erased classes = [hint] :=
        fun hint hi => ih hint hi fun cls h => hm cls (.array hi h)
      rw [Hint.erased, erasedAll_eq_self unmentioned, ofList_eq_self nodup]
  have unmentioned : ∀ hint ∈ hints, hint.erased classes = [hint] :=
    fun hint hi => each (h.each hint hi) fun cls hc => hm cls ⟨hint, hi, hc⟩
  rw [erased, erasedAll_eq_self unmentioned, ofList_eq_self h.nodup]

end Hints

namespace Schema

open Hints

-- There is nothing known but null exactly if this is so of what the classes are decoded from, since
-- none of them is decoded from null alone.
theorem orMixed_erased {classes : String → List Hint} {hints : List Hint} (hn : hints.Nodup)
    (proper : ∀ name, ∃ hint ∈ classes name, hint ≠ .null) :
    orMixed (erased classes hints) = erased classes (orMixed hints) := by
  have nulls_iff : (∀ hint ∈ erased classes hints, hint = .null) ↔ ∀ hint ∈ hints, hint = .null := by
    constructor
    · intro nulls hint hm
      have nulls {other : Hint} (ho : other ∈ hint.erased classes) : other = .null :=
        nulls other (mem_erased.mpr ⟨hint, hm, ho⟩)
      cases hint with
      | basic => exact nulls (List.mem_singleton_self _)
      | model name =>
        have ⟨other, ho, hne⟩ := proper name
        exact absurd (nulls ho) hne
      | array => nomatch nulls (List.mem_singleton_self _)
    · intro nulls other ho
      obtain ⟨hint, hm, ho⟩ := mem_erased.mp ho
      rw [nulls hint hm] at ho
      simpa [Hint.erased] using ho
  unfold orMixed
  simp only [eq_nil_or_null_iff hn, eq_nil_or_null_iff erased_nodup, nulls_iff]
  split
  · rw [erased_push]; rfl
  · rfl

-- For each class what it is decoded from, as far as `P` knows of schemas under their names.
structure Erasure (classes : String → List Hint) (P : String → Schema → Prop) : Prop where
  proper : ∀ name, ∃ hint ∈ classes name, hint ≠ .null
  object {name s} : P name s → s.kind = .object → classes name = [.untyped]
  enumeration {name s} : P name s → s.kind.isEnum → classes name = s.enumHints .decoded name
  part {name s role c} : P name s → s.Has role (.inline c) → P (role.nameIn name) c

section

variable {typed decoded : String → Except BuildError Hints} {classes : String → List Hint}
  {P : String → Schema → Prop} {name : String} {s : Schema} {hints : Hints}

-- If a place can be typed, then the decoded hints are those of the type, erased.
def ErasedAt (typed decoded : String → Except BuildError Hints) (classes : String → List Hint)
    (name : String) (place : SchemaRef) : Prop :=
  ∀ ⦃hints⦄, hintsAt typed .typed name place = .ok hints →
    hintsAt decoded .decoded name place = .ok (erased classes hints)

theorem itemHints_erased {items : Option SchemaRef}
    (hi : ∀ place ∈ items, ErasedAt typed decoded classes (Naming.nested name "item") place)
    (h : itemHints typed .typed name items = .ok hints) :
    itemHints decoded .decoded name items = .ok (erased classes hints) := by
  cases items with
  | none =>
    cases h
    rfl
  | some place => exact hi place rfl h

theorem memberHints_erased {keyword : String} {i : Nat} {members : List SchemaRef}
    (hm : ∀ j place, members[j]? = some place →
      ErasedAt typed decoded classes (Naming.nested name (keyword ++ toString (i + j + 1))) place)
    (h : memberHints typed .typed name keyword i members = .ok hints) :
    ∃ hints', memberHints decoded .decoded name keyword i members = .ok hints' ∧
      ofList hints' = ofList (Hint.erasedAll classes hints) := by
  induction members generalizing i hints with
  | nil =>
    cases h
    exact ⟨[], rfl, rfl⟩
  | cons place rest ih =>
    simp only [memberHints, bind_eq_ok, pure_eq_ok] at h ⊢
    obtain ⟨first, hf, others, ho, rfl⟩ := h
    obtain ⟨others', ho', same⟩ := ih
      (fun j p hj => Nat.add_right_comm i 1 j ▸ hm (j + 1) p hj) ho
    refine ⟨_, ⟨_, hm 0 place rfl hf, others', ho', rfl⟩, ?_⟩
    rw [erasedAll_append]
    exact ofList_append_congr (ofList_eq_self erased_nodup) same

theorem impliedHints_erased (hc : Erasure classes P) (hp : P name s)
    (hi : ∀ place ∈ s.items, ErasedAt typed decoded classes (Naming.nested name "item") place)
    (h : s.impliedHints typed .typed name = .ok hints) :
    s.impliedHints decoded .decoded name = .ok (Hint.erasedAll classes hints) := by
  unfold impliedHints at h ⊢
  split at h
  case h_1 hk =>
    cases h
    simp [Hint.erasedAll, Hint.erased, hc.object hp hk, objectHint]
  case h_2 =>
    simp only [bind_eq_ok, pure_eq_ok] at h ⊢
    obtain ⟨items, h, rfl⟩ := h
    exact ⟨_, itemHints_erased hi h, rfl⟩
  case h_3 =>
    cases h
    rfl

-- A declared type is never more than one alternative, also in decoded form.
theorem declaredHint_erased (hc : Erasure classes P) (hp : P name s)
    (hi : ∀ place ∈ s.items, ErasedAt typed decoded classes (Naming.nested name "item") place)
    (he : ¬ s.kind.isEnum) {t : TypeName} {hint : Hint} (ht : t ∈ s.types)
    (h : s.declaredHint typed .typed name t = .ok hint) :
    ∃ hint', s.declaredHint decoded .decoded name t = .ok hint' ∧ hint.erased classes = [hint'] := by
  cases t <;> simp only [declaredHint, bind_eq_ok, pure_eq_ok] at h ⊢
  case object =>
    subst h
    have object : s.kind = .object := (kind_eq_object_iff he).mpr <| .inl <| by simpa [hasType] using ht
    exact ⟨_, rfl, hc.object hp object⟩
  case array =>
    obtain ⟨items, h, rfl⟩ := h
    exact ⟨_, ⟨_, itemHints_erased hi h, rfl⟩, rfl⟩
  all_goals
    subst h
    exact ⟨_, rfl, rfl⟩

theorem declaredHints_erased (hc : Erasure classes P) (hp : P name s)
    (hi : ∀ place ∈ s.items, ErasedAt typed decoded classes (Naming.nested name "item") place)
    (he : ¬ s.kind.isEnum) {types : List TypeName} (ht : types ⊆ s.types)
    (h : types.mapM (s.declaredHint typed .typed name) = .ok hints) :
    types.mapM (s.declaredHint decoded .decoded name) = .ok (Hint.erasedAll classes hints) := by
  induction types generalizing hints with
  | nil =>
    cases h
    rfl
  | cons t rest ih =>
    obtain ⟨first, rest⟩ := List.cons_subset.mp ht
    simp only [List.mapM_cons, bind_eq_ok, pure_eq_ok] at h ⊢
    obtain ⟨hint, hf, others, ho, rfl⟩ := h
    obtain ⟨hint', hf', erased⟩ := declaredHint_erased hc hp hi he first hf
    refine ⟨hint', hf', _, ih rest ho, ?_⟩
    rw [Hint.erasedAll, erased, List.singleton_append]

theorem hints_erased (hc : Erasure classes P) (hp : P name s)
    (parts : ∀ role place, s.Has role place → ErasedAt typed decoded classes (role.nameIn name) place)
    (h : s.hints typed .typed name = .ok hints) :
    s.hints decoded .decoded name = .ok (erased classes hints) := by
  rw [hints_eq] at h ⊢
  split at h
  case isTrue he =>
    have own : erased classes (s.enumHints .typed name) = s.enumHints .decoded name := by
      rw [enumHints_typed, erased, Hint.erasedAll, Hint.erasedAll, Hint.erased, List.append_nil,
        hc.enumeration hp he]
      exact ofList_eq_self (ofList_nodup _)
    rw [if_pos he, ← own]
    cases h
    split
    · rw [erased_push]; rfl
    · rfl
  case isFalse he =>
    rw [if_neg he]
    simp only [bind_eq_ok, pure_eq_ok] at h ⊢
    obtain ⟨implied, hi, ones, ho, anys, ha, declared, hd, rfl⟩ := h
    have items (place : SchemaRef) (hm : place ∈ s.items) :
        ErasedAt typed decoded classes (Naming.nested name "item") place :=
      parts .item place (.item hm)
    have one (j : Nat) (place : SchemaRef) (hj : s.oneOf[j]? = some place) : ErasedAt typed decoded
        classes (Naming.nested name ("oneOf" ++ toString (0 + j + 1))) place := by
      rw [Nat.zero_add]
      exact parts (.oneOf j) place (.oneOf hj)
    have any (j : Nat) (place : SchemaRef) (hj : s.anyOf[j]? = some place) : ErasedAt typed decoded
        classes (Naming.nested name ("anyOf" ++ toString (0 + j + 1))) place := by
      rw [Nat.zero_add]
      exact parts (.anyOf j) place (.anyOf hj)
    obtain ⟨ones', ho', same⟩ := memberHints_erased one ho
    obtain ⟨anys', ha', same'⟩ := memberHints_erased any ha
    refine ⟨_, impliedHints_erased hc hp items hi, ones', ho', anys', ha', _,
      declaredHints_erased hc hp items he (List.Subset.refl _) hd, ?_⟩
    have nullable : Hint.erasedAll classes (if s.nullable == some true then [.null] else []) =
        if s.nullable == some true then [.null] else [] := by
      split <;> rfl
    rw [← orMixed_erased (ofList_nodup _) hc.proper, erased_ofList]
    simp only [erasedAll_append, nullable]
    refine congrArg orMixed ?_
    exact ofList_append_congr (ofList_append_congr (ofList_append_congr rfl
      (ofList_append_congr same same')) rfl) rfl

theorem hintsAt_erased (hc : Erasure classes P) (place : SchemaRef) (hp : place.Only (P name))
    (href : ∀ ⦃target hints⦄, typed target = .ok hints → decoded target = .ok (erased classes hints)) :
    ErasedAt typed decoded classes name place := by
  cases place with
  | ref target => exact fun _ h => href h
  | inline s =>
    induction s using Schema.induction generalizing name with
    | step s parts =>
      intro hints h
      cases ha : s.annotatedReference with
      | some target =>
        simp only [hintsAt, ha, bind_eq_ok, pure_eq_ok] at h ⊢
        obtain ⟨more, he, rfl⟩ := h
        refine ⟨_, href he, ?_⟩
        split
        · rw [erased_push]; rfl
        · rfl
      | none =>
        have hs : P name s := RefOr.only_inline.mp hp
        rw [hintsAt_inline ha] at h ⊢
        refine hints_erased hc hs (fun role place has => ?_) h
        cases place with
        | ref target => exact fun _ h => href h
        | inline c => exact parts has (RefOr.only_inline.mpr (hc.part hs has))

end

end Schema

namespace Document

variable {d : Document} {n : NamedDocument} {classes : String → List Hint} {name : String}
  {hints : Hints}

-- A name that comes back is left open in both forms, and it does so after the same steps.
theorem expandReference_erased (hd : d.Distinct) (h : d.named = .ok n)
    (hc : Schema.Erasure classes (d.Named n.responses)) {visiting : List String} {target : String}
    {steps : Nat} (hh : d.expandReference n.schemas .typed visiting target steps = .ok hints) :
    d.expandReference n.schemas .decoded visiting target steps = .ok (Hints.erased classes hints) := by
  induction steps generalizing visiting target hints with
  | zero =>
    cases hh
    rfl
  | succ steps ih =>
    simp only [expandReference, bind_eq_ok, resolved_eq_ok] at hh ⊢
    obtain ⟨⟨terminal, s⟩, ht, name, hn, hh⟩ := hh
    refine ⟨_, ht, name, hn, ?_⟩
    split at hh
    case isTrue hv =>
      cases hh
      rw [if_pos hv]
      rfl
    case isFalse hv =>
      rw [if_neg hv]
      have ha := (resolve_of_meantSchema ht).2
      have named : d.Named n.responses name s := Leads.named hd h ⟨terminal, ht, hn⟩
      rw [← Schema.hintsAt_inline ha] at hh ⊢
      exact Schema.hintsAt_erased hc (.inline s) (RefOr.only_inline.mpr named) (fun _ _ h => ih h) hh

theorem hintsAt_erased (hd : d.Distinct) (h : d.named = .ok n)
    (hc : Schema.Erasure classes (d.Named n.responses)) {place : Option SchemaRef}
    (hp : ∀ p ∈ place, p.Only (d.Named n.responses name))
    (hh : d.hintsAt n.schemas .typed name place = .ok hints) :
    d.hintsAt n.schemas .decoded name place = .ok (Hints.erased classes hints) := by
  cases place with
  | none =>
    cases hh
    rfl
  | some p =>
    exact Schema.hintsAt_erased hc p (hp p rfl) (fun _ _ h' => expandReference_erased hd h hc h') hh

end Document

end OpenApiClient
