import OpenApiClient.Proofs.Hint.Expansion
import OpenApiClient.Proofs.Hint.WellFormed

/-!
When null is among the hints of a place: if a schema says so itself, or a member of a union does. A schema that
annotates a reference says so where it is written, but not to a reference that passes it on the way.
-/

namespace OpenApiClient

namespace Schema

open Hints

-- The schema itself lets a value be null, whatever the members of its unions do.
def DeclaresNull (s : Schema) : Prop :=
  s.hasType .null ∨ s.nullable = some true ∨ s.kind.isEnum ∧ s.enumValues.any (·.isNull)

variable {expand : String → Except BuildError Hints} {form : ValueForm} {name : String} {s : Schema}
  {hints : Hints} {P : SchemaRef → Prop}

theorem null_mem_memberHints {keyword : String} {i : Nat} {members : List SchemaRef}
    (hP : ∀ place ∈ members, ∀ name hints, hintsAt expand form name place = .ok hints →
      (.null ∈ hints ↔ P place))
    (h : memberHints expand form name keyword i members = .ok hints) :
    .null ∈ hints ↔ ∃ place ∈ members, P place := by
  induction members generalizing i hints with
  | nil =>
    cases h
    simp
  | cons place rest ih =>
    simp only [memberHints, bind_eq_ok, pure_eq_ok] at h
    obtain ⟨first, hf, others, ho, rfl⟩ := h
    obtain ⟨hp, hr⟩ := List.forall_mem_cons.mp hP
    simp only [List.mem_append, hp _ _ hf, ih hr ho, List.exists_mem_cons_iff]

theorem null_not_mem_impliedHints (h : s.impliedHints expand form name = .ok hints) : .null ∉ hints := by
  unfold impliedHints at h
  split at h
  case h_1 =>
    cases h
    cases form <;> simp [objectHint]
  case h_2 =>
    simp only [bind_eq_ok, pure_eq_ok] at h
    obtain ⟨items, -, rfl⟩ := h
    simp
  case h_3 =>
    cases h
    simp

theorem declaredHint_eq_null {t : TypeName} (h : s.declaredHint expand form name t = .ok hint) :
    hint = .null ↔ t = .null := by
  cases t <;> simp only [declaredHint, bind_eq_ok, pure_eq_ok] at h
  case array =>
    obtain ⟨items, -, rfl⟩ := h
    simp
  case object =>
    subst h
    cases form <;> simp [objectHint]
  all_goals
    subst h
    simp

theorem null_mem_declaredHints (h : s.types.mapM (s.declaredHint expand form name) = .ok hints) :
    .null ∈ hints ↔ s.hasType .null := by
  rw [hasType, List.contains_iff_mem]
  constructor
  · intro null
    obtain ⟨t, ht, hd⟩ := mem_of_mapM h _ null
    exact (declaredHint_eq_null hd).mp rfl ▸ ht
  · intro null
    obtain ⟨hint, hm, hd⟩ := mem_mapM h _ null
    exact (declaredHint_eq_null hd).mpr rfl ▸ hm

theorem exists_role_of_member {place : SchemaRef} (he : ¬ s.kind.isEnum) (hm : place ∈ s.oneOf ++ s.anyOf) :
    ∃ role, s.Shows role ∧ s.Has role place := by
  rcases List.mem_append.mp hm with hm | hm
  · obtain ⟨i, hi⟩ := List.getElem?_of_mem hm
    exact ⟨.oneOf i, he, .oneOf hi⟩
  · obtain ⟨i, hi⟩ := List.getElem?_of_mem hm
    exact ⟨.anyOf i, he, .anyOf hi⟩

theorem null_not_mem_enumHints : .null ∉ s.enumHints form name := by
  cases form with
  | typed => simp
  | decoded => simp [enumHints, literalHint_ne_null]

@[simp] theorem null_mem_orMixed : .null ∈ orMixed hints ↔ .null ∈ hints := by
  unfold orMixed
  split <;> simp

-- If `P` says which members show null, then the schema does if it declares null or has such a member.
theorem null_mem_hints
    (hP : ¬ s.kind.isEnum → ∀ place ∈ s.oneOf ++ s.anyOf, ∀ name hints,
      hintsAt expand form name place = .ok hints → (.null ∈ hints ↔ P place))
    (h : s.hints expand form name = .ok hints) :
    .null ∈ hints ↔ s.DeclaresNull ∨ ¬ s.kind.isEnum ∧ ∃ place ∈ s.oneOf ++ s.anyOf, P place := by
  rw [hints_eq] at h
  split at h
  case isTrue he =>
    have admits : s.admitsNull ↔ s.DeclaresNull := by
      simp [admitsNull, DeclaresNull, he, or_assoc]
    have shown : .null ∈ hints ↔ s.admitsNull := by
      cases h
      split <;> simp_all [null_not_mem_enumHints]
    simp [shown, admits, he]
  case isFalse he =>
    simp only [bind_eq_ok, pure_eq_ok] at h
    obtain ⟨implied, hi, ones, ho, anys, ha, declared, hd, rfl⟩ := h
    have ones_iff := null_mem_memberHints (fun place hm => hP he place (List.mem_append_left _ hm)) ho
    have anys_iff := null_mem_memberHints (fun place hm => hP he place (List.mem_append_right _ hm)) ha
    have nullable : .null ∈ (if s.nullable == some true then [Hint.null] else []) ↔ s.nullable = some true := by
      split <;> simp_all
    simp only [null_mem_orMixed, mem_ofList, List.mem_append, null_not_mem_impliedHints hi, ones_iff, anys_iff,
      null_mem_declaredHints hd, nullable, DeclaresNull, he, or_and_right, exists_or, Bool.false_eq_true,
      not_false_eq_true, true_and, false_and, or_false, false_or]
    rw [or_assoc, or_comm]

end Schema

namespace Document

-- Null is among the hints of a place that is met while the names in `visiting` are being expanded. What a reference
-- means decides; the schemas that it passes on the way do not.
inductive ShowsNull (d : Document) (schemas : SchemaIndex) : List String → SchemaRef → Prop
  | ref {visiting reference e} : d.Means schemas reference e → e.name ∉ visiting →
    ShowsNull d schemas (e.name :: visiting) (.inline e.schema) → ShowsNull d schemas visiting (.ref reference)
  | annotating {visiting s reference} : s.annotatedReference = some reference → s.nullable = some true →
    ShowsNull d schemas visiting (.inline s)
  | annotated {visiting s reference} : s.annotatedReference = some reference →
    ShowsNull d schemas visiting (.ref reference) → ShowsNull d schemas visiting (.inline s)
  | declared {visiting s} : s.annotatedReference = none → s.DeclaresNull →
    ShowsNull d schemas visiting (.inline s)
  | member {visiting s place} : s.annotatedReference = none → ¬ s.kind.isEnum → place ∈ s.oneOf ++ s.anyOf →
    ShowsNull d schemas visiting place → ShowsNull d schemas visiting (.inline s)

variable {d : Document} {schemas : SchemaIndex} {form : ValueForm} {visiting : List String} {reference name : String}
  {s : Schema} {e : Expansion} {place : SchemaRef} {hints : Hints}

theorem showsNull_ref (means : d.Means schemas reference e) (fresh : e.name ∉ visiting) :
    d.ShowsNull schemas visiting (.ref reference) ↔
      d.ShowsNull schemas (e.name :: visiting) (.inline e.schema) where
  mp
    | .ref means' _ h => means.unique means' ▸ h
  mpr := .ref means fresh

theorem showsNull_annotated {target : String} (ha : s.annotatedReference = some target) :
    d.ShowsNull schemas visiting (.inline s) ↔
      s.nullable = some true ∨ d.ShowsNull schemas visiting (.ref target) := by
  constructor
  · intro h
    cases h with
    | annotating _ nullable => exact .inl nullable
    | annotated ha' h =>
      cases ha.symm.trans ha'
      exact .inr h
    | declared ha' | member ha' => cases ha.symm.trans ha'
  · rintro (nullable | h)
    · exact .annotating ha nullable
    · exact .annotated ha h

theorem showsNull_inline (ha : s.annotatedReference = none) :
    d.ShowsNull schemas visiting (.inline s) ↔
      s.DeclaresNull ∨
        ¬ s.kind.isEnum ∧ ∃ place ∈ s.oneOf ++ s.anyOf, d.ShowsNull schemas visiting place := by
  constructor
  · intro h
    cases h with
    | annotating ha' | annotated ha' => cases ha.symm.trans ha'
    | declared _ declares => exact .inl declares
    | member _ he hm h => exact .inr ⟨he, _, hm, h⟩
  · rintro (declares | ⟨he, _, hm, h⟩)
    · exact .declared ha declares
    · exact .member ha he hm h

-- The induction is on what is written in the place, references being taken to show null if their hints have it.
theorem null_mem_iff_of_asked {expand : String → Except BuildError Hints}
    (href : ∀ target, Schema.Asks place target → ∀ hints, expand target = .ok hints →
      (.null ∈ hints ↔ d.ShowsNull schemas visiting (.ref target)))
    (h : Schema.hintsAt expand form name place = .ok hints) :
    .null ∈ hints ↔ d.ShowsNull schemas visiting place := by
  cases place with
  | ref target => exact href target .ref hints h
  | inline s =>
    induction s using Schema.induction generalizing name hints with
    | step s parts =>
      cases ha : s.annotatedReference with
      | some target =>
        simp only [Schema.hintsAt, ha, bind_eq_ok, pure_eq_ok] at h
        obtain ⟨more, he, rfl⟩ := h
        rw [showsNull_annotated ha, ← href target (.annotated ha) more he]
        by_cases nullable : s.nullable = some true <;> simp [nullable]
      | none =>
        rw [Schema.hintsAt_inline ha] at h
        rw [showsNull_inline ha]
        refine Schema.null_mem_hints (fun he place hm name hints hp => ?_) h
        obtain ⟨role, shows, has⟩ := Schema.exists_role_of_member he hm
        cases place with
        | ref target => exact href target (.part ha shows has .ref) hints hp
        | inline c => exact parts has (fun target asks => href target (.part ha shows has asks)) hp

theorem null_mem_iff_of_expands {outcome : Except BuildError Hints}
    (h : d.Expands schemas .returning form visiting reference outcome) :
    ∀ hints, outcome = .ok hints → (.null ∈ hints ↔ d.ShowsNull schemas visiting (.ref reference)) := by
  induction h with
  | broken | unnamed => exact fun _ ho => nomatch ho
  | @back visiting reference e means again =>
    rintro hints ⟨⟩
    have hidden : ¬ d.ShowsNull schemas visiting (.ref reference) := by
      intro shown
      cases shown with
      | ref means' fresh => exact fresh (means.unique means' ▸ again)
    simpa using hidden
  | target means fresh _ ih =>
    intro hints ho
    rw [showsNull_ref means fresh]
    rw [← Schema.hintsAt_inline means.annotatedReference] at ho
    exact null_mem_iff_of_asked ih ho

-- Exactly when null is among the hints of a place.
theorem null_mem_iff (h : d.hintsAt schemas form name (some place) = .ok hints) :
    .null ∈ hints ↔ d.ShowsNull schemas [] place := by
  have trail : d.Trail schemas .returning place [] place := .start
  refine null_mem_iff_of_asked (fun target asks => ?_) h
  exact null_mem_iff_of_expands (expands_expandReference trail asks (by simp [maxSteps]))

theorem means_of_hintsAt (h : d.hintsAt schemas form name (some (.ref reference)) = .ok hints) :
    ∃ e, d.Means schemas reference e := by
  have expands : d.Expands schemas .returning form [] reference (.ok hints) :=
    resolves_ref.mp (h ▸ resolves_hintsAt)
  generalize ho : Except.ok hints = outcome at expands
  cases expands with
  | broken | unnamed => contradiction
  | back means | target means => exact ⟨_, means⟩

theorem showsNull_of_passes {wrappers : List Schema} {terminal : String} {target : Schema}
    (means : d.Means schemas reference e) (passes : d.Passes reference wrappers terminal target) :
    d.ShowsNull schemas [] (.ref reference) ↔
      ∃ cls, schemas.nameOf terminal = .ok cls ∧ d.ShowsNull schemas [cls] (.inline target) := by
  rw [showsNull_ref means List.not_mem_nil]
  obtain ⟨_, ht, hn, _⟩ := means
  obtain ⟨_, passes'⟩ := passes_of_unwraps (unwraps_iff.mpr ht)
  obtain ⟨-, rfl, rfl⟩ := passes.unique passes'
  simp [hn]

theorem null_mem_of_annotated {w : Schema} (ha : w.annotatedReference = some reference)
    (h : d.hintsAt schemas form name (some (.ref reference)) = .ok hints) :
    ∃ inline, d.hintsAt schemas form name (some (.inline w)) = .ok inline ∧
      (.null ∈ inline ↔ w.nullable = some true ∨ .null ∈ hints) := by
  refine ⟨if w.nullable == some true then hints.push .null else hints, ?_, ?_⟩
  · rw [hintsAt, Schema.hintsAt] at h
    simp [hintsAt, Schema.hintsAt, ha, h]
  · by_cases nullable : w.nullable = some true <;> simp [nullable]

-- What annotates a reference where this is written adds null. What annotates it on the way does not, so that null is
-- lost unless nothing on the way would add it, or what is meant shows it anyway.
theorem null_of_wrappers_iff {wrappers : List Schema} {terminal : String} {target : Schema}
    (passes : d.Passes reference wrappers terminal target)
    (h : d.hintsAt schemas form name (some (.ref reference)) = .ok hints) :
    (((∃ w ∈ wrappers, w.nullable = some true) → .null ∈ hints) ↔
      (∀ w ∈ wrappers, w.nullable ≠ some true) ∨
        ∃ cls, schemas.nameOf terminal = .ok cls ∧ d.ShowsNull schemas [cls] (.inline target)) ∧
    ∀ w, w.annotatedReference = some reference → ∃ inline,
      d.hintsAt schemas form name (some (.inline w)) = .ok inline ∧
        (.null ∈ inline ↔ w.nullable = some true ∨ .null ∈ hints) := by
  obtain ⟨e, means⟩ := means_of_hintsAt h
  refine ⟨?_, fun w ha => null_mem_of_annotated ha h⟩
  rw [null_mem_iff h, showsNull_of_passes means passes, imp_iff_not_or]
  simp only [not_exists, not_and, ne_eq]

end Document

namespace Wardrobe

-- A size, and a size that may be missing.
def size : Schema where
  enumValues := [.string "small", .string "large"]

def maybeSize : Schema where
  nullable := some true
  allOf := [.ref "#/components/schemas/Size"]

def document : Document where
  openapi := "3.0.0"
  info := { title := "Shop", version := "1" }
  components := some { schemas := [("Size", .inline size), ("MaybeSize", .inline maybeSize)] }

-- Written in a place, it annotates the size that may be missing.
def wornSize : Schema where
  nullable := some true
  allOf := [.ref "#/components/schemas/MaybeSize"]

variable {schemas : SchemaIndex} {name : String}

-- What can be computed of the document: it has names, and its references are read as ways to components.
theorem computed : document.named.toOption.map (fun _ => ()) = some () ∧
    Pointer.segments "#/components/schemas/Size" = .ok ["components", "schemas", "Size"] ∧
    Pointer.segments "#/components/schemas/MaybeSize" = .ok ["components", "schemas", "MaybeSize"] ∧
    Naming.ofComponentKey "Size" = .ok "Size" := by
  decide +kernel

theorem resolve_maybeSize : document.resolve "#/components/schemas/MaybeSize" = .ok (.schema maybeSize) := by
  obtain ⟨-, -, way, -⟩ := computed
  exact Document.resolve_of_walk way rfl

theorem resolve_size : document.resolve "#/components/schemas/Size" = .ok (.schema size) := by
  obtain ⟨-, way, -⟩ := computed
  exact Document.resolve_of_walk way rfl

theorem passes : document.Passes "#/components/schemas/MaybeSize" [maybeSize] "#/components/schemas/Size" size :=
  .annotated resolve_maybeSize rfl (.meant resolve_size rfl)

theorem means_size : document.Means schemas "#/components/schemas/MaybeSize"
    ⟨"Size", ["components", "schemas", "Size"], size⟩ := by
  have meant : document.meantSchema "#/components/schemas/MaybeSize" = .ok ("#/components/schemas/Size", size) :=
    Document.unwraps_iff.mp <| .next (.found resolve_maybeSize rfl) rfl List.not_mem_nil <|
      .found (.found resolve_size rfl) rfl
  obtain ⟨-, way, -, size_name⟩ := computed
  exact Document.means_component meant way size_name

theorem hintsAt_maybeSize : document.hintsAt schemas .typed name (some (.ref "#/components/schemas/MaybeSize")) =
    .ok [.model "Size"] := by
  have hints : size.hints (fun _ => .ok []) .typed "Size" = .ok [.model "Size"] := rfl
  refine Document.resolves_hintsAt.unique (Document.resolves_ref.mpr ?_)
  refine hints ▸ .target means_size List.not_mem_nil fun _ asks => ?_
  exact absurd asks (Schema.not_asks_of_isEnum rfl rfl)

end Wardrobe

namespace Document

open Wardrobe

theorem wardrobe_null : ∃ n, document.named = .ok n ∧
    document.Passes "#/components/schemas/MaybeSize" [maybeSize] "#/components/schemas/Size" size ∧
    document.hintsAt n.schemas .typed "Shop" (some (.ref "#/components/schemas/MaybeSize")) = .ok [.model "Size"] ∧
    (¬ ∃ cls, n.schemas.nameOf "#/components/schemas/Size" = .ok cls ∧
      document.ShowsNull n.schemas [cls] (.inline size)) ∧
    ∃ inline, document.hintsAt n.schemas .typed "Shop" (some (.inline wornSize)) = .ok inline ∧
      .null ∈ inline := by
  obtain ⟨n, named, -⟩ := exists_ok Wardrobe.computed.1
  have hints : document.hintsAt n.schemas .typed "Shop" (some (.ref "#/components/schemas/MaybeSize")) =
      .ok [.model "Size"] := hintsAt_maybeSize
  obtain ⟨kept, written⟩ := null_of_wrappers_iff passes hints
  obtain ⟨inline, resolved, null⟩ := written wornSize rfl
  refine ⟨n, named, passes, hints, fun shows => ?_, inline, resolved, null.mpr (.inl rfl)⟩
  simpa using kept.mpr (.inr shows) ⟨maybeSize, List.mem_singleton_self _, rfl⟩

-- So a size that may be missing is taken for one that may not.
theorem not_null_of_wrappers : ¬ ∀ (d : Document) (n : NamedDocument), d.named = .ok n →
    ∀ reference wrappers terminal target, d.Passes reference wrappers terminal target →
      (∃ w ∈ wrappers, w.nullable = some true) → ∀ form name hints,
        d.hintsAt n.schemas form name (some (.ref reference)) = .ok hints → .null ∈ hints := by
  intro kept
  obtain ⟨n, named, -⟩ := exists_ok Wardrobe.computed.1
  have null := kept document n named _ _ _ _ passes ⟨maybeSize, List.mem_singleton_self _, rfl⟩ .typed "Shop" _
    hintsAt_maybeSize
  simp at null

end Document

end OpenApiClient
