import Mathlib.Data.List.Nodup
import OpenApiClient.Proofs.Hint.Asked
import OpenApiClient.Proofs.Hint.Makes
import OpenApiClient.Proofs.Index.Names
import OpenApiClient.Proofs.Reference.Followed

/-!
Expanding references for as long as it takes. The rules here count no steps, so that what comes of them comes of a
computation that ends. There is always something, which is what `hintsAt` gives: the references that are
expanded one in the other are not more than the document has.
-/

namespace OpenApiClient

-- When a schema is left open because of its name and the names that are being expanded.
abbrev Guard := List String → String → Prop

def Guard.returning : Guard := fun visiting name => name ∈ visiting

def Guard.never : Guard := fun _ _ => False

-- A schema that a reference was expanded to, with its name and the way to where it is written.
structure Expansion where
  name : String
  way : List String
  schema : Schema

namespace Document

def Means (d : Document) (schemas : SchemaIndex) (reference : String) (e : Expansion) : Prop :=
  ∃ terminal, d.meantSchema reference = .ok (terminal, e.schema) ∧ schemas.nameOf terminal = .ok e.name ∧
    Pointer.segments terminal = .ok e.way

-- What comes of expanding a reference while the names in `visiting` are being expanded.
inductive Expands (d : Document) (schemas : SchemaIndex) (guard : Guard) (form : ValueForm) :
    List String → String → Except BuildError Hints → Prop
  | broken {visiting reference error} : d.meantSchema reference = .error error →
    Expands d schemas guard form visiting reference (.error (.resolve error))
  | unnamed {visiting reference terminal s error} : d.meantSchema reference = .ok (terminal, s) →
    schemas.nameOf terminal = .error error → Expands d schemas guard form visiting reference (.error error)
  | back {visiting reference e} : d.Means schemas reference e → guard visiting e.name →
    Expands d schemas guard form visiting reference (.ok [.mixed])
  | target {visiting reference e expand} : d.Means schemas reference e → ¬ guard visiting e.name →
    (∀ inner, Schema.Asks (.inline e.schema) inner →
      Expands d schemas guard form (e.name :: visiting) inner (expand inner)) →
    Expands d schemas guard form visiting reference (e.schema.hints expand form e.name)

-- What the hints of a place come to, where a schema would be called `name`.
inductive Resolves (d : Document) (schemas : SchemaIndex) (guard : Guard) (form : ValueForm) (name : String) :
    Option SchemaRef → Except BuildError Hints → Prop
  | none : Resolves d schemas guard form name none (.ok [.mixed])
  | some {place expand} :
    (∀ target, Schema.Asks place target → d.Expands schemas guard form [] target (expand target)) →
    Resolves d schemas guard form name (some place) (Schema.hintsAt expand form name place)

-- From `start` one comes to `here` through the schemas that were expanded one in the other, latest first.
inductive Trail (d : Document) (schemas : SchemaIndex) (guard : Guard) (start : SchemaRef) :
    List Expansion → SchemaRef → Prop
  | start : Trail d schemas guard start [] start
  | expand {passed here reference e} : Trail d schemas guard start passed here → Schema.Asks here reference →
    d.Means schemas reference e → ¬ guard (passed.map (·.name)) e.name →
    Trail d schemas guard start (e :: passed) (.inline e.schema)

variable {d : Document} {schemas : SchemaIndex} {guard : Guard} {form : ValueForm} {visiting : List String}
  {reference name : String} {e e' : Expansion} {start here : SchemaRef} {passed : List Expansion}
  {place : Option SchemaRef}

theorem Means.leads (h : d.Means schemas reference e) : d.Leads schemas reference e.name e.schema :=
  have ⟨terminal, ht, hn, _⟩ := h
  ⟨terminal, ht, hn⟩

theorem means_of_named {terminal : String} {s : Schema} (ht : d.meantSchema reference = .ok (terminal, s))
    (hn : schemas.nameOf terminal = .ok name) :
    ∃ e, d.Means schemas reference e ∧ e.name = name ∧ e.schema = s := by
  have named := hn
  simp only [SchemaIndex.nameOf, bind_eq_ok, resolved_eq_ok] at named
  obtain ⟨way, hw, -⟩ := named
  exact ⟨⟨name, way, s⟩, ⟨terminal, ht, hn, hw⟩, rfl, rfl⟩

-- A component is called after its key.
theorem means_component {key terminal : String} {s : Schema}
    (ht : d.meantSchema reference = .ok (terminal, s))
    (hs : Pointer.segments terminal = .ok ["components", "schemas", key])
    (hn : Naming.ofComponentKey key = .ok name) :
    d.Means schemas reference ⟨name, ["components", "schemas", key], s⟩ :=
  ⟨terminal, ht, SchemaIndex.nameOf_component hs hn, hs⟩

theorem Means.unique (h : d.Means schemas reference e) (h' : d.Means schemas reference e') : e = e' := by
  obtain ⟨terminal, ht, hn, hw⟩ := h
  obtain ⟨terminal', ht', hn', hw'⟩ := h'
  obtain ⟨rfl, hs⟩ := Prod.mk.inj (Except.ok.inj (ht.symm.trans ht'))
  cases e
  cases e'
  cases hs
  cases hn.symm.trans hn'
  cases hw.symm.trans hw'
  rfl

theorem Means.not_broken {error : ResolveError} (h : d.Means schemas reference e) :
    d.meantSchema reference ≠ .error error := by
  obtain ⟨_, ht, _⟩ := h
  simp [ht]

theorem Means.not_unnamed {terminal : String} {s : Schema} {error : BuildError} (h : d.Means schemas reference e)
    (ht : d.meantSchema reference = .ok (terminal, s)) : schemas.nameOf terminal ≠ .error error := by
  obtain ⟨_, ht', hn, _⟩ := h
  cases ht.symm.trans ht'
  simp [hn]

theorem Means.annotatedReference (h : d.Means schemas reference e) : e.schema.annotatedReference = none :=
  have ⟨_, ht, _⟩ := h
  (resolve_of_meantSchema ht).2

theorem Means.references (h : d.Means schemas reference e) : e.schema.references ⊆ d.references :=
  have ⟨_, ht, _⟩ := h
  references_of_resolve (resolve_of_meantSchema ht).1

-- Only what a schema asks for decides its hints.
theorem Means.hints_congr {expand expand' : String → Except BuildError Hints} (h : d.Means schemas reference e)
    (same : ∀ inner, Schema.Asks (.inline e.schema) inner → expand inner = expand' inner) :
    e.schema.hints expand form name = e.schema.hints expand' form name := by
  rw [← Schema.hintsAt_inline h.annotatedReference, ← Schema.hintsAt_inline h.annotatedReference,
    Schema.hintsAt_congr same]

theorem Expands.unique {first second : Except BuildError Hints}
    (h : d.Expands schemas guard form visiting reference first)
    (h' : d.Expands schemas guard form visiting reference second) : first = second := by
  induction h generalizing second with
  | broken hm =>
    cases h' with
    | broken hm' => rw [Except.error.inj (hm.symm.trans hm')]
    | unnamed hm' => cases hm.symm.trans hm'
    | back means | target means => exact absurd hm means.not_broken
  | unnamed hm hn =>
    cases h' with
    | broken hm' => cases hm.symm.trans hm'
    | unnamed hm' hn' =>
      cases hm.symm.trans hm'
      rw [Except.error.inj (hn.symm.trans hn')]
    | back means | target means => exact absurd hn (means.not_unnamed hm)
  | back means again =>
    cases h' with
    | broken hm => exact absurd hm means.not_broken
    | unnamed hm hn => exact absurd hn (means.not_unnamed hm)
    | back => rfl
    | target means' fresh => exact absurd (means.unique means' ▸ again) fresh
  | target means fresh _ ih =>
    cases h' with
    | broken hm => exact absurd hm means.not_broken
    | unnamed hm hn => exact absurd hn (means.not_unnamed hm)
    | back means' again => exact absurd (means.unique means' ▸ again) fresh
    | target means' _ inner' =>
      cases means.unique means'
      exact means.hints_congr fun inner asks => ih inner asks (inner' inner asks)

theorem Resolves.unique {first second : Except BuildError Hints}
    (h : d.Resolves schemas guard form name place first) (h' : d.Resolves schemas guard form name place second) :
    first = second := by
  cases h with
  | none =>
    cases h'
    rfl
  | some asked =>
    cases h' with
    | some asked' => exact Schema.hintsAt_congr fun target asks => (asked target asks).unique (asked' target asks)

theorem Trail.names_nodup (h : d.Trail schemas .returning start passed here) : (passed.map (·.name)).Nodup := by
  induction h with
  | start => exact List.nodup_nil
  | expand _ _ _ fresh ih => exact List.nodup_cons.mpr ⟨fresh, ih⟩

-- If no schema comes twice, each was asked for by a reference of its own. The first of these references stands at
-- the start, which need not be in the document; the others do stand in the document.
theorem Trail.references (h : d.Trail schemas guard start passed here) (different : passed.Nodup) :
    ∃ first references, references.Nodup ∧ references ⊆ first :: d.references ∧
      references.length = passed.length ∧
      (∀ reference ∈ references, ∃ e ∈ passed, d.Means schemas reference e) ∧
      (passed ≠ [] → Schema.refReferences here ⊆ d.references) := by
  induction h with
  | start => exact ⟨"", [], by simp⟩
  | @expand passed here reference e trail asks means _ ih =>
    obtain ⟨fresh, different⟩ := List.nodup_cons.mp different
    obtain ⟨first, references, distinct, known, count, meant, inside⟩ := ih different
    have new : reference ∉ references := by
      intro again
      obtain ⟨e', he', means'⟩ := meant reference again
      exact fresh (means.unique means' ▸ he')
    have meant' : ∀ r ∈ reference :: references, ∃ e' ∈ e :: passed, d.Means schemas r e' := by
      refine List.forall_mem_cons.mpr ⟨⟨e, List.mem_cons_self, means⟩, fun r hr => ?_⟩
      obtain ⟨e', he', means'⟩ := meant r hr
      exact ⟨e', List.mem_cons_of_mem _ he', means'⟩
    have rest : (reference :: references).Nodup ∧ (reference :: references).length = (e :: passed).length ∧
        (∀ r ∈ reference :: references, ∃ e' ∈ e :: passed, d.Means schemas r e') ∧
        (e :: passed ≠ [] → Schema.refReferences (.inline e.schema) ⊆ d.references) :=
      ⟨List.nodup_cons.mpr ⟨new, distinct⟩, by simp [count], meant', fun _ => means.references⟩
    cases passed with
    | nil =>
      obtain rfl := List.length_eq_zero_iff.mp count
      exact ⟨reference, [reference], rest.1, by simp, rest.2⟩
    | cons =>
      have listed : reference ∈ d.references := inside (by simp) asks.references
      exact ⟨first, _, rest.1, List.cons_subset.mpr ⟨List.mem_cons_of_mem _ listed, known⟩, rest.2⟩

theorem Trail.length_le (h : d.Trail schemas guard start passed here) (different : passed.Nodup) :
    passed.length ≤ d.references.length + 1 := by
  obtain ⟨first, references, distinct, known, count, -⟩ := h.references different
  exact count ▸ (List.subperm_of_subset distinct known).length_le

-- The induction is on the steps that are left, of which there are enough for all trails.
theorem expands_expandReference {steps : Nat} (trail : d.Trail schemas .returning start passed here)
    (asks : Schema.Asks here reference) (enough : d.references.length + 2 ≤ steps + passed.length) :
    d.Expands schemas .returning form (passed.map (·.name)) reference
      (d.expandReference schemas form (passed.map (·.name)) reference steps) := by
  induction steps generalizing passed here reference with
  | zero =>
    have := trail.length_le (List.Nodup.of_map _ trail.names_nodup)
    omega
  | succ steps ih =>
    rw [expandReference]
    cases ht : d.meantSchema reference with
    | error error =>
      rw [resolved_error_bind]
      exact .broken ht
    | ok found =>
      obtain ⟨terminal, s⟩ := found
      rw [resolved_ok_bind]
      dsimp only
      cases hn : schemas.nameOf terminal with
      | error error => exact .unnamed ht hn
      | ok name =>
        obtain ⟨e, means, rfl, rfl⟩ := means_of_named ht hn
        change d.Expands _ _ _ _ _ (if e.name ∈ passed.map (·.name) then _ else _)
        split
        case isTrue again => exact .back means again
        case isFalse fresh =>
          refine .target means fresh fun inner asks' => ?_
          refine ih (.expand trail asks means fresh) asks' ?_
          simp only [List.length_cons]
          omega

theorem resolves_hintsAt : d.Resolves schemas .returning form name place (d.hintsAt schemas form name place) := by
  cases place with
  | none => exact .none
  | some p =>
    have trail : d.Trail schemas .returning p [] p := .start
    exact .some fun target asks => expands_expandReference trail asks (by simp [maxSteps])

-- A reference has the hints that it is expanded to.
theorem resolves_ref {outcome : Except BuildError Hints} :
    d.Resolves schemas guard form name (some (.ref reference)) outcome ↔
      d.Expands schemas guard form [] reference outcome := by
  constructor
  case mp =>
    rintro ⟨⟩
    case some expands => exact expands reference .ref
  case mpr =>
    intro expands
    refine @Resolves.some d schemas guard form name (.ref reference) (fun _ => outcome) fun target asks => ?_
    cases asks
    exact expands

-- The hints of a place come to an end, whatever refers to what, and so does the search for what a reference means.
-- On the way no name is expanded within itself, and never more of them at once than the document has references.
theorem hintsAt_total (d : Document) (schemas : SchemaIndex) (form : ValueForm) (name : String)
    (place : Option SchemaRef) :
    (∀ reference outcome, d.Unwraps [] reference outcome ↔ d.meantSchema reference = outcome) ∧
    (∀ outcome, d.Resolves schemas .returning form name place outcome ↔
      d.hintsAt schemas form name place = outcome) ∧
    ∀ start ∈ place, ∀ passed here, d.Trail schemas .returning start passed here →
      (passed.map (·.name)).Nodup ∧ passed.length ≤ d.references.length + 1 := by
  refine ⟨fun _ _ => unwraps_iff, fun _ => ⟨resolves_hintsAt.unique, fun h => h ▸ resolves_hintsAt⟩, ?_⟩
  exact fun _ _ _ _ trail => ⟨trail.names_nodup, trail.length_le (List.Nodup.of_map _ trail.names_nodup)⟩

end Document

namespace Forest

-- A tree is the list of its branches, which are trees.
def tree : Schema where
  typeKeyword := some (.single .array)
  items := some (.ref "#/components/schemas/Tree")

def document : Document where
  openapi := "3.1.0"
  info := { title := "Forest", version := "1" }
  components := some { schemas := [("Tree", .inline tree)] }

end Forest

namespace Document

open Forest

theorem forest_hintsAt_total : ∃ n e, document.named = .ok n ∧
    document.Resolves n.schemas .returning .typed "Root" (some (.ref "#/components/schemas/Tree"))
      (.ok [.array [.mixed]]) ∧
    document.Trail n.schemas .returning (.ref "#/components/schemas/Tree") [e] (.inline e.schema) ∧
    ([e].map (·.name)).Nodup ∧ [e].length ≤ document.references.length + 1 := by
  have run : (document.named.toOption.map fun n =>
      ((document.meantSchema "#/components/schemas/Tree").toOption.map fun found =>
        (n.schemas.nameOf found.1).toOption.map id,
      (document.hintsAt n.schemas .typed "Root" (some (.ref "#/components/schemas/Tree"))).toOption.map id)) =
      some (some (some "Tree"), some [.array [.mixed]]) := by decide +kernel
  obtain ⟨n, named, run⟩ := exists_ok run
  obtain ⟨meant, hints⟩ := Prod.mk.inj run
  obtain ⟨⟨terminal, s⟩, ht, hn⟩ := exists_ok meant
  obtain ⟨_, hn, rfl⟩ := exists_ok hn
  obtain ⟨_, hints, rfl⟩ := exists_ok hints
  obtain ⟨e, means, -, -⟩ := means_of_named ht hn
  obtain ⟨-, resolves, trails⟩ := hintsAt_total document n.schemas .typed "Root"
    (some (.ref "#/components/schemas/Tree"))
  have trail : document.Trail n.schemas .returning _ [e] _ := .expand .start .ref means List.not_mem_nil
  exact ⟨n, e, named, (resolves _).mpr hints, trail, trails _ rfl _ _ trail⟩

end Document

end OpenApiClient
