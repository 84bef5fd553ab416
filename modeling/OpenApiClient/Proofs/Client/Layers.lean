import Mathlib.Logic.Relation
import OpenApiClient.Client.Entity
import OpenApiClient.Proofs.Entries
import OpenApiClient.Proofs.Hint.Makes
import OpenApiClient.Proofs.Index.Names

/-!
What the properties of an object are put together from. The members of a schema come before it and the members of each
before that one, which makes a sequence of schemas: putting properties together is writing down these, one after the
other.
-/

namespace OpenApiClient

open Relation

-- A schema in a composition, with the class that its properties are named after.
structure Layer where
  parent : String
  schema : Schema

def Layer.definitions (layer : Layer) : List (String × MergedProperty) :=
  layer.schema.properties.map fun (key, schema) => (key, { parent := layer.parent, schema })

namespace MergedProperties

variable {merged : MergedProperties} {layers others : List Layer} {layer : Layer}

def addAll (merged : MergedProperties) (layers : List Layer) : MergedProperties :=
  layers.foldl (fun merged layer => merged.add layer.parent layer.schema) merged

theorem addAll_append : merged.addAll (layers ++ others) = (merged.addAll layers).addAll others :=
  List.foldl_append

theorem addAll_singleton : merged.addAll [layer] = merged.add layer.parent layer.schema :=
  rfl

theorem addAll_required : (merged.addAll layers).required = merged.required ++ layers.flatMap (·.schema.required) := by
  induction layers generalizing merged with
  | nil => simp [addAll]
  | cons layer layers ih =>
    calc (merged.addAll (layer :: layers)).required
      _ = (merged.required ++ layer.schema.required) ++ layers.flatMap (·.schema.required) := ih
      _ = merged.required ++ (layer :: layers).flatMap (·.schema.required) := by simp

theorem addAll_properties :
    (addAll {} layers).properties = Entries.ofPairs (layers.flatMap Layer.definitions) := by
  induction layers using List.reverseRecOn with
  | nil => rfl
  | append_singleton layers layer ih =>
    rw [addAll_append, addAll_singleton, add, ih]
    simp [Entries.ofPairs, Layer.definitions, List.foldl_map]

end MergedProperties

namespace NamedDocument

-- What a member of something called `parent` brings: a reference brings its own name.
inductive Brings (n : NamedDocument) (parent : String) : SchemaRef → Layer → Prop
  | inline {m} : Brings n parent (.inline m) ⟨parent, m⟩
  | ref {reference name target} : n.document.Leads n.schemas reference name target →
    Brings n parent (.ref reference) ⟨name, target⟩

-- The sequence of schemas that members lead to. Each comes after its own members.
inductive Flattens (n : NamedDocument) : String → List SchemaRef → List Layer → Prop
  | nil {parent} : Flattens n parent [] []
  | cons {parent place layer inner rest layers} : n.Brings parent place layer →
    Flattens n layer.parent layer.schema.allOf inner → Flattens n parent rest layers →
    Flattens n parent (place :: rest) (inner ++ layer :: layers)

-- One schema is a member of the other.
def Takes (n : NamedDocument) (a b : Layer) : Prop :=
  ∃ place ∈ a.schema.allOf, n.Brings a.parent place b

-- There is a path of so many members, each in the one before.
def Nests (n : NamedDocument) : Nat → Layer → Prop
  | 0, _         => True
  | depth + 1, a => ∃ b, n.Takes a b ∧ n.Nests depth b

variable {n : NamedDocument} {parent : String} {place : SchemaRef} {places others : List SchemaRef}
  {layer layer' : Layer} {layers layers' : List Layer} {merged : MergedProperties} {depth : Nat}

theorem Brings.unique (h : n.Brings parent place layer) (h' : n.Brings parent place layer') : layer = layer' := by
  cases h with
  | inline =>
    cases h'
    rfl
  | ref leads =>
    cases h' with
    | ref leads' =>
      obtain ⟨_, meant, named⟩ := leads
      obtain ⟨_, meant', named'⟩ := leads'
      cases meant.symm.trans meant'
      cases named.symm.trans named'
      rfl

theorem Flattens.unique (h : n.Flattens parent places layers) (h' : n.Flattens parent places layers') :
    layers = layers' := by
  induction h generalizing layers' with
  | nil =>
    cases h'
    rfl
  | cons brings _ _ inner rest =>
    cases h' with
    | cons brings' inner' rest' =>
      obtain rfl := brings.unique brings'
      rw [inner inner', rest rest']

-- What a member brings takes its place.
theorem Brings.flattens (h : n.Brings parent place layer) (h' : n.Flattens layer.parent [.inline layer.schema] layers) :
    n.Flattens parent [place] layers := by
  cases h' with
  | cons single inner none =>
    cases single
    cases none
    exact .cons h inner .nil

theorem Flattens.append (h : n.Flattens parent places layers) (h' : n.Flattens parent others layers') :
    n.Flattens parent (places ++ others) (layers ++ layers') := by
  induction h with
  | nil => exact h'
  | cons brings inner _ _ rest =>
    rw [List.append_assoc]
    exact .cons brings inner (rest h')

-- One step of putting properties together.
def mergeMember (n : NamedDocument) (parent : String) (depth : Nat) (merged : MergedProperties) :
    SchemaRef → Except BuildError MergedProperties
  | .ref reference => do
    let (terminal, target) ← n.document.meantSchema reference
    let name ← n.schemas.nameOf terminal
    n.mergeProperties name target merged depth
  | .inline member => n.mergeProperties parent member merged depth

theorem mergeProperties_succ (s : Schema) : n.mergeProperties parent s merged (depth + 1) = (do
    let inherited ← s.allOf.foldlM (n.mergeMember parent depth) merged
    return inherited.add parent s) := by
  rw [mergeProperties]
  congr 2

theorem Brings.mergeMember_eq (h : n.Brings parent place layer) :
    n.mergeMember parent depth merged place = n.mergeProperties layer.parent layer.schema merged depth := by
  cases h with
  | inline => rfl
  | ref leads =>
    obtain ⟨terminal, meant, named⟩ := leads
    simp only [mergeMember, meant, named, resolved_ok_bind]
    rfl

end NamedDocument

def BuildError.IsCyclic (e : BuildError) : Prop :=
  ∃ chain, e = .naming (.cyclicSchema chain)

theorem SchemaIndex.nameOf_not_cyclic {m : SchemaIndex} {terminal : String} {e : BuildError}
    (h : m.nameOf terminal = .error e) : ¬ e.IsCyclic := by
  rintro ⟨chain, rfl⟩
  cases hs : Pointer.segments terminal with
  | error =>
    rw [nameOf, hs, resolved_error_bind] at h
    cases h
  | ok way =>
    by_cases component : ∃ key, way = ["components", "schemas", key]
    case pos =>
      obtain ⟨key, rfl⟩ := component
      simp only [nameOf, hs, resolved_ok_bind, Naming.ofComponentKey] at h
      split at h <;> cases h
    case neg =>
      rw [nameOf_eq hs (not_exists.mp component)] at h
      split at h <;> cases h

namespace NamedDocument

open MergedProperties

variable {n : NamedDocument} {parent : String} {merged merged' : MergedProperties} {depth : Nat} {s : Schema}

-- Either a member brings something, or the step fails, but not because of the depth.
theorem brings_or_fails (n : NamedDocument) (parent : String) (place : SchemaRef) :
    (∃ layer, n.Brings parent place layer) ∨ ∃ e : BuildError, ¬ e.IsCyclic ∧
      ∀ depth merged, n.mergeMember parent depth merged place = .error e := by
  cases place with
  | inline m => exact .inl ⟨_, .inline⟩
  | ref reference =>
    cases meant : n.document.meantSchema reference with
    | error e => exact .inr ⟨.resolve e, nofun, fun _ _ => by rw [mergeMember, meant, resolved_error_bind]⟩
    | ok found =>
      obtain ⟨terminal, target⟩ := found
      cases named : n.schemas.nameOf terminal with
      | ok name => exact .inl ⟨_, .ref ⟨terminal, meant, named⟩⟩
      | error e =>
        refine .inr ⟨e, SchemaIndex.nameOf_not_cyclic named, fun _ _ => ?_⟩
        simp only [mergeMember, meant, named, resolved_ok_bind]
        rfl

-- Putting together is writing down the sequence of schemas.
theorem flattens_of_mergeProperties (h : n.mergeProperties parent s merged depth = .ok merged') :
    ∃ layers, n.Flattens parent [.inline s] layers ∧ merged' = merged.addAll layers := by
  induction depth generalizing parent s merged merged' with
  | zero => contradiction
  | succ depth ih =>
    simp only [mergeProperties_succ, bind_eq_ok, pure_eq_ok] at h
    obtain ⟨inherited, members, rfl⟩ := h
    obtain ⟨layers, flattens, rfl⟩ : ∃ layers, n.Flattens parent s.allOf layers ∧ inherited = merged.addAll layers := by
      refine foldlM_induction (P := fun past m => ∃ layers, n.Flattens parent past layers ∧ m = merged.addAll layers)
        ⟨[], .nil, rfl⟩ ?_ members
      rintro past place m m' ⟨layers, flattens, rfl⟩ step
      rcases brings_or_fails n parent place with ⟨layer, brings⟩ | ⟨e, -, fails⟩
      case inl =>
        rw [brings.mergeMember_eq] at step
        obtain ⟨inner, single, rfl⟩ := ih step
        exact ⟨layers ++ inner, flattens.append (brings.flattens single), addAll_append.symm⟩
      case inr =>
        rw [fails] at step
        contradiction
    exact ⟨layers ++ [⟨parent, s⟩], .cons .inline flattens .nil, by rw [addAll_append, addAll_singleton]⟩

-- It takes a path of members to run out of depth,
theorem nests_of_cyclic {e : BuildError} (h : n.mergeProperties parent s merged depth = .error e) (cyclic : e.IsCyclic) :
    n.Nests depth ⟨parent, s⟩ := by
  induction depth generalizing parent s merged with
  | zero => trivial
  | succ depth ih =>
    rw [mergeProperties_succ] at h
    cases members : s.allOf.foldlM (n.mergeMember parent depth) merged with
    | ok => rw [members] at h; contradiction
    | error e' =>
      rw [members] at h
      cases h
      obtain ⟨place, mem, m, step⟩ := error_of_foldlM members
      rcases brings_or_fails n parent place with ⟨layer, brings⟩ | ⟨e', other, fails⟩
      case inl => exact ⟨layer, ⟨place, mem, brings⟩, ih (brings.mergeMember_eq ▸ step)⟩
      case inr =>
        cases (fails depth m).symm.trans step
        contradiction

-- and nothing else but a reference that leads nowhere is in the way.
theorem exists_merged (shallow : ¬ n.Nests depth ⟨parent, s⟩)
    (leads : ∀ layer, ReflTransGen n.Takes ⟨parent, s⟩ layer → ∀ reference, .ref reference ∈ layer.schema.allOf →
      ∃ below, n.Brings layer.parent (.ref reference) below) (merged : MergedProperties) :
    ∃ merged', n.mergeProperties parent s merged depth = .ok merged' := by
  induction depth generalizing parent s merged with
  | zero => exact absurd trivial shallow
  | succ depth ih =>
    have members : ∀ place ∈ s.allOf, ∀ m, ∃ m', n.mergeMember parent depth m place = .ok m' := by
      intro place mem m
      obtain ⟨layer, brings⟩ : ∃ layer, n.Brings parent place layer := by
        cases place with
        | inline m => exact ⟨_, .inline⟩
        | ref reference => exact leads _ .refl reference mem
      have takes : n.Takes ⟨parent, s⟩ layer := ⟨place, mem, brings⟩
      rw [brings.mergeMember_eq]
      exact ih (fun nests => shallow ⟨layer, takes, nests⟩) (fun below reach => leads below (.head takes reach)) m
    obtain ⟨inherited, all⟩ := exists_foldlM members
    refine ⟨inherited.add parent s, ?_⟩
    rw [mergeProperties_succ, all]
    rfl

end NamedDocument

end OpenApiClient
