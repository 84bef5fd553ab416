import OpenApiClient.Proofs.Client.Decoded
import OpenApiClient.Proofs.Entries
import OpenApiClient.Proofs.Naming.Apart
import OpenApiClient.Proofs.Naming.Casing

/-!
The names of arguments within an operation, and those of properties within an object. Arguments have different
identifiers, because parameters are numbered where they would not; properties have different keys.
-/

namespace OpenApiClient

namespace OperationParameter

variable {taken : List String} {p : Parameter} {parameters : List OperationParameter}

-- All locations end with a small letter, so that the numbers behind them tell identifiers apart.
theorem fold_numbered_injective (p : Parameter) : Function.Injective fun i =>
    fold (Naming.numbered (p.name ++ Naming.joinCapitalized p.location.name) i) := by
  obtain ⟨rest, x, location_eq, hx, lower⟩ : ∃ rest x,
      Naming.joinCapitalized p.location.name = String.ofList (rest ++ [x]) ∧
        Text.isAlphanumeric x ∧ Text.lowerChar x = [x] := by
    cases p.location with
    | query => exact ⟨"Quer".toList, 'y', by decide⟩
    | header => exact ⟨"Heade".toList, 'r', by decide⟩
    | path => exact ⟨"Pat".toList, 'h', by decide⟩
    | cookie => exact ⟨"Cooki".toList, 'e', by decide⟩
  obtain ⟨stem, camel⟩ := WireName.camel_append hx lower (p.name.toList ++ rest)
  have name_eq : p.name ++ Naming.joinCapitalized p.location.name =
      String.ofList (p.name.toList ++ rest ++ [x]) := by
    rw [location_eq, ← String.toList_inj]
    simp
  have numbered (i : Nat) : fold (Naming.numbered (p.name ++ Naming.joinCapitalized p.location.name) i) =
      stem ++ Naming.numberSuffix i := by
    rw [Naming.numbered_eq, name_eq]
    exact camel _ (Naming.numberSuffix_digits i)
  intro i j h
  simp only [numbered] at h
  exact Naming.numberSuffix_injective (by simpa [← String.toList_inj] using h)

theorem fold_freeName_not_mem : fold (freeName taken p) ∉ taken := by
  unfold freeName
  split
  case isTrue => exact Naming.firstFree_not_mem (fold_numbered_injective p)
  case isFalse free => exact free

-- Each parameter is named apart from those before it, and so all of them from each other.
theorem folds_nameApart : ((nameApart taken parameters).map (fold ·.localName)).Nodup ∧
    ∀ q ∈ nameApart taken parameters, fold q.localName ∉ taken := by
  induction parameters generalizing taken with
  | nil => simp [nameApart]
  | cons p rest ih =>
    rw [nameApart]
    have free : fold (freeName taken p.parameter) ∉ taken := fold_freeName_not_mem
    generalize freeName taken p.parameter = name at free ⊢
    have ⟨nodup, apart⟩ : _ ∧ ∀ q ∈ nameApart (fold name :: taken) rest, _ := ih
    simp only [List.mem_cons, not_or] at apart
    constructor
    · rw [List.map_cons, List.nodup_cons]
      refine ⟨fun there => ?_, nodup⟩
      obtain ⟨q, hq, same⟩ := List.mem_map.mp there
      exact (apart q hq).1 same
    · exact List.forall_mem_cons.mpr ⟨free, fun q hq => (apart q hq).2⟩

end OperationParameter

namespace MergedProperties

variable {merged : MergedProperties} {parent : String} {s : Schema}

-- A later definition of a property takes the place of an earlier one.
theorem distinct_add (h : Entries.Distinct merged.properties) : Entries.Distinct (merged.add parent s).properties :=
  List.foldlRecOn s.properties _ h fun _ distinct _ _ => Entries.nodup_keys_put distinct

end MergedProperties

namespace NamedDocument

variable {n : NamedDocument} {o : OperationSite} {e : Endpoint} {merged merged' : MergedProperties}
  {found : NamedSchema} {entity : Entity} {parent : String} {s : Schema} {depth : Nat}

theorem camels_nodup_of_endpoint (h : n.endpoint o = .ok e) : (e.arguments.map (·.name.camel)).Nodup := by
  obtain ⟨parameters, hp, ha⟩ := (offers_of_endpoint h).arguments
  have names : e.arguments.map (·.name.camel) = parameters.map (OperationParameter.fold ·.localName) := by
    refine map_of_mapM (fun {p a} h => ?_) ha
    simp only [argument, bind_eq_ok, pure_eq_ok] at h
    obtain ⟨_, _, _, _, rfl⟩ := h
    rfl
  simp only [Document.operationParameters, bind_eq_ok, pure_eq_ok] at hp
  obtain ⟨_, _, _, _, rfl⟩ := hp
  exact names ▸ OperationParameter.folds_nameApart.1

-- The properties put together have each key once, however the members lie in each other.
theorem distinct_of_mergeProperties (h : Entries.Distinct merged.properties)
    (hm : n.mergeProperties parent s merged depth = .ok merged') : Entries.Distinct merged'.properties := by
  obtain ⟨layers, -, rfl⟩ := flattens_of_mergeProperties hm
  exact List.foldlRecOn (motive := fun merged : MergedProperties => Entries.Distinct merged.properties) layers _ h
    fun _ distinct _ _ => MergedProperties.distinct_add distinct

theorem keys_of_properties {required : List String} {sources : List (String × MergedProperty)}
    {properties : List Property}
    (h : sources.mapM (fun entry => n.property required entry.1 entry.2) = .ok properties) :
    properties.map (·.name.written) = Entries.keys sources := by
  refine map_of_mapM (fun {entry p} h => ?_) h
  simp only [property, bind_eq_ok, resolved_eq_ok, pure_eq_ok] at h
  obtain ⟨_, _, _, _, rfl⟩ := h
  rfl

theorem keys_nodup_of_entity (h : n.entity found = .ok entity) :
    (entity.properties.map (·.name.written)).Nodup := by
  unfold NamedDocument.entity at h
  split at h
  case isTrue =>
    simp only [bind_eq_ok, pure_eq_ok] at h
    obtain ⟨merged, hm, properties, hp, _, _, rfl⟩ := h
    have nothing : Entries.Distinct ({} : MergedProperties).properties := List.nodup_nil
    exact keys_of_properties hp ▸ distinct_of_mergeProperties nothing hm
  case isFalse =>
    cases h
    exact List.nodup_nil

end NamedDocument

namespace Document

variable {d : Document} {c : Client} {rootNamespace : String}

theorem camels_nodup (hc : d.client rootNamespace = .ok c) :
    ∀ e ∈ c.endpoints, (e.arguments.map (·.name.camel)).Nodup := by
  intro e he
  have ⟨n, builds⟩ := builds_of_client hc
  have ⟨_, _, made⟩ := mem_of_mapM builds.endpoints e he
  exact NamedDocument.camels_nodup_of_endpoint made

theorem keys_nodup (hc : d.client rootNamespace = .ok c) :
    ∀ e ∈ c.entities, (e.properties.map (·.name.written)).Nodup := by
  intro e he
  have ⟨n, builds⟩ := builds_of_client hc
  have ⟨_, _, made⟩ := mem_of_mapM builds.entities e he
  exact NamedDocument.keys_nodup_of_entity made

end Document

end OpenApiClient
