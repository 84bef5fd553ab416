import OpenApiClient.Proofs.Client.LocalNames

/-!
The properties of an object against the sequence of schemas that it is composed of. A property is where it was written
first, and is what was written last.
-/

namespace OpenApiClient

open Relation

namespace NamedDocument

open MergedProperties

variable {n : NamedDocument} {found : NamedSchema} {e : Entity}

theorem of_property {required : List String} {key : String} {source : MergedProperty} {p : Property}
    (h : n.property required key source = .ok p) : p.name.written = key ∧ p.required = required.contains key := by
  simp only [property, bind_eq_ok, resolved_eq_ok, pure_eq_ok] at h
  obtain ⟨_, _, _, _, rfl⟩ := h
  exact ⟨rfl, rfl⟩

theorem flattens_of_entity (h : n.entity found = .ok e) (object : e.kind = .object) :
    ∃ layers, n.Flattens found.name [.inline found.schema] layers ∧
      e.properties.map (·.name.written) = (Entries.keys (layers.flatMap Layer.definitions)).eraseDups ∧
      ∀ p ∈ e.properties, (p.required ↔ ∃ layer ∈ layers, p.name.written ∈ layer.schema.required) ∧
        ∃ source, (layers.flatMap Layer.definitions).reverse.lookup p.name.written = some source ∧
          n.property (layers.flatMap (·.schema.required)) p.name.written source = .ok p := by
  have kind := (describes_of_entity h).kind
  rw [entity, if_pos (kind.symm.trans object)] at h
  simp only [bind_eq_ok, pure_eq_ok] at h
  obtain ⟨merged, hm, properties, hp, additional, -, rfl⟩ := h
  obtain ⟨layers, flattens, rfl⟩ := flattens_of_mergeProperties hm
  refine ⟨layers, flattens, ?_, fun p mem => ?_⟩
  · rw [keys_of_properties hp, addAll_properties, Entries.keys_ofPairs]
  · obtain ⟨⟨key, source⟩, there, made⟩ := mem_of_mapM hp p mem
    rw [addAll_required, List.nil_append] at made
    rw [addAll_properties] at there
    obtain ⟨rfl, required⟩ := of_property made
    refine ⟨by rw [required, List.contains_iff_mem, List.mem_flatMap], source, ?_, made⟩
    rw [← Entries.get?_ofPairs]
    exact Entries.get?_of_mem (Entries.nodup_keys_ofPairs _) there

end NamedDocument

namespace Document

open NamedDocument

-- The properties of an object are those of its composition, and putting them together fails only where this is too deep
-- or a reference leads nowhere.
theorem properties_flattened (d : Document) (rootNamespace : String) :
    (∀ c, d.client rootNamespace = .ok c → ∀ e ∈ c.entities, e.kind = .object →
      ∃ n found layers, d.named = .ok n ∧ found ∈ n.schemas.classes ∧ n.entity found = .ok e ∧
        (∀ others, n.Flattens found.name [.inline found.schema] others ↔ others = layers) ∧
        e.properties.map (·.name.written) = (Entries.keys (layers.flatMap Layer.definitions)).eraseDups ∧
        ∀ p ∈ e.properties, (p.required ↔ ∃ layer ∈ layers, p.name.written ∈ layer.schema.required) ∧
          ∃ source, (layers.flatMap Layer.definitions).reverse.lookup p.name.written = some source ∧
            n.property (layers.flatMap (·.schema.required)) p.name.written source = .ok p) ∧
    ∀ (n : NamedDocument) parent s merged,
      (∀ chain, n.mergeProperties parent s merged SchemaPosition.maxDepth = .error (.naming (.cyclicSchema chain)) →
        n.Nests 64 ⟨parent, s⟩) ∧
      (¬ n.Nests 64 ⟨parent, s⟩ → (∀ layer, ReflTransGen n.Takes ⟨parent, s⟩ layer → ∀ reference,
          .ref reference ∈ layer.schema.allOf → ∃ below, n.Brings layer.parent (.ref reference) below) →
        ∃ merged', n.mergeProperties parent s merged SchemaPosition.maxDepth = .ok merged') := by
  refine ⟨fun c hc e he object => ?_, fun n parent s merged => ⟨?_, fun shallow leads => ?_⟩⟩
  · obtain ⟨n, builds⟩ := builds_of_client hc
    obtain ⟨found, mem, made⟩ := mem_of_mapM builds.entities e he
    obtain ⟨layers, flattens, keys, properties⟩ := flattens_of_entity made object
    refine ⟨n, found, layers, builds.named, mem, made, fun others => ⟨(·.unique flattens), ?_⟩, keys, properties⟩
    rintro rfl
    exact flattens
  · exact fun chain h => nests_of_cyclic h ⟨chain, rfl⟩
  · exact exists_merged shallow leads merged

end Document

namespace Harbor

def text : Schema where
  typeKeyword := some (.single .string)

def count : Schema where
  typeKeyword := some (.single .integer)

def vessel : Schema where
  properties := [("name", .inline text), ("length", .inline count)]
  required := ["name"]

-- What takes over from a vessel what it is called and how long it is, and says more about the name.
def boat : Schema where
  allOf := [.ref "#/components/schemas/Vessel",
    .inline { properties := [("sails", .inline count)], required := ["length"] }]
  properties := [("name", .inline { text with description := some "On the bow." })]

def document : Document where
  openapi := "3.0.0"
  info := { title := "Harbor", version := "1" }
  components := some { schemas := [("Vessel", .inline vessel), ("Boat", .inline boat)] }

end Harbor

theorem Document.harbor_flattened : ∃ c, Harbor.document.client "Harbor" = .ok c ∧ ∃ e ∈ c.entities,
    e.properties.map (fun p => (p.name.written, p.required)) =
      [("name", true), ("length", true), ("sails", false)] ∧
    ∃ (n : NamedDocument) (found : NamedSchema) (layers : List Layer), n.entity found = .ok e ∧
      n.Flattens found.name [.inline found.schema] layers ∧
      (Entries.keys (layers.flatMap Layer.definitions)).eraseDups = ["name", "length", "sails"] := by
  have computed : (Harbor.document.client "Harbor").toOption.map (fun c => c.entities.map fun e =>
      (e.kind, e.properties.map fun p => (p.name.written, p.required))) =
    some [(.object, [("name", true), ("length", false)]),
      (.object, [("name", true), ("length", true), ("sails", false)])] := by decide +kernel
  obtain ⟨c, hc, entities⟩ := exists_ok computed
  have last := List.mem_of_getElem? (congrArg (·[1]?) entities)
  obtain ⟨e, he, parts⟩ := List.mem_map.mp last
  obtain ⟨kind, properties⟩ := Prod.mk.inj parts
  obtain ⟨n, found, layers, -, -, made, flattens, keys, -⟩ :=
    (properties_flattened Harbor.document "Harbor").1 c hc e he kind
  have written : e.properties.map (·.name.written) = ["name", "length", "sails"] := by
    simpa [Function.comp_def] using congrArg (List.map Prod.fst) properties
  exact ⟨c, hc, e, he, properties, n, found, layers, made, (flattens layers).mpr rfl, keys.symm.trans written⟩

end OpenApiClient
