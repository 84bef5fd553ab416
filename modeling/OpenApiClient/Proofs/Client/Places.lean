import OpenApiClient.Client.Basic
import OpenApiClient.Proofs.Client.Layers
import OpenApiClient.Proofs.Hint.Named
import OpenApiClient.Proofs.Reference.Origin

/-!
The places that the parts of a client are typed by. If a schema is written in such a place, then the
walk has visited it under the name that the client uses for the place.
-/

namespace OpenApiClient

open Pointer

namespace NamedDocument

-- A place where a schema would be called `name` is known if the walk has visited what is written there.
def Known (n : NamedDocument) (name : String) (place : Option SchemaRef) : Prop :=
  ∀ s, place = some (.inline s) → n.document.Named n.responses name s

-- The properties put together are those of visited schemas, each named after the one it is from.
def KnownProperties (n : NamedDocument) (merged : MergedProperties) : Prop :=
  ∀ entry ∈ merged.properties, n.Known (Naming.nested entry.2.parent entry.1) (some entry.2.schema)

-- Where a reference leads, and what is there.
theorem walk_of_standsAt {α : Type} {n : NamedDocument} {target : Reference.Target α} {a : α}
    {pointer reference position : String}
    (hs : n.standsAt target pointer (.ref reference) = .ok position)
    (ha : n.document.valueOf target (.ref reference) = .ok a) : ∃ way node,
      position = ofSegments way ∧ (Node.document n.document).walk way = .ok node ∧
      target.pick? node = some a := by
  simp only [standsAt, Document.valueOf, bind_eq_ok, map_eq_ok, resolved_eq_ok] at hs ha
  obtain ⟨⟨terminal, _⟩, hd, rfl⟩ := ha
  obtain ⟨_, hd', hp⟩ := hs
  cases hd.symm.trans hd'
  obtain ⟨node, hn, hpick⟩ := Document.resolve_of_destination hd
  simp only [Document.resolve, Pointer.canonical, bind_eq_ok, mapError_eq_ok, map_eq_ok] at hn hp
  obtain ⟨way, hway, hw⟩ := hn
  obtain ⟨_, hway', rfl⟩ := hp
  cases hway.symm.trans hway'
  exact ⟨way, node, rfl, hw, hpick⟩

end NamedDocument

namespace Document

open NamedDocument

variable {d : Document} {n : NamedDocument} {name parent : String} {s root : Schema}
  {merged merged' : MergedProperties}

theorem knownProperties_nil : n.KnownProperties {} := by
  simp [KnownProperties]

theorem knownProperties_add (h : n.KnownProperties merged)
    (hr : n.document.Named n.responses parent root) (hs : root.Member s) :
    n.KnownProperties (merged.add parent s) :=
  List.foldlRecOn (motive := fun all => n.KnownProperties { merged with properties := all })
    s.properties _ h fun _ known ⟨key, place⟩ hp entry he => by
      cases Entries.mem_put he
      case inl he => exact known entry he
      case inr he =>
        rintro c hc
        subst he
        cases hc
        exact hr.part hs (.property hp)

-- The schemas of a composition lie in schemas that the walk has visited under their names.
theorem named_of_flattens {places : List SchemaRef} {layers : List Layer} (hd : d.Distinct) (hn : d.named = .ok n)
    (h : n.Flattens parent places layers) (hr : n.document.Named n.responses parent root)
    (hm : ∀ m, .inline m ∈ places → root.Member m) :
    ∀ layer ∈ layers, ∃ root, n.document.Named n.responses layer.parent root ∧ root.Member layer.schema := by
  obtain rfl := (of_named hn).1
  induction h generalizing root with
  | nil => simp
  | @cons parent place layer inner rest layers brings _ _ members others =>
    have others := others hr fun m mem => hm m (List.mem_cons_of_mem _ mem)
    obtain ⟨root', named, member⟩ : ∃ root', n.document.Named n.responses layer.parent root' ∧
        root'.Member layer.schema := by
      cases brings with
      | inline => exact ⟨root, hr, hm _ List.mem_cons_self⟩
      | ref leads => exact ⟨_, leads.named hd hn, .self⟩
    have members := members named fun m mem => by
      obtain ⟨i, hi⟩ := List.getElem?_of_mem mem
      exact member.member hi
    intro layer' mem
    rcases List.mem_append.mp mem with mem | mem
    · exact members layer' mem
    · rcases List.mem_cons.mp mem with rfl | mem
      · exact ⟨root', named, member⟩
      · exact others layer' mem

theorem knownProperties_of_mergeProperties {depth : Nat} (hd : d.Distinct) (hn : d.named = .ok n)
    (h : n.KnownProperties merged) (hr : n.document.Named n.responses parent root)
    (hs : root.Member s) (hm : n.mergeProperties parent s merged depth = .ok merged') :
    n.KnownProperties merged' := by
  obtain ⟨layers, flattens, rfl⟩ := flattens_of_mergeProperties hm
  have known := named_of_flattens hd hn flattens hr fun m mem => by
    cases List.mem_singleton.mp mem
    exact hs
  refine List.foldlRecOn layers _ h fun merged before layer mem => ?_
  obtain ⟨root, named, member⟩ := known layer mem
  exact knownProperties_add before named member

theorem known_additional (h : d.Named n.responses name s) (document : n.document = d) :
    n.Known (Naming.nested name "additionalProperty") s.additionalSchema := by
  intro c hc
  refine document ▸ h.part .self (.additional ?_)
  unfold Schema.additionalSchema at hc
  split at hc <;> simp_all

theorem known_response (h : d.named = .ok n) {found : NamedResponse} {media : String} {m : MediaType}
    (hf : found ∈ n.responses.entries) (hj : found.response.json? = some (media, m)) :
    n.Known (Naming.responseBodyName found.name) m.schema := by
  intro s hs
  have ⟨document, hr, _⟩ := of_named h
  have ⟨place, hp, origin⟩ := hasResponse_of_index hr found hf
  have json := jsonSchema?_eq_some.mpr ⟨m, hj, hs⟩
  exact document ▸ ⟨_, .root (.response hf hp origin json)⟩

-- What stands in the JSON content of a request body has been named, whichever operations use it.
theorem known_payload {way : List String} {body : RequestBody} {media : String} {m : MediaType}
    {stem : String} (hd : d.Distinct) (h : d.named = .ok n)
    (hw : (Node.document d).walk way = .ok (.requestBody body)) (hj : body.json? = some (media, m))
    (hn : n.payloadName stem (ofSegments way) media = .ok name) : n.Known name m.schema := by
  intro s hs
  have ⟨document, hr, index⟩ := of_named h
  have json := jsonSchema?_eq_some.mpr ⟨m, hj, hs⟩
  have ⟨hb, root, _, begins, hroot⟩ : body.Distinct ∧ ∃ root name,
      d.Begins n.responses root name s ∧ root.way = way ++ ["content", media, "schema"] := by
    rcases walk_requestBody hw with ⟨c, key, hc, hk, rfl⟩ | ⟨o, ho, hb, rfl⟩
    · have ⟨_, key_name⟩ := name_of_requestBody h hc hk
      have hb := (hd.components _ hc).requestBodies.values hk _ rfl
      exact ⟨hb, _, _, .requestBody hc hk key_name json, rfl⟩
    · exact ⟨(hd.operation ho).requestBody _ hb _ rfl, _, _, .payload ho hb json, rfl⟩
  have ⟨_, hv⟩ := (Visits.root begins).step hr
  have ⟨_, found⟩ := index.nameAt?_of_visit hv
  simp only [hroot] at found
  simp only [payloadName, content_pointer, found, pure_eq_ok] at hn
  subst hn
  have hg := Entries.get?_of_mem hb.distinct (List.mem_of_find?_eq_some hj)
  refine document ▸ named_of_nameAt? hd h found ((Node.walk_append_of hw).trans ?_)
  simp [hg, hs]

-- The body of an operation is where its reference leads, or in the operation.
theorem walk_of_requestBody {o : OperationSite} {place : RefOr RequestBody} {body : RequestBody}
    {position : String} (hd : n.document.Distinct) (ho : o ∈ n.document.operations)
    (hp : o.operation.requestBody = some place)
    (hs : n.standsAt .requestBody (o.pointer ++ "/requestBody") place = .ok position)
    (hb : n.document.requestBodyOf place = .ok body) : ∃ way, position = ofSegments way ∧
      (Node.document n.document).walk way = .ok (.requestBody body) := by
  cases place with
  | ref =>
    have ⟨way, node, pointer, hw, pick⟩ := walk_of_standsAt hs hb
    cases node <;> cases pick
    exact ⟨way, pointer, hw⟩
  | inline =>
    cases hs
    cases hb
    refine ⟨_, o.payload_pointer, ?_⟩
    refine (Node.walk_append_of (b := ["requestBody"]) (walk_of_operation hd ho)).trans ?_
    simp [hp]

end Document

end OpenApiClient
