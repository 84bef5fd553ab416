import OpenApiClient.Proofs.Index.Responses
import OpenApiClient.Proofs.Index.Within
import OpenApiClient.Proofs.Reference.Chain

/-!
Responses that are called the same share a class. It belongs to the place of the first of them: only
references to this place, and to schemas in what is written there, find a name.
-/

namespace OpenApiClient

open Pointer

-- What is known of an answer, if there is one, and when there is.
theorem eq_ite_some {α : Type} {x : Option α} {a : α} {P : Prop} [Decidable P]
    (known : ∀ b, x = some b → b = a ∧ P) (answered : P → x ≠ none) : x = if P then some a else none := by
  cases x with
  | none => rw [if_neg fun hp => answered hp rfl]
  | some b =>
    have ⟨same, hp⟩ := known b rfl
    rw [if_pos hp, same]

-- A response is written in the site, and it is called `name`.
def Document.ResponseSite.claims (site : Document.ResponseSite) (name : String) : Bool :=
  site.response.inline?.isSome && site.name.toOption == some name

theorem ResponsePlace.way_inj {a b : ResponsePlace} (h : a.way = b.way) : a = b := by
  cases a <;> cases b <;> simp_all [way]

namespace ResponseIndex

variable {past : List Document.ResponseSite} {site : Document.ResponseSite} {d : Document}
  {m m' : ResponseIndex} {name : String}

-- Each entry comes from the first place that claims its name.
def FromFirst (past : List Document.ResponseSite) (m : ResponseIndex) : Prop :=
  ∀ name, (m.get? name).map (·.origin) = (past.find? (·.claims name)).map (·.origin)

-- A place that claims no new name may be added.
theorem FromFirst.keep (h : FromFirst past m) (hs : ∀ name, site.claims name → (m.get? name).isSome) :
    FromFirst (past ++ [site]) m := by
  intro name
  rw [h name, List.find?_append, Option.map_or]
  cases claimed : site.claims name with
  | false => simp [claimed]
  | true =>
    have := congrArg Option.isSome (h name)
    simp only [Option.isSome_map, hs name claimed] at this
    obtain ⟨first, hf⟩ := Option.isSome_iff_exists.mp this.symm
    simp [hf]

theorem FromFirst.addResponse (h : FromFirst past m) (hs : d.addResponse m site = .ok m') :
    FromFirst (past ++ [site]) m' := by
  unfold Document.addResponse at hs
  split at hs
  case h_1 hr =>
    simp only [bind_eq_ok, pure_eq_ok] at hs
    obtain ⟨_, _, rfl⟩ := hs
    exact h.keep <| by simp [Document.ResponseSite.claims, hr, RefOr.inline?]
  case h_2 response hr =>
    simp only [bind_eq_ok, named_eq_ok] at hs
    obtain ⟨name, hn, hs⟩ := hs
    have claims (other : String) : site.claims other = (name == other) := by
      simp [Document.ResponseSite.claims, hr, RefOr.inline?, hn, Except.toOption]
    cases inserts hs with
    | known hf =>
      refine h.keep fun other claimed => ?_
      rw [claims, beq_iff_eq] at claimed
      simpa [← claimed] using Option.isSome_of_mem hf
    | new fresh =>
      intro other
      have first := h other
      simp only [get?, List.find?_append, Option.map_or] at first ⊢
      rw [first, List.find?_singleton, List.find?_singleton, claims]
      split <;> rfl

end ResponseIndex

namespace Document

variable {d : Document} {n : NamedDocument} {responses : ResponseIndex} {place : ResponsePlace}
  {cls : Except NamingError String} {name : String} {r : Response}

theorem responseIndex_fromFirst (h : d.responseIndex = .ok responses) :
    responses.FromFirst d.responseSites :=
  foldlM_induction (P := ResponseIndex.FromFirst) (fun _ => rfl) .addResponse h

-- The class `name` is that of the response in this place, which is the first one called so.
def Founds (d : Document) (place : ResponsePlace) (name : String) : Prop :=
  (d.responseSites.find? (·.claims name)).map (·.origin) = some (ofSegments place.way)

instance : Decidable (d.Founds place name) :=
  inferInstanceAs (Decidable (_ = _))

theorem name_of_hasResponse (hr : d.responseIndex = .ok responses) (h : d.HasResponse place cls r) :
    ∃ name, cls = .ok name := by
  have ⟨site, hs, response, site_name⟩ := site_of_hasResponse h
  have ⟨_, _, added⟩ := step_of_foldlM hr hs
  simp only [addResponse, response, bind_eq_ok, named_eq_ok, site_name] at added
  exact added.imp fun _ => And.left

theorem founds_iff (hr : d.responseIndex = .ok responses) : d.Founds place name ↔
    ∃ found ∈ responses.entries, found.name = name ∧ found.origin = ofSegments place.way := by
  rw [Founds, ← responseIndex_fromFirst hr name, Option.map_eq_some_iff]
  constructor
  · rintro ⟨found, first, origin⟩
    have ⟨mem, found_name⟩ := ResponseIndex.of_get?_eq_some first
    exact ⟨found, mem, found_name, origin⟩
  · rintro ⟨found, mem, rfl, origin⟩
    exact ⟨found, find?_of_nodup (responseIndex_of hr).names mem, origin⟩

-- What the index has for a place is what is written there.
theorem of_origin (hd : d.Distinct) (hr : d.responseIndex = .ok responses)
    (h : d.HasResponse place (.ok name) r) {found : NamedResponse} (hf : found ∈ responses.entries)
    (origin : found.origin = ofSegments place.way) : found.name = name ∧ found.response = r := by
  have ⟨place', hp, at_place⟩ := hasResponse_of_index hr found hf
  obtain rfl := ResponsePlace.way_inj <| ofSegments_injective <| at_place.symm.trans origin
  exact ⟨Except.ok.inj (hp.name_eq hd h), hp.response_eq hd h⟩

theorem nameAt?_eq (hd : d.Distinct) (hr : d.responseIndex = .ok responses)
    (h : d.HasResponse place (.ok name) r) : responses.nameAt? (ofSegments place.way) =
      if d.Founds place name then some name else none := by
  refine eq_ite_some (fun other hn => ?_) fun founds hn => ?_
  · obtain ⟨found, hf, rfl, origin⟩ := ResponseIndex.of_nameAt?_eq_some hn
    obtain ⟨found_name, -⟩ := of_origin hd hr h hf origin
    exact ⟨found_name, (founds_iff hr).mpr ⟨found, hf, found_name, origin⟩⟩
  · have ⟨found, hf, _, origin⟩ := (founds_iff hr).mp founds
    have := List.find?_eq_none.mp (Option.map_eq_none_iff.mp hn) found hf
    simp [origin] at this

variable {name' media : String} {rest : List String} {s body : Schema}

theorem begins_response_iff (hd : d.Distinct) (hr : d.responseIndex = .ok responses)
    (h : d.HasResponse place (.ok name) r) :
    d.Begins responses (.response place media) name' body ↔ d.Founds place name ∧
      name' = Naming.responseBodyName name ∧ jsonSchema? r.content = some (media, body) := by
  rw [founds_iff hr]
  constructor
  · intro begins
    cases begins with
    | response hf hp origin json =>
      obtain ⟨rfl, rfl⟩ := of_origin hd hr h hf origin
      exact ⟨⟨_, hf, rfl, origin⟩, rfl, json⟩
  · rintro ⟨⟨found, hf, rfl, origin⟩, rfl, json⟩
    obtain ⟨-, rfl⟩ := of_origin hd hr h hf origin
    exact .response hf h origin json

-- References to schemas in the body are looked up in the same way.
theorem nameAt?_body (hd : d.Distinct) (h : d.named = .ok n) (hp : d.HasResponse place (.ok name) r)
    (json : jsonSchema? r.content = some (media, body))
    (hs : body.Within (Naming.responseBodyName name) rest name' s) :
    n.schemas.nameAt? (ofSegments ((Root.response place media).way ++ rest)) =
      if d.Founds place name then some name' else none := by
  have ⟨_, hr, index⟩ := of_named h
  refine eq_ite_some (fun other hn => ?_) fun founds hn => ?_
  · obtain ⟨p, hv, pointer, rfl⟩ := index.visit_of_nameAt? hn
    have ⟨way, hw, visits⟩ := visits_of_step hr hv
    obtain rfl := ofSegments_injective (hw.symm.trans pointer)
    have ⟨_, _, begins, within⟩ := visits_root_iff.mp visits
    obtain ⟨founds, rfl, -⟩ := (begins_response_iff hd hr hp).mp begins
    exact ⟨within.name_eq hs, founds⟩
  · have begins := (begins_response_iff hd hr hp).mpr ⟨founds, rfl, json⟩
    have ⟨_, hv⟩ := (visits_root_iff.mpr ⟨_, _, begins, hs⟩).step hr
    have ⟨_, found⟩ := index.nameAt?_of_visit hv
    exact nomatch hn.symm.trans found

theorem responseNameOf_eq {reference terminal stem status : String} {way : List String}
    (ht : d.destination .response reference = .ok (terminal, r)) (hs : segments terminal = .ok way) :
    d.responseNameOf responses stem status (.ref reference) =
      match responses.nameAt? (ofSegments way) with
      | some name => .ok name
      | none => .error (.naming (.unnamedReference terminal)) := by
  have canonical_eq : canonical terminal = .ok (ofSegments way) := by simp [canonical, hs]
  simp only [responseNameOf, ht, canonical_eq, resolved_ok_bind]
  rfl

-- Responses that share a class share its name, but only the place that the class comes from can be referred
-- to. References to other copies, and to schemas in the bodies of these, are rejected.
theorem copies_named (hd : d.Distinct) (h : d.named = .ok n) (hp : d.HasResponse place cls r) :
    ∃ name, cls = .ok name ∧
      (∃ found ∈ n.responses.entries, found.name = name ∧ found.response.same r) ∧
      (∀ {terminal}, segments terminal = .ok place.way →
        d.destination .response terminal = .ok (terminal, r) ∧
        ∀ {reference a}, d.destination .response reference = .ok (terminal, a) → ∀ stem status,
          d.responseNameOf n.responses stem status (.ref reference) =
            if d.Founds place name then .ok name else .error (.naming (.unnamedReference terminal))) ∧
      ∀ {media body rest name' s terminal}, jsonSchema? r.content = some (media, body) →
        body.Within (Naming.responseBodyName name) rest name' s →
        segments terminal = .ok ((Root.response place media).way ++ rest) →
        n.schemas.nameOf terminal =
          if d.Founds place name then .ok name' else .error (.naming (.unnamedReference terminal)) := by
  have ⟨_, hr, _⟩ := of_named h
  obtain ⟨name, rfl⟩ := name_of_hasResponse hr hp
  refine ⟨name, rfl, entry_of_hasResponse hd hr hp, fun {terminal} ht => ⟨?_, ?_⟩, ?_⟩
  · have resolved : d.resolve terminal = .ok (.response r) := by
      simp [resolve, ht, walk_of_hasResponse hd hp]
    exact destination_of_resolve resolved rfl
  · intro reference a hreach stem status
    rw [responseNameOf_eq hreach ht, nameAt?_eq hd hr hp]
    by_cases founds : d.Founds place name <;> simp only [founds, if_true, if_false]
  · intro media body rest name' s terminal json within ht
    have no_component (key : String) :
        (Root.response place media).way ++ rest ≠ ["components", "schemas", key] := by
      cases place <;> simp [Root.way, ResponsePlace.way]
    rw [SchemaIndex.nameOf_eq ht no_component, nameAt?_body hd h hp json within]
    by_cases founds : d.Founds place name <;> simp only [founds, if_true, if_false]

end Document

namespace Copies

-- Two components that say the same and are called the same; an operation refers to the second of them.
def missing : Response where
  description := "Missing"
  content := [("application/json", { schema := some (.inline {
    properties := [("code", .inline { typeKeyword := some (.single .string) })] }) })]

def document : Document where
  openapi := "3.1.0"
  info := { title := "T", version := "1" }
  paths := [("/a", { get := some { responses := [("404", .ref "#/components/responses/not_found")] } })]
  components := some { responses := [("not-found", .inline missing), ("not_found", .inline missing)] }

theorem distinct : document.Distinct := by
  simp [Document.distinct_iff, Components.distinct_iff, PathItem.distinct_iff, Operation.distinct_iff,
    Response.distinct_iff, MediaType.distinct_iff, Schema.distinct_iff, document, missing,
    Entries.keys, Entries.Distinct, PathItem.operations, PathItem.operation, HttpMethod.all]

-- The name of a component does not tell the keys of the two apart.
theorem hasResponse {key : String} (h : key = "not-found" ∨ key = "not_found") :
    document.HasResponse (.component key) (.ok "NotFound") missing := by
  have name : Naming.ofComponentKey key = .ok "NotFound" := by
    rcases h with rfl | rfl <;> decide +kernel
  exact name ▸ .component rfl (by simpa using h)

end Copies

namespace Document

theorem first_copy_named : ∃ n, Copies.document.named = .ok n ∧
    (∀ stem status, Copies.document.responseNameOf n.responses stem status
      (.ref "#/components/responses/not-found") = .ok "NotFound") ∧
    n.schemas.nameOf "#/components/responses/not-found/content/application~1json/schema/properties/code" =
      .ok "NotFoundJsonSchemaCode" := by
  have named : Copies.document.named.toOption.map (fun _ => true) = some true := by decide +kernel
  have ⟨n, hn, _⟩ := exists_ok named
  have ⟨name, hname, _, responses, schemas⟩ := copies_named Copies.distinct hn (Copies.hasResponse (.inl rfl))
  obtain rfl := Except.ok.inj hname
  have founds : Copies.document.Founds (.component "not-found") "NotFound" := by decide +kernel
  simp only [founds, if_true] at responses schemas
  have to_response : segments "#/components/responses/not-found" =
      .ok (ResponsePlace.component "not-found").way := by decide +kernel
  have to_code : segments
      "#/components/responses/not-found/content/application~1json/schema/properties/code" =
        .ok ((Root.response (.component "not-found") "application/json").way ++
          (Role.property "code").segments) := by decide +kernel
  have code_name : (Role.property "code").nameIn (Naming.responseBodyName "NotFound") =
      "NotFoundJsonSchemaCode" := by decide +kernel
  have ⟨reached, class_name⟩ := responses to_response
  have schema := schemas rfl (.below (.part (.property List.mem_cons_self))) to_code
  exact ⟨n, hn, class_name reached, schema.trans (congrArg _ code_name)⟩

theorem not_copies_named : ∃ n, Copies.document.named = .ok n ∧
    Copies.document.HasResponse (.component "not_found") (.ok "NotFound") Copies.missing ∧
    segments "#/components/responses/not_found" = .ok (ResponsePlace.component "not_found").way ∧
    Copies.document.responseNameOf n.responses "GetA" "404" (.ref "#/components/responses/not_found") =
      .error (.naming (.unnamedReference "#/components/responses/not_found")) ∧
    n.schemas.nameOf "#/components/responses/not_found/content/application~1json/schema" = .error
      (.naming (.unnamedReference "#/components/responses/not_found/content/application~1json/schema")) := by
  have unnamed : Copies.document.named.toOption.map (fun n =>
      (Copies.document.responseNameOf n.responses "GetA" "404" (.ref "#/components/responses/not_found"),
        n.schemas.nameOf "#/components/responses/not_found/content/application~1json/schema")) = some
      (.error (.naming (.unnamedReference "#/components/responses/not_found")), .error (.naming
        (.unnamedReference "#/components/responses/not_found/content/application~1json/schema"))) := by
    decide +kernel
  have ⟨n, hn, unnamed⟩ := exists_ok unnamed
  have ⟨response, schema⟩ := Prod.mk.inj unnamed
  exact ⟨n, hn, Copies.hasResponse (.inr rfl), by decide +kernel, response, schema⟩

end Document

end OpenApiClient
