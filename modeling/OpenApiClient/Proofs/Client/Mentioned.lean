import OpenApiClient.Proofs.Client.Arguments
import OpenApiClient.Proofs.Client.ClassNames
import OpenApiClient.Proofs.Client.Decoded

/-!
The classes that hints mention have words for names: they are called like what the walk has visited, or after an operation
and its parameter, and then after what they are in.
-/

namespace OpenApiClient

open Naming

namespace Schema

variable {leads : String → String → Schema → Prop} {name cls : String} {place : SchemaRef} {source : Schema}

theorem Role.isWord_nameIn (h : IsWord name) (role : Role) : IsWord (role.nameIn name) := by
  cases role <;> exact h.append fun _ => isNameChar_of_mem_joinCapitalized

theorem Makes.isWord (h : Makes leads name place cls source) (hn : IsWord name)
    (hl : ∀ {target name s}, leads target name s → IsWord name) : IsWord cls := by
  induction h with
  | own => exact hn
  | part _ _ _ _ ih => exact ih (Role.isWord_nameIn hn _)
  | annotated _ _ ih => exact ih hn
  | ref h _ ih => exact ih (hl h)

end Schema

namespace Document

open NamedDocument

variable {d : Document} {n : NamedDocument} {name : String} {s : Schema} {hints : Hints} {place : Option SchemaRef}
  {c : Client} {e : Endpoint} {rootNamespace : String}

theorem isWord_of_named (h : IsClassName name ∨ ∃ o text, d.NamedAfter o text name) : IsWord name := by
  rcases h with h | ⟨_, _, h⟩
  case inl => exact h.toIsWord
  case inr => exact h.isClassName_iff.1

theorem Named.isWord {responses : ResponseIndex} (h : d.Named responses name s) : IsWord name := by
  obtain ⟨_, visits⟩ := h
  obtain ⟨_, _, _, _, _, begins, within⟩ := visits.within
  exact isWord_of_named (begins.named within)

theorem isWord_of_nameAt? (h : d.named = .ok n) {pointer : String} (hn : n.schemas.nameAt? pointer = some name) :
    IsWord name := by
  have ⟨_, hr, index⟩ := of_named h
  obtain ⟨p, hp, -, rfl⟩ := index.visit_of_nameAt? hn
  have ⟨way, _, visits⟩ := visits_of_step hr hp
  exact Named.isWord ⟨way, visits⟩

theorem isWord_of_hintsAt (hd : d.Distinct) (h : d.named = .ok n) (hn : IsWord name)
    (hh : n.hintsAt .typed name place = .ok hints) : ∀ cls, Hints.Mention hints cls → IsWord cls := by
  intro cls mention
  obtain rfl := (of_named h).1
  obtain ⟨_, _, _, makes⟩ := makes_of_hintsAt hh mention
  exact makes.isWord hn fun leads => (leads.named hd h).isWord

theorem isWord_of_argument (hd : d.Distinct) (hc : d.client rootNamespace = .ok c) (he : e ∈ c.endpoints) :
    ∀ a ∈ e.arguments, ∀ cls, Hints.Mention a.hints cls → IsWord cls := by
  intro a ha
  have ⟨n, builds⟩ := builds_of_client hc
  obtain ⟨o, _, offers⟩ := mem_of_mapM builds.endpoints e he
  obtain ⟨_, _, arguments⟩ := (offers_of_endpoint offers).arguments
  obtain ⟨p, _, argument⟩ := mem_of_mapM arguments a ha
  obtain ⟨position, _, hh⟩ := hintsAt_of_argument argument
  refine isWord_of_hintsAt hd builds.named ?_ hh
  cases hn : n.schemas.nameAt? (position ++ "/schema") with
  | none => exact (isClassName_parameterName o _).1
  | some name => exact isWord_of_nameAt? builds.named hn

-- What an entity covers is called like the entity.
theorem isWord_of_covered (hc : d.client rootNamespace = .ok c) (covered : n.Covered c.entities name place hints) :
    ∀ cls, Hints.Mention hints cls → IsWord cls := by
  intro cls mention
  obtain ⟨p, hp, _, makes⟩ := covered.source mention
  obtain ⟨e, he, rfl, _⟩ := covered.entity hp makes
  exact isWord_of_named (entity_named hc he)

theorem isWord_of_payload (hd : d.Distinct) (hc : d.client rootNamespace = .ok c) (he : e ∈ c.endpoints) :
    ∀ b ∈ e.payload, ∀ cls, Hints.Mention b.hints cls → IsWord cls := by
  intro b hb
  have ⟨n, builds⟩ := builds_of_client hc
  have ⟨_, _, _, _, _, _, _, _, _, _, covered⟩ := coversPayload hd builds.named builds.entities builds.endpoints e he b hb
  exact isWord_of_covered hc covered

theorem isWord_of_reads (hd : d.Distinct) (hc : d.client rootNamespace = .ok c) {v : ValueType} (hv : c.Reads v) :
    ∀ cls, Hints.Mention v.hints cls → IsWord cls := by
  have ⟨n, builds⟩ := builds_of_client hc
  have ⟨_, _, known, value⟩ := builds.valueAt_of_reads hd hv
  exact isWord_of_covered hc (covered_of_known hd builds.named builds.entities known (of_valueAt value).1)

end Document

end OpenApiClient
