import OpenApiClient.Proofs.Client.Decoded
import OpenApiClient.Proofs.Hint.Levels

/-!
The values that a client uses as they are decoded. They are of a type that no class is a part of, or else it
is left to the user of the client to tell a class from its alternatives.
-/

namespace OpenApiClient.Document

open NamedDocument

variable {d : Document} {n : NamedDocument} {c : Client} {value : ValueType} {cls rootNamespace : String}

namespace Builds

-- There is a way to make each class that a type mentions.
theorem classFactory_ne_direct (h : d.Builds n c) (hd : d.Distinct) (hv : c.Reads value)
    (hm : Hints.Mention value.hints cls) : n.schemas.classFactory cls ≠ .direct := by
  have ⟨_, place, known, at_place⟩ := h.valueAt_of_reads hd hv
  obtain rfl := (of_named h.named).1
  have ⟨p, hp, source, makes⟩ := makes_of_hintsAt (of_valueAt at_place).1 hm
  have named := named_of_makes hd h.named makes fun s hs => known s (hs ▸ hp)
  obtain ⟨found, _, get, _, _, kind⟩ := found_of_named hd h.named named makes.hasClass
  have hasClass : found.kind.hasClass := kind ▸ makes.hasClass
  simp only [SchemaIndex.classFactory, get, Option.map_some]
  grind [SchemaKind.hasClass]

-- The two types of a value differ by classes alone, and no class is left in what is decoded.
theorem hints_eq_decoded_iff (h : d.Builds n c) (hd : d.Distinct) (hv : c.Reads value) :
    value.hints = value.decoded ↔ ∀ cls, ¬ Hints.Mention value.hints cls := by
  have ⟨_, _, _, at_place⟩ := h.valueAt_of_reads hd hv
  have ⟨typed, decoded, _⟩ := of_valueAt at_place
  constructor
  · intro same cls
    exact same ▸ (wellFormed_hintsAt decoded).not_mention
  · intro none
    rw [h.decoded_of_reads hd hv, Hints.erased_eq_self (wellFormed_hintsAt typed) none]

end Builds

-- A value is used as decoded exactly if it has no classes, or if it has them beside others.
theorem direct_iff (hd : d.Distinct) (hc : d.client rootNamespace = .ok c) (hv : c.Reads value) :
    (value.hints = value.decoded ↔ ∀ cls, ¬ Hints.Mention value.hints cls) ∧
    (value.factory = .direct ↔ value.hints = value.decoded ∨ value.hints.Unites) := by
  have ⟨n, builds⟩ := builds_of_client hc
  have same := builds.hints_eq_decoded_iff hd hv
  have ⟨_, _, _, at_place⟩ := builds.valueAt_of_reads hd hv
  have made := SchemaIndex.factory_eq_direct_iff fun _ => builds.classFactory_ne_direct hd hv
  rw [← (of_valueAt at_place).2.2, ← same] at made
  exact ⟨same, made⟩

theorem survey_direct : ∃ c value, Survey.document.client Client.defaultNamespace = .ok c ∧
    c.Reads value ∧ value.hints = [.model "Choice", .null, .model "Remark"] ∧
    value.factory = .direct ∧ value.hints.Unites := by
  obtain ⟨c, e, p, q, hc, he, hp, p_value, _⟩ := Survey.built
  have reads : c.Reads Survey.said := p_value ▸ .property he hp
  have differ : Survey.said.hints ≠ Survey.said.decoded := by decide
  have unites := ((direct_iff Survey.distinct hc reads).2.mp rfl).resolve_left differ
  exact ⟨c, Survey.said, hc, reads, rfl, rfl, unites⟩

-- So there are values whose type has classes, and which are used as decoded nevertheless.
theorem not_hints_eq_decoded_of_direct : ¬ ∀ (d : Document) (rootNamespace : String) (c : Client)
    (value : ValueType), d.Distinct → d.client rootNamespace = .ok c → c.Reads value →
    value.factory = .direct → value.hints = value.decoded ∧ ∀ cls, ¬ Hints.Mention value.hints cls := by
  intro h
  obtain ⟨c, e, p, q, hc, he, hp, p_value, _⟩ := Survey.built
  have reads : c.Reads Survey.said := p_value ▸ .property he hp
  have same := (h _ _ c Survey.said Survey.distinct hc reads rfl).1
  exact absurd same (by decide)

end OpenApiClient.Document
