import OpenApiClient.Proofs.Hint.Mentions
import OpenApiClient.Proofs.Reference.Chain

/-!
Where the classes in hints come from. `Makes` follows the places of a schema down to the schema that a
class is for, through references if these lead anywhere.
-/

namespace OpenApiClient

namespace Schema

-- The hints of a place where a schema would be called `name` mention a class, which is that of the
-- schema `source`. What references lead to, and how that is called, is a parameter.
inductive Makes (leads : String → String → Schema → Prop) :
    String → SchemaRef → String → Schema → Prop
  | own {name s} : s.annotatedReference = none → s.kind.hasClass → Makes leads name (.inline s) name s
  | part {name s role place cls source} : s.annotatedReference = none → s.Shows role →
    s.Has role place → Makes leads (role.nameIn name) place cls source →
    Makes leads name (.inline s) cls source
  | annotated {name s target cls source} : s.annotatedReference = some target →
    Makes leads name (.ref target) cls source → Makes leads name (.inline s) cls source
  | ref {name target name' s cls source} : leads target name' s →
    Makes leads name' (.inline s) cls source → Makes leads name (.ref target) cls source

-- The class is written in the place itself, where no references are followed.
abbrev Writes : String → SchemaRef → String → Schema → Prop :=
  Makes fun _ _ _ => False

variable {leads : String → String → Schema → Prop} {expand : String → Except BuildError Hints}
  {name cls : String} {place : SchemaRef} {source : Schema} {hints : Hints}

theorem Makes.hasClass (h : Makes leads name place cls source) : source.kind.hasClass := by
  induction h with
  | own _ h => exact h
  | part _ _ _ _ ih | annotated _ _ ih | ref _ _ ih => exact ih

theorem mention_hintsAt_annotated {s : Schema} {target : String}
    (ha : s.annotatedReference = some target)
    (h : hintsAt expand .typed name (.inline s) = .ok hints) :
    ∃ more, expand target = .ok more ∧ ∀ cls, Hints.Mention hints cls ↔ Hints.Mention more cls := by
  simp only [hintsAt, ha, bind_eq_ok, pure_eq_ok] at h
  obtain ⟨more, he, rfl⟩ := h
  refine ⟨more, he, fun cls => ?_⟩
  split <;> simp

-- All that is mentioned is made by something, if this is so for references.
theorem makes_of_mention
    (href : ∀ {target hints}, expand target = .ok hints → Hints.Mention hints cls →
      ∃ source, ∀ name, Makes leads name (.ref target) cls source)
    (h : hintsAt expand .typed name place = .ok hints) (hm : Hints.Mention hints cls) :
    ∃ source, Makes leads name place cls source := by
  cases place with
  | ref target =>
    have ⟨source, hs⟩ := href h hm
    exact ⟨source, hs name⟩
  | inline s =>
    induction s using Schema.induction generalizing name hints with
    | step s parts =>
      cases ha : s.annotatedReference with
      | some target =>
        have ⟨more, he, hmore⟩ := mention_hintsAt_annotated ha h
        have ⟨source, hs⟩ := href he ((hmore cls).mp hm)
        exact ⟨source, .annotated ha (hs name)⟩
      | none =>
        rw [hintsAt_inline ha] at h
        rcases (mention_hints h).mp hm with ⟨hk, rfl⟩ | ⟨role, place, hints', shows, hp, hh, hm'⟩
        · exact ⟨s, .own ha hk⟩
        · cases place with
          | ref target =>
            have ⟨source, hs⟩ := href hh hm'
            exact ⟨source, .part ha shows hp (hs _)⟩
          | inline c =>
            have ⟨source, hs⟩ := parts hp hm' hh
            exact ⟨source, .part ha shows hp hs⟩

-- What is made without references is mentioned, whatever references stand for.
theorem Makes.mention (h : Writes name place cls source)
    (hh : hintsAt expand .typed name place = .ok hints) : Hints.Mention hints cls := by
  induction h generalizing hints with
  | own ha hk =>
    rw [hintsAt_inline ha] at hh
    exact (mention_hints hh).mpr <| .inl ⟨hk, rfl⟩
  | part ha shows hp _ ih =>
    rw [hintsAt_inline ha] at hh
    have ⟨hints', hh'⟩ := of_hints hh shows hp
    exact (mention_hints hh).mpr <| .inr ⟨_, _, _, shows, hp, hh', ih hh'⟩
  | annotated ha hr => nomatch hr
  | ref h => contradiction

-- What is made is written in the place, or it is made by a reference in it.
theorem Makes.cases_ref (h : Makes leads name place cls source) :
    Writes name place cls source ∨ ∃ name target, Makes leads name (.ref target) cls source := by
  induction h with
  | own ha hk => exact .inl <| .own ha hk
  | part ha shows hp _ ih => exact ih.imp_left <| .part ha shows hp
  | annotated _ h => exact .inr ⟨_, _, h⟩
  | @ref name _ _ _ _ _ hl h => exact .inr ⟨name, _, .ref hl h⟩

end Schema

namespace Document

-- A reference leads to a schema that is called `name`.
def Leads (d : Document) (schemas : SchemaIndex) (target name : String) (s : Schema) : Prop :=
  ∃ terminal, d.meantSchema target = .ok (terminal, s) ∧ schemas.nameOf terminal = .ok name

variable {d : Document} {schemas : SchemaIndex} {cls : String} {hints : Hints}

-- The induction is on the steps that are left. A name that comes back, or no steps, mention nothing.
theorem makes_of_expandReference {visiting : List String} {target : String} {steps : Nat}
    (h : d.expandReference schemas .typed visiting target steps = .ok hints)
    (hm : Hints.Mention hints cls) :
    ∃ source, ∀ name, Schema.Makes (d.Leads schemas) name (.ref target) cls source := by
  induction steps generalizing visiting target hints with
  | zero =>
    cases h
    simp at hm
  | succ steps ih =>
    simp only [expandReference, bind_eq_ok, resolved_eq_ok] at h
    obtain ⟨⟨terminal, s⟩, ht, name, hn, h⟩ := h
    split at h
    case isTrue =>
      cases h
      simp at hm
    case isFalse =>
      have ha := (resolve_of_meantSchema ht).2
      rw [← Schema.hintsAt_inline ha] at h
      obtain ⟨source, hs⟩ := Schema.makes_of_mention ih h hm
      exact ⟨source, fun _ => .ref ⟨terminal, ht, hn⟩ hs⟩

theorem makes_of_hintsAt {name : String} {place : Option SchemaRef}
    (h : d.hintsAt schemas .typed name place = .ok hints) (hm : Hints.Mention hints cls) :
    ∃ p ∈ place, ∃ source, Schema.Makes (d.Leads schemas) name p cls source := by
  cases place with
  | none =>
    cases h
    simp at hm
  | some p => exact ⟨p, rfl, Schema.makes_of_mention makes_of_expandReference h hm⟩

end Document

end OpenApiClient
