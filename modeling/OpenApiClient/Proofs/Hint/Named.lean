import OpenApiClient.Proofs.Hint.Makes
import OpenApiClient.Proofs.Index.Names

/-!
Hints name what the walk has visited: what a reference leads to was visited under the name that the
reference gets, and so were the schemas in it under the names that hints give them.
-/

namespace OpenApiClient

namespace Schema

variable {s c m : Schema}

-- A schema itself, its inline members, the members of these, and so on.
inductive Member (s : Schema) : Schema → Prop
  | self : Member s s
  | member {m i m'} : Member s m → m.Merges i m' → Member s m'

theorem Member.part_below {role : Role} (h : s.Member m) (hp : m.Has role (.inline c)) (name : String) :
    ∃ rest, s.Below name rest (role.nameIn name) c := by
  have through {rest name' s'} (h' : m.Below name rest name' s') : ∃ rest, s.Below name rest name' s' := by
    clear hp
    induction h generalizing rest with
    | self => exact ⟨rest, h'⟩
    | member _ hm ih => exact ih (.merged hm h')
  exact through (.part hp)

end Schema

namespace Document

-- The walk has visited a schema under a name.
def Named (d : Document) (responses : ResponseIndex) (name : String) (s : Schema) : Prop :=
  ∃ way, d.Visits responses way name s

variable {d : Document} {n : NamedDocument} {responses : ResponseIndex} {name cls target : String}
  {s c m source : Schema} {place : SchemaRef}

theorem Named.below {rest : List String} {name' : String} {s' : Schema}
    (h : d.Named responses name s) (hb : s.Below name rest name' s') : d.Named responses name' s' := by
  have ⟨way, hv⟩ := h
  cases hv with
  | root begins => exact ⟨_, .below begins hb⟩
  | below begins below => exact ⟨_, .below begins (below.trans hb)⟩

theorem Named.part {role : Role} (h : d.Named responses name s) (hm : s.Member m)
    (hp : m.Has role (.inline c)) : d.Named responses (role.nameIn name) c :=
  have ⟨_, hb⟩ := hm.part_below hp name
  h.below hb

-- What stands at a pointer with a name is what was visited there under this name.
theorem named_of_nameAt? (hd : d.Distinct) (h : d.named = .ok n) {way : List String}
    (hn : n.schemas.nameAt? (Pointer.ofSegments way) = some name)
    (hw : (Node.document d).walk way = .ok (.schema s)) : d.Named n.responses name s := by
  have ⟨_, hr, index⟩ := of_named h
  obtain ⟨p, hp, pointer, rfl⟩ := index.visit_of_nameAt? hn
  have ⟨way', hw', hv⟩ := visits_of_step hr hp
  obtain rfl := Pointer.ofSegments_injective (pointer.symm.trans hw')
  cases hv.reaches hd _ hw
  exact ⟨way, hv⟩

-- A component is visited under the name that its key gives.
theorem named_of_component {responses : ResponseIndex} {key : String}
    (hn : Naming.ofComponentKey key = .ok name)
    (hw : (Node.document d).walk ["components", "schemas", key] = .ok (.schema s)) :
    d.Named responses name s := by
  have ⟨c, hc, place, hg, hp⟩ : ∃ c, d.components = some c ∧ ∃ place,
      Entries.get? key c.schemas = some place ∧ Node.ofRefOr .schema place = .schema s := by
    simpa using hw
  obtain rfl := Node.ofRefOr_eq_schema.mp hp
  exact ⟨_, .root (.schema (mem_componentSchemas.mpr ⟨c, hc, Entries.mem_of_get? hg⟩) hn)⟩

theorem Leads.named (hd : d.Distinct) (h : d.named = .ok n) (hl : d.Leads n.schemas target name s) :
    d.Named n.responses name s := by
  obtain ⟨terminal, ht, hn⟩ := hl
  have hr := (resolve_of_meantSchema ht).1
  simp only [resolve, bind_eq_ok, mapError_eq_ok] at hr
  obtain ⟨way, hs, hw⟩ := hr
  simp only [SchemaIndex.nameOf, bind_eq_ok, resolved_eq_ok, hs, Except.ok.injEq, exists_eq_left'] at hn
  split at hn
  case h_1 key => exact named_of_component (named_eq_ok.mp hn) hw
  case h_2 =>
    simp only [Pointer.canonical, hs, bind_eq_ok, resolved_eq_ok, map_eq_ok, Except.ok.injEq,
      exists_eq_left'] at hn
    split at hn
    case h_1 hf =>
      cases hn
      exact named_of_nameAt? hd h hf hw
    case h_2 => contradiction

-- So what hints mention was visited under its name, if the place that they are for was.
theorem named_of_makes (hd : d.Distinct) (h : d.named = .ok n)
    (hm : Schema.Makes (d.Leads n.schemas) name place cls source)
    (hp : place.Only (d.Named n.responses name)) : d.Named n.responses cls source := by
  induction hm with
  | own => exact hp _ rfl
  | part _ _ has _ ih =>
    refine ih fun c hc => ?_
    exact (hp _ rfl).part .self (hc ▸ has)
  | annotated _ _ ih => exact ih nofun
  | ref hl _ ih => exact ih <| RefOr.only_inline.mpr <| hl.named hd h

end Document

end OpenApiClient
