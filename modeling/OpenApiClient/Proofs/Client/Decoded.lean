import OpenApiClient.Proofs.Client.Classes
import OpenApiClient.Proofs.Client.EnumTable
import OpenApiClient.Proofs.Hint.Erasure

/-!
The two types of each value that a client reads. They are worked out apart, but the one that JSON decodes to
is always that of the client with its classes taken apart.
-/

namespace OpenApiClient

-- What the values of a class are decoded from. The literals of an enum count in the order of its cases.
def Entity.decodedHints (e : Entity) : Hints :=
  if e.kind.isEnum then Hints.ofList (e.cases.map (·.value.hint)) else [.untyped]

namespace Client

def decodedClass (c : Client) (name : String) : Hints :=
  match c.entity? name with
  | some e => e.decodedHints
  | none   => [.model name]

theorem decodedClass_of_entity? {c : Client} {name : String} {e : Entity} (h : c.entity? name = some e) :
    c.decodedClass name = e.decodedHints := by
  rw [decodedClass, h]

-- The values that a client makes from their decoded form.
inductive Reads (c : Client) : ValueType → Prop
  | property {e p} : e ∈ c.entities → p ∈ e.properties → Reads c p.value
  | additional {e value} : e ∈ c.entities → value ∈ e.additional → Reads c value
  | body {r body} : r ∈ c.responses → body ∈ r.body → Reads c body.value

end Client

namespace EnumTable

-- A literal that has a case already is of a kind that is known.
theorem Sound.hints_add {t : EnumTable} (h : t.Sound) (value : Literal) :
    Hints.ofList ((t.add value).cases.map (·.value.hint)) =
      (Hints.ofList (t.cases.map (·.value.hint))).push value.hint := by
  obtain ⟨⟨known, hk, same⟩, unchanged⟩ | ⟨-, label, -, added⟩ := h.add_eq value
  case inl =>
    rw [unchanged, ← (Literal.key_eq_iff.mp same).1]
    exact (Hints.push_of_mem (Hints.mem_ofList.mpr (List.mem_map_of_mem hk))).symm
  case inr =>
    rw [added, List.map_append, Hints.ofList_append]
    rfl

theorem hints_ofLiterals (literals : List Literal) :
    Hints.ofList ((ofLiterals literals).cases.map (·.value.hint)) = Hints.ofList (literals.map Literal.hint) := by
  induction literals using List.reverseRecOn with
  | nil => rfl
  | append_singleton literals value ih =>
    rw [ofLiterals_concat, (sound_ofLiterals literals).hints_add, ih, List.map_append, Hints.ofList_append]
    rfl

end EnumTable

-- The cases tell of the same kinds of literals as the values that they are for.
theorem EnumCase.hints_ofValues (values : List Json.Value) :
    Hints.ofList ((ofValues values).map (·.value.hint)) =
      Hints.ofList ((Schema.scalarValues values).map Schema.literalHint) := by
  have literals {scalars : List Json.Value}
      (h : ∀ value ∈ scalars, ¬ value.isNull ∧ ¬ value.isStructured) :
      (scalars.filterMap Literal.ofJson?).map Literal.hint = scalars.map Schema.literalHint := by
    induction scalars with
    | nil => rfl
    | cons value rest ih =>
      have ⟨⟨hn, hs⟩, hr⟩ := List.forall_mem_cons.mp h
      have ⟨literal, hl, hint⟩ := Literal.hint_ofJson? hn hs
      simp [hl, hint, ih hr]
  rw [ofValues, EnumTable.ofValues, EnumTable.hints_ofLiterals, literals fun _ => Schema.of_mem_scalarValues]

namespace Schema

theorem literalHint_plain (value : Json.Value) : literalHint value.plain = literalHint value := by
  cases value with
  | number x => cases x <;> simp [literalHint, Json.Value.plain, Json.Number.plain, Json.Value.isSigned64]
  | _ => simp [literalHint, Json.Value.plain, Json.Value.isSigned64]

theorem enumHints_eq_of_same {s t : Schema} (h : s.same t) (name name' : String) :
    s.enumHints .decoded name = t.enumHints .decoded name' := by
  have values : sameList Json.Value.equals s.enumValues t.enumValues := by
    simp only [same_eq, Bool.and_eq_true] at h
    tauto
  have kinds (s : Schema) : (scalarValues s.enumValues).map literalHint =
      (scalarValues (s.enumValues.map Json.Value.plain)).map literalHint := by
    simp [scalarValues_map_plain, Function.comp_def, literalHint_plain]
  simp only [enumHints]
  rw [kinds, (sameList_iff_map Json.Value.equals_iff).mp values, ← kinds]

end Schema

namespace NamedDocument

variable {n : NamedDocument} {found : NamedSchema} {e : Entity}

theorem exists_enum_entity (n : NamedDocument) (hk : found.kind.isEnum) : ∃ e, n.entity found = .ok e ∧
    e.kind = found.kind ∧ e.cases = EnumCase.ofValues found.schema.enumValues := by
  have not_object : found.kind ≠ .object := by
    intro object
    simp [object, SchemaKind.isEnum] at hk
  rw [entity, if_neg not_object]
  exact ⟨_, rfl, rfl, rfl⟩

theorem cases_of_entity (h : n.entity found = .ok e) (hk : found.kind.isEnum) :
    e.cases = EnumCase.ofValues found.schema.enumValues := by
  obtain ⟨e', built, -, of_e⟩ := n.exists_enum_entity hk
  cases h.symm.trans built
  exact of_e

-- The cases of an enum tell what its schema is decoded as.
theorem decodedHints_of_entity (h : n.entity found = .ok e) (hk : found.kind.isEnum) :
    e.decodedHints = found.schema.enumHints .decoded found.name := by
  rw [Entity.decodedHints, (describes_of_entity h).kind, if_pos hk, cases_of_entity h hk,
    EnumCase.hints_ofValues]
  rfl

end NamedDocument

namespace Document

open NamedDocument

variable {d : Document} {n : NamedDocument} {c : Client} {value : ValueType} {name : String}
  {rootNamespace : String}

-- The parts of a client by what they are made from.
structure Builds (d : Document) (n : NamedDocument) (c : Client) : Prop where
  named : d.named = .ok n
  entities : n.entities = .ok c.entities
  responses : n.responseClasses = .ok c.responses
  endpoints : n.endpoints = .ok c.endpoints

theorem builds_of_client (hc : d.client rootNamespace = .ok c) : ∃ n, d.Builds n c := by
  simp only [client, bind_eq_ok, pure_eq_ok] at hc
  obtain ⟨n, h, entities, he, responses, hr, endpoints, hs, _, _, rfl⟩ := hc
  exact ⟨n, h, he, hr, hs⟩

namespace Builds

theorem entities_nodup (h : d.Builds n c) : (c.entities.map (·.name)).Nodup := by
  have names : c.entities.map (·.name) = n.schemas.classes.map (·.name) :=
    map_of_mapM (fun h => (describes_of_entity h).name) h.entities
  exact names ▸ (of_named h.named).2.2.names.sublist (List.filter_sublist.map _)

-- What was visited under the name of a class is what its entity is about.
theorem entity?_of_named (h : d.Builds n c) (hd : d.Distinct) {s : Schema}
    (hs : d.Named n.responses name s) (hk : s.kind.hasClass) : ∃ found e,
      n.entity found = .ok e ∧ c.entity? name = some e ∧ found.schema.same s ∧ found.kind = s.kind := by
  obtain ⟨found, mem, get, found_name, same, kind⟩ := found_of_named hd h.named hs hk
  obtain ⟨e, he, hfound⟩ := mem_mapM h.entities found mem
  have e_name := (describes_of_entity hfound).name.trans found_name
  exact ⟨found, e, hfound, e_name ▸ find?_of_nodup h.entities_nodup he, same, kind⟩

-- An enum has values, and a value is not null.
theorem decodedClass_proper (h : d.Builds n c) (name : String) :
    ∃ hint ∈ c.decodedClass name, hint ≠ .null := by
  cases he : c.entity? name with
  | none => exact ⟨.model name, by simp [Client.decodedClass, he], nofun⟩
  | some e =>
    rw [Client.decodedClass_of_entity? he]
    have ⟨found, hm, hfound⟩ := mem_of_mapM h.entities e (List.mem_of_find?_eq_some he)
    have ⟨p, _, _, hp⟩ := (of_named h.named).2.2.visit_of_entry found (List.mem_filter.mp hm).1
    have kind : found.kind = found.schema.kind := hp ▸ rfl
    by_cases hk : found.kind.isEnum
    case pos =>
      have wellFormed : Hints.WellFormed .decoded (found.schema.enumHints .decoded found.name) :=
        Schema.enumHints_wellFormed (kind ▸ hk)
      have ⟨hint, hm, proper⟩ := wellFormed.known
      exact ⟨hint, decodedHints_of_entity hfound hk ▸ hm, proper⟩
    case neg =>
      rw [← (describes_of_entity hfound).kind] at hk
      exact ⟨.untyped, by simp [Entity.decodedHints, hk], nofun⟩

theorem erasure (h : d.Builds n c) (hd : d.Distinct) :
    Schema.Erasure c.decodedClass (d.Named n.responses) where
  proper := h.decodedClass_proper
  object hs hk := by
    obtain ⟨found, e, hfound, he, _, kind⟩ := h.entity?_of_named hd hs (by simp [SchemaKind.hasClass, hk])
    have e_kind : e.kind = .object := (describes_of_entity hfound).kind.trans (kind.trans hk)
    simp [Client.decodedClass_of_entity? he, Entity.decodedHints, e_kind, SchemaKind.isEnum]
  enumeration hs hk := by
    obtain ⟨found, e, hfound, he, same, kind⟩ := h.entity?_of_named hd hs (by simp [SchemaKind.hasClass, hk])
    rw [Client.decodedClass_of_entity? he]
    exact (decodedHints_of_entity hfound (kind ▸ hk)).trans (Schema.enumHints_eq_of_same same _ _)
  part hs has := hs.part .self has

-- A value is typed at a place that is known.
theorem valueAt_of_reads (h : d.Builds n c) (hd : d.Distinct) (hv : c.Reads value) :
    ∃ name place, n.Known name place ∧ n.valueAt name place = .ok value := by
  have document := (of_named h.named).1
  cases hv with
  | property he hp =>
    have ⟨found, hf, hfound⟩ := mem_of_mapM h.entities _ he
    have named := named_of_found h.named (List.mem_filter.mp hf).1
    have ⟨merged, hm, entry, hentry, hp⟩ := (describes_of_entity hfound).property hp
    have known := knownProperties_of_mergeProperties hd h.named knownProperties_nil
      (document ▸ named) .self hm
    exact ⟨_, _, known entry hentry, valueAt_of_property hp⟩
  | additional he hv =>
    have ⟨found, hf, hfound⟩ := mem_of_mapM h.entities _ he
    have named := named_of_found h.named (List.mem_filter.mp hf).1
    exact ⟨_, _, known_additional named document,
      valueAt_of_additional ((describes_of_entity hfound).additional hv)⟩
  | body hr hb =>
    have ⟨found, hf, hfound⟩ := mem_of_mapM h.responses _ hr
    have ⟨_, hj, value⟩ := valueAt_of_responseClass hfound hb
    exact ⟨_, _, known_response h.named hf hj, value⟩

theorem decoded_of_reads (h : d.Builds n c) (hd : d.Distinct) (hv : c.Reads value) :
    value.decoded = Hints.erased c.decodedClass value.hints := by
  have ⟨_, _, known, hv⟩ := h.valueAt_of_reads hd hv
  obtain rfl := (of_named h.named).1
  have ⟨typed, decoded, _⟩ := of_valueAt hv
  have erased := hintsAt_erased hd h.named (h.erasure hd) (fun p hp s hs => known s (hs ▸ hp)) typed
  exact Except.ok.inj (decoded.symm.trans erased)

end Builds

-- Whatever classes, lists and unions a value is typed by, its two types are of one schema.
theorem decoded_eq_erased (hd : d.Distinct) (hc : d.client rootNamespace = .ok c) (hv : c.Reads value) :
    value.decoded = Hints.erased c.decodedClass value.hints :=
  have ⟨_, builds⟩ := builds_of_client hc
  builds.decoded_of_reads hd hv

end Document

namespace Survey

-- What an answer says is a choice, which may be null, or a remark. Answers go back to earlier ones, with
-- null for those that were withdrawn, and other remarks may be null too.
def choice : Schema where
  enumValues := [.string "yes", .null, .number (.int 1), .string "no"]

def remark : Schema where
  typeKeyword := some (.single .object)

def answer : Schema where
  properties := [
    ("value", .inline { oneOf := [.ref "#/components/schemas/Choice", .ref "#/components/schemas/Remark"] }),
    ("earlier", .inline { items := some (.inline {
      allOf := [.ref "#/components/schemas/Answer"], nullable := some true }) })]
  additionalProperties := some (.schema (.inline {
    allOf := [.ref "#/components/schemas/Remark"], nullable := some true }))

def document : Document where
  openapi := "3.0.0"
  info := { title := "Survey", version := "1" }
  components := some { schemas := [("Answer", .inline answer), ("Choice", .inline choice),
    ("Remark", .inline remark)] }

theorem distinct : document.Distinct := by
  simp [Document.distinct_iff, Components.distinct_iff, Schema.distinct_iff, document, answer, choice,
    remark, Entries.keys, Entries.Distinct]

def said : ValueType where
  hints := [.model "Choice", .null, .model "Remark"]
  decoded := [.string, .int, .null, .untyped]
  factory := .direct

def earlier : ValueType where
  hints := [.array [.model "Answer", .null]]
  decoded := [.array [.untyped, .null]]
  factory := .list (.object "Answer")

def other : ValueType where
  hints := [.model "Remark", .null]
  decoded := [.untyped, .null]
  factory := .object "Remark"

theorem built : ∃ c e p q, document.client Client.defaultNamespace = .ok c ∧ e ∈ c.entities ∧
    p ∈ e.properties ∧ p.value = said ∧ q ∈ e.properties ∧ q.value = earlier ∧ other ∈ e.additional := by
  have values : (document.client Client.defaultNamespace).toOption.map
      (fun c => (c.entity? "Answer").map fun e => (e.properties.map (·.value), e.additional)) =
        some (some ([said, earlier], some other)) := by decide +kernel
  obtain ⟨c, hc, values⟩ := exists_ok values
  obtain ⟨e, he, values⟩ := Option.map_eq_some_iff.mp values
  obtain ⟨values, additional⟩ := Prod.mk.inj values
  obtain ⟨p, hp, p_value⟩ := List.mem_map.mp (values ▸ List.mem_cons_self : said ∈ e.properties.map (·.value))
  obtain ⟨q, hq, q_value⟩ := List.mem_map.mp (values ▸ by simp : earlier ∈ e.properties.map (·.value))
  exact ⟨c, e, p, q, hc, List.mem_of_find?_eq_some he, hp, p_value, hq, q_value, additional⟩

end Survey

namespace Document

theorem survey_decoded : ∃ c value, Survey.document.client Client.defaultNamespace = .ok c ∧
    c.Reads value ∧ value.hints = [.model "Choice", .null, .model "Remark"] ∧
    value.decoded = Hints.erased c.decodedClass value.hints ∧
    Hints.erased c.decodedClass value.hints = [.string, .int, .null, .untyped] := by
  obtain ⟨c, e, p, q, hc, he, hp, p_value, _⟩ := Survey.built
  have reads : c.Reads Survey.said := p_value ▸ .property he hp
  have erased := decoded_eq_erased Survey.distinct hc reads
  exact ⟨c, Survey.said, hc, reads, rfl, erased, erased.symm⟩

end Document

end OpenApiClient
