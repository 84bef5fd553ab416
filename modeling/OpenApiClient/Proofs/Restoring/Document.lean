import OpenApiClient.Proofs.Outcome
import OpenApiClient.Proofs.Restoring.Schema

/-!
A document is restored, record by record.
-/

namespace OpenApiClient

open Json (Value)

variable {m : Nat}

@[simp] theorem writeEntries_id (members : List (String × Value)) : writeEntries id members = members :=
  List.map_id _

theorem MediaType.toJson_present (media : MediaType) : media.toJson = .object (present [
    ("schema", media.schema.map Schema.refOrToJson),
    ("example", media.exampleValue),
    ("examples", mapJson? media.examples)]) := by
  simp [toJson]

theorem MediaType.restores : Restores MediaType.read? MediaType.read? MediaType.toJson m := by
  intro n s _ hs h
  simp only [read?, Option.bind_eq_bind, Option.bind_eq_some_iff, Option.pure_def, Option.some.injEq] at h
  obtain ⟨f, hf, schema, hschema, value, hvalue, examples, hexamples, rfl⟩ := h
  obtain ⟨n, rfl, fits⟩ := fits_fields hs hf
  have any : Restores Source.toJson? Source.toJson? id m := .value
  have schema := Schema.restores_readRefOr (m := m) |>.optional fits hschema
  have value := any.optional fits hvalue
  have examples := any.defaultMap fits hexamples
  simp only [Option.map_id, id_eq, writeEntries_id] at value examples
  rw [toJson_present]
  refine .of_succ (record_kept .choice ["schema", "example", "examples"] rfl (by decide)
    ⟨schema.fits, value.fits, examples.fits⟩ ?_)
  intro s f hf holds
  simp [read?, hf, schema.back holds (by simp), value.back holds (by simp), examples.back holds (by simp)]

namespace Parameter

theorem toJson_present (p : Parameter) : p.toJson = .object (present [
    ("name", some (.string p.name)),
    ("in", some (.string p.location.name)),
    ("description", p.description.map .string),
    ("required", some (.bool p.required)),
    ("deprecated", p.deprecated.map .bool),
    ("schema", p.schema.map Schema.refOrToJson),
    ("style", p.style.map .string),
    ("explode", p.explode.map .bool)]) := by
  simp [toJson]

theorem reference?_toJson (p : Parameter) : p.toJson.source.reference? = none := by
  rw [toJson_present]
  exact reference?_record (by simp [Entries.keys]) (by simp [Entries.keys])

theorem restores : Restores read? read? toJson m := by
  intro n s _ hs h
  simp only [read?, Option.bind_eq_bind, Option.bind_eq_some_iff, Option.pure_def, Option.some.injEq] at h
  obtain ⟨f, hf, name, hname, location, hlocation, description, hdescription, required, hrequired, deprecated,
    hdeprecated, schema, hschema, style, hstyle, explode, hexplode, rfl⟩ := h
  obtain ⟨n, rfl, fits⟩ := fits_fields hs hf
  have text : Restores Place.choice.text? Place.choice.text? .string m := .text
  have flag : Restores Place.choice.flag? Place.choice.flag? .bool m := .flag
  have locations (location : ParameterLocation) : ParameterLocation.all.find? (·.name = location.name) = some location := by
    cases location <;> rfl
  have name := text.required fits hname
  have location := Restores.oneOf locations (m := m) |>.required fits hlocation
  have description := text.optional fits hdescription
  have required := flag.default fits (.leaf (a := .bool false) trivial) rfl hrequired
  have deprecated := flag.optional fits hdeprecated
  have schema := Schema.restores_readRefOr (m := m) |>.optional fits hschema
  have style := text.optional fits hstyle
  have explode := flag.optional fits hexplode
  rw [toJson_present]
  refine .of_succ (record_kept .choice
    ["name", "in", "description", "required", "deprecated", "schema", "style", "explode"] rfl (by decide)
    ⟨name.fits, location.fits, description.fits, required.fits, deprecated.fits, schema.fits, style.fits, explode.fits⟩
    ?_)
  intro s f hf holds
  simp [read?, hf, name.back holds (by simp), location.back holds (by simp), description.back holds (by simp),
    required.back holds (by simp), deprecated.back holds (by simp), schema.back holds (by simp),
    style.back holds (by simp), explode.back holds (by simp)]

end Parameter

namespace RequestBody

theorem toJson_present (b : RequestBody) : b.toJson = .object (present [
    ("description", b.description.map .string),
    ("content", some (.object (writeEntries MediaType.toJson b.content))),
    ("required", some (.bool b.required))]) := by
  simp [toJson, contentJson]

theorem reference?_toJson (b : RequestBody) : b.toJson.source.reference? = none := by
  rw [toJson_present]
  exact reference?_record (by simp [Entries.keys]) (by simp [Entries.keys])

theorem restores : Restores read? read? toJson m := by
  intro n s _ hs h
  simp only [read?, Option.bind_eq_bind, Option.bind_eq_some_iff, Option.pure_def, Option.some.injEq] at h
  obtain ⟨f, hf, description, hdescription, content, hcontent, required, hrequired, rfl⟩ := h
  obtain ⟨n, rfl, fits⟩ := fits_fields hs hf
  have text : Restores Place.choice.text? Place.choice.text? .string m := .text
  have flag : Restores Place.choice.flag? Place.choice.flag? .bool m := .flag
  have media : Restores MediaType.read? MediaType.read? MediaType.toJson m := MediaType.restores
  have description := text.optional fits hdescription
  have content := media.map.required fits hcontent
  have required := flag.default fits (.leaf (a := .bool false) trivial) rfl hrequired
  rw [toJson_present]
  refine .of_succ (record_kept .choice ["description", "content", "required"] rfl (by decide)
    ⟨description.fits, content.fits, required.fits⟩ ?_)
  intro s f hf holds
  simp [read?, hf, description.back holds (by simp), content.back holds (by simp), required.back holds (by simp)]

end RequestBody

namespace Response

theorem toJson_present (r : Response) : r.toJson = .object (present [
    ("description", some (.string r.description)),
    ("content", mapJson? (writeEntries MediaType.toJson r.content)),
    ("headers", mapJson? r.headers)]) := by
  simp [toJson]

theorem reference?_toJson (r : Response) : r.toJson.source.reference? = none := by
  rw [toJson_present]
  exact reference?_record (by simp [Entries.keys]) (by simp [Entries.keys])

theorem restores : Restores read? read? toJson m := by
  intro n s _ hs h
  simp only [read?, Option.bind_eq_bind, Option.bind_eq_some_iff, Option.pure_def, Option.some.injEq] at h
  obtain ⟨f, hf, description, hdescription, content, hcontent, headers, hheaders, rfl⟩ := h
  obtain ⟨n, rfl, fits⟩ := fits_fields hs hf
  have text : Restores Place.choice.text? Place.choice.text? .string m := .text
  have any : Restores Source.toJson? Source.toJson? id m := .value
  have media : Restores MediaType.read? MediaType.read? MediaType.toJson m := MediaType.restores
  have description := text.default fits (.leaf (a := .string "") trivial) rfl hdescription
  have content := media.defaultMap fits hcontent
  have headers := any.defaultMap fits hheaders
  rw [writeEntries_id] at headers
  rw [toJson_present]
  refine .of_succ (record_kept .choice ["description", "content", "headers"] rfl (by decide)
    ⟨description.fits, content.fits, headers.fits⟩ ?_)
  intro s f hf holds
  simp [read?, hf, description.back holds (by simp), content.back holds (by simp), headers.back holds (by simp)]

end Response

namespace License

theorem toJson_present (l : License) : l.toJson = .object (present [
    ("name", some (.string l.name)),
    ("identifier", l.identifier.map .string),
    ("url", l.url.map .string)]) := by
  simp [toJson]

theorem restores : Restores read? read? toJson m := by
  intro n s _ hs h
  simp only [read?, Option.bind_eq_bind, Option.bind_eq_some_iff, Option.pure_def, Option.some.injEq] at h
  obtain ⟨f, hf, name, hname, identifier, hidentifier, url, hurl, rfl⟩ := h
  obtain ⟨n, rfl, fits⟩ := fits_fields hs hf
  have text : Restores Place.plain.text? Place.plain.text? .string m := .text
  have name := text.required fits hname
  have identifier := text.optional fits hidentifier
  have url := text.optional fits hurl
  rw [toJson_present]
  refine .of_succ (record_kept .plain outline.names rfl (by decide)
    ⟨name.fits, identifier.fits, url.fits⟩ ?_)
  intro s f hf holds
  simp [read?, hf, name.back holds (by simp), identifier.back holds (by simp), url.back holds (by simp)]

end License

namespace Info

theorem toJson_present (i : Info) : i.toJson = .object (present [
    ("title", some (.string i.title)),
    ("description", i.description.map .string),
    ("version", some (.string i.version)),
    ("license", i.license.map License.toJson)]) := by
  simp [toJson]

theorem restores : Restores read? read? toJson m := by
  intro n s _ hs h
  simp only [read?, Option.bind_eq_bind, Option.bind_eq_some_iff, Option.pure_def, Option.some.injEq] at h
  obtain ⟨f, hf, title, htitle, description, hdescription, version, hversion, license, hlicense, rfl⟩ := h
  obtain ⟨n, rfl, fits⟩ := fits_fields hs hf
  have text : Restores Place.plain.text? Place.plain.text? .string m := .text
  have title := text.required fits htitle
  have description := text.optional fits hdescription
  have version := text.required fits hversion
  have license := License.restores (m := m) |>.optional fits hlicense
  rw [toJson_present]
  refine .of_succ (record_kept .plain outline.names rfl (by decide)
    ⟨title.fits, description.fits, version.fits, license.fits⟩ ?_)
  intro s f hf holds
  simp [read?, hf, title.back holds (by simp), description.back holds (by simp), version.back holds (by simp),
    license.back holds (by simp)]

end Info

namespace Tag

theorem toJson_present (t : Tag) : t.toJson = .object (present [
    ("name", some (.string t.name)),
    ("description", t.description.map .string)]) := by
  simp [toJson]

theorem restores : Restores read? read? toJson m := by
  intro n s _ hs h
  simp only [read?, Option.bind_eq_bind, Option.bind_eq_some_iff, Option.pure_def, Option.some.injEq] at h
  obtain ⟨f, hf, name, hname, description, hdescription, rfl⟩ := h
  obtain ⟨n, rfl, fits⟩ := fits_fields hs hf
  have text : Restores Place.plain.text? Place.plain.text? .string m := .text
  have name := text.required fits hname
  have description := text.optional fits hdescription
  rw [toJson_present]
  refine .of_succ (record_kept .plain outline.names rfl (by decide)
    ⟨name.fits, description.fits⟩ ?_)
  intro s f hf holds
  simp [read?, hf, name.back holds (by simp), description.back holds (by simp)]

end Tag

namespace ServerVariable

theorem toJson_present (v : ServerVariable) : v.toJson = .object (present [
    ("default", some (.string v.defaultValue)),
    ("description", v.description.map .string),
    ("enum", listJson? (v.enumValues.map .string))]) := by
  simp [toJson]

theorem restores : Restores read? read? toJson m := by
  intro n s _ hs h
  simp only [read?, Option.bind_eq_bind, Option.bind_eq_some_iff, Option.pure_def, Option.some.injEq] at h
  obtain ⟨f, hf, value, hvalue, description, hdescription, values, hvalues, rfl⟩ := h
  obtain ⟨n, rfl, fits⟩ := fits_fields hs hf
  have text : Restores Place.plain.text? Place.plain.text? .string m := .text
  have value := text.required fits hvalue
  have description := text.optional fits hdescription
  have values := text.defaultList fits hvalues
  rw [toJson_present]
  refine .of_succ (record_kept .plain outline.names rfl (by decide)
    ⟨value.fits, description.fits, values.fits⟩ ?_)
  intro s f hf holds
  simp [read?, hf, value.back holds (by simp), description.back holds (by simp), values.back holds (by simp)]

end ServerVariable

namespace Server

theorem toJson_present (s : Server) : s.toJson = .object (present [
    ("url", some (.string s.url)),
    ("description", s.description.map .string),
    ("variables", mapJson? (writeEntries ServerVariable.toJson s.placeholders))]) := by
  simp [toJson]

theorem restores : Restores read? read? toJson m := by
  intro n s _ hs h
  simp only [read?, Option.bind_eq_bind, Option.bind_eq_some_iff, Option.pure_def, Option.some.injEq] at h
  obtain ⟨f, hf, url, hurl, description, hdescription, placeholders, hplaceholders, rfl⟩ := h
  obtain ⟨n, rfl, fits⟩ := fits_fields hs hf
  have text : Restores Place.plain.text? Place.plain.text? .string m := .text
  have url := text.required fits hurl
  have description := text.optional fits hdescription
  have placeholders := ServerVariable.restores (m := m) |>.defaultMap fits hplaceholders
  rw [toJson_present]
  refine .of_succ (record_kept .plain outline.names rfl (by decide)
    ⟨url.fits, description.fits, placeholders.fits⟩ ?_)
  intro s f hf holds
  simp [read?, hf, url.back holds (by simp), description.back holds (by simp), placeholders.back holds (by simp)]

end Server

namespace Operation

theorem toJson_present (op : Operation) : op.toJson = .object (present [
    ("operationId", op.operationId.map .string),
    ("summary", op.summary.map .string),
    ("description", op.description.map .string),
    ("tags", listJson? (op.tags.map .string)),
    ("parameters", listJson? (op.parameters.map (RefOr.toJson Parameter.toJson))),
    ("requestBody", op.requestBody.map (RefOr.toJson RequestBody.toJson)),
    ("responses", mapJson? (writeEntries (RefOr.toJson Response.toJson) op.responses)),
    ("deprecated", op.deprecated.map .bool)]) := by
  simp [toJson]

theorem restores : Restores read? read? toJson m := by
  intro n s _ hs h
  simp only [read?, Option.bind_eq_bind, Option.bind_eq_some_iff, Option.pure_def, Option.some.injEq] at h
  obtain ⟨f, hf, id, hid, summary, hsummary, description, hdescription, tags, htags, parameters, hparameters,
    requestBody, hrequestBody, responses, hresponses, deprecated, hdeprecated, rfl⟩ := h
  obtain ⟨n, rfl, fits⟩ := fits_fields hs hf
  have text : Restores Place.plain.text? Place.plain.text? .string m := .text
  have flag : Restores Place.plain.flag? Place.plain.flag? .bool m := .flag
  have parameter : Restores (Source.choice? Parameter.read?) _ _ m := Parameter.restores.choice Parameter.reference?_toJson
  have body : Restores (Source.choice? RequestBody.read?) _ _ m := RequestBody.restores.choice RequestBody.reference?_toJson
  have response : Restores (Source.choice? Response.read?) _ _ m := Response.restores.choice Response.reference?_toJson
  have id := text.optional fits hid
  have summary := text.optional fits hsummary
  have description := text.optional fits hdescription
  have tags := text.defaultList fits htags
  have parameters := parameter.defaultList fits hparameters
  have requestBody := body.optional fits hrequestBody
  have responses := response.defaultMap fits hresponses
  have deprecated := flag.optional fits hdeprecated
  rw [toJson_present]
  refine .of_succ (record_kept .plain outline.names rfl (by decide)
    ⟨id.fits, summary.fits, description.fits, tags.fits, parameters.fits, requestBody.fits, responses.fits,
    deprecated.fits⟩ ?_)
  intro s f hf holds
  simp [read?, hf, id.back holds (by simp), summary.back holds (by simp), description.back holds (by simp),
    tags.back holds (by simp), parameters.back holds (by simp), requestBody.back holds (by simp),
    responses.back holds (by simp), deprecated.back holds (by simp)]

end Operation

namespace PathItem

theorem toJson_present (item : PathItem) : item.toJson = .object (present [
    ("summary", item.summary.map .string),
    ("description", item.description.map .string),
    ("parameters", listJson? (item.parameters.map (RefOr.toJson Parameter.toJson))),
    (HttpMethod.key .get, item.get.map Operation.toJson),
    (HttpMethod.key .put, item.put.map Operation.toJson),
    (HttpMethod.key .post, item.post.map Operation.toJson),
    (HttpMethod.key .delete, item.delete.map Operation.toJson),
    (HttpMethod.key .options, item.options.map Operation.toJson),
    (HttpMethod.key .head, item.head.map Operation.toJson),
    (HttpMethod.key .patch, item.patch.map Operation.toJson),
    (HttpMethod.key .trace, item.trace.map Operation.toJson)]) := by
  simp [toJson, HttpMethod.all, operation]

theorem restores : Restores read? read? toJson m := by
  intro n s _ hs h
  simp only [read?, Option.bind_eq_bind, Option.bind_eq_some_iff, Option.pure_def, Option.some.injEq] at h
  obtain ⟨f, hf, summary, hsummary, description, hdescription, parameters, hparameters, get, hget, put, hput,
    post, hpost, delete, hdelete, options, hoptions, head, hhead, patch, hpatch, trace, htrace, rfl⟩ := h
  obtain ⟨n, rfl, fits⟩ := fits_fields hs hf
  have text : Restores Place.plain.text? Place.plain.text? .string m := .text
  have parameter : Restores (Source.choice? Parameter.read?) _ _ m := Parameter.restores.choice Parameter.reference?_toJson
  have operation : Restores Operation.read? Operation.read? Operation.toJson m := Operation.restores
  have summary := text.optional fits hsummary
  have description := text.optional fits hdescription
  have parameters := parameter.defaultList fits hparameters
  have get := operation.optional fits hget
  have put := operation.optional fits hput
  have post := operation.optional fits hpost
  have delete := operation.optional fits hdelete
  have options := operation.optional fits hoptions
  have head := operation.optional fits hhead
  have patch := operation.optional fits hpatch
  have trace := operation.optional fits htrace
  rw [toJson_present]
  refine .of_succ (record_kept .plain outline.names rfl (by decide)
    ⟨summary.fits, description.fits, parameters.fits, get.fits, put.fits, post.fits, delete.fits, options.fits,
    head.fits, patch.fits, trace.fits⟩ ?_)
  intro s f hf holds
  simp [read?, hf, summary.back holds (by simp), description.back holds (by simp), parameters.back holds (by simp),
    get.back holds (by simp), put.back holds (by simp), post.back holds (by simp), delete.back holds (by simp),
    options.back holds (by simp), head.back holds (by simp), patch.back holds (by simp), trace.back holds (by simp)]

end PathItem

namespace Components

theorem toJson_present (c : Components) : c.toJson = .object (present [
    ("schemas", mapJson? (writeEntries Schema.refOrToJson c.schemas)),
    ("responses", mapJson? (writeEntries (RefOr.toJson Response.toJson) c.responses)),
    ("parameters", mapJson? (writeEntries (RefOr.toJson Parameter.toJson) c.parameters)),
    ("requestBodies", mapJson? (writeEntries (RefOr.toJson RequestBody.toJson) c.requestBodies))]) := by
  simp [toJson]

theorem restores : Restores read? read? toJson m := by
  intro n s _ hs h
  simp only [read?, Option.bind_eq_bind, Option.bind_eq_some_iff, Option.pure_def, Option.some.injEq] at h
  obtain ⟨f, hf, schemas, hschemas, responses, hresponses, parameters, hparameters, bodies, hbodies, rfl⟩ := h
  obtain ⟨n, rfl, fits⟩ := fits_fields hs hf
  have schema : Restores Source.schema? Source.schema? Schema.refOrToJson m := Schema.restores_readRefOr.readable
  have response : Restores (Source.choice? Response.read?) _ _ m := Response.restores.choice Response.reference?_toJson
  have parameter : Restores (Source.choice? Parameter.read?) _ _ m := Parameter.restores.choice Parameter.reference?_toJson
  have body : Restores (Source.choice? RequestBody.read?) _ _ m := RequestBody.restores.choice RequestBody.reference?_toJson
  have schemas := schema.defaultMap fits hschemas
  have responses := response.defaultMap fits hresponses
  have parameters := parameter.defaultMap fits hparameters
  have bodies := body.defaultMap fits hbodies
  rw [toJson_present]
  refine .of_succ (record_kept .plain outline.names rfl (by decide)
    ⟨schemas.fits, responses.fits, parameters.fits, bodies.fits⟩ ?_)
  intro s f hf holds
  simp [read?, hf, schemas.back holds (by simp), responses.back holds (by simp), parameters.back holds (by simp),
    bodies.back holds (by simp)]

end Components

namespace Document

theorem toJson_present (d : Document) : d.toJson = .object (present [
    ("openapi", some (.string d.openapi)),
    ("info", some d.info.toJson),
    ("servers", listJson? (d.servers.map Server.toJson)),
    ("paths", mapJson? (writeEntries PathItem.toJson d.paths)),
    ("components", d.components.map Components.toJson),
    ("tags", listJson? (d.tags.map Tag.toJson))]) := by
  simp [toJson]

theorem restores : Restores read? read? toJson m := by
  intro n s _ hs h
  simp only [read?, Option.bind_eq_bind, Option.bind_eq_some_iff, Option.pure_def, Option.some.injEq] at h
  obtain ⟨f, hf, openapi, hopenapi, info, hinfo, servers, hservers, paths, hpaths, components, hcomponents,
    tags, htags, rfl⟩ := h
  obtain ⟨n, rfl, fits⟩ := fits_fields hs hf
  have text : Restores Place.plain.text? Place.plain.text? .string m := .text
  have openapi := text.required fits hopenapi
  have info := Info.restores (m := m) |>.required fits hinfo
  have servers := Server.restores (m := m) |>.defaultList fits hservers
  have paths := PathItem.restores (m := m) |>.defaultMap fits hpaths
  have components := Components.restores (m := m) |>.optional fits hcomponents
  have tags := Tag.restores (m := m) |>.defaultList fits htags
  rw [toJson_present]
  refine .of_succ (record_kept .plain outline.names rfl (by decide)
    ⟨openapi.fits, info.fits, servers.fits, paths.fits, components.fits, tags.fits⟩ ?_)
  intro s f hf holds
  simp [read?, hf, openapi.back holds (by simp), info.back holds (by simp), servers.back holds (by simp),
    paths.back holds (by simp), components.back holds (by simp), tags.back holds (by simp)]

theorem ofJson_eq_ok {text : String} {d : Document} :
    ofJson text = .ok d ↔ ∃ s, Json.read? text = some s ∧ read? s = some d ∧ "3.".isPrefixOf d.openapi := by
  unfold ofJson ofSource
  cases hs : Json.read? text with
  | none => simp
  | some s =>
    cases hd : read? s with
    | none => simp [hd]
    | some other =>
      simp only [Option.bind_some, hd, Option.some.injEq, exists_eq_left']
      split
      case isTrue version =>
        refine ⟨fun same => ?_, fun both => congrArg _ both.1⟩
        cases same
        exact ⟨rfl, version⟩
      case isFalse version => exact ⟨fun never => by contradiction, fun both => absurd (both.1 ▸ both.2) version⟩

-- Nothing is lost if a document is written and read again, as long as the fractions in it are read as they are written.
theorem ofJson_render {text : String} {d : Document} (h : ofJson text = .ok d)
    (fractions : ∀ x, .float x ∈ d.toJson.numbers → (Json.Number.float x).Reads) : ofJson d.toJson.render = .ok d := by
  have ⟨s, hs, hd, version⟩ := ofJson_eq_ok.mp h
  have kept := restores (m := d.toJson.source.height) (Json.fits_of_read? hs) hd
  have reads : ∀ n ∈ d.toJson.numbers, n.Reads := by
    intro n hn
    cases n with
    | int => exact Json.Number.reads_int (Value.numbers_inRange kept.fits _ hn)
    | float x => exact fractions x hn
  exact ofJson_eq_ok.mpr ⟨_, Json.read?_render kept.fits.height_le reads, kept.back le_rfl, version⟩

-- A document with a reference, alternatives and a fraction, not written as it is written for it.
def priceList : String :=
  "\x7b\"info\":\x7b\"title\":\"\",\"version\":\"1\",\"license\":null\x7d,\"openapi\":\"3.1\",
  \"components\":\x7b\"schemas\":\x7b\"B\":\x7b\"$ref\":\"A\",\"type\":1\x7d,\"A\":\x7b\"type\":[\"null\"],\"default\":1.50\x7d\x7d\x7d\x7d"

theorem priceList_restored : ∃ d, ofJson priceList = .ok d ∧ ofJson d.toJson.render = .ok d ∧ d.toJson.render ≠ priceList := by
  have read : ((ofJson priceList).toOption.map fun d =>
      (decide (∀ n ∈ d.toJson.numbers, n.Reads), decide (d.toJson.render ≠ priceList))) = some (true, true) := by
    decide +kernel
  have ⟨d, hd, facts⟩ := exists_ok read
  have ⟨reads, other⟩ := Prod.mk.inj facts
  exact ⟨d, hd, ofJson_render hd fun x => of_decide_eq_true reads (.float x), of_decide_eq_true other⟩

end Document

end OpenApiClient
