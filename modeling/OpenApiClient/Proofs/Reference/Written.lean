import OpenApiClient.Proofs.Reference.Spelling
import OpenApiClient.Proofs.Writing

/-!
References against the JSON that is written for a document. The walk through a document knows by itself what the
members are called; in what is written for the document, the same way leads to what is written for the node.
-/

namespace OpenApiClient

open Json (Value)

namespace Json.Value

open Text

-- The position that a segment of a plain JSON pointer gives: digits, with no zero before others.
def position? (segment : String) : Option Nat :=
  match segment.toList with
  | '0' :: _ :: _ => none
  | digits => if digits ≠ [] ∧ digits.all isAsciiDigit then some (natOfDigits digits) else none

def child? (segment : String) : Value → Option Value
  | .array items => (position? segment).bind (items[·]?)
  | .object members => Entries.get? segment members
  | _ => none

-- The value at the end of a plain JSON pointer.
def at? (v : Value) : List String → Option Value
  | [] => some v
  | segment :: rest => (v.child? segment).bind (·.at? rest)

end Json.Value

namespace Node

-- What is written for a node.
def toJson : Node → Value
  | .document d => d.toJson
  | .components c => c.toJson
  | .paths entries => .object (writeEntries PathItem.toJson entries)
  | .pathItem item => item.toJson
  | .operation op => op.toJson
  | .schema s => s.toJson
  | .schemaMap entries => .object (writeEntries (RefOr.toJson Schema.toJson) entries)
  | .schemaList items => .array (items.map (RefOr.toJson Schema.toJson))
  | .response r => r.toJson
  | .responseMap entries => .object (writeEntries (RefOr.toJson Response.toJson) entries)
  | .content entries => contentJson entries
  | .mediaType m => m.toJson
  | .parameter p => p.toJson
  | .parameterMap entries => .object (writeEntries (RefOr.toJson Parameter.toJson) entries)
  | .parameterList items => .array (items.map (RefOr.toJson Parameter.toJson))
  | .requestBody b => b.toJson
  | .requestBodyMap entries => .object (writeEntries (RefOr.toJson RequestBody.toJson) entries)
  | .reference target => referenceJson target

-- A map or list with nothing in it, which is mostly not written.
def isEmpty : Node → Bool
  | .paths entries => entries.isEmpty
  | .schemaMap entries => entries.isEmpty
  | .schemaList items => items.isEmpty
  | .responseMap entries => entries.isEmpty
  | .content entries => entries.isEmpty
  | .parameterMap entries => entries.isEmpty
  | .parameterList items => items.isEmpty
  | .requestBodyMap entries => entries.isEmpty
  | _ => false

variable {node next start : Node} {segment : String} {way : List String}

theorem position?_of_unsigned {i : Nat} (h : position? segment = some i)
    (unsigned : segment.toList.head? ≠ some '+') : Value.position? segment = some i := by
  unfold position? Text.readUnsigned at h
  unfold Value.position?
  split at h
  case h_1 => contradiction
  case h_2 =>
    split at h
    case h_1 plus => simp [plus] at unsigned
    case h_2 => grind

section

variable {α : Type} {make : α → Node} {write : α → Value}

theorem toJson_ofRefOr (writes : ∀ a, (make a).toJson = write a) (place : RefOr α) :
    (ofRefOr make place).toJson = place.toJson write := by
  cases place
  case ref => rfl
  case inline a => exact writes a

theorem toJson_schemaRef (place : SchemaRef) : (ofRefOr schema place).toJson = place.toJson Schema.toJson :=
  toJson_ofRefOr (fun _ => rfl) place

theorem toJson_requestBodyRef (place : RefOr RequestBody) :
    (ofRefOr requestBody place).toJson = place.toJson RequestBody.toJson :=
  toJson_ofRefOr (fun _ => rfl) place

theorem child?_entries {entries : List (String × RefOr α)} (writes : ∀ a, (make a).toJson = write a)
    (h : (Entries.get? segment entries).map (ofRefOr make) = some next) :
    (Value.object (writeEntries (RefOr.toJson write) entries)).child? segment = some next.toJson := by
  obtain ⟨place, found, rfl⟩ := Option.map_eq_some_iff.mp h
  simp [Value.child?, found, toJson_ofRefOr writes]

theorem child?_items {items : List (RefOr α)} (writes : ∀ a, (make a).toJson = write a)
    (h : (item? items segment).map (ofRefOr make) = some next) (unsigned : segment.toList.head? ≠ some '+') :
    (Value.array (items.map (RefOr.toJson write))).child? segment = some next.toJson := by
  obtain ⟨place, found, rfl⟩ := Option.map_eq_some_iff.mp h
  obtain ⟨i, position, item⟩ := item?_eq_some found
  simp [Value.child?, position?_of_unsigned position unsigned, item, toJson_ofRefOr writes]

end

variable {d : Document} {c : Components} {item : PathItem} {op : Operation} {s : Schema} {r : Response}
  {m : MediaType} {p : Parameter} {b : RequestBody}

theorem child?_document (h : (document d).step? segment = some next) (written : ¬ next.isEmpty) :
    d.toJson.child? segment = some next.toJson := by
  simp only [step?] at h
  repeat' split at h
  all_goals first | cases h | obtain ⟨_, _, rfl⟩ := Option.map_eq_some_iff.mp h
  all_goals simp_all [toJson, isEmpty, Document.toJson, Value.child?, Entries.get?]

theorem child?_components (h : (components c).step? segment = some next) (written : ¬ next.isEmpty) :
    c.toJson.child? segment = some next.toJson := by
  simp only [step?] at h
  repeat' split at h
  all_goals cases h
  all_goals simp_all [toJson, isEmpty, Components.toJson, Value.child?]

theorem child?_pathItem (h : (pathItem item).step? segment = some next) (written : ¬ next.isEmpty) :
    item.toJson.child? segment = some next.toJson := by
  simp only [step?] at h
  split at h
  case isTrue =>
    cases h
    simp_all [toJson, isEmpty, PathItem.toJson, Value.child?]
  case isFalse =>
    obtain ⟨op, found, rfl⟩ := Option.map_eq_some_iff.mp h
    obtain ⟨m, rfl, declared⟩ := operation_of_ofKey? found
    cases m <;> simp_all [toJson, PathItem.toJson, Value.child?, HttpMethod.all, HttpMethod.key, PathItem.operation]

theorem child?_operation (h : (operation op).step? segment = some next) (written : ¬ next.isEmpty) :
    op.toJson.child? segment = some next.toJson := by
  simp only [step?] at h
  repeat' split at h
  all_goals first | cases h | obtain ⟨_, _, rfl⟩ := Option.map_eq_some_iff.mp h
  all_goals simp_all [toJson, isEmpty, Operation.toJson, Value.child?, ↓toJson_requestBodyRef]

@[simp] theorem additionalSchema_eq_some {place : SchemaRef} :
    s.additionalSchema = some place ↔ s.additionalProperties = some (.schema place) := by
  unfold Schema.additionalSchema
  split <;> simp_all

theorem child?_schema (h : (schema s).step? segment = some next) (written : ¬ next.isEmpty) :
    s.toJson.child? segment = some next.toJson := by
  simp only [step?] at h
  repeat' split at h
  all_goals first | cases h | obtain ⟨_, _, rfl⟩ := Option.map_eq_some_iff.mp h
  all_goals simp_all [toJson, isEmpty, Schema.toJson_eq, Value.child?, ↓toJson_schemaRef, AdditionalProperties.toJson]

-- No step is taken in vain: it leads to the same place in what is written, unless nothing is written there.
theorem child?_of_step? (h : node.step? segment = some next) (plain : !(node.isList && segment.toList.head? == some '+'))
    (written : ¬ next.isEmpty) : node.toJson.child? segment = some next.toJson := by
  cases node with
  | document d => exact child?_document h written
  | components c => exact child?_components h written
  | paths entries =>
    obtain ⟨item, found, rfl⟩ := Option.map_eq_some_iff.mp h
    simp [toJson, Value.child?, found]
  | pathItem item => exact child?_pathItem h written
  | operation op => exact child?_operation h written
  | schema s => exact child?_schema h written
  | schemaMap entries => exact child?_entries (fun _ => rfl) h
  | schemaList items => exact child?_items (fun _ => rfl) h (by simpa [isList] using plain)
  | response r =>
    obtain ⟨rfl, content⟩ := Option.ite_none_right_eq_some.mp h
    cases content
    simp_all [toJson, isEmpty, Response.toJson, contentJson, Value.child?, Entries.get?]
  | responseMap entries => exact child?_entries (fun _ => rfl) h
  | content entries =>
    obtain ⟨m, found, rfl⟩ := Option.map_eq_some_iff.mp h
    simp [toJson, contentJson, Value.child?, found]
  | mediaType m =>
    obtain ⟨rfl, schema⟩ := Option.ite_none_right_eq_some.mp h
    obtain ⟨place, found, rfl⟩ := Option.map_eq_some_iff.mp schema
    simp [↓toJson_schemaRef, toJson, MediaType.toJson, Value.child?, found]
  | parameter p =>
    obtain ⟨rfl, schema⟩ := Option.ite_none_right_eq_some.mp h
    obtain ⟨place, found, rfl⟩ := Option.map_eq_some_iff.mp schema
    simp [↓toJson_schemaRef, toJson, Parameter.toJson, Value.child?, Entries.get?, found]
  | parameterMap entries => exact child?_entries (fun _ => rfl) h
  | parameterList items => exact child?_items (fun _ => rfl) h (by simpa [isList] using plain)
  | requestBody b =>
    obtain ⟨rfl, content⟩ := Option.ite_none_right_eq_some.mp h
    cases content
    simp [toJson, RequestBody.toJson, Value.child?, Entries.get?]
  | requestBodyMap entries => exact child?_entries (fun _ => rfl) h
  | reference target => contradiction

theorem child?_signed (hl : node.isList) (signed : segment.toList.head? = some '+') :
    node.toJson.child? segment = none := by
  have none_there : Value.position? segment = none := by
    unfold Value.position?
    split
    case h_1 => rfl
    case h_2 =>
      refine if_neg fun ⟨_, digits⟩ => ?_
      simpa [Text.isAsciiDigit] using List.all_eq_true.mp digits _ (List.mem_of_head? signed)
  cases node <;> simp only [isList, Bool.false_eq_true] at hl
  case schemaList | parameterList => simp [toJson, Value.child?, none_there]

theorem not_isEmpty_of_step? (h : node.step? segment = some next) : ¬ node.isEmpty := by
  intro empty
  cases node <;> simp only [isEmpty, Bool.false_eq_true, List.isEmpty_iff] at empty <;> subst empty
  case schemaList | parameterList =>
    obtain ⟨_, found, _⟩ := Option.map_eq_some_iff.mp h
    obtain ⟨_, _, item⟩ := item?_eq_some found
    contradiction
  all_goals contradiction

theorem not_isEmpty_of_walk (h : start.walk way = .ok node) (written : ¬ node.isEmpty) : ¬ start.isEmpty := by
  cases way with
  | nil => exact walk_nil_eq_ok.mp h ▸ written
  | cons segment rest =>
    obtain ⟨next, step, -⟩ := walk_cons_eq_ok.mp h
    exact not_isEmpty_of_step? step

theorem at?_of_walk (h : start.walk way = .ok node) (written : ¬ node.isEmpty) :
    start.toJson.at? way = some node.toJson ↔ start.unsigned way := by
  induction way generalizing start with
  | nil =>
    cases walk_nil_eq_ok.mp h
    simp [Value.at?, unsigned]
  | cons segment rest ih =>
    obtain ⟨next, step, walk⟩ := walk_cons_eq_ok.mp h
    simp only [Value.at?, unsigned, step, Bool.and_eq_true]
    by_cases plain : !(start.isList && segment.toList.head? == some '+')
    case pos =>
      rw [child?_of_step? step plain (not_isEmpty_of_walk walk written)]
      simpa [plain] using ih walk
    case neg =>
      have signed : start.isList ∧ segment.toList.head? = some '+' := by simpa using plain
      simp [child?_signed signed.1 signed.2, plain]

end Node

namespace Document

variable {d : Document} {reference : String} {node : Node}

-- What a reference leads to is written where the same pointer leads to in the JSON of the document, if no position in a
-- list has a sign. Only a map or list with nothing in it need not be there.
theorem resolve_written (resolved : d.resolve reference = .ok node) (written : ¬ node.isEmpty) :
    ∃ way, Pointer.segments reference = .ok way ∧
      (d.toJson.at? way = some node.toJson ↔ (Node.document d).unsigned way) := by
  simp only [resolve, bind_eq_ok, mapError_eq_ok] at resolved
  obtain ⟨way, hw, walk⟩ := resolved
  exact ⟨way, hw, Node.at?_of_walk walk written⟩

theorem petStore_written :
    PetStore.document.resolve "#/paths/%2Fpets/parameters/0/schema" =
      .ok (.schema { enumValues := [.string "name", .string "age"] }) ∧
    PetStore.document.toJson.at? ["paths", "/pets", "parameters", "0", "schema"] =
      some (.object [("enum", .array [.string "name", .string "age"])]) := by
  have position : Node.position? "0" = some 0 := by decide
  have resolved : PetStore.document.resolve "#/paths/%2Fpets/parameters/0/schema" =
      .ok (.schema { enumValues := [.string "name", .string "age"] }) := by
    simp [resolve, PetStore.segments_eq, PetStore.document, PetStore.order, Entries.get?, Node.item?, position]
  obtain ⟨way, way_eq, written_iff⟩ := resolve_written resolved (by simp [Node.isEmpty])
  cases PetStore.segments_eq.symm.trans way_eq
  have written := written_iff.mpr (by decide)
  rw [Node.toJson, Schema.toJson_eq] at written
  exact ⟨resolved, written⟩

end Document

end OpenApiClient
