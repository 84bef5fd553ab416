import OpenApiClient.Proofs.Restoring.Record

/-!
Places where a reference may stand. What is written for a value there has no entry for a reference, so that it is not
taken for one, and all of it can be read.
-/

namespace OpenApiClient

open Json (Value)

theorem reference?_record {fields : List (String × Option Value)} (hd : (Entries.keys fields).Nodup)
    (h : "$ref" ∉ Entries.keys fields) : (Value.object (present fields)).source.reference? = none := by
  have other : ∀ source ∈ presentSources fields, ¬ decide (source.1 ∈ ["$ref"]) := by
    intro source hs there
    have key : source.1 ∈ Entries.keys fields := keys_presentSources_sublist.subset (List.mem_map_of_mem hs)
    simp only [List.mem_singleton, decide_eq_true_eq] at there
    exact h (there ▸ key)
  have read : Place.choice.fields? ["$ref"] (.object (presentSources fields)) = some ⟨[], false⟩ := by
    rw [fields?_object (distinct_presentSources hd), List.filter_eq_nil_iff.mpr other]
  rw [source_present, Source.object, Source.reference?, ← Source.object, read]
  rfl

mutual

theorem Json.Value.readable_source : (v : Value) → v.source.readable
  | .null | .bool _ | .number _ | .string _ => by simp [source, Source.string, Source.ofAtom, Source.readable, Scalar.ofAtom]
  | .array items => readableItems_source items
  | .object members => readableEntries_source members

theorem Json.Value.readableItems_source : (items : List Value) → Source.readableItems (itemSources items)
  | [] => rfl
  | v :: items => Bool.and_eq_true_iff.mpr ⟨readable_source v, readableItems_source items⟩

theorem Json.Value.readableEntries_source : (members : List (String × Value)) →
    Source.readableEntries (memberSources members)
  | [] => rfl
  | (_, v) :: members => Bool.and_eq_true_iff.mpr ⟨readable_source v, readableEntries_source members⟩

end

section

variable {α : Type} {read read' : Source → Option α} {write : α → Value} {m : Nat}

theorem Restores.reference : Restores Source.reference? Source.reference? referenceJson m := by
  intro n s target hs ht
  cases hs with
  | leaf | list | unreadable => simp [Source.reference?, Source.ofAtom] at ht
  | object =>
    refine ⟨?fits, fun null => by contradiction, fun _ => rfl⟩
    rw [referenceJson, Value.source_object]
    exact .object (List.forall_mem_singleton.mpr (.leaf trivial))

theorem Source.refOr?_eq : refOr? read = fun s => (s.reference?.map .ref).or ((read s).map .inline) := by
  funext s
  unfold refOr?
  cases s.reference? <;> rfl

theorem Restores.refOr (h : Restores read read' write m) (inline : ∀ a, (write a).source.reference? = none) :
    Restores (Source.refOr? read) (Source.refOr? read') (RefOr.toJson write) m := by
  rw [Source.refOr?_eq, Source.refOr?_eq]
  exact .either .reference h inline

-- Nothing is written that cannot be read.
theorem Restores.readable (h : Restores read read' write m) :
    Restores (fun s => if s.readable then read s else none) (fun s => if s.readable then read' s else none) write m := by
  intro n s a hs ha
  dsimp only at ha
  split at ha
  case isTrue =>
    have kept := h hs ha
    exact ⟨kept.fits, kept.null, fun height => (if_pos (Value.readable_source _)).trans (kept.back height)⟩
  case isFalse => contradiction

theorem Restores.choice (h : Restores read read' write m) (inline : ∀ a, (write a).source.reference? = none) :
    Restores (Source.choice? read) (Source.choice? read') (RefOr.toJson write) m :=
  (h.refOr inline).readable

end

end OpenApiClient
