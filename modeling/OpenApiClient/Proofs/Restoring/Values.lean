import Mathlib.Data.String.Basic
import OpenApiClient.Proofs.Restoring.Basic

/-!
Values that a document carries along without looking into them. Their members are sorted once; reading them back leaves
them in this order.
-/

namespace OpenApiClient

namespace Json.Value

variable {key : String} {value : Value} {members : List (String × Value)} {member : String × Value}

-- Members in the order of their keys, none of which occurs twice.
def Sorted (members : List (String × Value)) : Prop :=
  members.Pairwise (·.1 < ·.1)

theorem mem_insertSorted (h : member ∈ insertSorted key value members) : member = (key, value) ∨ member ∈ members := by
  induction members with
  | nil => exact .inl (List.mem_singleton.mp h)
  | cons first rest ih =>
    unfold insertSorted at h
    split at h
    case isTrue => exact List.mem_cons.mp h
    case isFalse =>
      split at h
      case isTrue => exact (List.mem_cons.mp h).imp id (List.mem_cons_of_mem _)
      case isFalse =>
        obtain same | h := List.mem_cons.mp h
        · exact .inr (same ▸ List.mem_cons_self)
        · exact (ih h).imp id (List.mem_cons_of_mem _)

theorem Sorted.insertSorted (h : Sorted members) : Sorted (insertSorted key value members) := by
  induction members with
  | nil => exact List.pairwise_singleton ..
  | cons first rest ih =>
    obtain ⟨least, sorted⟩ := List.pairwise_cons.mp h
    unfold Value.insertSorted
    split
    case isTrue before =>
      refine List.pairwise_cons.mpr ⟨List.forall_mem_cons.mpr ⟨before, fun member hm => ?_⟩, h⟩
      exact lt_trans before (least member hm)
    case isFalse before =>
      split
      case isTrue same =>
        subst same
        exact List.pairwise_cons.mpr ⟨least, sorted⟩
      case isFalse other =>
        refine List.pairwise_cons.mpr ⟨fun member hm => ?_, ih sorted⟩
        obtain rfl | hm := mem_insertSorted hm
        · exact lt_of_le_of_ne (not_lt.mp before) (Ne.symm other)
        · exact least member hm

theorem sorted_sortMembers (members : List (String × Value)) : Sorted (sortMembers members) :=
  List.foldlRecOn (motive := Sorted) members _ .nil fun _ sorted _ _ => sorted.insertSorted

theorem mem_of_mem_sortMembers : ∀ member ∈ sortMembers members, member ∈ members := by
  refine List.foldlRecOn (motive := fun sorted => ∀ member ∈ sorted, member ∈ members) members _ nofun ?_
  intro sorted known entry he member hm
  obtain rfl | hm := mem_insertSorted hm
  · exact he
  · exact known member hm

theorem insertSorted_of_last (h : ∀ member ∈ members, member.1 < key) :
    Value.insertSorted key value members = members ++ [(key, value)] := by
  induction members with
  | nil => rfl
  | cons first rest ih =>
    obtain ⟨before, others⟩ := List.forall_mem_cons.mp h
    simp [Value.insertSorted, before.not_gt, before.ne', ih others]

theorem sortMembers_eq_self (h : Sorted members) : sortMembers members = members := by
  have sorts (known : List (String × Value)) (h : Sorted (known ++ members)) :
      members.foldl (fun sorted member => Value.insertSorted member.1 member.2 sorted) known = known ++ members := by
    clear * - h
    induction members generalizing known with
    | nil => simp
    | cons first rest ih =>
      have last : ∀ member ∈ known, member.1 < first.1 := fun member hm =>
        (List.pairwise_append.mp h).2.2 member hm first List.mem_cons_self
      have split : known ++ first :: rest = known ++ [first] ++ rest := by simp
      rw [split] at h ⊢
      rw [List.foldl_cons, insertSorted_of_last last]
      exact ih _ h
  exact sorts [] h

end Json.Value

open Json (Value)

theorem itemsToJson?_eq (items : List Source) : Source.itemsToJson? items = items.mapM Source.toJson? := by
  induction items with
  | nil => rfl
  | cons item rest ih => simp [Source.itemsToJson?, ih]

theorem membersToJson?_eq (members : List (String × Source)) :
    Source.membersToJson? (members.map fun member => (.string member.1, member.2)) =
      members.mapM fun member => member.2.toJson?.map (member.1, ·) := by
  induction members with
  | nil => rfl
  | cons member rest ih =>
    have key : Place.choice.text? (.string member.1) = some member.1 := rfl
    cases hv : member.2.toJson? <;> simp [Source.membersToJson?, ih, key, hv]

theorem toJson?_array {items : List Value} (h : ∀ v ∈ items, v.source.toJson? = some v) :
    (Value.array items).source.toJson? = some (.array items) := by
  simp [Value.source_array, Source.toJson?, itemsToJson?_eq, mapM_map_eq_some h]

theorem toJson?_object {members : List (String × Value)} (sorted : Value.Sorted members)
    (h : ∀ member ∈ members, member.2.source.toJson? = some member.2) :
    (Value.object members).source.toJson? = some (.object members) := by
  have values : (members.map fun member => (member.1, member.2.source)).mapM
      (fun member => member.2.toJson?.map (member.1, ·)) = some members :=
    mapM_map_eq_some fun member hm => by rw [h member hm]; rfl
  rw [Value.source_object, Source.object, Source.toJson?, membersToJson?_eq, values, Option.map_some,
    Value.sortMembers_eq_self sorted]

-- Every value is read back at once, however many levels it has.
theorem Restores.value {m : Nat} : Restores Source.toJson? Source.toJson? id m := by
  intro n s v hs hv
  have ⟨fits, null, back⟩ : v.source.Fits n ∧ (v = .null → s = .ofAtom .null) ∧ v.source.toJson? = some v := by
    induction hs generalizing v with
    | @leaf n a ha =>
      cases a with
      | notFinite => contradiction
      | null =>
        cases hv
        exact ⟨.leaf ha, fun _ => rfl, rfl⟩
      | bool | number | string =>
        cases hv
        exact ⟨.leaf ha, fun null => by contradiction, rfl⟩
    | @list n items _ ih =>
      obtain ⟨values, hm, rfl⟩ := Option.map_eq_some_iff.mp hv
      have kept : ∀ v ∈ values, v.source.Fits n ∧ v.source.toJson? = some v :=
        forall_mem_of_mapM (fun s hs v hv => (ih s hs hv).imp id And.right) (itemsToJson?_eq items ▸ hm)
      refine ⟨?_, fun null => by contradiction, toJson?_array fun v hv => (kept v hv).2⟩
      rw [Value.source_array]
      exact .list (List.forall_mem_map.mpr fun v hv => (kept v hv).1)
    | @object n members _ ih =>
      obtain ⟨values, hm, rfl⟩ := Option.map_eq_some_iff.mp hv
      rw [membersToJson?_eq] at hm
      have kept : ∀ entry ∈ values, entry.2.source.Fits n ∧ entry.2.source.toJson? = some entry.2 := by
        refine forall_mem_of_mapM (fun member hs entry he => ?_) hm
        obtain ⟨v, hv, rfl⟩ := Option.map_eq_some_iff.mp he
        exact (ih member hs hv).imp id And.right
      have kept' := fun entry he => kept entry (Value.mem_of_mem_sortMembers entry he)
      have back := toJson?_object (Value.sorted_sortMembers values) fun entry he => (kept' entry he).2
      refine ⟨?_, fun null => by contradiction, back⟩
      rw [Value.source_object]
      exact .object (List.forall_mem_map.mpr fun entry he => (kept' entry he).1)
    | unreadable => contradiction
  exact ⟨fits, null, fun _ => back⟩

end OpenApiClient
