import Mathlib.Data.List.Induction
import Mathlib.Data.List.Perm.Subperm
import OpenApiClient.Document.Entries

/-!
Looking up in maps, and maps that have each key once.
-/

namespace OpenApiClient

theorem eraseDups_concat {α : Type} [DecidableEq α] (xs : List α) (x : α) :
    (xs ++ [x]).eraseDups = if x ∈ xs then xs.eraseDups else xs.eraseDups ++ [x] := by
  rw [List.eraseDups_append]
  split
  case isTrue old => simp [List.removeAll, old]
  case isFalse new => simp [List.removeAll, new, List.eraseDups_cons]

-- What has a name of its own is all that its name finds.
theorem filter_of_nodup {α β : Type} [DecidableEq β] {f : α → β} {xs : List α} {x : α}
    (h : (xs.map f).Nodup) (hx : x ∈ xs) : xs.filter (f · = f x) = [x] := by
  induction xs with
  | nil => contradiction
  | cons y ys ih =>
    have ⟨fresh, h⟩ := List.nodup_cons.mp h
    cases List.mem_cons.mp hx
    case inl hx =>
      have others : ∀ z ∈ ys, ¬ f z = f x := fun z hz same => fresh (hx ▸ same ▸ List.mem_map_of_mem hz)
      simpa [← hx] using others
    case inr hx =>
      have other : f y ≠ f x := fun hy => fresh (hy ▸ List.mem_map_of_mem hx)
      simp [other, ih h hx]

theorem find?_of_nodup {α β : Type} [DecidableEq β] {f : α → β} {xs : List α} {x : α}
    (h : (xs.map f).Nodup) (hx : x ∈ xs) : xs.find? (f · = f x) = some x := by
  rw [← List.head?_filter, filter_of_nodup h hx]
  rfl

namespace Entries

variable {α : Type} {key : String} {value : α} {entries : List (String × α)}

-- No key occurs twice.
def Distinct (entries : List (String × α)) : Prop :=
  (keys entries).Nodup

instance : Decidable (Distinct entries) :=
  inferInstanceAs (Decidable (keys entries).Nodup)

theorem mem_keys : key ∈ keys entries ↔ ∃ value, (key, value) ∈ entries := by
  simp [keys]

theorem mem_of_get? (h : get? key entries = some value) : (key, value) ∈ entries := by
  induction entries with
  | nil => contradiction
  | cons entry rest ih =>
    unfold get? at h
    split at h
    case isTrue hk => cases h; exact hk ▸ List.mem_cons_self
    case isFalse => exact List.mem_cons_of_mem _ (ih h)

theorem mem_put {entry : String × α} (h : entry ∈ put key value entries) :
    entry ∈ entries ∨ entry = (key, value) := by
  induction entries with
  | nil => exact .inr (List.mem_singleton.mp h)
  | cons first rest ih =>
    unfold put at h
    split at h <;> grind

theorem get?_of_mem (hd : Distinct entries) (h : (key, value) ∈ entries) :
    get? key entries = some value := by
  induction entries with
  | nil => contradiction
  | cons entry rest ih =>
    have ⟨fresh, hd⟩ := List.nodup_cons.mp hd
    cases List.mem_cons.mp h
    case inl h => simp [get?, ← h]
    case inr h =>
      have hn : entry.1 ≠ key := by
        rintro rfl
        exact fresh (mem_keys.mpr ⟨_, h⟩)
      simp [get?, hn, ih hd h]

theorem Distinct.value_unique {v w : α} (hd : Distinct entries)
    (hv : (key, v) ∈ entries) (hw : (key, w) ∈ entries) : v = w :=
  Option.some.inj <| (get?_of_mem hd hv).symm.trans (get?_of_mem hd hw)

-- As many keys as another map has are all of its keys.
theorem Distinct.keys_perm {β : Type} {others : List (String × β)} (hd : Distinct entries)
    (hs : keys entries ⊆ keys others) (hl : entries.length = others.length) :
    (keys entries).Perm (keys others) :=
  (List.subperm_of_subset hd hs).perm_of_length_le <| by simp [keys, hl]

theorem keys_put : keys (put key value entries) = if key ∈ keys entries then keys entries else keys entries ++ [key] := by
  induction entries with
  | nil => rfl
  | cons entry rest ih =>
    unfold put
    split
    case isTrue same => simp [keys, same]
    case isFalse other =>
      have keys_cons (entries : List (String × α)) : keys (entry :: entries) = entry.1 :: keys entries := rfl
      simp only [keys_cons, ih, List.mem_cons, Ne.symm other, false_or]
      split <;> rfl

-- A key that is written again keeps its place,
theorem keys_ofPairs (pairs : List (String × α)) : keys (ofPairs pairs) = (keys pairs).eraseDups := by
  induction pairs using List.reverseRecOn with
  | nil => rfl
  | append_singleton pairs pair ih =>
    have last : ofPairs (pairs ++ [pair]) = put pair.1 pair.2 (ofPairs pairs) := by simp [ofPairs]
    have keys_last : keys (pairs ++ [pair]) = keys pairs ++ [pair.1] := by simp [keys]
    rw [last, keys_put, ih, keys_last, eraseDups_concat]
    by_cases known : pair.1 ∈ keys pairs <;> simp [known]

-- and gets the last value.
theorem get?_ofPairs (pairs : List (String × α)) (key : String) :
    get? key (ofPairs pairs) = pairs.reverse.lookup key := by
  induction pairs using List.reverseRecOn with
  | nil => rfl
  | append_singleton pairs pair ih =>
    have last : ofPairs (pairs ++ [pair]) = put pair.1 pair.2 (ofPairs pairs) := by simp [ofPairs]
    rw [last, List.reverse_append, List.reverse_singleton, List.singleton_append, List.lookup_cons]
    by_cases same : key = pair.1
    case pos => simp [same, get?_put_self]
    case neg => rw [get?_put_of_ne same, ih, beq_false_of_ne same]

-- A map that has each key once, and only values with a property.
structure Of (P : α → Prop) (entries : List (String × α)) : Prop where
  distinct : Distinct entries
  values {key : String} {value : α} : (key, value) ∈ entries → P value

namespace Of

variable {P : α → Prop}

@[simp] theorem nil : Of P [] where
  distinct := List.nodup_nil
  values := nofun

@[simp] theorem cons : Of P ((key, value) :: entries) ↔ key ∉ keys entries ∧ P value ∧ Of P entries where
  mp h := by
    have ⟨fresh, distinct⟩ := List.nodup_cons.mp h.distinct
    exact ⟨fresh, h.values List.mem_cons_self, distinct, fun hm => h.values (List.mem_cons_of_mem _ hm)⟩
  mpr := fun ⟨fresh, hv, h⟩ => {
    distinct := List.nodup_cons.mpr ⟨fresh, h.distinct⟩
    values := by
      intro k v hm
      cases List.mem_cons.mp hm
      case inl hm =>
        cases hm
        exact hv
      case inr hm => exact h.values hm }

end Of

end Entries

end OpenApiClient
