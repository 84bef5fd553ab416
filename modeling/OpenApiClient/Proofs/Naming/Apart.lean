import Mathlib.Data.Finset.Card
import Mathlib.Data.List.Nodup
import OpenApiClient.Naming.Apart
import Std.Data.String.ToNat

/-!
Names that are kept apart. One of the numbered forms of a name is free if they all differ, and giving other names to
some of distinct names keeps them distinct unless a new name was there before.
-/

namespace OpenApiClient.Naming

theorem foldCase_append (a b : String) : foldCase (a ++ b) = foldCase a ++ foldCase b := by
  simp [foldCase]

-- What stands behind the name in its numbered forms.
def numberSuffix : Nat → String
  | 0 => ""
  | i + 1 => toString (i + 2)

theorem numbered_eq (base : String) (i : Nat) : numbered base i = base ++ numberSuffix i := by
  cases i <;> simp [numbered, numberSuffix]

theorem numberSuffix_digits (i : Nat) : ∀ c ∈ (numberSuffix i).toList, c.isDigit := by
  cases i with
  | zero => simp [numberSuffix]
  | succ i =>
    intro c hc
    exact Nat.isDigit_of_mem_toDigits (by decide) (by decide) (Nat.toList_repr ▸ hc)

theorem numberSuffix_injective : Function.Injective numberSuffix := by
  have repr_ne_empty (n : Nat) : toString n ≠ "" := by simp [← String.toList_inj]
  intro i j h
  cases i <;> cases j
  case zero.zero => rfl
  case zero.succ => exact absurd h.symm (repr_ne_empty _)
  case succ.zero => exact absurd h (repr_ne_empty _)
  case succ.succ => simpa using Nat.repr_injective h

section

variable {fold : String → String} {taken : List String} {base : String}

-- There are more numbered forms than names that are taken.
theorem exists_numbered_not_mem (inj : Function.Injective fun i => fold (numbered base i))
    (taken : List String) : ∃ i < taken.length + 1, fold (numbered base i) ∉ taken := by
  by_contra! all_taken
  have forms : (Finset.range (taken.length + 1)).image (fun i => fold (numbered base i)) ⊆ taken.toFinset := by
    intro name hn
    obtain ⟨i, hi, rfl⟩ := Finset.mem_image.mp hn
    exact List.mem_toFinset.mpr (all_taken i (Finset.mem_range.mp hi))
  have := Finset.card_le_card forms
  rw [Finset.card_image_of_injective _ inj, Finset.card_range] at this
  have := taken.toFinset_card_le
  omega

-- Trying one numbered form after the other, from the one with number `i` on, ends with this name.
inductive Tries (fold : String → String) (taken : List String) (base : String) : Nat → String → Prop
  | free {i} : fold (numbered base i) ∉ taken → Tries fold taken base i (numbered base i)
  | next {i name} : fold (numbered base i) ∈ taken → Tries fold taken base (i + 1) name → Tries fold taken base i name

theorem Tries.unique {i : Nat} {name name' : String} (h : Tries fold taken base i name)
    (h' : Tries fold taken base i name') : name = name' := by
  induction h with
  | free free =>
    cases h' with
    | free => rfl
    | next there => contradiction
  | next there _ ih =>
    cases h' with
    | free free => contradiction
    | next _ h' => exact ih h'

theorem Tries.not_mem {i : Nat} {name : String} (h : Tries fold taken base i name) : fold name ∉ taken := by
  induction h with
  | free free => exact free
  | next _ _ ih => exact ih

theorem Tries.exists_form {i : Nat} {name : String} (h : Tries fold taken base i name) : ∃ j, name = numbered base j := by
  induction h with
  | free => exact ⟨_, rfl⟩
  | next _ _ ih => exact ih

-- Only which names are taken matters.
theorem Tries.congr {i : Nat} {name : String} {taken' : List String} (same : ∀ name, name ∈ taken ↔ name ∈ taken')
    (h : Tries fold taken base i name) : Tries fold taken' base i name := by
  induction h with
  | free free => exact .free fun there => free ((same _).mpr there)
  | next there _ ih => exact .next ((same _).mp there) ih

theorem Tries.from_start {i : Nat} {name : String} (h : Tries fold taken base i name)
    (before : ∀ j < i, fold (numbered base j) ∈ taken) : Tries fold taken base 0 name := by
  induction i with
  | zero => exact h
  | succ i ih => exact ih (.next (before i (Nat.lt_succ_self i)) h) fun j hj => before j (Nat.lt_succ_of_lt hj)

-- The first free form is where trying ends.
theorem tries_firstFree (inj : Function.Injective fun i => fold (numbered base i)) :
    Tries fold taken base 0 (firstFree fold taken base) := by
  obtain ⟨i, hi, free⟩ := exists_numbered_not_mem inj taken
  have some_free : ((List.range (taken.length + 1)).map (numbered base)).find? (fold · ∉ taken) ≠ none := by
    simp only [ne_eq, List.find?_eq_none, not_forall]
    exact ⟨numbered base i, List.mem_map_of_mem (List.mem_range.mpr hi), by simpa using free⟩
  obtain ⟨name, found⟩ := Option.ne_none_iff_exists'.mp some_free
  rw [firstFree, found, Option.getD_some]
  obtain ⟨free, i, hi, rfl, before⟩ := List.find?_eq_some_iff_getElem.mp found
  simp only [List.getElem_map, List.getElem_range] at free before ⊢
  refine Tries.from_start (.free (by simpa using free)) fun j hj => ?_
  simpa using before j hj

theorem firstFree_not_mem (inj : Function.Injective fun i => fold (numbered base i)) :
    fold (firstFree fold taken base) ∉ taken :=
  (tries_firstFree inj).not_mem

end

theorem nodup_map_ite_iff {α : Type} {p : α → Prop} [DecidablePred p] {rename : α → α} {names : List α}
    (h : names.Nodup) (inj : ∀ x y, p x → p y → rename x = rename y → x = y) (out : ∀ x, p x → ¬ p (rename x)) :
    (names.map fun x => if p x then rename x else x).Nodup ↔ ∀ x ∈ names, p x → rename x ∉ names := by
  rw [List.nodup_map_iff_inj_on h]
  constructor
  · intro apart x hx px there
    have same := apart x hx (rename x) there (by simp [px, out x px])
    exact out x px (same ▸ px)
  · intro apart x hx y hy same
    by_cases px : p x <;> by_cases py : p y <;> simp only [px, py, if_true, if_false] at same
    · exact inj x y px py same
    · exact absurd (same ▸ hy) (apart x hx px)
    · exact absurd (same ▸ hx) (apart y hy py)
    · exact same

end OpenApiClient.Naming
