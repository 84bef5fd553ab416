import OpenApiClient.Proofs.Json.Rendered

/-!
What JSON text is read as: leaves that show their types, lists and maps with texts for keys, on no more levels than can
be read, and what cannot be read.
-/

namespace OpenApiClient

open Json

-- A leaf that JSON text can have.
def Atom.OfJson : Atom → Prop
  | .number n => n.InRange
  | .notFinite => False
  | _ => True

-- A map whose keys are texts.
def Source.object (members : List (String × Source)) : Source :=
  .map (members.map fun m => (.string m.1, m.2))

-- What JSON text with at most so many levels is read as.
inductive Source.Fits : Nat → Source → Prop
  | leaf {n a} : a.OfJson → Fits n (.ofAtom a)
  | list {n items} : (∀ s ∈ items, Fits n s) → Fits (n + 1) (.list true items)
  | object {n members} : (∀ m ∈ members, Fits n m.2) → Fits (n + 1) (.object members)
  | unreadable {n} : Fits n .unreadable

namespace Source

variable {n : Nat}

theorem heightItems_le {items : List Source} (h : ∀ s ∈ items, s.height ≤ n) : heightItems items ≤ n := by
  induction items with
  | nil => exact Nat.zero_le n
  | cons s rest ih =>
    have ⟨first, others⟩ := List.forall_mem_cons.mp h
    exact Nat.max_le.mpr ⟨first, ih others⟩

theorem heightEntries_le {members : List (String × Source)} (h : ∀ m ∈ members, m.2.height ≤ n) :
    heightEntries (members.map fun m => (.string m.1, m.2)) ≤ n := by
  induction members with
  | nil => exact Nat.zero_le n
  | cons m rest ih =>
    have ⟨first, others⟩ := List.forall_mem_cons.mp h
    exact Nat.max_le.mpr ⟨Nat.max_le.mpr ⟨Nat.zero_le n, first⟩, ih others⟩

theorem Fits.height_le {s : Source} (h : s.Fits n) : s.height ≤ n := by
  induction h with
  | leaf | unreadable => exact Nat.zero_le _
  | list _ ih => exact Nat.succ_le_succ (heightItems_le ih)
  | object _ ih => exact Nat.succ_le_succ (heightEntries_le ih)

@[simp] theorem ofAtom_inj {a b : Atom} : ofAtom a = ofAtom b ↔ a = b where
  mp h := Option.some.inj (congrArg atom? h)
  mpr h := h ▸ rfl

@[simp] theorem object_inj {as bs : List (String × Source)} : object as = object bs ↔ as = bs := by
  have entry_inj : Function.Injective fun m : String × Source => (string m.1, m.2) := by
    intro a b same
    obtain ⟨key, value⟩ := Prod.mk.inj same
    exact Prod.ext (by simpa [string] using key) value
  rw [object, object, map.injEq, List.map_inj_right entry_inj]

end Source

namespace Json.Value

theorem source_array (items : List Value) : (Value.array items).source = .list true (items.map source) := by
  simp [source]

theorem source_object (members : List (String × Value)) :
    (Value.object members).source = .object (members.map fun m => (m.1, m.2.source)) := by
  simp [source, Source.object]

theorem numbers_inRange {v : Value} {n : Nat} (h : v.source.Fits n) : ∀ x ∈ v.numbers, x.InRange := by
  generalize hs : v.source = s at h
  induction h generalizing v with
  | leaf ha =>
    cases v with
    | number x =>
      rw [source, Source.ofAtom_inj] at hs
      subst hs
      have ha : x.InRange := ha
      simpa [numbers] using ha
    | null | bool | string => simp [numbers]
    | array | object => simp [source, Source.ofAtom] at hs
  | list _ ih =>
    cases v with
    | array items =>
      rw [source_array, Source.list.injEq] at hs
      obtain ⟨-, rfl⟩ := hs
      simp only [numbers, numbersOfItems_eq, List.mem_flatMap]
      rintro x ⟨item, hi, hx⟩
      exact ih _ (List.mem_map_of_mem hi) rfl x hx
    | null | bool | number | string | object => simp [source, Source.ofAtom, Source.string] at hs
  | object _ ih =>
    cases v with
    | object members =>
      rw [source_object, Source.object_inj] at hs
      subst hs
      simp only [numbers, numbersOfMembers_eq, List.mem_flatMap]
      rintro x ⟨m, hm, hx⟩
      exact ih (m.1, m.2.source) (List.mem_map_of_mem hm) rfl x hx
    | null | bool | number | string | array => simp [source, Source.ofAtom, Source.string, Source.object] at hs
  | unreadable => cases v <;> simp [source, Source.ofAtom, Source.string] at hs

end Json.Value

namespace Json.Reader

variable {fuel depth : Nat} {s rest : List Char}

theorem inRange_of_toNumber? {numeral : Numeral} {n : Number} (h : numeral.toNumber? = some n) : n.InRange := by
  unfold Numeral.toNumber? at h
  dsimp only at h
  by_cases small : numeral.fraction.isNone ∧ numeral.exponent.isNone ∧
      if numeral.negative then 0 < Text.natOfDigits numeral.whole ∧ Text.natOfDigits numeral.whole ≤ Nat.pow 2 63
      else Text.natOfDigits numeral.whole ≤ maxSignificand
  case pos =>
    rw [if_pos small] at h
    obtain rfl := Option.some.inj h
    obtain ⟨-, -, small⟩ := small
    unfold Number.InRange
    cases negative : numeral.negative
    all_goals
      simp only [negative, Bool.false_eq_true, if_true, if_false] at small ⊢
      omega
  case neg =>
    rw [if_neg small] at h
    obtain ⟨x, _, rfl⟩ := Option.map_eq_some_iff.mp h
    trivial

theorem fits_nested {s : Source} {k : Nat} (h : depth ≤ maxDepth → s.Fits k) : (nested depth s).Fits k := by
  unfold nested
  split
  case isTrue level => exact h level
  case isFalse => exact .unreadable

theorem fits_expect {a : Atom} {word : List Char} {v : Source} {k : Nat} (ha : a.OfJson)
    (h : expect word a s = some (v, rest)) : v.Fits k := by
  unfold expect at h
  split at h <;> cases h
  exact .leaf ha

theorem fits_objectOf {members : List (Option String × Source)} {k : Nat} (h : ∀ m ∈ members, m.2.Fits k) :
    (objectOf members).Fits (k + 1) := by
  unfold objectOf
  split
  case isTrue keys =>
    have object : members.map (fun m => (Source.string (m.1.getD ""), m.2)) =
        (members.map fun m => (m.1.getD "", m.2)).map fun m => (.string m.1, m.2) := by simp
    rw [object]
    exact .object <| List.forall_mem_map.mpr h
  case isFalse => exact .unreadable

-- What is read fits into the levels that are left.
structure ReadsFit (fuel : Nat) : Prop where
  value {depth s v rest} : readValue fuel depth s = some (v, rest) → v.Fits (maxDepth - depth)
  items {depth s items rest} : readItems fuel depth s = some (items, rest) → ∀ v ∈ items, v.Fits (maxDepth - depth)
  members {depth s members rest} : readMembers fuel depth s = some (members, rest) →
    ∀ m ∈ members, m.2.Fits (maxDepth - depth)

theorem ReadsFit.value_succ {v : Source} (ih : ReadsFit fuel) (h : readValue (fuel + 1) depth s = some (v, rest)) :
    v.Fits (maxDepth - depth) := by
  have outer {s : Source} (h : depth < maxDepth → s.Fits (maxDepth - (depth + 1) + 1)) :
      (nested (depth + 1) s).Fits (maxDepth - depth) := by
    refine fits_nested fun level => ?_
    have levels : maxDepth - depth = maxDepth - (depth + 1) + 1 := by omega
    exact levels ▸ h level
  unfold readValue at h
  split at h
  case h_1 => contradiction
  case h_2 | h_3 | h_4 =>
    refine fits_expect ?_ h
    trivial
  case h_5 =>
    obtain ⟨⟨content, left⟩, _, h⟩ := Option.bind_eq_some_iff.mp h
    cases content <;> cases h
    · exact .unreadable
    · exact .leaf trivial
  case h_6 =>
    split at h
    case h_1 =>
      cases h
      exact outer fun _ => .list (List.forall_mem_nil _)
    case h_2 =>
      obtain ⟨⟨items, left⟩, read, h⟩ := Option.bind_eq_some_iff.mp h
      cases h
      exact outer fun _ => .list (ih.items read)
  case h_7 =>
    split at h
    case h_1 =>
      cases h
      exact outer fun _ => .object (List.forall_mem_nil _)
    case h_2 =>
      obtain ⟨⟨members, left⟩, read, h⟩ := Option.bind_eq_some_iff.mp h
      cases h
      exact outer fun _ => fits_objectOf (ih.members read)
  case h_8 =>
    obtain ⟨⟨numeral, left⟩, _, h⟩ := Option.bind_eq_some_iff.mp h
    dsimp only at h
    split at h <;> cases h
    case h_1 => exact .leaf (inRange_of_toNumber? ‹_›)
    case h_2 => exact .unreadable

theorem ReadsFit.items_succ {items : List Source} (ih : ReadsFit fuel)
    (h : readItems (fuel + 1) depth s = some (items, rest)) : ∀ v ∈ items, v.Fits (maxDepth - depth) := by
  unfold readItems at h
  obtain ⟨⟨item, left⟩, read, h⟩ := Option.bind_eq_some_iff.mp h
  dsimp only at h
  split at h
  case h_1 =>
    obtain ⟨⟨items, left⟩, more, h⟩ := Option.bind_eq_some_iff.mp h
    cases h
    exact List.forall_mem_cons.mpr ⟨ih.value read, ih.items more⟩
  case h_2 =>
    cases h
    exact List.forall_mem_singleton.mpr (ih.value read)
  case h_3 => contradiction

theorem ReadsFit.members_succ {members : List (Option String × Source)} (ih : ReadsFit fuel)
    (h : readMembers (fuel + 1) depth s = some (members, rest)) : ∀ m ∈ members, m.2.Fits (maxDepth - depth) := by
  unfold readMembers at h
  obtain ⟨⟨key, left⟩, _, h⟩ := Option.bind_eq_some_iff.mp h
  obtain ⟨⟨value, left⟩, read, h⟩ := Option.bind_eq_some_iff.mp h
  dsimp only at h
  split at h
  case h_1 =>
    obtain ⟨⟨members, left⟩, more, h⟩ := Option.bind_eq_some_iff.mp h
    cases h
    exact List.forall_mem_cons.mpr ⟨ih.value read, ih.members more⟩
  case h_2 =>
    cases h
    exact List.forall_mem_singleton.mpr (ih.value read)
  case h_3 => contradiction

theorem readsFit (fuel : Nat) : ReadsFit fuel := by
  induction fuel with
  | zero => exact ⟨nofun, nofun, nofun⟩
  | succ fuel ih => exact ⟨ih.value_succ, ih.items_succ, ih.members_succ⟩

end Json.Reader

theorem Json.fits_of_read? {text : String} {s : Source} (h : read? text = some s) : s.Fits Reader.maxDepth := by
  unfold read? at h
  obtain ⟨⟨v, rest⟩, read, h⟩ := Option.bind_eq_some_iff.mp h
  dsimp only at h
  split at h <;> cases h
  exact (Reader.readsFit _).value read

end OpenApiClient
