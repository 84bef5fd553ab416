import OpenApiClient.Proofs.Naming.Letters

/-!
Which names can stand for classes. Names of components and tags always can. The names of what an operation sends
and receives can, unless they start with a digit because the id of the operation does.
-/

namespace OpenApiClient.Naming

open Text

structure IsWord (name : String) : Prop where
  ne_empty : name ≠ ""
  chars : ∀ c ∈ name.toList, isNameChar c

structure IsClassName (name : String) : Prop extends IsWord name where
  start : startsWithDigit name.toList = false

variable {name rest key text : String}

instance : Decidable (IsWord name) :=
  decidable_of_iff (name ≠ "" ∧ name.toList.all isNameChar) {
    mp := fun ⟨ne_empty, chars⟩ => ⟨ne_empty, List.all_eq_true.mp chars⟩
    mpr := fun h => ⟨h.ne_empty, List.all_eq_true.mpr h.chars⟩ }

instance : Decidable (IsClassName name) :=
  decidable_of_iff (IsWord name ∧ startsWithDigit name.toList = false) {
    mp := fun ⟨word, start⟩ => ⟨word, start⟩
    mpr := fun h => ⟨h.toIsWord, h.start⟩ }

theorem startsWithDigit_append (h : name ≠ "") (rest : String) :
    startsWithDigit (name ++ rest).toList = startsWithDigit name.toList := by
  have : name.toList ≠ [] := by simpa using h
  cases hs : name.toList <;> simp_all [startsWithDigit]

theorem IsWord.append (h : IsWord name) (hr : ∀ c ∈ rest.toList, isNameChar c) : IsWord (name ++ rest) where
  ne_empty := by simp [h.ne_empty]
  chars := by
    simp only [String.toList_append, List.mem_append]
    rintro c (hc | hc)
    · exact h.chars c hc
    · exact hr c hc

-- What is added to a name does not change whether it can stand for a class.
theorem isClassName_append_iff (h : IsWord name) (hr : ∀ c ∈ rest.toList, isNameChar c) :
    IsClassName (name ++ rest) ↔ IsClassName name where
  mp hc := ⟨h, startsWithDigit_append h.ne_empty rest ▸ hc.start⟩
  mpr hc := ⟨h.append hr, (startsWithDigit_append h.ne_empty rest).trans hc.start⟩

theorem IsClassName.append (h : IsClassName name) (hr : ∀ c ∈ rest.toList, isNameChar c) :
    IsClassName (name ++ rest) :=
  (isClassName_append_iff h.toIsWord hr).mpr h

theorem isClassName_guardDigit {s : List Char} (hs : s ≠ []) (hc : ∀ c ∈ s, isNameChar c) :
    IsClassName (String.ofList (guardDigit s)) := by
  cases s with
  | nil => contradiction
  | cons c rest =>
    have underscore : isNameChar '_' := by decide
    rw [guardDigit]
    split
    case isTrue hd =>
      exact {
        ne_empty := by simp
        chars := by simpa [underscore] using hc
        start := by simp [startsWithDigit] }
    case isFalse hd =>
      exact {
        ne_empty := by simp
        chars := by simpa using hc
        start := by simpa [startsWithDigit] using hd }

-- Another name stands in if there is nothing to guard.
theorem isClassName_guardDigit_or {s : List Char} (hn : IsClassName name) (hc : ∀ c ∈ s, isNameChar c) :
    IsClassName (if s.isEmpty then name else String.ofList (guardDigit s)) := by
  split
  case isTrue => exact hn
  case isFalse some_char => exact isClassName_guardDigit (by simpa using some_char) hc

theorem isClassName_of_ofComponentKey (h : ofComponentKey key = .ok name) : IsClassName name := by
  unfold ofComponentKey at h
  dsimp only at h
  split at h
  case isTrue hk =>
    cases h
    simp only [Bool.and_eq_true, List.all_eq_true, Bool.not_eq_true', List.isEmpty_eq_false_iff] at hk
    refine isClassName_guardDigit hk.2 fun c hc => ?_
    obtain ⟨word, hw, hc⟩ := List.mem_flatMap.mp hc
    refine isNameChar_of_mem_upperFirst (fun x hx => ?_) hc
    have mem := flatten_pieces isKeySeparator key.toList ▸ List.mem_flatten.mpr ⟨word, hw, hx⟩
    have ⟨in_key, joins⟩ := List.mem_filter.mp mem
    have := hk.1 x in_key
    exact isAlphanumeric_of_isAlphanum (by simp_all [isKeyChar])
  case isFalse => contradiction

theorem isClassName_apiName (tag : String) : IsClassName (apiName tag) := by
  unfold apiName
  dsimp only
  split
  case isTrue => decide
  case isFalse hb =>
    refine (isClassName_guardDigit (by simpa using hb) ?_).append (IsWord.chars (by decide))
    exact fun c hc => isNameChar_of_mem_joinCapitalized hc

theorem isNameChar_of_mem_ofPath {path : String} {c : Char} (h : c ∈ (ofPath path).toList) :
    isNameChar c := by
  rw [ofPath, String.toList_join, List.flatMap_map, List.mem_flatMap] at h
  obtain ⟨segment, _, hc⟩ := h
  split at hc
  case h_1 =>
    cases List.mem_append.mp (String.toList_append ▸ hc)
    case inl hc => exact (by decide : IsWord "By").chars c hc
    case inr hc => exact isNameChar_of_mem_joinCapitalized hc
  case h_2 => exact isNameChar_of_mem_joinCapitalized hc

theorem isNameChar_of_mem_stem {method : HttpMethod} {path : String} {id : Option String} {c : Char}
    (h : c ∈ (operationStem method path id).toList) : isNameChar c := by
  cases id with
  | some id => exact isNameChar_of_mem_joinCapitalized h
  | none =>
    cases List.mem_append.mp (String.toList_append ▸ h)
    case inl hc => exact isNameChar_of_mem_joinCapitalized hc
    case inr hc => exact isNameChar_of_mem_ofPath hc

-- The first letter or digit of the text is an ASCII digit.
def digitFirst (text : String) : Bool := (text.toList.find? isAlphanumeric).any Char.isDigit

theorem digitFirst_append (text rest : String) : digitFirst (text ++ rest) =
    ((text.toList.find? isAlphanumeric).map Char.isDigit).getD (digitFirst rest) := by
  rw [digitFirst, String.toList_append, List.find?_append]
  cases text.toList.find? isAlphanumeric <;> rfl

-- The names of what operations send and receive, for the kind of thing that `suffix` says.
theorem isWord_operationName {method : HttpMethod} {path : String} {id : Option String} {suffix : String}
    (hs : IsWord suffix) : IsWord (operationStem method path id ++ joinCapitalized text ++ suffix) where
  ne_empty := by simp [hs.ne_empty]
  chars := by
    simp only [String.toList_append, List.mem_append]
    rintro c ((hc | hc) | hc)
    · exact isNameChar_of_mem_stem hc
    · exact isNameChar_of_mem_joinCapitalized hc
    · exact hs.chars c hc

theorem startsWithDigit_operationName {method : HttpMethod} {path : String} {id : Option String}
    {suffix : String} (hs : IsClassName suffix) :
    startsWithDigit (operationStem method path id ++ joinCapitalized text ++ suffix).toList =
      id.any fun id => digitFirst (id ++ text) := by
  cases id with
  | some id =>
    rw [Option.any_some, digitFirst_append, digitFirst]
    simp only [operationStem, String.toList_append, List.append_assoc,
      startsWithDigit_joinCapitalized_append, hs.start]
    cases text.toList.find? isAlphanumeric <;> rfl
  | none =>
    simp only [operationStem, String.toList_append, List.append_assoc, startsWithDigit_joinCapitalized_append]
    cases method <;> rfl

theorem isClassName_operationName {method : HttpMethod} {path : String} {id : Option String}
    {suffix : String} (hs : IsClassName suffix) :
    IsClassName (operationStem method path id ++ joinCapitalized text ++ suffix) ↔
      ∀ written ∈ id, digitFirst (written ++ text) = false := by
  have start : startsWithDigit (operationStem method path id ++ joinCapitalized text ++ suffix).toList =
      id.any fun id => digitFirst (id ++ text) := startsWithDigit_operationName hs
  constructor
  · rintro h written rfl
    simpa using start.symm.trans h.start
  · intro h
    refine ⟨isWord_operationName hs.toIsWord, start.trans ?_⟩
    cases id <;> simp_all

end OpenApiClient.Naming
