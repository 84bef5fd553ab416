import OpenApiClient.Naming.Operation

/-!
The characters of names. What is put together from letters and digits consists of such characters, and it starts
with an ASCII digit exactly if the first letter or digit that went into it is one.
-/

namespace OpenApiClient.Naming

open Text

-- An ASCII letter, or any character beyond ASCII.
def isLetter (c : Char) : Bool := c.isAlpha || 128 ≤ c.toNat

def isNameChar (c : Char) : Bool := isLetter c || c.isDigit || c == '_'

theorem isLetter_iff {c : Char} : isLetter c ↔
    65 ≤ c.toNat ∧ c.toNat ≤ 90 ∨ 97 ≤ c.toNat ∧ c.toNat ≤ 122 ∨ 128 ≤ c.toNat := by
  delta isLetter Char.isAlpha Char.isUpper Char.isLower
  simp [UInt32.le_iff_toNat_le, or_assoc]

theorem isDigit_iff {c : Char} : c.isDigit ↔ 48 ≤ c.toNat ∧ c.toNat ≤ 57 :=
  Char.isDigit_iff_toNat

theorem isDigit_of_isLetter {c : Char} (h : isLetter c) : c.isDigit = false := by
  rw [isLetter_iff] at h
  rw [Bool.eq_false_iff, ne_eq, isDigit_iff]
  omega

theorem isLetter_of_isAlphanumeric {c : Char} (h : isAlphanumeric c) (hd : c.isDigit = false) :
    isLetter c := by
  unfold isAlphanumeric at h
  split at h
  case isTrue => simp_all [isLetter, Char.isAlphanum]
  case isFalse => simp_all [isLetter]

-- Digits have no case, and lower case makes none.
theorem toLower_of_isDigit {c : Char} (h : c.isDigit ∨ c.toLower.isDigit) : c.toLower = c := by
  delta Char.toLower at h ⊢
  split at h
  case isTrue upper =>
    have first := UInt32.le_iff_toNat_le.mp upper.1
    have last := UInt32.le_iff_toNat_le.mp upper.2
    simp only [isDigit_iff] at h
    simp [← Char.toNat_val, UInt32.toNat_add] at first last h
    omega
  case isFalse other => exact dif_neg other

-- A table of mappings leads to letters only: one to several characters,
def expandsToLetters (expansions : List (Nat × List Nat)) : Bool :=
  expansions.all fun (_, expansion) => !expansion.isEmpty && expansion.all fun n => isLetter (Char.ofNat n)

def leadsTo (s : Shift) (first last : Nat) : Bool :=
  first ≤ s.run.first + s.offset && s.run.last + s.offset ≤ last

-- or one to one, which is a letter of ASCII or beyond ASCII.
def shiftsToLetters (shifts : List Shift) : Bool :=
  shifts.all fun s =>
    leadsTo s 0x41 0x5A || leadsTo s 0x61 0x7A || leadsTo s 0x80 0xD7FF || leadsTo s 0xE000 0x10FFFF

theorem upper_letters : expandsToLetters upperExpansions ∧ shiftsToLetters upperShifts := by
  decide +kernel

theorem lower_letters : expandsToLetters lowerExpansions ∧ shiftsToLetters lowerShifts := by
  decide +kernel

theorem toNat_ofNat {n : Nat} (h : n.isValidChar) : (Char.ofNat n).toNat = n := by
  rw [Char.ofNat, dif_pos h]
  rfl

theorem isLetter_of_shift {shifts : List Shift} (h : shiftsToLetters shifts) {s : Shift} (hs : s ∈ shifts) {n : Nat}
    (hn : s.run.contains n) : isLetter (Char.ofNat (n + s.offset).toNat) := by
  have leads := List.all_eq_true.mp h s hs
  have first := Run.first_le_of_contains hn
  have last := Run.le_last_of_contains hn
  simp only [leadsTo, Bool.or_eq_true, Bool.and_eq_true, decide_eq_true_eq] at leads
  rw [isLetter_iff, toNat_ofNat] <;> omega

theorem mapCase_letters {shifts : List Shift} {expansions : List (Nat × List Nat)}
    (h : expandsToLetters expansions ∧ shiftsToLetters shifts) {c : Char} (hc : 128 ≤ c.toNat) :
    mapCase shifts expansions c ≠ [] ∧ ∀ x ∈ mapCase shifts expansions c, isLetter x := by
  unfold mapCase
  split
  case h_1 expansion he =>
    obtain ⟨before, after, table, -⟩ := List.lookup_eq_some_iff.mp he
    have := List.all_eq_true.mp h.1 (c.toNat, expansion) (by simp [table])
    simpa using this
  case h_2 =>
    split
    case h_1 s hs =>
      have contains : s.run.contains c.toNat := by simpa using List.find?_some hs
      simpa using isLetter_of_shift h.2 (List.mem_of_find?_eq_some hs) contains
    case h_2 => simpa [isLetter] using .inr hc

-- What holds of the characters of ASCII is found by trying them all.
theorem ascii_forall {P : Char → Prop} (h : ∀ n < 128, P (Char.ofNat n)) {c : Char} (hc : c.toNat < 128) : P c :=
  Char.ofNat_toNat c ▸ h c.toNat hc

theorem cased_ascii {c : Char} (hc : c.toNat < 128) : isLetter c → isLetter c.toUpper ∧ isLetter c.toLower :=
  ascii_forall (P := fun c => isLetter c → isLetter c.toUpper ∧ isLetter c.toLower) (by decide +kernel) hc

theorem upperChar_letters {c : Char} (h : isLetter c) :
    upperChar c ≠ [] ∧ ∀ x ∈ upperChar c, isLetter x := by
  unfold upperChar
  split
  case isTrue ascii => simpa using (cased_ascii ascii h).1
  case isFalse beyond => exact mapCase_letters upper_letters (by omega)

theorem lowerChar_letters {c : Char} (h : isLetter c) :
    lowerChar c ≠ [] ∧ ∀ x ∈ lowerChar c, isLetter x := by
  unfold lowerChar
  split
  case isTrue ascii => simpa using (cased_ascii ascii h).2
  case isFalse beyond => exact mapCase_letters lower_letters (by omega)

theorem isAlphanumeric_of_isDigit {c : Char} (h : c.isDigit) : isAlphanumeric c :=
  isAlphanumeric_of_isAlphanum (by simp [Char.isAlphanum, h])

-- Digits have no case.
theorem caseless_of_isDigit {c : Char} (h : c.isDigit) :
    isLower c = false ∧ isUpper c = false ∧ lowerChar c = [c] ∧ upperChar c = [c] := by
  have ascii : c.toNat < 128 := by
    have := isDigit_iff.mp h
    omega
  revert h
  exact ascii_forall (P := fun c => c.isDigit →
    isLower c = false ∧ isUpper c = false ∧ lowerChar c = [c] ∧ upperChar c = [c]) (by decide +kernel) ascii

theorem lowerChar_digit {c : Char} (h : c.isDigit) : lowerChar c = [c] :=
  (caseless_of_isDigit h).2.2.1

theorem upperChar_digit {c : Char} (h : c.isDigit) : upperChar c = [c] :=
  (caseless_of_isDigit h).2.2.2

-- The text starts with an ASCII digit.
def startsWithDigit (s : List Char) : Bool := s.head?.any Char.isDigit

theorem startsWithDigit_upperChar_append {c : Char} (h : isAlphanumeric c) (rest : List Char) :
    startsWithDigit (upperChar c ++ rest) = c.isDigit := by
  cases hd : c.isDigit with
  | true => simp [upperChar_digit hd, startsWithDigit, hd]
  | false =>
    have ⟨some_letter, letters⟩ := upperChar_letters (isLetter_of_isAlphanumeric h hd)
    cases hu : upperChar c with
    | nil => exact absurd hu some_letter
    | cons x others =>
      simp [startsWithDigit, isDigit_of_isLetter (letters x (hu ▸ List.mem_cons_self))]

theorem isNameChar_of_isAlphanumeric {c : Char} (h : isAlphanumeric c) : isNameChar c := by
  cases hd : c.isDigit with
  | true => simp [isNameChar, hd]
  | false => simp [isNameChar, isLetter_of_isAlphanumeric h hd]

theorem isNameChar_of_mem_upperChar {c x : Char} (h : isAlphanumeric c) (hx : x ∈ upperChar c) :
    isNameChar x := by
  cases hd : c.isDigit with
  | true =>
    rw [upperChar_digit hd, List.mem_singleton] at hx
    simp [isNameChar, hx, hd]
  | false =>
    simp [isNameChar, (upperChar_letters (isLetter_of_isAlphanumeric h hd)).2 x hx]

theorem isNameChar_of_mem_upperFirst {word : List Char} (h : ∀ c ∈ word, isAlphanumeric c) {x : Char}
    (hx : x ∈ upperFirst word) : isNameChar x := by
  cases word with
  | nil => exact absurd hx List.not_mem_nil
  | cons c rest =>
    have ⟨first, others⟩ := List.forall_mem_cons.mp h
    cases List.mem_append.mp hx
    case inl hx => exact isNameChar_of_mem_upperChar first hx
    case inr hx => exact isNameChar_of_isAlphanumeric (others x hx)

-- Words of letters and digits that are put together start as the first of these does.
theorem startsWithDigit_flatMap_append {words : List (List Char)} (hw : ∀ word ∈ words, word ≠ [])
    (hc : ∀ c ∈ words.flatten, isAlphanumeric c) (rest : List Char) :
    startsWithDigit (words.flatMap upperFirst ++ rest) =
      (words.flatten.head?.map Char.isDigit).getD (startsWithDigit rest) := by
  match words with
  | [] => rfl
  | [] :: _ => exact absurd rfl (hw [] List.mem_cons_self)
  | (c :: word) :: others =>
    have first : isAlphanumeric c := hc c (by simp)
    simp [upperFirst, startsWithDigit_upperChar_append first]

section

variable {text : String}

theorem isNameChar_of_mem_joinCapitalized {c : Char} (h : c ∈ (joinCapitalized text).toList) :
    isNameChar c := by
  simp only [joinCapitalized, String.toList_ofList, List.mem_flatMap] at h
  obtain ⟨word, hw, hc⟩ := h
  refine isNameChar_of_mem_upperFirst (fun x hx => ?_) hc
  have := flatten_pieces (!isAlphanumeric ·) text.toList ▸ List.mem_flatten.mpr ⟨word, hw, hx⟩
  simpa using (List.mem_filter.mp this).2

theorem startsWithDigit_joinCapitalized_append (text : String) (rest : List Char) :
    startsWithDigit ((joinCapitalized text).toList ++ rest) =
      ((text.toList.find? isAlphanumeric).map Char.isDigit).getD (startsWithDigit rest) := by
  have flatten : (pieces (!isAlphanumeric ·) text.toList).flatten = text.toList.filter isAlphanumeric := by
    simp [flatten_pieces]
  rw [joinCapitalized, String.toList_ofList, startsWithDigit_flatMap_append, flatten, List.head?_filter]
  · exact fun word => ne_nil_of_mem_pieces
  · simp [flatten]

end

end OpenApiClient.Naming
