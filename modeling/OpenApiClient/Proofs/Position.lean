import OpenApiClient.Reference.Node

/-!
Positions in lists as segments of a pointer. A position is written as numbers are, or with a plus sign and
any zeros before it.
-/

namespace OpenApiClient

namespace Text

theorem natOfDigits_toDigits (n : Nat) : natOfDigits (Nat.toDigits 10 n) = n :=
  Nat.ofDigitChars_eq_foldl.symm.trans Nat.ofDigitChars_ten_toDigits

-- Only zero is written with a zero in front.
theorem eq_zero_of_toDigits {n : Nat} {rest : List Char} (h : Nat.toDigits 10 n = '0' :: rest) :
    n = 0 := by
  induction n using Nat.strongRecOn generalizing rest with
  | ind n ih =>
    rw [Nat.toDigits_eq_if (by decide)] at h
    split at h
    case isTrue => simpa using (List.cons.inj h).1
    case isFalse hn =>
      cases hq : Nat.toDigits 10 (n / 10) with
      | nil => exact absurd hq Nat.toDigits_ne_nil
      | cons c s =>
        rw [hq, List.cons_append] at h
        have := ih (n / 10) (by omega) (hq.trans (by rw [(List.cons.inj h).1]))
        omega

theorem digitValue_lt {c : Char} (h : isAsciiDigit c) : digitValue c < 10 := by
  have := Char.isDigit_iff_toNat.mp h
  have ⟨zero, nine⟩ : '0'.toNat = 48 ∧ '9'.toNat = 57 := by decide
  unfold digitValue
  omega

theorem digitChar_digitValue {c : Char} (h : isAsciiDigit c) : Nat.digitChar (digitValue c) = c := by
  apply Char.toNat_inj.mp
  rw [Nat.toNat_digitChar_of_lt_ten (digitValue_lt h)]
  have := (Char.isDigit_iff_toNat.mp h).1
  have zero : '0'.toNat = 48 := by decide
  unfold digitValue
  omega

-- Reading further digits of a number that is not zero is writing them behind it.
theorem toDigits_foldl {n : Nat} {digits : List Char} (hn : 0 < n) (hd : digits.all isAsciiDigit) :
    Nat.toDigits 10 (digits.foldl (fun n c => 10 * n + digitValue c) n) =
      Nat.toDigits 10 n ++ digits := by
  induction digits generalizing n with
  | nil => simp
  | cons c rest ih =>
    simp only [List.all_cons, Bool.and_eq_true] at hd
    have value := digitValue_lt hd.1
    have next := Nat.toDigits_append_toDigits (b := 10) (by decide) hn value
    rw [Nat.toDigits_of_lt_base value, digitChar_digitValue hd.1] at next
    rw [List.foldl_cons, ih (by omega) hd.2, ← next, List.append_assoc]
    rfl

-- So digits are written as they were read, if there is no zero before the others.
theorem toDigits_natOfDigits {c : Char} {digits : List Char} (hd : (c :: digits).all isAsciiDigit)
    (hz : c = '0' → digits = []) : Nat.toDigits 10 (natOfDigits (c :: digits)) = c :: digits := by
  simp only [List.all_cons, Bool.and_eq_true] at hd
  by_cases hc : c = '0'
  case pos =>
    rw [hz hc, hc]
    rfl
  case neg =>
    have digit := digitChar_digitValue hd.1
    have positive : 0 < digitValue c := by
      refine Nat.pos_of_ne_zero fun zero => hc ?_
      rw [← digit, zero]
      rfl
    have first : natOfDigits (c :: digits) =
        digits.foldl (fun n c => 10 * n + digitValue c) (digitValue c) := by simp [natOfDigits]
    rw [first, toDigits_foldl positive hd.2, Nat.toDigits_of_lt_base (digitValue_lt hd.1), digit]
    rfl

end Text

namespace Node

open Text

-- A position may be too large to be read, but it is never read as another one.
theorem position?_toString (i : Nat) :
    position? (toString i) = if i ≤ maxPosition then some i else none := by
  have digits : (toString i).toList = Nat.toDigits 10 i := Nat.toList_repr
  have unsigned (rest : List Char) : Nat.toDigits 10 i ≠ '+' :: rest := by
    intro he
    have := Nat.isDigit_of_mem_toDigits (b := 10) (n := i) (c := '+') (by decide) (by decide)
      (he ▸ List.mem_cons_self)
    simp at this
  have all_digits : (Nat.toDigits 10 i).all isAsciiDigit := by
    refine List.all_eq_true.mpr fun c hc => ?_
    have := Nat.isDigit_of_mem_toDigits (by decide) (by decide) hc
    exact this
  unfold position? readUnsigned
  rw [digits]
  split
  case h_1 second rest he =>
    have := eq_zero_of_toDigits he
    subst this
    simp at he
  case h_2 =>
    split
    case h_1 he => exact absurd he (unsigned _)
    case h_2 => simp [natOfDigits_toDigits, all_digits, Nat.toDigits_ne_nil]

theorem le_of_position? {segment : String} {i : Nat} (h : position? segment = some i) :
    i ≤ maxPosition := by
  unfold position? readUnsigned at h
  split at h
  case h_1 => contradiction
  case h_2 =>
    obtain ⟨⟨_, _, bound⟩, rfl⟩ := by
      simpa only [Option.ite_none_right_eq_some, Option.some.injEq] using h
    exact bound

-- What was read as a position is what the position is written as, but for a sign.
theorem toString_eq_iff {segment : String} {i : Nat} (h : position? segment = some i) :
    toString i = segment ↔ segment.toList.head? ≠ some '+' := by
  have digits : (toString i).toList = Nat.toDigits 10 i := Nat.toList_repr
  constructor
  · rintro rfl hp
    rw [digits] at hp
    have := Nat.isDigit_of_mem_toDigits (by decide) (by decide) (List.mem_of_head? hp)
    simp at this
  · intro unsigned
    rw [← String.toList_inj, digits]
    unfold position? readUnsigned at h
    cases hs : segment.toList with
    | nil => simp [hs] at h
    | cons c rest =>
      rw [hs] at h unsigned
      split at h
      case h_1 => contradiction
      case h_2 hz =>
        split at h
        case h_1 hp => simp [hp] at unsigned
        case h_2 =>
          simp only [Option.ite_none_right_eq_some, Option.some.injEq] at h
          obtain ⟨⟨_, all_digits, _⟩, rfl⟩ := h
          refine toDigits_natOfDigits all_digits fun hc => ?_
          cases rest with
          | nil => rfl
          | cons next others => exact absurd (by rw [hc]) (hz next others)

end Node

end OpenApiClient
