import Mathlib.Data.List.TakeDrop
import Mathlib.Data.List.TakeWhile
import OpenApiClient.Json.Reader
import OpenApiClient.Json.Writer
import OpenApiClient.Proofs.Position

/-!
Numbers in JSON text. What stands behind a number is no part of it if it starts like nothing that a number can go on
with; integers read back as they were written.
-/

namespace OpenApiClient.Json

open Text

namespace Reader

-- No number goes on like this.
def EndsNumber (rest : List Char) : Prop :=
  ∀ c ∈ rest.head?, ¬ isAsciiDigit c ∧ c ≠ '.' ∧ c ≠ 'e' ∧ c ≠ 'E'

variable {s rest left : List Char}

theorem takeDigits_append (h : EndsNumber rest) :
    takeDigits (s ++ rest) = ((takeDigits s).1, (takeDigits s).2 ++ rest) := by
  unfold takeDigits
  simp only [List.span_eq_takeWhile_dropWhile]
  induction s with
  | nil =>
    cases rest with
    | nil => rfl
    | cons c rest =>
      have := (h c rfl).1
      simp [this]
  | cons c s ih =>
    simp only [List.cons_append, List.takeWhile_cons, List.dropWhile_cons]
    split
    case isTrue => simp_all
    case isFalse => rfl

theorem readFraction_append {fraction : Option (List Char)} (hr : EndsNumber rest)
    (h : readFraction s = some (fraction, left)) : readFraction (s ++ rest) = some (fraction, left ++ rest) := by
  unfold readFraction at h
  split at h
  case h_1 after =>
    simp only [List.cons_append, readFraction, takeDigits_append hr]
    split at h <;> simp_all
  case h_2 point =>
    cases h
    unfold readFraction
    split
    case h_1 after there =>
      cases s with
      | nil => exact absurd rfl (hr '.' (by simp_all)).2.1
      | cons c s => simp_all
    case h_2 => rfl

theorem readExponent_append {exponent : Option (Bool × List Char)} (hr : EndsNumber rest)
    (h : readExponent s = some (exponent, left)) : readExponent (s ++ rest) = some (exponent, left ++ rest) := by
  cases s with
  | nil =>
    cases h
    cases rest with
    | nil => rfl
    | cons c rest =>
      have := hr c rfl
      simp [readExponent, this]
  | cons c s =>
    simp only [readExponent, List.cons_append] at h ⊢
    split at h
    case isTrue he =>
      simp only [he, if_true]
      cases s with
      | nil => contradiction
      | cons sign s =>
        have append := takeDigits_append (s := sign :: s) hr
        have signs : sign = '-' ∨ sign = '+' ∨ sign ≠ '-' ∧ sign ≠ '+' := by tauto
        obtain rfl | rfl | ⟨minus, plus⟩ := signs
        all_goals
          simp_all only [List.cons_append, takeDigits_append hr]
          split at h
          case h_1 => contradiction
          case h_2 => simp_all
    case isFalse other =>
      cases h
      rw [if_neg other]
      rfl

theorem readNumeral_append {numeral : Numeral} (hr : EndsNumber rest) (h : readNumeral s = some (numeral, left)) :
    readNumeral (s ++ rest) = some (numeral, left ++ rest) := by
  have started : ∃ c after, s = c :: after := by
    cases s with
    | nil => contradiction
    | cons c after => exact ⟨c, after, rfl⟩
  obtain ⟨c, after, rfl⟩ := started
  have append := takeDigits_append (s := c :: after) hr
  by_cases minus : c = '-'
  case' pos => subst minus
  all_goals
    simp_all only [readNumeral, List.cons_append, takeDigits_append hr]
    split at h
    case h_1 | h_2 => contradiction
    case h_3 =>
      obtain ⟨⟨fraction, _⟩, hf, h⟩ := Option.bind_eq_some_iff.mp h
      obtain ⟨⟨exponent, _⟩, he, h⟩ := Option.bind_eq_some_iff.mp h
      have fraction_append := readFraction_append hr hf
      have exponent_append := readExponent_append hr he
      simp_all

theorem head_of_readNumeral {numeral : Numeral} (h : readNumeral s = some (numeral, left)) :
    ∃ c after, s = c :: after ∧ (c = '-' ∨ isAsciiDigit c) := by
  cases s with
  | nil => contradiction
  | cons c after =>
    refine ⟨c, after, rfl, ?_⟩
    by_contra other
    obtain ⟨minus, digit⟩ := not_or.mp other
    simp [readNumeral, takeDigits, List.span_eq_takeWhile_dropWhile, minus, digit] at h

theorem takeDigits_self (h : ∀ c ∈ s, isAsciiDigit c) : takeDigits s = (s, []) := by
  rw [takeDigits, List.span_eq_takeWhile_dropWhile]
  exact Prod.ext (List.takeWhile_eq_self_iff.mpr h) (List.dropWhile_eq_nil_iff.mpr h)

theorem isAsciiDigit_of_mem_toDigits {n : Nat} : ∀ c ∈ Nat.toDigits 10 n, isAsciiDigit c :=
  fun _ hc => Nat.isDigit_of_mem_toDigits (by decide) (by decide) hc

-- The digits of a number, with a sign or without, are a numeral.
theorem readNumeral_digits (negative : Bool) (n : Nat) :
    readNumeral (if negative then '-' :: Nat.toDigits 10 n else Nat.toDigits 10 n) =
      some (⟨negative, Nat.toDigits 10 n, none, none⟩, []) := by
  have digits := takeDigits_self (isAsciiDigit_of_mem_toDigits (n := n))
  cases hd : Nat.toDigits 10 n with
  | nil => exact absurd hd Nat.toDigits_ne_nil
  | cons c rest =>
    have digit := isAsciiDigit_of_mem_toDigits (n := n) c (by simp [hd])
    have minus : c ≠ '-' := by
      rintro rfl
      contradiction
    have zero : c = '0' → rest = [] := by
      rintro rfl
      obtain rfl := eq_zero_of_toDigits hd
      exact (List.cons.inj hd).2.symm
    rw [hd] at digits
    cases negative <;> simp [readNumeral, digits, minus] <;> split
    case h_1 | h_1 => contradiction
    case h_2 | h_2 => simp_all
    case h_3 | h_3 => rfl

end Reader

-- The number that a text is, all of it.
def Number.ofText? (s : List Char) : Option Number :=
  match Reader.readNumeral s with
  | some (numeral, []) => numeral.toNumber?
  | _ => none

-- The text of the number is read as the number.
def Number.Reads (n : Number) : Prop := ofText? n.text = some n

instance {n : Number} : Decidable n.Reads := inferInstanceAs (Decidable (Number.ofText? n.text = some n))

theorem Number.Reads.numeral {n : Number} (h : n.Reads) :
    ∃ numeral, Reader.readNumeral n.text = some (numeral, []) ∧ numeral.toNumber? = some n := by
  unfold Reads ofText? at h
  split at h
  case h_1 numeral read => exact ⟨numeral, read, h⟩
  case h_2 => contradiction

-- The integers that there are.
def Number.InRange : Number → Prop
  | .int n => -(Nat.pow 2 63 : Nat) ≤ n ∧ n ≤ Reader.maxSignificand
  | .float _ => True

theorem Number.reads_int {n : Int} (h : (Number.int n).InRange) : (Number.int n).Reads := by
  have value := natOfDigits_toDigits n.natAbs
  have text_eq : (Number.int n).text = if n < 0 then '-' :: Nat.toDigits 10 n.natAbs else Nat.toDigits 10 n.natAbs :=
    rfl
  have read := Reader.readNumeral_digits (n < 0) n.natAbs
  simp only [decide_eq_true_eq] at read
  rw [Reads, text_eq, ofText?, read]
  obtain ⟨least, most⟩ := h
  simp only [Reader.Numeral.toNumber?, value]
  by_cases negative : n < 0
  case pos =>
    have small : 0 < n.natAbs ∧ n.natAbs ≤ Nat.pow 2 63 := by omega
    have same : -(n.natAbs : Int) = n := by omega
    simp only [negative, decide_true, if_true, Option.isNone_none, small, and_self, same]
  case neg =>
    have small : n.natAbs ≤ Reader.maxSignificand := by omega
    have same : (n.natAbs : Int) = n := by omega
    simp only [negative, decide_false, Bool.false_eq_true, if_false, Option.isNone_none, small, true_and, if_true, same]

end OpenApiClient.Json
