import OpenApiClient.Proofs.Pointer
import OpenApiClient.Proofs.Text.Bytes
import OpenApiClient.Proofs.Text.Pieces
import OpenApiClient.Proofs.Text.Replace

/-!
References decoded. The segments of a reference are those that were written into it, however many of their bytes are
written as percent escapes, if all percent signs are.
-/

namespace OpenApiClient.Pointer

open Text

-- A text in which what stands for a tilde and for a slash is taken back, from the first to the last.
def unescape : List Char → List Char
  | c :: d :: s =>
    if c = '~' ∧ d = '0' then '~' :: unescape s
    else if c = '~' ∧ d = '1' then '/' :: unescape s
    else c :: unescape (d :: s)
  | short => short

-- The digits for a number below 16.
def hexDigits (n : Nat) : List Char := [Nat.digitChar n, (Nat.digitChar n).toUpper]

-- Any bytes may be written as escapes, and percent signs are.
inductive PercentEncodes : List UInt8 → List UInt8 → Prop
  | nil : PercentEncodes [] []
  | literal {byte plain raw} : byte ≠ '%'.toNat.toUInt8 → PercentEncodes plain raw →
    PercentEncodes (byte :: plain) (byte :: raw)
  | escaped {byte high low plain raw} : high ∈ hexDigits (byte.toNat / 16) → low ∈ hexDigits (byte.toNat % 16) →
    PercentEncodes plain raw →
    PercentEncodes (byte :: plain) ('%'.toNat.toUInt8 :: high.toNat.toUInt8 :: low.toNat.toUInt8 :: raw)

-- A reference in which each key has a segment, with tildes and slashes replaced and then bytes written as escapes.
def Encodes (keys : List String) (reference : String) : Prop :=
  ∃ raws : List String, reference = "#" ++ String.join (raws.map ("/" ++ ·)) ∧
    List.Forall₂ (fun key raw => PercentEncodes (utf8 (key.toList.flatMap escapeChar)) (utf8 raw.toList)) keys raws

section

variable {c d : Char} {s : List Char}

theorem head?_slashes (d : Char) (s : List Char) :
    (replaceAll ['~', '1'] ['/'] (d :: s)).head? = some d ∨ (replaceAll ['~', '1'] ['/'] (d :: s)).head? = some '/' := by
  by_cases pair : d = '~' ∧ s.head? = some '1'
  case pos =>
    obtain ⟨rfl, first⟩ := pair
    obtain ⟨s, rfl⟩ := List.head?_eq_some_iff.mp first
    rw [replaceAll_pair]
    exact .inr rfl
  case neg =>
    rw [replaceAll_cons pair]
    exact .inl rfl

-- No pair comes about only through the replacement of others.
theorem unescape_eq (s : List Char) : replaceAll ['~', '0'] ['~'] (replaceAll ['~', '1'] ['/'] s) = unescape s := by
  fun_induction unescape s with
  | case1 c d s tilde ih =>
    obtain ⟨rfl, rfl⟩ := tilde
    have kept : replaceAll ['~', '1'] ['/'] ('~' :: '0' :: s) = '~' :: '0' :: replaceAll ['~', '1'] ['/'] s := by
      rw [replaceAll_cons (by simp), replaceAll_cons (by simp)]
    rw [kept, replaceAll_pair, ih]
    rfl
  | case2 c d s _ slash ih =>
    obtain ⟨rfl, rfl⟩ := slash
    rw [replaceAll_pair, List.singleton_append, replaceAll_cons (by simp), ih]
  | case3 c d s no_tilde no_slash ih =>
    have other : ¬ (c = '~' ∧ (replaceAll ['~', '1'] ['/'] (d :: s)).head? = some '0') := by
      rintro ⟨rfl, first⟩
      rcases head?_slashes d s with head | head
      · exact no_tilde ⟨rfl, Option.some.inj (head.symm.trans first)⟩
      · exact absurd (head.symm.trans first) (by decide)
    rw [replaceAll_cons (by simpa using no_slash), replaceAll_cons other, ih]
  | case4 short only =>
    rcases short with - | ⟨c, - | ⟨d, s⟩⟩
    · rfl
    · have alone (q : Char) (replacement : List Char) : replaceAll ['~', q] replacement [c] = [c] :=
        replaceAll_cons (by simp)
      rw [alone, alone]
    · exact absurd rfl (only c d s)

theorem decodeSegment_eq (raw : String) : decodeSegment raw = String.ofList (unescape (percentDecode raw).toList) := by
  rw [decodeSegment, unescape_eq]

theorem unescape_cons (h : c ≠ '~') : unescape (c :: s) = c :: unescape s := by
  cases s <;> simp [unescape, h]

theorem unescape_flatMap (s : List Char) : unescape (s.flatMap escapeChar) = s := by
  induction s with
  | nil => rfl
  | cons c s ih =>
    rw [List.flatMap_cons, escapeChar]
    split
    case isTrue tilde =>
      subst tilde
      exact congrArg ('~' :: ·) ih
    case isFalse tilde =>
      split
      case isTrue slash =>
        subst slash
        exact congrArg ('/' :: ·) ih
      case isFalse => rw [List.singleton_append, unescape_cons tilde, ih]

theorem decodeBytes_cons {byte : UInt8} (h : byte ≠ '%'.toNat.toUInt8) (bytes : List UInt8) :
    decodeBytes (byte :: bytes) = byte :: decodeBytes bytes := by
  rcases bytes with - | ⟨a, - | ⟨b, rest⟩⟩
  · rfl
  · rfl
  · rw [decodeBytes, if_neg h]

theorem decodeBytes_escape {a b byte : UInt8} (h : escapedByte? a b = some byte) (rest : List UInt8) :
    decodeBytes ('%'.toNat.toUInt8 :: a :: b :: rest) = byte :: decodeBytes rest := by
  rw [decodeBytes, if_pos rfl, h]

theorem read_hexDigits {n : Nat} (hn : n < 16) {digit : Char} (h : digit ∈ hexDigits n) :
    digit.toNat.toUInt8 ≠ '+'.toNat.toUInt8 ∧ digit.toNat.toUInt8 ≠ '/'.toNat.toUInt8 ∧
      Json.Reader.hexValue? (Char.ofNat digit.toNat.toUInt8.toNat) = some n := by
  have digits : ∀ n < 16, (hexDigits n).all fun digit => digit.toNat.toUInt8 ≠ '+'.toNat.toUInt8 ∧
      digit.toNat.toUInt8 ≠ '/'.toNat.toUInt8 ∧
        Json.Reader.hexValue? (Char.ofNat digit.toNat.toUInt8.toNat) = some n := by decide
  exact of_decide_eq_true (List.all_eq_true.mp (digits n hn) digit h)

theorem escapedByte?_hexDigits {byte : UInt8} {high low : Char} (hh : high ∈ hexDigits (byte.toNat / 16))
    (hl : low ∈ hexDigits (byte.toNat % 16)) : escapedByte? high.toNat.toUInt8 low.toNat.toUInt8 = some byte := by
  obtain ⟨no_sign, -, high⟩ := read_hexDigits (Nat.div_lt_of_lt_mul byte.toNat_lt) hh
  obtain ⟨-, -, low⟩ := read_hexDigits (Nat.mod_lt _ (by decide)) hl
  have value : (byte.toNat / 16 * 16 + byte.toNat % 16).toUInt8 = byte := by
    rw [Nat.div_add_mod']
    exact UInt8.ofNat_toNat
  simp only [escapedByte?, Option.bind_eq_bind, low, Option.bind_some, if_neg no_sign, high, value]
  rfl

-- What is escaped is taken back, byte by byte.
theorem decodeBytes_of_percentEncodes {plain raw : List UInt8} (h : PercentEncodes plain raw) : decodeBytes raw = plain := by
  induction h with
  | nil => rfl
  | literal no_percent _ ih => rw [decodeBytes_cons no_percent, ih]
  | escaped high low _ ih => rw [decodeBytes_escape (escapedByte?_hexDigits high low), ih]

theorem decodeSegment_of_percentEncodes {key raw : String}
    (h : PercentEncodes (utf8 (key.toList.flatMap escapeChar)) (utf8 raw.toList)) : decodeSegment raw = key := by
  have text := fromUTF8?_utf8 (String.ofList (key.toList.flatMap escapeChar))
  rw [String.toList_ofList] at text
  rw [decodeSegment_eq, percentDecode, toList_toUTF8, decodeBytes_of_percentEncodes h, text, Option.getD_some,
    String.toList_ofList, unescape_flatMap, String.ofList_toList]

theorem mem_of_percentEncodes {plain raw : List UInt8} {byte : UInt8} (h : PercentEncodes plain raw) (hb : byte ∈ raw) :
    byte ∈ plain ∨ byte = '%'.toNat.toUInt8 ∨ ∃ n < 16, ∃ c ∈ hexDigits n, byte = c.toNat.toUInt8 := by
  induction h with
  | nil => contradiction
  | literal _ _ ih =>
    rcases List.mem_cons.mp hb with rfl | hb
    · exact .inl List.mem_cons_self
    · exact (ih hb).imp_left (List.mem_cons_of_mem _)
  | @escaped b high low _ _ hh hl _ ih =>
    simp only [List.mem_cons] at hb
    rcases hb with rfl | rfl | rfl | hb
    · exact .inr (.inl rfl)
    · exact .inr (.inr ⟨_, Nat.div_lt_of_lt_mul b.toNat_lt, high, hh, rfl⟩)
    · exact .inr (.inr ⟨_, Nat.mod_lt _ (by decide), low, hl, rfl⟩)
    · exact (ih hb).imp_left (List.mem_cons_of_mem _)

-- No slash is written in a segment.
theorem slash_not_mem_of_percentEncodes {key raw : String}
    (h : PercentEncodes (utf8 (key.toList.flatMap escapeChar)) (utf8 raw.toList)) : '/' ∉ raw.toList := by
  have ascii : '/'.toNat < 128 := by decide
  intro slash
  rcases mem_of_percentEncodes h ((mem_utf8_iff ascii).mpr slash) with plain | percent | ⟨n, small, c, hc, digit⟩
  · rw [← toList_escapeSegment, mem_utf8_iff ascii] at plain
    exact slash_not_mem_escapeSegment key plain
  · exact absurd percent (by decide)
  · exact (read_hexDigits small hc).2.1 digit.symm

theorem flatMap_slash {raws : List (List Char)} (h : raws ≠ []) :
    raws.flatMap ('/' :: ·) = '/' :: ['/'].intercalate raws := by
  induction raws with
  | nil => contradiction
  | cons raw raws ih =>
    cases raws with
    | nil => simp [List.intercalate]
    | cons next raws => rw [List.flatMap_cons, ih (List.cons_ne_nil _ _), List.intercalate_cons_cons]; simp

-- Segments without slashes are found where they were written.
theorem segments_eq {raws : List String} (h : ∀ raw ∈ raws, '/' ∉ raw.toList) :
    segments ("#" ++ String.join (raws.map ("/" ++ ·))) = .ok (raws.map decodeSegment) := by
  have chars : ("#" ++ String.join (raws.map ("/" ++ ·))).toList = '#' :: (raws.map String.toList).flatMap ('/' :: ·) := by
    simp [List.flatMap_map]
  by_cases none : raws = []
  case pos =>
    subst none
    rfl
  case neg =>
    rw [flatMap_slash (by simpa using none)] at chars
    have cut := splitWhere_intercalate (List.forall_mem_map.mpr h) (by simpa using none)
    unfold segments
    rw [chars]
    change Except.ok ((splitWhere (· == '/') (['/'].intercalate (raws.map String.toList))).map fun raw =>
      decodeSegment (String.ofList raw)) = _
    rw [cut]
    simp

end

-- A reference is read as the keys that were written into it, so that all references for the same keys have one spelling.
theorem segments_of_encodes {keys : List String} {reference : String} (h : Encodes keys reference) :
    segments reference = .ok keys ∧ canonical reference = .ok (ofSegments keys) := by
  obtain ⟨raws, rfl, encoded⟩ := h
  obtain ⟨keys_eq, no_slash⟩ : raws.map decodeSegment = keys ∧ ∀ raw ∈ raws, '/' ∉ raw.toList := by
    induction encoded with
    | nil => exact ⟨rfl, List.forall_mem_nil _⟩
    | cons written _ ih =>
      rw [List.map_cons, decodeSegment_of_percentEncodes written, ih.1]
      exact ⟨rfl, List.forall_mem_cons.mpr ⟨slash_not_mem_of_percentEncodes written, ih.2⟩⟩
  have read : segments ("#" ++ String.join (raws.map ("/" ++ ·))) = .ok keys := by
    rw [segments_eq no_slash, keys_eq]
  exact ⟨read, by rw [canonical, read]; rfl⟩

-- Digits of both cases, and bytes within a character.
theorem segments_of_mixed : Encodes ["~a", "%é"] "#/%7e0a/%25%C3%a9" ∧
    segments "#/%7e0a/%25%C3%a9" = .ok ["~a", "%é"] ∧ canonical "#/%7e0a/%25%C3%a9" = .ok "#/~0a/%é" := by
  have encoded : Encodes ["~a", "%é"] "#/%7e0a/%25%C3%a9" := by
    have first : utf8 ("~a".toList.flatMap escapeChar) = [0x7E, 0x30, 0x61] := by decide
    have second : utf8 ("%é".toList.flatMap escapeChar) = [0x25, 0xC3, 0xA9] := by decide
    refine ⟨["%7e0a", "%25%C3%a9"], by decide, .cons (first ▸ ?_) (.cons (second ▸ ?_) .nil)⟩
    · exact .escaped (by decide) (by decide) (.literal (by decide) (.literal (by decide) .nil))
    · exact .escaped (by decide) (by decide) (.escaped (by decide) (by decide) (.escaped (by decide) (by decide) .nil))
  have canonical_eq : ofSegments ["~a", "%é"] = "#/~0a/%é" := by decide
  obtain ⟨read, canonical⟩ := segments_of_encodes encoded
  exact ⟨encoded, read, canonical_eq ▸ canonical⟩

end OpenApiClient.Pointer
