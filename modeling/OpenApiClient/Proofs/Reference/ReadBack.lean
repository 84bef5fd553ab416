import OpenApiClient.Proofs.Reference.Decoding

/-!
Keys in references. What is written for a key is read as the key again, unless there is a percent escape in the key: escapes
are taken back, though none is written for a percent sign.
-/

namespace OpenApiClient.Pointer

open Text

-- Somewhere a percent sign is followed by two bytes that make it an escape.
inductive HasEscape : List UInt8 → Prop
  | here {a b byte rest} : escapedByte? a b = some byte → HasEscape ('%'.toNat.toUInt8 :: a :: b :: rest)
  | later {byte rest} : HasEscape rest → HasEscape (byte :: rest)

-- The number of places where a tilde is followed by what may be written after one.
def pairs : List UInt8 → Nat
  | c :: d :: rest =>
    (if c = '~'.toNat.toUInt8 ∧ (d = '0'.toNat.toUInt8 ∨ d = '1'.toNat.toUInt8) then 1 else 0) + pairs (d :: rest)
  | _ => 0

-- What a byte of a key becomes in a segment.
def escapeByte (byte : UInt8) : List UInt8 :=
  if byte = '~'.toNat.toUInt8 then ['~'.toNat.toUInt8, '0'.toNat.toUInt8]
  else if byte = '/'.toNat.toUInt8 then ['~'.toNat.toUInt8, '1'.toNat.toUInt8]
  else [byte]

section

variable {c d byte a b : UInt8} {bytes rest : List UInt8}

-- No byte of an escape is changed in a segment, or part of a pair.
theorem of_escapedByte? (h : escapedByte? a b = some byte) :
    (a ≠ '~'.toNat.toUInt8 ∧ a ≠ '/'.toNat.toUInt8) ∧ b ≠ '~'.toNat.toUInt8 ∧ b ≠ '/'.toNat.toUInt8 := by
  obtain ⟨low, second, h⟩ := Option.bind_eq_some_iff.mp h
  have first : a = '+'.toNat.toUInt8 ∨ ∃ high, Json.Reader.hexValue? (Char.ofNat a.toNat) = some high := by
    split at h
    case isTrue sign => exact .inl sign
    case isFalse =>
      obtain ⟨high, first, -⟩ := Option.bind_eq_some_iff.mp h
      exact .inr ⟨high, first⟩
  refine ⟨⟨?_, ?_⟩, ?_, ?_⟩
  case refine_1 | refine_2 =>
    rintro rfl
    rcases first with sign | ⟨high, first⟩
    · exact absurd sign (by decide)
    · exact absurd first (Option.some_ne_none high).symm
  case refine_3 | refine_4 =>
    rintro rfl
    exact absurd second (Option.some_ne_none low).symm

theorem HasEscape.of_cons (h : HasEscape (c :: bytes)) (other : c ≠ '%'.toNat.toUInt8) : HasEscape bytes := by
  cases h with
  | here => contradiction
  | later escape => exact escape

theorem not_hasEscape_of_not_mem (h : '%'.toNat.toUInt8 ∉ bytes) : ¬ HasEscape bytes := by
  intro escape
  induction escape with
  | here => exact h List.mem_cons_self
  | later _ ih => exact ih fun among => h (List.mem_cons_of_mem _ among)

theorem HasEscape.exists_cons (h : HasEscape bytes) : ∃ c a b rest, bytes = c :: a :: b :: rest := by
  induction h with
  | here => exact ⟨_, _, _, _, rfl⟩
  | later _ ih =>
    obtain ⟨_, _, _, _, rfl⟩ := ih
    exact ⟨_, _, _, _, rfl⟩

theorem decodeBytes_eq_self (h : ¬ HasEscape bytes) : decodeBytes bytes = bytes := by
  fun_induction decodeBytes bytes with
  | case1 a b rest byte read => exact absurd (.here read) h
  | case2 a b rest _ ih => rw [ih fun escape => h (.later escape)]
  | case3 c a b rest _ ih => rw [ih fun escape => h (.later escape)]
  | case4 => rfl

theorem length_decodeBytes_le (bytes : List UInt8) : (decodeBytes bytes).length ≤ bytes.length := by
  fun_induction decodeBytes bytes with
  | case1 => simp only [List.length_cons]; omega
  | case2 => simp only [List.length_cons] at *; omega
  | case3 => simp only [List.length_cons] at *; omega
  | case4 => exact Nat.le_refl _

theorem length_decodeBytes_lt (h : HasEscape bytes) : (decodeBytes bytes).length < bytes.length := by
  fun_induction decodeBytes bytes with
  | case1 a b rest byte =>
    have le := length_decodeBytes_le rest
    simp only [List.length_cons]
    omega
  | case2 a b rest unread ih =>
    cases h with
    | here read => exact absurd (unread.symm.trans read) (Option.some_ne_none _).symm
    | later escape => exact Nat.succ_lt_succ (ih escape)
  | case3 c a b rest other ih =>
    cases h with
    | here => contradiction
    | later escape => exact Nat.succ_lt_succ (ih escape)
  | case4 short only =>
    obtain ⟨c, a, b, rest, same⟩ := h.exists_cons
    exact (only c a b rest same).elim

theorem pairs_cons (h : c ≠ '~'.toNat.toUInt8) (bytes : List UInt8) : pairs (c :: bytes) = pairs bytes := by
  cases bytes with
  | nil => rfl
  | cons d rest => rw [pairs, if_neg (fun pair => h pair.1), Nat.zero_add]

theorem pairs_pair (h : c = '~'.toNat.toUInt8 ∧ (d = '0'.toNat.toUInt8 ∨ d = '1'.toNat.toUInt8)) (rest : List UInt8) :
    pairs (c :: d :: rest) = 1 + pairs (d :: rest) := by
  rw [pairs, if_pos h]

theorem pairs_other (h : ¬ (c = '~'.toNat.toUInt8 ∧ (d = '0'.toNat.toUInt8 ∨ d = '1'.toNat.toUInt8))) (rest : List UInt8) :
    pairs (c :: d :: rest) = pairs (d :: rest) := by
  rw [pairs, if_neg h, Nat.zero_add]

theorem pairs_le_cons (c : UInt8) (bytes : List UInt8) : pairs bytes ≤ pairs (c :: bytes) := by
  cases bytes with
  | nil => exact Nat.le_refl _
  | cons => exact Nat.le_add_left _ _

-- Decoding takes no pair apart, because the bytes of a pair are in no escape.
theorem pairs_le (bytes : List UInt8) : pairs bytes ≤ pairs (decodeBytes bytes) := by
  fun_induction decodeBytes bytes with
  | case1 a b rest byte read ih =>
    obtain ⟨⟨ha, -⟩, hb, -⟩ := of_escapedByte? read
    rw [pairs_cons (by decide), pairs_cons ha, pairs_cons hb]
    exact Nat.le_trans ih (pairs_le_cons _ _)
  | case2 a b rest _ ih =>
    have percent : '%'.toNat.toUInt8 ≠ '~'.toNat.toUInt8 := by decide
    rw [pairs_cons percent, pairs_cons percent]
    exact ih
  | case3 c a b rest _ ih =>
    by_cases pair : c = '~'.toNat.toUInt8 ∧ (a = '0'.toNat.toUInt8 ∨ a = '1'.toNat.toUInt8)
    case pos =>
      have no_percent : a ≠ '%'.toNat.toUInt8 := by
        rintro rfl
        exact absurd pair.2 (by decide)
      rw [decodeBytes_cons no_percent] at ih ⊢
      rw [pairs_pair pair, pairs_pair pair]
      exact Nat.add_le_add_left ih 1
    case neg =>
      rw [pairs_other pair]
      exact Nat.le_trans ih (pairs_le_cons _ _)
  | case4 => exact Nat.le_refl _

end

section

variable {c : Char} {s : List Char} {key : String}

theorem pairs_append {bytes : List UInt8} (h : ∀ byte ∈ bytes, byte ≠ '~'.toNat.toUInt8) (rest : List UInt8) :
    pairs (bytes ++ rest) = pairs rest := by
  induction bytes with
  | nil => rfl
  | cons byte bytes ih =>
    obtain ⟨first, others⟩ := List.forall_mem_cons.mp h
    rw [List.cons_append, pairs_cons first, ih others]

-- A character makes a pair only if it is a tilde and the character after it is right.
theorem pairs_utf8 (h : ¬ (c = '~' ∧ (s.head? = some '0' ∨ s.head? = some '1'))) : pairs (utf8 (c :: s)) = pairs (utf8 s) := by
  have tilde : '~'.toNat < 128 := by decide
  by_cases first : c = '~'
  case pos =>
    subst first
    rw [utf8_cons_ascii tilde]
    have zero : '0'.toNat < 128 := by decide
    have one : '1'.toNat < 128 := by decide
    rw [← head?_utf8_iff zero, ← head?_utf8_iff one] at h
    cases bytes : utf8 s with
    | nil => rfl
    | cons byte rest => exact pairs_other (by simpa [bytes] using h) rest
  case neg =>
    rw [utf8_cons]
    refine pairs_append (fun byte hb => ?_) _
    rintro rfl
    exact first ((mem_utf8EncodeChar_iff tilde).mp hb)

-- Each pair that is taken back is a byte less.
theorem length_unescape (s : List Char) : (utf8 (unescape s)).length + pairs (utf8 s) = (utf8 s).length := by
  have length_cons {c : Char} (h : c.toNat < 128) (s : List Char) : (utf8 (c :: s)).length = (utf8 s).length + 1 := by
    rw [utf8_cons_ascii h, List.length_cons]
  have pair {d : Char} (hd : d = '0' ∨ d = '1') (s : List Char) : pairs (utf8 ('~' :: d :: s)) = 1 + pairs (utf8 s) ∧
      (utf8 ('~' :: d :: s)).length = (utf8 s).length + 2 := by
    have tilde : '~'.toNat < 128 := by decide
    have small : d.toNat < 128 := by rcases hd with rfl | rfl <;> decide
    have other : d.toNat.toUInt8 ≠ '~'.toNat.toUInt8 := by rcases hd with rfl | rfl <;> decide
    have digit : d.toNat.toUInt8 = '0'.toNat.toUInt8 ∨ d.toNat.toUInt8 = '1'.toNat.toUInt8 := by
      rcases hd with rfl | rfl <;> decide
    rw [utf8_cons_ascii tilde, utf8_cons_ascii small, pairs_pair ⟨rfl, digit⟩, pairs_cons other]
    exact ⟨rfl, rfl⟩
  fun_induction unescape s with
  | case1 c d s tilde ih =>
    obtain ⟨rfl, rfl⟩ := tilde
    have := pair (.inl rfl) s
    rw [length_cons (by decide)]
    omega
  | case2 c d s _ slash ih =>
    obtain ⟨rfl, rfl⟩ := slash
    have := pair (.inr rfl) s
    rw [length_cons (by decide)]
    omega
  | case3 c d s no_tilde no_slash ih =>
    have no_pair : ¬ (c = '~' ∧ ((d :: s).head? = some '0' ∨ (d :: s).head? = some '1')) := by
      rintro ⟨rfl, zero | one⟩
      · exact no_tilde ⟨rfl, Option.some.inj zero⟩
      · exact no_slash ⟨rfl, Option.some.inj one⟩
    rw [pairs_utf8 no_pair, utf8_cons c, utf8_cons c, List.length_append, List.length_append]
    omega
  | case4 short only =>
    rcases short with - | ⟨c, - | ⟨d, s⟩⟩
    · rfl
    · rw [pairs_utf8 (by simp)]
      rfl
    · exact (only c d s rfl).elim

end

section

variable {byte a b : UInt8} {bytes : List UInt8} {key : String}

theorem escapeByte_of_ne (h : byte ≠ '~'.toNat.toUInt8 ∧ byte ≠ '/'.toNat.toUInt8) : escapeByte byte = [byte] := by
  rw [escapeByte, if_neg h.1, if_neg h.2]

-- What is written for a byte is the byte, or it starts with a tilde.
theorem escapeByte_cases (byte : UInt8) : escapeByte byte = [byte] ∨ ∃ digit, digit ≠ '%'.toNat.toUInt8 ∧
    escapeByte byte = ['~'.toNat.toUInt8, digit] := by
  unfold escapeByte
  split
  case isTrue => exact .inr ⟨_, by decide, rfl⟩
  case isFalse =>
    split
    case isTrue => exact .inr ⟨_, by decide, rfl⟩
    case isFalse => exact .inl rfl

theorem flatMap_escapeByte (h : ∀ byte ∈ bytes, byte ≠ '~'.toNat.toUInt8 ∧ byte ≠ '/'.toNat.toUInt8) :
    bytes.flatMap escapeByte = bytes := by
  induction bytes with
  | nil => rfl
  | cons byte bytes ih =>
    obtain ⟨first, others⟩ := List.forall_mem_cons.mp h
    rw [List.flatMap_cons, escapeByte_of_ne first, ih others, List.singleton_append]

theorem utf8_escapeChar (c : Char) : utf8 (escapeChar c) = (String.utf8EncodeChar c).flatMap escapeByte := by
  have tilde : '~'.toNat < 128 := by decide
  have slash : '/'.toNat < 128 := by decide
  unfold escapeChar
  split
  case isTrue h =>
    subst h
    rfl
  case isFalse no_tilde =>
    split
    case isTrue h =>
      subst h
      rfl
    case isFalse no_slash =>
      have kept : ∀ byte ∈ String.utf8EncodeChar c, byte ≠ '~'.toNat.toUInt8 ∧ byte ≠ '/'.toNat.toUInt8 := by
        intro byte hb
        constructor
        all_goals rintro rfl
        · exact no_tilde ((mem_utf8EncodeChar_iff tilde).mp hb)
        · exact no_slash ((mem_utf8EncodeChar_iff slash).mp hb)
      rw [flatMap_escapeByte kept, utf8_cons]
      exact List.append_nil _

theorem utf8_escapeSegment (key : String) : utf8 (escapeSegment key).toList = (utf8 key.toList).flatMap escapeByte := by
  rw [toList_escapeSegment, utf8, utf8, List.flatMap_assoc, List.flatMap_assoc]
  exact congrArg (key.toList.flatMap ·) (funext utf8_escapeChar)

-- The first byte of what is written is that of the key, if it is a byte of an escape.
theorem exists_cons_of_escaped {rest : List UInt8} (h : bytes.flatMap escapeByte = a :: rest)
    (ha : a ≠ '~'.toNat.toUInt8) : ∃ others, bytes = a :: others ∧ others.flatMap escapeByte = rest := by
  cases bytes with
  | nil => contradiction
  | cons byte others =>
    rw [List.flatMap_cons] at h
    rcases escapeByte_cases byte with same | ⟨digit, -, written⟩
    · rw [same, List.singleton_append, List.cons.injEq] at h
      exact ⟨others, congrArg (· :: others) h.1, h.2⟩
    · rw [written] at h
      exact absurd (List.cons.inj h).1.symm ha

-- Escapes are written as they are, and no others come about.
theorem hasEscape_escaped_iff : HasEscape (bytes.flatMap escapeByte) ↔ HasEscape bytes := by
  constructor
  · intro h
    induction bytes with
    | nil => contradiction
    | cons byte bytes ih =>
      rw [List.flatMap_cons] at h
      rcases escapeByte_cases byte with same | ⟨digit, no_percent, written⟩
      · rw [same, List.singleton_append] at h
        generalize whole : bytes.flatMap escapeByte = escaped at h
        cases h with
        | later escape => exact .later (ih (whole ▸ escape))
        | here read =>
          obtain ⟨⟨ha, -⟩, hb, -⟩ := of_escapedByte? read
          obtain ⟨_, rfl, after⟩ := exists_cons_of_escaped whole ha
          obtain ⟨_, rfl, -⟩ := exists_cons_of_escaped after hb
          exact .here read
      · rw [written] at h
        exact .later (ih ((h.of_cons (by decide)).of_cons no_percent))
  · intro h
    induction h with
    | here read =>
      obtain ⟨first, second⟩ := of_escapedByte? read
      have percent : '%'.toNat.toUInt8 ≠ '~'.toNat.toUInt8 ∧ '%'.toNat.toUInt8 ≠ '/'.toNat.toUInt8 := by decide
      rw [List.flatMap_cons, List.flatMap_cons, List.flatMap_cons, escapeByte_of_ne percent, escapeByte_of_ne first,
        escapeByte_of_ne second]
      exact .here read
    | @later byte _ _ ih =>
      rw [List.flatMap_cons]
      rcases escapeByte_cases byte with same | ⟨digit, -, written⟩
      · exact same ▸ .later ih
      · exact written ▸ .later (.later ih)

end

-- A key without percent escapes, or with some that could not be taken back, because there would be no text then.
def ReadBack (key : String) : Prop :=
  ¬ HasEscape (utf8 key.toList) ∨ String.fromUTF8? ⟨(decodeBytes (utf8 (escapeSegment key).toList)).toArray⟩ = none

theorem decodeSegment_escapeSegment_iff {key : String} : decodeSegment (escapeSegment key) = key ↔ ReadBack key := by
  have unescaped : unescape (escapeSegment key).toList = key.toList := by
    rw [toList_escapeSegment, unescape_flatMap]
  have key_iff : decodeSegment (escapeSegment key) = key ↔
      unescape (percentDecode (escapeSegment key)).toList = key.toList := by
    rw [decodeSegment_eq, ← String.toList_inj, String.toList_ofList]
  rw [key_iff, ReadBack, ← hasEscape_escaped_iff, ← utf8_escapeSegment, percentDecode, toList_toUTF8]
  generalize escapeSegment key = raw at unescaped
  by_cases escape : HasEscape (utf8 raw.toList)
  case neg =>
    rw [decodeBytes_eq_self escape, fromUTF8?_utf8]
    exact iff_of_true unescaped (.inl escape)
  case pos =>
    cases decoded : String.fromUTF8? ⟨(decodeBytes (utf8 raw.toList)).toArray⟩ with
    | none => exact iff_of_true unescaped (.inr rfl)
    | some text =>
      have read := fromUTF8?_eq_some_iff.mp decoded
      have shorter := length_decodeBytes_lt escape
      have paired := pairs_le (utf8 raw.toList)
      have of_raw := length_unescape raw.toList
      have of_text := length_unescape text.toList
      rw [read] at shorter paired
      rw [unescaped] at of_raw
      refine iff_of_false (fun same => ?_) (by simp [escape])
      -- There are fewer bytes, and no fewer pairs to be taken back, than for the key.
      rw [Option.getD_some] at same
      rw [same] at of_text
      omega

theorem readBack_of_not_mem {key : String} (h : '%' ∉ key.toList) : ReadBack key := by
  have percent : '%'.toNat < 128 := by decide
  exact .inl (not_hasEscape_of_not_mem (mt (mem_utf8_iff percent).mp h))

theorem segments_ofSegments (keys : List String) :
    segments (ofSegments keys) = .ok (keys.map fun key => decodeSegment (escapeSegment key)) := by
  have no_slash : ∀ raw ∈ keys.map escapeSegment, '/' ∉ raw.toList :=
    List.forall_mem_map.mpr fun key _ => slash_not_mem_escapeSegment key
  have read := segments_eq no_slash
  rw [List.map_map, List.map_map] at read
  exact read

theorem segments_ofSegments_iff {keys : List String} : segments (ofSegments keys) = .ok keys ↔ ∀ key ∈ keys, ReadBack key := by
  have same := List.map_inj_left (l := keys) (f := fun key => decodeSegment (escapeSegment key)) (g := id)
  rw [List.map_id] at same
  rw [segments_ofSegments, Except.ok.injEq, same]
  exact forall₂_congr fun key _ => decodeSegment_escapeSegment_iff

end OpenApiClient.Pointer
