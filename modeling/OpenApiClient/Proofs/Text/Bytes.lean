/-!
Text as bytes. A byte below 128 stands for itself; the bytes of all other characters are not below that.
-/

namespace OpenApiClient.Text

def utf8 (s : List Char) : List UInt8 := s.flatMap String.utf8EncodeChar

section

variable {c : Char} {b : UInt8} {s : List Char} {bytes : List UInt8} {text : String}

theorem loop_eq (bytes : ByteArray) (i : Nat) (before : List UInt8) :
    ByteArray.toList.loop bytes i before = before.reverse ++ bytes.data.toList.drop i := by
  fun_induction ByteArray.toList.loop bytes i before with
  | case1 i before h ih =>
    have inside : i < bytes.data.toList.length := by simpa using h
    rw [ih, List.drop_eq_getElem_cons inside]
    simp [ByteArray.get!, h]
  | case2 i before h =>
    rw [List.drop_eq_nil_of_le (by simpa using h)]
    simp

theorem utf8_cons (c : Char) (s : List Char) : utf8 (c :: s) = String.utf8EncodeChar c ++ utf8 s :=
  List.flatMap_cons

theorem utf8_toList (text : String) : utf8 text.toList = text.toByteArray.data.toList := by
  rw [← String.utf8Encode_toList, List.utf8Encode, List.toList_data_toByteArray]
  rfl

theorem toList_toUTF8 (text : String) : text.toUTF8.toList = utf8 text.toList := by
  rw [utf8_toList, ByteArray.toList, loop_eq]
  simp

theorem fromUTF8?_eq_some_iff : String.fromUTF8? ⟨bytes.toArray⟩ = some text ↔ bytes = utf8 text.toList := by
  have whole : text.toByteArray = ⟨bytes.toArray⟩ ↔ bytes = utf8 text.toList := by
    rw [utf8_toList, ByteArray.ext_iff, ← Array.toList_inj, eq_comm]
  rw [← whole, String.fromUTF8?, Option.dite_none_right_eq_some]
  constructor
  · rintro ⟨valid, same⟩
    exact Option.some.inj same ▸ rfl
  · intro same
    exact ⟨same ▸ text.isValidUTF8, congrArg some (String.toByteArray_inj.mp same.symm)⟩

theorem fromUTF8?_utf8 (text : String) : String.fromUTF8? ⟨(utf8 text.toList).toArray⟩ = some text :=
  fromUTF8?_eq_some_iff.mpr rfl

-- A character of ASCII is one byte, and all bytes of other characters are beyond ASCII.
theorem utf8EncodeChar_cases (c : Char) : (c.toNat < 128 ∧ String.utf8EncodeChar c = [c.toNat.toUInt8]) ∨
    (128 ≤ c.toNat ∧ ∀ b ∈ String.utf8EncodeChar c, 128 ≤ b.toNat) := by
  have marked {x y mark : UInt8} (h : 128 ≤ mark.toNat) : 128 ≤ (x &&& y ||| mark).toNat := by
    rw [UInt8.toNat_or]
    exact Nat.le_trans h Nat.right_le_or
  have ascii : c.utf8Size = 1 ↔ c.toNat < 128 := by
    rw [Char.utf8Size_eq_one_iff, UInt32.le_iff_toNat_le]
    exact Nat.lt_succ_iff.symm
  by_cases small : c.toNat < 128
  case pos => exact .inl ⟨small, String.utf8EncodeChar_eq_singleton (ascii.mpr small)⟩
  case neg =>
    refine .inr ⟨Nat.le_of_not_lt small, ?_⟩
    rcases Char.utf8Size_eq c with size | size | size | size
    · exact absurd (ascii.mp size) small
    · rw [String.utf8EncodeChar_eq_cons_cons size]
      simp only [List.forall_mem_cons]
      exact ⟨marked (by decide), marked (by decide), List.forall_mem_nil _⟩
    · rw [String.utf8EncodeChar_eq_cons_cons_cons size]
      simp only [List.forall_mem_cons]
      exact ⟨marked (by decide), marked (by decide), marked (by decide), List.forall_mem_nil _⟩
    · rw [String.utf8EncodeChar_eq_cons_cons_cons_cons size]
      simp only [List.forall_mem_cons]
      exact ⟨marked (by decide), marked (by decide), marked (by decide), marked (by decide), List.forall_mem_nil _⟩

theorem toNat_ascii (h : c.toNat < 128) : c.toNat.toUInt8.toNat = c.toNat :=
  Nat.mod_eq_of_lt (Nat.lt_trans h (by decide))

-- Which characters a byte below 128 is from.
theorem mem_utf8EncodeChar_iff {d : Char} (h : c.toNat < 128) : c.toNat.toUInt8 ∈ String.utf8EncodeChar d ↔ d = c := by
  rcases utf8EncodeChar_cases d with ⟨small, single⟩ | ⟨large, bytes⟩
  · rw [single, List.mem_singleton, ← UInt8.toNat_inj, toNat_ascii h, toNat_ascii small, Char.toNat_inj, eq_comm]
  · refine iff_of_false (fun among => ?_) (by rintro rfl; exact Nat.not_lt.mpr large h)
    exact Nat.not_lt.mpr (toNat_ascii h ▸ bytes _ among) h

theorem mem_utf8_iff (h : c.toNat < 128) : c.toNat.toUInt8 ∈ utf8 s ↔ c ∈ s := by
  simp only [utf8, List.mem_flatMap, mem_utf8EncodeChar_iff h, exists_eq_right]

theorem utf8_cons_ascii (h : c.toNat < 128) (s : List Char) : utf8 (c :: s) = c.toNat.toUInt8 :: utf8 s := by
  rcases utf8EncodeChar_cases c with ⟨-, single⟩ | ⟨large, -⟩
  · rw [utf8_cons, single]
    rfl
  · exact absurd h (Nat.not_lt.mpr large)

theorem head?_utf8_iff (h : c.toNat < 128) : (utf8 s).head? = some c.toNat.toUInt8 ↔ s.head? = some c := by
  cases s with
  | nil => exact iff_of_false (Option.some_ne_none _).symm (Option.some_ne_none _).symm
  | cons d s =>
    rw [List.head?_cons, Option.some_inj]
    rcases utf8EncodeChar_cases d with ⟨small, -⟩ | ⟨large, bytes⟩
    · rw [utf8_cons_ascii small, List.head?_cons, Option.some_inj, ← UInt8.toNat_inj, toNat_ascii h, toNat_ascii small,
        Char.toNat_inj]
    · refine iff_of_false (fun same => ?_) (by rintro rfl; exact Nat.not_lt.mpr large h)
      cases encoded : String.utf8EncodeChar d with
      | nil => exact String.utf8EncodeChar_ne_nil encoded
      | cons first others =>
        rw [utf8_cons, encoded, List.cons_append, List.head?_cons, Option.some_inj] at same
        exact Nat.not_lt.mpr (toNat_ascii h ▸ same ▸ bytes first (encoded ▸ List.mem_cons_self)) h

end

end OpenApiClient.Text
