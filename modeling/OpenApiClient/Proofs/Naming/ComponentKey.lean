import OpenApiClient.Proofs.Naming.ClassName
import OpenApiClient.Proofs.Text.Pieces

/-!
The names that keys of components are folded to. Keys of the right characters have one as soon as there is a letter or
digit among them. It is made of these, with an underscore before it if it starts with a digit, and folding it again
changes nothing.
-/

namespace OpenApiClient

open Text

namespace Text

variable {c : Char}

theorem toUpper_alphanum (h : c.isAlphanum) : c.toUpper.isAlphanum ∧ c.toUpper.toUpper = c.toUpper :=
  Naming.ascii_forall (P := fun c => c.isAlphanum → c.toUpper.isAlphanum ∧ c.toUpper.toUpper = c.toUpper)
    (by decide +kernel) (toNat_of_isAlphanum h) h

-- Letters of ASCII have one letter of ASCII for upper case, which is its own upper case.
theorem upperChar_alphanum (h : c.isAlphanum) :
    ∃ upper, upperChar c = [upper] ∧ upper.isAlphanum ∧ upperChar upper = [upper] := by
  have mapped {c : Char} (h : c.isAlphanum) : upperChar c = [c.toUpper] := if_pos (toNat_of_isAlphanum h)
  have ⟨alphanum, again⟩ := toUpper_alphanum h
  exact ⟨c.toUpper, mapped h, alphanum, (mapped alphanum).trans (congrArg ([·]) again)⟩

end Text

namespace Naming

variable {key name : String} {words : List (List Char)} {s : List Char} {c : Char}

theorem isKeyChar_iff : isKeyChar c ↔ c.isAlphanum ∨ c = '.' ∨ c = '-' ∨ c = '_' := by
  simp [isKeyChar, isKeySeparator, or_assoc]

theorem not_isKeySeparator (h : c.isAlphanum) : isKeySeparator c = false := by
  rw [Bool.eq_false_iff]
  intro separates
  obtain (rfl | rfl) | rfl : (c = '.' ∨ c = '-') ∨ c = '_' := by simpa [isKeySeparator] using separates
  all_goals contradiction

-- What words of letters and digits are put together to.
structure IsFolded (s : List Char) : Prop where
  alphanum : ∀ c ∈ s, c.isAlphanum
  capitalized : upperFirst s = s

theorem isFolded_flatMap (hw : ∀ word ∈ words, word ≠ []) (hc : ∀ c ∈ words.flatten, c.isAlphanum) :
    IsFolded (words.flatMap upperFirst) := by
  have alphanum : ∀ word ∈ words, ∀ c ∈ upperFirst word, c.isAlphanum := by
    intro word mem
    have chars : ∀ c ∈ word, c.isAlphanum := fun c hc' => hc c (List.mem_flatten.mpr ⟨word, mem, hc'⟩)
    cases word with
    | nil => exact absurd rfl (hw _ mem)
    | cons first rest =>
      obtain ⟨first, rest⟩ := List.forall_mem_cons.mp chars
      obtain ⟨upper, mapped, letter, -⟩ := upperChar_alphanum first
      rw [upperFirst, mapped]
      exact List.forall_mem_cons.mpr ⟨letter, rest⟩
  constructor
  case alphanum =>
    intro c hc
    obtain ⟨word, mem, hc⟩ := List.mem_flatMap.mp hc
    exact alphanum word mem c hc
  case capitalized =>
    cases words with
    | nil => rfl
    | cons word others =>
      cases word with
      | nil => exact absurd rfl (hw [] List.mem_cons_self)
      | cons first word =>
        obtain ⟨upper, mapped, -, again⟩ := upperChar_alphanum (hc first (by simp))
        simp [upperFirst, mapped, again]

theorem flatMap_upperFirst_eq_nil_iff (hw : ∀ word ∈ words, word ≠ []) (hc : ∀ c ∈ words.flatten, c.isAlphanum) :
    words.flatMap upperFirst = [] ↔ words.flatten = [] := by
  cases words with
  | nil => simp
  | cons word others =>
    cases word with
    | nil => exact absurd rfl (hw [] List.mem_cons_self)
    | cons first word =>
      obtain ⟨upper, mapped, -⟩ := upperChar_alphanum (hc first (by simp))
      simp [upperFirst, mapped]

-- The stretches of a key between separators, put together.
def stretches (key : String) : List Char := (pieces isKeySeparator key.toList).flatMap upperFirst

theorem ofComponentKey_eq (key : String) : ofComponentKey key =
    if key.toList.all isKeyChar ∧ stretches key ≠ [] then .ok (String.ofList (guardDigit (stretches key)))
    else .error (.invalidComponentKey key) := by
  unfold ofComponentKey
  simp [stretches]

theorem isFolded_stretches (h : key.toList.all isKeyChar) : IsFolded (stretches key) := by
  refine isFolded_flatMap (fun word => ne_nil_of_mem_pieces) ?_
  rw [flatten_pieces]
  intro c hc
  obtain ⟨mem, kept⟩ := List.mem_filter.mp hc
  have allowed := List.all_eq_true.mp h c mem
  simp_all [isKeyChar]

-- Nothing is left of a key exactly if there are only separators in it.
theorem stretches_eq_nil_iff (h : key.toList.all isKeyChar) :
    stretches key = [] ↔ ∀ c ∈ key.toList, c.isAlphanum = false := by
  have chars := flatten_pieces isKeySeparator key.toList
  have kept : ∀ c ∈ key.toList, (!isKeySeparator c) = c.isAlphanum := by
    intro c hc
    have allowed := List.all_eq_true.mp h c hc
    cases alphanum : c.isAlphanum with
    | true => simp [not_isKeySeparator alphanum]
    | false => simpa [isKeyChar, alphanum] using allowed
  rw [List.filter_congr kept] at chars
  rw [stretches, flatMap_upperFirst_eq_nil_iff (fun word => ne_nil_of_mem_pieces), chars, List.filter_eq_nil_iff]
  · simp
  · rw [chars]
    exact fun c hc => (List.mem_filter.mp hc).2

-- A folded name is one stretch, whether or not it has an underscore before it.
theorem stretches_guardDigit (h : IsFolded s) (some_char : s ≠ []) : stretches (String.ofList (guardDigit s)) = s := by
  have whole : pieces isKeySeparator s = [s] :=
    pieces_eq_self (fun c hc => not_isKeySeparator (h.alphanum c hc)) some_char
  have guarded : pieces isKeySeparator (guardDigit s) = [s] := by
    obtain ⟨c, rest, rfl⟩ := List.exists_cons_of_ne_nil some_char
    rw [guardDigit]
    split
    case isTrue => rw [pieces_cons (by decide), whole]
    case isFalse => exact whole
  simp [stretches, guarded, h.capitalized]

theorem guardDigit_chars (h : ∀ c ∈ s, c.isAlphanum) (hc : c ∈ guardDigit s) : c.isAlphanum ∨ c = '_' := by
  cases s with
  | nil => exact absurd hc List.not_mem_nil
  | cons first rest =>
    rw [guardDigit] at hc
    split at hc
    case isTrue => exact (List.mem_cons.mp hc).symm.imp_left (h c)
    case isFalse => exact .inl (h c hc)

-- The only underscore is before a digit that the name would start with.
theorem guardDigit_eq_append (h : ∀ c ∈ s, c.isAlphanum) {before after : List Char}
    (underscore : guardDigit s = before ++ '_' :: after) : before = [] ∧ startsWithDigit after := by
  have absent : '_' ∉ s := fun there => absurd (h _ there) (by decide)
  cases s with
  | nil => simp [guardDigit] at underscore
  | cons c rest =>
    rw [guardDigit] at underscore
    split at underscore
    case isTrue digit =>
      cases before with
      | nil =>
        obtain rfl := (List.cons.inj underscore).2
        exact ⟨rfl, by simpa [startsWithDigit] using digit⟩
      | cons first before => exact absurd ((List.cons.inj underscore).2 ▸ by simp) absent
    case isFalse => exact absurd (underscore ▸ by simp) absent

theorem ofComponentKey_eq_ok_iff : ofComponentKey key = .ok name ↔
    (key.toList.all isKeyChar ∧ stretches key ≠ []) ∧ name = String.ofList (guardDigit (stretches key)) := by
  rw [ofComponentKey_eq]
  split
  case isTrue valid => simp [valid, eq_comm]
  case isFalse invalid => exact iff_of_false nofun fun h => invalid h.1

theorem named_iff : (key.toList.all isKeyChar ∧ stretches key ≠ []) ↔
    (∀ c ∈ key.toList, c.isAlphanum ∨ c = '.' ∨ c = '-' ∨ c = '_') ∧ ∃ c ∈ key.toList, c.isAlphanum := by
  have chars : key.toList.all isKeyChar ↔ ∀ c ∈ key.toList, c.isAlphanum ∨ c = '.' ∨ c = '-' ∨ c = '_' := by
    simp only [List.all_eq_true, isKeyChar_iff]
  rw [← chars]
  refine and_congr_right fun h => ?_
  rw [ne_eq, stretches_eq_nil_iff h]
  simp

-- Folding a name again changes nothing.
theorem ofComponentKey_guardDigit (h : IsFolded s) (some_char : s ≠ []) :
    ofComponentKey (String.ofList (guardDigit s)) = .ok (String.ofList (guardDigit s)) := by
  have chars : (String.ofList (guardDigit s)).toList.all isKeyChar := by
    rw [String.toList_ofList]
    refine List.all_eq_true.mpr fun c hc => isKeyChar_iff.mpr ?_
    exact (guardDigit_chars h.alphanum hc).imp_right fun underscore => .inr (.inr underscore)
  rw [ofComponentKey_eq_ok_iff, stretches_guardDigit h some_char]
  exact ⟨⟨chars, some_char⟩, rfl⟩

-- The keys that have names, and what these are like.
theorem ofComponentKey_folds (key : String) :
    ((∃ name, ofComponentKey key = .ok name) ↔
      (∀ c ∈ key.toList, c.isAlphanum ∨ c = '.' ∨ c = '-' ∨ c = '_') ∧ ∃ c ∈ key.toList, c.isAlphanum) ∧
    (∀ e, ofComponentKey key = .error e → e = .invalidComponentKey key) ∧
    ∀ name, ofComponentKey key = .ok name →
      IsClassName name ∧ (∀ c ∈ name.toList, c.isAlphanum ∨ c = '_') ∧
      (∀ before after, name.toList = before ++ '_' :: after → before = [] ∧ startsWithDigit after) ∧
      ofComponentKey name = .ok name := by
  refine ⟨?succeeds, ?fails, ?folded⟩
  case succeeds =>
    rw [← named_iff]
    simp [ofComponentKey_eq_ok_iff]
  case fails =>
    intro e failed
    rw [ofComponentKey_eq] at failed
    split at failed
    case isTrue => contradiction
    case isFalse => exact (Except.error.inj failed).symm
  case folded =>
    intro name made
    obtain ⟨⟨chars, some_char⟩, rfl⟩ := ofComponentKey_eq_ok_iff.mp made
    have folded := isFolded_stretches chars
    refine ⟨isClassName_of_ofComponentKey made, ?ascii, ?underscore, ofComponentKey_guardDigit folded some_char⟩
    case ascii =>
      rw [String.toList_ofList]
      exact fun c hc => guardDigit_chars folded.alphanum hc
    case underscore =>
      rw [String.toList_ofList]
      exact fun before after => guardDigit_eq_append folded.alphanum

theorem petId_folds : ofComponentKey "__2.pet-id_X" = .ok "_2PetIdX" ∧ IsClassName "_2PetIdX" ∧
    (∀ c ∈ "_2PetIdX".toList, c.isAlphanum ∨ c = '_') ∧
    (∀ before after, "_2PetIdX".toList = before ++ '_' :: after → before = [] ∧ startsWithDigit after) ∧
    ofComponentKey "_2PetIdX" = .ok "_2PetIdX" ∧
    (¬ ∃ name, ofComponentKey "_.-" = .ok name) ∧ ¬ ∃ name, ofComponentKey "pet food" = .ok name := by
  have made : ofComponentKey "__2.pet-id_X" = .ok "_2PetIdX" := by decide +kernel
  have separators_only : ¬ "_.-".toList.any Char.isAlphanum := by decide
  have blank : ' ' ∈ "pet food".toList ∧ ¬ (' '.isAlphanum ∨ ' ' = '.' ∨ ' ' = '-' ∨ ' ' = '_') := by decide
  obtain ⟨legal, ascii, underscore, again⟩ := (ofComponentKey_folds _).2.2 _ made
  exact ⟨made, legal, ascii, underscore, again, fun h =>
      separators_only (List.any_eq_true.mpr ((ofComponentKey_folds _).1.mp h).2),
    fun h => blank.2 (((ofComponentKey_folds _).1.mp h).1 ' ' blank.1)⟩

end Naming

end OpenApiClient
