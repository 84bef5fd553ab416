import OpenApiClient.Reference.Node
import Std.Data.String.ToNat

/-!
Pointers that are built from segments: none of them can be read in two ways.
-/

namespace OpenApiClient

theorem Text.replaceAll_singleton (c : Char) (replacement s : List Char) :
    replaceAll [c] replacement s = s.flatMap fun x => if x = c then replacement else [x] := by
  unfold replaceAll
  induction s with
  | nil => rfl
  | cons x rest ih =>
    by_cases h : x = c
    case pos => simp [replaceFrom, h, ih]
    case neg => simp [replaceFrom, h, Ne.symm h, ih]

-- A text can be taken apart again if nothing that is written for a character is empty or begins what is written for
-- another one.
theorem Text.flatMap_injective {write : Char → List Char} (ne_nil : ∀ c, write c ≠ [])
    (apart : ∀ c d s t, write c ++ s = write d ++ t → c = d ∧ s = t) :
    Function.Injective fun s : List Char => s.flatMap write := by
  intro s t h
  induction s generalizing t <;> cases t
  case nil.nil => rfl
  case nil.cons | cons.nil => simp [ne_nil] at h
  case cons.cons ih _ _ =>
    have ⟨hc, ht⟩ := apart _ _ _ _ h
    rw [hc, ih ht]

namespace Pointer

-- What a character of a key becomes in a segment.
def escapeChar (c : Char) : List Char :=
  if c = '~' then ['~', '0'] else if c = '/' then ['~', '1'] else [c]

theorem toList_escapeSegment (key : String) :
    (escapeSegment key).toList = key.toList.flatMap escapeChar := by
  simp only [escapeSegment, Text.replaceAll_singleton, String.toList_ofList, List.flatMap_assoc]
  congr 1
  funext c
  by_cases h : c = '~'
  case pos => simp [escapeChar, h]
  case neg => simp [escapeChar, h]

theorem slash_not_mem_escapeSegment (key : String) : '/' ∉ (escapeSegment key).toList := by
  rw [toList_escapeSegment, List.mem_flatMap]
  intro ⟨c, _, h⟩
  grind [escapeChar]

theorem flatMap_escapeChar_injective : Function.Injective fun s : List Char => s.flatMap escapeChar :=
  Text.flatMap_injective (by grind [escapeChar]) (by grind [escapeChar])

theorem escapeSegment_injective {a b : String} (h : escapeSegment a = escapeSegment b) : a = b := by
  have h := congrArg String.toList h
  rw [toList_escapeSegment, toList_escapeSegment] at h
  exact String.toList_inj.mp (flatMap_escapeChar_injective h)

-- A text without tildes and slashes is written as it is.
theorem escapeSegment_eq_self {key : String} (h : key.toList.all fun c => c != '~' && c != '/') :
    escapeSegment key = key := by
  rw [← String.toList_inj, toList_escapeSegment]
  generalize key.toList = s at h
  induction s with
  | nil => rfl
  | cons c s ih =>
    simp only [List.all_cons, Bool.and_eq_true, bne_iff_ne] at h
    simp [escapeChar, h.1, ih h.2]

@[simp] theorem escapeSegment_repr (i : Nat) : escapeSegment i.repr = i.repr := by
  apply escapeSegment_eq_self
  simp only [List.all_eq_true, Bool.and_eq_true, bne_iff_ne]
  intro c hc
  have := Nat.isDigit_of_mem_toDigits (by decide) (by decide) (Nat.toList_repr ▸ hc)
  constructor <;> rintro rfl <;> simp at this

-- What is not made of digits alone is no number.
theorem toString_ne {text : String} (h : text.toList.any (!·.isDigit)) (i : Nat) : text ≠ toString i := by
  rintro rfl
  obtain ⟨c, hc, no_digit⟩ := List.any_eq_true.mp h
  have := Nat.isDigit_of_mem_toDigits (by decide) (by decide) (Nat.toList_repr ▸ hc)
  simp [this] at no_digit

theorem ofSegments_append (a b : List String) :
    ofSegments (a ++ b) = ofSegments a ++ String.join (b.map fun s => "/" ++ escapeSegment s) := by
  simp [ofSegments, String.append_assoc]

-- A segment ends where the next slash is, because no segment has one in it.
theorem segment_append_inj {a b : String} {s t : List Char}
    (hs : s = [] ∨ s.head? = some '/') (ht : t = [] ∨ t.head? = some '/')
    (h : (escapeSegment a).toList ++ s = (escapeSegment b).toList ++ t) : a = b ∧ s = t := by
  have before (key : String) {s : List Char} (hs : s = [] ∨ s.head? = some '/') :
      ((escapeSegment key).toList ++ s).takeWhile (· ≠ '/') = (escapeSegment key).toList := by
    rw [List.takeWhile_append_of_pos]
    · cases s <;> simp_all
    · have := slash_not_mem_escapeSegment key
      grind
  have he : (escapeSegment a).toList = (escapeSegment b).toList := by
    rw [← before a hs, h, before b ht]
  exact ⟨escapeSegment_injective (String.toList_inj.mp he), by simpa [he] using h⟩

theorem toList_ofSegments (segments : List String) : (ofSegments segments).toList =
    '#' :: segments.flatMap fun s => '/' :: (escapeSegment s).toList := by
  simp [ofSegments, List.flatMap_map]

theorem ofSegments_injective {a b : List String} (h : ofSegments a = ofSegments b) : a = b := by
  let text (segments : List String) : List Char :=
    segments.flatMap fun s => '/' :: (escapeSegment s).toList
  have starts (segments : List String) : text segments = [] ∨ (text segments).head? = some '/' := by
    cases segments <;> simp [text]
  replace h : text a = text b := by simpa [toList_ofSegments] using congrArg String.toList h
  induction a generalizing b <;> cases b
  case nil.nil => rfl
  case nil.cons | cons.nil => simp [text] at h
  case cons.cons ih _ _ =>
    have ⟨hxy, hab⟩ := segment_append_inj (starts _) (starts _) (List.cons.inj h).2
    rw [hxy, ih hab]

end Pointer

end OpenApiClient
