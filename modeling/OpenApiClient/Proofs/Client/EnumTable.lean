import OpenApiClient.Client.Literal
import OpenApiClient.Hint.Schema
import OpenApiClient.Proofs.Entries
import OpenApiClient.Proofs.Naming.Apart

/-!
The table of the cases of an enum: there is one case for each literal among the values, in the order in which the
literals first appear, with a label of its own, and what is looked up is found exactly if it is one of them.
-/

namespace OpenApiClient

namespace Literal

variable {a b : Literal} {literals : List Literal}

def hint : Literal → Hint
  | .string _ => .string
  | .int _    => .int
  | .float _  => .float
  | .bool _   => .bool

theorem intText_injective : Function.Injective Json.intText := by
  have digits {m n : Nat} (same : Nat.toDigits 10 m = Nat.toDigits 10 n) : m = n :=
    Nat.repr_injective (String.toList_inj.mp (by simpa using same))
  have no_sign {m : Nat} {rest : List Char} : Nat.toDigits 10 m ≠ '-' :: rest := by
    intro same
    have := Nat.isDigit_of_mem_toDigits (b := 10) (by decide) (by decide) (same ▸ List.mem_cons_self)
    contradiction
  intro m n same
  unfold Json.intText at same
  split at same <;> split at same
  case isTrue.isTrue =>
    have := digits (List.cons.inj same).2
    omega
  case isTrue.isFalse => exact absurd same.symm no_sign
  case isFalse.isTrue => exact absurd same no_sign
  case isFalse.isFalse =>
    have := digits same
    omega

-- Literals with one key are of one kind, and have one text.
theorem key_eq_iff : a.key = b.key ↔ a.hint = b.hint ∧ a.text = b.text := by
  have marks : a.mark = b.mark ↔ a.hint = b.hint := by
    cases a <;> cases b <;> simp [mark, hint]
  have length (l : Literal) : l.mark.toList.length = 1 := by
    cases l <;> simp [mark]
  rw [key, key, ← marks]
  constructor
  · intro same
    simp only [← String.toList_inj, String.toList_append, List.append_assoc] at same ⊢
    obtain ⟨marks, rest⟩ := List.append_inj same ((length a).trans (length b).symm)
    exact ⟨marks, List.append_cancel_left rest⟩
  · rintro ⟨marks, texts⟩
    rw [marks, texts]

-- The shortest digits of the floats among the literals tell them apart.
def FloatsTold (literals : List Literal) : Prop :=
  ∀ a ∈ literals, ∀ b ∈ literals, a.hint = .float → b.hint = .float → a.text = b.text → a = b

instance : Decidable (FloatsTold literals) :=
  inferInstanceAs (Decidable (∀ a ∈ literals, ∀ b ∈ literals, _))

theorem FloatsTold.key_inj (h : FloatsTold literals) (ha : a ∈ literals) (hb : b ∈ literals) (same : a.key = b.key) :
    a = b := by
  obtain ⟨kind, text⟩ := key_eq_iff.mp same
  cases a with
  | string =>
    cases b with
    | string => exact congrArg string text
    | int | float | bool => simp [hint] at kind
  | int =>
    cases b with
    | int => exact congrArg int (intText_injective (String.ofList_injective text))
    | string | float | bool => simp [hint] at kind
  | float =>
    cases b with
    | float => exact h _ ha _ hb rfl rfl text
    | string | int | bool => simp [hint] at kind
  | bool a =>
    cases b with
    | bool b => cases a <;> cases b <;> first | rfl | exact absurd text (by decide)
    | string | int | float => simp [hint] at kind

end Literal

theorem Schema.of_mem_scalarValues {values : List Json.Value} {value : Json.Value}
    (h : value ∈ scalarValues values) : ¬ value.isNull ∧ ¬ value.isStructured := by
  simp only [scalarValues] at h
  split at h
  case isTrue => contradiction
  case isFalse hs =>
    have := (List.mem_filter.mp h).2
    simp only [List.any_eq_true, not_exists, not_and] at hs
    exact ⟨by simpa using this, hs value h⟩

theorem Literal.hint_ofJson? {value : Json.Value} (hn : ¬ value.isNull) (hs : ¬ value.isStructured) :
    ∃ literal, ofJson? value = some literal ∧ literal.hint = Schema.literalHint value := by
  cases value with
  | null => exact absurd rfl hn
  | array | object => exact absurd rfl hs
  | string | bool => exact ⟨_, rfl, rfl⟩
  | number x =>
    cases x with
    | float => exact ⟨_, rfl, rfl⟩
    | int x =>
      simp only [ofJson?, Schema.literalHint, Json.Value.isSigned64, decide_eq_true_eq]
      split
      case isTrue => exact ⟨_, rfl, rfl⟩
      case isFalse => exact ⟨_, rfl, rfl⟩

namespace EnumTable

variable {t : EnumTable} {literals : List Literal} {l : Literal} {c : EnumCase}

-- The key of a literal leads to the position of its case, and the labels differ.
structure Sound (t : EnumTable) : Prop where
  positions : ∀ key i, t.positions.lookup key = some i ↔ ∃ c, t.cases[i]? = some c ∧ c.value.key = key
  labels : (t.cases.map (·.label)).Nodup

theorem Sound.lookup?_eq_some_iff (h : t.Sound) : t.lookup? l = some c ↔ c ∈ t.cases ∧ c.value.key = l.key := by
  rw [lookup?, Option.bind_eq_some_iff]
  constructor
  · rintro ⟨i, found, at_i⟩
    obtain ⟨c', at_i', same⟩ := (h.positions _ _).mp found
    obtain rfl := Option.some.inj (at_i.symm.trans at_i')
    exact ⟨List.mem_of_getElem? at_i, same⟩
  · rintro ⟨mem, same⟩
    obtain ⟨i, at_i⟩ := List.getElem?_of_mem mem
    exact ⟨i, (h.positions _ _).mpr ⟨c, at_i, same⟩, at_i⟩

theorem Sound.lookup?_eq_none_iff (h : t.Sound) : t.lookup? l = none ↔ ∀ c ∈ t.cases, c.value.key ≠ l.key := by
  rw [Option.eq_none_iff_forall_ne_some]
  simp only [ne_eq, h.lookup?_eq_some_iff, not_and]

theorem numbered_injective (base : String) : Function.Injective fun i => id (Naming.numbered base i) := by
  intro i j same
  simp only [id, Naming.numbered_eq, String.append_right_inj] at same
  exact Naming.numberSuffix_injective same

-- A literal is new exactly if no case has its key.
theorem Sound.add_eq (h : t.Sound) (l : Literal) :
    (∃ c ∈ t.cases, c.value.key = l.key) ∧ t.add l = t ∨
    (∀ c ∈ t.cases, c.value.key ≠ l.key) ∧ ∃ label, label ∉ t.cases.map (·.label) ∧
      t.add l = ⟨t.cases ++ [⟨label, l⟩], (l.key, t.cases.length) :: t.positions⟩ := by
  unfold add
  split
  case h_1 i found =>
    obtain ⟨c, at_i, same⟩ := (h.positions _ _).mp found
    exact .inl ⟨⟨c, List.mem_of_getElem? at_i, same⟩, rfl⟩
  case h_2 not_found =>
    refine .inr ⟨fun c mem same => ?_, _, Naming.firstFree_not_mem (numbered_injective _), rfl⟩
    obtain ⟨i, at_i⟩ := List.getElem?_of_mem mem
    have found := (h.positions l.key i).mpr ⟨c, at_i, same⟩
    rw [not_found] at found
    contradiction

theorem Sound.add (h : t.Sound) (l : Literal) : (t.add l).Sound := by
  obtain ⟨-, same⟩ | ⟨fresh, label, free, added⟩ := h.add_eq l
  case inl => exact same.symm ▸ h
  rw [added]
  constructor
  case positions =>
    intro key i
    have at_i {c : EnumCase} : (t.cases ++ [⟨label, l⟩])[i]? = some c ↔
        t.cases[i]? = some c ∨ t.cases.length = i ∧ ⟨label, l⟩ = c := by
      grind
    have at_i : (∃ c, (t.cases ++ [⟨label, l⟩])[i]? = some c ∧ c.value.key = key) ↔
        (∃ c, t.cases[i]? = some c ∧ c.value.key = key) ∨ t.cases.length = i ∧ l.key = key := by
      simp [at_i, or_and_right, exists_or, and_assoc]
    rw [at_i, List.lookup_cons]
    cases known : key == l.key with
    | true =>
      obtain rfl := eq_of_beq known
      have nowhere : ¬ ∃ c, t.cases[i]? = some c ∧ c.value.key = l.key := by
        rintro ⟨c, at_i, same⟩
        exact fresh c (List.mem_of_getElem? at_i) same
      rw [or_iff_right nowhere, and_iff_left rfl, Option.some.injEq]
    | false =>
      have other : l.key ≠ key := fun same => ne_of_beq_false known same.symm
      rw [or_iff_left fun last => other last.2]
      exact h.positions key i
  case labels =>
    rw [List.map_append]
    exact List.concat_eq_append ▸ h.labels.concat free

theorem sound_ofLiterals (literals : List Literal) : (ofLiterals literals).Sound :=
  List.foldlRecOn literals EnumTable.add ⟨by simp, List.nodup_nil⟩ fun _ h l _ => h.add l

theorem ofLiterals_concat (literals : List Literal) (l : Literal) :
    ofLiterals (literals ++ [l]) = (ofLiterals literals).add l := by
  rw [ofLiterals, List.foldl_append]
  rfl

theorem values_ofLiterals (h : Literal.FloatsTold literals) :
    (ofLiterals literals).cases.map (·.value) = literals.eraseDups := by
  induction literals using List.reverseRecOn with
  | nil => rfl
  | append_singleton literals l ih =>
    have values := ih fun a ha b hb => h a (List.mem_append_left _ ha) b (List.mem_append_left _ hb)
    rw [ofLiterals_concat, eraseDups_concat]
    obtain ⟨⟨c, mem, same⟩, unchanged⟩ | ⟨fresh, label, -, added⟩ := (sound_ofLiterals literals).add_eq l
    case inl =>
      have old : c.value ∈ literals := List.mem_eraseDups.mp (values ▸ List.mem_map_of_mem mem)
      obtain rfl := h.key_inj (List.mem_append_left _ old) (List.mem_append_right _ (List.mem_singleton_self l)) same
      rw [unchanged, values, if_pos old]
    case inr =>
      have new : l ∉ literals := by
        intro old
        obtain ⟨c, mem, rfl⟩ := List.mem_map.mp (values ▸ List.mem_eraseDups.mpr old)
        exact fresh c mem rfl
      simp [added, values, new]

theorem mem_iff_exists_case (h : Literal.FloatsTold literals) :
    l ∈ literals ↔ ∃ c ∈ (ofLiterals literals).cases, c.value = l := by
  rw [← List.mem_eraseDups, ← values_ofLiterals h, List.mem_map]

theorem exists_lookup? (h : Literal.FloatsTold literals) (hl : l ∈ literals) :
    ∃ c ∈ (ofLiterals literals).cases, c.value = l ∧ (ofLiterals literals).lookup? l = some c := by
  obtain ⟨c, hc, value⟩ := (mem_iff_exists_case h).mp hl
  exact ⟨c, hc, value, (sound_ofLiterals literals).lookup?_eq_some_iff.mpr ⟨hc, congrArg Literal.key value⟩⟩

theorem lookup?_eq_none (h : Literal.FloatsTold (l :: literals)) (hl : l ∉ literals) :
    (ofLiterals literals).lookup? l = none := by
  have told : Literal.FloatsTold literals := fun a ha b hb => h a (List.mem_cons_of_mem _ ha) b (List.mem_cons_of_mem _ hb)
  rw [(sound_ofLiterals literals).lookup?_eq_none_iff]
  intro c hc same
  have old := (mem_iff_exists_case told).mpr ⟨c, hc, rfl⟩
  exact absurd (h.key_inj (List.mem_cons_of_mem _ old) List.mem_cons_self same ▸ old) hl

section

variable {values : List Json.Value}

theorem literals_of_flat (flat : ∀ v ∈ values, ¬ v.isStructured) :
    (Schema.scalarValues values).filterMap Literal.ofJson? = values.filterMap Literal.ofJson? := by
  have scalars : ¬ (values.filter (!·.isNull)).any Json.Value.isStructured := by
    simp only [List.any_eq_true, not_exists, not_and]
    exact fun v mem => flat v (List.mem_of_mem_filter mem)
  rw [Schema.scalarValues, if_neg scalars, List.filterMap_filter]
  refine List.filterMap_congr fun v _ => ?_
  cases v <;> rfl

theorem ofValues_structured (h : ∃ v ∈ values, v.isStructured) : ofValues values = {} := by
  obtain ⟨v, mem, structured⟩ := h
  have not_null : v.isNull = false := by cases v <;> first | rfl | contradiction
  have some_structured : (values.filter (!·.isNull)).any Json.Value.isStructured :=
    List.any_eq_true.mpr ⟨v, List.mem_filter.mpr ⟨mem, by simp [not_null]⟩, structured⟩
  rw [ofValues, Schema.scalarValues, if_pos some_structured]
  rfl

-- The table for a list of values. Where no list or map is among them, there is one case for each literal, and only what
-- is among them is found.
theorem ofValues_faithful (values : List Json.Value) :
    ((∃ v ∈ values, v.isStructured) → ofValues values = {}) ∧
    ((∀ v ∈ values, ¬ v.isStructured) → Literal.FloatsTold (values.filterMap Literal.ofJson?) →
      (ofValues values).cases.map (·.value) = (values.filterMap Literal.ofJson?).eraseDups ∧
      ((ofValues values).cases.map (·.label)).Nodup ∧
      (∀ v ∈ values, ¬ v.isNull → ∃ l, Literal.ofJson? v = some l ∧
        ∃ c ∈ (ofValues values).cases, c.value = l ∧ (ofValues values).lookup? l = some c) ∧
      ∀ l ∉ values.filterMap Literal.ofJson?, Literal.FloatsTold (l :: values.filterMap Literal.ofJson?) →
        (ofValues values).lookup? l = none) := by
  refine ⟨ofValues_structured, fun flat told => ?_⟩
  rw [ofValues, literals_of_flat flat]
  refine ⟨values_ofLiterals told, (sound_ofLiterals _).labels, fun v mem not_null => ?_, fun l absent told => ?_⟩
  · obtain ⟨l, literal, -⟩ := Literal.hint_ofJson? not_null (flat v mem)
    exact ⟨l, literal, exists_lookup? told (List.mem_filterMap.mpr ⟨v, mem, literal⟩)⟩
  · exact lookup?_eq_none told absent

end

end EnumTable

namespace Sizes

-- Some of the literals have one text, some have one label, and the label of one is what another's is made into.
def values : List Json.Value :=
  [.string "1", .number (.int 1), .null, .number (.float ⟨false, 4503599627370496, -52⟩), .string "a-b", .bool true,
    .string "a_b", .string "Value12", .number (.int 18446744073709551615), .string "true", .number (.int 1)]

end Sizes

example : (EnumTable.ofValues Sizes.values).cases.map (fun c => (c.label, c.value.key)) =
    [("Value1", "s:1"), ("Value12", "i:1"), ("Value13", "f:1"), ("AB", "s:a-b"), ("True", "b:true"), ("AB2", "s:a_b"),
      ("Value122", "s:Value12"), ("Value18446744073709552000", "f:18446744073709552000"), ("True2", "s:true")] := by
  decide +kernel

theorem EnumTable.sizes_faithful : (∀ v ∈ Sizes.values, ¬ v.isStructured) ∧
    Literal.FloatsTold (Sizes.values.filterMap Literal.ofJson?) ∧
    (ofValues Sizes.values).cases.map (·.value) = (Sizes.values.filterMap Literal.ofJson?).eraseDups ∧
    ((ofValues Sizes.values).cases.map (·.label)).Nodup ∧
    (∃ c ∈ (ofValues Sizes.values).cases, c.value = .int 1 ∧ (ofValues Sizes.values).lookup? (.int 1) = some c) ∧
    Literal.int 2 ∉ Sizes.values.filterMap Literal.ofJson? ∧
    Literal.FloatsTold (.int 2 :: Sizes.values.filterMap Literal.ofJson?) ∧
    (ofValues Sizes.values).lookup? (.int 2) = none ∧ ofValues (.array [] :: Sizes.values) = {} := by
  have flat : ∀ v ∈ Sizes.values, ¬ v.isStructured := by decide
  have told : Literal.FloatsTold (.int 2 :: Sizes.values.filterMap Literal.ofJson?) := by decide +kernel
  have told' : Literal.FloatsTold (Sizes.values.filterMap Literal.ofJson?) := by decide +kernel
  have absent : Literal.int 2 ∉ Sizes.values.filterMap Literal.ofJson? := by decide
  obtain ⟨cases_eq, labels, found, missing⟩ := (ofValues_faithful Sizes.values).2 flat told'
  have mem : Json.Value.number (.int 1) ∈ Sizes.values := .tail _ (.head _)
  obtain ⟨l, literal, found⟩ := found _ mem (by decide)
  obtain rfl : Literal.int 1 = l := Option.some.inj literal
  exact ⟨flat, told', cases_eq, labels, found, absent, told, missing _ absent told,
    (ofValues_faithful _).1 ⟨_, List.mem_cons_self, rfl⟩⟩

end OpenApiClient
