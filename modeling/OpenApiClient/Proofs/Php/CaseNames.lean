import OpenApiClient.Php.Enumeration
import OpenApiClient.Proofs.Client.EnumTable
import OpenApiClient.Proofs.Naming.Casing
import OpenApiClient.Proofs.Pointer

/-!
The names of the cases that an enum declares. A label is a legal name whatever literal it is made from, and what is made
of it to keep it apart from reserved names and from the cases before it is one, too.
-/

namespace OpenApiClient

open Naming

namespace Literal

variable {text : List Char} {c : Char}

-- What numbers are written with.
def IsNumberChar (c : Char) : Prop := c.isDigit ∨ c = '-' ∨ c = '.'

theorem isNumberChar_of_mem_toDigits {n : Nat} (h : c ∈ Nat.toDigits 10 n) : IsNumberChar c :=
  .inl (Nat.isDigit_of_mem_toDigits (by decide) (by decide) h)

theorem isNumberChar_of_mem_intText {n : Int} (h : c ∈ Json.intText n) : IsNumberChar c := by
  unfold Json.intText at h
  split at h
  case isTrue =>
    rcases List.mem_cons.mp h with rfl | h
    · exact .inr (.inl rfl)
    · exact isNumberChar_of_mem_toDigits h
  case isFalse => exact isNumberChar_of_mem_toDigits h

theorem isNumberChar_of_mem_positionalText {style : NumberStyle} {digits : List Char} (hd : ∀ c ∈ digits, IsNumberChar c)
    (last : Int) (h : c ∈ style.positionalText digits last) : IsNumberChar c := by
  have zero : ∀ n, ∀ c ∈ List.replicate n '0', IsNumberChar c := by
    intro n c hc
    exact .inl (List.eq_of_mem_replicate hc ▸ rfl)
  revert c
  unfold NumberStyle.positionalText
  split
  case isTrue =>
    simp only [List.forall_mem_append]
    refine ⟨⟨hd, zero _⟩, ?_⟩
    split
    case isTrue => exact List.forall_mem_cons.mpr ⟨.inr (.inr rfl), zero 1⟩
    case isFalse => exact List.forall_mem_nil _
  case isFalse =>
    have padded := List.forall_mem_append.mpr ⟨zero ((-last).toNat + 1 - digits.length), hd⟩
    simp only [List.forall_mem_append, List.forall_mem_cons]
    exact ⟨fun c hc => padded c (List.mem_of_mem_take hc), .inr (.inr rfl), fun c hc => padded c (List.mem_of_mem_drop hc)⟩

theorem isNumberChar_of_mem_write {x : Binary64} (h : c ∈ NumberStyle.plain.write x) : IsNumberChar c := by
  have text {digits : Nat} {last : Int} (h : c ∈ NumberStyle.plain.positionalText (Nat.toDigits 10 digits) last) :
      IsNumberChar c := isNumberChar_of_mem_positionalText (fun c hc => isNumberChar_of_mem_toDigits hc) last h
  have positional (e : Int) : NumberStyle.plain.positional e := rfl
  simp only [NumberStyle.write, positional, Bool.or_true, if_true] at h
  split at h
  case isTrue =>
    rcases List.mem_cons.mp h with rfl | h
    · exact .inr (.inl rfl)
    · exact text h
  case isFalse => exact text h

theorem isClassName_numberLabel (h : ∀ c ∈ text, IsNumberChar c) : IsClassName (numberLabel text) := by
  have word : IsClassName "Value" := by decide
  have minus : ∀ c ∈ "Minus".toList, isNameChar c := (by decide : IsWord "Minus").chars
  have underscore : isNameChar '_' := by decide
  delta numberLabel
  rw [String.ofList_append, String.ofList_toList]
  refine word.append ?_
  simp only [String.toList_ofList, Text.replaceAll_singleton, List.mem_flatMap]
  rintro x ⟨spelled, ⟨c, hc, from_c⟩, from_spelled⟩
  have kept : isNameChar spelled ∨ spelled = '.' := by
    split at from_c
    case isTrue => exact .inl (minus _ from_c)
    case isFalse no_sign =>
      obtain rfl := List.mem_singleton.mp from_c
      rcases h _ hc with digit | sign | dot
      · exact .inl (by simp [isNameChar, digit])
      · exact absurd sign no_sign
      · exact .inr dot
  split at from_spelled
  case isTrue =>
    obtain rfl := List.mem_singleton.mp from_spelled
    exact underscore
  case isFalse no_dot =>
    obtain rfl := List.mem_singleton.mp from_spelled
    exact kept.resolve_right no_dot

theorem isClassName_stringLabel (text : List Char) : IsClassName (stringLabel text) := by
  have empty : IsClassName "Empty" := by decide
  have word : IsClassName "Value" := by decide
  have chars := Text.isNameChar_of_mem_pascalCase text
  unfold stringLabel
  split
  case h_1 => exact empty
  case h_2 c rest cased =>
    rw [cased] at chars
    split
    case isTrue =>
      rw [String.ofList_append, String.ofList_toList]
      exact word.append (by simpa using chars)
    case isFalse no_digit =>
      exact {
        ne_empty := by simp
        chars := by simpa using chars
        start := by simpa [startsWithDigit] using no_digit }

theorem isClassName_label (l : Literal) : IsClassName l.label := by
  cases l with
  | string s => exact isClassName_stringLabel s.toList
  | int n => exact isClassName_numberLabel fun c hc => isNumberChar_of_mem_intText hc
  | float x => exact isClassName_numberLabel fun c hc => isNumberChar_of_mem_write hc
  | bool b => cases b <;> exact (by decide)

end Literal

namespace Naming

variable {fold : String → String} {taken reserved : List String} {base name : String}

theorem isNameChar_of_mem_numberSuffix (i : Nat) : ∀ c ∈ (numberSuffix i).toList, isNameChar c := by
  intro c hc
  simp [isNameChar, numberSuffix_digits i c hc]

-- A legal name has legal numbered forms only.
theorem IsClassName.firstFree (inj : Function.Injective fun i => fold (numbered base i)) (h : IsClassName base) :
    IsClassName (firstFree fold taken base) := by
  obtain ⟨i, form⟩ := (tries_firstFree inj).exists_form
  rw [form, numbered_eq]
  exact h.append (isNameChar_of_mem_numberSuffix i)

theorem foldCase_numbered (base : String) (i : Nat) : foldCase (numbered base i) = foldCase base ++ numberSuffix i := by
  have folded : foldCase (numberSuffix i) = numberSuffix i := by
    have same := List.map_congr_left fun c hc => toLower_of_isDigit (.inl (numberSuffix_digits i c hc))
    rw [foldCase, same, List.map_id', String.ofList_toList]
  rw [numbered_eq, foldCase_append, folded]

theorem foldCase_numbered_injective (base : String) : Function.Injective fun i => foldCase (numbered base i) := by
  intro i j same
  simp only [foldCase_numbered, String.append_right_inj] at same
  exact numberSuffix_injective same

-- Names to be avoided for which no name can be avoided in vain: they are in lower case, they have no digits, and with
-- `Case` behind it none of them becomes another one.
structure Avoidable (reserved : List String) : Prop where
  folded : ∀ name ∈ reserved, foldCase name = name
  undigited : ∀ name ∈ reserved, name.toList.all (!·.isDigit)
  extended : ∀ name ∈ reserved, name ++ foldCase "Case" ∉ reserved

theorem Avoidable.numbered_not_mem (h : Avoidable reserved) (hb : foldCase base ∉ reserved) (i : Nat) :
    foldCase (numbered base i) ∉ reserved := by
  rw [foldCase_numbered]
  cases i with
  | zero => simpa [numberSuffix] using hb
  | succ i =>
    intro there
    obtain ⟨c, hc⟩ := List.exists_mem_of_ne_nil (numberSuffix (i + 1)).toList (by simp [numberSuffix])
    have undigited := List.all_eq_true.mp (h.undigited _ there) c (String.toList_append ▸ List.mem_append_right _ hc)
    simp [numberSuffix_digits _ c hc] at undigited

end Naming

theorem EnumTable.isClassName_label (literals : List Literal) :
    ∀ c ∈ (ofLiterals literals).cases, IsClassName c.label := by
  have none_yet : ∀ c ∈ ({} : EnumTable).cases, IsClassName c.label := List.forall_mem_nil _
  refine List.foldlRecOn (motive := (∀ c ∈ ·.cases, IsClassName c.label)) literals add none_yet fun t legal l _ => ?_
  unfold add
  split
  case h_1 => exact legal
  case h_2 =>
    refine List.forall_mem_append.mpr ⟨legal, List.forall_mem_singleton.mpr ?_⟩
    exact l.isClassName_label.firstFree (numbered_injective _)

namespace Php

def quoteChar (c : Char) : List Char :=
  if c = '\\' ∨ c = '\'' then ['\\', c] else [c]

theorem quote_eq (s : List Char) : quote s = '\'' :: s.flatMap quoteChar ++ ['\''] := by
  simp only [quote, Text.replaceAll_singleton, List.flatMap_assoc]
  congr 2
  refine List.flatMap_congr fun c _ => ?_
  by_cases backslash : c = '\\' <;> by_cases apostrophe : c = '\'' <;> simp_all [quoteChar]

-- Different texts are written differently.
theorem string_injective : Function.Injective string := by
  have injective : Function.Injective fun s : List Char => s.flatMap quoteChar :=
    Text.flatMap_injective (by grind [quoteChar]) (by grind [quoteChar])
  intro a b same
  have same := String.ofList_injective same
  simp only [quote_eq, List.cons_append, List.cons.injEq, true_and, List.append_left_inj] at same
  exact String.toList_inj.mp (injective same)

variable {reserved : List String} {declared : List DeclaredCase} {cases : List EnumCase} {c : EnumCase}

-- Cases that can be declared together.
structure DeclaredCase.Legal (reserved : List String) (declared : List DeclaredCase) : Prop where
  apart : (declared.map (foldCase ·.name)).Nodup
  unreserved : ∀ c ∈ declared, foldCase c.name ∉ reserved
  names : ∀ c ∈ declared, IsClassName c.name

-- What a case is called when it is declared after others.
theorem DeclaredCase.add_eq (hr : Avoidable reserved) (declared : List DeclaredCase) (hc : IsClassName c.label) :
    ∃ name, foldCase name ∉ declared.map (foldCase ·.name) ∧ foldCase name ∉ reserved ∧ IsClassName name ∧
      add reserved declared c = declared ++ [⟨name, string c.label, Php.literal c.value⟩] := by
  unfold add
  dsimp only
  obtain ⟨base, base_eq, unreserved, legal⟩ : ∃ base,
      base = (if foldCase c.label ∈ reserved then c.label ++ "Case" else c.label) ∧
        foldCase base ∉ reserved ∧ IsClassName base := by
    refine ⟨_, rfl, ?_⟩
    split
    case isTrue there =>
      rw [foldCase_append]
      exact ⟨hr.extended _ there, hc.append (by decide : IsWord "Case").chars⟩
    case isFalse free => exact ⟨free, hc⟩
  rw [← base_eq]
  have inj := foldCase_numbered_injective base
  refine ⟨_, firstFree_not_mem inj, ?_, legal.firstFree inj, rfl⟩
  obtain ⟨i, form⟩ := (tries_firstFree inj).exists_form
  exact form ▸ hr.numbered_not_mem unreserved i

theorem DeclaredCase.Legal.add (hr : Avoidable reserved) (h : Legal reserved declared) (hc : IsClassName c.label) :
    Legal reserved (DeclaredCase.add reserved declared c) := by
  obtain ⟨name, free, unreserved, legal, added⟩ := add_eq hr declared hc
  rw [added]
  constructor
  case apart =>
    rw [List.map_append]
    exact List.concat_eq_append ▸ h.apart.concat free
  case unreserved => exact List.forall_mem_append.mpr ⟨h.unreserved, List.forall_mem_singleton.mpr unreserved⟩
  case names => exact List.forall_mem_append.mpr ⟨h.names, List.forall_mem_singleton.mpr legal⟩

theorem DeclaredCase.legal_ofCases (hr : Avoidable reserved) (h : ∀ c ∈ cases, IsClassName c.label) :
    Legal reserved (ofCases reserved cases) :=
  List.foldlRecOn cases _ ⟨by simp, by simp, by simp⟩ fun _ legal c hc => legal.add hr (h c hc)

theorem DeclaredCase.ofCases_concat (reserved : List String) (cases : List EnumCase) (c : EnumCase) :
    ofCases reserved (cases ++ [c]) = add reserved (ofCases reserved cases) c :=
  List.foldl_append

-- The cases are declared one by one, in their order.
theorem DeclaredCase.map_ofCases {α : Type} {f : DeclaredCase → α} {g : EnumCase → α}
    (h : ∀ declared c, (add reserved declared c).map f = declared.map f ++ [g c]) (cases : List EnumCase) :
    (ofCases reserved cases).map f = cases.map g := by
  induction cases using List.reverseRecOn with
  | nil => rfl
  | append_singleton cases c ih =>
    rw [ofCases_concat, h, ih, List.map_append, List.map_singleton]

theorem DeclaredCase.keys_ofCases (reserved : List String) (cases : List EnumCase) :
    (ofCases reserved cases).map (·.key) = cases.map (string ·.label) :=
  map_ofCases (fun declared c => by simp [add]) cases

theorem DeclaredCase.literals_ofCases (reserved : List String) (cases : List EnumCase) :
    (ofCases reserved cases).map (·.literal) = cases.map (Php.literal ·.value) :=
  map_ofCases (fun declared c => by simp [add]) cases

theorem avoidable (hr : reserved ∈ [reservedCases, reservedInstances]) : Avoidable reserved := by
  have all : ∀ reserved ∈ [reservedCases, reservedInstances], (∀ name ∈ reserved, foldCase name = name) ∧
      (∀ name ∈ reserved, name.toList.all (!·.isDigit)) ∧
      ∀ name ∈ reserved, name ++ foldCase "Case" ∉ reserved := by decide +kernel
  obtain ⟨folded, undigited, extended⟩ := all reserved hr
  exact ⟨folded, undigited, extended⟩

-- The cases of an enum are declared under legal names that neither one another nor reserved names are confused with,
-- and looked up by their labels.
theorem declared_cases_legal (hr : reserved ∈ [reservedCases, reservedInstances]) (literals : List Literal) :
    let cases := (EnumTable.ofLiterals literals).cases
    let declared := DeclaredCase.ofCases reserved cases
    (declared.map (foldCase ·.name)).Nodup ∧
    (∀ c ∈ declared, IsClassName c.name ∧ ∀ name ∈ reserved, foldCase c.name ≠ foldCase name) ∧
    declared.map (·.key) = cases.map (string ·.label) ∧ (cases.map (·.label)).Nodup ∧ (declared.map (·.key)).Nodup := by
  intro cases declared
  have labels : (cases.map (·.label)).Nodup := (EnumTable.sound_ofLiterals literals).labels
  have legal : DeclaredCase.Legal reserved declared :=
    DeclaredCase.legal_ofCases (avoidable hr) (EnumTable.isClassName_label literals)
  have keys : declared.map (·.key) = (cases.map (·.label)).map string :=
    (DeclaredCase.keys_ofCases reserved cases).trans (by simp)
  refine ⟨legal.apart, fun c mem => ⟨legal.names c mem, ?_⟩, DeclaredCase.keys_ofCases _ _, labels, ?_⟩
  · rintro name there same
    rw [(avoidable hr).folded name there] at same
    exact legal.unreserved c mem (same ▸ there)
  · exact keys ▸ labels.map string_injective

end Php

namespace Verbs

-- Some are reserved, some differ in the case of letters only, and one is what a reserved one is called instead.
def literals : List Literal :=
  [.string "from", .string "FROM", .string "from case", .string "class", .string "fromCASE", .int (-1), .string "1",
    .string "été", .string "", .bool true, .string "true"]

end Verbs

open Php in
example : (DeclaredCase.ofCases reservedInstances (EnumTable.ofLiterals Verbs.literals).cases).map (·.name) =
    ["FromCase", "From2", "FromCase2", "ClassCase", "FromCase22", "ValueMinus1", "Value1", "Été", "Empty", "True",
      "True2"] := by
  decide +kernel

theorem Php.verbs_declared : reservedInstances ∈ [reservedCases, reservedInstances] ∧
    let cases := (EnumTable.ofLiterals Verbs.literals).cases
    let declared := DeclaredCase.ofCases reservedInstances cases
    cases.map (·.value) = Verbs.literals ∧ (declared.map (foldCase ·.name)).Nodup ∧
    (∀ c ∈ declared, IsClassName c.name ∧ ∀ name ∈ reservedInstances, foldCase c.name ≠ foldCase name) ∧
    declared.map (·.key) = cases.map (string ·.label) ∧ (cases.map (·.label)).Nodup ∧ (declared.map (·.key)).Nodup :=
  have reserved : reservedInstances ∈ [reservedCases, reservedInstances] := by decide
  have values : (EnumTable.ofLiterals Verbs.literals).cases.map (·.value) = Verbs.literals := by decide +kernel
  ⟨reserved, values, declared_cases_legal reserved Verbs.literals⟩

end OpenApiClient
