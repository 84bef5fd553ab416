import OpenApiClient.Proofs.Json.Numerals
import OpenApiClient.Proofs.Json.Strings

/-!
Values in JSON text: what is written for a value is read as the source that the value is, as long as its numbers are and
it has no more levels than can be read.
-/

namespace OpenApiClient.Json

namespace Value

mutual

-- The source that a text for the value is read as.
def source : Value → Source
  | .null => .ofAtom .null
  | .bool b => .ofAtom (.bool b)
  | .number n => .ofAtom (.number n)
  | .string s => .string s
  | .array items => .list true (itemSources items)
  | .object members => .map (memberSources members)

def itemSources : List Value → List Source
  | [] => []
  | v :: rest => v.source :: itemSources rest

def memberSources : List (String × Value) → List (Source × Source)
  | [] => []
  | (k, v) :: rest => (.string k, v.source) :: memberSources rest

end

mutual

-- All numbers in a value.
def numbers : Value → List Number
  | .number n => [n]
  | .array items => numbersOfItems items
  | .object members => numbersOfMembers members
  | _ => []

def numbersOfItems : List Value → List Number
  | [] => []
  | v :: rest => v.numbers ++ numbersOfItems rest

def numbersOfMembers : List (String × Value) → List Number
  | [] => []
  | (_, v) :: rest => v.numbers ++ numbersOfMembers rest

end

@[simp] theorem itemSources_eq (items : List Value) : itemSources items = items.map source := by
  induction items <;> simp_all [itemSources]

@[simp] theorem memberSources_eq (members : List (String × Value)) :
    memberSources members = members.map fun (k, v) => (.string k, v.source) := by
  induction members <;> simp_all [memberSources]

@[simp] theorem numbersOfItems_eq (items : List Value) : numbersOfItems items = items.flatMap numbers := by
  induction items <;> simp_all [numbersOfItems]

@[simp] theorem numbersOfMembers_eq (members : List (String × Value)) :
    numbersOfMembers members = members.flatMap fun (_, v) => v.numbers := by
  induction members <;> simp_all [numbersOfMembers]

end Value

namespace Reader

variable {fuel depth : Nat} {s rest left : List Char}

theorem endsNumber_nil : EndsNumber [] :=
  nofun

theorem endsNumber_of_mem : ∀ c ∈ [',', ']', '\x7d'], EndsNumber (c :: rest) := by
  simp [EndsNumber, Text.isAsciiDigit]

-- A character that a value can start with.
def StartsValue (c : Char) : Prop :=
  c ∈ ['n', 't', 'f', '"', '[', '\x7b', '-'] ∨ Text.isAsciiDigit c

theorem StartsValue.not_space {c : Char} (h : StartsValue c) : ¬ isSpace c := by
  intro space
  simp only [isSpace, Bool.or_eq_true, beq_iff_eq] at space
  obtain ((rfl | rfl) | rfl) | rfl := space <;> simp [StartsValue, Text.isAsciiDigit] at h

theorem StartsValue.ne_closing {c : Char} (h : StartsValue c) : c ≠ ']' ∧ c ≠ '\x7d' := by
  constructor <;> rintro rfl <;> simp [StartsValue, Text.isAsciiDigit] at h

@[simp] theorem skipSpace_cons {c : Char} (h : ¬ isSpace c) : skipSpace (c :: s) = c :: s := by
  simp [skipSpace, h]

theorem readValue_numeral {numeral : Numeral} {n : Number} (h : readNumeral s = some (numeral, left))
    (hn : numeral.toNumber? = some n) : readValue (fuel + 1) depth s = some (.ofAtom (.number n), left) := by
  obtain ⟨c, after, rfl, first⟩ := head_of_readNumeral h
  have starts : StartsValue c := first.imp (by simp +contextual) id
  have digits : ∀ word ∈ ['n', 't', 'f', '"', '[', '\x7b'], ¬ (word = '-' ∨ Text.isAsciiDigit word) := by
    simp [Text.isAsciiDigit]
  have other : ∀ word ∈ ['n', 't', 'f', '"', '[', '\x7b'], c ≠ word := by
    rintro word hw rfl
    exact digits c hw first
  simp at other
  simp [readValue, starts.not_space, other, h, hn]

theorem readValue_string (text : String) :
    readValue (fuel + 1) depth (stringText text ++ rest) = some (.string text, rest) := by
  have space : ¬ isSpace '"' := by decide
  simp only [stringText, List.cons_append, List.append_assoc, readValue, skipSpace_cons space]
  simp [readString_escaped]

theorem readKey_string (text : String) : readKey (stringText text ++ ':' :: rest) = some (some text, rest) := by
  have space : ¬ isSpace '"' ∧ ¬ isSpace ':' := by decide
  simp only [stringText, List.cons_append, List.append_assoc, readKey, skipSpace_cons space.1]
  simp [readString_escaped, skipSpace_cons space.2]

theorem readItems_last {item : Source} (h : readValue fuel depth s = some (item, ']' :: rest)) :
    readItems (fuel + 1) depth s = some ([item], rest) := by
  have space : ¬ isSpace ']' := by decide
  simp [readItems, h, space]

theorem readItems_more {item : Source} {items : List Source} (h : readValue fuel depth s = some (item, ',' :: left))
    (more : readItems fuel depth left = some (items, rest)) :
    readItems (fuel + 1) depth s = some (item :: items, rest) := by
  have space : ¬ isSpace ',' := by decide
  simp [readItems, h, space, more]

theorem readValue_list {c : Char} {items : List Source} (first : StartsValue c) (level : depth < maxDepth)
    (h : readItems fuel (depth + 1) (c :: s) = some (items, rest)) :
    readValue (fuel + 1) depth ('[' :: c :: s) = some (.list true items, rest) := by
  have space : ¬ isSpace '[' := by decide
  simp [readValue, space, first.not_space, first.ne_closing, nested, Nat.succ_le_of_lt level, h]

theorem readMembers_last {key : String} {value : Source} (h : readValue fuel depth s = some (value, '\x7d' :: rest)) :
    readMembers (fuel + 1) depth (stringText key ++ ':' :: s) = some ([(some key, value)], rest) := by
  have space : ¬ isSpace '\x7d' := by decide
  simp [readMembers, readKey_string, h, space]

theorem readMembers_more {key : String} {value : Source} {members : List (Option String × Source)}
    (h : readValue fuel depth s = some (value, ',' :: left))
    (more : readMembers fuel depth left = some (members, rest)) :
    readMembers (fuel + 1) depth (stringText key ++ ':' :: s) = some ((some key, value) :: members, rest) := by
  have space : ¬ isSpace ',' := by decide
  simp [readMembers, readKey_string, h, space, more]

theorem readValue_map {members : List (Option String × Source)} (level : depth < maxDepth)
    (h : readMembers fuel (depth + 1) ('"' :: s) = some (members, rest)) :
    readValue (fuel + 1) depth ('\x7b' :: '"' :: s) = some (objectOf members, rest) := by
  have space : ¬ isSpace '\x7b' ∧ ¬ isSpace '"' := by decide
  simp [readValue, space, nested, Nat.succ_le_of_lt level, h]

theorem starts_compact (v : Value) (h : ∀ n ∈ v.numbers, n.Reads) : ∃ c after, v.compact = c :: after ∧ StartsValue c := by
  cases v with
  | number n =>
    obtain ⟨numeral, read, _⟩ := (h n (by simp [Value.numbers])).numeral
    obtain ⟨c, after, text, first⟩ := head_of_readNumeral read
    exact ⟨c, after, by rw [Value.compact, text], first.imp (by simp +contextual) id⟩
  | bool b => cases b <;> exact ⟨_, _, rfl, .inl (by decide)⟩
  | null | string | array | object => exact ⟨_, _, rfl, .inl (by decide)⟩

theorem readValue_nil_list (level : depth < maxDepth) :
    readValue (fuel + 1) depth ('[' :: ']' :: rest) = some (.list true [], rest) := by
  have space : ¬ isSpace '[' ∧ ¬ isSpace ']' := by decide
  simp [readValue, space, nested, Nat.succ_le_of_lt level]

theorem readValue_nil_map (level : depth < maxDepth) :
    readValue (fuel + 1) depth ('\x7b' :: '\x7d' :: rest) = some (.map [], rest) := by
  have space : ¬ isSpace '\x7b' ∧ ¬ isSpace '\x7d' := by decide
  simp [readValue, space, nested, Nat.succ_le_of_lt level]

-- The items after the first one follow behind a comma.
theorem compactItems_cons (v : Value) (items : List Value) : Value.compactItems (v :: items) =
    v.compact ++ if items = [] then [] else ',' :: Value.compactItems items := by
  cases items <;> simp [Value.compactItems]

theorem compactMembers_cons (k : String) (v : Value) (members : List (String × Value)) :
    Value.compactMembers ((k, v) :: members) = stringText k ++ ':' :: v.compact ++
      if members = [] then [] else ',' :: Value.compactMembers members := by
  cases members <;> simp [Value.compactMembers]

-- Room for as many steps as the text has characters, twice, is enough.
mutual

theorem readValue_compact : (v : Value) → {fuel depth : Nat} → {rest : List Char} → 2 * v.compact.length ≤ fuel + 1 →
    depth + v.source.height ≤ maxDepth → (∀ n ∈ v.numbers, n.Reads) → EndsNumber rest →
    readValue fuel depth (v.compact ++ rest) = some (v.source, rest)
  | v, 0, _, _, enough, _, reads, _ => by
    obtain ⟨c, after, text, _⟩ := starts_compact v reads
    simp only [text, List.length_cons] at enough
    omega
  | .null, fuel + 1, _, _, _, _, _, _ => rfl
  | .bool true, fuel + 1, _, _, _, _, _, _ => rfl
  | .bool false, fuel + 1, _, _, _, _, _, _ => rfl
  | .number n, fuel + 1, _, _, _, _, reads, hr => by
    obtain ⟨numeral, read, number⟩ := (reads n (by simp [Value.numbers])).numeral
    exact readValue_numeral (readNumeral_append hr read) number
  | .string s, fuel + 1, _, _, _, _, _, _ => readValue_string s
  | .array [], fuel + 1, depth, rest, _, levels, _, _ => by
    simp only [Value.source, Source.height] at levels
    exact readValue_nil_list (by omega)
  | .array (v :: items), fuel + 1, depth, rest, enough, levels, reads, _ => by
    simp only [Value.compact, Value.source, Source.height, Value.numbers, List.length_cons, List.length_append,
      List.length_nil] at enough levels reads
    have read : readItems fuel (depth + 1) (Value.compactItems (v :: items) ++ ']' :: rest) = _ :=
      readItems_compact (v :: items) (List.cons_ne_nil _ _) (by omega) (by omega) reads
    obtain ⟨c, after, text, first⟩ := starts_compact v fun n hn => reads n (by simp [hn])
    rw [compactItems_cons, text] at read
    simp only [Value.compact, compactItems_cons, text, List.cons_append, List.append_assoc] at read ⊢
    exact readValue_list first (by omega) read
  | .object [], fuel + 1, depth, rest, _, levels, _, _ => by
    simp only [Value.source, Source.height] at levels
    exact readValue_nil_map (by omega)
  | .object ((k, v) :: members), fuel + 1, depth, rest, enough, levels, reads, _ => by
    simp only [Value.compact, Value.source, Source.height, Value.numbers, List.length_cons, List.length_append,
      List.length_nil] at enough levels reads
    have read : readMembers fuel (depth + 1) (Value.compactMembers ((k, v) :: members) ++ '\x7d' :: rest) = _ :=
      readMembers_compact ((k, v) :: members) (List.cons_ne_nil _ _) (by omega) (by omega) reads
    rw [compactMembers_cons, stringText] at read
    simp only [Value.compact, compactMembers_cons, stringText, List.cons_append, List.append_assoc,
      List.nil_append] at read ⊢
    rw [readValue_map (by omega) read]
    simp [objectOf, Value.source]

theorem readItems_compact : (items : List Value) → {fuel depth : Nat} → {rest : List Char} → items ≠ [] →
    2 * (Value.compactItems items).length ≤ fuel → depth + Source.heightItems (Value.itemSources items) ≤ maxDepth →
    (∀ n ∈ Value.numbersOfItems items, n.Reads) →
    readItems fuel depth (Value.compactItems items ++ ']' :: rest) = some (Value.itemSources items, rest)
  | [], _, _, _, nonempty, _, _, _ => absurd rfl nonempty
  | v :: items, 0, _, _, _, enough, _, reads => by
    obtain ⟨c, after, text, _⟩ := starts_compact v fun n hn => reads n (by simp [hn])
    simp only [compactItems_cons, text, List.length_append, List.length_cons] at enough
    omega
  | v :: items, fuel + 1, depth, rest, _, enough, levels, reads => by
    rw [compactItems_cons, Value.itemSources] at *
    simp only [Source.heightItems, Value.numbersOfItems, List.forall_mem_append, List.length_append] at enough levels reads
    by_cases last : items = []
    case pos =>
      simp only [last, if_true, List.append_nil] at enough ⊢
      exact readItems_last (readValue_compact v (by omega) (by omega) reads.1 (endsNumber_of_mem _ (by simp)))
    case neg =>
      simp only [last, if_false, List.length_cons, List.append_assoc, List.cons_append] at enough ⊢
      exact readItems_more (readValue_compact v (by omega) (by omega) reads.1 (endsNumber_of_mem _ (by simp)))
        (readItems_compact items last (by omega) (by omega) reads.2)

theorem readMembers_compact : (members : List (String × Value)) → {fuel depth : Nat} → {rest : List Char} →
    members ≠ [] → 2 * (Value.compactMembers members).length ≤ fuel →
    depth + Source.heightEntries (Value.memberSources members) ≤ maxDepth →
    (∀ n ∈ Value.numbersOfMembers members, n.Reads) →
    readMembers fuel depth (Value.compactMembers members ++ '\x7d' :: rest) =
      some (members.map fun (k, v) => (some k, v.source), rest)
  | [], _, _, _, nonempty, _, _, _ => absurd rfl nonempty
  | (k, v) :: members, 0, _, _, _, enough, _, reads => by
    simp [compactMembers_cons, stringText] at enough
  | (k, v) :: members, fuel + 1, depth, rest, _, enough, levels, reads => by
    rw [compactMembers_cons, Value.memberSources] at *
    simp only [Source.heightEntries, Value.numbersOfMembers, List.forall_mem_append, List.length_append,
      List.length_cons] at enough levels reads
    by_cases last : members = []
    case pos =>
      simp only [last, if_true, List.append_nil, List.append_assoc, List.cons_append] at enough ⊢
      exact readMembers_last (readValue_compact v (by omega) (by omega) reads.1 (endsNumber_of_mem _ (by simp)))
    case neg =>
      simp only [last, if_false, List.length_cons, List.append_assoc, List.cons_append] at enough ⊢
      exact readMembers_more (readValue_compact v (by omega) (by omega) reads.1 (endsNumber_of_mem _ (by simp)))
        (readMembers_compact members last (by omega) (by omega) reads.2)

end

end Reader

-- What is written for a value is read as the value, if it is not too deep and numbers are.
theorem read?_render {v : Value} (levels : v.source.height ≤ Reader.maxDepth) (reads : ∀ n ∈ v.numbers, n.Reads) :
    read? v.render = some v.source := by
  have read : Reader.readValue (2 * v.compact.length + 2) 0 (v.compact ++ []) = some (v.source, []) :=
    Reader.readValue_compact v (by omega) (by omega) reads Reader.endsNumber_nil
  rw [List.append_nil] at read
  simp only [read?, Value.render, String.toList_ofList, read]
  rfl

end OpenApiClient.Json
