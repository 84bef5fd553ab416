import OpenApiClient.Hint.Schema
import OpenApiClient.Proofs.Outcome
import OpenApiClient.Proofs.SameKind
import OpenApiClient.Proofs.Schema.Parts

/-!
The classes that type hints mention, at any depth: the class of the schema itself, if it has one, and
those that the hints of its items and of the members of unions mention.
-/

namespace OpenApiClient

inductive Hint.Mentions : Hint → String → Prop
  | model {name} : Mentions (.model name) name
  | array {items hint name} : hint ∈ items → Mentions hint name → Mentions (.array items) name

def Hints.Mention (hints : List Hint) (name : String) : Prop :=
  ∃ hint ∈ hints, hint.Mentions name

section

variable {hint : Hint} {hints more items : List Hint} {name cls : String}

@[simp] theorem Hint.mentions_basic {type : BasicType} : ¬ (Hint.basic type).Mentions cls :=
  nofun

@[simp] theorem Hint.mentions_model : (Hint.model name).Mentions cls ↔ cls = name where
  mp | .model => rfl
  mpr h := h ▸ .model

@[simp] theorem Hint.mentions_array : (Hint.array items).Mentions cls ↔ Hints.Mention items cls where
  mp | .array hm h => ⟨_, hm, h⟩
  mpr := fun ⟨_, hm, h⟩ => .array hm h

namespace Hints

@[simp] theorem mention_nil : ¬ Mention [] cls :=
  nofun

@[simp] theorem mention_cons : Mention (hint :: hints) cls ↔ hint.Mentions cls ∨ Mention hints cls := by
  simp [Mention]

@[simp] theorem mention_append : Mention (hints ++ more) cls ↔ Mention hints cls ∨ Mention more cls := by
  simp only [Mention, List.mem_append, or_and_right, exists_or]

@[simp] theorem mention_push :
    Mention (Hints.push hints hint) cls ↔ Mention hints cls ∨ hint.Mentions cls := by
  simp only [Mention, mem_push, or_and_right, exists_or, exists_eq_left]

@[simp] theorem mention_ofList : Mention (ofList hints) cls ↔ Mention hints cls := by
  simp only [Mention, mem_ofList]

end Hints

end

namespace Schema

-- The parts whose hints are among those of the schema.
def Shows (s : Schema) : Role → Prop
  | .item => ¬ s.kind.isEnum ∧ (s.hasType .array ∨ s.typeKeyword = none ∧ s.kind = .array)
  | .oneOf _ | .anyOf _ => ¬ s.kind.isEnum
  | .property _ | .additional => False

variable {expand : String → Except BuildError Hints} {form : ValueForm} {name cls : String} {s : Schema}

@[simp] theorem mention_orMixed {hints : List Hint} :
    Hints.Mention (orMixed hints) cls ↔ Hints.Mention hints cls := by
  unfold orMixed
  split <;> simp

theorem mention_memberHints {keyword : String} {i : Nat} {members : List SchemaRef}
    {hints : List Hint} (h : memberHints expand .typed name keyword i members = .ok hints) :
    Hints.Mention hints cls ↔ ∃ j place hints', members[j]? = some place ∧
      hintsAt expand .typed (Naming.nested name (keyword ++ toString (i + j + 1))) place = .ok hints' ∧
      Hints.Mention hints' cls := by
  induction members generalizing i hints with
  | nil =>
    simp only [memberHints, pure_eq_ok] at h
    simp [← h]
  | cons place rest ih =>
    simp only [memberHints, bind_eq_ok, pure_eq_ok] at h
    obtain ⟨first, hf, others, ho, rfl⟩ := h
    rw [Hints.mention_append, ih ho]
    constructor
    · rintro (hm | ⟨j, place', hints', hj, hp, hm⟩)
      · exact ⟨0, place, first, rfl, hf, hm⟩
      · exact ⟨j + 1, place', hints', hj, by rwa [Nat.add_right_comm i 1 j] at hp, hm⟩
    · rintro ⟨_ | j, place', hints', hj, hp, hm⟩
      · cases hj
        cases hf.symm.trans hp
        exact .inl hm
      · exact .inr ⟨j, place', hints', hj, by rwa [Nat.add_right_comm i 1 j], hm⟩

theorem of_memberHints {keyword : String} {i j : Nat} {members : List SchemaRef} {hints : List Hint}
    {place : SchemaRef} (h : memberHints expand .typed name keyword i members = .ok hints)
    (hj : members[j]? = some place) : ∃ hints',
      hintsAt expand .typed (Naming.nested name (keyword ++ toString (i + j + 1))) place = .ok hints' := by
  induction members generalizing i j hints with
  | nil => simp at hj
  | cons first rest ih =>
    simp only [memberHints, bind_eq_ok, pure_eq_ok] at h
    obtain ⟨hints', hf, others, ho, -⟩ := h
    cases j
    case zero =>
      cases hj
      exact ⟨hints', hf⟩
    case succ j =>
      rw [← Nat.add_assoc, Nat.add_right_comm i j 1]
      exact ih ho hj

@[simp] theorem objectHint_typed : objectHint .typed name = .model name :=
  rfl

@[simp] theorem enumHints_typed : s.enumHints .typed name = [.model name] :=
  rfl

theorem hintsAt_inline (h : s.annotatedReference = none) :
    hintsAt expand form name (.inline s) = s.hints expand form name := by
  simp [hintsAt, h]

theorem isEnum_of_enumKind? {values : List Json.Value} {kind : SchemaKind}
    (h : enumKind? values = some kind) : kind.isEnum := by
  simp only [enumKind?] at h
  grind [SchemaKind.isEnum]

-- Without values, an object is what says so, or what has the keywords of one and no type.
theorem kind_eq_object_iff (h : ¬ s.kind.isEnum) :
    s.kind = .object ↔ s.hasType .object ∨ s.typeKeyword = none ∧ s.kind = .object := by
  have hk := s.kind_eq
  cases he : enumKind? s.enumValues
  case some kind =>
    rw [he] at hk
    exact absurd (hk ▸ isEnum_of_enumKind? he) h
  case none =>
    rw [he] at hk
    cases ht : s.typeKeyword
    case none => simp [hasType, types, ht]
    case some =>
      by_cases ho : s.hasType .object
      · simp [ho, hk]
      · by_cases ha : s.hasType .array <;> simp [ho, ha, ht, hk]

-- What is implied by the keywords when no type is declared,
def impliedHints (expand : String → Except BuildError Hints) (form : ValueForm) (name : String)
    (s : Schema) : Except BuildError (List Hint) :=
  match s.typeKeyword, s.kind with
  | none, .object => pure [objectHint form name]
  | none, .array => return [.array (← itemHints expand form name s.items)]
  | _, _ => pure []

-- and what the declared types are.
def declaredHint (expand : String → Except BuildError Hints) (form : ValueForm) (name : String)
    (s : Schema) : TypeName → Except BuildError Hint
  | .object => pure (objectHint form name)
  | .array => return .array (← itemHints expand form name s.items)
  | .number => pure .float
  | .integer => pure .int
  | .string => pure .string
  | .boolean => pure .bool
  | .null => pure .null

theorem hints_eq (s : Schema) : s.hints expand form name =
    if s.kind.isEnum then
      return if s.admitsNull then (s.enumHints form name).push .null else s.enumHints form name
    else do
      let implied ← s.impliedHints expand form name
      let members := (← memberHints expand form name "oneOf" 0 s.oneOf) ++
        (← memberHints expand form name "anyOf" 0 s.anyOf)
      let declared ← s.types.mapM (s.declaredHint expand form name)
      let nullable := if s.nullable == some true then [.null] else []
      return orMixed (Hints.ofList (implied ++ members ++ declared ++ nullable)) := by
  cases s with
  | mk typeKeyword =>
    rw [hints, impliedHints]
    congr 1
    dsimp only
    generalize kind _ = k
    cases typeKeyword <;> cases k
    case none.array => exact (bind_assoc ..).symm
    all_goals rfl

-- What the hints of the items mention, an item being named after the schema.
def ItemsMention (expand : String → Except BuildError Hints) (name : String) (s : Schema)
    (cls : String) : Prop :=
  ∃ hints, itemHints expand .typed name s.items = .ok hints ∧ Hints.Mention hints cls

theorem itemsMention_iff : s.ItemsMention expand name cls ↔ ∃ place hints', s.items = some place ∧
    hintsAt expand .typed (Naming.nested name "item") place = .ok hints' ∧
    Hints.Mention hints' cls := by
  cases hi : s.items <;> simp [ItemsMention, itemHints, hi]

theorem mention_impliedHints {hints : List Hint} (h : s.impliedHints expand .typed name = .ok hints) :
    Hints.Mention hints cls ↔ s.typeKeyword = none ∧
      (s.kind = .object ∧ cls = name ∨ s.kind = .array ∧ s.ItemsMention expand name cls) := by
  unfold impliedHints at h
  split at h
  case h_1 ht hk =>
    cases h
    simp [ht, hk]
  case h_2 ht hk =>
    simp only [bind_eq_ok, pure_eq_ok] at h
    obtain ⟨items, hi, rfl⟩ := h
    simp [ht, hk, ItemsMention, hi]
  case h_3 ho ha =>
    cases h
    simp only [Hints.mention_nil, false_iff]
    rintro ⟨ht, ⟨hk, _⟩ | ⟨hk, _⟩⟩
    · exact ho ht hk
    · exact ha ht hk

theorem mention_declaredHints {hints : List Hint}
    (h : s.types.mapM (s.declaredHint expand .typed name) = .ok hints) :
    Hints.Mention hints cls ↔ s.hasType .object ∧ cls = name ∨
      s.hasType .array ∧ s.ItemsMention expand name cls := by
  simp only [hasType, List.contains_iff_mem]
  constructor
  · rintro ⟨hint, hm, hc⟩
    obtain ⟨t, ht, hd⟩ := mem_of_mapM h hint hm
    cases t <;> simp only [declaredHint, bind_eq_ok, pure_eq_ok] at hd
    case object =>
      subst hd
      exact .inl ⟨ht, Hint.mentions_model.mp hc⟩
    case array =>
      obtain ⟨items, hi, rfl⟩ := hd
      exact .inr ⟨ht, items, hi, Hint.mentions_array.mp hc⟩
    all_goals
      subst hd
      contradiction
  · rintro (⟨ht, rfl⟩ | ⟨ht, items, hi, hc⟩)
    · obtain ⟨hint, hm, hd⟩ := mem_mapM h .object ht
      exact ⟨hint, hm, by cases hd; exact .model⟩
    · obtain ⟨hint, hm, hd⟩ := mem_mapM h .array ht
      simp only [declaredHint, hi] at hd
      cases hd
      exact ⟨_, hm, Hint.mentions_array.mpr hc⟩

-- Exactly what a schema mentions: its own class, and what the parts mention that it shows.
theorem mention_hints {hints : List Hint} (h : s.hints expand .typed name = .ok hints) :
    Hints.Mention hints cls ↔ s.kind.hasClass ∧ cls = name ∨
      ∃ role place hints', s.Shows role ∧ s.Has role place ∧
        hintsAt expand .typed (role.nameIn name) place = .ok hints' ∧ Hints.Mention hints' cls := by
  rw [hints_eq] at h
  split at h
  case isTrue he =>
    have shown : Hints.Mention hints cls ↔ cls = name := by
      cases h
      split <;> simp
    simp [shown, Role.exists, Shows, he, SchemaKind.hasClass]
  case isFalse he =>
    simp only [bind_eq_ok, pure_eq_ok] at h
    obtain ⟨implied, hi, ones, ho, anys, ha, declared, hd, rfl⟩ := h
    have nullable : ¬ Hints.Mention (if s.nullable == some true then [.null] else []) cls := by
      split <;> simp
    have hasClass : s.kind.hasClass ↔ s.kind = .object := by simp [SchemaKind.hasClass, he]
    have parts : (∃ role place hints', s.Shows role ∧ s.Has role place ∧
        hintsAt expand .typed (role.nameIn name) place = .ok hints' ∧ Hints.Mention hints' cls) ↔
        (s.hasType .array ∨ s.typeKeyword = none ∧ s.kind = .array) ∧ s.ItemsMention expand name cls ∨
          Hints.Mention ones cls ∨ Hints.Mention anys cls := by
      simp only [Role.exists, Shows, Role.nameIn, has_item, has_oneOf, has_anyOf, he,
        itemsMention_iff, mention_memberHints ho, mention_memberHints ha, Nat.zero_add,
        Bool.false_eq_true, not_false_eq_true, true_and, false_and, exists_false, false_or,
        exists_and_left]
    have object := kind_eq_object_iff he
    simp only [mention_orMixed, Hints.mention_ofList, Hints.mention_append, nullable, or_false,
      mention_impliedHints hi, mention_declaredHints hd, parts, hasClass]
    grind

-- The parts that a schema shows have hints if it has.
theorem of_hints {hints : List Hint} {role : Role} {place : SchemaRef}
    (h : s.hints expand .typed name = .ok hints) (shows : s.Shows role) (hp : s.Has role place) :
    ∃ hints', hintsAt expand .typed (role.nameIn name) place = .ok hints' := by
  have he : ¬ s.kind.isEnum := by
    cases role
    case property | additional => contradiction
    case item => exact shows.1
    case oneOf | anyOf => exact shows
  rw [hints_eq, if_neg he] at h
  simp only [bind_eq_ok] at h
  obtain ⟨implied, hi, ones, ho, anys, ha, declared, hd, _⟩ := h
  cases hp with
  | property | additional => contradiction
  | item hp =>
    have items : ∃ hints', itemHints expand .typed name s.items = .ok hints' := by
      rcases shows.2 with ht | ⟨ht, hk⟩
      · obtain ⟨_, _, hd⟩ := mem_mapM hd .array (by simpa [hasType] using ht)
        simp only [declaredHint, bind_eq_ok] at hd
        obtain ⟨items, hi, _⟩ := hd
        exact ⟨items, hi⟩
      · simp only [impliedHints, ht, hk, bind_eq_ok] at hi
        obtain ⟨items, hi, _⟩ := hi
        exact ⟨items, hi⟩
    simpa [hp, itemHints, Role.nameIn] using items
  | oneOf hp => simpa [Role.nameIn] using of_memberHints ho hp
  | anyOf hp => simpa [Role.nameIn] using of_memberHints ha hp

end Schema

end OpenApiClient
