import OpenApiClient.Php.Model
import OpenApiClient.Php.ResponseFile
import OpenApiClient.Proofs.Client.Decoded
import OpenApiClient.Proofs.Hint.Levels

/-!
Where the expressions that make a value, and those that take it apart, ask for null before they convert
something. They ask at most once, on the outermost level.
-/

namespace OpenApiClient

-- How many levels of a value are converted.
def Factory.levels : Factory → Nat
  | .direct => 0
  | .object _ | .enumeration _ => 1
  | .list element => element.levels + 1

theorem Factory.levels_pos {f : Factory} (hf : f ≠ .direct) : 0 < f.levels := by
  cases f with
  | direct => contradiction
  | object | enumeration | list => exact Nat.succ_pos _

-- Null is among the hints of a level below the first.
def Hints.NullWithin (hints : Hints) : Prop :=
  ∃ k inner, Level hints (k + 1) inner ∧ .null ∈ inner

-- The levels of hints are among those of the factory.
theorem SchemaIndex.lt_levels_of_level {m : SchemaIndex} {hints inner : Hints} {k : Nat}
    (h : hints.Level k inner) (hf : m.factory hints ≠ .direct) : k < (m.factory hints).levels := by
  induction h with
  | value => exact Factory.levels_pos hf
  | element array _ ih =>
    rcases factory_of_array array with ⟨direct, _⟩ | ⟨list, items⟩
    case inl => exact absurd direct hf
    case inr =>
      rw [list]
      exact Nat.succ_lt_succ (ih items)

namespace Php

namespace Expression

-- What a conversion is applied to.
def converted? : Expression → Option Expression
  | .fromArray _ e | .fromLiteral _ e | .toArray e | .literalOf e | .mapItems _ e => some e
  | .read _ | .orNull _ | .ifSet _ _ | .unlessNull _ _ => none

-- For each level that is converted, from the value inwards, whether it was asked before if the very thing
-- that is converted there is null.
def nullTests : Expression → List Bool
  | .read _ | .orNull _ => []
  | .fromArray _ _ | .fromLiteral _ _ | .toArray _ | .literalOf _ => [false]
  | .mapItems body _ => false :: body.nullTests
  | .ifSet subject result | .unlessNull subject result =>
    match result.nullTests with
    | [] => []
    | tested :: inner => (tested || result.converted? = some subject) :: inner

-- On each level where the hints admit null, null is asked for before anything is converted.
def HandlesNull (hints : Hints) (e : Expression) : Prop :=
  ∀ k inner, hints.Level k inner → .null ∈ inner → e.nullTests[k]? ≠ some false

theorem nullTests_unlessNull_succ {subject e : Expression} {k : Nat} :
    (unlessNull subject e).nullTests[k + 1]? = e.nullTests[k + 1]? := by
  rw [nullTests]
  split <;> simp_all

-- Null on the first level is one thing, null on those below another.
theorem handlesNull_iff_of_untested {hints : Hints} {e : Expression}
    (untested : ∀ {k inner}, hints.Level (k + 1) inner → e.nullTests[k + 1]? = some false) :
    HandlesNull hints e ↔ (.null ∈ hints → e.nullTests[0]? ≠ some false) ∧ ¬ hints.NullWithin := by
  constructor
  · intro handles
    refine ⟨handles 0 hints .value, ?_⟩
    rintro ⟨k, inner, level, null⟩
    exact handles (k + 1) inner level null (untested level)
  · rintro ⟨outer, within⟩ k inner level null
    cases k with
    | zero =>
      cases level
      exact outer null
    | succ k => exact absurd ⟨k, inner, level, null⟩ within

-- A conversion of `subject` that goes down all levels of a factory, and asks for null on none of them.
structure Converts (f : Factory) (subject e : Expression) : Prop where
  converted : e.converted? = some subject
  tests : e.nullTests = List.replicate f.levels false

variable {root code : String} {f : Factory} {m : SchemaIndex} {hints : Hints} {subject e : Expression}

theorem nullTests_hydrate : (hydrate root f (.read code)).nullTests = List.replicate f.levels false := by
  induction f generalizing code with
  | direct | object | enumeration => rfl
  | list element ih => exact congrArg (false :: ·) ih

theorem nullTests_dehydrate : (dehydrate f (.read code)).nullTests = List.replicate f.levels false := by
  induction f generalizing code with
  | direct | object | enumeration => rfl
  | list element ih => exact congrArg (false :: ·) ih

theorem converts_hydrate (hf : f ≠ .direct) : Converts f (.read code) (hydrate root f (.read code)) where
  converted := by
    cases f with
    | direct => contradiction
    | object | enumeration | list => rfl
  tests := nullTests_hydrate

theorem converts_dehydrate (hf : f ≠ .direct) : Converts f (.read code) (dehydrate f (.read code)) where
  converted := by
    cases f with
    | direct => contradiction
    | object | enumeration | list => rfl
  tests := nullTests_dehydrate

namespace Converts

theorem untested (h : Converts (m.factory hints) subject e) (hf : m.factory hints ≠ .direct) {k : Nat}
    {inner : Hints} (level : hints.Level k inner) : e.nullTests[k]? = some false := by
  simp [h.tests, m.lt_levels_of_level level hf]

theorem handlesNull_iff (h : Converts (m.factory hints) subject e) (hf : m.factory hints ≠ .direct) :
    HandlesNull hints e ↔ .null ∉ hints ∧ ¬ hints.NullWithin := by
  rw [handlesNull_iff_of_untested (h.untested hf), h.untested hf .value]
  simp

-- Where null is no value, nothing needs to ask for it on the first level,
theorem handlesNull_iff_of_not_nullable (h : Converts (m.factory hints) subject e)
    (hf : m.factory hints ≠ .direct) (hn : ¬ hints.isNullable) :
    HandlesNull hints e ↔ ¬ hints.NullWithin := by
  have absent : .null ∉ hints := fun null => hn (by simp [Hints.isNullable, null])
  simp [h.handlesNull_iff hf, absent]

-- and to ask in front of a conversion is to ask on its first level.
theorem handlesNull_unlessNull_iff (h : Converts (m.factory hints) subject e)
    (hf : m.factory hints ≠ .direct) : HandlesNull hints (.unlessNull subject e) ↔ ¬ hints.NullWithin := by
  have asked : (unlessNull subject e).nullTests[0]? ≠ some false := by
    rw [nullTests]
    split <;> simp [h.converted]
  rw [handlesNull_iff_of_untested fun level => nullTests_unlessNull_succ.trans (h.untested hf level)]
  simp [asked]

theorem handlesNull_ifSet_iff (h : Converts (m.factory hints) subject e)
    (hf : m.factory hints ≠ .direct) : HandlesNull hints (.ifSet subject e) ↔ ¬ hints.NullWithin :=
  h.handlesNull_unlessNull_iff hf

end Converts

theorem handlesNull_of_nullTests (h : e.nullTests = []) : HandlesNull hints e := by
  simp [HandlesNull, h]

end Expression

open Expression

variable {m : SchemaIndex} {v : ValueType} {root : String}

namespace ModelField

variable {p : Property} {key name : String}

theorem readExpression_of_direct (hf : p.value.factory = .direct) :
    (readExpression root key p).nullTests = [] := by
  rw [readExpression, hf]
  cases p.required <;> rfl

theorem readExpression_eq (hf : p.value.factory ≠ .direct) : readExpression root key p =
    let input := .read ("$data[" ++ key ++ "]")
    if p.required && !p.value.hints.isNullable then hydrate root p.value.factory input
    else .ifSet input (hydrate root p.value.factory input) := by
  rw [readExpression]
  cases p.required <;> cases p.value.hints.isNullable <;> cases h : p.value.factory with
  | direct => contradiction
  | object | enumeration | list => rfl

theorem writeExpression_of_direct (hf : p.value.factory = .direct) :
    (writeExpression name p).nullTests = [] := by
  rw [writeExpression, hf]
  rfl

theorem writeExpression_eq (hf : p.value.factory ≠ .direct) : writeExpression name p =
    let value := .read ("$this->" ++ name)
    if p.value.hints.isNullable then .unlessNull value (dehydrate p.value.factory value)
    else dehydrate p.value.factory value := by
  rw [writeExpression]
  cases h : p.value.factory with
  | direct => contradiction
  | object | enumeration | list => rfl

theorem handlesNull_read_iff (hp : p.value.factory = m.factory p.value.hints) :
    HandlesNull p.value.hints (readExpression root key p) ↔
      p.value.factory = .direct ∨ ¬ p.value.hints.NullWithin := by
  by_cases hf : p.value.factory = .direct
  case pos => exact iff_of_true (handlesNull_of_nullTests (readExpression_of_direct hf)) (.inl hf)
  case neg =>
    have converts : Converts _ (.read ("$data[" ++ key ++ "]")) (hydrate root _ _) := converts_hydrate hf
    rw [readExpression_eq hf, or_iff_right hf]
    rw [hp] at hf converts ⊢
    dsimp only
    split
    case isTrue h =>
      have never : ¬ p.value.hints.isNullable := by simp_all
      exact converts.handlesNull_iff_of_not_nullable hf never
    case isFalse => exact converts.handlesNull_ifSet_iff hf

theorem handlesNull_write_iff (hp : p.value.factory = m.factory p.value.hints) :
    HandlesNull p.value.hints (writeExpression name p) ↔
      p.value.factory = .direct ∨ ¬ p.value.hints.NullWithin := by
  by_cases hf : p.value.factory = .direct
  case pos => exact iff_of_true (handlesNull_of_nullTests (writeExpression_of_direct hf)) (.inl hf)
  case neg =>
    have converts : Converts _ (.read ("$this->" ++ name)) (dehydrate _ _) := converts_dehydrate hf
    rw [writeExpression_eq hf, or_iff_right hf]
    rw [hp] at hf converts ⊢
    dsimp only
    split
    case isTrue => exact converts.handlesNull_unlessNull_iff hf
    case isFalse never => exact converts.handlesNull_iff_of_not_nullable hf never

end ModelField

namespace DeclaredBody

variable {b : ResponseBody}

theorem read_of_direct (hf : b.value.factory = .direct) : (ofBody root b).read.nullTests = [] := by
  rw [ofBody, hf]
  rfl

theorem read_eq (hf : b.value.factory ≠ .direct) : (ofBody root b).read =
    .unlessNull (.read "$body") (hydrate root b.value.factory (.read "$body")) := by
  rw [ofBody]
  cases h : b.value.factory with
  | direct => contradiction
  | object | enumeration | list => rfl

theorem handlesNull_read_iff (hb : b.value.factory = m.factory b.value.hints) :
    HandlesNull b.value.hints (ofBody root b).read ↔
      b.value.factory = .direct ∨ ¬ b.value.hints.NullWithin := by
  by_cases hf : b.value.factory = .direct
  case pos => exact iff_of_true (handlesNull_of_nullTests (read_of_direct hf)) (.inl hf)
  case neg =>
    have converts : Converts _ (.read "$body") (hydrate root _ _) := converts_hydrate hf
    rw [read_eq hf, or_iff_right hf]
    rw [hb] at hf converts ⊢
    exact converts.handlesNull_unlessNull_iff hf

end DeclaredBody

namespace ExtraFields

theorem conversion_of_direct : ∀ {v : ValueType}, v.factory = .direct →
    (ofValue root v).conversion = none
  | { factory := .direct, .. }, _ => rfl

theorem conversion_eq : ∀ {v : ValueType}, v.factory ≠ .direct → (ofValue root v).conversion =
    some (hydrate root v.factory (.read "$value"), dehydrate v.factory (.read "$value"))
  | { factory := .direct, .. }, hf => absurd rfl hf
  | { factory := .object _, .. }, _ | { factory := .enumeration _, .. }, _
  | { factory := .list _, .. }, _ => rfl

theorem handlesNull_iff (hv : v.factory = m.factory v.hints) :
    (∀ conversion ∈ (ofValue root v).conversion,
      HandlesNull v.hints conversion.1 ∧ HandlesNull v.hints conversion.2) ↔
        v.factory = .direct ∨ .null ∉ v.hints ∧ ¬ v.hints.NullWithin := by
  by_cases hf : v.factory = .direct
  case pos => simp [conversion_of_direct hf, hf]
  case neg =>
    have hydrates : Converts _ (.read "$value") (hydrate root _ _) := converts_hydrate hf
    have dehydrates : Converts _ (.read "$value") (dehydrate _ _) := converts_dehydrate hf
    simp only [conversion_eq hf, Option.mem_some_iff, forall_eq', or_iff_right hf]
    rw [hv] at hf hydrates dehydrates ⊢
    rw [hydrates.handlesNull_iff hf, dehydrates.handlesNull_iff hf, and_self]

end ExtraFields

-- Null is handled for a property or a body exactly if it can only be the value itself, and for an
-- additional value only if it cannot be null at all; unless nothing is converted.
theorem null_handled_iff (hv : v.factory = m.factory v.hints) (root : String) :
    (∀ p : Property, p.value = v →
      (HandlesNull v.hints (ModelField.ofProperty root p).read ∧
        HandlesNull v.hints (ModelField.ofProperty root p).write ↔
          v.factory = .direct ∨ ¬ v.hints.NullWithin)) ∧
    ((∀ conversion ∈ (ExtraFields.ofValue root v).conversion,
      HandlesNull v.hints conversion.1 ∧ HandlesNull v.hints conversion.2) ↔
        v.factory = .direct ∨ .null ∉ v.hints ∧ ¬ v.hints.NullWithin) ∧
    ∀ b : ResponseBody, b.value = v →
      (HandlesNull v.hints (DeclaredBody.ofBody root b).read ↔
        v.factory = .direct ∨ ¬ v.hints.NullWithin) := by
  refine ⟨fun p hp => ?_, ExtraFields.handlesNull_iff hv, fun b hb => ?_⟩
  · subst hp
    rw [ModelField.ofProperty]
    exact (and_congr (ModelField.handlesNull_read_iff hv) (ModelField.handlesNull_write_iff hv)).trans
      and_self_iff
  · subst hb
    exact DeclaredBody.handlesNull_read_iff hv

open Document in
theorem survey_null_handled : ∃ n c, Survey.document.named = .ok n ∧
    Survey.document.client Client.defaultNamespace = .ok c ∧ c.Reads Survey.other ∧
    Survey.other.factory = n.schemas.factory Survey.other.hints ∧
    (∀ p : Property, p.value = Survey.other →
      HandlesNull Survey.other.hints (ModelField.ofProperty c.rootNamespace p).read ∧
        HandlesNull Survey.other.hints (ModelField.ofProperty c.rootNamespace p).write) ∧
    ¬ ∀ conversion ∈ (ExtraFields.ofValue c.rootNamespace Survey.other).conversion,
      HandlesNull Survey.other.hints conversion.1 ∧ HandlesNull Survey.other.hints conversion.2 := by
  obtain ⟨c, e, p, q, hc, he, _, _, _, _, other⟩ := Survey.built
  obtain ⟨n, builds⟩ := builds_of_client hc
  have reads : c.Reads Survey.other := .additional he other
  obtain ⟨_, _, _, at_place⟩ := builds.valueAt_of_reads Survey.distinct reads
  have factory := (NamedDocument.of_valueAt at_place).2.2
  obtain ⟨property, additional, _⟩ := null_handled_iff factory c.rootNamespace
  have within : ¬ Survey.other.hints.NullWithin := by
    rintro ⟨_, _, level, _⟩
    cases level with
    | element array => cases array
  refine ⟨n, c, builds.named, hc, reads, factory, fun p hp => (property p hp).mpr (.inr within), ?_⟩
  rw [additional]
  rintro (direct | ⟨null, _⟩)
  · cases direct
  · exact null (by decide)

-- So null reaches the conversion of an element, and that of an additional value.
theorem not_null_handled : ∃ c e, Survey.document.client Client.defaultNamespace = .ok c ∧
    e ∈ c.entities ∧
    (∃ p ∈ e.properties, p.value.hints = [.array [.model "Answer", .null]] ∧
      p.value.factory = .list (.object "Answer") ∧
      ¬ HandlesNull p.value.hints (ModelField.ofProperty c.rootNamespace p).read ∧
      ¬ HandlesNull p.value.hints (ModelField.ofProperty c.rootNamespace p).write) ∧
    ∃ value ∈ e.additional, value.hints = [.model "Remark", .null] ∧ value.factory = .object "Remark" ∧
      ∃ conversion ∈ (ExtraFields.ofValue c.rootNamespace value).conversion,
        ¬ HandlesNull value.hints conversion.1 ∧ ¬ HandlesNull value.hints conversion.2 := by
  obtain ⟨c, e, p, q, hc, he, _, _, hq, q_value, other⟩ := Survey.built
  obtain ⟨n, builds⟩ := Document.builds_of_client hc
  obtain ⟨_, _, _, at_place⟩ := builds.valueAt_of_reads Survey.distinct (.property he hq)
  have factory := (NamedDocument.of_valueAt at_place).2.2
  have within : q.value.hints.NullWithin := by
    rw [q_value]
    exact ⟨0, [.model "Answer", .null], .element rfl .value, by decide⟩
  have made : q.value.factory ≠ .direct := q_value ▸ nofun
  have unhandled : ¬ (q.value.factory = .direct ∨ ¬ q.value.hints.NullWithin) := by
    simp only [made, within, not_true_eq_false, or_self, not_false_eq_true]
  refine ⟨c, e, hc, he, ⟨q, hq, ?_, ?_, ?_, ?_⟩, _, other, rfl, rfl, _, rfl, ?_, ?_⟩
  · rw [q_value]; rfl
  · rw [q_value]; rfl
  · exact mt (ModelField.handlesNull_read_iff factory).mp unhandled
  · exact mt (ModelField.handlesNull_write_iff factory).mp unhandled
  · exact fun handles => handles 0 _ .value (by decide) rfl
  · exact fun handles => handles 0 _ .value (by decide) rfl

end Php

end OpenApiClient
