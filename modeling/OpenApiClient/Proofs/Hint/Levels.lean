import OpenApiClient.Client.Value
import OpenApiClient.Proofs.Hint.Mentions

/-!
The levels of hints: those of a value, those of its elements if it is a list, and so on down. Null does not
count for what is a list, as it does not count for how a value is made.
-/

namespace OpenApiClient

namespace Hints

-- `inner` are the hints `k` levels down.
inductive Level : Hints → Nat → Hints → Prop
  | value {hints} : Level hints 0 hints
  | element {hints items k inner} : hints.withoutNull = [.array items] → Level items k inner →
    Level hints (k + 1) inner

-- On some level there are several alternatives beside null, with a class among them or in them.
def Unites (hints : Hints) : Prop :=
  ∃ k inner, Level hints k inner ∧ 1 < inner.withoutNull.length ∧ ∃ cls, Mention inner cls

variable {hints items : Hints} {hint : Hint} {cls : String}

theorem mem_withoutNull : hint ∈ hints.withoutNull ↔ hint ∈ hints ∧ hint ≠ .null := by
  simp [withoutNull]

theorem mention_withoutNull : Mention hints.withoutNull cls ↔ Mention hints cls := by
  constructor
  · rintro ⟨hint, hm, h⟩
    exact ⟨hint, (mem_withoutNull.mp hm).1, h⟩
  · rintro ⟨hint, hm, h⟩
    refine ⟨hint, mem_withoutNull.mpr ⟨hm, ?_⟩, h⟩
    rintro rfl
    exact Hint.mentions_basic h

theorem sizeOf_lt_of_array (h : hints.withoutNull = [.array items]) : sizeOf items < sizeOf hints := by
  have mem : .array items ∈ hints := (mem_withoutNull.mp (h ▸ List.mem_singleton_self _)).1
  have := List.sizeOf_lt_of_mem mem
  simp only [Hint.array.sizeOf_spec] at this
  omega

@[elab_as_elim]
theorem level_induction {motive : Hints → Prop}
    (step : ∀ hints : Hints, (∀ items, hints.withoutNull = [.array items] → motive items) → motive hints)
    (hints : Hints) : motive hints :=
  step hints fun items _ => level_induction step items
termination_by sizeOf hints
decreasing_by exact sizeOf_lt_of_array ‹_›

theorem unites_iff_of_array (h : hints.withoutNull = [.array items]) : Unites hints ↔ Unites items := by
  constructor
  · rintro ⟨_, _, level, several, mentions⟩
    cases level with
    | value => simp [h] at several
    | element h' level =>
      cases h.symm.trans h'
      exact ⟨_, _, level, several, mentions⟩
  · rintro ⟨_, _, level, inner⟩
    exact ⟨_, _, .element h level, inner⟩

end Hints

namespace SchemaIndex

open Hints

variable {m : SchemaIndex} {hints items : Hints}

-- A list is made by what makes its elements, if something does.
theorem factory_of_array (h : hints.withoutNull = [.array items]) :
    m.factory hints = .direct ∧ m.factory items = .direct ∨
      m.factory hints = .list (m.factory items) ∧ m.factory items ≠ .direct := by
  rw [factory_eq, h]
  dsimp only
  rw [hintFactory]
  cases m.factory items <;> simp

-- If there is a way to make each class, then only unions leave one as it is decoded.
theorem factory_eq_direct_iff (classes : ∀ cls, Mention hints cls → m.classFactory cls ≠ .direct) :
    m.factory hints = .direct ↔ (∀ cls, ¬ Mention hints cls) ∨ Unites hints := by
  induction hints using level_induction with
  | step hints ih =>
    have mentions {cls : String} : Mention hints cls ↔ Mention hints.withoutNull cls :=
      mention_withoutNull.symm
    match h : hints.withoutNull with
    | [] => simp [factory_eq, h, mentions]
    | [.basic type] => simp [factory_eq, hintFactory, h, mentions]
    | [.model name] =>
      have made : m.classFactory name ≠ .direct := classes name (by simp [mentions, h])
      have single : ¬ Unites hints := by
        rintro ⟨_, _, ⟨⟩ | ⟨array, _⟩, several, _⟩
        · simp [h] at several
        · cases h.symm.trans array
      simp [factory_eq, hintFactory, h, mentions, made, single]
    | [.array items] =>
      have same : m.factory hints = .direct ↔ m.factory items = .direct := by
        rcases factory_of_array (m := m) h with h | h <;> simp [h]
      have mention_items {cls : String} : Mention hints cls ↔ Mention items cls := by
        simp [mentions, h]
      rw [same, ih items h fun cls hm => classes cls (mention_items.mpr hm), unites_iff_of_array h]
      simp only [mention_items]
    | first :: second :: rest =>
      have several : 1 < hints.withoutNull.length := by simp [h]
      have direct : m.factory hints = .direct := by simp [factory_eq, h]
      by_cases none : ∀ cls, ¬ Mention hints cls
      case pos => simp [direct, none]
      case neg =>
        have unites : Unites hints := ⟨0, hints, .value, several, not_forall_not.mp none⟩
        simp [direct, unites]

end SchemaIndex

end OpenApiClient
