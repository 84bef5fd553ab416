import OpenApiClient.Proofs.Hint.Mentions
import OpenApiClient.Proofs.Reference.Held

/-!
The references that the hints of a place are made from. What any other reference would give does not matter, and
schemas that say the same ask for the same references.
-/

namespace OpenApiClient

theorem exists_same_of_getElem? {α : Type} {same : α → α → Bool} {as bs : List α} {i : Nat} {a : α}
    (h : sameList same as bs) (ha : as[i]? = some a) : ∃ b, bs[i]? = some b ∧ same a b := by
  induction as generalizing bs i <;> cases bs <;> simp only [sameList, Bool.and_eq_true] at h
  case nil.nil | nil.cons | cons.nil => simp_all
  case cons.cons a' as ih b bs =>
    cases i with
    | zero =>
      cases ha
      exact ⟨b, rfl, h.1⟩
    | succ i =>
      obtain ⟨b', hb, hs⟩ := ih h.2 ha
      exact ⟨b', hb, hs⟩

namespace Schema

inductive Asks : SchemaRef → String → Prop
  | ref {target} : Asks (.ref target) target
  | annotated {s target} : s.annotatedReference = some target → Asks (.inline s) target
  | part {s role place target} : s.annotatedReference = none → s.Shows role → s.Has role place →
    Asks place target → Asks (.inline s) target

variable {expand expand' : String → Except BuildError Hints} {form : ValueForm} {name target : String}
  {s t : Schema} {place : SchemaRef}

theorem Asks.references (h : Asks place target) : target ∈ refReferences place := by
  induction h with
  | ref => exact List.mem_singleton_self _
  | annotated ha => exact annotatedReference_mem_references ha
  | part _ _ has _ ih => exact has.references ih

-- An enum is nothing else.
theorem not_asks_of_isEnum (ha : s.annotatedReference = none) (he : s.kind.isEnum) : ¬ Asks (.inline s) target := by
  intro asks
  cases asks with
  | annotated ha' => cases ha.symm.trans ha'
  | @part _ role _ _ _ shows _ _ =>
    cases role with
    | property | additional => exact shows
    | item => exact shows.1 he
    | oneOf | anyOf => exact shows he

theorem memberHints_congr {keyword : String} {i : Nat} {members : List SchemaRef}
    (h : ∀ place ∈ members, ∀ name, hintsAt expand form name place = hintsAt expand' form name place) :
    memberHints expand form name keyword i members = memberHints expand' form name keyword i members := by
  induction members generalizing i with
  | nil => rfl
  | cons place rest ih =>
    obtain ⟨first, others⟩ := List.forall_mem_cons.mp h
    simp only [memberHints, first, ih others]

theorem hints_congr (h : ∀ role place, s.Shows role → s.Has role place → ∀ name,
      hintsAt expand form name place = hintsAt expand' form name place) :
    s.hints expand form name = s.hints expand' form name := by
  rw [hints_eq, hints_eq]
  by_cases he : s.kind.isEnum
  case pos => rw [if_pos he, if_pos he]
  case neg =>
    have items (shows : s.Shows .item) :
        itemHints expand form name s.items = itemHints expand' form name s.items := by
      cases hi : s.items with
      | none => rfl
      | some place => exact h .item place shows (.item hi) _
    have implied : s.impliedHints expand form name = s.impliedHints expand' form name := by
      unfold impliedHints
      split
      case h_2 ht hk => rw [items ⟨he, .inr ⟨ht, hk⟩⟩]
      all_goals rfl
    have declared : s.types.mapM (s.declaredHint expand form name) =
        s.types.mapM (s.declaredHint expand' form name) := by
      refine mapM_congr fun t ht => ?_
      cases t
      case array =>
        simp only [declaredHint]
        rw [items ⟨he, .inl (List.contains_iff_mem.mpr ht)⟩]
      all_goals rfl
    have ones : memberHints expand form name "oneOf" 0 s.oneOf = memberHints expand' form name "oneOf" 0 s.oneOf :=
      memberHints_congr fun place hm => by
        obtain ⟨i, hi⟩ := List.getElem?_of_mem hm
        exact h (.oneOf i) place he (.oneOf hi)
    have anys : memberHints expand form name "anyOf" 0 s.anyOf = memberHints expand' form name "anyOf" 0 s.anyOf :=
      memberHints_congr fun place hm => by
        obtain ⟨i, hi⟩ := List.getElem?_of_mem hm
        exact h (.anyOf i) place he (.anyOf hi)
    rw [if_neg he, if_neg he, implied, ones, anys, declared]

-- Two ways to expand references give a place the same hints if they agree where it asks.
theorem hintsAt_congr (h : ∀ target, Asks place target → expand target = expand' target) :
    hintsAt expand form name place = hintsAt expand' form name place := by
  cases place with
  | ref target => exact h target .ref
  | inline s =>
    induction s using Schema.induction generalizing name with
    | step s parts =>
      cases ha : s.annotatedReference with
      | some target => simp only [hintsAt, ha, h target (.annotated ha)]
      | none =>
        rw [hintsAt_inline ha, hintsAt_inline ha]
        refine hints_congr fun role place shows has name => ?_
        have asked (target : String) (asks : Asks place target) : expand target = expand' target :=
          h target (.part ha shows has asks)
        cases place with
        | ref target => exact asked target .ref
        | inline c => exact parts has asked

-- A part that shows stands in the other schema as well.
theorem shows_of_same {role : Role} (h : s.same t) (shows : s.Shows role) (has : s.Has role place) :
    t.Shows role ∧ ∃ place', t.Has role place' ∧ sameRef place place' := by
  have kind := kind_eq_of_same h
  have types := (shape_of_same h).typeKeyword
  simp only [same_eq, Bool.and_eq_true, beq_iff_eq] at h
  obtain ⟨-, -, -, -, -, -, -, -, -, items, -, oneOf, anyOf, -⟩ := h
  cases has with
  | property | additional => contradiction
  | item hi =>
    rw [hi] at items
    cases ht : t.items with
    | none => simp [ht, sameOption] at items
    | some place' =>
      rw [ht] at items
      exact ⟨by simpa only [Shows, hasType, Schema.types, kind, types] using shows, place', .item ht, items⟩
  | oneOf hi =>
    obtain ⟨place', hi', same⟩ := exists_same_of_getElem? oneOf hi
    exact ⟨by simpa only [Shows, kind] using shows, place', .oneOf hi', same⟩
  | anyOf hi =>
    obtain ⟨place', hi', same⟩ := exists_same_of_getElem? anyOf hi
    exact ⟨by simpa only [Shows, kind] using shows, place', .anyOf hi', same⟩

theorem Asks.of_same {place place' : SchemaRef} (h : Asks place target) (same : sameRef place place') :
    Asks place' target := by
  induction h generalizing place' with
  | ref =>
    cases sameRef_ref.mp same
    exact .ref
  | annotated ha =>
    obtain ⟨t, rfl, ht⟩ := sameRef_inline.mp same
    exact .annotated ((shape_of_same ht).annotatedReference.symm.trans ha)
  | part ha shows has _ ih =>
    obtain ⟨t, rfl, ht⟩ := sameRef_inline.mp same
    obtain ⟨shows', place', has', same'⟩ := shows_of_same ht shows has
    exact .part ((shape_of_same ht).annotatedReference.symm.trans ha) shows' has' (ih same')

end Schema

end OpenApiClient
