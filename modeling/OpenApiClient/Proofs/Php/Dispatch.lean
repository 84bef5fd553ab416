import OpenApiClient.Php.ApiFile
import OpenApiClient.Proofs.Naming.Letters
import OpenApiClient.Proofs.Position
import Std.Data.String.ToNat

/-!
Which response answers for a status: the first one that has the status for its key, or else the first one with a range
that the status lies in, or else the last default. Keys of another form do not count.
-/

namespace OpenApiClient

open Naming

namespace StatusResponse

-- The key is the status, in digits.
def names (status : Nat) (r : StatusResponse) : Bool :=
  Text.readUnsigned 65535 r.status.toList = some status

-- The key is the range of the statuses with so many hundreds.
def isRange (hundreds : Nat) (r : StatusResponse) : Bool :=
  1 ≤ hundreds ∧ hundreds ≤ 5 ∧ foldCase r.status = toString hundreds ++ "xx"

def covers (status : Nat) (r : StatusResponse) : Bool := r.isRange (status / 100)

def isDefault (r : StatusResponse) : Bool := foldCase r.status = "default"

-- The key has one of these forms.
def isKnown (r : StatusResponse) : Bool :=
  (Text.readUnsigned 65535 r.status.toList).isSome || [1, 2, 3, 4, 5].any (r.isRange ·) || r.isDefault

-- The response that answers for a status.
def answering? (responses : List StatusResponse) (status : Nat) : Option StatusResponse :=
  ((responses.find? (·.names status)).or (responses.find? (·.covers status))).or (responses.reverse.find? (·.isDefault))

end StatusResponse

namespace Php

namespace StatusTest

variable {key : String} {test : StatusTest} {status hundreds bound : Nat} {c : Char} {s : List Char}

theorem of_readUnsigned (h : Text.readUnsigned bound s = some status) : ∀ c ∈ s, c = '+' ∨ c.isDigit := by
  have digits {s : List Char} (all : s.all Text.isAsciiDigit) : ∀ c ∈ s, c.isDigit := List.all_eq_true.mp all
  simp only [Text.readUnsigned, Option.ite_none_right_eq_some] at h
  obtain ⟨⟨-, all, -⟩, -⟩ := h
  split at all
  case h_1 => exact List.forall_mem_cons.mpr ⟨.inl rfl, fun c hc => .inr (digits all c hc)⟩
  case h_2 => exact fun c hc => .inr (digits all c hc)

-- A number has no letters, whatever their case.
theorem readUnsigned_eq_none (hc : c ∈ (foldCase key).toList) (letter : c.isAlpha) :
    Text.readUnsigned bound key.toList = none := by
  cases read : Text.readUnsigned bound key.toList with
  | none => rfl
  | some status =>
    simp only [foldCase, String.toList_ofList, List.mem_map] at hc
    obtain ⟨x, hx, rfl⟩ := hc
    rcases of_readUnsigned read x hx with rfl | digit
    case inl => contradiction
    case inr =>
      rw [toLower_of_isDigit (.inl digit)] at letter
      have not_digit := isDigit_of_isLetter (c := x) (by simp [isLetter, letter])
      rw [digit] at not_digit
      contradiction

theorem between_iff : '1' ≤ c ∧ c ≤ '5' ↔ Text.isAsciiDigit c ∧ 1 ≤ Text.digitValue c ∧ Text.digitValue c ≤ 5 := by
  simp [Text.isAsciiDigit, Text.digitValue, Char.le_def, UInt32.le_iff_toNat_le]
  omega

theorem digitChar_hundreds : ∀ hundreds ≤ 5, 1 ≤ hundreds → (Nat.digitChar hundreds).isDigit ∧
    '1' ≤ Nat.digitChar hundreds ∧ Nat.digitChar hundreds ≤ '5' ∧
    Text.digitValue (Nat.digitChar hundreds) = hundreds := by
  decide

theorem range?_eq_some_iff : range? key.toList = some test ↔
    ∃ hundreds, test = .hundreds hundreds ∧ 1 ≤ hundreds ∧ hundreds ≤ 5 ∧
      foldCase key = toString hundreds ++ "xx" := by
  have folded {hundreds : Nat} (small : hundreds ≤ 5) : foldCase key = toString hundreds ++ "xx" ↔
      key.toList.map Char.toLower = Nat.digitChar hundreds :: ['x', 'x'] := by
    have digits : Nat.toDigits 10 hundreds = [Nat.digitChar hundreds] := Nat.toDigits_of_lt_base (by omega)
    rw [← String.toList_inj]
    simp [foldCase, digits]
  constructor
  · intro h
    cases chars : key.toList with
    | nil => simp [chars, range?] at h
    | cons c rest =>
      rw [chars, range?, Option.ite_none_right_eq_some] at h
      obtain ⟨⟨first, last, letters⟩, hundreds⟩ := h
      obtain ⟨digit, first, last⟩ := between_iff.mp ⟨first, last⟩
      refine ⟨Text.digitValue c, (Option.some.inj hundreds).symm, first, last, (folded last).mpr ?_⟩
      rw [chars, List.map_cons, letters, Text.digitChar_digitValue digit, toLower_of_isDigit (.inl digit)]
  · rintro ⟨hundreds, rfl, some_hundred, small, same⟩
    obtain ⟨digit, first, last, value⟩ := digitChar_hundreds hundreds small some_hundred
    have same := (folded small).mp same
    cases chars : key.toList with
    | nil => simp [chars] at same
    | cons c rest =>
      rw [chars, List.map_cons, List.cons.injEq] at same
      obtain ⟨lower, letters⟩ := same
      rw [toLower_of_isDigit (.inr (lower ▸ digit))] at lower
      simp [range?, lower, letters, first, last, value]

-- A key has at most one of the three forms.
theorem ofKey?_eq_some_iff : ofKey? key = some test ↔
    (∃ status, test = .exactly status ∧ Text.readUnsigned 65535 key.toList = some status) ∨
    (∃ hundreds, test = .hundreds hundreds ∧ 1 ≤ hundreds ∧ hundreds ≤ 5 ∧
      foldCase key = toString hundreds ++ "xx") ∨
    test = .otherwise ∧ foldCase key = "default" := by
  unfold ofKey?
  split
  case isTrue default =>
    have unread : Text.readUnsigned 65535 key.toList = none :=
      readUnsigned_eq_none (c := 'd') (by simp [default]) (by decide)
    have no_range : ∀ hundreds ≤ 5, "default" ≠ toString hundreds ++ "xx" := by decide
    rw [unread, default, Option.some.injEq, eq_comm]
    constructor
    · exact fun test_eq => .inr (.inr ⟨test_eq, rfl⟩)
    · rintro (⟨_, _, ⟨⟩⟩ | ⟨hundreds, _, _, small, same⟩ | ⟨test_eq, _⟩)
      · exact absurd same (no_range hundreds small)
      · exact test_eq
  case isFalse =>
    split
    case h_1 status read =>
      have no_range (hundreds : Nat) : foldCase key ≠ toString hundreds ++ "xx" := by
        intro same
        rw [readUnsigned_eq_none (c := 'x') (by simp [same]) (by decide)] at read
        exact absurd read.symm (Option.some_ne_none _)
      rw [Option.some.injEq, eq_comm]
      simp_all
    case h_2 => simp [range?_eq_some_iff, *]

-- The conditions that are true of a status, as they are written.
def conditions (status : Nat) : List String :=
  ["$httpStatus === " ++ toString status, "intdiv($httpStatus, 100) === " ++ toString (status / 100), "default"]

theorem append_ne_append {s t : String} {a b : Char} (ha : s.toList.head? = some a) (hb : t.toList.head? = some b)
    (h : a ≠ b) (more rest : String) : s ++ more ≠ t ++ rest := by
  intro same
  have same := congrArg (·.toList.head?) same
  simp only [String.toList_append, List.head?_append, ha, hb, Option.some_or, Option.some.injEq] at same
  exact h same

theorem accepts_iff (test : StatusTest) : test.accepts status ↔ test.text ∈ conditions status := by
  have exact_ne_range (m n : Nat) : "$httpStatus === " ++ toString m ≠ "intdiv($httpStatus, 100) === " ++ toString n :=
    append_ne_append rfl rfl (by decide) _ _
  have default_eq : "default" = "default" ++ "" := rfl
  have exact_ne_default (n : Nat) : "$httpStatus === " ++ toString n ≠ "default" :=
    default_eq ▸ append_ne_append rfl rfl (by decide) _ _
  have range_ne_default (n : Nat) : "intdiv($httpStatus, 100) === " ++ toString n ≠ "default" :=
    default_eq ▸ append_ne_append rfl rfl (by decide) _ _
  have numbers {head : String} {m n : Nat} (same : head ++ toString m = head ++ toString n) : m = n :=
    Nat.repr_injective ((String.append_right_inj head).mp same)
  simp only [conditions, List.mem_cons, List.not_mem_nil, or_false]
  cases test with
  | exactly expected =>
    refine ⟨fun accepted => .inl (of_decide_eq_true accepted ▸ rfl), ?_⟩
    rintro (same | same | same)
    · exact decide_eq_true (numbers same).symm
    · exact absurd same (exact_ne_range _ _)
    · exact absurd same (exact_ne_default _)
  | hundreds digit =>
    refine ⟨fun accepted => .inr (.inl (of_decide_eq_true accepted ▸ rfl)), ?_⟩
    rintro (same | same | same)
    · exact absurd same.symm (exact_ne_range _ _)
    · exact decide_eq_true (numbers same).symm
    · exact absurd same (range_ne_default _)
  | otherwise => exact iff_of_true rfl (.inr (.inr rfl))

end StatusTest

section

open StatusTest

variable {root : String} {responses : List StatusResponse} {status : Nat} {r : StatusResponse}
  {p : StatusArm → Bool} {q : StatusResponse → Bool}

theorem any_statusArm_iff : (statusArm? root r).any p ↔
    ∃ test, ofKey? r.status = some test ∧ p ⟨test, .construct (responseClass root r.className)⟩ := by
  cases said : ofKey? r.status <;> simp [statusArm?, said]

theorem any_eq_names (h : ∀ test outcome, p ⟨test, outcome⟩ ↔ test = .exactly status) :
    (statusArm? root r).any p = r.names status := by
  rw [Bool.eq_iff_iff, any_statusArm_iff]
  simp [h, ofKey?_eq_some_iff, StatusResponse.names]

theorem any_eq_covers (h : ∀ test outcome, p ⟨test, outcome⟩ ↔ test = .hundreds (status / 100)) :
    (statusArm? root r).any p = r.covers status := by
  rw [Bool.eq_iff_iff, any_statusArm_iff]
  simp [h, ofKey?_eq_some_iff, StatusResponse.covers, StatusResponse.isRange]

theorem any_eq_isDefault (h : ∀ test outcome, p ⟨test, outcome⟩ ↔ test = .otherwise) :
    (statusArm? root r).any p = r.isDefault := by
  rw [Bool.eq_iff_iff, any_statusArm_iff]
  simp [h, ofKey?_eq_some_iff, StatusResponse.isDefault]

-- The first arm of some form constructs the class of the first response whose key has it.
theorem outcome_find? (same : ∀ r, (statusArm? root r).any p = q r) :
    ((responses.filterMap (statusArm? root)).find? p).map (·.outcome) =
      (responses.find? q).map fun r => .construct (responseClass root r.className) := by
  rw [List.find?_filterMap]
  simp only [same]
  cases found : responses.find? q with
  | none => rfl
  | some r =>
    have said := (same r).trans (List.find?_some found)
    obtain ⟨test, said, -⟩ := any_statusArm_iff.mp said
    simp [statusArm?, said]

-- The last default, or else the exception, is for all other statuses.
theorem default_arm :
    (((responses.filterMap (statusArm? root)).filter (·.test = .otherwise)).getLast?).getD
      ⟨.otherwise, .fail (exceptionClass root)⟩ =
    ⟨.otherwise, (responses.reverse.find? (·.isDefault)).elim (.fail (exceptionClass root))
      fun r => .construct (responseClass root r.className)⟩ := by
  have outcome : ((responses.reverse.filterMap (statusArm? root)).find? (·.test = .otherwise)).map (·.outcome) =
      (responses.reverse.find? (·.isDefault)).map fun r => .construct (responseClass root r.className) :=
    outcome_find? fun r => any_eq_isDefault (by simp)
  rw [List.getLast?_eq_head?_reverse, ← List.filter_reverse, ← List.filterMap_reverse, List.head?_filter]
  cases found : (responses.reverse.filterMap (statusArm? root)).find? (·.test = .otherwise) with
  | none =>
    rw [found, Option.map_none, eq_comm, Option.map_eq_none_iff] at outcome
    rw [outcome]
    rfl
  | some arm =>
    have test : arm.test = .otherwise := by simpa using List.find?_some found
    rw [found, Option.map_some, eq_comm, Option.map_eq_some_iff] at outcome
    obtain ⟨r, last, outcome⟩ := outcome
    rw [last, Option.elim_some, outcome, ← test]
    rfl

theorem dispatch_statusArms : dispatch (statusArms root responses) status =
    some ((StatusResponse.answering? responses status).elim (.fail (exceptionClass root))
      fun r => .construct (responseClass root r.className)) := by
  unfold statusArms dispatch StatusResponse.answering?
  dsimp only
  rw [default_arm, List.find?_append, List.find?_append, List.find?_filter, List.find?_filter, Option.map_or,
    Option.map_or, outcome_find? (q := (·.names status)) fun r => any_eq_names ?exact,
    outcome_find? (q := (·.covers status)) fun r => any_eq_covers ?range, ← Option.map_or]
  case exact =>
    intro test outcome
    cases test <;> simp [accepts, eq_comm]
  case range =>
    intro test outcome
    cases test <;> simp [accepts, eq_comm]
  cases (responses.find? (·.names status)).or (responses.find? (·.covers status)) <;> rfl

theorem statusArm?_eq_none (h : r.isKnown = false) : statusArm? root r = none := by
  cases said : ofKey? r.status with
  | none => simp [statusArm?, said]
  | some test =>
    rcases ofKey?_eq_some_iff.mp said with ⟨_, -, read⟩ | ⟨hundreds, -, first, last, range⟩ | ⟨-, default⟩
    · simp [StatusResponse.isKnown, read] at h
    · have among : hundreds ∈ [1, 2, 3, 4, 5] := by simp; omega
      simp only [StatusResponse.isKnown, Bool.or_eq_false_iff, List.any_eq_false] at h
      exact absurd (by simp [StatusResponse.isRange, *]) (h.1.2 hundreds among)
    · simp [StatusResponse.isKnown, StatusResponse.isDefault, default] at h

theorem filterMap_known : (responses.filter (·.isKnown)).filterMap (statusArm? root) =
    responses.filterMap (statusArm? root) := by
  induction responses with
  | nil => rfl
  | cons r rest ih =>
    cases known : r.isKnown with
    | true => simp [known, List.filterMap_cons, ih]
    | false => simp [known, statusArm?_eq_none known, ih]

end

-- The first arm whose condition is true of a status, all as it is written.
def evaluate (arms : List StatusArm) (status : Nat) : Option String :=
  (arms.find? (·.test.text ∈ StatusTest.conditions status)).map (·.outcome.text)

theorem evaluate_eq (arms : List StatusArm) (status : Nat) :
    evaluate arms status = (dispatch arms status).map (·.text) := by
  have same (arm : StatusArm) : decide (arm.test.text ∈ StatusTest.conditions status) = arm.test.accepts status := by
    rw [Bool.eq_iff_iff, decide_eq_true_eq, StatusTest.accepts_iff]
  simp only [evaluate, dispatch, same, Option.map_map, Function.comp_def]

-- What a method does with an answer ends with a match. Trying its arms from the first to the last comes to the response
-- that answers for the status, or to the exception if none does. Responses with keys of no known form have no arms.
theorem status_dispatched (root : String) {e : Endpoint} (h : e.responses ≠ []) (status : Nat) :
    (enclose "return match (true) \x7b" ((statusArms root e.responses).map (·.text)) "\x7d;" <:+ dispatchLines root e) ∧
    evaluate (statusArms root e.responses) status =
      some ((StatusResponse.answering? e.responses status).elim (StatusOutcome.fail (exceptionClass root)).text
        fun r => (StatusOutcome.construct (responseClass root r.className)).text) ∧
    statusArms root (e.responses.filter (·.isKnown)) = statusArms root e.responses := by
  refine ⟨?_, ?_, ?_⟩
  · rw [dispatchLines, if_neg h]
    exact List.suffix_append _ _
  · rw [evaluate_eq, dispatch_statusArms, Option.map_some]
    cases StatusResponse.answering? e.responses status <;> rfl
  · simp only [statusArms, filterMap_known]

end Php

namespace Desk

-- Keys in unusual spellings, the more general ones first, and one of no known form.
def fetch : Endpoint where
  methodName := "fetch"
  method := .get
  path := "/desk"
  responses := [⟨"default", "Fetched"⟩, ⟨"2xX", "FetchedSome"⟩, ⟨"20O", "FetchedTypo"⟩, ⟨"+0200", "FetchedAll"⟩,
    ⟨"200", "FetchedAgain"⟩, ⟨"Default", "FetchedOther"⟩]

end Desk

theorem Php.desk_dispatched : Desk.fetch.responses ≠ [] ∧ ["\x7d;"] <:+ dispatchLines "Acme" Desk.fetch ∧
    evaluate (statusArms "Acme" Desk.fetch.responses) 200 =
      some "\\Acme\\Response\\FetchedAll::fromDecoded($httpStatus, $httpPayload, $httpHeaders)" ∧
    evaluate (statusArms "Acme" Desk.fetch.responses) 204 =
      some "\\Acme\\Response\\FetchedSome::fromDecoded($httpStatus, $httpPayload, $httpHeaders)" ∧
    evaluate (statusArms "Acme" Desk.fetch.responses) 404 =
      some "\\Acme\\Response\\FetchedOther::fromDecoded($httpStatus, $httpPayload, $httpHeaders)" := by
  have some_response : Desk.fetch.responses ≠ [] := List.cons_ne_nil _ _
  have dispatched := status_dispatched "Acme" some_response
  refine ⟨some_response, ?_, ?_, ?_, ?_⟩
  · exact .trans (List.suffix_append _ _) (dispatched 200).1
  · exact (dispatched 200).2.1.trans (by decide +kernel)
  · exact (dispatched 204).2.1.trans (by decide +kernel)
  · exact (dispatched 404).2.1.trans (by decide +kernel)

end OpenApiClient
