import Mathlib.Logic.Function.Iterate
import Mathlib.Logic.Relation
import OpenApiClient.Proofs.Reference.Followed

/-!
Where references lead. There is one way to go on from each of them, so that either the way comes to an end or the same
references come back for ever; and whoever remembers which ones were seen can tell.
-/

namespace OpenApiClient

open Relation

section

variable {α β : Type} {step : α → α → Prop} {goal : α → β → Prop} {a b c : α} {x : β}

-- From `a` one can go on and on.
def Endless (step : α → α → Prop) (a : α) : Prop :=
  ∃ way : Nat → α, way 0 = a ∧ ∀ n, step (way n) (way (n + 1))

theorem Endless.of_onward (inside : α → Prop) (onward : ∀ a, inside a → ∃ b, step a b ∧ inside b)
    (h : inside a) : Endless step a := by
  choose next steps stays using onward
  let way (n : Nat) : {a // inside a} := (fun a => ⟨next a a.2, stays a a.2⟩)^[n] ⟨a, h⟩
  have onward (n : Nat) : way (n + 1) = ⟨next (way n) (way n).2, stays _ _⟩ := Function.iterate_succ_apply' ..
  refine ⟨fun n => way n, rfl, fun n => ?_⟩
  simp only [onward]
  exact steps _ _

theorem Endless.of_cycle (h : ReflTransGen step a b) (cycle : TransGen step b b) : Endless step a := by
  refine of_onward (ReflTransGen step · b) (fun a ha => ?_) h
  rcases ha.cases_head with rfl | ⟨next, first, rest⟩
  · exact TransGen.head'_iff.mp cycle
  · exact ⟨next, first, rest⟩

theorem Endless.mono {step' : α → α → Prop} (h : Endless step a) (sub : ∀ {a b}, step a b → step' a b) :
    Endless step' a :=
  have ⟨way, start, steps⟩ := h
  ⟨way, start, fun n => sub (steps n)⟩

theorem Endless.head (first : step a b) (h : Endless step b) : Endless step a := by
  obtain ⟨way, rfl, steps⟩ := h
  refine ⟨fun n => n.casesOn a way, rfl, fun n => ?_⟩
  cases n with
  | zero => exact first
  | succ n => exact steps n

-- There is one way to go on from where one is, unless one is at a goal, and one thing to find there.
structure Guided (step : α → α → Prop) (goal : α → β → Prop) : Prop where
  next_eq : ∀ {a b c}, step a b → step a c → b = c
  stops : ∀ {a x b}, goal a x → ¬ step a b
  found_eq : ∀ {a x y}, goal a x → goal a y → x = y

-- Wherever one gets, an endless way goes on.
theorem Endless.onward (guided : Guided step goal) (h : Endless step a) (hb : ReflTransGen step a b) :
    ∃ c, step b c := by
  obtain ⟨way, rfl, steps⟩ := h
  have on_way : ∃ n, b = way n := by
    induction hb with
    | refl => exact ⟨0, rfl⟩
    | tail _ last ih =>
      obtain ⟨n, rfl⟩ := ih
      exact ⟨n + 1, guided.next_eq last (steps n)⟩
  obtain ⟨n, rfl⟩ := on_way
  exact ⟨_, steps n⟩

theorem Guided.goal_eq (guided : Guided step goal) (hb : ReflTransGen step a b) (hx : goal b x)
    (hc : ReflTransGen step a c) (stuck : ∀ d, ¬ step c d) : b = c := by
  have unique : Relator.RightUnique step := fun _ _ _ => guided.next_eq
  rcases hb.total_of_right_unique unique hc with between | between
  · rcases between.cases_head with rfl | ⟨_, first, _⟩
    · rfl
    · exact absurd first (guided.stops hx)
  · rcases between.cases_head with rfl | ⟨_, first, _⟩
    · rfl
    · exact absurd first (stuck _)

end

section

variable {α : Type} {step : String → String → Prop} {goal : String → α → Prop} {start next : String}
  {outcome : Except ResolveError (String × α)}

-- How following references from `start` can come out.
inductive Ends (step : String → String → Prop) (goal : String → α → Prop) (start : String) :
    Except ResolveError (String × α) → Prop
  | reached {last found} : ReflTransGen step start last → goal last found → Ends step goal start (.ok (last, found))
  | stuck {last error} : ReflTransGen step start last → (∀ next, ¬ step last next) → (∀ found, ¬ goal last found) →
    (∀ chain, error ≠ .circular chain) → Ends step goal start (.error error)
  | endless {chain} : Endless step start → Ends step goal start (.error (.circular chain))

namespace Ends

theorem head (first : step start next) (h : Ends step goal next outcome) : Ends step goal start outcome := by
  cases h with
  | reached way found => exact .reached (.head first way) found
  | stuck way stuck nothing other => exact .stuck (.head first way) stuck nothing other
  | endless h => exact .endless (h.head first)

theorem run (way : ReflTransGen step start next) (h : Ends step goal next outcome) : Ends step goal start outcome := by
  induction way using ReflTransGen.head_induction_on with
  | refl => exact h
  | head first _ ih => exact ih.head first

theorem eq_ok_iff (guided : Guided step goal) (h : Ends step goal start outcome) (last : String) (found : α) :
    outcome = .ok (last, found) ↔ ReflTransGen step start last ∧ goal last found where
  mp := by
    rintro rfl
    cases h with
    | reached way found => exact ⟨way, found⟩
  mpr := by
    rintro ⟨way, there⟩
    cases h with
    | reached way' there' =>
      obtain rfl := guided.goal_eq way there way' fun _ => guided.stops there'
      rw [guided.found_eq there there']
    | stuck way' stuck nothing =>
      obtain rfl := guided.goal_eq way there way' stuck
      exact absurd there (nothing found)
    | endless h =>
      obtain ⟨_, onward⟩ := h.onward guided way
      exact absurd onward (guided.stops there)

theorem circular_iff (guided : Guided step goal) (h : Ends step goal start outcome) :
    (∃ chain, outcome = .error (.circular chain)) ↔ Endless step start where
  mp := by
    rintro ⟨chain, rfl⟩
    cases h with
    | stuck _ _ _ other => exact absurd rfl (other chain)
    | endless h => exact h
  mpr endless := by
    cases h with
    | reached way there =>
      obtain ⟨_, onward⟩ := endless.onward guided way
      exact absurd onward (guided.stops there)
    | stuck way stuck =>
      obtain ⟨_, onward⟩ := endless.onward guided way
      exact absurd onward (stuck _)
    | endless => exact ⟨_, rfl⟩

end Ends

end

-- What a chain of references can be followed for.
inductive Reference.Wanted where
  | schema
  | response
  | parameter
  | requestBody

namespace Reference.Wanted

abbrev Value : Wanted → Type
  | schema => Schema
  | response => Response
  | parameter => Parameter
  | requestBody => RequestBody

def target : (wanted : Wanted) → Target wanted.Value
  | schema => .schema
  | response => .response
  | parameter => .parameter
  | requestBody => .requestBody

-- The node where it is written.
def node : (wanted : Wanted) → wanted.Value → Node
  | schema => .schema
  | response => .response
  | parameter => .parameter
  | requestBody => .requestBody

theorem pick?_eq_some {wanted : Wanted} {place : Node} {value : wanted.Value} :
    wanted.target.pick? place = some value ↔ place = wanted.node value := by
  cases wanted <;> cases place <;> simp [target, node, Target.schema, Target.response, Target.parameter,
    Target.requestBody]

theorem node_ne_reference {wanted : Wanted} {value : wanted.Value} {next : String} :
    wanted.node value ≠ .reference next := by
  cases wanted <;> exact nofun

theorem node_inj {wanted : Wanted} {value value' : wanted.Value} (h : wanted.node value = wanted.node value') :
    value = value' := by
  cases wanted <;> cases h <;> rfl

end Reference.Wanted

namespace Document

open Reference

-- Where a reference points to there is another one.
def Refers (d : Document) (reference next : String) : Prop :=
  d.resolve reference = .ok (.reference next)

-- Where a reference points to there is another one, or a schema that merely annotates another one.
inductive StandsFor (d : Document) : String → String → Prop
  | refers {reference next} : d.Refers reference next → StandsFor d reference next
  | annotates {reference s next} : d.resolve reference = .ok (.schema s) → s.annotatedReference = some next →
    StandsFor d reference next

-- A schema that has more to say than that it is another one.
def MeantAt (d : Document) (reference : String) (s : Schema) : Prop :=
  d.resolve reference = .ok (.schema s) ∧ s.annotatedReference = none

variable {d : Document} {wanted : Wanted} {reference current : String} {seen chain : List String}

theorem resolve_ne_circular : d.resolve reference ≠ .error (.circular chain) := by
  have walked (way : List String) : ((Node.document d).walk way).mapError (ResolveError.brokenReference reference ·) ≠
      .error (ResolveError.circular chain) := by
    cases (Node.document d).walk way <;> exact nofun
  unfold resolve
  cases hs : Pointer.segments reference with
  | ok way => exact walked way
  | error error =>
    unfold Pointer.segments at hs
    split at hs <;> cases hs
    exact nofun

theorem guided_refers : Guided d.Refers fun last value => d.resolve last = .ok (wanted.node value) where
  next_eq h h' := by
    cases h.symm.trans h'
    rfl
  stops h h' := by
    have same := h.symm.trans h'
    exact Wanted.node_ne_reference (Except.ok.inj same)
  found_eq h h' := Wanted.node_inj (Except.ok.inj (h.symm.trans h'))

theorem guided_standsFor : Guided d.StandsFor d.MeantAt where
  next_eq h h' := by
    cases h with
    | refers h =>
      cases h' with
      | refers h' => cases h.symm.trans h'; rfl
      | annotates h' => cases h.symm.trans h'
    | annotates h ha =>
      cases h' with
      | refers h' => cases h.symm.trans h'
      | annotates h' ha' =>
        cases h.symm.trans h'
        exact Option.some.inj (ha.symm.trans ha')
  stops h h' := by
    cases h' with
    | refers h' => cases h.1.symm.trans h'
    | annotates h' ha =>
      cases h.1.symm.trans h'
      cases h.2.symm.trans ha
  found_eq h h' := by
    cases h.1.symm.trans h'.1
    rfl

-- What was seen before is on the way to where one is, so that coming back to it goes on for ever.
theorem Follows.ends {outcome : Except ResolveError (String × wanted.Value)}
    (h : d.Follows wanted.target seen current outcome) (led : ∀ r ∈ seen, ReflTransGen d.Refers r current) :
    Ends d.Refers (fun last value => d.resolve last = .ok (wanted.node value)) current outcome := by
  induction h with
  | @broken _ current error hn =>
    refine .stuck .refl (fun _ onward => ?_) (fun _ there => ?_) fun chain circular => ?_
    · cases hn.symm.trans onward
    · cases hn.symm.trans there
    · exact resolve_ne_circular (circular ▸ hn)
  | found hn hp => exact .reached .refl (Wanted.pick?_eq_some.mp hp ▸ hn)
  | @unexpected _ current node hn hp other =>
    refine .stuck .refl (fun next onward => ?_) (fun value there => ?_) fun _ => nofun
    · exact other next (Except.ok.inj (hn.symm.trans onward))
    · have same : node = wanted.node value := Except.ok.inj (hn.symm.trans there)
      cases hp.symm.trans (Wanted.pick?_eq_some.mpr same)
  | @circular seen current next hn _ again =>
    have back : ReflTransGen d.Refers next current := by
      rcases List.mem_cons.mp again with rfl | earlier
      · exact .refl
      · exact led _ earlier
    exact .endless (.of_cycle .refl (.head' hn back))
  | next hn _ _ _ ih =>
    refine .head hn (ih ?_)
    exact List.forall_mem_cons.mpr ⟨.single hn, fun r hr => (led r hr).tail hn⟩

theorem ends_destination : Ends d.Refers (fun last value => d.resolve last = .ok (wanted.node value)) reference
    (d.destination wanted.target reference) :=
  follows_destination.ends (List.forall_mem_nil _)

theorem Unwraps.ends {outcome : Except ResolveError (String × Schema)} (h : d.Unwraps seen reference outcome)
    (led : ∀ r ∈ seen, TransGen d.StandsFor r reference) : Ends d.StandsFor d.MeantAt reference outcome := by
  have lift {a b : String} (way : ReflTransGen d.Refers a b) : ReflTransGen d.StandsFor a b :=
    way.lift id fun _ _ => .refers
  have ends {reference : String} {outcome} (h : d.Follows (Wanted.target .schema) [] reference outcome) :=
    h.ends (List.forall_mem_nil _)
  induction h with
  | broken h =>
    cases ends h with
    | stuck way stuck nothing other =>
      refine .stuck (lift way) (fun next onward => ?_) (fun s there => nothing s there.1) other
      cases onward with
      | refers onward => exact stuck next onward
      | annotates there => exact nothing _ there
    | endless endless => exact .endless (endless.mono .refers)
  | found h ha =>
    cases ends h with
    | reached way there => exact .reached (lift way) ⟨there, ha⟩
  | circular h ha again =>
    cases ends h with
    | reached way there => exact .endless (.of_cycle (lift way) ((led _ again).trans_left (lift way)))
  | next h ha _ _ ih =>
    cases ends h with
    | reached way there =>
      have onward := TransGen.tail' (lift way) (.annotates there ha)
      refine .run onward.to_reflTransGen (ih ?_)
      refine List.forall_mem_cons.mpr ⟨.single (.annotates there ha), fun r hr => (led r hr).trans onward⟩

theorem ends_meantSchema : Ends d.StandsFor d.MeantAt reference (d.meantSchema reference) :=
  unwraps_meantSchema.ends (List.forall_mem_nil _)

-- References are followed to where they lead, and given up exactly if they lead nowhere. The rules of `Follows` and
-- `Unwraps` bound no steps, so that they come to an end by themselves.
theorem followed_exactly (d : Document) (reference : String) :
    (∀ wanted : Wanted,
      (∀ outcome, d.Follows wanted.target [] reference outcome ↔ d.destination wanted.target reference = outcome) ∧
      (∀ last value, d.destination wanted.target reference = .ok (last, value) ↔
        ReflTransGen d.Refers reference last ∧ d.resolve last = .ok (wanted.node value)) ∧
      ((∃ chain, d.destination wanted.target reference = .error (.circular chain)) ↔ Endless d.Refers reference)) ∧
    (∀ outcome, d.Unwraps [] reference outcome ↔ d.meantSchema reference = outcome) ∧
    (∀ last s, d.meantSchema reference = .ok (last, s) ↔
      ReflTransGen d.StandsFor reference last ∧ d.resolve last = .ok (.schema s) ∧ s.annotatedReference = none) ∧
    ((∃ chain, d.meantSchema reference = .error (.circular chain)) ↔ Endless d.StandsFor reference) := by
  refine ⟨fun wanted => ⟨fun _ => follows_iff, ?_, ?_⟩, fun _ => unwraps_iff, ?_, ?_⟩
  · exact ends_destination.eq_ok_iff guided_refers
  · exact ends_destination.circular_iff guided_refers
  · exact ends_meantSchema.eq_ok_iff guided_standsFor
  · exact ends_meantSchema.circular_iff guided_standsFor

end Document

end OpenApiClient
