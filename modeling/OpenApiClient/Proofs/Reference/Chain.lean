import OpenApiClient.Proofs.Outcome
import OpenApiClient.Reference.Chain

/-!
What stands at the end of a chain of references: what was expected there, and, where references were
followed through annotations, a schema that does not merely annotate another one.
-/

namespace OpenApiClient

theorem run_bind_eq_ok {ε α β : Type} {x : ExceptT ε Id α} {f : α → ExceptT ε Id β} {b : β} :
    (x >>= f).run.run = .ok b ↔ ∃ a, x.run.run = .ok a ∧ (f a).run.run = .ok b := by
  change Except ε α at x
  cases x <;> simp [bind, ExceptT.bind, ExceptT.mk, ExceptT.run, ExceptT.bindCont, Id.run]

namespace Document

variable {d : Document} {reference terminal : String}

theorem resolve_of_follow {α : Type} {target : Reference.Target α} {a : α} {steps : Nat}
    {seen : List String}
    (h : (Reference.follow d.look target seen reference steps).run.run = .ok (terminal, a)) :
    ∃ node, d.resolve terminal = .ok node ∧ target.pick? node = some a := by
  induction steps generalizing seen reference with
  | zero => contradiction
  | succ steps ih =>
    have ⟨node, hn, h⟩ := run_bind_eq_ok.mp h
    split at h
    case h_1 found hp =>
      cases h
      exact ⟨node, hn, hp⟩
    case h_2 =>
      split at h
      case h_1 =>
        split at h
        case isTrue => contradiction
        case isFalse => exact ih h
      case h_2 => contradiction

theorem resolve_of_destination {α : Type} {target : Reference.Target α} {a : α}
    (h : d.destination target reference = .ok (terminal, a)) :
    ∃ node, d.resolve terminal = .ok node ∧ target.pick? node = some a :=
  resolve_of_follow h

-- A reference to what is expected is a chain by itself.
theorem destination_of_resolve {α : Type} {target : Reference.Target α} {a : α} {node : Node}
    (h : d.resolve reference = .ok node) (hp : target.pick? node = some a) :
    d.destination target reference = .ok (reference, a) := by
  unfold destination Reference.destination maxSteps Reference.follow
  refine run_bind_eq_ok.mpr ⟨node, h, ?_⟩
  rw [hp]
  rfl

theorem resolve_of_unwrap {s : Schema} {fuel : Nat} {seen : List String}
    (h : (Reference.unwrap d.look d.maxSteps seen reference fuel).run.run = .ok (terminal, s)) :
    d.resolve terminal = .ok (.schema s) ∧ s.annotatedReference = none := by
  induction fuel generalizing seen reference with
  | zero => contradiction
  | succ fuel ih =>
    have ⟨⟨terminal', s'⟩, hd, h⟩ := run_bind_eq_ok.mp h
    dsimp only at h
    split at h
    case h_1 ha =>
      cases h
      have ⟨node, hn, hp⟩ := resolve_of_destination hd
      cases node <;> cases hp
      exact ⟨hn, ha⟩
    case h_2 =>
      split at h
      case isTrue => contradiction
      case isFalse => exact ih h

-- The schema that a reference means stands where the chain ends.
theorem resolve_of_meantSchema {s : Schema} (h : d.meantSchema reference = .ok (terminal, s)) :
    d.resolve terminal = .ok (.schema s) ∧ s.annotatedReference = none :=
  resolve_of_unwrap h

end Document

end OpenApiClient
