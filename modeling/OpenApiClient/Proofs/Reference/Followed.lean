import Mathlib.Data.List.Perm.Subperm
import OpenApiClient.Proofs.Reference.Chain
import OpenApiClient.Proofs.Reference.Held

/-!
Following references for as long as it takes. The rules bound no steps; whoever counts as many as the document
has references finds the same.
-/

namespace OpenApiClient

section

variable {ε α β : Type} {x : ExceptT ε Id α} {f : α → ExceptT ε Id β} {a : α} {e : ε}

theorem run_bind_of_ok (h : x.run.run = .ok a) : (x >>= f).run.run = (f a).run.run := by
  change Except ε α at x
  cases x <;> cases h
  rfl

theorem run_bind_of_error (h : x.run.run = .error e) : (x >>= f).run.run = .error e := by
  change Except ε α at x
  cases x <;> cases h
  rfl

end

namespace Document

open Reference

-- What comes of following references from `current`, which `seen` led to, most recent first.
inductive Follows {α : Type} (d : Document) (target : Target α) :
    List String → String → Except ResolveError (String × α) → Prop
  | broken {seen current error} : d.resolve current = .error error → Follows d target seen current (.error error)
  | found {seen current node found} : d.resolve current = .ok node → target.pick? node = some found →
    Follows d target seen current (.ok (current, found))
  | unexpected {seen current node} : d.resolve current = .ok node → target.pick? node = none →
    (∀ next, node ≠ .reference next) →
    Follows d target seen current (.error (.unexpectedTarget current target.kind node.kind))
  | circular {seen current next} : d.resolve current = .ok (.reference next) →
    target.pick? (.reference next) = none → next ∈ current :: seen →
    Follows d target seen current (.error (.circular (next :: current :: seen).reverse))
  | next {seen current next outcome} : d.resolve current = .ok (.reference next) →
    target.pick? (.reference next) = none → next ∉ current :: seen →
    Follows d target (current :: seen) next outcome → Follows d target seen current outcome

-- What comes of following references to schemas, and through schemas that only annotate another one. `seen` led
-- to these.
inductive Unwraps (d : Document) : List String → String → Except ResolveError (String × Schema) → Prop
  | broken {seen reference error} : d.Follows .schema [] reference (.error error) →
    Unwraps d seen reference (.error error)
  | found {seen reference terminal s} : d.Follows .schema [] reference (.ok (terminal, s)) →
    s.annotatedReference = none → Unwraps d seen reference (.ok (terminal, s))
  | circular {seen reference terminal s wrapped} : d.Follows .schema [] reference (.ok (terminal, s)) →
    s.annotatedReference = some wrapped → terminal ∈ seen →
    Unwraps d seen reference (.error (.circular (terminal :: seen).reverse))
  | next {seen reference terminal s wrapped outcome} : d.Follows .schema [] reference (.ok (terminal, s)) →
    s.annotatedReference = some wrapped → terminal ∉ seen → Unwraps d (terminal :: seen) wrapped outcome →
    Unwraps d seen reference outcome

variable {d : Document} {α β : Type} {target : Target α} {seen : List String} {current reference start : String}
  {node : Node} {error : ResolveError}

theorem run_look_of_ok {f : Node → ExceptT ResolveError Id β} (h : d.resolve current = .ok node) :
    (d.look current >>= f).run.run = (f node).run.run :=
  run_bind_of_ok h

theorem run_look_of_error {f : Node → ExceptT ResolveError Id β} (h : d.resolve current = .error error) :
    (d.look current >>= f).run.run = .error error :=
  run_bind_of_error h

theorem resolve_of_walk {way : List String} (hs : Pointer.segments reference = .ok way)
    (hw : (Node.document d).walk way = .ok node) : d.resolve reference = .ok node := by
  rw [resolve, hs]
  exact mapError_eq_ok.mpr hw

theorem mem_references_of_resolve {next : String} (h : d.resolve current = .ok (.reference next)) :
    next ∈ d.references :=
  references_of_resolve h (List.mem_singleton_self next)

-- The induction is on the steps that are left. References that were seen are different and all but the first one
-- are in the document, so there are not as many as would use the steps up.
theorem follows_follow {steps : Nat} (different : (current :: seen).Nodup)
    (known : current :: seen ⊆ start :: d.references) (enough : d.references.length + 2 ≤ steps + seen.length) :
    d.Follows target seen current (follow d.look target seen current steps).run.run := by
  induction steps generalizing seen current with
  | zero =>
    have := (List.subperm_of_subset different known).length_le
    simp only [List.length_cons] at this
    omega
  | succ steps ih =>
    rw [follow]
    cases hn : d.resolve current with
    | error error =>
      rw [run_look_of_error hn]
      exact .broken hn
    | ok node =>
      rw [run_look_of_ok hn]
      split
      case h_1 found hp => exact .found hn hp
      case h_2 hp =>
        split
        case h_1 next =>
          split
          case isTrue again => exact .circular hn hp again
          case isFalse fresh =>
            have listed : next ∈ start :: d.references := List.mem_cons_of_mem _ (mem_references_of_resolve hn)
            have inside := List.cons_subset.mpr ⟨listed, known⟩
            refine .next hn hp fresh (ih (List.nodup_cons.mpr ⟨fresh, different⟩) inside ?_)
            simp only [List.length_cons]
            omega
        case h_2 other => exact .unexpected hn hp other

theorem follows_destination : d.Follows target [] reference (d.destination target reference) := by
  have known : [reference] ⊆ reference :: d.references := by simp
  exact follows_follow (by simp) known (by simp [maxSteps])

-- With enough steps, more of them do not matter.
theorem Follows.follow {outcome : Except ResolveError (String × α)} (h : d.Follows target seen current outcome) :
    ∃ enough, ∀ more, (Reference.follow d.look target seen current (more + enough)).run.run = outcome := by
  induction h with
  | broken hn =>
    refine ⟨1, fun more => ?_⟩
    rw [Reference.follow, run_look_of_error hn]
  | found hn hp =>
    refine ⟨1, fun more => ?_⟩
    rw [Reference.follow, run_look_of_ok hn, hp]
    rfl
  | @unexpected seen current node hn hp other =>
    refine ⟨1, fun more => ?_⟩
    rw [Reference.follow, run_look_of_ok hn, hp]
    cases node
    case reference next => exact absurd rfl (other next)
    all_goals rfl
  | circular hn hp again =>
    refine ⟨1, fun more => ?_⟩
    rw [Reference.follow, run_look_of_ok hn, hp]
    dsimp only
    rw [if_pos again]
    rfl
  | next hn hp fresh _ ih =>
    obtain ⟨enough, ih⟩ := ih
    refine ⟨enough + 1, fun more => ?_⟩
    rw [← Nat.add_assoc, Reference.follow, run_look_of_ok hn, hp]
    dsimp only
    rw [if_neg fresh]
    exact ih more

theorem Follows.unique {first second : Except ResolveError (String × α)} (h : d.Follows target seen current first)
    (h' : d.Follows target seen current second) : first = second := by
  obtain ⟨enough, h⟩ := h.follow
  obtain ⟨enough', h'⟩ := h'.follow
  rw [← h enough', ← h' enough, Nat.add_comm]

-- So what is at the end of a chain is what `destination` finds.
theorem follows_iff {outcome : Except ResolveError (String × α)} :
    d.Follows target [] reference outcome ↔ d.destination target reference = outcome where
  mp h := follows_destination.unique h
  mpr h := h ▸ follows_destination

-- The last reference of a chain is the first one, or the document holds it.
theorem Follows.last {terminal : String} {found : α} (h : d.Follows target seen current (.ok (terminal, found))) :
    terminal = current ∨ terminal ∈ d.references := by
  generalize ho : Except.ok (terminal, found) = outcome at h
  induction h with
  | broken | unexpected | circular => contradiction
  | found =>
    cases ho
    exact .inl rfl
  | next hn _ _ _ ih =>
    rcases ih ho with rfl | listed
    · exact .inr (mem_references_of_resolve hn)
    · exact .inr listed

theorem wrapped_mem_references {terminal wrapped : String} {s : Schema}
    (h : d.destination .schema reference = .ok (terminal, s)) (ha : s.annotatedReference = some wrapped) :
    wrapped ∈ d.references := by
  obtain ⟨node, hn, hp⟩ := resolve_of_destination h
  cases node <;> cases hp
  exact references_of_resolve hn (Schema.annotatedReference_mem_references ha)

theorem unwraps_unwrap {fuel : Nat} (different : seen.Nodup) (known : reference :: seen ⊆ start :: d.references)
    (enough : d.references.length + 2 ≤ fuel + seen.length) :
    d.Unwraps seen reference (unwrap d.look d.maxSteps seen reference fuel).run.run := by
  induction fuel generalizing seen reference with
  | zero =>
    have := (List.subperm_of_subset different (List.subset_of_cons_subset known)).length_le
    simp only [List.length_cons] at this
    omega
  | succ fuel ih =>
    rw [unwrap]
    have ends : d.Follows .schema [] reference (d.destination .schema reference) := follows_destination
    cases hd : d.destination .schema reference with
    | error error =>
      rw [run_bind_of_error hd]
      exact .broken (hd ▸ ends)
    | ok found =>
      obtain ⟨terminal, s⟩ := found
      rw [hd] at ends
      rw [run_bind_of_ok hd]
      dsimp only
      split
      case h_1 ha => exact .found ends ha
      case h_2 wrapped ha =>
        split
        case isTrue again => exact .circular ends ha again
        case isFalse fresh =>
          obtain ⟨first, others⟩ := List.cons_subset.mp known
          have last : terminal ∈ start :: d.references := by
            rcases ends.last with rfl | listed
            · exact first
            · exact List.mem_cons_of_mem _ listed
          have listed : wrapped ∈ start :: d.references :=
            List.mem_cons_of_mem _ (wrapped_mem_references hd ha)
          have inside : wrapped :: terminal :: seen ⊆ start :: d.references :=
            List.cons_subset.mpr ⟨listed, List.cons_subset.mpr ⟨last, others⟩⟩
          refine .next ends ha fresh (ih (List.nodup_cons.mpr ⟨fresh, different⟩) inside ?_)
          simp only [List.length_cons]
          omega

theorem unwraps_meantSchema : d.Unwraps [] reference (d.meantSchema reference) := by
  have known : [reference] ⊆ reference :: d.references := by simp
  exact unwraps_unwrap List.nodup_nil known (by simp [maxSteps])

theorem Unwraps.unwrap {outcome : Except ResolveError (String × Schema)} (h : d.Unwraps seen reference outcome) :
    ∃ enough, ∀ more,
      (Reference.unwrap d.look d.maxSteps seen reference (more + enough)).run.run = outcome := by
  induction h with
  | broken ends =>
    refine ⟨1, fun more => ?_⟩
    rw [Reference.unwrap, run_bind_of_error (follows_iff.mp ends)]
  | found ends ha =>
    refine ⟨1, fun more => ?_⟩
    rw [Reference.unwrap, run_bind_of_ok (follows_iff.mp ends)]
    dsimp only
    rw [ha]
    rfl
  | circular ends ha again =>
    refine ⟨1, fun more => ?_⟩
    rw [Reference.unwrap, run_bind_of_ok (follows_iff.mp ends)]
    dsimp only
    rw [ha]
    dsimp only
    rw [if_pos again]
    rfl
  | next ends ha fresh _ ih =>
    obtain ⟨enough, ih⟩ := ih
    refine ⟨enough + 1, fun more => ?_⟩
    rw [← Nat.add_assoc, Reference.unwrap, run_bind_of_ok (follows_iff.mp ends)]
    dsimp only
    rw [ha]
    dsimp only
    rw [if_neg fresh]
    exact ih more

theorem Unwraps.unique {first second : Except ResolveError (String × Schema)} (h : d.Unwraps seen reference first)
    (h' : d.Unwraps seen reference second) : first = second := by
  obtain ⟨enough, h⟩ := h.unwrap
  obtain ⟨enough', h'⟩ := h'.unwrap
  rw [← h enough', ← h' enough, Nat.add_comm]

theorem unwraps_iff {outcome : Except ResolveError (String × Schema)} :
    d.Unwraps [] reference outcome ↔ d.meantSchema reference = outcome where
  mp h := unwraps_meantSchema.unique h
  mpr h := h ▸ unwraps_meantSchema

-- A reference to a schema that annotates no other one means this schema.
theorem meantSchema_of_resolve {s : Schema} (h : d.resolve reference = .ok (.schema s))
    (ha : s.annotatedReference = none) : d.meantSchema reference = .ok (reference, s) :=
  unwraps_iff.mp (.found (.found h rfl) ha)

-- A reference leads to the schema that it means, past the `wrappers` that annotate it on the way.
inductive Passes (d : Document) : String → List Schema → String → Schema → Prop
  | meant {reference s} : d.resolve reference = .ok (.schema s) → s.annotatedReference = none →
    Passes d reference [] reference s
  | onward {reference next wrappers terminal s} : d.resolve reference = .ok (.reference next) →
    Passes d next wrappers terminal s → Passes d reference wrappers terminal s
  | annotated {reference w next wrappers terminal s} : d.resolve reference = .ok (.schema w) →
    w.annotatedReference = some next → Passes d next wrappers terminal s →
    Passes d reference (w :: wrappers) terminal s

variable {s s' : Schema} {wrappers wrappers' : List Schema} {terminal terminal' : String}

theorem Passes.of_follows {last : String} {found : Schema} (h : d.Follows .schema seen current (.ok (last, found)))
    (rest : d.Passes last wrappers terminal s) : d.Passes current wrappers terminal s := by
  generalize ho : Except.ok (last, found) = outcome at h
  induction h with
  | broken | unexpected | circular => contradiction
  | found =>
    cases ho
    exact rest
  | next hn _ _ _ ih => exact .onward hn (ih ho)

theorem passes_of_unwraps (h : d.Unwraps seen reference (.ok (terminal, s))) :
    ∃ wrappers, d.Passes reference wrappers terminal s := by
  generalize ho : Except.ok (terminal, s) = outcome at h
  induction h with
  | broken | circular => contradiction
  | found ends ha =>
    cases ho
    obtain ⟨node, hn, hp⟩ := resolve_of_destination (follows_iff.mp ends)
    cases node <;> cases hp
    exact ⟨[], .of_follows ends (.meant hn ha)⟩
  | next ends ha _ _ ih =>
    obtain ⟨wrappers, rest⟩ := ih ho
    obtain ⟨node, hn, hp⟩ := resolve_of_destination (follows_iff.mp ends)
    cases node <;> cases hp
    exact ⟨_ :: wrappers, .of_follows ends (.annotated hn ha rest)⟩

theorem Passes.unique (h : d.Passes reference wrappers terminal s) (h' : d.Passes reference wrappers' terminal' s') :
    wrappers = wrappers' ∧ terminal = terminal' ∧ s = s' := by
  induction h generalizing wrappers' with
  | meant hn ha =>
    cases h' with
    | meant hn' => cases hn.symm.trans hn'; exact ⟨rfl, rfl, rfl⟩
    | onward hn' => cases hn.symm.trans hn'
    | annotated hn' ha' =>
      cases hn.symm.trans hn'
      cases ha.symm.trans ha'
  | onward hn _ ih =>
    cases h' with
    | meant hn' | annotated hn' => cases hn.symm.trans hn'
    | onward hn' h' =>
      cases hn.symm.trans hn'
      exact ih h'
  | annotated hn ha _ ih =>
    cases h' with
    | meant hn' ha' =>
      cases hn.symm.trans hn'
      cases ha.symm.trans ha'
    | onward hn' => cases hn.symm.trans hn'
    | annotated hn' ha' h' =>
      cases hn.symm.trans hn'
      cases ha.symm.trans ha'
      obtain ⟨rfl, same⟩ := ih h'
      exact ⟨rfl, same⟩

end Document

end OpenApiClient
