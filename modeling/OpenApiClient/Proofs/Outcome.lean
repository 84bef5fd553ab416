import Mathlib.Data.List.Forall2
import OpenApiClient.Error

/-!
What is known of a computation that may fail once it has gone well: all of its parts have.
-/

namespace OpenApiClient

variable {ε α β : Type}

section

variable {x : Except ε α} {a : α} {b : β}

@[simp] theorem bind_eq_ok {f : α → Except ε β} :
    x >>= f = .ok b ↔ ∃ a, x = .ok a ∧ f a = .ok b := by
  cases x <;> simp [bind, Except.bind]

-- What a run gives can be computed together with that it gives something.
theorem exists_ok {f : α → β} (h : x.toOption.map f = some b) : ∃ a, x = .ok a ∧ f a = b := by
  cases x
  case error => cases h
  case ok a => exact ⟨a, rfl, Option.some.inj h⟩

@[simp] theorem map_eq_ok {f : α → β} : x.map f = .ok b ↔ ∃ a, x = .ok a ∧ f a = b := by
  cases x <;> simp [Except.map]

@[simp] theorem pure_eq_ok {a' : α} : (pure a : Except ε α) = .ok a' ↔ a = a' := by
  simp [pure, Except.pure]

@[simp] theorem throw_ne_ok {e : ε} : ¬ (throw e : Except ε α) = .ok a :=
  nofun

@[simp] theorem mapError_eq_ok {ε' : Type} {f : ε → ε'} : x.mapError f = .ok a ↔ x = .ok a := by
  cases x
  case error => exact iff_of_false nofun nofun
  case ok => constructor <;> rintro ⟨⟩ <;> rfl

@[simp] theorem resolved_eq_ok {x : Except ResolveError α} :
    (liftM x : Except BuildError α) = .ok a ↔ x = .ok a :=
  mapError_eq_ok

@[simp] theorem resolved_ok_bind {f : α → Except BuildError β} :
    (liftM (Except.ok a : Except ResolveError α) >>= f : Except BuildError β) = f a :=
  rfl

@[simp] theorem resolved_error_bind {e : ResolveError} {f : α → Except BuildError β} :
    (liftM (Except.error e : Except ResolveError α) >>= f : Except BuildError β) = .error (.resolve e) :=
  rfl

@[simp] theorem named_eq_ok {x : Except NamingError α} :
    (liftM x : Except BuildError α) = .ok a ↔ x = .ok a :=
  mapError_eq_ok

end

theorem mem_of_mapM {f : α → Except ε β} {xs : List α} {ys : List β} (h : xs.mapM f = .ok ys) :
    ∀ y ∈ ys, ∃ x ∈ xs, f x = .ok y := by
  induction xs generalizing ys with
  | nil => simp_all
  | cons x xs ih =>
    simp only [List.mapM_cons, bind_eq_ok, pure_eq_ok] at h
    obtain ⟨y, hy, ys, hys, rfl⟩ := h
    refine List.forall_mem_cons.mpr ⟨⟨x, List.mem_cons_self, hy⟩, fun y' hy' => ?_⟩
    have ⟨x', hx', hf⟩ := ih hys y' hy'
    exact ⟨x', List.mem_cons_of_mem _ hx', hf⟩

-- What is known of each result by what it was made from is known of all of them.
theorem map_of_mapM {γ : Type} {f : α → Except ε β} {g : β → γ} {g' : α → γ} {xs : List α}
    {ys : List β} (hf : ∀ {x y}, f x = .ok y → g y = g' x) (h : xs.mapM f = .ok ys) :
    ys.map g = xs.map g' := by
  induction xs generalizing ys with
  | nil => simp_all
  | cons x xs ih =>
    simp only [List.mapM_cons, bind_eq_ok, pure_eq_ok] at h
    obtain ⟨y, hy, ys, hys, rfl⟩ := h
    simp [hf hy, ih hys]

theorem mem_mapM {f : α → Except ε β} {xs : List α} {ys : List β} (h : xs.mapM f = .ok ys) :
    ∀ x ∈ xs, ∃ y ∈ ys, f x = .ok y := by
  induction xs generalizing ys with
  | nil => simp
  | cons x xs ih =>
    simp only [List.mapM_cons, bind_eq_ok, pure_eq_ok] at h
    obtain ⟨y, hy, ys, hys, rfl⟩ := h
    refine List.forall_mem_cons.mpr ⟨⟨y, List.mem_cons_self, hy⟩, fun x' hx' => ?_⟩
    have ⟨y', hy', hf⟩ := ih hys x' hx'
    exact ⟨y', List.mem_cons_of_mem _ hy', hf⟩

theorem mapM_congr {f g : α → Except ε β} {xs : List α} (h : ∀ x ∈ xs, f x = g x) :
    xs.mapM f = xs.mapM g := by
  induction xs with
  | nil => rfl
  | cons x xs ih =>
    obtain ⟨first, others⟩ := List.forall_mem_cons.mp h
    rw [List.mapM_cons, List.mapM_cons, first, ih others]

-- Where nothing fails, the results are those of a function.
theorem mapM_eq_ok_map {f : α → Except ε β} {g : α → β} {xs : List α} (h : ∀ x ∈ xs, f x = .ok (g x)) :
    xs.mapM f = .ok (xs.map g) := by
  induction xs with
  | nil => rfl
  | cons x xs ih =>
    obtain ⟨first, others⟩ := List.forall_mem_cons.mp h
    rw [List.mapM_cons, first, ih others]
    rfl

-- Results stand where the things stand that they were made from.
theorem forall₂_of_mapM {f : α → Except ε β} {P : α → β → Prop} {xs : List α} {ys : List β}
    (h : xs.mapM f = .ok ys) (hf : ∀ x ∈ xs, ∀ y, f x = .ok y → P x y) : List.Forall₂ P xs ys := by
  induction xs generalizing ys with
  | nil => simp_all
  | cons x xs ih =>
    simp only [List.mapM_cons, bind_eq_ok, pure_eq_ok] at h
    obtain ⟨y, hy, ys, hys, rfl⟩ := h
    have ⟨first, rest⟩ := List.forall_mem_cons.mp hf
    exact .cons (first y hy) (ih hys rest)

-- What holds at the start and is kept by each step holds at the end. It may speak of what the steps
-- were taken for.
theorem foldlM_induction {f : β → α → Except ε β} {P : List α → β → Prop} {xs : List α} {s r : β}
    (start : P [] s) (step : ∀ {past x s s'}, P past s → f s x = .ok s' → P (past ++ [x]) s')
    (h : xs.foldlM f s = .ok r) : P xs r := by
  have run {past s} : P past s → xs.foldlM f s = .ok r → P (past ++ xs) r := by
    clear start h
    intro start h
    induction xs generalizing past s with
    | nil => simp_all
    | cons x xs ih =>
      simp only [List.foldlM_cons, bind_eq_ok] at h
      have ⟨s', hs, hr⟩ := h
      simpa using ih (step start hs) hr
  exact run start h

-- Each step was taken somewhere on the way.
theorem step_of_foldlM {f : β → α → Except ε β} {xs : List α} {s r : β} {x : α}
    (h : xs.foldlM f s = .ok r) (hx : x ∈ xs) : ∃ t t', f t x = .ok t' := by
  induction xs generalizing s with
  | nil => contradiction
  | cons y xs ih =>
    simp only [List.foldlM_cons, bind_eq_ok] at h
    have ⟨s', hs, hr⟩ := h
    cases List.mem_cons.mp hx
    case inl hx => exact ⟨s, s', hx ▸ hs⟩
    case inr hx => exact ih hr hx

-- Steps that can all be taken can be taken one after the other,
theorem exists_foldlM {f : β → α → Except ε β} {xs : List α} {s : β} (h : ∀ x ∈ xs, ∀ t, ∃ t', f t x = .ok t') :
    ∃ r, xs.foldlM f s = .ok r := by
  induction xs generalizing s with
  | nil => exact ⟨s, rfl⟩
  | cons x xs ih =>
    obtain ⟨first, others⟩ := List.forall_mem_cons.mp h
    obtain ⟨s', hs⟩ := first s
    obtain ⟨r, hr⟩ := @ih s' others
    exact ⟨r, by simp [hs, hr]⟩

-- and where this fails, one of them does.
theorem error_of_foldlM {f : β → α → Except ε β} {xs : List α} {s : β} {e : ε} (h : xs.foldlM f s = .error e) :
    ∃ x ∈ xs, ∃ t, f t x = .error e := by
  induction xs generalizing s with
  | nil => contradiction
  | cons x xs ih =>
    rw [List.foldlM_cons] at h
    cases hs : f s x with
    | error e' =>
      rw [hs] at h
      cases h
      exact ⟨x, List.mem_cons_self, s, hs⟩
    | ok s' =>
      rw [hs] at h
      obtain ⟨y, hy, t, ht⟩ := ih h
      exact ⟨y, List.mem_cons_of_mem _ hy, t, ht⟩

end OpenApiClient
