import OpenApiClient.Document.Reader
import OpenApiClient.Proofs.Json.Fits
import OpenApiClient.Proofs.Reading
import OpenApiClient.Proofs.Writing

/-!
Reading what was written. A writer restores what a reader has read if the same is read from what it writes. This is
handed on from the values in a list or map, or in a place where a reference may stand, to all of it.
-/

namespace OpenApiClient

open Json (Value)

namespace Entries

variable {α : Type} {key : String} {value : α} {entries : List (String × α)}

theorem put_of_not_mem (h : key ∉ keys entries) : put key value entries = entries ++ [(key, value)] := by
  induction entries with
  | nil => rfl
  | cons entry rest ih =>
    simp only [keys, List.map_cons, List.mem_cons, not_or] at h
    simp [put, Ne.symm h.1, ih h.2]

-- A map with each key once is what results from writing its entries.
theorem ofPairs_eq_self (h : Distinct entries) : ofPairs entries = entries := by
  have written (known : List (String × α)) (h : Distinct (known ++ entries)) :
      entries.foldl (fun entries entry => put entry.1 entry.2 entries) known = known ++ entries := by
    clear * - h
    induction entries generalizing known with
    | nil => simp
    | cons entry rest ih =>
      have fresh : entry.1 ∉ keys known := by
        intro there
        simp only [Distinct, keys, List.map_append, List.map_cons] at h
        exact (List.nodup_append.mp h).2.2 _ there _ List.mem_cons_self rfl
      have split : known ++ entry :: rest = known ++ [entry] ++ rest := by simp
      rw [split] at h ⊢
      rw [List.foldl_cons, put_of_not_mem fresh]
      exact ih _ h
  exact written [] h

end Entries

section

variable {α : Type}

-- Something that was read from a source, and what is written for it. The levels do not become more, and null is
-- written for nothing but null. What is read back may not look at more than `m` levels.
structure Kept (n m : Nat) (read' : Source → Option α) (s : Source) (a : α) (v : Value) : Prop where
  fits : v.source.Fits n
  null : v = .null → s = .ofAtom .null
  back : v.source.height ≤ m → read' v.source = some a

def Restores (read read' : Source → Option α) (write : α → Value) (m : Nat) : Prop :=
  ∀ ⦃n s a⦄, s.Fits n → read s = some a → Kept n m read' s a (write a)

variable {read read' : Source → Option α} {write : α → Value} {place : Place} {n m : Nat} {s : Source}

theorem Kept.of_succ {a : α} {v : Value} (h : Kept n (m + 1) read' s a v) : Kept n m read' s a v :=
  { h with back := fun height => h.back (Nat.le_succ_of_le height) }

/-! ### Leaves -/

theorem Restores.text : Restores place.text? place.text? .string m :=
  fun _ _ _ _ _ => {
    fits := .leaf trivial
    null := nofun
    back := fun _ => by cases place <;> rfl }

theorem Restores.flag : Restores place.flag? place.flag? .bool m :=
  fun _ _ _ _ _ => {
    fits := .leaf trivial
    null := nofun
    back := fun _ => by cases place <;> rfl }

theorem Restores.oneOf {all : List α} {name : α → String} (h : ∀ a, all.find? (name · = name a) = some a) :
    Restores (Source.oneOf? all name) (Source.oneOf? all name) (.string <| name ·) m :=
  fun _ _ a _ _ => {
    fits := .leaf trivial
    null := nofun
    back := fun _ => h a }

/-! ### Alternatives -/

-- What can be read in one way or in another, if nothing that is written for the second can be read in the first.
theorem Restores.either {β γ : Type} {first first' : Source → Option β} {second second' : Source → Option γ} {f : β → α}
    {g : γ → α} (h₁ : Restores first first' (write <| f ·) m) (h₂ : Restores second second' (write <| g ·) m)
    (apart : ∀ c, first' (write (g c)).source = none) :
    Restores (fun s => ((first s).map f).or ((second s).map g)) (fun s => ((first' s).map f).or ((second' s).map g))
      write m := by
  intro n s a hs hr
  cases hf : first s with
  | some b =>
    have kept := h₁ hs hf
    obtain rfl : f b = a := by simpa [hf] using hr
    exact { kept with back := fun height => by simp [kept.back height] }
  | none =>
    obtain ⟨c, hc, rfl⟩ : ∃ c, second s = some c ∧ g c = a := by simpa [hf] using hr
    have kept := h₂ hs hc
    exact { kept with back := fun height => by simp [apart, kept.back height] }

/-! ### Lists and maps -/

theorem mapM_map_eq_some {β : Type} {f : β → Option α} {g : α → β} {as : List α} (h : ∀ a ∈ as, f (g a) = some a) :
    (as.map g).mapM f = some as := by
  induction as with
  | nil => rfl
  | cons a rest ih =>
    have ⟨first, others⟩ := List.forall_mem_cons.mp h
    simp [first, ih others]

theorem Source.height_le_heightItems {items : List Source} (hs : s ∈ items) : s.height ≤ heightItems items := by
  induction items with
  | nil => contradiction
  | cons item rest ih =>
    cases List.mem_cons.mp hs
    case inl same => exact same ▸ Nat.le_max_left ..
    case inr hs => exact (ih hs).trans (Nat.le_max_right ..)

theorem Source.height_lt_object {members : List (String × Source)} {member : String × Source}
    (hm : member ∈ members) : member.2.height < (object members).height := by
  induction members with
  | nil => contradiction
  | cons first rest ih =>
    simp only [object, List.map_cons, height, heightEntries] at ih ⊢
    cases List.mem_cons.mp hm
    case inl same =>
      subst same
      omega
    case inr hm =>
      have := ih hm
      omega

-- The items of a list are on one level less than it.
theorem fits_items {items : List Source} (hs : s.Fits n) (h : place.items? s = some items) :
    ∃ n', n = n' + 1 ∧ ∀ item ∈ items, item.Fits n' := by
  cases hs with
  | leaf | object | unreadable => simp [Place.items?, Source.ofAtom, Scalar.ofAtom, Source.object] at h
  | list fits =>
    obtain rfl := Option.some.inj h
    exact ⟨_, rfl, fits⟩

theorem Restores.list (h : Restores read read' write m) :
    Restores (place.list? read) (place.list? read') (fun items => .array (items.map write)) m := by
  intro n s items hs hr
  obtain ⟨sources, hi, hm⟩ := Option.bind_eq_some_iff.mp hr
  obtain ⟨n, rfl, fits⟩ := fits_items hs hi
  have kept : ∀ a ∈ items, ∃ s, Kept n m read' s a (write a) :=
    forall_mem_of_mapM (fun s hs a ha => ⟨s, h (fits s hs) ha⟩) hm
  have written : (Value.array (items.map write)).source = .list true (items.map (Value.source <| write ·)) := by
    simp [Value.source_array, Function.comp_def]
  refine ⟨?fits, fun null => by contradiction, fun height => ?back⟩
  case fits =>
    rw [written]
    refine .list (List.forall_mem_map.mpr fun a ha => ?_)
    obtain ⟨_, kept⟩ := kept a ha
    exact kept.fits
  case back =>
    rw [written] at height ⊢
    refine mapM_map_eq_some fun a ha => ?_
    obtain ⟨_, kept⟩ := kept a ha
    have lower := Source.height_le_heightItems (List.mem_map_of_mem (f := (Value.source <| write ·)) ha)
    exact kept.back ((lower.trans (Nat.le_succ _)).trans height)

-- The values in a map are on one level less than it.
theorem fits_entries {pairs : List (String × Source)} (hs : s.Fits n) (h : place.entries? s = some pairs) :
    ∃ n', n = n' + 1 ∧ ∀ pair ∈ pairs, pair.2.Fits n' := by
  cases hs with
  | leaf | list | unreadable => simp [Place.entries?, Source.ofAtom, Scalar.ofAtom] at h
  | @object _ members fits =>
    refine ⟨_, rfl, forall_mem_of_mapM (fun entry he pair hp => ?_) h⟩
    obtain ⟨member, hm, rfl⟩ := List.mem_map.mp he
    obtain ⟨_, _, rfl⟩ := Option.map_eq_some_iff.mp hp
    exact fits member hm

theorem entries?_object (members : List (String × Source)) : place.entries? (.object members) = some members :=
  mapM_map_eq_some fun _ _ => by cases place <;> rfl

theorem Restores.map (h : Restores read read' write m) :
    Restores (place.map? read) (place.map? read') (fun entries => .object (writeEntries write entries)) m := by
  intro n s entries hs hr
  simp only [Place.map?, Option.bind_eq_bind, Option.bind_eq_some_iff, Option.pure_def, Option.some.injEq] at hr
  obtain ⟨sources, hp, pairs, hm, rfl⟩ := hr
  obtain ⟨n, rfl, fits⟩ := fits_entries hs hp
  have kept : ∀ entry ∈ Entries.ofPairs pairs, ∃ s, Kept n m read' s entry.2 (write entry.2) := by
    refine Entries.forall_mem_ofPairs (P := fun a => ∃ s, Kept n m read' s a (write a)) ?_
    refine forall_mem_of_mapM (fun pair hp entry he => ?_) hm
    obtain ⟨a, ha, rfl⟩ := Option.map_eq_some_iff.mp he
    exact ⟨_, h (fits pair hp) ha⟩
  have distinct : Entries.Distinct (Entries.ofPairs pairs) := Entries.nodup_keys_ofPairs pairs
  generalize Entries.ofPairs pairs = entries at kept distinct
  have written : (Value.object (writeEntries write entries)).source =
      .object (entries.map fun entry => (entry.1, (write entry.2).source)) := by
    simp [Value.source_object, writeEntries, Function.comp_def]
  refine ⟨?fits, fun null => by contradiction, fun height => ?back⟩
  case fits =>
    rw [written]
    refine .object (List.forall_mem_map.mpr fun entry he => ?_)
    obtain ⟨_, kept⟩ := kept entry he
    exact kept.fits
  case back =>
    rw [written] at height ⊢
    have values : (entries.map fun entry => (entry.1, (write entry.2).source)).mapM
        (fun entry => (read' entry.2).map (entry.1, ·)) = some entries := by
      refine mapM_map_eq_some fun entry he => ?_
      obtain ⟨_, kept⟩ := kept entry he
      have lower := Source.height_lt_object (List.mem_map_of_mem (f := fun entry => (entry.1, (write entry.2).source)) he)
      rw [kept.back (lower.le.trans height)]
      rfl
    simp [Place.map?, entries?_object, values, Entries.ofPairs_eq_self distinct]

end

end OpenApiClient
