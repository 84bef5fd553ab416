/-!
Maps whose order matters: lists of pairs in which no key occurs twice. Writing a key again keeps its
place and replaces its value.
-/

namespace OpenApiClient.Entries

variable {α : Type}

def put (key : String) (value : α) : List (String × α) → List (String × α)
  | [] => [(key, value)]
  | (k, v) :: rest => if k = key then (k, value) :: rest else (k, v) :: put key value rest

-- The map that results from writing the pairs in order.
def ofPairs (pairs : List (String × α)) : List (String × α) :=
  pairs.foldl (fun entries (k, v) => put k v entries) []

def keys (entries : List (String × α)) : List String :=
  entries.map (·.1)

def get? (key : String) : List (String × α) → Option α
  | [] => none
  | (k, v) :: rest => if k = key then some v else get? key rest

theorem get?_put_self (key : String) (value : α) (entries : List (String × α)) :
    get? key (put key value entries) = some value := by
  induction entries with
  | nil => simp [put, get?]
  | cons entry rest ih =>
    unfold put
    split <;> simp_all [get?]

theorem get?_put_of_ne {k key : String} (h : k ≠ key) (value : α) (entries : List (String × α)) :
    get? k (put key value entries) = get? k entries := by
  induction entries with
  | nil => simp [put, get?, Ne.symm h]
  | cons entry rest ih =>
    unfold put
    split
    · simp_all [get?, Ne.symm h]
    · simp [get?, ih]

theorem mem_keys_put {k key : String} {value : α} {entries : List (String × α)} :
    k ∈ keys (put key value entries) ↔ k = key ∨ k ∈ keys entries := by
  induction entries with
  | nil => simp [put, keys]
  | cons entry rest ih =>
    unfold put
    split
    · simp_all [keys]
    · simp only [keys, List.map_cons, List.mem_cons] at ih ⊢
      rw [ih]
      grind

theorem nodup_keys_put {key : String} {value : α} {entries : List (String × α)}
    (h : (keys entries).Nodup) : (keys (put key value entries)).Nodup := by
  induction entries with
  | nil => simp [put, keys]
  | cons entry rest ih =>
    unfold put
    split
    · simp_all [keys]
    · have fresh : entry.1 ∈ keys (put key value rest) → entry.1 = key ∨ entry.1 ∈ keys rest :=
        mem_keys_put.1
      simp only [keys, List.map_cons, List.nodup_cons] at h ih fresh ⊢
      exact ⟨fun m => (fresh m).elim ‹_› h.1, ih h.2⟩

theorem nodup_keys_ofPairs (pairs : List (String × α)) : (keys (ofPairs pairs)).Nodup := by
  have step (entries : List (String × α)) (h : (keys entries).Nodup) :
      (keys (pairs.foldl (fun entries (k, v) => put k v entries) entries)).Nodup := by
    induction pairs generalizing entries with
    | nil => exact h
    | cons pair rest ih => exact ih _ (nodup_keys_put h)
  exact step [] (by simp [keys])

end OpenApiClient.Entries
