/-!
Sets of code points, written down as runs. The tables of character properties are lists of such
runs; a character is looked up by its code point.
-/

namespace OpenApiClient.Text

-- Every `step`-th code point from `first` to `last`.
structure Run where
  first : Nat
  last : Nat
  step : Nat
  deriving DecidableEq

namespace Run

def contains (r : Run) (n : Nat) : Bool :=
  r.first ≤ n && n ≤ r.last && (n - r.first) % r.step == 0

theorem first_le_of_contains {r : Run} {n : Nat} (h : r.contains n = true) : r.first ≤ n := by
  simp [contains] at h
  exact h.1.1

theorem le_last_of_contains {r : Run} {n : Nat} (h : r.contains n = true) : n ≤ r.last := by
  simp [contains] at h
  exact h.1.2

end Run

-- Membership in a table of closed intervals.
def inIntervals (table : List (Nat × Nat)) (c : Char) : Bool :=
  table.any fun (first, last) => first ≤ c.toNat && c.toNat ≤ last

-- Membership in a table of runs.
def inRuns (table : List Run) (c : Char) : Bool :=
  table.any (·.contains c.toNat)

end OpenApiClient.Text
