/-!
# Ranking

Values in the order of their ranks, the highest first.  A rank may fail to exist, and then the
first value without one decides.
-/

namespace IndexedMail.Ranking

variable {α ε : Type}

/-- Pair every value with its rank; the first value that has none stops this. -/
def ranked (rank : α → Except ε Int) : List α → Except ε (List (Int × α))
  | [] => .ok []
  | a :: rest =>
      match rank a with
      | .error e => .error e
      | .ok r => (ranked rank rest).map ((r, a) :: ·)

/-- Values by falling rank; values of one rank keep their order. -/
def sort (rank : α → Except ε Int) (values : List α) : Except ε (List α) :=
  (ranked rank values).map fun pairs =>
    (pairs.mergeSort fun a b => decide (b.1 ≤ a.1)).map (·.2)

theorem map_snd_of_ranked {rank : α → Except ε Int} {values : List α} {pairs : List (Int × α)}
    (h : ranked rank values = .ok pairs) : pairs.map (·.2) = values := by
  induction values generalizing pairs with
  | nil =>
      cases h
      rfl
  | cons a rest ih =>
      unfold ranked at h
      split at h
      · cases h
      · cases hr : ranked rank rest with
        | error e =>
            rw [hr] at h
            cases h
        | ok tail =>
            rw [hr] at h
            cases h
            simp [ih hr]

theorem sort_perm {rank : α → Except ε Int} {values sorted : List α}
    (h : sort rank values = .ok sorted) : sorted.Perm values := by
  unfold sort at h
  cases hr : ranked rank values with
  | error e =>
      rw [hr] at h
      cases h
  | ok pairs =>
      rw [hr] at h
      cases h
      have hp := (List.mergeSort_perm pairs fun a b => decide (b.1 ≤ a.1)).map (·.2)
      rw [map_snd_of_ranked hr] at hp
      exact hp

end IndexedMail.Ranking
