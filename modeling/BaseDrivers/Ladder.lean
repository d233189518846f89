import Mathlib.Order.Lattice
import Mathlib.Order.MinMax

/-!
# Rounding up to a ladder

A ladder is an increasing sequence of values, of which the first ones up to
a top are in use. A value is rounded up to the first rung that is not below
it, and to the top one where all are. Rounding is monotone, leaves the rungs
alone, and is stable when its result is brought into limits again.
-/

set_option autoImplicit false

namespace BaseDrivers.Ladder

variable {α : Type*} [LinearOrder α] (steps : ℕ → α)

/-- The rung for a value, searched from the top `n` down. -/
def rung : ℕ → α → ℕ
  | 0, _ => 0
  | n+1, x => if x ≤ steps n then rung n x else n+1

theorem rung_le_top (n : ℕ) (x : α) : rung steps n x ≤ n := by
  induction n with
  | zero => exact Nat.le_refl 0
  | succ n ih =>
    by_cases hx : x ≤ steps n
    · rw [rung, if_pos hx]
      exact Nat.le_succ_of_le ih
    · rw [rung, if_neg hx]

/-- Below the top the rung is the first one that reaches the value. -/
theorem rung_le_iff (hs : Monotone steps) {i n : ℕ} (hi : i < n) (x : α) :
    rung steps n x ≤ i ↔ x ≤ steps i := by
  induction n with
  | zero => exact (Nat.not_lt_zero i hi).elim
  | succ n ih =>
    by_cases hx : x ≤ steps n
    · rw [rung, if_pos hx]
      rcases Nat.lt_succ_iff_lt_or_eq.mp hi with hlt | rfl
      · exact ih hlt
      · exact ⟨fun _ => hx,fun _ => rung_le_top steps i x⟩
    · rw [rung, if_neg hx]
      constructor
      · intro h
        exact absurd h (Nat.not_le_of_lt hi)
      · intro h
        exact (hx (h.trans (hs (Nat.le_of_lt_succ hi)))).elim

theorem rung_mono (hs : Monotone steps) (n : ℕ) {x y : α} (h : x ≤ y) :
    rung steps n x ≤ rung steps n y := by
  rcases Nat.lt_or_eq_of_le (rung_le_top steps n y) with hlt | heq
  · rw [rung_le_iff steps hs hlt]
    exact h.trans ((rung_le_iff steps hs hlt y).mp (Nat.le_refl _))
  · rw [heq]
    exact rung_le_top steps n x

/-- A value the ladder reaches is not above its rung. -/
theorem le_steps_rung (hs : Monotone steps) {n : ℕ} {x : α} (h : x ≤ steps n) :
    x ≤ steps (rung steps n x) := by
  rcases Nat.lt_or_eq_of_le (rung_le_top steps n x) with hlt | heq
  · exact (rung_le_iff steps hs hlt x).mp (Nat.le_refl _)
  · rw [heq]
    exact h

theorem rung_above (hs : Monotone steps) {n : ℕ} {x : α} (h : steps n < x) :
    rung steps n x = n := by
  rcases Nat.lt_or_eq_of_le (rung_le_top steps n x) with hlt | heq
  · have hx := (rung_le_iff steps hs hlt x).mp (Nat.le_refl _)
    exact absurd (hx.trans (hs (rung_le_top steps n x))) (not_le_of_gt h)
  · exact heq

/-- A rung stays where it is. -/
theorem rung_steps (hs : StrictMono steps) {i n : ℕ} (hi : i ≤ n) :
    rung steps n (steps i) = i := by
  have hle : rung steps n (steps i) ≤ i := by
    rcases Nat.lt_or_eq_of_le hi with hlt | rfl
    · exact (rung_le_iff steps hs.monotone hlt _).mpr (le_refl _)
    · exact rung_le_top steps i _
  have hge := le_steps_rung steps hs.monotone (hs.monotone hi)
  exact Nat.le_antisymm hle (hs.le_iff_le.mp hge)

/-- A value into the limits; where they cross, the upper one counts. -/
def clamp (lo hi x : α) : α := min (max x lo) hi

theorem rung_between (hs : StrictMono steps) {n : ℕ} {x y : α} (hx : x ≤ y)
    (hy : y ≤ steps (rung steps n x)) : rung steps n y = rung steps n x := by
  apply Nat.le_antisymm
  · have h := rung_mono steps hs.monotone n hy
    rwa [rung_steps steps hs (rung_le_top steps n x)] at h
  · exact rung_mono steps hs.monotone n hx

/-- The rung of a value within limits, brought into the same limits again,
has the same rung, wherever the limits lie. -/
theorem rung_clamp (hs : StrictMono steps) (n : ℕ) (lo hi x : α) :
    rung steps n (clamp lo hi (steps (rung steps n (clamp lo hi x)))) =
      rung steps n (clamp lo hi x) := by
  have hyhi : clamp lo hi x ≤ hi := min_le_right _ _
  have hylo : min lo hi ≤ clamp lo hi x := min_le_min_right hi (le_max_right x lo)
  generalize clamp lo hi x = y at hyhi hylo ⊢
  rcases le_or_gt y (steps n) with htop | htop
  · have hy := le_steps_rung steps hs.monotone htop
    apply rung_between steps hs
    · exact le_min (hy.trans (le_max_left _ _)) hyhi
    · rcases min_le_iff.mp hylo with h | h
      · exact (min_le_left _ _).trans (max_le (le_refl _) (h.trans hy))
      · exact (min_le_right _ _).trans (h.trans hy)
  · -- the value is above the ladder, and so is what the limits make of the top
    rw [rung_above steps hs.monotone htop]
    apply Nat.le_antisymm (rung_le_top steps n _)
    have hmin : steps n ≤ clamp lo hi (steps n) :=
      le_min (le_max_left _ _) (htop.le.trans hyhi)
    calc n = rung steps n (steps n) := (rung_steps steps hs (Nat.le_refl n)).symm
      _ ≤ rung steps n (clamp lo hi (steps n)) := rung_mono steps hs.monotone n hmin

end BaseDrivers.Ladder
