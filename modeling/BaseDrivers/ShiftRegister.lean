import Mathlib.Data.Int.Init

/-!
# Words on a serial line

A word is sent bit by bit, its highest one first, and shifted into a register
of the same width. Whatever the register held before is pushed out.
-/

set_option autoImplicit false

namespace BaseDrivers.ShiftRegister

/-- The highest `n` bits of a word, which is shifted to the left after each. -/
def sent {w : ℕ} : ℕ → BitVec w → List Bool
  | 0, _ => []
  | n+1, v => v.msb::sent n (v <<< 1)

def shifted {w : ℕ} (r : BitVec w) (bs : List Bool) : BitVec w := bs.foldl BitVec.shiftConcat r

theorem shifted_sent {w n : ℕ} (hn : n ≤ w) (r v : BitVec w) (i : ℕ) (hi : i < w) :
    (shifted r (sent n v)).getLsbD i =
      if i < n then v.getLsbD (w-n+i) else r.getLsbD (i-n) := by
  induction n generalizing r v with
  | zero => simp [sent, shifted]
  | succ n ih =>
    rw [sent, shifted, List.foldl_cons, ← shifted, ih (by omega)]
    rw [BitVec.getLsbD_shiftLeft, BitVec.getLsbD_shiftConcat, BitVec.msb_eq_getLsbD_last]
    rcases Nat.lt_trichotomy i n with h | rfl | h
    · rw [if_pos h, if_pos (by omega), show w-n+i-1 = w-(n+1)+i by omega,
        decide_eq_true (show w-n+i < w by omega), decide_eq_false (show ¬ w-n+i < 1 by omega)]
      rfl
    · rw [if_neg (Nat.lt_irrefl i), if_pos (Nat.lt_succ_self i), Nat.sub_self,
        show w-(i+1)+i = w-1 by omega]
      simp [show 0 < w by omega]
    · rw [if_neg (by omega), if_neg (by omega), if_neg (by omega),
        show i-n-1 = i-(n+1) by omega]
      simp [show i-n < w by omega]

/-- All bits of a word are received. -/
theorem shifted_word {w : ℕ} (r v : BitVec w) : shifted r (sent w v) = v := by
  apply BitVec.eq_of_getLsbD_eq
  intro i hi
  rw [shifted_sent (Nat.le_refl w) r v i hi, if_pos hi, Nat.sub_self, Nat.zero_add]

end BaseDrivers.ShiftRegister
