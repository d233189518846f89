import Mathlib.Data.Int.Order.Basic
import BaseDrivers.BoundedArray

/-!
# Three sorts of an `int` array

Bubble sort, bubble sort in both directions, and selection sort, each on an
array whose places are checked.
-/

set_option autoImplicit false

namespace BaseDrivers.Sort
open BaseDrivers.BoundedArray

def bubble_turn (j : ℤ) (a : List ℤ) : Option (List ℤ) := do
  if (← get a j) > (← get a (j+1)) then swap a j (j+1) else some a

def sort_bubble (a : List ℤ) (size : ℤ) : Option (List ℤ) :=
  for_up (size-1) (fun i a => for_up (size-i-1) bubble_turn 0 a) 0 a

def up_turn (i : ℤ) (a : List ℤ) : Option (List ℤ) := do
  if (← get a i) > (← get a (i+1)) then swap a (i+1) i else some a

def down_turn (j : ℤ) (a : List ℤ) : Option (List ℤ) := do
  if (← get a (j+1)) < (← get a j) then swap a (j+1) j else some a

/-- `while (left < right)` of `sort_bubble_v2` -/
def v2_loop (left right : ℤ) (a : List ℤ) : Option (List ℤ) :=
  if left < right then do
    let a ← for_up right up_turn left a
    let a ← for_down left down_turn (right-1) a
    v2_loop (left+1) (right-1) a
  else some a
termination_by (right-left).toNat

def sort_bubble_v2 (a : List ℤ) (size : ℤ) : Option (List ℤ) := v2_loop 0 (size-1) a

/-- `if (a[j] < a[k]) k = j;` -/
def select_turn (a : List ℤ) (j k : ℤ) : Option ℤ := do
  if (← get a j) < (← get a k) then some j else some k

def sort_select (a : List ℤ) (size : ℤ) : Option (List ℤ) :=
  for_up size (fun i a => do
    let k ← for_up size (select_turn a) (i+1) i
    if k ≠ i then swap a k i else some a) 0 a

/-- A non-decreasing permutation. -/
structure Sorts (a b : List ℤ) : Prop where
  perm : b.Perm a
  sorted : b.Pairwise (· ≤ ·)

theorem bubble_exchanges : Exchanges bubble_turn := by
  intro j a hj hj'
  rw [bubble_turn, get_val hj, get_val hj']
  exact exchanged_result hj hj' (fun h => .inl (if_pos h)) (fun h => if_neg h)

theorem up_exchanges : Exchanges up_turn := by
  intro j a hj hj'
  rw [up_turn, get_val hj, get_val hj']
  exact exchanged_result hj hj' (fun h => .inr (if_pos h)) (fun h => if_neg h)

theorem down_exchanges : Exchanges down_turn := by
  intro j a hj hj'
  rw [down_turn, get_val hj, get_val hj']
  exact exchanged_result hj hj' (fun h => .inr (if_pos h)) (fun h => if_neg h)

theorem down_turn_kept {j : ℤ} {a : List ℤ} (hj : InRange a j) (hj' : InRange a (j+1))
    (h : val a j ≤ val a (j+1)) : down_turn j a = some a := by
  rw [down_turn, get_val hj, get_val hj']
  exact if_neg (Int.not_lt.mpr h)

theorem sorts_of_settled {a b : List ℤ} {l r : ℤ} (hp : b.Perm a) (hs : Settled l r b)
    (hlr : r ≤ l) : Sorts a b := ⟨hp,settled_sorted hs hlr⟩

/-- Each turn of the outer loop settles one more place from the end. -/
theorem bubble_sorts (a : List ℤ) : ∃ b, sort_bubble a a.length = some b ∧ Sorts a b := by
  by_cases h0 : a.length = 0
  · refine ⟨a,for_up_empty _ a (by omega),.refl a,?_⟩
    rw [List.length_eq_zero_iff.mp h0]
    exact .nil
  · obtain ⟨b,hb,hp,hs⟩ := for_up_rule 0 (a.length-1 : ℤ) a
      (f := fun i a' => for_up (a.length-i-1) bubble_turn 0 a')
      (fun i b => b.Perm a ∧ Settled 0 (a.length-1-i) b)
      (by
        rintro i b hi hi' ⟨hp,hs⟩
        have hlen := hp.length_eq
        obtain ⟨c,hc,hsh,hmax⟩ := pass_up bubble_exchanges (Int.le_refl 0)
          (show 0 ≤ (a.length-i-1 : ℤ) by omega) (a := b) (by omega)
        rw [show (a.length-1-i : ℤ) = a.length-i-1 by omega] at hs
        have hs' := settled_max (settled_shuffled hs hsh (Int.le_refl 0) (by omega)) hmax
        refine ⟨c,hc,hsh.perm.trans hp,?_⟩
        rwa [show (a.length-1-(i+1) : ℤ) = a.length-i-1-1 by omega])
      (by omega) ⟨.refl a,by simpa using settled_start a⟩
    exact ⟨b,hb,sorts_of_settled hp hs (by omega)⟩

/-- A turn of the loop in both directions settles a place at each end. The
way down begins with the place the way up has just settled. -/
theorem v2_turn {left right : ℤ} {a : List ℤ} (h0 : 0 ≤ left) (hlt : left < right)
    (hr : right < a.length) (hs : Settled left right a) :
    ∃ b c, for_up right up_turn left a = some b ∧ for_down left down_turn (right-1) b = some c ∧
      c.Perm a ∧ Settled (left+1) (right-1) c := by
  obtain ⟨b,hb,hup,hmax⟩ := pass_up up_exchanges h0 (Int.le_of_lt hlt) hr
  have hlen := hup.length
  have hsb := settled_max (settled_shuffled hs hup h0 hr) hmax
  have hkept : down_turn (right-1) b = some b := by
    apply down_turn_kept ⟨by omega,by omega⟩ ⟨by omega,by omega⟩
    rw [Int.sub_add_cancel]
    exact hmax _ (by omega) (by omega)
  obtain ⟨c,hc,hdown,hmin⟩ := pass_down down_exchanges h0
    (show left ≤ right-1-1+1 by omega) (a := b) (by omega)
  rw [Int.sub_add_cancel] at hdown hmin
  refine ⟨b,c,hb,?_,hdown.perm.trans hup.perm,?_⟩
  · rw [for_down, if_pos (by omega), hkept]
    exact hc
  · exact settled_min (settled_shuffled hsb hdown h0 (by omega)) hmin

theorem v2_loop_sorts (n : ℕ) {left right : ℤ} {a : List ℤ} (h0 : 0 ≤ left)
    (hr : right < a.length) (hn : right-left ≤ n) (hs : Settled left right a) :
    ∃ b, v2_loop left right a = some b ∧ Sorts a b := by
  induction n generalizing left right a with
  | zero =>
    exact ⟨a,by rw [v2_loop, if_neg (by omega)],sorts_of_settled (.refl a) hs (by omega)⟩
  | succ n ih =>
    by_cases hlt : left < right
    · obtain ⟨b,c,hb,hc,hp,hs'⟩ := v2_turn h0 hlt hr hs
      obtain ⟨d,hd,hsorts⟩ := ih (by omega) (by rw [hp.length_eq]; omega) (by omega) hs'
      refine ⟨d,?_,hsorts.perm.trans hp,hsorts.sorted⟩
      rw [v2_loop, if_pos hlt, hb]
      show (for_down left down_turn (right-1) b).bind _ = _
      rw [hc]
      exact hd
    · exact ⟨a,by rw [v2_loop, if_neg hlt],sorts_of_settled (.refl a) hs (by omega)⟩

theorem v2_sorts (a : List ℤ) : ∃ b, sort_bubble_v2 a a.length = some b ∧ Sorts a b :=
  v2_loop_sorts a.length (Int.le_refl 0) (by omega) (by omega) (settled_start a)

/-- The inner loop finds a place of the least value. -/
theorem select_least {a : List ℤ} {i : ℤ} (hi : InRange a i) :
    ∃ k, for_up a.length (select_turn a) (i+1) i = some k ∧ i ≤ k ∧ k < a.length ∧
      ∀ l, i ≤ l → l < a.length → val a k ≤ val a l := by
  obtain ⟨h0,hlt⟩ := hi
  obtain ⟨k,hk,⟨hlo,hhi⟩,hmin⟩ := for_up_rule (i+1) a.length i
    (f := select_turn a)
    (fun j k => (i ≤ k ∧ k < j) ∧ ∀ l, i ≤ l → l < j → val a k ≤ val a l)
    (by
      rintro j k hj hj' ⟨⟨hlo,hhi⟩,hmin⟩
      have hjr : InRange a j := ⟨by omega,hj'⟩
      have hkr : InRange a k := ⟨by omega,by omega⟩
      rw [select_turn, get_val hjr, get_val hkr]
      by_cases h : val a j < val a k
      · refine ⟨j,if_pos h,⟨by omega,by omega⟩,?_⟩
        intro l hl hl'
        by_cases hlj : l = j
        · rw [hlj]
        · exact Int.le_of_lt (Int.lt_of_lt_of_le h (hmin l hl (by omega)))
      · refine ⟨k,if_neg h,⟨by omega,by omega⟩,?_⟩
        intro l hl hl'
        by_cases hlj : l = j
        · rw [hlj]
          exact Int.not_lt.mp h
        · exact hmin l hl (by omega))
    (by omega) ⟨⟨by omega,by omega⟩,fun l hl hl' => by rw [show l = i by omega]⟩
  exact ⟨k,hk,hlo,hhi,hmin⟩

/-- The least value of the rest comes to its start. -/
theorem select_swaps {a : List ℤ} {i k : ℤ} (hi : InRange a i) (hlo : i ≤ k) (hhi : k < a.length)
    (hmin : ∀ l, i ≤ l → l < a.length → val a k ≤ val a l) :
    ∃ b, (if k ≠ i then swap a k i else some a) = some b ∧ Shuffled i (a.length-1) a b ∧
      ∀ l, i ≤ l → l ≤ a.length-1 → val b i ≤ val b l := by
  obtain ⟨h0,hlt⟩ := hi
  by_cases hne : k = i
  · subst hne
    exact ⟨a,if_neg (not_not.mpr rfl),.refl k _ a,fun l hl hl' => hmin l hl (by omega)⟩
  · obtain ⟨b,hb,hs⟩ := swap_spec (a := a) (i := k) (j := i) ⟨by omega,hhi⟩ ⟨h0,hlt⟩
    have hsh : Shuffled i (a.length-1) a b := .of_swapped hs (by omega) (by omega)
    refine ⟨b,(if_pos hne).trans hb,hsh,?_⟩
    intro l hl hl'
    obtain ⟨l',hlo',hhi',hv⟩ := hsh.inside l hl hl'
    rw [hs.values i, if_pos rfl, hv]
    exact hmin l' hlo' (by omega)

theorem select_sorts (a : List ℤ) : ∃ b, sort_select a a.length = some b ∧ Sorts a b := by
  obtain ⟨b,hb,hp,hs⟩ := for_up_rule 0 (a.length : ℤ) a
    (f := fun i a' => do
      let k ← for_up a.length (select_turn a') (i+1) i
      if k ≠ i then swap a' k i else some a')
    (fun i b => b.Perm a ∧ Settled i (a.length-1) b)
    (by
      rintro i b hi hi' ⟨hp,hs⟩
      have hlen := hp.length_eq
      have hir : InRange b i := ⟨hi,by omega⟩
      obtain ⟨k,hk,hlo,hhi,hmin⟩ := select_least hir
      obtain ⟨c,hc,hsh,hleast⟩ := select_swaps hir hlo hhi hmin
      rw [hlen] at hk hsh hleast
      refine ⟨c,?_,hsh.perm.trans hp,
        settled_min (settled_shuffled hs hsh hi (by omega)) hleast⟩
      rw [hk]
      exact hc)
    (by omega) ⟨.refl a,settled_start a⟩
  exact ⟨b,hb,sorts_of_settled hp hs (by omega)⟩

theorem sorts_unique {a b c : List ℤ} (hb : Sorts a b) (hc : Sorts a c) : b = c :=
  (hb.perm.trans hc.perm.symm).eq_of_pairwise (fun _ _ _ _ => Int.le_antisymm) hb.sorted hc.sorted

/-- The three sorts end with all their places inside the array, and leave one
and the same array, which is sorted. -/
theorem sorts_agree (a : List ℤ) : ∃ b, sort_bubble a a.length = some b ∧
    sort_bubble_v2 a a.length = some b ∧ sort_select a a.length = some b ∧ Sorts a b := by
  obtain ⟨b,hb,hsb⟩ := bubble_sorts a
  obtain ⟨c,hc,hsc⟩ := v2_sorts a
  obtain ⟨d,hd,hsd⟩ := select_sorts a
  rw [sorts_unique hsc hsb] at hc
  rw [sorts_unique hsd hsb] at hd
  exact ⟨b,hb,hc,hd,hsb⟩

end BaseDrivers.Sort
