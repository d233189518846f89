import Mathlib.Data.Int.Init
import Mathlib.Logic.Function.Basic
import Mathlib.Tactic.SplitIfs
import BaseDrivers.BitField

/-!
# The palette of the display

A colour is given by three numbers, of which the low 16 bits count. Their
highest bits are put together to a pixel and stored in a palette of 16
entries.
-/

set_option autoImplicit false

namespace BaseDrivers.Palette
open BaseDrivers.BitField

/-- The layout of a pixel in `struct fb_var_screeninfo`. -/
structure Var where
  red : Field
  green : Field
  blue : Field
  deriving DecidableEq, Repr

/-- RGB565, as `lcd_init` sets it. -/
def lcd_init : Var := ⟨⟨11,5⟩,⟨5,6⟩,⟨0,5⟩⟩

/-- The words of the memory, counted from `pseudo_palette`. -/
abbrev Memory := ℤ → BitVec 32

def chan_to_field (chan : BitVec 32) (bf : Field) : BitVec 32 :=
  ((chan &&& 0xffff) >>> (16-bf.length)) <<< bf.offset

/-- The result, and the memory after it. -/
def s3c_lcdfb_setcolreg (regno red green blue : BitVec 32) (var : Var) (m : Memory) :
    ℤ × Memory :=
  if regno.toNat > 16 then (1,m)
  else
    let val := chan_to_field red var.red
    let val := val ||| chan_to_field green var.green
    let val := val ||| chan_to_field blue var.blue
    (0,Function.update m regno.toNat val)

/-- The highest bits of the low 16, as many as a field has. -/
def top (chan : BitVec 32) (bf : Field) : ℕ := (chan.toNat % 65536) >>> (16-bf.length)

/-- A pixel has the highest bits of the three colours in its fields. -/
structure Shows (val red green blue : BitVec 32) (var : Var) : Prop where
  red : (var.red.of val).toNat = top red var.red
  green : (var.green.of val).toNat = top green var.green
  blue : (var.blue.of val).toNat = top blue var.blue

/-- The palette has 16 entries. A call is refused and changes nothing, or it
sets one entry. -/
def Safe (regno red green blue : BitVec 32) (var : Var) (m : Memory) (r : ℤ × Memory) : Prop :=
  (r.1 = 1 ∧ r.2 = m) ∨ (r.1 = 0 ∧ regno.toNat < 16 ∧ (∀ i : ℤ, i ≠ regno.toNat → r.2 i = m i) ∧
    Shows (r.2 regno.toNat) red green blue var)

/-- The fields are inside a word, as wide as a colour at most, and apart from
each other. -/
structure Layout (var : Var) : Prop where
  inside : ∀ bf ∈ [var.red,var.green,var.blue], bf.length ≤ 16 ∧ bf.offset+bf.length ≤ 32
  red_green : Apart var.red var.green
  red_blue : Apart var.red var.blue
  green_blue : Apart var.green var.blue

theorem low_bits (chan : BitVec 32) (k : ℕ) :
    (chan &&& 0xffff).getLsbD k = (decide (k < 16) && chan.getLsbD k) := by
  have hmask : (0xffff : BitVec 32).getLsbD k = decide (k < 16) := by
    show (2^16-1).testBit k = _
    exact Nat.testBit_two_pow_sub_one 16 k
  rw [BitVec.getLsbD_and, hmask, Bool.and_comm]

theorem chan_bits (chan : BitVec 32) (bf : Field) (i : ℕ) :
    (chan_to_field chan bf).getLsbD i = (decide (i < 32) && !decide (i < bf.offset) &&
      (decide (16-bf.length+(i-bf.offset) < 16) &&
        chan.getLsbD (16-bf.length+(i-bf.offset)))) := by
  rw [chan_to_field, BitVec.getLsbD_shiftLeft, BitVec.getLsbD_ushiftRight, low_bits]

/-- A colour does not spill over its field. -/
theorem chan_inside (chan : BitVec 32) {bf : Field} (h : bf.length ≤ 16) :
    Inside bf (chan_to_field chan bf) := by
  intro i hi
  rw [chan_bits] at hi
  simp only [Bool.and_eq_true, Bool.not_eq_true', decide_eq_true_eq, decide_eq_false_iff_not] at hi
  omega

/-- A field has the highest bits of its colour. -/
theorem chan_top (chan : BitVec 32) {bf : Field} (h : bf.length ≤ 16)
    (hbf : bf.offset+bf.length ≤ 32) : (bf.of (chan_to_field chan bf)).toNat = top chan bf := by
  apply Nat.eq_of_testBit_eq
  intro i
  rw [BitVec.testBit_toNat, Field.of, BitVec.getLsbD_extractLsb', chan_bits, top,
    Nat.testBit_shiftRight, show 65536 = 2^16 from rfl, Nat.testBit_mod_two_pow,
    BitVec.testBit_toNat, Nat.add_sub_cancel_left]
  by_cases hi : i < bf.length
  · rw [decide_eq_true hi, decide_eq_true (show bf.offset+i < 32 by omega),
      decide_eq_false (show ¬ bf.offset+i < bf.offset by omega)]
    rfl
  · rw [decide_eq_false hi, decide_eq_false (show ¬ 16-bf.length+i < 16 by omega),
      Bool.false_and, Bool.false_and]

theorem packed_shows (red green blue : BitVec 32) {var : Var} (h : Layout var) :
    Shows (chan_to_field red var.red ||| chan_to_field green var.green |||
      chan_to_field blue var.blue) red green blue var := by
  obtain ⟨hred,hgreen,hblue⟩ : (var.red.length ≤ 16 ∧ var.red.offset+var.red.length ≤ 32) ∧
      (var.green.length ≤ 16 ∧ var.green.offset+var.green.length ≤ 32) ∧
      (var.blue.length ≤ 16 ∧ var.blue.offset+var.blue.length ≤ 32) := by
    simpa using h.inside
  have hr := chan_inside red hred.1
  have hg := chan_inside green hgreen.1
  have hb := chan_inside blue hblue.1
  constructor
  · rw [of_or_left hb h.red_blue.symm, of_or_left hg h.red_green.symm]
    exact chan_top red hred.1 hred.2
  · rw [of_or_left hb h.green_blue.symm, of_or_right hr h.red_green]
    exact chan_top green hgreen.1 hgreen.2
  · rw [BitVec.or_assoc, of_or_right hr h.red_blue, of_or_right hg h.green_blue]
    exact chan_top blue hblue.1 hblue.2

/-- With the layout of RGB565 a call is safe exactly when it is not for the
entry after the last. -/
theorem setcolreg_safe_iff (regno red green blue : BitVec 32) (m : Memory) :
    Safe regno red green blue lcd_init m
      (s3c_lcdfb_setcolreg regno red green blue lcd_init m) ↔ regno.toNat ≠ 16 := by
  have hlayout : Layout lcd_init := ⟨by decide,by decide,by decide,by decide⟩
  rw [s3c_lcdfb_setcolreg]
  split_ifs with hregno
  · exact iff_of_true (.inl ⟨rfl,rfl⟩) (by omega)
  · constructor
    · rintro (⟨hone,-⟩ | ⟨-,hlt,-⟩)
      · cases hone
      · omega
    · intro hne
      refine .inr ⟨rfl,by omega,?_,?_⟩
      · intro i hi
        exact Function.update_of_ne hi ..
      · show Shows (Function.update m _ _ _) _ _ _ _
        rw [Function.update_self]
        exact packed_shows red green blue hlayout

/-- The entry after the last is written. -/
theorem entry_after_last : ¬ ∀ (regno red green blue : BitVec 32) (m : Memory),
    Safe regno red green blue lcd_init m
      (s3c_lcdfb_setcolreg regno red green blue lcd_init m) := by
  intro h
  rcases h 16 0 0 0 (fun _ => 0) with ⟨hone,-⟩ | ⟨-,hlt,-⟩
  · cases hone
  · exact absurd hlt (by decide)

end BaseDrivers.Palette
