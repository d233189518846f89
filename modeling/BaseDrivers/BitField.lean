import Mathlib.Data.Int.Init

/-!
# Fields of a word

A field is a run of neighbouring bits. A word whose bits are all in one field
adds nothing to another one apart from it.
-/

set_option autoImplicit false

namespace BaseDrivers.BitField

structure Field where
  offset : ℕ
  length : ℕ
  deriving DecidableEq, Repr

variable {w : ℕ} {f g : Field} {u v : BitVec w}

/-- What a word has in a field. -/
def Field.of (f : Field) (v : BitVec w) : BitVec f.length := v.extractLsb' f.offset f.length

def Apart (f g : Field) : Prop := f.offset+f.length ≤ g.offset ∨ g.offset+g.length ≤ f.offset

instance (f g : Field) : Decidable (Apart f g) :=
  inferInstanceAs (Decidable (f.offset+f.length ≤ g.offset ∨ g.offset+g.length ≤ f.offset))

theorem Apart.symm (h : Apart f g) : Apart g f := Or.symm h

/-- All bits of a word are in a field. -/
def Inside (f : Field) (v : BitVec w) : Prop :=
  ∀ i, v.getLsbD i = true → f.offset ≤ i ∧ i < f.offset+f.length

theorem of_apart (h : Inside f v) (hfg : Apart f g) : g.of v = 0#g.length := by
  apply BitVec.eq_of_getLsbD_eq
  intro i hi
  rw [Field.of, BitVec.getLsbD_extractLsb', BitVec.getLsbD_zero, decide_eq_true hi, Bool.true_and]
  apply Bool.eq_false_iff.mpr
  intro hbit
  have hin := h _ hbit
  rcases hfg with hfg | hfg
  · omega
  · omega

theorem of_or_left (hv : Inside f v) (hfg : Apart f g) : g.of (u ||| v) = g.of u := by
  have hzero := of_apart hv hfg
  rw [Field.of] at hzero
  rw [Field.of, BitVec.extractLsb'_or, hzero]
  exact BitVec.or_zero

theorem of_or_right (hu : Inside f u) (hfg : Apart f g) : g.of (u ||| v) = g.of v := by
  rw [BitVec.or_comm]
  exact of_or_left hu hfg

end BaseDrivers.BitField
