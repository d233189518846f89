import BaseDrivers.CircularBuffer

/-!
# A buffer as the last writes to it

Blocks are written at any positions and may overlap. What a buffer holds at a
position is then the value of the last block that covered it, and the initial
value where no block has.
-/

set_option autoImplicit false

namespace BaseDrivers.BlockWrites
open BaseDrivers.CircularBuffer
variable {α : Type*}

structure Block (α : Type*) where
  pos : ℕ
  data : List α
  deriving DecidableEq, Repr

/-- The value a block gives to a position. -/
def value (b : Block α) (i : ℕ) : Option α := if b.pos ≤ i then b.data[i-b.pos]? else none

/-- The latest block stands last in the list. -/
def lastWrite (ws : List (Block α)) (i : ℕ) : Option α := ws.reverse.findSome? (fun b => value b i)

structure Holds (buf : List α) (n : ℕ) (init : α) (ws : List (Block α)) : Prop where
  length : buf.length = n
  value : ∀ i < n, buf[i]? = some ((lastWrite ws i).getD init)

theorem value_inside (b : Block α) (i : ℕ) (h : b.pos ≤ i ∧ i < b.pos+b.data.length) :
    value b i = b.data[i-b.pos]? := if_pos h.1

theorem value_outside (b : Block α) (i : ℕ) (h : ¬ (b.pos ≤ i ∧ i < b.pos+b.data.length)) :
    value b i = none := by
  rw [value]
  split_ifs with hpos
  · rw [List.getElem?_eq_none]
    omega
  · rfl

theorem lastWrite_concat (ws : List (Block α)) (b : Block α) (i : ℕ) :
    lastWrite (ws++[b]) i = (value b i).or (lastWrite ws i) := by
  rw [lastWrite, List.reverse_concat, List.findSome?_cons]
  cases value b i <;> rfl

theorem holds_replicate (n : ℕ) (init : α) : Holds (List.replicate n init) n init [] where
  length := List.length_replicate
  value _ hi := List.getElem?_replicate_of_lt hi

theorem holds_overwrite {buf : List α} {n : ℕ} {init : α} {ws : List (Block α)}
    (h : Holds buf n init ws) (b : Block α) (hb : b.pos+b.data.length ≤ n) :
    Holds (overwrite buf b.pos b.data) n init (ws++[b]) := by
  have hlen : b.pos+b.data.length ≤ buf.length := by rwa [h.length]
  constructor
  · rw [length_overwrite buf b.data b.pos hlen, h.length]
  · intro i hi
    rw [getElem?_overwrite buf b.data b.pos i hlen, lastWrite_concat]
    split_ifs with hin
    · obtain ⟨x,hx⟩ : ∃ x, b.data[i-b.pos]? = some x := ⟨_,List.getElem?_eq_getElem (by omega)⟩
      rw [value_inside b i hin, hx]
      rfl
    · rw [value_outside b i hin, h.value i hi]
      rfl

/-- What is read back is the last value written to each position. -/
theorem segment_holds {buf : List α} {n : ℕ} {init : α} {ws : List (Block α)}
    (h : Holds buf n init ws) (s len : ℕ) (hs : s+len ≤ n) :
    CircularBuffer.segment buf s len = (List.range len).map (fun i => (lastWrite ws (s+i)).getD init) := by
  apply List.ext_getElem?
  intro i
  rw [getElem?_segment, List.getElem?_map]
  split_ifs with hi
  · rw [h.value (s+i) (by omega), List.getElem?_range hi]
    rfl
  · rw [List.getElem?_eq_none (by simpa using hi)]
    rfl

end BaseDrivers.BlockWrites
