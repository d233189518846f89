import Mathlib.Data.List.Rotate
import Mathlib.Tactic.SplitIfs

/-!
# Block copies and circular contents

A block copy is defined only where both blocks lie inside their buffers.
The contents of a circular buffer are a segment of the rotated buffer. Two
copies, one up to the physical end and one from the beginning, read or
append a block whatever the position of the segment.
-/

set_option autoImplicit false

namespace BaseDrivers.CircularBuffer
variable {α : Type*}

def overwrite (dst : List α) (d : ℕ) (xs : List α) : List α :=
  dst.take d++xs++dst.drop (d+xs.length)

def segment (src : List α) (s n : ℕ) : List α := (src.drop s).take n

/-- `memcpy` of `n` elements between two buffers. A block that leaves its
buffer has no result. -/
def memcpy (dst : List α) (d : ℕ) (src : List α) (s n : ℕ) : Option (List α) :=
  if d+n ≤ dst.length ∧ s+n ≤ src.length then some (overwrite dst d (segment src s n)) else none

def contents (buf : List α) (start count : ℕ) : List α := (buf.rotate start).take count

theorem length_overwrite (dst xs : List α) (d : ℕ) (h : d+xs.length ≤ dst.length) :
    (overwrite dst d xs).length = dst.length := by
  simp [overwrite]
  omega

theorem length_segment (src : List α) (s n : ℕ) (h : s+n ≤ src.length) :
    (segment src s n).length = n := by
  simp [segment]
  omega

theorem memcpy_eq (dst src : List α) (d s n : ℕ) (hd : d+n ≤ dst.length)
    (hs : s+n ≤ src.length) :
    memcpy dst d src s n = some (overwrite dst d (segment src s n)) := by
  simp [memcpy, hd, hs]

theorem getElem?_overwrite (dst xs : List α) (d i : ℕ) (h : d+xs.length ≤ dst.length) :
    (overwrite dst d xs)[i]? = if d ≤ i ∧ i < d+xs.length then xs[i-d]? else dst[i]? := by
  have hd : (dst.take d).length = d := by simp; omega
  rw [overwrite, List.append_assoc]
  by_cases h1 : i < d
  · rw [List.getElem?_append_left (by omega), List.getElem?_take_of_lt h1, if_neg (by omega)]
  · rw [List.getElem?_append_right (by omega), hd]
    by_cases h2 : i < d+xs.length
    · rw [List.getElem?_append_left (by omega), if_pos (by omega)]
    · rw [List.getElem?_append_right (by omega), if_neg (by omega), List.getElem?_drop]
      congr 1
      omega

theorem getElem?_segment (src : List α) (s n i : ℕ) :
    (segment src s n)[i]? = if i < n then src[s+i]? else none := by
  simp [segment, List.getElem?_take, List.getElem?_drop]

theorem length_contents (buf : List α) (start count : ℕ) (h : count ≤ buf.length) :
    (contents buf start count).length = count := by
  simp [contents, h]

theorem getElem?_contents (buf : List α) (start count i : ℕ) (h : count ≤ buf.length) :
    (contents buf start count)[i]? = if i < count then buf[(start+i)%buf.length]? else none := by
  rw [contents, List.getElem?_take]
  split_ifs with hi
  · rw [List.getElem?_rotate (by omega), Nat.add_comm]
  · rfl

theorem wrap (r x n : ℕ) (hr : r < n) (hx : x ≤ n) :
    (r+x)%n = if r+x < n then r+x else r+x-n := by
  split_ifs with h
  · exact Nat.mod_eq_of_lt h
  · rw [Nat.mod_eq_sub_mod (by omega), Nat.mod_eq_of_lt (by omega)]

/-- Only the position modulo the length of the buffer matters. -/
theorem contents_congr (buf : List α) (a b count : ℕ) (h : a%buf.length = b%buf.length) :
    contents buf a count = contents buf b count := by
  rw [contents, contents, ← List.rotate_mod buf a, ← List.rotate_mod buf b, h]

theorem contents_drop (buf : List α) (start n count : ℕ) (hn : n ≤ count)
    (hc : count ≤ buf.length) :
    contents buf (start+n) (count-n) = (contents buf start count).drop n := by
  apply List.ext_getElem?
  intro i
  rw [List.getElem?_drop, getElem?_contents _ _ _ _ (by omega), getElem?_contents _ _ _ _ hc]
  simp only [Nat.add_assoc, show i < count-n ↔ n+i < count by omega]

theorem contents_take (buf : List α) (start n count : ℕ) (hn : n ≤ count) :
    contents buf start n = (contents buf start count).take n := by
  rw [contents, contents, List.take_take, Nat.min_eq_left hn]

/-- A circular block is one block up to the physical end followed by one from
the beginning. -/
theorem contents_blocks (buf : List α) (start n l : ℕ) (hb : 0 < buf.length)
    (hn : n ≤ buf.length) (hl : l = min n (buf.length-start%buf.length)) :
    contents buf start n = segment buf (start%buf.length) l++segment buf 0 (n-l) := by
  have hs : start%buf.length < buf.length := Nat.mod_lt _ hb
  have hfst : (buf.drop (start%buf.length)).take n = segment buf (start%buf.length) l := by
    rw [segment, List.take_eq_take_iff, List.length_drop]
    omega
  have hsnd : (buf.take (start%buf.length)).take (n-(buf.length-start%buf.length)) =
      segment buf 0 (n-l) := by
    rw [segment, List.take_take, List.drop_zero]
    congr 1
    omega
  rw [contents, List.rotate_eq_drop_append_take_mod, List.take_append, List.length_drop,
    hfst, hsnd]

theorem overwrite_append (dst xs ys : List α) :
    overwrite (overwrite dst 0 xs) xs.length ys = overwrite dst 0 (xs++ys) := by
  simp [overwrite, List.append_assoc, List.drop_append]

/-- Two copies read a circular block into the front of another buffer. -/
theorem read_blocks (buf dst : List α) (start n l : ℕ) (hb : 0 < buf.length)
    (hn : n ≤ buf.length) (hl : l = min n (buf.length-start%buf.length))
    (hd : n ≤ dst.length) :
    ((memcpy dst 0 buf (start%buf.length) l).bind fun dst' => memcpy dst' l buf 0 (n-l)) =
      some (overwrite dst 0 (contents buf start n)) := by
  have hs : start%buf.length < buf.length := Nat.mod_lt _ hb
  have hsl : (segment buf (start%buf.length) l).length = l := length_segment _ _ _ (by omega)
  have hlo := length_overwrite dst (segment buf (start%buf.length) l) 0 (by omega)
  rw [memcpy_eq _ _ _ _ _ (by omega) (by omega), Option.bind_some,
    memcpy_eq _ _ _ _ _ (by omega) (by omega), contents_blocks buf start n l hb hn hl,
    ← overwrite_append, hsl]

/-- The buffer after a block was copied in two parts, `l` elements at `s` and
the others at the beginning. -/
theorem getElem?_blocks (buf src : List α) (s n l i : ℕ) (hn : n ≤ buf.length)
    (hl : l ≤ n) (hs : s+l ≤ buf.length) (hsrc : n ≤ src.length) :
    (overwrite (overwrite buf s (segment src 0 l)) 0 (segment src l (n-l)))[i]? =
      if i < n-l then src[l+i]? else if s ≤ i ∧ i < s+l then src[i-s]? else buf[i]? := by
  have hsl : (segment src 0 l).length = l := length_segment _ _ _ (by omega)
  have hsn : (segment src l (n-l)).length = n-l := length_segment _ _ _ (by omega)
  have hlo := length_overwrite buf (segment src 0 l) s (by omega)
  rw [getElem?_overwrite _ _ _ _ (by omega), getElem?_overwrite _ _ _ _ (by omega),
    getElem?_segment, getElem?_segment, hsl, hsn]
  simp only [Nat.zero_le, true_and, Nat.zero_add, Nat.sub_zero]
  split_ifs <;> first | rfl | omega

/-- Two copies append the front of another buffer to the circular contents. -/
theorem write_blocks (buf src : List α) (start count n l : ℕ) (hb : 0 < buf.length)
    (hn : count+n ≤ buf.length) (hl : l = min n (buf.length-(start+count)%buf.length))
    (hsrc : n ≤ src.length) :
    ∃ buf', ((memcpy buf ((start+count)%buf.length) src 0 l).bind
        fun buf' => memcpy buf' 0 src l (n-l)) = some buf' ∧
      buf'.length = buf.length ∧
      contents buf' start (count+n) = contents buf start count++src.take n := by
  have hs : (start+count)%buf.length < buf.length := Nat.mod_lt _ hb
  have hr : start%buf.length < buf.length := Nat.mod_lt _ hb
  have hsl : (segment src 0 l).length = l := length_segment _ _ _ (by omega)
  have hsn : (segment src l (n-l)).length = n-l := length_segment _ _ _ (by omega)
  have hlo := length_overwrite buf (segment src 0 l) ((start+count)%buf.length) (by omega)
  have hlt := length_overwrite (overwrite buf ((start+count)%buf.length) (segment src 0 l))
    (segment src l (n-l)) 0 (by omega)
  have hlc := length_contents buf start count (by omega)
  refine ⟨_,?_,hlt.trans hlo,?_⟩
  · rw [memcpy_eq _ _ _ _ _ (by omega) (by omega), Option.bind_some,
      memcpy_eq _ _ _ _ _ (by omega) (by omega)]
  apply List.ext_getElem?
  intro i
  rw [getElem?_contents _ _ _ _ (by omega), hlt, hlo, List.getElem?_append, hlc,
    getElem?_contents _ _ _ _ (by omega), List.getElem?_take,
    getElem?_blocks _ _ _ _ _ _ (by omega) (by omega) (by omega) hsrc]
  -- the positions become linear once each is known to wrap at most once
  by_cases hi : i < count+n
  · have hp := wrap (start%buf.length) i buf.length hr (by omega)
    have hq := wrap (start%buf.length) count buf.length hr (by omega)
    rw [Nat.mod_add_mod] at hp hq
    generalize (start+i)%buf.length = p at *
    generalize (start+count)%buf.length = q at *
    split_ifs at hp hq ⊢ <;> first | rfl | omega | (congr 1; omega)
  · rw [if_neg hi, if_neg (by omega), if_neg (by omega)]

/-- One element is appended behind a circular block that leaves a slot. -/
theorem contents_push (buf : List α) (start count : ℕ) (c : α) (h : count < buf.length) :
    contents (buf.set ((start+count)%buf.length) c) start (count+1) =
      contents buf start count++[c] := by
  have hr : start%buf.length < buf.length := Nat.mod_lt _ (by omega)
  have hlc := length_contents buf start count (by omega)
  apply List.ext_getElem?
  intro i
  rw [getElem?_contents _ _ _ _ (by rw [List.length_set]; omega), List.length_set,
    List.getElem?_append, hlc, getElem?_contents _ _ _ _ (by omega), List.getElem?_set]
  by_cases hi : i < count+1
  · have hp := wrap (start%buf.length) i buf.length hr (by omega)
    have hq := wrap (start%buf.length) count buf.length hr (by omega)
    rw [Nat.mod_add_mod] at hp hq
    generalize (start+i)%buf.length = p at *
    generalize (start+count)%buf.length = q at *
    by_cases hc : i < count
    · have hne : ¬ q = p := by
        split_ifs at hp hq <;> omega
      simp only [hi, hc, hne, if_true, if_false]
    · have hic : i = count := by omega
      have hpq : q = p := by
        rw [hp, hq, hic]
      have hlt : p < buf.length := by
        split_ifs at hp <;> omega
      subst hic
      simp [hpq, hlt]
  · simp [hi, show ¬ i < count by omega, show i-count ≠ 0 by omega]

section Copied
variable [Inhabited α]

/-- `n` elements copied one by one. -/
def copied (dst src : List α) (put get : ℕ → ℕ) (n : ℕ) : List α :=
  (List.range n).foldl (fun b k => b.set (put k) (src.getD (get k) default)) dst

theorem copied_succ (dst src : List α) (put get : ℕ → ℕ) (n : ℕ) :
    copied dst src put get (n+1) =
      (copied dst src put get n).set (put n) (src.getD (get n) default) := by
  rw [copied, List.range_succ, List.foldl_append]
  rfl

theorem copied_add (dst src : List α) (put get : ℕ → ℕ) (m n : ℕ) :
    copied dst src put get (m+n) =
      copied (copied dst src put get m) src (fun k => put (m+k)) (fun k => get (m+k)) n := by
  induction n with
  | zero => rfl
  | succ n ih => rw [← Nat.add_assoc, copied_succ, ih, copied_succ]

theorem copied_congr {dst src : List α} {put put' get get' : ℕ → ℕ} {n : ℕ}
    (ht : ∀ k < n, put k = put' k) (hf : ∀ k < n, get k = get' k) :
    copied dst src put get n = copied dst src put' get' n := by
  induction n with
  | zero => rfl
  | succ n ih =>
    rw [copied_succ, copied_succ, ih (fun k hk => ht k (by omega)) (fun k hk => hf k (by omega)),
      ht n (by omega), hf n (by omega)]

theorem length_copied (dst src : List α) (put get : ℕ → ℕ) (n : ℕ) :
    (copied dst src put get n).length = dst.length := by
  induction n with
  | zero => rfl
  | succ n ih => rw [copied_succ, List.length_set, ih]

/-- A block copy is the copy of its elements. -/
theorem memcpy_copied (dst src : List α) (d s n : ℕ) (hd : d+n ≤ dst.length)
    (hs : s+n ≤ src.length) :
    memcpy dst d src s n = some (copied dst src (fun k => d+k) (fun k => s+k) n) := by
  rw [memcpy_eq dst src d s n hd hs]
  congr 1
  induction n with
  | zero => simp [overwrite, segment, copied]
  | succ n ih =>
    rw [copied_succ, ← ih (by omega) (by omega)]
    have hn := length_segment src s n (by omega)
    have hn' := length_segment src s (n+1) (by omega)
    apply List.ext_getElem?
    intro i
    rw [getElem?_overwrite _ _ _ _ (by omega), List.getElem?_set, length_overwrite _ _ _ (by omega),
      getElem?_overwrite _ _ _ _ (by omega), getElem?_segment, getElem?_segment, hn, hn']
    by_cases hi : d+n = i
    · subst hi
      rw [if_pos (by omega), if_pos (by omega), if_pos rfl, if_pos (by omega),
        show d+n-d = n by omega, List.getD_eq_getElem?_getD,
        List.getElem?_eq_getElem (show s+n < src.length by omega), Option.getD_some]
    · rw [if_neg hi]
      split_ifs <;> first | rfl | omega

end Copied

/-- Offsets below the length of a buffer lead to different places. -/
theorem place_inj {n start i j : ℕ} (hi : i < n) (hj : j < n)
    (h : (start+i)%n = (start+j)%n) : i = j := by
  have hs : start%n < n := Nat.mod_lt _ (by omega)
  have hwi := wrap (start%n) i n hs (by omega)
  have hwj := wrap (start%n) j n hs (by omega)
  rw [Nat.mod_add_mod] at hwi hwj
  split_ifs at hwi hwj <;> omega

/-- An element that changes behind a circular block is not part of it. -/
theorem contents_set_behind (buf : List α) (start count j : ℕ) (c : α) (hc : count ≤ j)
    (hj : j < buf.length) :
    contents (buf.set ((start+j)%buf.length) c) start count = contents buf start count := by
  apply List.ext_getElem?
  intro i
  rw [getElem?_contents _ _ _ _ (by rw [List.length_set]; omega), List.length_set,
    getElem?_contents _ _ _ _ (by omega)]
  split_ifs with hi
  · exact List.getElem?_set_ne (fun h => by
      have := place_inj hj (by omega) h
      omega)
  · rfl

/-- The number of elements between two indices of a buffer of `n`, of which
one slot stays free. -/
def gap (n r w : ℕ) : ℕ := if r ≤ w then w-r else n+w-r

section Gap
variable {n r w : ℕ}

theorem gap_lt (hr : r < n) (hw : w < n) : gap n r w < n := by
  rw [gap]
  split_ifs <;> omega

theorem gap_zero (hr : r < n) : gap n r w = 0 ↔ w = r := by
  rw [gap]
  split_ifs <;> omega

theorem gap_end (hr : r < n) (hw : w < n) : (r+gap n r w)%n = w := by
  rw [wrap r _ n hr (gap_lt hr hw).le, gap]
  split_ifs <;> omega

/-- The buffer is full when the next index would be the first one. -/
theorem gap_full (hr : r < n) (hw : w < n) : (w+1)%n = r ↔ gap n r w = n-1 := by
  rw [wrap w 1 n hw (by omega), gap]
  split_ifs <;> omega

theorem gap_push (hr : r < n) (hw : w < n) (h : gap n r w ≠ n-1) :
    gap n r ((w+1)%n) = gap n r w+1 := by
  rw [wrap w 1 n hw (by omega)]
  unfold gap at *
  split_ifs at * <;> omega

theorem gap_pop (hr : r < n) (hw : w < n) (h : gap n r w ≠ 0) :
    gap n ((r+1)%n) w = gap n r w-1 := by
  rw [wrap r 1 n hr (by omega)]
  unfold gap at *
  split_ifs at * <;> omega

end Gap

end BaseDrivers.CircularBuffer
