import Mathlib.Order.Interval.Finset.Nat
import BaseDrivers.Execution
import BaseDrivers.RingBuffer

/-!
# One writer and one reader share the ring buffer

The copies of `rb_write` and `rb_read` touch the buffer byte by byte, and
between any two accesses of one side the other side may run. Each side
reads the counter of the other one once, copies its bytes in any order, and
moves its own counter when every byte is copied. Nothing else keeps the
sides apart.
-/

set_option autoImplicit false

namespace BaseDrivers.RingInterleaved
open BaseDrivers.Execution BaseDrivers.CircularBuffer BaseDrivers.RingBuffer

/-- A side between its calls, or in a copy with the bytes left to copy. -/
inductive Side where
  | idle
  | copying (buf : List UInt8) (len : UInt32) (left : Finset ℕ)
  deriving DecidableEq

/-- `accepted` and `delivered` are the bytes of the finished calls, and
`touched` are the places of the buffer accessed so far. -/
structure Shared where
  rb : rb_t
  writer : Side
  reader : Side
  accepted : List UInt8
  delivered : List UInt8
  touched : List ℕ
  deriving DecidableEq

inductive Act where
  | beginWrite (buf : List UInt8) (len : UInt32) (room : len.toNat ≤ buf.length)
  | store (k : ℕ)
  | endWrite
  | beginRead (buf : List UInt8) (len : UInt32) (room : len.toNat ≤ buf.length)
  | load (k : ℕ)
  | endRead

/-- The place of the byte `k` of the two copies that begin at counter `i`. -/
def place (i size len : UInt32) (k : ℕ) : ℕ :=
  let l := minU32 len (size-(i &&& (size-1)))
  if k < l.toNat then (i &&& (size-1)).toNat+k else k-l.toNat

/-- `len = min(len, rb->size - rb->in + rb->out)` -/
def beginWrite (buf : List UInt8) (len : UInt32) (s : Shared) : Shared :=
  match s.writer with
  | .idle =>
    let len := minU32 len (s.rb.size-s.rb.in_+s.rb.out)
    { s with writer := .copying buf len (Finset.range len.toNat) }
  | .copying _ _ _ => s

def store (k : ℕ) (s : Shared) : Shared :=
  match s.writer with
  | .idle => s
  | .copying buf len left =>
    if k ∈ left then
      let p := place s.rb.in_ s.rb.size len k
      { s with
        rb := { s.rb with buffer := s.rb.buffer.set p (buf.getD k 0) }
        writer := .copying buf len (left.erase k)
        touched := s.touched++[p] }
    else s

/-- `rb->in += len` -/
def endWrite (s : Shared) : Shared :=
  match s.writer with
  | .idle => s
  | .copying buf len left =>
    if left = ∅ then
      { s with
        rb := { s.rb with in_ := s.rb.in_+len }
        writer := .idle
        accepted := s.accepted++buf.take len.toNat }
    else s

/-- `len = min(len, rb->in - rb->out)` -/
def beginRead (buf : List UInt8) (len : UInt32) (s : Shared) : Shared :=
  match s.reader with
  | .idle =>
    let len := minU32 len (s.rb.in_-s.rb.out)
    { s with reader := .copying buf len (Finset.range len.toNat) }
  | .copying _ _ _ => s

def load (k : ℕ) (s : Shared) : Shared :=
  match s.reader with
  | .idle => s
  | .copying buf len left =>
    if k ∈ left then
      let p := place s.rb.out s.rb.size len k
      { s with
        reader := .copying (buf.set k (s.rb.buffer.getD p 0)) len (left.erase k)
        touched := s.touched++[p] }
    else s

/-- `rb->out += len` -/
def endRead (s : Shared) : Shared :=
  match s.reader with
  | .idle => s
  | .copying buf len left =>
    if left = ∅ then
      { s with
        rb := { s.rb with out := s.rb.out+len }
        reader := .idle
        delivered := s.delivered++buf.take len.toNat }
    else s

def step (s : Shared) : Act → Shared
  | .beginWrite buf len _ => beginWrite buf len s
  | .store k => store k s
  | .endWrite => endWrite s
  | .beginRead buf len _ => beginRead buf len s
  | .load k => load k s
  | .endRead => endRead s

def begun (rb : rb_t) : Shared := ⟨rb,.idle,.idle,[],[],[]⟩

/-- The bytes a write has copied lie behind those held, in the free part. -/
def WriterSound (rb : rb_t) (q : List UInt8) : Side → Prop
  | .idle => True
  | .copying buf len left =>
    len.toNat ≤ buf.length ∧ q.length+len.toNat ≤ rb.size.toNat ∧ left ⊆ Finset.range len.toNat ∧
      ∀ k < len.toNat, k ∉ left → rb.buffer[(rb.in_.toNat+k)%rb.size.toNat]? = buf[k]?

/-- The bytes a read has copied are the first ones held. -/
def ReaderSound (q : List UInt8) : Side → Prop
  | .idle => True
  | .copying buf len left =>
    len.toNat ≤ buf.length ∧ len.toNat ≤ q.length ∧ left ⊆ Finset.range len.toNat ∧
      ∀ k < len.toNat, k ∉ left → buf[k]? = q[k]?

/-- The ring holds what was accepted and is not delivered yet. -/
structure Sound (s : Shared) (q : List UInt8) : Prop where
  holds : Holds s.rb q
  writer : WriterSound s.rb q s.writer
  reader : ReaderSound q s.reader
  accepted : s.accepted = s.delivered++q
  touched : ∀ p ∈ s.touched, p < s.rb.size.toNat

/-- The two copies walk through the ring from their counter on. -/
theorem place_eq {rb : rb_t} {q : List UInt8} (h : Holds rb q) (i len : UInt32) (k : ℕ)
    (hk : k < len.toNat) (hlen : len.toNat ≤ rb.size.toNat) :
    place i rb.size len k = (i.toNat+k)%rb.size.toNat := by
  obtain ⟨e,-,he⟩ := h.power
  have hpos := size_pos h
  have hlt := Nat.mod_lt i.toNat hpos
  have hw := wrap (i.toNat%rb.size.toNat) k rb.size.toNat hlt (by omega)
  rw [Nat.mod_add_mod] at hw
  simp only [place]
  rw [first_block len i rb.size e he, mask_toNat i rb.size e he, hw]
  split_ifs <;> omega

theorem place_lt {rb : rb_t} {q : List UInt8} (h : Holds rb q) (i len : UInt32) (k : ℕ)
    (hk : k < len.toNat) (hlen : len.toNat ≤ rb.size.toNat) :
    place i rb.size len k < rb.size.toNat := by
  rw [place_eq h i len k hk hlen]
  exact Nat.mod_lt _ (size_pos h)

/-- The counter of the writer points behind the bytes held. -/
theorem in_behind {rb : rb_t} {q : List UInt8} (h : Holds rb q) (k : ℕ) :
    (rb.in_.toNat+k)%rb.size.toNat = (rb.out.toNat+(q.length+k))%rb.size.toNat := by
  obtain ⟨e,h31,he⟩ := h.power
  have hm := sub_add_cancel_mod rb.in_ rb.out rb.size e he h31
  rw [show (rb.in_-rb.out).toNat = q.length from h.used] at hm
  rw [← Nat.add_assoc, Nat.add_mod, ← hm, ← Nat.add_mod]

theorem held_byte {rb : rb_t} {q : List UInt8} (h : Holds rb q) (k : ℕ) (hk : k < q.length) :
    rb.buffer[(rb.out.toNat+k)%rb.size.toNat]? = q[k]? := by
  have hb := h.bound
  have hd := congrArg (·[k]?) h.data
  simp only [getElem?_contents _ _ _ _ (h.length ▸ hb), if_pos hk, h.length] at hd
  exact hd

section Steps
variable {s : Shared} {q : List UInt8} (h : Sound s q)
include h

theorem begin_write_sound (buf : List UInt8) (len : UInt32) (room : len.toNat ≤ buf.length) :
    Sound (beginWrite buf len s) q := by
  unfold beginWrite
  split
  · rename_i hw
    have hused : (s.rb.in_-s.rb.out).toNat = q.length := h.holds.used
    have hfree := free_toNat s.rb.size s.rb.in_ s.rb.out (hused ▸ h.holds.bound)
    rw [hused] at hfree
    have hn := minU32_toNat len (s.rb.size-s.rb.in_+s.rb.out)
    have hb := h.holds.bound
    have hfit : q.length+(minU32 len (s.rb.size-s.rb.in_+s.rb.out)).toNat ≤ s.rb.size.toNat := by
      omega
    refine ⟨h.holds,⟨by omega,hfit,Finset.Subset.refl _,?_⟩,h.reader,h.accepted,h.touched⟩
    intro k hk hleft
    exact absurd (Finset.mem_range.mpr hk) hleft
  · exact h

theorem begin_read_sound (buf : List UInt8) (len : UInt32) (room : len.toNat ≤ buf.length) :
    Sound (beginRead buf len s) q := by
  unfold beginRead
  split
  · have hused : (s.rb.in_-s.rb.out).toNat = q.length := h.holds.used
    have hn := minU32_toNat len (s.rb.in_-s.rb.out)
    refine ⟨h.holds,h.writer,⟨by omega,by omega,Finset.Subset.refl _,?_⟩,h.accepted,h.touched⟩
    intro k hk hleft
    exact absurd (Finset.mem_range.mpr hk) hleft
  · exact h

/-- A byte goes to a free place: what is held and what the write has copied
before stay. -/
theorem store_sound (k : ℕ) : Sound (store k s) q := by
  cases hw : s.writer with
  | idle => simpa only [store, hw] using h
  | copying buf len left =>
    simp only [store, hw]
    split_ifs with hk
    · obtain ⟨hroom,hfit,hsub,hdone⟩ := hw ▸ h.writer
      have hkl := Finset.mem_range.mp (hsub hk)
      have hlen := h.holds.length
      have hp := place_eq h.holds s.rb.in_ len k hkl (by omega)
      have hbehind := in_behind h.holds k
      refine ⟨⟨h.holds.power,(List.length_set ..).trans hlen,h.holds.used,h.holds.bound,?_⟩,
        ⟨hroom,hfit,(Finset.erase_subset k left).trans hsub,?_⟩,h.reader,h.accepted,?_⟩
      · rw [hp, hbehind, ← hlen, contents_set_behind _ _ _ _ _ (by omega) (by omega)]
        exact h.holds.data
      · intro j hj hleft
        rw [hp]
        by_cases hjk : j = k
        · subst hjk
          rw [List.getElem?_set_self (by rw [hlen]; exact Nat.mod_lt _ (size_pos h.holds)),
            List.getD_eq_getElem?_getD, List.getElem?_eq_getElem (by omega), Option.getD_some]
        · rw [List.getElem?_set_ne (fun he => hjk (place_inj (by omega) (by omega) he.symm))]
          exact hdone j hj (fun hm => hleft (Finset.mem_erase.mpr ⟨hjk,hm⟩))
      · intro p hmem
        rcases List.mem_append.mp hmem with hmem | hmem
        · exact h.touched p hmem
        · rw [List.mem_singleton.mp hmem]
          exact place_lt h.holds s.rb.in_ len k hkl (by omega)
    · exact h

/-- A byte is taken from the front of what is held. -/
theorem load_sound (k : ℕ) : Sound (load k s) q := by
  cases hr : s.reader with
  | idle => simpa only [load, hr] using h
  | copying buf len left =>
    simp only [load, hr]
    split_ifs with hk
    · obtain ⟨hroom,hfit,hsub,hdone⟩ := hr ▸ h.reader
      have hkl := Finset.mem_range.mp (hsub hk)
      have hb := h.holds.bound
      have hp := place_eq h.holds s.rb.out len k hkl (by omega)
      refine ⟨h.holds,h.writer,⟨by rw [List.length_set]; exact hroom,hfit,
        (Finset.erase_subset k left).trans hsub,?_⟩,h.accepted,?_⟩
      · intro j hj hleft
        by_cases hjk : j = k
        · subst hjk
          rw [List.getElem?_set_self (by omega), hp, List.getD_eq_getElem?_getD,
            held_byte h.holds j (by omega), List.getElem?_eq_getElem (by omega), Option.getD_some]
        · rw [List.getElem?_set_ne (Ne.symm hjk)]
          exact hdone j hj (fun hm => hleft (Finset.mem_erase.mpr ⟨hjk,hm⟩))
      · intro p hmem
        rcases List.mem_append.mp hmem with hmem | hmem
        · exact h.touched p hmem
        · rw [List.mem_singleton.mp hmem]
          exact place_lt h.holds s.rb.out len k hkl (by omega)
    · exact h

/-- The finished write adds its bytes behind those held. -/
theorem end_write_sound : ∃ q', Sound (endWrite s) q' := by
  cases hw : s.writer with
  | idle => exact ⟨q,by simpa only [endWrite, hw] using h⟩
  | copying buf len left =>
    simp only [endWrite, hw]
    split_ifs with hleft
    · obtain ⟨hroom,hfit,-,hdone⟩ := hw ▸ h.writer
      have hused : (s.rb.in_-s.rb.out).toNat = q.length := h.holds.used
      have hlen := h.holds.length
      have htake : (q++buf.take len.toNat).length = q.length+len.toNat := by simp; omega
      have hgrow : (s.rb.in_+len-s.rb.out).toNat = q.length+len.toNat := by
        have hs := s.rb.size.toNat_lt
        have h1 := s.rb.in_.toNat_lt
        have h2 := s.rb.out.toNat_lt
        rw [UInt32.toNat_sub] at hused ⊢
        rw [UInt32.toNat_add]
        omega
      refine ⟨q++buf.take len.toNat,⟨h.holds.power,hlen,?_,by rw [htake]; exact hfit,?_⟩,trivial,?_,
        by simp only [h.accepted, List.append_assoc],h.touched⟩
      · rw [htake]
        exact hgrow
      · rw [htake]
        apply List.ext_getElem?
        intro i
        rw [getElem?_contents _ _ _ _ (by rw [hlen]; exact hfit), List.getElem?_append,
          List.getElem?_take, hlen]
        by_cases hi : i < q.length
        · rw [if_pos (by omega), if_pos hi, held_byte h.holds i hi]
        · by_cases hk : i-q.length < len.toNat
          · have hd := hdone (i-q.length) hk (by rw [hleft]; exact Finset.notMem_empty _)
            rw [in_behind h.holds, show q.length+(i-q.length) = i by omega] at hd
            rw [if_pos (by omega), if_neg hi, if_pos hk, hd]
          · rw [if_neg (by omega), if_neg hi, if_neg hk]
      · -- a read under way has its bytes in front of the new ones
        cases hr : s.reader with
        | idle => trivial
        | copying buf' len' left' =>
          obtain ⟨hroom',hfit',hsub',hdone'⟩ := hr ▸ h.reader
          refine ⟨hroom',by rw [List.length_append]; omega,hsub',?_⟩
          intro k hk hkl
          rw [hdone' k hk hkl, List.getElem?_append_left (by omega)]
    · exact ⟨q,h⟩

/-- The finished read takes its bytes off the front. -/
theorem end_read_sound : ∃ q', Sound (endRead s) q' := by
  cases hr : s.reader with
  | idle => exact ⟨q,by simpa only [endRead, hr] using h⟩
  | copying buf len left =>
    simp only [endRead, hr]
    split_ifs with hleft
    · obtain ⟨hroom,hfit,-,hdone⟩ := hr ▸ h.reader
      have hused : (s.rb.in_-s.rb.out).toNat = q.length := h.holds.used
      have hlen := h.holds.length
      have hb := h.holds.bound
      obtain ⟨e,h31,he⟩ := h.holds.power
      have hshrink : (s.rb.in_-(s.rb.out+len)).toNat = q.length-len.toNat := by
        have h1 := s.rb.in_.toNat_lt
        have h2 := s.rb.out.toNat_lt
        rw [UInt32.toNat_sub] at hused ⊢
        rw [UInt32.toNat_add]
        omega
      have hfront : buf.take len.toNat = q.take len.toNat := by
        apply List.ext_getElem?
        intro i
        rw [List.getElem?_take, List.getElem?_take]
        split_ifs with hi
        · exact hdone i hi (by rw [hleft]; exact Finset.notMem_empty _)
        · rfl
      have hle : (q.drop len.toNat).length ≤ s.rb.size.toNat := by
        rw [List.length_drop]
        omega
      refine ⟨q.drop len.toNat,⟨⟨e,h31,he⟩,hlen,?_,hle,?_⟩,?_,trivial,?_,h.touched⟩
      · rw [List.length_drop]
        exact hshrink
      · rw [List.length_drop, contents_congr _ _ (s.rb.out.toNat+len.toNat) _
            (by rw [hlen]; exact add_mod_size s.rb.out len s.rb.size e he h31),
          contents_drop s.rb.buffer _ _ _ hfit (by omega), h.holds.data]
      · -- a write under way has its room behind what is held still
        cases hw : s.writer with
        | idle => trivial
        | copying buf' len' left' =>
          obtain ⟨hroom',hfit',hsub',hdone'⟩ := hw ▸ h.writer
          have hle' : (q.drop len.toNat).length+len'.toNat ≤ s.rb.size.toNat := by
            rw [List.length_drop]
            omega
          exact ⟨hroom',hle',hsub',hdone'⟩
      · rw [hfront, List.append_assoc, List.take_append_drop, h.accepted]
    · exact ⟨q,h⟩

theorem step_sound (a : Act) : ∃ q', Sound (step s a) q' := by
  cases a with
  | beginWrite buf len room => exact ⟨q,begin_write_sound h buf len room⟩
  | store k => exact ⟨q,store_sound h k⟩
  | endWrite => exact end_write_sound h
  | beginRead buf len room => exact ⟨q,begin_read_sound h buf len room⟩
  | load k => exact ⟨q,load_sound h k⟩
  | endRead => exact end_read_sound h

end Steps

/-- The steps of one call that nobody interrupts. -/
def writeSteps (buf : List UInt8) (len : UInt32) (room : len.toNat ≤ buf.length) (n : ℕ) :
    List Act :=
  .beginWrite buf len room::((List.range n).map .store++[.endWrite])

def readSteps (buf : List UInt8) (len : UInt32) (room : len.toNat ≤ buf.length) (n : ℕ) :
    List Act :=
  .beginRead buf len room::((List.range n).map .load++[.endRead])

theorem range_left {m n : ℕ} : (Finset.Ico m n).erase m = Finset.Ico (m+1) n := by
  ext k
  simp only [Finset.mem_erase, Finset.mem_Ico]
  omega

theorem run_stores {s : Shared} {buf : List UInt8} {len : UInt32}
    (hw : s.writer = .copying buf len (Finset.Ico 0 len.toNat)) (m : ℕ) (hm : m ≤ len.toNat) :
    run step s ((List.range m).map .store) =
      { s with
        rb := { s.rb with
          buffer := copied s.rb.buffer buf (place s.rb.in_ s.rb.size len) (fun k => k) m }
        writer := .copying buf len (Finset.Ico m len.toNat)
        touched := s.touched++(List.range m).map (place s.rb.in_ s.rb.size len) } := by
  induction m with
  | zero =>
    cases s
    subst hw
    simp [run, copied]
  | succ m ih =>
    rw [List.range_succ, List.map_append, run_append, ih (by omega)]
    have hmem : m ∈ Finset.Ico m len.toNat := Finset.mem_Ico.mpr ⟨le_refl m,by omega⟩
    simp only [List.map_cons, List.map_nil, run, step, store, if_pos hmem, range_left, copied_succ,
      List.map_append, List.append_assoc]
    rfl

theorem run_loads {s : Shared} {buf : List UInt8} {len : UInt32}
    (hr : s.reader = .copying buf len (Finset.Ico 0 len.toNat)) (m : ℕ) (hm : m ≤ len.toNat) :
    run step s ((List.range m).map .load) =
      { s with
        reader := .copying (copied buf s.rb.buffer (fun k => k) (place s.rb.out s.rb.size len) m)
          len (Finset.Ico m len.toNat)
        touched := s.touched++(List.range m).map (place s.rb.out s.rb.size len) } := by
  induction m with
  | zero =>
    cases s
    subst hr
    simp [run, copied]
  | succ m ih =>
    rw [List.range_succ, List.map_append, run_append, ih (by omega)]
    have hmem : m ∈ Finset.Ico m len.toNat := Finset.mem_Ico.mpr ⟨le_refl m,by omega⟩
    simp only [List.map_cons, List.map_nil, run, step, load, if_pos hmem, range_left, copied_succ,
      List.map_append, List.append_assoc]
    rfl

section Alone
variable {s : Shared} {q : List UInt8} (h : Sound s q) (buf : List UInt8) (len : UInt32)
  (room : len.toNat ≤ buf.length)
include h

/-- The steps of a write that runs by itself make up `rb_write`. -/
theorem write_alone (hw : s.writer = .idle) :
    ∃ rb n, rb_write s.rb buf len = some (rb,n) ∧
      run step s (writeSteps buf len room n.toNat) =
        { s with
          rb := rb
          accepted := s.accepted++buf.take n.toNat
          touched := s.touched++(List.range n.toNat).map (place s.rb.in_ s.rb.size n) } := by
  let n := minU32 len (s.rb.size-s.rb.in_+s.rb.out)
  let l := minU32 n (s.rb.size-(s.rb.in_ &&& (s.rb.size-1)))
  obtain ⟨e,-,he⟩ := h.holds.power
  have hused : (s.rb.in_-s.rb.out).toNat = q.length := h.holds.used
  have hfree := free_toNat s.rb.size s.rb.in_ s.rb.out (hused ▸ h.holds.bound)
  rw [hused] at hfree
  have hn : n.toNat = min len.toNat _ := minU32_toNat len (s.rb.size-s.rb.in_+s.rb.out)
  have hl : l.toNat = min n.toNat (s.rb.size.toNat-s.rb.in_.toNat%s.rb.size.toNat) :=
    first_block n s.rb.in_ s.rb.size e he
  have hm := mask_toNat s.rb.in_ s.rb.size e he
  have hlt := Nat.mod_lt s.rb.in_.toNat (size_pos h.holds)
  have hlen := h.holds.length
  have hsub := sub_toNat n l (by omega)
  -- the two blocks are the bytes below and from `l` on
  have hblocks : copied s.rb.buffer buf (place s.rb.in_ s.rb.size n) (fun k => k) n.toNat =
      copied (copied s.rb.buffer buf (fun k => (s.rb.in_ &&& (s.rb.size-1)).toNat+k)
        (fun k => 0+k) l.toNat) buf (fun k => 0+k) (fun k => l.toNat+k) (n-l).toNat := by
    rw [show n.toNat = l.toNat+(n-l).toNat by omega, copied_add]
    congr 1
    · apply copied_congr
      · intro k hk
        exact if_pos hk
      · intro k _
        omega
    · funext k
      simp only [place]
      rw [if_neg (show ¬ l.toNat+k < l.toNat by omega)]
      show l.toNat+k-l.toNat = 0+k
      omega
  refine ⟨{ s.rb with
    buffer := copied s.rb.buffer buf (place s.rb.in_ s.rb.size n) (fun k => k) n.toNat
    in_ := s.rb.in_+n },n,?_,?_⟩
  · simp only [rb_write]
    rw [show minU32 len (s.rb.size-s.rb.in_+s.rb.out) = n from rfl,
      show minU32 n (s.rb.size-(s.rb.in_ &&& (s.rb.size-1))) = l from rfl,
      memcpy_copied _ _ _ _ _ (by omega) (by omega), Option.bind_some,
      memcpy_copied _ _ _ _ _ (by rw [length_copied]; omega) (by omega), ← hblocks, Option.map_some]
  · have hb : beginWrite buf len s =
        { s with writer := .copying buf n (Finset.Ico 0 n.toNat) } := by
      simp only [beginWrite, hw, Finset.range_eq_Ico]
      rfl
    rw [writeSteps, run, step, hb, run_append, run_stores rfl n.toNat (le_refl _)]
    simp only [run, step, endWrite, Finset.Ico_self, if_true, ← hw]

/-- The steps of a read that runs by itself make up `rb_read`. -/
theorem read_alone (hr : s.reader = .idle) :
    ∃ rb buf' n, rb_read s.rb buf len = some (rb,buf',n) ∧
      run step s (readSteps buf len room n.toNat) =
        { s with
          rb := rb
          delivered := s.delivered++buf'.take n.toNat
          touched := s.touched++(List.range n.toNat).map (place s.rb.out s.rb.size n) } := by
  let n := minU32 len (s.rb.in_-s.rb.out)
  let l := minU32 n (s.rb.size-(s.rb.out &&& (s.rb.size-1)))
  obtain ⟨e,-,he⟩ := h.holds.power
  have hused : (s.rb.in_-s.rb.out).toNat = q.length := h.holds.used
  have hn : n.toNat = min len.toNat _ := minU32_toNat len (s.rb.in_-s.rb.out)
  have hl : l.toNat = min n.toNat (s.rb.size.toNat-s.rb.out.toNat%s.rb.size.toNat) :=
    first_block n s.rb.out s.rb.size e he
  have hm := mask_toNat s.rb.out s.rb.size e he
  have hlt := Nat.mod_lt s.rb.out.toNat (size_pos h.holds)
  have hlen := h.holds.length
  have hb := h.holds.bound
  have hsub := sub_toNat n l (by omega)
  have hblocks : copied buf s.rb.buffer (fun k => k) (place s.rb.out s.rb.size n) n.toNat =
      copied (copied buf s.rb.buffer (fun k => 0+k)
        (fun k => (s.rb.out &&& (s.rb.size-1)).toNat+k) l.toNat) s.rb.buffer
        (fun k => l.toNat+k) (fun k => 0+k) (n-l).toNat := by
    rw [show n.toNat = l.toNat+(n-l).toNat by omega, copied_add]
    congr 1
    · apply copied_congr
      · intro k _
        omega
      · intro k hk
        exact if_pos hk
    · funext k
      simp only [place]
      rw [if_neg (show ¬ l.toNat+k < l.toNat by omega)]
      show l.toNat+k-l.toNat = 0+k
      omega
  refine ⟨{ s.rb with out := s.rb.out+n },
    copied buf s.rb.buffer (fun k => k) (place s.rb.out s.rb.size n) n.toNat,n,?_,?_⟩
  · simp only [rb_read]
    rw [show minU32 len (s.rb.in_-s.rb.out) = n from rfl,
      show minU32 n (s.rb.size-(s.rb.out &&& (s.rb.size-1))) = l from rfl,
      memcpy_copied _ _ _ _ _ (by omega) (by omega), Option.bind_some,
      memcpy_copied _ _ _ _ _ (by rw [length_copied]; omega) (by omega), ← hblocks, Option.map_some]
  · have hb : beginRead buf len s =
        { s with reader := .copying buf n (Finset.Ico 0 n.toNat) } := by
      simp only [beginRead, hr, Finset.range_eq_Ico]
      rfl
    rw [readSteps, run, step, hb, run_append, run_loads rfl n.toNat (le_refl _)]
    simp only [run, step, endRead, Finset.Ico_self, if_true, ← hr]

end Alone

/-- The bytes a call reserves when it begins. -/
def Side.reserved : Side → ℕ
  | .idle => 0
  | .copying _ len _ => len.toNat

/-- The bytes accepted are those delivered and then those held. Nothing
outside the buffer is touched, and a call that begins reserves as many bytes
as it would get by itself. -/
def Fifo (s : Shared) : Prop :=
  ∃ q, s.accepted = s.delivered++q ∧ Holds s.rb q ∧
    (∀ p ∈ s.touched, p < s.rb.buffer.length) ∧
    ∀ (buf : List UInt8) (len : UInt32),
      (s.writer = .idle → (beginWrite buf len s).writer.reserved =
        min len.toNat (s.rb.size.toNat-q.length)) ∧
      (s.reader = .idle → (beginRead buf len s).reader.reserved = min len.toNat q.length)

theorem sound_fifo {s : Shared} {q : List UInt8} (h : Sound s q) : Fifo s := by
  have hused : (s.rb.in_-s.rb.out).toNat = q.length := h.holds.used
  refine ⟨q,h.accepted,h.holds,?_,fun buf len => ⟨fun hw => ?_,fun hr => ?_⟩⟩
  · rw [h.holds.length]
    exact h.touched
  · have hfree := free_toNat s.rb.size s.rb.in_ s.rb.out (hused ▸ h.holds.bound)
    simp only [beginWrite, hw, Side.reserved]
    rw [minU32_toNat, hfree, hused]
  · simp only [beginRead, hr, Side.reserved]
    rw [minU32_toNat, hused]

/-- However the accesses of one writer and one reader follow one another,
from a ring of any power-of-two size and any equal counters on, no byte is
lost, repeated or changed on the way. -/
theorem interleaved_fifo (size idx : UInt32) (buffer : List UInt8) (k : ℕ) (h31 : k ≤ 31)
    (hk : size.toNat = 2^k) (hb : buffer.length = size.toNat) (as : List Act) :
    Always step Fifo (begun ⟨buffer,idx,idx,size⟩) as := by
  have hstart : Sound (begun ⟨buffer,idx,idx,size⟩) [] :=
    ⟨empty_holds size idx buffer k h31 hk hb,trivial,trivial,rfl,
      fun _ hp => absurd hp List.not_mem_nil⟩
  have hrun := always_of_step (fun s => ∃ q, Sound s q)
    (fun s a hs _ => hs.elim fun _ hq => step_sound hq a) _ as ⟨[],hstart⟩ (along_true step _ as)
  exact always_mono (fun s hs => hs.elim fun _ hq => sound_fifo hq) hrun

def exampleActs : List Act :=
  [.beginWrite [1,2,3] 3 (by decide),.store 0,.store 1,.store 2,.endWrite,
    .beginWrite [4,5] 2 (by decide),.store 1,.beginRead [0,0,0,0] 4 (by decide),.load 2,.store 0,
    .load 0,.endWrite,.load 1,.endRead]

/-- A write of two bytes into a ring of four begins while three are held, and
gets room for one; the read that began meanwhile does not see its byte. -/
theorem interleaved_fifo_wrap :
    Always step Fifo (begun ⟨[0,0,0,0],0xffffffff,0xffffffff,4⟩) exampleActs ∧
    (run step (begun ⟨[0,0,0,0],0xffffffff,0xffffffff,4⟩) exampleActs).accepted = [1,2,3,4] ∧
    (run step (begun ⟨[0,0,0,0],0xffffffff,0xffffffff,4⟩) exampleActs).delivered = [1,2,3] :=
  ⟨interleaved_fifo 4 0xffffffff [0,0,0,0] 2 (by decide) (by decide) (by decide) exampleActs,
    by decide,by decide⟩

end BaseDrivers.RingInterleaved
