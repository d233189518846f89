import Mathlib.Data.Nat.Bitwise
import BaseDrivers.CircularBuffer

/-!
# The ring buffer is a bounded queue of bytes

The two indices are free-running 32-bit counters. Their difference is the
number of bytes held, also after either of them has wrapped, and the size
divides the range of the counters. The queue below is the purpose of the
structure; the counters, the mask and the split copies refine it, and no
copy ever leaves its buffer.
-/

set_option autoImplicit false

namespace BaseDrivers.RingBuffer
open BaseDrivers.CircularBuffer

structure rb_t where
  buffer : List UInt8
  in_ : UInt32
  out : UInt32
  size : UInt32
  deriving DecidableEq, Repr

/-- The source's `min`. -/
def minU32 (a b : UInt32) : UInt32 := if a < b then a else b

def rb_write (rb : rb_t) (buf : List UInt8) (len : UInt32) : Option (rb_t × UInt32) :=
  let len := minU32 len (rb.size-rb.in_+rb.out)
  let l := minU32 len (rb.size-(rb.in_ &&& (rb.size-1)))
  let copied := (memcpy rb.buffer (rb.in_ &&& (rb.size-1)).toNat buf 0 l.toNat).bind
    fun b => memcpy b 0 buf l.toNat (len-l).toNat
  copied.map fun b => ({ rb with buffer := b, in_ := rb.in_+len },len)

/-- The second component is the destination after the call. -/
def rb_read (rb : rb_t) (buf : List UInt8) (len : UInt32) :
    Option (rb_t × List UInt8 × UInt32) :=
  let len := minU32 len (rb.in_-rb.out)
  let l := minU32 len (rb.size-(rb.out &&& (rb.size-1)))
  let copied := (memcpy buf 0 rb.buffer (rb.out &&& (rb.size-1)).toNat l.toNat).bind
    fun b => memcpy b l.toNat rb.buffer 0 (len-l).toNat
  copied.map fun b => ({ rb with out := rb.out+len },b,len)

def rb_get_valid_length (rb : rb_t) : UInt32 := rb.in_-rb.out

/-- A call as its caller makes it: the buffer holds at least `len` bytes. -/
inductive Call where
  | write (buf : List UInt8) (len : UInt32) (room : len.toNat ≤ buf.length)
  | read (buf : List UInt8) (len : UInt32) (room : len.toNat ≤ buf.length)

/-- What the caller sees: the returned count, its buffer after the call, and
the length it could ask for next. -/
structure Answer where
  ret : ℕ
  buf : List UInt8
  valid : ℕ
  deriving DecidableEq, Repr

def call (rb : rb_t) : Call → Option (rb_t × Answer)
  | .write buf len _ =>
    (rb_write rb buf len).map fun r => (r.1,⟨r.2.toNat,buf,(rb_get_valid_length r.1).toNat⟩)
  | .read buf len _ =>
    (rb_read rb buf len).map fun r =>
      (r.1,⟨r.2.2.toNat,r.2.1,(rb_get_valid_length r.1).toNat⟩)

def calls : rb_t → List Call → Option (rb_t × List Answer)
  | rb, [] => some (rb,[])
  | rb, c::cs =>
    (call rb c).bind fun r => (calls r.1 cs).map fun rs => (rs.1,r.2::rs.2)

/-- The byte queue of capacity `cap`. A write takes what fits and a read
hands out the oldest bytes. -/
def queueCall (cap : ℕ) (q : List UInt8) : Call → List UInt8 × Answer
  | .write buf len _ =>
    let n := min len.toNat (cap-q.length)
    (q++buf.take n,⟨n,buf,q.length+n⟩)
  | .read buf len _ =>
    let n := min len.toNat q.length
    (q.drop n,⟨n,q.take n++buf.drop n,q.length-n⟩)

def queueCalls (cap : ℕ) : List UInt8 → List Call → List UInt8 × List Answer
  | q, [] => (q,[])
  | q, c::cs =>
    let r := queueCall cap q c
    let rs := queueCalls cap r.1 cs
    (rs.1,r.2::rs.2)

/-- The ring holds exactly the queue `q`. -/
structure Holds (rb : rb_t) (q : List UInt8) : Prop where
  power : ∃ k ≤ 31, rb.size.toNat = 2^k
  length : rb.buffer.length = rb.size.toNat
  used : (rb_get_valid_length rb).toNat = q.length
  bound : q.length ≤ rb.size.toNat
  data : contents rb.buffer rb.out.toNat q.length = q

theorem minU32_toNat (a b : UInt32) : (minU32 a b).toNat = min a.toNat b.toNat := by
  simp only [minU32, UInt32.lt_iff_toNat_lt]
  split_ifs <;> omega

theorem sub_toNat (a b : UInt32) (h : b.toNat ≤ a.toNat) : (a-b).toNat = a.toNat-b.toNat := by
  have ha := a.toNat_lt
  rw [UInt32.toNat_sub]
  omega

theorem free_toNat (size i o : UInt32) (h : (i-o).toNat ≤ size.toNat) :
    (size-i+o).toNat = size.toNat-(i-o).toNat := by
  have hs := size.toNat_lt
  have hi := i.toNat_lt
  have ho := o.toNat_lt
  rw [UInt32.toNat_sub] at h ⊢
  rw [UInt32.toNat_add, UInt32.toNat_sub]
  omega

theorem mask_toNat (i size : UInt32) (k : ℕ) (hk : size.toNat = 2^k) :
    (i &&& (size-1)).toNat = i.toNat%size.toNat := by
  have h1 : (1 : UInt32).toNat ≤ size.toNat := by
    rw [hk]
    exact Nat.one_le_two_pow
  rw [UInt32.toNat_and, sub_toNat size 1 h1, hk]
  exact Nat.and_two_pow_sub_one_eq_mod _ _

/-- The size divides the range of the counters, so a wrapped index still
points at the right place. -/
theorem add_mod_size (i n size : UInt32) (k : ℕ) (hk : size.toNat = 2^k) (h31 : k ≤ 31) :
    (i+n).toNat%size.toNat = (i.toNat+n.toNat)%size.toNat := by
  rw [UInt32.toNat_add, Nat.mod_mod_of_dvd]
  rw [hk]
  exact Nat.pow_dvd_pow 2 (by omega)

theorem sub_add_cancel_mod (i o size : UInt32) (k : ℕ) (hk : size.toNat = 2^k) (h31 : k ≤ 31) :
    (o.toNat+(i-o).toNat)%size.toNat = i.toNat%size.toNat := by
  rw [← add_mod_size o (i-o) size k hk h31, UInt32.add_comm, UInt32.sub_add_cancel]

theorem size_pos {rb : rb_t} {q : List UInt8} (h : Holds rb q) : 0 < rb.size.toNat := by
  obtain ⟨k,_,hk⟩ := h.power
  rw [hk]
  exact Nat.two_pow_pos k

/-- The length of the first copy: what is left up to the physical end. -/
theorem first_block (n i size : UInt32) (k : ℕ) (hk : size.toNat = 2^k) :
    (minU32 n (size-(i &&& (size-1)))).toNat = min n.toNat (size.toNat-i.toNat%size.toNat) := by
  have hm := mask_toNat i size k hk
  have hlt : i.toNat%size.toNat < size.toNat := Nat.mod_lt _ (by rw [hk]; exact Nat.two_pow_pos k)
  rw [minU32_toNat, sub_toNat _ _ (by omega), hm]

theorem write_holds (rb : rb_t) (q buf : List UInt8) (len : UInt32)
    (room : len.toNat ≤ buf.length) (h : Holds rb q) :
    ∃ rb', call rb (.write buf len room) =
        some (rb',(queueCall rb.size.toNat q (.write buf len room)).2) ∧
      rb'.size = rb.size ∧ Holds rb' (queueCall rb.size.toNat q (.write buf len room)).1 := by
  obtain ⟨k,h31,hk⟩ := h.power
  have hused : (rb.in_-rb.out).toNat = q.length := h.used
  have hbound := h.bound
  have hlen := h.length
  have hpos := size_pos h
  let n := minU32 len (rb.size-rb.in_+rb.out)
  let l := minU32 n (rb.size-(rb.in_ &&& (rb.size-1)))
  have hn : n.toNat = min len.toNat (rb.size.toNat-q.length) := by
    rw [minU32_toNat, free_toNat _ _ _ (by omega), hused]
  have hl : l.toNat = min n.toNat (rb.size.toNat-rb.in_.toNat%rb.size.toNat) :=
    first_block n rb.in_ rb.size k hk
  have hpos' := sub_add_cancel_mod rb.in_ rb.out rb.size k hk h31
  rw [hused] at hpos'
  obtain ⟨b,hb,hblen,hdata⟩ := write_blocks rb.buffer buf rb.out.toNat q.length n.toNat l.toNat
    (by omega) (by omega) (by rw [hlen, hpos', hl]) (by omega)
  rw [hlen, hpos', ← mask_toNat rb.in_ rb.size k hk, ← sub_toNat n l (by omega)] at hb
  have hfit : q.length+n.toNat ≤ rb.size.toNat := by omega
  have hgrow : (rb.in_+n-rb.out).toNat = q.length+n.toNat := by
    have hs := rb.size.toNat_lt
    have h1 := rb.in_.toNat_lt
    have h2 := rb.out.toNat_lt
    rw [UInt32.toNat_sub] at hused ⊢
    rw [UInt32.toNat_add]
    omega
  have hw : rb_write rb buf len = some ({ rb with buffer := b, in_ := rb.in_+n },n) := by
    simp only [rb_write]
    rw [show minU32 len (rb.size-rb.in_+rb.out) = n from rfl,
      show minU32 n (rb.size-(rb.in_ &&& (rb.size-1))) = l from rfl, hb, Option.map_some]
  refine ⟨{ rb with buffer := b, in_ := rb.in_+n },?_,rfl,?_⟩
  · simp only [call, hw, Option.map_some, queueCall, rb_get_valid_length, hgrow, hn]
  · have htake : (q++buf.take n.toNat).length = q.length+n.toNat := by simp; omega
    simp only [queueCall, ← hn]
    refine ⟨⟨k,h31,hk⟩,by rw [hblen, hlen],by rw [htake]; exact hgrow,by rw [htake]; exact hfit,?_⟩
    rw [htake, hdata, h.data]

theorem read_holds (rb : rb_t) (q buf : List UInt8) (len : UInt32)
    (room : len.toNat ≤ buf.length) (h : Holds rb q) :
    ∃ rb', call rb (.read buf len room) =
        some (rb',(queueCall rb.size.toNat q (.read buf len room)).2) ∧
      rb'.size = rb.size ∧ Holds rb' (queueCall rb.size.toNat q (.read buf len room)).1 := by
  obtain ⟨k,h31,hk⟩ := h.power
  have hused : (rb.in_-rb.out).toNat = q.length := h.used
  have hbound := h.bound
  have hlen := h.length
  have hpos := size_pos h
  let n := minU32 len (rb.in_-rb.out)
  let l := minU32 n (rb.size-(rb.out &&& (rb.size-1)))
  have hn : n.toNat = min len.toNat q.length := by rw [minU32_toNat, hused]
  have hl : l.toNat = min n.toNat (rb.size.toNat-rb.out.toNat%rb.size.toNat) :=
    first_block n rb.out rb.size k hk
  have hb := read_blocks rb.buffer buf rb.out.toNat n.toNat l.toNat (by omega) (by omega)
    (by rw [hlen, hl]) (by omega)
  rw [hlen, ← mask_toNat rb.out rb.size k hk, ← sub_toNat n l (by omega)] at hb
  have hfront : contents rb.buffer rb.out.toNat n.toNat = q.take n.toNat := by
    rw [contents_take _ _ n.toNat q.length (by omega), h.data]
  have hbuf : overwrite buf 0 (contents rb.buffer rb.out.toNat n.toNat) =
      q.take n.toNat++buf.drop n.toNat := by
    rw [hfront]
    simp [overwrite, List.length_take, Nat.min_eq_left (show n.toNat ≤ q.length by omega)]
  have hshrink : (rb.in_-(rb.out+n)).toNat = q.length-n.toNat := by
    have h1 := rb.in_.toNat_lt
    have h2 := rb.out.toNat_lt
    rw [UInt32.toNat_sub] at hused ⊢
    rw [UInt32.toNat_add]
    omega
  have hr : rb_read rb buf len =
      some ({ rb with out := rb.out+n },q.take n.toNat++buf.drop n.toNat,n) := by
    simp only [rb_read]
    rw [show minU32 len (rb.in_-rb.out) = n from rfl,
      show minU32 n (rb.size-(rb.out &&& (rb.size-1))) = l from rfl, hb, Option.map_some, hbuf]
  refine ⟨{ rb with out := rb.out+n },?_,rfl,?_⟩
  · simp only [call, hr, Option.map_some, queueCall, rb_get_valid_length, hshrink, hn]
  · simp only [queueCall, ← hn]
    refine ⟨⟨k,h31,hk⟩,hlen,?_,?_,?_⟩
    · simpa [rb_get_valid_length] using hshrink
    · simp only [List.length_drop]; omega
    · rw [List.length_drop, contents_congr _ _ (rb.out.toNat+n.toNat) _
          (by rw [hlen]; exact add_mod_size rb.out n rb.size k hk h31),
        contents_drop rb.buffer _ _ _ (by omega) (by omega), h.data]

/-- One call on a ring that holds `q` answers as the queue does and leaves a
ring that holds the queue's next contents. -/
theorem call_holds (rb : rb_t) (q : List UInt8) (c : Call) (h : Holds rb q) :
    ∃ rb', call rb c = some (rb',(queueCall rb.size.toNat q c).2) ∧
      rb'.size = rb.size ∧ Holds rb' (queueCall rb.size.toNat q c).1 := by
  cases c with
  | write buf len room => exact write_holds rb q buf len room h
  | read buf len room => exact read_holds rb q buf len room h

theorem calls_hold (rb : rb_t) (q : List UInt8) (cs : List Call) (h : Holds rb q) :
    ∃ rb', calls rb cs = some (rb',(queueCalls rb.size.toNat q cs).2) ∧
      rb'.size = rb.size ∧ Holds rb' (queueCalls rb.size.toNat q cs).1 := by
  induction cs generalizing rb q with
  | nil => exact ⟨rb,rfl,rfl,h⟩
  | cons c cs ih =>
    obtain ⟨rb1,hc,hs,h1⟩ := call_holds rb q c h
    obtain ⟨rb2,hcs,hs2,h2⟩ := ih rb1 _ h1
    rw [hs] at hcs hs2 h2
    refine ⟨rb2,?_,hs2,h2⟩
    simp [calls, hc, hcs, queueCalls]

theorem empty_holds (size idx : UInt32) (buffer : List UInt8) (k : ℕ) (h31 : k ≤ 31)
    (hk : size.toNat = 2^k) (hb : buffer.length = size.toNat) :
    Holds ⟨buffer,idx,idx,size⟩ [] :=
  ⟨⟨k,h31,hk⟩,hb,by simp [rb_get_valid_length],by simp,by simp [contents]⟩

/-- Any sequence of calls on a ring of any power-of-two size and any equal
starting indices is answered as the bounded queue answers it. Every copy is
defined, so it lies inside its buffers. -/
theorem ring_refines_queue (size idx : UInt32) (buffer : List UInt8) (k : ℕ) (h31 : k ≤ 31)
    (hk : size.toNat = 2^k) (hb : buffer.length = size.toNat) (cs : List Call) :
    ∃ rb, calls ⟨buffer,idx,idx,size⟩ cs = some (rb,(queueCalls size.toNat [] cs).2) ∧
      Holds rb (queueCalls size.toNat [] cs).1 := by
  obtain ⟨rb,hc,_,hh⟩ := calls_hold _ [] cs (empty_holds size idx buffer k h31 hk hb)
  exact ⟨rb,hc,hh⟩

def exampleCalls : List Call :=
  [.write [1,2,3,4,5] 5 (by decide),.read [0,0,0] 3 (by decide),
    .write [6,7,8,9,10,11,12] 7 (by decide)]

/-- Both counters and the position wrap here, and the last write is cut short. -/
theorem ring_refines_queue_wrap :
    (∃ rb, calls ⟨List.replicate 8 0,0xfffffffe,0xfffffffe,8⟩ exampleCalls =
        some (rb,(queueCalls (8 : UInt32).toNat [] exampleCalls).2) ∧
      Holds rb (queueCalls (8 : UInt32).toNat [] exampleCalls).1) ∧
    (queueCalls (8 : UInt32).toNat [] exampleCalls).1 = [4,5,6,7,8,9,10,11] :=
  ⟨ring_refines_queue 8 0xfffffffe (List.replicate 8 0) 3 (by decide) (by decide) (by decide)
    exampleCalls,by decide⟩

end BaseDrivers.RingBuffer
