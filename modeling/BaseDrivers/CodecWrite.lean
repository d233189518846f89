import Mathlib.Data.Int.Init
import Mathlib.Logic.Function.Basic
import Mathlib.Tactic.SplitIfs
import BaseDrivers.ShiftRegister

/-!
# Register writes to the codec

A register number of 7 bits and a value of 9 are sent on three pins: the bits
one by one on the data pin, each with a pulse of the clock, and at the end a
pulse of the latch. The codec sees the levels only as they change.
-/

set_option autoImplicit false

namespace BaseDrivers.CodecWrite
open BaseDrivers.ShiftRegister

/-- The latch, the data and the clock of the codec. -/
inductive Pin where
  | S3C2410_GPB2
  | S3C2410_GPB3
  | S3C2410_GPB4
  deriving DecidableEq, Repr

/-- A call of `s3c2410_gpio_setpin`. -/
structure Setpin where
  pin : Pin
  value : Bool
  deriving DecidableEq, Repr

/-- The turns of the loop that are left, and the bits that are left. -/
def write_bits : ℕ → BitVec 16 → List Setpin
  | 0, _ => []
  | n+1, val =>
    (if val &&& (1#16 <<< 15) ≠ 0 then
      [⟨.S3C2410_GPB4,false⟩,⟨.S3C2410_GPB3,true⟩,⟨.S3C2410_GPB4,true⟩]
    else
      [⟨.S3C2410_GPB4,false⟩,⟨.S3C2410_GPB3,false⟩,⟨.S3C2410_GPB4,true⟩])++
    write_bits n (val <<< 1)

/-- `(reg << 9) | (data & 0x1ff)`, stored in 16 bits. -/
def word (reg : BitVec 8) (data : BitVec 32) : BitVec 16 :=
  ((reg.setWidth 32 <<< 9) ||| (data &&& 0x1ff)).setWidth 16

def wm8976_write_reg (reg : BitVec 8) (data : BitVec 32) : List Setpin :=
  [⟨.S3C2410_GPB2,true⟩,⟨.S3C2410_GPB3,true⟩,⟨.S3C2410_GPB4,true⟩]++
  write_bits 16 (word reg data)++
  [⟨.S3C2410_GPB2,false⟩,⟨.S3C2410_GPB2,true⟩,⟨.S3C2410_GPB3,true⟩,⟨.S3C2410_GPB4,true⟩]

/-- The receiver: the levels it sees, the last 16 bits, whether the latch has
fallen, and the words latched. -/
structure Codec where
  level : Pin → Bool
  bits : BitVec 16
  fallen : Bool
  words : List (BitVec 16)

/-- An edge of the clock shifts the data in, and an edge of the latch is the
beginning or the end of a pulse. -/
def edge (c : Codec) (p : Setpin) : Codec :=
  match p.pin, c.level p.pin, p.value with
  | .S3C2410_GPB4, false, true => { c with bits := c.bits.shiftConcat (c.level .S3C2410_GPB3) }
  | .S3C2410_GPB2, true, false => { c with fallen := true }
  | .S3C2410_GPB2, false, true =>
    if c.fallen then { c with fallen := false, words := c.words++[c.bits] } else c
  | _, _, _ => c

def see (c : Codec) (p : Setpin) : Codec :=
  { edge c p with level := Function.update c.level p.pin p.value }

def receive (c : Codec) (ps : List Setpin) : Codec := ps.foldl see c

theorem receive_append (c : Codec) (ps qs : List Setpin) :
    receive c (ps++qs) = receive (receive c ps) qs := List.foldl_append

/-- Between two receivers only the bits shifted in and the levels of clock
and data differ. -/
structure Shifted (c : Codec) (bs : List Bool) (c' : Codec) : Prop where
  bits : c'.bits = shifted c.bits bs
  fallen : c'.fallen = c.fallen
  words : c'.words = c.words
  latch : c'.level .S3C2410_GPB2 = c.level .S3C2410_GPB2

/-- One turn of the loop, whatever the levels were. -/
theorem turn_shifts (c : Codec) (b : Bool) : Shifted c [b]
    (receive c [⟨.S3C2410_GPB4,false⟩,⟨.S3C2410_GPB3,b⟩,⟨.S3C2410_GPB4,true⟩]) := by
  constructor <;> simp [receive, see, edge, shifted]

theorem highest_bit (val : BitVec 16) : val &&& (1#16 <<< 15) ≠ 0 ↔ val.msb = true := by
  rw [← BitVec.twoPow_eq, BitVec.and_twoPow, BitVec.msb_eq_getLsbD_last]
  split_ifs with h
  · exact iff_of_true (by decide) h
  · exact iff_of_false (fun hne => hne rfl) h

theorem write_bits_shift (n : ℕ) (val : BitVec 16) (c : Codec) :
    Shifted c (sent n val) (receive c (write_bits n val)) := by
  induction n generalizing val c with
  | zero => exact ⟨rfl,rfl,rfl,rfl⟩
  | succ n ih =>
    have hturn : write_bits (n+1) val =
        [⟨.S3C2410_GPB4,false⟩,⟨.S3C2410_GPB3,val.msb⟩,⟨.S3C2410_GPB4,true⟩]++
        write_bits n (val <<< 1) := by
      rw [write_bits]
      cases hb : val.msb with
      | false => rw [if_neg (by rw [highest_bit, hb]; decide)]
      | true => rw [if_pos ((highest_bit val).mpr hb)]
    obtain ⟨hbits,hfallen,hwords,hlatch⟩ := turn_shifts c val.msb
    obtain ⟨hbits',hfallen',hwords',hlatch'⟩ := ih (val <<< 1)
      (receive c [⟨.S3C2410_GPB4,false⟩,⟨.S3C2410_GPB3,val.msb⟩,⟨.S3C2410_GPB4,true⟩])
    rw [hturn, receive_append]
    constructor
    · rw [hbits', hbits]
      rfl
    · rw [hfallen', hfallen]
    · rw [hwords', hwords]
    · rw [hlatch', hlatch]

/-- All pins are high before the first bit, and no pulse of the latch has
begun. -/
theorem pins_high (c : Codec) (hc : c.fallen = false) :
    ∃ c', receive c [⟨.S3C2410_GPB2,true⟩,⟨.S3C2410_GPB3,true⟩,⟨.S3C2410_GPB4,true⟩] = c' ∧
      c'.fallen = false ∧ c'.words = c.words ∧ c'.level .S3C2410_GPB2 = true := by
  refine ⟨_,rfl,?_,?_,by simp [receive, see]⟩
  · cases hlatch : c.level .S3C2410_GPB2 <;> cases hclock : c.level .S3C2410_GPB4 <;>
      simp [receive, see, edge, hc, hlatch, hclock]
  · cases hlatch : c.level .S3C2410_GPB2 <;> cases hclock : c.level .S3C2410_GPB4 <;>
      simp [receive, see, edge, hc, hlatch, hclock]

/-- The pulse at the end latches the bits and begins no other. -/
theorem pulse_latches (c : Codec) (hc : c.level .S3C2410_GPB2 = true) :
    ∃ c', receive c [⟨.S3C2410_GPB2,false⟩,⟨.S3C2410_GPB2,true⟩,⟨.S3C2410_GPB3,true⟩,
        ⟨.S3C2410_GPB4,true⟩] = c' ∧ c'.fallen = false ∧ c'.words = c.words++[c.bits] := by
  refine ⟨_,rfl,?_,?_⟩
  · cases hclock : c.level .S3C2410_GPB4 <;> simp [receive, see, edge, hc, hclock]
  · cases hclock : c.level .S3C2410_GPB4 <;> simp [receive, see, edge, hc, hclock]

theorem write_received (reg : BitVec 8) (data : BitVec 32) (c : Codec) (hc : c.fallen = false) :
    (receive c (wm8976_write_reg reg data)).fallen = false ∧
    (receive c (wm8976_write_reg reg data)).words = c.words++[word reg data] := by
  obtain ⟨c1,h1,hfallen1,hwords1,hlatch1⟩ := pins_high c hc
  have h2 := write_bits_shift 16 (word reg data) c1
  obtain ⟨c3,h3,hfallen3,hwords3⟩ := pulse_latches _ (h2.latch.trans hlatch1)
  rw [wm8976_write_reg, receive_append, receive_append, h1, h3, hwords3, h2.words, hwords1,
    h2.bits, shifted_word]
  exact ⟨hfallen3,rfl⟩

theorem word_value (reg : BitVec 8) (data : BitVec 32) (hreg : reg.toNat < 128) :
    (word reg data).toNat = reg.toNat*512+data.toNat % 512 := by
  have hmask : (data &&& 0x1ff).toNat = data.toNat % 512 := by
    rw [BitVec.toNat_and]
    exact Nat.and_two_pow_sub_one_eq_mod data.toNat 9
  have hshift : (reg.setWidth 32 <<< 9).toNat = reg.toNat <<< 9 := by
    rw [BitVec.toNat_shiftLeft, BitVec.toNat_setWidth, Nat.mod_eq_of_lt (by omega),
      Nat.shiftLeft_eq, Nat.mod_eq_of_lt (by omega)]
    exact (Nat.shiftLeft_eq ..).symm
  have hlow : data.toNat % 512 < 2^9 := Nat.mod_lt _ (by decide)
  rw [word, BitVec.toNat_setWidth, BitVec.toNat_or, hmask, hshift,
    ← Nat.shiftLeft_add_eq_or_of_lt hlow, Nat.shiftLeft_eq, Nat.mod_eq_of_lt (by omega)]

/-- Every call puts its word at the end of what the receiver has. -/
theorem writes_received (calls : List (BitVec 8 × BitVec 32)) (c : Codec)
    (hc : c.fallen = false) :
    (receive c (calls.flatMap fun call => wm8976_write_reg call.1 call.2)).words =
      c.words++calls.map fun call => word call.1 call.2 := by
  induction calls generalizing c with
  | nil => exact (List.append_nil _).symm
  | cons call calls ih =>
    obtain ⟨hfallen,hwords⟩ := write_received call.1 call.2 c hc
    rw [List.flatMap_cons, receive_append, ih _ hfallen, hwords, List.append_assoc]
    rfl

/-- A receiver that begins to look at the pins, with any levels and with
anything in its register. -/
def watching (level : Pin → Bool) (bits : BitVec 16) : Codec := ⟨level,bits,false,[]⟩

/-- The receiver has the words of the calls, in their order. -/
theorem words_arrive (calls : List (BitVec 8 × BitVec 32))
    (hreg : ∀ call ∈ calls, call.1.toNat < 128) (level : Pin → Bool) (bits : BitVec 16) :
    (receive (watching level bits)
      (calls.flatMap fun call => wm8976_write_reg call.1 call.2)).words.map BitVec.toNat =
      calls.map fun call => call.1.toNat*512+call.2.toNat % 512 := by
  rw [writes_received calls _ rfl, watching, List.nil_append, List.map_map]
  apply List.map_congr_left
  intro call hcall
  exact word_value call.1 call.2 (hreg call hcall)

theorem words_arrive_two :
    (receive (watching (fun _ => false) 0xffff) ([(0x7f,0x3ff),(5,0x123)].flatMap fun call =>
      wm8976_write_reg call.1 call.2)).words.map BitVec.toNat = [0xffff,0xb23] :=
  words_arrive [(0x7f,0x3ff),(5,0x123)] (by simp) _ _

end BaseDrivers.CodecWrite
