import Mathlib.Tactic.SplitIfs
import BaseDrivers.Execution
import BaseDrivers.DemoCommon

/-!
# The watermark interrupt and the FIFO frames

The FIFO holds one slot of three words for every enabled sensor and frame.
The parser keeps an index, a remaining length and the samples published so
far. What it still has to publish is a function of the frames under the
index; a turn of the loop takes one frame off. Samples are compared as raw
words, before they are scaled.
-/

set_option autoImplicit false

namespace BaseDrivers.DemoFifo
open BaseDrivers.Execution BaseDrivers.DemoCommon

/-- `(int16_t)(lo | hi << 8)` -/
def word (lo hi : UInt8) : BitVec 16 := hi.toBitVec++lo.toBitVec

structure Sample where
  suid : Suid
  x : BitVec 16
  y : BitVec 16
  z : BitVec 16
  deriving DecidableEq, Repr

/-- The locals of the loop, with the indices of `buf` read so far. -/
structure Scan where
  i : ℕ
  fifo_len : ℕ
  events : List Sample
  reads : List ℕ
  deriving DecidableEq, Repr

abbrev Buf := ℕ → UInt8

/-- `buf[i] == lo && buf[i + 1] == hi` -/
def matches_ (buf : Buf) (i : ℕ) (lo hi : UInt8) : Bool := buf i == lo && buf (i+1) == hi

def Scan.test (buf : Buf) (lo : UInt8) (c : Scan) : Scan :=
  { c with reads := c.reads++if buf c.i == lo then [c.i,c.i+1] else [c.i] }

def Scan.skip (c : Scan) : Scan := { c with i := c.i+6, fifo_len := c.fifo_len-6 }

def Scan.publish (suid : Suid) (buf : Buf) (c : Scan) : Scan :=
  { c with
    events := c.events++[⟨suid,word (buf c.i) (buf (c.i+1)),
      word (buf (c.i+2)) (buf (c.i+3)),word (buf (c.i+4)) (buf (c.i+5))⟩]
    reads := c.reads++[c.i,c.i+1,c.i+2,c.i+3,c.i+4,c.i+5] }

section Parser
variable (istate : DemoInstanceState) (buf : Buf)

/-- The part of a turn that belongs to one sensor. The second byte of every
dummy marker is `0x7f`. -/
def slot (s : SensorIdx) (marker : UInt8) (c : Scan) : Scan :=
  if has istate.fifo_enabled s then
    if 6 ≤ c.fifo_len then
      if matches_ buf c.i marker 0x7f then (c.test buf marker).skip
      else ((c.test buf marker).publish (istate.ss_cfgs s).suid buf).skip
    else { c with fifo_len := 0 }
  else c

def acc_slot : Scan → Scan := slot istate buf .ACC 0x01
def gyr_slot : Scan → Scan := slot istate buf .GYR 0x02

/-- One turn of `while (fifo_len > 0)`. -/
def turn (c : Scan) : Scan ⊕ Scan :=
  if c.fifo_len = 0 then .inr c
  else if matches_ buf c.i 0x00 0x80 then .inr (c.test buf 0x00)
  else
    let c := gyr_slot istate buf (acc_slot istate buf (c.test buf 0x00))
    if matches_ buf c.i 0x00 0x80 then .inr (c.test buf 0x00) else .inl (c.test buf 0x00)

end Parser

/-- `buf` after the second read. Past its end there is whatever the stack
holds. -/
def fetched (istate : DemoInstanceState) (data : BusRead) (past : Buf) (len : ℕ) : Buf :=
  fun i => if i < len then demo_com_read_wrapper istate.com_port data i else past i

/-- The length register counts words; the byte count is kept in 16 bits. -/
def fifoLen (istate : DemoInstanceState) (len : BusRead) : ℕ :=
  (word (demo_com_read_wrapper istate.com_port len 0)
    (demo_com_read_wrapper istate.com_port len 1)).toNat*2%65536

/-- `demo_handle_wtm_irq_event` with at most `n` turns of its loop: the
samples it publishes, or nothing when the loop is still going. -/
def demo_handle_wtm_irq_event (istate : DemoInstanceState) (len data : BusRead) (past : Buf)
    (n : ℕ) : Option (List Sample) :=
  let fifo_len := fifoLen istate len
  (loop (turn istate (fetched istate data past fifo_len)) n ⟨0,fifo_len,[],[]⟩).elim
    (fun _ => none) (fun c => some c.events)

def endWord : BitVec 16 := 0x8000#16

def dummyWord : SensorIdx → BitVec 16
  | .GYR => 0x7f02#16
  | _ => 0x7f01#16

/-- One slot of a frame. A real sample can be told from the marks. -/
inductive Slot (s : SensorIdx) where
  | sample (x y z : BitVec 16) (real : x ≠ endWord ∧ x ≠ dummyWord s)
  | dummy (y z : BitVec 16)

/-- The slots of one frame; only those of the enabled sensors are stored. -/
abbrev Frame := (s : SensorIdx) → Slot s

namespace Slot

def words {s : SensorIdx} : Slot s → List (BitVec 16)
  | .sample x y z _ => [x,y,z]
  | .dummy y z => [dummyWord s,y,z]

def samples {s : SensorIdx} (suid : Suid) : Slot s → List Sample
  | .sample x y z _ => [⟨suid,x,y,z⟩]
  | .dummy _ _ => []

end Slot

/-- The sensors in the FIFO, in the order of their slots. -/
def members (mask : SensorType) : List SensorIdx := [.ACC,.GYR].filter (has mask)

def frameWords (mask : SensorType) (f : Frame) : List (BitVec 16) :=
  (members mask).flatMap (fun s => (f s).words)

def fifoWords (mask : SensorType) (fs : List Frame) (ends : ℕ) : List (BitVec 16) :=
  fs.flatMap (frameWords mask)++List.replicate ends endWord

def littleEndian (ws : List (BitVec 16)) : List UInt8 :=
  ws.flatMap (fun w : BitVec 16 => [.ofBitVec (w.setWidth 8),.ofBitVec ((w >>> 8).setWidth 8)])

def frameSamples (istate : DemoInstanceState) (f : Frame) : List Sample :=
  (members istate.fifo_enabled).flatMap (fun s => (f s).samples (istate.ss_cfgs s).suid)

theorem word_toNat (lo hi : UInt8) : (word lo hi).toNat = lo.toNat+256*hi.toNat := by
  have hlo := lo.toNat_lt
  rw [word, BitVec.toNat_append, UInt8.toNat_toBitVec, UInt8.toNat_toBitVec,
    ← Nat.shiftLeft_add_eq_or_of_lt hlo, Nat.shiftLeft_eq]
  omega

theorem word_inj (lo hi lo' hi' : UInt8) :
    word lo hi = word lo' hi' ↔ lo = lo' ∧ hi = hi' := by
  constructor
  · intro h
    have ht := congrArg BitVec.toNat h
    have h1 := lo.toNat_lt
    have h2 := lo'.toNat_lt
    rw [word_toNat, word_toNat] at ht
    exact ⟨UInt8.toNat_inj.mp (by omega),UInt8.toNat_inj.mp (by omega)⟩
  · rintro ⟨rfl,rfl⟩
    rfl

theorem word_littleEndian (w : BitVec 16) :
    word (.ofBitVec (w.setWidth 8)) (.ofBitVec ((w >>> 8).setWidth 8)) = w := by
  have hw := w.isLt
  apply BitVec.eq_of_toNat_eq
  rw [word_toNat]
  simp [Nat.shiftRight_eq_div_pow]
  omega

theorem matches_word (buf : Buf) (i : ℕ) (lo hi : UInt8) :
    matches_ buf i lo hi = decide (word (buf i) (buf (i+1)) = word lo hi) := by
  rw [Bool.eq_iff_iff, decide_eq_true_eq, word_inj]
  simp [matches_]

/-- The words `ws` lie in the buffer from the index on. -/
def Under (buf : Buf) : ℕ → List (BitVec 16) → Prop
  | _, [] => True
  | i, w::ws => word (buf i) (buf (i+1)) = w ∧ Under buf (i+2) ws

theorem under_append (buf : Buf) (i : ℕ) (ws vs : List (BitVec 16)) :
    Under buf i (ws++vs) ↔ Under buf i ws ∧ Under buf (i+2*ws.length) vs := by
  induction ws generalizing i with
  | nil => simp [Under]
  | cons w ws ih =>
    rw [List.cons_append, Under, Under, ih, and_assoc, List.length_cons,
      show i+2+2*ws.length = i+2*(ws.length+1) by omega]

theorem length_littleEndian (ws : List (BitVec 16)) : (littleEndian ws).length = 2*ws.length := by
  induction ws with
  | nil => rfl
  | cons w ws ih =>
    rw [littleEndian] at ih ⊢
    simp only [List.flatMap_cons, List.length_append, List.length_cons, ih, List.length_nil]
    omega

theorem under_littleEndian (buf : Buf) (i : ℕ) (ws : List (BitVec 16))
    (h : ∀ j (hj : j < (littleEndian ws).length), buf (i+j) = (littleEndian ws)[j]) :
    Under buf i ws := by
  induction ws generalizing i with
  | nil => trivial
  | cons w ws ih =>
    have hl := length_littleEndian (w::ws)
    have hl' := length_littleEndian ws
    have hcons : littleEndian (w::ws) =
        .ofBitVec (w.setWidth 8)::.ofBitVec ((w >>> 8).setWidth 8)::littleEndian ws := rfl
    have h0 := h 0 (by rw [hl, List.length_cons]; omega)
    have h1 := h 1 (by rw [hl, List.length_cons]; omega)
    simp only [hcons, Nat.add_zero, List.getElem_cons_zero, List.getElem_cons_succ] at h0 h1
    constructor
    · rw [h0, h1, word_littleEndian]
    · apply ih
      intro j hj
      have h2 := h (j+2) (by rw [hl, List.length_cons]; omega)
      simp only [hcons, List.getElem_cons_succ] at h2
      rw [Nat.add_assoc, Nat.add_comm 2 j, h2]

/-- The words of one sensor in a frame. -/
def part (mask : SensorType) (f : Frame) (s : SensorIdx) : List (BitVec 16) :=
  if has mask s then (f s).words else []

def partSamples (istate : DemoInstanceState) (f : Frame) (s : SensorIdx) : List Sample :=
  if has istate.fifo_enabled s then (f s).samples (istate.ss_cfgs s).suid else []

theorem frameWords_parts (mask : SensorType) (f : Frame) :
    frameWords mask f = part mask f .ACC++part mask f .GYR := by
  cases ha : has mask .ACC <;> cases hg : has mask .GYR <;>
    simp [frameWords, members, part, ha, hg]

theorem frameSamples_parts (istate : DemoInstanceState) (f : Frame) :
    frameSamples istate f = partSamples istate f .ACC++partSamples istate f .GYR := by
  cases ha : has istate.fifo_enabled .ACC <;> cases hg : has istate.fifo_enabled .GYR <;>
    simp [frameSamples, members, partSamples, ha, hg]

theorem slot_part (istate : DemoInstanceState) (buf : Buf) (f : Frame) (s : SensorIdx)
    (marker : UInt8) (c : Scan) (hm : word marker 0x7f = dummyWord s)
    (hlen : 2*(part istate.fifo_enabled f s).length ≤ c.fifo_len)
    (hu : Under buf c.i (part istate.fifo_enabled f s)) :
    (slot istate buf s marker c).i = c.i+2*(part istate.fifo_enabled f s).length ∧
    (slot istate buf s marker c).fifo_len =
      c.fifo_len-2*(part istate.fifo_enabled f s).length ∧
    (slot istate buf s marker c).events = c.events++partSamples istate f s := by
  by_cases hs : has istate.fifo_enabled s = true
  · simp only [part, partSamples, hs, if_true] at hlen hu ⊢
    cases hf : f s with
    | sample x y z real =>
      rw [hf] at hlen hu
      obtain ⟨hx,hy,hz,-⟩ := hu
      have hn : matches_ buf c.i marker 0x7f = false := by
        rw [matches_word, hm, hx, decide_eq_false_iff_not]
        exact real.2
      have h6 : 6 ≤ c.fifo_len := hlen
      simp [slot, hs, h6, hn, Scan.skip, Scan.publish, Scan.test, Slot.words, Slot.samples,
        hx, hy, hz]
    | dummy y z =>
      rw [hf] at hlen hu
      obtain ⟨hx,-⟩ := hu
      have hn : matches_ buf c.i marker 0x7f = true := by
        rw [matches_word, hm, hx, decide_eq_true_eq]
      have h6 : 6 ≤ c.fifo_len := hlen
      simp [slot, hs, h6, hn, Scan.skip, Scan.test, Slot.words, Slot.samples]
  · simp [slot, part, partSamples, hs]

theorem slot_head {s : SensorIdx} (t : Slot s) : ∃ w ws, t.words = w::ws ∧ w ≠ endWord := by
  cases t with
  | sample x y z real => exact ⟨x,[y,z],rfl,real.1⟩
  | dummy y z => exact ⟨dummyWord s,[y,z],rfl,by cases s <;> decide⟩

/-- A frame never starts like the end of the data. -/
theorem frame_head (mask : SensorType) (f : Frame) (hM : members mask ≠ []) :
    ∃ w ws, frameWords mask f = w::ws ∧ w ≠ endWord := by
  obtain ⟨s,ss,hs⟩ := List.exists_cons_of_ne_nil hM
  obtain ⟨w,ws,hw,hne⟩ := slot_head (f s)
  exact ⟨w,ws++ss.flatMap (fun s => (f s).words),by simp [frameWords, hs, hw],hne⟩

section Run
variable (istate : DemoInstanceState) (buf : Buf)

/-- The frames `fs` are still under the index, and `v` is what will have been
published in the end. -/
def Owes (c : Scan) (v : List Sample) (k : ℕ) : Prop := ∃ fs ends,
  c.fifo_len = 2*(fifoWords istate.fifo_enabled fs ends).length ∧
  Under buf c.i (fifoWords istate.fifo_enabled fs ends) ∧
  v = c.events++fs.flatMap (frameSamples istate) ∧ k = fs.length

/-- Where the data ends, nothing is owed any more. -/
theorem owes_end (c : Scan) (v : List Sample) (k : ℕ) (hM : members istate.fifo_enabled ≠ [])
    (ho : Owes istate buf c v k) (he : c.fifo_len = 0 ∨ matches_ buf c.i 0x00 0x80 = true) :
    c.events = v := by
  obtain ⟨fs,ends,hlen,hu,hv,-⟩ := ho
  cases fs with
  | nil => simp [hv]
  | cons f fs =>
    obtain ⟨w,ws,hw,hne⟩ := frame_head istate.fifo_enabled f hM
    simp only [fifoWords, List.flatMap_cons, hw, List.cons_append] at hlen hu
    rcases he with he | he
    · simp at hlen
      omega
    · rw [matches_word, hu.1, decide_eq_true_eq] at he
      exact absurd he hne

theorem slots_owe (c : Scan) (v : List Sample) (k : ℕ)
    (ho : Owes istate buf c v k) (hlen : c.fifo_len ≠ 0)
    (he : matches_ buf c.i 0x00 0x80 ≠ true) :
    ∃ k' < k, Owes istate buf (gyr_slot istate buf (acc_slot istate buf c)) v k' := by
  obtain ⟨fs,ends,hl,hu,hv,hk⟩ := ho
  cases fs with
  | nil =>
    cases ends with
    | zero => simp [fifoWords] at hl; omega
    | succ n =>
      simp only [fifoWords, List.flatMap_nil, List.nil_append, List.replicate_succ] at hu
      rw [matches_word, hu.1] at he
      exact absurd (by decide) he
  | cons f fs =>
    have hw : fifoWords istate.fifo_enabled (f::fs) ends =
        part istate.fifo_enabled f .ACC++
          (part istate.fifo_enabled f .GYR++fifoWords istate.fifo_enabled fs ends) := by
      simp [fifoWords, frameWords_parts]
    rw [hw, under_append, under_append] at hu
    rw [hw, List.length_append, List.length_append] at hl
    obtain ⟨hacc,hgyr,hrest⟩ := hu
    obtain ⟨hi1,hl1,he1⟩ := slot_part istate buf f .ACC 0x01 c (by decide) (by omega) hacc
    have hgyr' : Under buf (acc_slot istate buf c).i (part istate.fifo_enabled f .GYR) := by
      rw [acc_slot, hi1]
      exact hgyr
    obtain ⟨hi2,hl2,he2⟩ := slot_part istate buf f .GYR 0x02 (acc_slot istate buf c) (by decide)
      (by rw [acc_slot, hl1]; omega) hgyr'
    refine ⟨fs.length,by simp [hk],fs,ends,?_,?_,?_,rfl⟩
    · rw [gyr_slot, hl2, acc_slot, hl1]
      omega
    · rw [gyr_slot, hi2, acc_slot, hi1]
      exact hrest
    · rw [gyr_slot, he2, acc_slot, he1, hv]
      simp [frameSamples_parts]

theorem turn_continue {c c' : Scan} (h : turn istate buf c = .inl c') :
    c.fifo_len ≠ 0 ∧ matches_ buf c.i 0x00 0x80 ≠ true ∧
      c' = (gyr_slot istate buf (acc_slot istate buf (c.test buf 0x00))).test buf 0x00 := by
  simp only [turn] at h
  split_ifs at h with h1 h2 h3
  exact ⟨h1,h2,(Sum.inl.inj h).symm⟩

theorem turn_leave {c c' : Scan} (h : turn istate buf c = .inr c') :
    (c.events = c'.events ∧ (c.fifo_len = 0 ∨ matches_ buf c.i 0x00 0x80 = true)) ∨
    (c.fifo_len ≠ 0 ∧ matches_ buf c.i 0x00 0x80 ≠ true ∧
      matches_ buf (gyr_slot istate buf (acc_slot istate buf (c.test buf 0x00))).i 0x00 0x80 =
        true ∧
      c' = (gyr_slot istate buf (acc_slot istate buf (c.test buf 0x00))).test buf 0x00) := by
  simp only [turn] at h
  split_ifs at h with h1 h2 h3
  · exact .inl ⟨by rw [← Sum.inr.inj h],.inl h1⟩
  · exact .inl ⟨by rw [← Sum.inr.inj h]; rfl,.inr h2⟩
  · exact .inr ⟨h1,h2,h3,(Sum.inr.inj h).symm⟩

theorem loop_publishes (c : Scan) (v : List Sample) (k n : ℕ)
    (hM : members istate.fifo_enabled ≠ []) (ho : Owes istate buf c v k) (hn : k < n) :
    ∃ c', loop (turn istate buf) n c = .inr c' ∧ c'.events = v := by
  apply loop_owes (Owes istate buf) Scan.events _ _ n k c v ho hn
  · intro c c' v k ho h
    obtain ⟨hl,he,rfl⟩ := turn_continue istate buf h
    exact slots_owe istate buf (c.test buf 0x00) v k ho hl he
  · intro c c' v k ho h
    rcases turn_leave istate buf h with ⟨hv,he⟩ | ⟨hl,he,he',rfl⟩
    · rw [← hv]
      exact owes_end istate buf c v k hM ho he
    · obtain ⟨k',-,ho'⟩ := slots_owe istate buf (c.test buf 0x00) v k ho hl he
      exact owes_end istate buf _ v k' hM ho' (.inr he')

end Run

theorem fifoLen_words (istate : DemoInstanceState) (len : BusRead) (ws : List (BitVec 16))
    (htotal : ws.length < 32768) (hlen : (word (demo_com_read_wrapper istate.com_port len 0)
      (demo_com_read_wrapper istate.com_port len 1)).toNat = ws.length) :
    fifoLen istate len = 2*ws.length := by
  rw [fifoLen, hlen]
  omega

theorem fetched_words (istate : DemoInstanceState) (len data : BusRead) (past : Buf)
    (ws : List (BitVec 16)) (hl : fifoLen istate len = 2*ws.length)
    (hdata : ∀ j (hj : j < (littleEndian ws).length),
      demo_com_read_wrapper istate.com_port data j = (littleEndian ws)[j]) :
    Under (fetched istate data past (fifoLen istate len)) 0 ws := by
  apply under_littleEndian
  intro j hj
  rw [← hdata j hj, fetched, if_pos, Nat.zero_add]
  rw [length_littleEndian] at hj
  omega

theorem under_decodes (istate : DemoInstanceState) (fs : List Frame) (ends : ℕ)
    (len data : BusRead) (past : Buf) (n : ℕ) (hM : members istate.fifo_enabled ≠ [])
    (hl : fifoLen istate len = 2*(fifoWords istate.fifo_enabled fs ends).length)
    (hu : Under (fetched istate data past (fifoLen istate len)) 0
      (fifoWords istate.fifo_enabled fs ends)) (hn : fs.length < n) :
    demo_handle_wtm_irq_event istate len data past n =
      some (fs.flatMap (frameSamples istate)) := by
  obtain ⟨c,hc,hv⟩ := loop_publishes istate (fetched istate data past (fifoLen istate len))
    ⟨0,fifoLen istate len,[],[]⟩ _ fs.length n hM ⟨fs,ends,hl,hu,rfl,rfl⟩ hn
  simp only [demo_handle_wtm_irq_event, hc, Sum.elim_inr, hv, List.nil_append]

/-- Decoding undoes encoding: from the bytes of any frames, with or without
end words behind them, exactly the real samples are published. -/
theorem wtm_decodes (istate : DemoInstanceState) (fs : List Frame) (ends : ℕ)
    (len data : BusRead) (past : Buf) (n : ℕ) (hM : members istate.fifo_enabled ≠ [])
    (htotal : (fifoWords istate.fifo_enabled fs ends).length < 32768)
    (hlen : (word (demo_com_read_wrapper istate.com_port len 0)
      (demo_com_read_wrapper istate.com_port len 1)).toNat =
        (fifoWords istate.fifo_enabled fs ends).length)
    (hdata : ∀ j (hj : j < (littleEndian (fifoWords istate.fifo_enabled fs ends)).length),
      demo_com_read_wrapper istate.com_port data j =
        (littleEndian (fifoWords istate.fifo_enabled fs ends))[j])
    (hn : fs.length < n) :
    demo_handle_wtm_irq_event istate len data past n =
      some (fs.flatMap (frameSamples istate)) := by
  have hl := fifoLen_words istate len _ htotal hlen
  have hu := fetched_words istate len data past _ hl hdata
  exact under_decodes istate fs ends len data past n hM hl hu hn

def exampleCfg : DemoSsCfg := ⟨[],⟨true,0,0,false⟩,0,0,0,false,0,0,false⟩

def exampleInstance : DemoInstanceState where
  reset_done := true
  force_reset := false
  ss_cfgs s := { exampleCfg with suid := suids s chip0 }
  fifo_enabled := 0b11
  irq_stream := true
  ascp_stream := true
  timer_stream := true
  irq_info := ⟨⟨0,0,0,0,false⟩,false,false⟩
  com_port := ⟨0,0,1,⟨.SNS_BUS_SPI,0,0,0,0,0⟩,true⟩
  flushing_sensors := 0
  sensor_enabled := 0b11

def exampleFrame (x y : BitVec 16) (real : x ≠ endWord ∧ x ≠ dummyWord .ACC) : Frame
  | .ACC => .sample x y 3 real
  | .GYR => .dummy 0x8000 0x8000
  | .MOTION => .dummy 0 0
  | .TEMP => .dummy 0 0

def exampleFrames : List Frame :=
  [exampleFrame 0x7f02 0x8000 (by decide),exampleFrame 0xffff 0 (by decide)]

def exampleRead (bs : List UInt8) : BusRead := ⟨true,fun i => (0xee::bs).getD i 0⟩

theorem wtm_decodes_dummies :
    demo_handle_wtm_irq_event exampleInstance (exampleRead [14,0])
        (exampleRead (littleEndian (fifoWords 0b11 exampleFrames 2))) (fun _ => 0) 3 =
      some (exampleFrames.flatMap (frameSamples exampleInstance)) ∧
    exampleFrames.flatMap (frameSamples exampleInstance) =
      [⟨suids .ACC chip0,0x7f02,0x8000,3⟩,⟨suids .ACC chip0,0xffff,0,3⟩] :=
  ⟨wtm_decodes exampleInstance exampleFrames 2 (exampleRead [14,0])
    (exampleRead (littleEndian (fifoWords 0b11 exampleFrames 2))) (fun _ => 0) 3
    (by decide) (by decide) (by decide) (by decide) (by decide),by decide⟩

end BaseDrivers.DemoFifo
