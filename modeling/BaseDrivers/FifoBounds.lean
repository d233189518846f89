import Mathlib.Tactic.SplitIfs
import BaseDrivers.DemoFifo

/-!
# The end of FIFO parsing and its buffer

A turn takes one slot off for every sensor in the FIFO, so the loop ends
where there is one. Both tests for the end of the data stand at the head of
a frame. The second one also stands behind the last slot, where the buffer
may be over.
-/

set_option autoImplicit false

namespace BaseDrivers.FifoBounds
open BaseDrivers.Execution BaseDrivers.DemoCommon BaseDrivers.DemoFifo

section Parser
variable (istate : DemoInstanceState) (buf : Buf)

/-- The bytes of one frame. -/
def frameBytes (mask : SensorType) : ℕ := 6*(members mask).length

theorem slot_fifo_len (s : SensorIdx) (marker : UInt8) (c : Scan) :
    (slot istate buf s marker c).fifo_len =
      if has istate.fifo_enabled s then c.fifo_len-6 else c.fifo_len := by
  rw [slot]
  split_ifs with hs h6
  · rfl
  · rfl
  · show 0 = c.fifo_len-6
    omega
  · rfl

theorem slot_i (s : SensorIdx) (marker : UInt8) (c : Scan) :
    (slot istate buf s marker c).i =
      if has istate.fifo_enabled s ∧ 6 ≤ c.fifo_len then c.i+6 else c.i := by
  rw [slot]
  by_cases hs : has istate.fifo_enabled s = true
  · by_cases h6 : 6 ≤ c.fifo_len
    · simp only [hs, h6, and_self, if_true]
      split_ifs
      · rfl
      · rfl
    · simp only [hs, h6, and_false, if_true, if_false]
  · simp only [hs, false_and, if_false, Bool.false_eq_true]

/-- The slots of a turn. -/
def slots (c : Scan) : Scan := gyr_slot istate buf (acc_slot istate buf c)

theorem members_length (mask : SensorType) : (members mask).length =
    (if has mask .ACC then 1 else 0)+(if has mask .GYR then 1 else 0) := by
  cases ha : has mask .ACC <;> cases hg : has mask .GYR <;> simp [members, ha, hg]

theorem slots_fifo_len (c : Scan) :
    (slots istate buf c).fifo_len = c.fifo_len-frameBytes istate.fifo_enabled := by
  rw [slots, gyr_slot, acc_slot, slot_fifo_len, slot_fifo_len, frameBytes, members_length]
  split_ifs <;> omega

theorem slots_i (c : Scan) : (slots istate buf c).i =
    if frameBytes istate.fifo_enabled ≤ c.fifo_len then c.i+frameBytes istate.fifo_enabled
    else c.i+6*(c.fifo_len/6) := by
  rw [slots, gyr_slot, acc_slot, slot_i, slot_fifo_len, slot_i, frameBytes, members_length]
  cases ha : has istate.fifo_enabled .ACC <;> cases hg : has istate.fifo_enabled .GYR <;>
    simp only [Bool.false_eq_true, true_and, false_and, if_true, if_false]
  all_goals split_ifs <;> omega

/-- Where there is a sensor in the FIFO, the loop ends. -/
theorem turns_end (hM : members istate.fifo_enabled ≠ []) (c : Scan) :
    ∃ r, loop (turn istate buf) (c.fifo_len+1) c = .inr r := by
  apply loop_ends Scan.fifo_len
  intro c c' hc
  obtain ⟨hlen,-,rfl⟩ := turn_continue istate buf hc
  have hM := List.length_pos_of_ne_nil hM
  have h := slots_fifo_len istate buf (c.test buf 0x00)
  rw [frameBytes] at h
  show (slots istate buf (c.test buf 0x00)).fifo_len < c.fifo_len
  rw [h]
  show c.fifo_len-_ < c.fifo_len
  omega

/-- Where there is none, a turn only looks at the mark once more. -/
theorem turns_stuck (hM : members istate.fifo_enabled = []) (c : Scan) (hlen : c.fifo_len ≠ 0)
    (hend : matches_ buf c.i 0x00 0x80 ≠ true) (n : ℕ) :
    ∃ c', loop (turn istate buf) n c = .inl c' := by
  have hs : ∀ s, s = .ACC ∨ s = .GYR → has istate.fifo_enabled s ≠ true := by
    intro s hs hon
    have hm : s ∈ members istate.fifo_enabled := by
      rw [members, List.mem_filter]
      exact ⟨by rcases hs with rfl | rfl <;> decide,hon⟩
    rw [hM] at hm
    cases hm
  have hslots : ∀ c : Scan, slots istate buf c = c := by
    intro c
    rw [slots, gyr_slot, acc_slot, slot, if_neg (hs .GYR (.inr rfl)), slot,
      if_neg (hs .ACC (.inl rfl))]
  have h : (loop (turn istate buf) n c).elim
      (fun d => d.i = c.i ∧ d.fifo_len = c.fifo_len) (fun _ => False) := by
    apply loop_keeps _ _ _ _ n c ⟨rfl,rfl⟩
    · intro d d' hd ht
      obtain ⟨-,-,rfl⟩ := turn_continue istate buf ht
      have hd' := hslots (d.test buf 0x00)
      rw [slots] at hd'
      rw [hd']
      exact hd
    · intro d r hd ht
      rcases turn_leave istate buf ht with ⟨-,h0 | h0⟩ | ⟨-,-,h0,-⟩
      · exact hlen (hd.2.symm.trans h0)
      · exact hend (hd.1 ▸ h0)
      · have hd' := hslots (d.test buf 0x00)
        rw [slots] at hd'
        rw [hd'] at h0
        exact hend (hd.1 ▸ h0)
  cases hl : loop (turn istate buf) n c with
  | inl c' => exact ⟨c',rfl⟩
  | inr r =>
    rw [hl] at h
    exact h.elim

end Parser

/-- The word the chip delivered at the byte `j`. -/
def wordAt (istate : DemoInstanceState) (data : BusRead) (j : ℕ) : BitVec 16 :=
  word (demo_com_read_wrapper istate.com_port data j)
    (demo_com_read_wrapper istate.com_port data (j+1))

theorem fifoLen_even (istate : DemoInstanceState) (len : BusRead) : fifoLen istate len%2 = 0 := by
  rw [fifoLen]
  omega

theorem fetched_end (istate : DemoInstanceState) (len data : BusRead) (past : Buf) (j : ℕ)
    (hj : j%2 = 0) (hlt : j < fifoLen istate len) :
    matches_ (fetched istate data past (fifoLen istate len)) j 0x00 0x80 = true ↔
      wordAt istate data j = endWord := by
  have heven := fifoLen_even istate len
  rw [matches_word, decide_eq_true_eq, fetched, fetched, if_pos hlt, if_pos (by omega)]
  exact Iff.rfl

/-- The loop ends exactly where the FIFO holds a sensor, no data, or the mark
of its end at the front. -/
theorem wtm_parsing_ends (istate : DemoInstanceState) (len data : BusRead) (past : Buf) :
    (∃ n samples, demo_handle_wtm_irq_event istate len data past n = some samples) ↔
      members istate.fifo_enabled ≠ [] ∨ fifoLen istate len = 0 ∨
        wordAt istate data 0 = endWord := by
  let buf := fetched istate data past (fifoLen istate len)
  let c : Scan := ⟨0,fifoLen istate len,[],[]⟩
  have hend := fetched_end istate len data past 0 rfl
  have hret : ∀ n r, loop (turn istate buf) n c = .inr r →
      demo_handle_wtm_irq_event istate len data past n = some r.events := by
    intro n r hr
    simp only [demo_handle_wtm_irq_event]
    rw [hr]
    rfl
  constructor
  · rintro ⟨n,samples,h⟩
    by_contra hno
    have hM : members istate.fifo_enabled = [] := by
      by_contra hM
      exact hno (.inl hM)
    have hlen : fifoLen istate len ≠ 0 := fun h0 => hno (.inr (.inl h0))
    have hm : matches_ buf 0 0x00 0x80 ≠ true := by
      intro hm
      exact hno (.inr (.inr ((hend (by omega)).mp hm)))
    obtain ⟨c',hc'⟩ := turns_stuck istate buf hM c hlen hm n
    simp only [demo_handle_wtm_irq_event] at h
    rw [hc'] at h
    cases h
  · intro h
    by_cases hM : members istate.fifo_enabled = []
    · by_cases hlen : fifoLen istate len = 0
      · refine ⟨1,[],hret 1 c (loop_leave 0 ?_)⟩
        rw [turn, if_pos hlen]
      · have hm : matches_ buf 0 0x00 0x80 = true := by
          apply (hend (by omega)).mpr
          exact (h.resolve_left (fun h => h hM)).resolve_left hlen
        refine ⟨1,[],hret 1 (c.test buf 0x00) (loop_leave 0 ?_)⟩
        rw [turn, if_neg hlen, if_pos hm]
    · obtain ⟨r,hr⟩ := turns_end istate buf hM c
      exact ⟨_,_,hret _ r hr⟩

/-- Before the FIFO was configured for the first time, one frame in it keeps
the parser going for good. -/
def unconfigured : DemoInstanceState := { exampleInstance with fifo_enabled := 0 }

theorem wtm_parsing_unconfigured : ¬ ∃ n samples, demo_handle_wtm_irq_event unconfigured
    (exampleRead [3,0]) (exampleRead (littleEndian [1,2,3])) (fun _ => 0) n = some samples := by
  rintro ⟨n,samples,h⟩
  obtain ⟨c',hc'⟩ := turns_stuck unconfigured
    (fetched unconfigured (exampleRead (littleEndian [1,2,3])) (fun _ => 0)
      (fifoLen unconfigured (exampleRead [3,0]))) (by decide)
    ⟨0,fifoLen unconfigured (exampleRead [3,0]),[],[]⟩ (by decide) (by decide) n
  simp only [demo_handle_wtm_irq_event] at h
  rw [hc'] at h
  cases h

section Reads
variable (istate : DemoInstanceState) (buf : Buf) (len : ℕ)

/-- Every index read so far is one of the first `len` bytes. -/
def Inside (c : Scan) : Prop := ∀ j ∈ c.reads, j < len

theorem test_inside (lo : UInt8) (c : Scan) (hlen : len%2 = 0) (hi : c.i%2 = 0) :
    Inside len (c.test buf lo) ↔ Inside len c ∧ c.i < len := by
  have hnew : (∀ j ∈ (if buf c.i == lo then [c.i,c.i+1] else [c.i]), j < len) ↔ c.i < len := by
    split_ifs
    · simp only [List.mem_cons, List.not_mem_nil, or_false, forall_eq_or_imp, forall_eq]
      omega
    · simp
  rw [Inside, Scan.test]
  simp only [List.mem_append, or_imp, forall_and]
  exact and_congr Iff.rfl hnew

theorem publish_inside (suid : Suid) (c : Scan) (hi : c.i+6 ≤ len) :
    Inside len (c.publish suid buf) ↔ Inside len c := by
  have hnew : ∀ j ∈ [c.i,c.i+1,c.i+2,c.i+3,c.i+4,c.i+5], j < len := by
    simp only [List.mem_cons, List.not_mem_nil, or_false]
    omega
  rw [Inside, Scan.publish]
  simp only [List.mem_append, or_imp, forall_and]
  exact and_iff_left hnew

/-- A slot is read only where all of it is there. -/
theorem slot_inside (s : SensorIdx) (marker : UInt8) (c : Scan) (hlen : len%2 = 0)
    (hi : c.i%2 = 0) (hrest : c.i+c.fifo_len ≤ len) :
    Inside len (slot istate buf s marker c) ↔ Inside len c := by
  have htest : 6 ≤ c.fifo_len → (Inside len (c.test buf marker) ↔ Inside len c) := by
    intro h6
    rw [test_inside buf len marker c hlen hi]
    exact and_iff_left (by omega)
  rw [slot]
  split_ifs with hs h6 hm
  · exact htest h6
  · have hp := publish_inside buf len (istate.ss_cfgs s).suid (c.test buf marker)
      (show c.i+6 ≤ len by omega)
    exact hp.trans (htest h6)
  · exact Iff.rfl
  · exact Iff.rfl

theorem slot_rest (s : SensorIdx) (marker : UInt8) (c : Scan) (hi : c.i%2 = 0)
    (hrest : c.i+c.fifo_len ≤ len) : (slot istate buf s marker c).i%2 = 0 ∧
      (slot istate buf s marker c).i+(slot istate buf s marker c).fifo_len ≤ len := by
  rw [slot_i, slot_fifo_len]
  cases hs : has istate.fifo_enabled s with
  | true =>
    simp only [true_and, if_true]
    split_ifs <;> omega
  | false => exact ⟨hi,hrest⟩

/-- The parser stands at the head of a frame. -/
structure Head (c : Scan) : Prop where
  even : c.i%2 = 0
  rest : c.i+c.fifo_len = len

theorem mark_inside (c : Scan) (hlen : len%2 = 0) (hc : Head len c) (h0 : c.fifo_len ≠ 0) :
    Inside len (c.test buf 0x00) ↔ Inside len c := by
  have hrest := hc.rest
  rw [test_inside buf len 0x00 c hlen hc.even]
  exact and_iff_left (by omega)

/-- The slots of a frame are read inside; the test behind them may not be. -/
theorem slots_inside (c : Scan) (hlen : len%2 = 0) (hc : Head len c) :
    Inside len ((slots istate buf c).test buf 0x00) ↔
      Inside len c ∧ (slots istate buf c).i < len := by
  have hr := slot_rest istate buf len .ACC 0x01 c hc.even (Nat.le_of_eq hc.rest)
  have hr' := slot_rest istate buf len .GYR 0x02 _ hr.1 hr.2
  rw [test_inside buf len 0x00 (slots istate buf c) hlen hr'.1]
  apply and_congr _ Iff.rfl
  rw [slots, gyr_slot, acc_slot, slot_inside istate buf len .GYR 0x02 _ hlen hr.1 hr.2]
  exact slot_inside istate buf len .ACC 0x01 c hlen hc.even (Nat.le_of_eq hc.rest)

theorem turn_slots (c : Scan) (h0 : c.fifo_len ≠ 0) (hm : matches_ buf c.i 0x00 0x80 ≠ true) :
    turn istate buf c =
      if matches_ buf (slots istate buf (c.test buf 0x00)).i 0x00 0x80 then
        .inr ((slots istate buf (c.test buf 0x00)).test buf 0x00)
      else .inl ((slots istate buf (c.test buf 0x00)).test buf 0x00) := by
  rw [turn, if_neg h0, if_neg hm]
  rfl

/-- What is left of the data does not end with a whole slot, or the mark of
its end stands at the head of a frame. -/
def Stops (i rest : ℕ) : Prop :=
  rest%6 ≠ 0 ∨ rest = 0 ∨ ∃ j, frameBytes istate.fifo_enabled*j < rest ∧
    matches_ buf (i+frameBytes istate.fifo_enabled*j) 0x00 0x80 = true

theorem stops_here (i rest : ℕ) (hrest : rest ≠ 0) (h : matches_ buf i 0x00 0x80 = true) :
    Stops istate buf i rest :=
  .inr (.inr ⟨0,by omega,h⟩)

/-- Without the mark at the front the data stops behind the first frame. -/
theorem stops_next (i rest : ℕ) (hmark : matches_ buf i 0x00 0x80 ≠ true)
    (hframe : frameBytes istate.fifo_enabled < rest) : Stops istate buf i rest ↔
      Stops istate buf (i+frameBytes istate.fifo_enabled)
        (rest-frameBytes istate.fifo_enabled) := by
  have hmod : (rest-frameBytes istate.fifo_enabled)%6 = rest%6 := by
    rw [frameBytes] at hframe ⊢
    omega
  rw [Stops, Stops, hmod]
  apply or_congr Iff.rfl
  constructor
  · rintro (h0 | ⟨j,hj,hm⟩)
    · omega
    · cases j with
      | zero => exact (hmark hm).elim
      | succ j =>
        rw [Nat.mul_succ] at hj hm
        refine .inr ⟨j,by omega,?_⟩
        rw [← hm]
        congr 1
        omega
  · rintro (h0 | ⟨j,hj,hm⟩)
    · omega
    · refine .inr ⟨j+1,by rw [Nat.mul_succ]; omega,?_⟩
      rw [← hm, Nat.mul_succ]
      congr 1
      omega

/-- In the last frame only an incomplete slot stops the parser in time. -/
theorem stops_last (i rest : ℕ) (hmark : matches_ buf i 0x00 0x80 ≠ true) (hrest : rest ≠ 0)
    (hframe : rest ≤ frameBytes istate.fifo_enabled) :
    Stops istate buf i rest ↔ rest%6 ≠ 0 := by
  constructor
  · rintro (h | h0 | ⟨j,hj,hm⟩)
    · exact h
    · exact (hrest h0).elim
    · cases j with
      | zero => exact (hmark hm).elim
      | succ j =>
        rw [Nat.mul_succ] at hj
        omega
  · exact .inl

theorem turns_over (c : Scan) (h0 : c.fifo_len = 0) :
    (∀ n, (loop (turn istate buf) n c).elim (Inside len) (Inside len)) ↔ Inside len c := by
  rw [loop_always, turn, if_pos h0]
  exact and_self_iff

/-- Behind a frame that is followed by more data stands the next head. -/
theorem slots_head (c : Scan) (hc : Head len c)
    (hf : frameBytes istate.fifo_enabled < c.fifo_len) :
    (slots istate buf c).i = c.i+frameBytes istate.fifo_enabled ∧
      Head len (slots istate buf c) := by
  have hi := slots_i istate buf c
  have heven := hc.even
  have hrest := hc.rest
  rw [if_pos (Nat.le_of_lt hf)] at hi
  refine ⟨hi,?_,?_⟩
  · rw [hi, frameBytes]
    omega
  · rw [hi, slots_fifo_len]
    omega

/-- Behind the last frame the parser is past the data, unless a slot of it is
incomplete. -/
theorem slots_last (c : Scan) (hc : Head len c)
    (hf : c.fifo_len ≤ frameBytes istate.fifo_enabled) :
    (slots istate buf c).i < len ↔ c.fifo_len%6 ≠ 0 := by
  have hrest := hc.rest
  rw [slots_i]
  rw [frameBytes] at hf ⊢
  split_ifs <;> omega

theorem turns_inside (hM : members istate.fifo_enabled ≠ []) (hlen : len%2 = 0) (rest : ℕ)
    (c : Scan) (hrest : c.fifo_len = rest) (hc : Head len c) :
    (∀ n, (loop (turn istate buf) n c).elim (Inside len) (Inside len)) ↔
      Inside len c ∧ Stops istate buf c.i rest := by
  induction rest using Nat.strong_induction_on generalizing c with
  | _ rest ih =>
    by_cases h0 : rest = 0
    · rw [turns_over istate buf len c (hrest.trans h0)]
      exact (and_iff_left (.inr (.inl h0))).symm
    have hmark := mark_inside buf len c hlen hc (by omega)
    rw [loop_always]
    apply and_congr_right
    intro hin
    by_cases hm : matches_ buf c.i 0x00 0x80 = true
    · rw [turn, if_neg (by omega), if_pos hm]
      exact ⟨fun _ => stops_here istate buf c.i rest h0 hm,fun _ => hmark.mpr hin⟩
    rw [turn_slots istate buf c (by omega) hm]
    have htest : Head len (c.test buf 0x00) := ⟨hc.even,hc.rest⟩
    have hd := (slots_inside istate buf len (c.test buf 0x00) hlen htest).trans
      (and_iff_right (hmark.mpr hin))
    have hdlen : (slots istate buf (c.test buf 0x00)).fifo_len =
        rest-frameBytes istate.fifo_enabled := by
      rw [slots_fifo_len, ← hrest]
      rfl
    by_cases hf : frameBytes istate.fifo_enabled < rest
    · -- the frame is followed by more data
      have hframe : 0 < frameBytes istate.fifo_enabled :=
        Nat.mul_pos (by decide) (List.length_pos_of_ne_nil hM)
      obtain ⟨hdi,hdhead⟩ := slots_head istate buf len (c.test buf 0x00) htest (hrest ▸ hf)
      have hstops := stops_next istate buf c.i rest hm hf
      rw [show c.i+frameBytes istate.fifo_enabled = _ from hdi.symm, ← hdlen] at hstops
      generalize slots istate buf (c.test buf 0x00) = d at hd hdlen hdhead hstops ⊢
      have hdrest := hdhead.rest
      have hdin := hd.mpr (by omega)
      rw [hstops]
      by_cases hmd : matches_ buf d.i 0x00 0x80 = true
      · rw [if_pos hmd]
        exact ⟨fun _ => stops_here istate buf d.i d.fifo_len (by omega) hmd,fun _ => hdin⟩
      · rw [if_neg hmd]
        exact (ih d.fifo_len (by omega) (d.test buf 0x00) rfl ⟨hdhead.even,hdrest⟩).trans
          (and_iff_right hdin)
    · -- the data is over behind the frame, or within it
      have hover : (slots istate buf (c.test buf 0x00)).fifo_len = 0 := by omega
      rw [stops_last istate buf c.i rest hm h0 (by omega), ← hrest,
        show c.fifo_len = (c.test buf 0x00).fifo_len from rfl,
        ← slots_last istate buf len (c.test buf 0x00) htest (show c.fifo_len ≤ _ by omega), ← hd]
      by_cases hmd : matches_ buf (slots istate buf (c.test buf 0x00)).i 0x00 0x80 = true
      · rw [if_pos hmd]
        exact Iff.rfl
      · rw [if_neg hmd]
        exact turns_over istate buf len _ hover

end Reads

/-- The indices of `buf` read within `n` turns. -/
def indicesRead (istate : DemoInstanceState) (len data : BusRead) (past : Buf) (n : ℕ) : List ℕ :=
  (loop (turn istate (fetched istate data past (fifoLen istate len))) n
    ⟨0,fifoLen istate len,[],[]⟩).elim Scan.reads Scan.reads

/-- The parser stays inside its buffer exactly where no data or an incomplete
slot ends it, or the mark of the end at the head of a frame. -/
theorem wtm_reads_inside (istate : DemoInstanceState) (len data : BusRead) (past : Buf)
    (hM : members istate.fifo_enabled ≠ []) :
    (∀ n, ∀ j ∈ indicesRead istate len data past n, j < fifoLen istate len) ↔
      fifoLen istate len%6 ≠ 0 ∨ fifoLen istate len = 0 ∨
        ∃ j, frameBytes istate.fifo_enabled*j < fifoLen istate len ∧
          wordAt istate data (frameBytes istate.fifo_enabled*j) = endWord := by
  have hturns := turns_inside istate (fetched istate data past (fifoLen istate len))
    (fifoLen istate len) hM (fifoLen_even istate len) (fifoLen istate len)
    ⟨0,fifoLen istate len,[],[]⟩ rfl ⟨rfl,Nat.zero_add _⟩
  have hread : ∀ n, (∀ j ∈ indicesRead istate len data past n, j < fifoLen istate len) ↔
      (loop (turn istate (fetched istate data past (fifoLen istate len))) n
        ⟨0,fifoLen istate len,[],[]⟩).elim (Inside (fifoLen istate len))
          (Inside (fifoLen istate len)) := by
    intro n
    rw [indicesRead]
    cases loop (turn istate (fetched istate data past (fifoLen istate len))) n
      ⟨0,fifoLen istate len,[],[]⟩ with
    | inl c => exact Iff.rfl
    | inr c => exact Iff.rfl
  rw [forall_congr' hread, hturns, and_iff_right (by intro j hj; cases hj), Stops]
  apply or_congr Iff.rfl (or_congr Iff.rfl (exists_congr fun j => and_congr_right fun hj => ?_))
  rw [Nat.zero_add]
  exact fetched_end istate len data past _ (by rw [frameBytes, Nat.mul_assoc]; omega) hj

def exampleWords (ends : ℕ) : List (BitVec 16) :=
  fifoWords 0b11 [exampleFrame 5 6 (by decide)] ends

/-- With the mark behind the frame the same test stays inside. -/
theorem wtm_reads_inside_ended :
    12 ∈ indicesRead exampleInstance (exampleRead [9,0])
      (exampleRead (littleEndian (exampleWords 3))) (fun _ => 0) 1 ∧
    ∀ n, ∀ j ∈ indicesRead exampleInstance (exampleRead [9,0])
      (exampleRead (littleEndian (exampleWords 3))) (fun _ => 0) n,
      j < fifoLen exampleInstance (exampleRead [9,0]) :=
  ⟨by decide,(wtm_reads_inside exampleInstance (exampleRead [9,0])
    (exampleRead (littleEndian (exampleWords 3))) (fun _ => 0) (by decide)).mpr
    (.inr (.inr ⟨1,by decide,by decide⟩))⟩

/-- One frame without a mark behind it: the test after its last slot reads
the byte behind the buffer. -/
theorem wtm_reads_past_frame : ¬ ∀ n, ∀ j ∈ indicesRead exampleInstance (exampleRead [6,0])
    (exampleRead (littleEndian (exampleWords 0))) (fun _ => 0) n,
    j < fifoLen exampleInstance (exampleRead [6,0]) := by
  intro h
  exact absurd (h 1 12 (by decide)) (by decide)

end BaseDrivers.FifoBounds
