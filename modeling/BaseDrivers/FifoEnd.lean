import BaseDrivers.FifoBounds

/-!
# The mark of the end between two slots

The marks are looked for at the head of a frame and behind its last slot. In
a frame of two slots the second one is parsed without a look at its first
word, so a mark there is published as a sample when the slot is complete.
-/

set_option autoImplicit false

namespace BaseDrivers.FifoEnd
open BaseDrivers.Execution BaseDrivers.DemoCommon BaseDrivers.DemoFifo BaseDrivers.FifoBounds

section Parser
variable (istate : DemoInstanceState) (buf : Buf)

/-- Every frame has a slot of both sensors. -/
def TwoSlots : Prop := has istate.fifo_enabled .ACC = true ∧ has istate.fifo_enabled .GYR = true

/-- The parser stands at a slot: at the first one of a frame, whether the
loop goes on there or not, or at the second one. -/
inductive Reached (start : Scan) : Scan → Prop
  | first (n : ℕ) (c : Scan) (hc : (loop (turn istate buf) n start).elim id id = c)
      (hlen : c.fifo_len ≠ 0) : Reached start c
  | second (n : ℕ) (c : Scan) (hc : (loop (turn istate buf) n start).elim id id = c)
      (hlen : c.fifo_len ≠ 0) (hm : matches_ buf c.i 0x00 0x80 ≠ true)
      (two : TwoSlots istate)
      (hrest : (acc_slot istate buf (c.test buf 0x00)).fifo_len ≠ 0) :
      Reached start (acc_slot istate buf (c.test buf 0x00))

/-- The loop leaves only where the data is over or a mark stands. -/
theorem left_at_end {start : Scan} {n : ℕ} {r : Scan}
    (h : loop (turn istate buf) n start = .inr r) (h0 : r.fifo_len ≠ 0) :
    matches_ buf r.i 0x00 0x80 = true := by
  have hleave : ∀ c r, True → turn istate buf c = .inr r → r.fifo_len ≠ 0 →
      matches_ buf r.i 0x00 0x80 = true := by
    intro c r _ ht
    simp only [turn] at ht
    split_ifs at ht with h1 h2 h3
    · rw [← Sum.inr.inj ht]
      exact fun h => (h h1).elim
    · rw [← Sum.inr.inj ht]
      exact fun _ => h2
    · rw [← Sum.inr.inj ht]
      exact fun _ => h3
  have hk := loop_keeps (fun _ => True) _ (fun _ _ _ _ => trivial) hleave n start trivial
  rw [h] at hk
  exact hk h0

/-- What the loop will have published in the end. -/
def Publishes (c : Scan) (v : List Sample) : Prop :=
  ∃ r, (∃ n, loop (turn istate buf) n c = .inr r) ∧ r.events = v

theorem publishes_later {n : ℕ} {c d : Scan} (h : loop (turn istate buf) n c = .inl d)
    (v : List Sample) : Publishes istate buf c v ↔ Publishes istate buf d v := by
  apply exists_congr
  intro r
  rw [loop_leaves_iff h]

theorem publishes_turn (c : Scan) (v : List Sample) : Publishes istate buf c v ↔
    (turn istate buf c).elim (fun d => Publishes istate buf d v) (fun r => r.events = v) := by
  cases ht : turn istate buf c with
  | inl d => exact publishes_later istate buf ((loop_one _ c).trans ht) v
  | inr r =>
    have h1 := (loop_one _ c).trans ht
    constructor
    · rintro ⟨r',⟨n,hr⟩,hv⟩
      rw [← loop_result_unique hr h1]
      exact hv
    · intro hv
      exact ⟨r,⟨1,h1⟩,hv⟩

theorem publishes_unique {c : Scan} {v w : List Sample} (hv : Publishes istate buf c v)
    (hw : Publishes istate buf c w) : v = w := by
  obtain ⟨r,⟨n,hr⟩,rfl⟩ := hv
  obtain ⟨r',⟨m,hr'⟩,rfl⟩ := hw
  rw [loop_result_unique hr hr']

theorem publishes_mark (c : Scan) (v : List Sample) (h0 : c.fifo_len ≠ 0)
    (hm : matches_ buf c.i 0x00 0x80 = true) :
    Publishes istate buf c v ↔ c.events = v := by
  rw [publishes_turn, turn, if_neg h0, if_pos hm]
  exact Iff.rfl

theorem publishes_first {start c : Scan} {n : ℕ}
    (hc : (loop (turn istate buf) n start).elim id id = c) (h0 : c.fifo_len ≠ 0)
    (hm : matches_ buf c.i 0x00 0x80 = true) : Publishes istate buf start c.events := by
  cases hl : loop (turn istate buf) n start with
  | inl d =>
    rw [hl] at hc
    rw [publishes_later istate buf hl, show d = c from hc]
    exact (publishes_mark istate buf c _ h0 hm).mpr rfl
  | inr r =>
    rw [hl] at hc
    exact ⟨r,⟨n,hl⟩,congrArg Scan.events hc⟩

theorem publishes_frame (c : Scan) (v : List Sample) (h0 : c.fifo_len ≠ 0)
    (hm : matches_ buf c.i 0x00 0x80 ≠ true) : Publishes istate buf c v ↔
      if matches_ buf (slots istate buf (c.test buf 0x00)).i 0x00 0x80 then
        (slots istate buf (c.test buf 0x00)).events = v
      else Publishes istate buf ((slots istate buf (c.test buf 0x00)).test buf 0x00) v := by
  rw [publishes_turn, turn_slots istate buf c h0 hm]
  split_ifs <;> exact Iff.rfl

/-- A slot that is not complete ends the data. -/
theorem slot_incomplete (s : SensorIdx) (marker : UInt8) (c : Scan)
    (hs : has istate.fifo_enabled s = true) (h6 : c.fifo_len < 6) :
    slot istate buf s marker c = { c with fifo_len := 0 } := by
  rw [slot, if_pos hs, if_neg (by omega)]

theorem slot_publishes (s : SensorIdx) (marker : UInt8) (c : Scan)
    (hs : has istate.fifo_enabled s = true) (h6 : 6 ≤ c.fifo_len)
    (hm : matches_ buf c.i marker 0x7f ≠ true) :
    ∃ e, (slot istate buf s marker c).events = c.events++[e] := by
  rw [slot, if_pos hs, if_pos h6, if_neg hm]
  exact ⟨_,rfl⟩

theorem slot_grows (s : SensorIdx) (marker : UInt8) (c : Scan) :
    c.events <+: (slot istate buf s marker c).events := by
  rw [slot]
  split_ifs
  · exact List.prefix_rfl
  · exact List.prefix_append _ _
  · exact List.prefix_rfl
  · exact List.prefix_rfl

theorem slots_grow (c : Scan) : c.events <+: (slots istate buf c).events :=
  (slot_grows istate buf .ACC 0x01 c).trans (slot_grows istate buf .GYR 0x02 _)

/-- No turn takes a sample back. -/
theorem publishes_grows (c : Scan) (v : List Sample) (h : Publishes istate buf c v) :
    c.events <+: v := by
  obtain ⟨r,⟨n,hr⟩,rfl⟩ := h
  have hstep : ∀ d d', c.events <+: d.events → turn istate buf d = .inl d' →
      c.events <+: d'.events := by
    intro d d' hd ht
    obtain ⟨-,-,rfl⟩ := turn_continue istate buf ht
    exact hd.trans (slots_grow istate buf (d.test buf 0x00))
  have hleave : ∀ d d', c.events <+: d.events → turn istate buf d = .inr d' →
      c.events <+: d'.events := by
    intro d d' hd ht
    rcases turn_leave istate buf ht with ⟨he,-⟩ | ⟨-,-,-,rfl⟩
    · rw [← he]
      exact hd
    · exact hd.trans (slots_grow istate buf (d.test buf 0x00))
  have hk := loop_keeps (fun d => c.events <+: d.events) (fun d => c.events <+: d.events) hstep
    hleave n c List.prefix_rfl
  rw [hr] at hk
  exact hk

/-- The mark at the second slot of a frame: it is published when the slot is
complete. -/
theorem publishes_second (two : TwoSlots istate) (c : Scan) (h0 : c.fifo_len ≠ 0)
    (hm : matches_ buf c.i 0x00 0x80 ≠ true)
    (hm2 : matches_ buf (acc_slot istate buf (c.test buf 0x00)).i 0x00 0x80 = true) :
    Publishes istate buf c (acc_slot istate buf (c.test buf 0x00)).events ↔
      (acc_slot istate buf (c.test buf 0x00)).fifo_len < 6 := by
  rw [publishes_frame istate buf c _ h0 hm]
  have hslots : slots istate buf (c.test buf 0x00) =
    gyr_slot istate buf (acc_slot istate buf (c.test buf 0x00)) := rfl
  generalize acc_slot istate buf (c.test buf 0x00) = mid at hm2 hslots ⊢
  rw [hslots]
  by_cases h6 : mid.fifo_len < 6
  · rw [gyr_slot, slot_incomplete istate buf .GYR 0x02 mid two.2 h6, if_pos hm2]
    exact ⟨fun _ => h6,fun _ => rfl⟩
  · have hn : matches_ buf mid.i 0x02 0x7f ≠ true := by
      rw [matches_word, decide_eq_true_eq] at hm2
      rw [matches_word, hm2]
      decide
    obtain ⟨e,he⟩ := slot_publishes istate buf .GYR 0x02 mid two.2 (by omega) hn
    have hlong : ¬ mid.events++[e] <+: mid.events := by
      intro hp
      have hl := hp.length_le
      rw [List.length_append, List.length_singleton] at hl
      omega
    apply iff_of_false _ h6
    rw [gyr_slot]
    split_ifs
    · intro h
      rw [← he, h] at hlong
      exact hlong List.prefix_rfl
    · intro h
      have hp := publishes_grows istate buf _ _ h
      rw [show ((slot istate buf .GYR 0x02 mid).test buf 0x00).events = _ from he] at hp
      exact hlong hp

/-- The heads of the frames, and the marks the parser has not seen there. -/
theorem heads (start : Scan) (n : ℕ) (d : Scan)
    (h : loop (turn istate buf) n start = .inl d) :
    d.fifo_len = start.fifo_len-frameBytes istate.fifo_enabled*n ∧
    (d.fifo_len ≠ 0 → d.i = start.i+frameBytes istate.fifo_enabled*n) ∧
    ∀ j < n, matches_ buf (start.i+frameBytes istate.fifo_enabled*j) 0x00 0x80 ≠ true := by
  induction n generalizing d with
  | zero =>
    rw [← Sum.inl.inj h]
    exact ⟨rfl,fun _ => rfl,fun j hj => by omega⟩
  | succ n ih =>
    rw [loop_add] at h
    cases hn : loop (turn istate buf) n start with
    | inr r =>
      rw [hn] at h
      cases h
    | inl c =>
      rw [hn] at h
      obtain ⟨hlen,hi,hmarks⟩ := ih c hn
      obtain ⟨h0,hm,rfl⟩ := turn_continue istate buf ((loop_one _ c).symm.trans h)
      have hl := slots_fifo_len istate buf (c.test buf 0x00)
      have hsi := slots_i istate buf (c.test buf 0x00)
      rw [hi h0] at hm
      rw [show (c.test buf 0x00).fifo_len = c.fifo_len from rfl] at hl hsi
      rw [show (c.test buf 0x00).i = c.i from rfl, hi h0] at hsi
      rw [Nat.mul_succ]
      constructor
      · show (slots istate buf (c.test buf 0x00)).fifo_len = _
        omega
      · constructor
        · intro hne
          have hne : (slots istate buf (c.test buf 0x00)).fifo_len ≠ 0 := hne
          rw [if_pos (by omega)] at hsi
          exact hsi.trans (Nat.add_assoc _ _ _)
        · intro j hj
          rcases Nat.lt_succ_iff_lt_or_eq.mp hj with hj | rfl
          · exact hmarks j hj
          · exact hm

/-- Without a mark at any of the heads before, the parser comes to a head. -/
theorem head_reached (start : Scan) (n : ℕ)
    (hn : frameBytes istate.fifo_enabled*n < start.fifo_len)
    (hm : ∀ j ≤ n, matches_ buf (start.i+frameBytes istate.fifo_enabled*j) 0x00 0x80 ≠ true) :
    ∃ d, loop (turn istate buf) n start = .inl d := by
  induction n with
  | zero => exact ⟨start,rfl⟩
  | succ n ih =>
    rw [Nat.mul_succ] at hn
    obtain ⟨d,hd⟩ := ih (by omega) (fun j hj => hm j (by omega))
    obtain ⟨hlen,hi,-⟩ := heads istate buf start n d hd
    have h0 : d.fifo_len ≠ 0 := by omega
    have hsi := slots_i istate buf (d.test buf 0x00)
    rw [if_pos (show frameBytes istate.fifo_enabled ≤ (d.test buf 0x00).fifo_len from
      show _ ≤ d.fifo_len by omega), show (d.test buf 0x00).i = d.i from rfl, hi h0,
      Nat.add_assoc, ← Nat.mul_succ] at hsi
    have hmd : matches_ buf d.i 0x00 0x80 ≠ true := by
      rw [hi h0]
      exact hm n (by omega)
    refine ⟨(slots istate buf (d.test buf 0x00)).test buf 0x00,?_⟩
    rw [loop_add, hd, Sum.elim_inl, loop_one, turn_slots istate buf d h0 hmd, hsi,
      if_neg (hm (n+1) (Nat.le_refl _))]

/-- In a FIFO of both sensors the parser publishes nothing from behind a mark
it has reached, unless the mark stands at a second slot which is complete. -/
theorem reached_marks (two : TwoSlots istate) (start : Scan) :
    (∀ c, Reached istate buf start c → matches_ buf c.i 0x00 0x80 = true →
      Publishes istate buf start c.events) ↔
    ∀ j, 12*j+12 ≤ start.fifo_len →
      (∀ k ≤ j, matches_ buf (start.i+12*k) 0x00 0x80 ≠ true) →
      matches_ buf (start.i+12*j+6) 0x00 0x80 ≠ true := by
  have hframe : frameBytes istate.fifo_enabled = 12 := by
    rw [frameBytes, members_length, if_pos two.1, if_pos two.2]
  have hmid : ∀ c : Scan, 6 ≤ c.fifo_len →
      (acc_slot istate buf (c.test buf 0x00)).i = c.i+6 ∧
      (acc_slot istate buf (c.test buf 0x00)).fifo_len = c.fifo_len-6 := by
    intro c h6
    rw [acc_slot, slot_i, slot_fifo_len, if_pos ⟨two.1,h6⟩, if_pos two.1]
    exact ⟨rfl,rfl⟩
  constructor
  · intro h j hj hmarks hm2
    obtain ⟨d,hd⟩ := head_reached istate buf start j (by rw [hframe]; omega) (by rwa [hframe])
    obtain ⟨hlen,hi,-⟩ := heads istate buf start j d hd
    rw [hframe] at hlen hi
    have h0 : d.fifo_len ≠ 0 := by omega
    have hm : matches_ buf d.i 0x00 0x80 ≠ true := by
      rw [hi h0]
      exact hmarks j (Nat.le_refl _)
    obtain ⟨hmi,hml⟩ := hmid d (by omega)
    rw [← hi h0, ← hmi] at hm2
    have hp := h _ (.second j d (by rw [hd]; rfl) h0 hm two (by omega)) hm2
    rw [publishes_later istate buf hd, publishes_second istate buf two d h0 hm hm2] at hp
    omega
  · intro h c hc hm2
    cases hc with
    | first n c hc h0 => exact publishes_first istate buf hc h0 hm2
    | second n c hc h0 hm _ hrest =>
      cases hl : loop (turn istate buf) n start with
      | inl d =>
        rw [hl] at hc
        rw [show d = c from hc] at hl
        obtain ⟨hlen,hi,hmarks⟩ := heads istate buf start n c hl
        rw [hframe] at hlen hi hmarks
        have h6 : 6 ≤ c.fifo_len := by
          rw [acc_slot, slot_fifo_len, if_pos two.1] at hrest
          have hrest : c.fifo_len-6 ≠ 0 := hrest
          omega
        obtain ⟨hmi,hml⟩ := hmid c h6
        rw [publishes_later istate buf hl, publishes_second istate buf two c h0 hm hm2, hml]
        by_contra hlong
        rw [hmi, hi h0] at hm2
        rw [hi h0] at hm
        apply h n (by omega) _ hm2
        intro k hk
        rcases Nat.lt_or_eq_of_le hk with hk | rfl
        · exact hmarks k hk
        · exact hm
      | inr r =>
        -- the loop has left: there is no second slot of that frame
        rw [hl] at hc
        rw [show r = c from hc] at hl
        exact (hm (left_at_end istate buf hl h0)).elim

/-- Where a frame is one slot, or none, every mark is seen. -/
theorem reached_marks_single (two : ¬ TwoSlots istate) (start c : Scan)
    (hc : Reached istate buf start c) (hm : matches_ buf c.i 0x00 0x80 = true) :
    Publishes istate buf start c.events := by
  cases hc with
  | first n c hc h0 => exact publishes_first istate buf hc h0 hm
  | second n c hc h0 _ two' => exact (two two').elim

end Parser

/-- The locals before the loop. -/
def start (istate : DemoInstanceState) (len : BusRead) : Scan := ⟨0,fifoLen istate len,[],[]⟩

theorem wtm_publishes (istate : DemoInstanceState) (len data : BusRead) (past : Buf)
    (v : List Sample) : (∃ n, demo_handle_wtm_irq_event istate len data past n = some v) ↔
      Publishes istate (fetched istate data past (fifoLen istate len)) (start istate len) v := by
  rw [Publishes]
  simp only [← exists_and_right]
  rw [exists_comm]
  apply exists_congr
  intro n
  simp only [demo_handle_wtm_irq_event]
  rw [show (⟨0,fifoLen istate len,[],[]⟩ : Scan) = start istate len from rfl]
  cases loop (turn istate (fetched istate data past (fifoLen istate len))) n
    (start istate len) with
  | inl c => simp
  | inr r => simp

/-- Nothing from behind a mark the parser has reached is published, exactly
where no mark stands at a complete second slot, behind heads without one. -/
theorem wtm_ends_at_mark (istate : DemoInstanceState) (len data : BusRead) (past : Buf) :
    (∀ c, Reached istate (fetched istate data past (fifoLen istate len)) (start istate len) c →
      matches_ (fetched istate data past (fifoLen istate len)) c.i 0x00 0x80 = true →
      ∃ n, demo_handle_wtm_irq_event istate len data past n = some c.events) ↔
    ¬ ∃ j, TwoSlots istate ∧ 12*j+12 ≤ fifoLen istate len ∧
      (∀ k ≤ j, wordAt istate data (12*k) ≠ endWord) ∧
      wordAt istate data (12*j+6) = endWord := by
  have hret := wtm_publishes istate len data past
  have hword := fetched_end istate len data past
  have heven := fifoLen_even istate len
  simp only [hret]
  by_cases two : TwoSlots istate
  · rw [reached_marks istate _ two, not_exists]
    apply forall_congr'
    intro j
    rw [not_and, not_and, not_and, imp_iff_right two]
    apply imp_congr_right
    intro hj
    have hj : 12*j+12 ≤ fifoLen istate len := hj
    have hzero : (start istate len).i = 0 := rfl
    rw [hzero, Nat.zero_add, Ne, hword (12*j+6) (by omega) (by omega)]
    apply imp_congr _ Iff.rfl
    apply forall_congr'
    intro k
    apply imp_congr_right
    intro hk
    rw [Nat.zero_add, Ne, hword (12*k) (by omega) (by omega)]
  · constructor
    · rintro - ⟨j,two',-⟩
      exact two two'
    · intro _ c hc hm
      exact reached_marks_single istate _ two _ c hc hm

/-- A mark at the second slot of the first frame. -/
def markedWords : List (BitVec 16) := [5,6,7,endWord,1,2]

/-- It is published as a sample of the gyroscope. -/
theorem wtm_publishes_mark :
    ¬ ∀ c, Reached exampleInstance (fetched exampleInstance
        (exampleRead (littleEndian markedWords)) (fun _ => 0) 12)
        (start exampleInstance (exampleRead [6,0])) c →
      matches_ (fetched exampleInstance (exampleRead (littleEndian markedWords)) (fun _ => 0) 12)
        c.i 0x00 0x80 = true →
      ∃ n, demo_handle_wtm_irq_event exampleInstance (exampleRead [6,0])
        (exampleRead (littleEndian markedWords)) (fun _ => 0) n = some c.events := by
  intro h
  have hmark := h _ (.second 0 (start exampleInstance (exampleRead [6,0])) rfl (by decide)
    (by decide) ⟨by decide,by decide⟩ (by decide)) (by decide)
  have hall : ∃ n, demo_handle_wtm_irq_event exampleInstance (exampleRead [6,0])
      (exampleRead (littleEndian markedWords)) (fun _ => 0) n =
      some [⟨suids .ACC chip0,5,6,7⟩,⟨suids .GYR chip0,endWord,1,2⟩] := ⟨2,by decide⟩
  have hsame := publishes_unique _ _ ((wtm_publishes _ _ _ _ _).mp hmark)
    ((wtm_publishes _ _ _ _ _).mp hall)
  exact absurd hsame (by decide)

end BaseDrivers.FifoEnd
