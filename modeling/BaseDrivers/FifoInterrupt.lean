import Mathlib.Data.List.Count
import Mathlib.Tactic.SplitIfs
import BaseDrivers.DemoEvents

/-!
# The status bits of an interrupt

The handlers of the status bits are called one after another, and each only
appends to what was done and published before. The watermark bit brings the
parser of the FIFO. The bit of a full FIFO brings a register read of the
accelerometer, as the bit of its data does, and leaves the FIFO as it is.
-/

set_option autoImplicit false

namespace BaseDrivers.FifoInterrupt
open BaseDrivers.Execution BaseDrivers.DemoCommon BaseDrivers.DemoInstance BaseDrivers.DemoFifo
open BaseDrivers.DemoEvents

/-- The chip answers the reads of its FIFO with the frames `fs` and `ends` end
words, and the loop is given the turns for them. -/
structure WellFormed (istate : DemoInstanceState) (n : Notified) (fs : List Frame)
    (ends : ℕ) : Prop where
  total : (fifoWords istate.fifo_enabled fs ends).length < 32768
  length : (word (demo_com_read_wrapper istate.com_port n.fifo_len 0)
    (demo_com_read_wrapper istate.com_port n.fifo_len 1)).toNat =
      (fifoWords istate.fifo_enabled fs ends).length
  data : ∀ j (hj : j < (littleEndian (fifoWords istate.fifo_enabled fs ends)).length),
    demo_com_read_wrapper istate.com_port n.fifo_data j =
      (littleEndian (fifoWords istate.fifo_enabled fs ends))[j]
  turns : fs.length < n.turns

/-- Without a sensor in the FIFO there are only end words, and no samples. -/
theorem wtm_empty (istate : DemoInstanceState) (fs : List Frame) (ends : ℕ) (len data : BusRead)
    (past : Buf) (k : ℕ) (hM : members istate.fifo_enabled = [])
    (hl : fifoLen istate len = 2*(fifoWords istate.fifo_enabled fs ends).length)
    (hu : Under (fetched istate data past (fifoLen istate len)) 0
      (fifoWords istate.fifo_enabled fs ends)) :
    demo_handle_wtm_irq_event istate len data past (k+1) =
      some (fs.flatMap (frameSamples istate)) := by
  have hframe : frameWords istate.fifo_enabled = fun _ => [] := by
    ext1 f
    rw [frameWords, hM]
    rfl
  have hsample : frameSamples istate = fun _ => [] := by
    ext1 f
    rw [frameSamples, hM]
    rfl
  have hwords : fifoWords istate.fifo_enabled fs ends = List.replicate ends endWord := by
    rw [fifoWords, hframe, List.flatMap_eq_nil_iff.mpr (fun _ _ => rfl), List.nil_append]
  rw [hwords] at hu
  rw [hwords, List.length_replicate] at hl
  have hturn : ∃ c, c.events = [] ∧ turn istate (fetched istate data past (fifoLen istate len))
      ⟨0,fifoLen istate len,[],[]⟩ = .inr c := by
    generalize fetched istate data past (fifoLen istate len) = buf at hu ⊢
    cases ends with
    | zero => exact ⟨⟨0,fifoLen istate len,[],[]⟩,rfl,if_pos hl⟩
    | succ ends =>
      have hm : matches_ buf 0 0x00 0x80 = true := by
        rw [matches_word, decide_eq_true_eq, hu.1]
        decide
      refine ⟨Scan.test buf 0x00 ⟨0,fifoLen istate len,[],[]⟩,rfl,?_⟩
      rw [turn, if_neg (show fifoLen istate len ≠ 0 by omega), if_pos hm]
  obtain ⟨c,hc,ht⟩ := hturn
  simp only [demo_handle_wtm_irq_event]
  rw [loop_leave k ht, hsample, List.flatMap_eq_nil_iff.mpr (fun _ _ => rfl), Sum.elim_inr, hc]

theorem wtm_samples (istate : DemoInstanceState) (n : Notified) (fs : List Frame) (ends : ℕ)
    (hw : WellFormed istate n fs ends) :
    demo_handle_wtm_irq_event istate n.fifo_len n.fifo_data n.past n.turns =
      some (fs.flatMap (frameSamples istate)) := by
  have hl := fifoLen_words istate n.fifo_len _ hw.total hw.length
  have hu := fetched_words istate n.fifo_len n.fifo_data n.past _ hl hw.data
  by_cases hM : members istate.fifo_enabled = []
  · obtain ⟨k,hk⟩ := Nat.exists_eq_add_of_lt hw.turns
    rw [hk]
    exact wtm_empty istate fs ends n.fifo_len n.fifo_data n.past (fs.length+k) hM hl hu
  · exact under_decodes istate fs ends n.fifo_len n.fifo_data n.past n.turns hM hl hu hw.turns

/-- A handler appends to the effects and to the reports. -/
structure Adds (es : List Effect) (rs : List Report) (v w : Notice) : Prop where
  istate : w.inst.istate = v.inst.istate
  out : w.inst.out = v.inst.out++es
  reports : w.reports = v.reports++rs

namespace Adds
variable {es es' : List Effect} {rs rs' : List Report} {u v w : Notice}

theorem refl (v : Notice) : Adds [] [] v v :=
  ⟨rfl,(List.append_nil _).symm,(List.append_nil _).symm⟩

theorem trans (huv : Adds es rs u v) (hvw : Adds es' rs' v w) :
    Adds (es++es') (rs++rs') u w where
  istate := hvw.istate.trans huv.istate
  out := by rw [hvw.out, huv.out, List.append_assoc]
  reports := by rw [hvw.reports, huv.reports, List.append_assoc]

theorem when (c : Prop) [Decidable c] (h : Adds es rs v w) :
    Adds (if c then es else []) (if c then rs else []) v (if c then w else v) := by
  split_ifs
  · exact h
  · exact refl v

end Adds

/-- The sample in three registers of a sensor. -/
def registerSample (istate : DemoInstanceState) (s : SensorIdx) (data : BusRead) : Sample :=
  let buffer := demo_com_read_wrapper istate.com_port data
  ⟨(istate.ss_cfgs s).suid,word (buffer 0) (buffer 1),word (buffer 2) (buffer 3),
    word (buffer 4) (buffer 5)⟩

theorem emit_adds (e : Effect) (v : Notice) : Adds [e] [] v (v.emit e) :=
  ⟨rfl,rfl,(List.append_nil _).symm⟩

theorem readSample_adds (s : SensorIdx) (addr : UInt8) (data : BusRead) (v : Notice) :
    Adds [.read addr] [.sample (registerSample v.inst.istate s data)] v
      (readSample s addr data v) :=
  ⟨rfl,rfl,rfl⟩

/-- The second status byte. -/
def statusByte (istate : DemoInstanceState) (n : Notified) : UInt8 :=
  demo_com_read_wrapper istate.com_port n.status 1

/-- What the handlers of the status bits read from the chip. -/
def statusEffects (b : UInt8) : List Effect :=
  [.read DEMO_INT_STATUS_1_ADDR]++(if b &&& 0x20 ≠ 0 then [.read DEMO_ACC_X_ADDR] else [])++
    (if b &&& 0x10 ≠ 0 then [.read DEMO_GYR_X_ADDR] else [])++
    (if b &&& 0x40 ≠ 0 then [.read DEMO_FIFO_LENGTH_ADDR,.read DEMO_FIFO_DATA_ADDR] else [])++
    (if b &&& 0x80 ≠ 0 then [.read DEMO_ACC_X_ADDR] else [])

/-- What they publish where the FIFO holds `samples`. -/
def statusReports (istate : DemoInstanceState) (n : Notified) (samples : List Sample)
    (b : UInt8) : List Report :=
  (if b &&& 0x20 ≠ 0 then [.sample (registerSample istate .ACC n.acc)] else [])++
    (if b &&& 0x10 ≠ 0 then [.sample (registerSample istate .GYR n.gyr)] else [])++
    (if b &&& 0x40 ≠ 0 then samples.map .sample else [])++
    (if b &&& 0x80 ≠ 0 then [.sample (registerSample istate .ACC n.full)] else [])

theorem handle_wtm_adds (n : Notified) (v : Notice) (fs : List Frame) (ends : ℕ)
    (hw : WellFormed v.inst.istate n fs ends) : ∃ w, handle_wtm n v = some w ∧
      Adds [.read DEMO_FIFO_LENGTH_ADDR,.read DEMO_FIFO_DATA_ADDR]
        ((fs.flatMap (frameSamples v.inst.istate)).map .sample) v w := by
  rw [handle_wtm, wtm_samples v.inst.istate n fs ends hw]
  refine ⟨_,rfl,rfl,?_,rfl⟩
  exact List.append_assoc _ _ _

theorem handle_status_adds (n : Notified) (v : Notice) (fs : List Frame) (ends : ℕ)
    (hw : WellFormed v.inst.istate n fs ends) : ∃ w, handle_status n v = some w ∧
      Adds (statusEffects (statusByte v.inst.istate n)) (statusReports v.inst.istate n
        (fs.flatMap (frameSamples v.inst.istate)) (statusByte v.inst.istate n)) v w := by
  let b := statusByte v.inst.istate n
  let v₁ := v.emit (.read DEMO_INT_STATUS_1_ADDR)
  let v₂ := if b &&& 0x20 ≠ 0 then demo_handle_acc_drdy_irq_event n.acc v₁ else v₁
  let v₃ := if b &&& 0x10 ≠ 0 then demo_handle_gyr_drdy_irq_event n.gyr v₂ else v₂
  have h₁ : Adds [.read DEMO_INT_STATUS_1_ADDR] [] v v₁ := emit_adds _ v
  have h₂ := h₁.trans ((readSample_adds .ACC DEMO_ACC_X_ADDR n.acc v₁).when (b &&& 0x20 ≠ 0))
  have h₃ := h₂.trans ((readSample_adds .GYR DEMO_GYR_X_ADDR n.gyr v₂).when (b &&& 0x10 ≠ 0))
  have hw₃ : WellFormed v₃.inst.istate n fs ends := by
    rw [show v₃.inst.istate = v.inst.istate from h₃.istate]
    exact hw
  obtain ⟨w,hwtm,hadds⟩ := handle_wtm_adds n v₃ fs ends hw₃
  let v₄ := if b &&& 0x40 ≠ 0 then w else v₃
  have h₄ := h₃.trans (hadds.when (b &&& 0x40 ≠ 0))
  have h₅ := h₄.trans ((readSample_adds .ACC DEMO_ACC_X_ADDR n.full v₄).when (b &&& 0x80 ≠ 0))
  refine ⟨if b &&& 0x80 ≠ 0 then demo_handle_acc_drdy_irq_event n.full v₄ else v₄,?_,?_⟩
  · show (if b &&& 0x40 ≠ 0 then handle_wtm n v₃ else some v₃).map _ = _
    rw [hwtm, ← apply_ite some]
    rfl
  · rw [show v₃.inst.istate = v.inst.istate from h₃.istate,
      show v₄.inst.istate = v.inst.istate from h₄.istate,
      show v₂.inst.istate = v.inst.istate from h₂.istate] at h₅
    exact h₅

/-- The inputs bring an interrupt to a stream that is there, and the last one
is decoded. -/
def Handled (n : Notified) (v : Notice) : Prop :=
  v.inst.istate.irq_stream = true ∧ eventNum n.irq ≠ 0 ∧ (interrupts n.irq).getLast? = some true

/-- A notification takes the FIFO out once and publishes each of its samples
as often as the FIFO held it. -/
def Delivered (samples : List Sample) (v w : Notice) : Prop :=
  ∃ es rs, w.inst.out = v.inst.out++es ∧ w.reports = v.reports++rs ∧
    es.count (.read DEMO_FIFO_DATA_ADDR) = 1 ∧
    ∀ e ∈ samples, rs.count (.sample e) = samples.count e

theorem adds_delivered {es : List Effect} {rs : List Report} {v w : Notice}
    (h : Adds es rs v w) (samples : List Sample) : Delivered samples v w ↔
      es.count (.read DEMO_FIFO_DATA_ADDR) = 1 ∧
        ∀ e ∈ samples, rs.count (.sample e) = samples.count e := by
  constructor
  · rintro ⟨es',rs',ho,hr,hd⟩
    rw [List.append_cancel_left (h.out.symm.trans ho),
      List.append_cancel_left (h.reports.symm.trans hr)]
    exact hd
  · exact fun hd => ⟨es,rs,h.out,h.reports,hd⟩

theorem statusEffects_count (b : UInt8) :
    (statusEffects b).count (.read DEMO_FIFO_DATA_ADDR) = if b &&& 0x40 ≠ 0 then 1 else 0 := by
  have hread : ∀ addr, addr ≠ DEMO_FIFO_DATA_ADDR → ∀ c : Prop, [Decidable c] →
      (if c then [Effect.read addr] else []).count (.read DEMO_FIFO_DATA_ADDR) = 0 := by
    intro addr ha c _
    split_ifs
    · rw [List.count_singleton, if_neg]
      simpa using ha
    · rfl
  rw [statusEffects, List.count_append, List.count_append, List.count_append, List.count_append,
    hread _ (by decide), hread _ (by decide), hread _ (by decide)]
  split_ifs <;> rfl

/-- Where the register of a bit that is set brings one of the samples, that
sample is published once more. -/
def Distinct (istate : DemoInstanceState) (n : Notified) (samples : List Sample)
    (b : UInt8) : Prop :=
  (b &&& 0x20 ≠ 0 → registerSample istate .ACC n.acc ∉ samples) ∧
  (b &&& 0x10 ≠ 0 → registerSample istate .GYR n.gyr ∉ samples) ∧
  (b &&& 0x80 ≠ 0 → registerSample istate .ACC n.full ∉ samples)

theorem statusReports_count (istate : DemoInstanceState) (n : Notified) (samples : List Sample)
    (b : UInt8) (h40 : b &&& 0x40 ≠ 0) :
    (∀ e ∈ samples, (statusReports istate n samples b).count (.sample e) = samples.count e) ↔
      Distinct istate n samples b := by
  have hone : ∀ (c : Prop) [Decidable c] (r e : Sample),
      (if c then [Report.sample r] else []).count (.sample e) = if c ∧ r = e then 1 else 0 := by
    intro c _ r e
    by_cases hc : c
    · simp [hc, List.count_singleton]
    · simp [hc]
  have hmap : ∀ e, (samples.map Report.sample).count (.sample e) = samples.count e :=
    fun e => List.count_map_of_injective samples _ (fun _ _ h => Report.sample.inj h) e
  have hzero : ∀ (c : Prop) [Decidable c], (if c then 1 else 0) = 0 ↔ ¬ c := by
    intro c _
    split_ifs with hc
    · exact iff_of_false (by decide) (not_not_intro hc)
    · exact iff_of_true rfl hc
  have hnot : ∀ (c : Prop) (r : Sample),
      (c → r ∉ samples) ↔ ∀ e ∈ samples, ¬ (c ∧ r = e) := by
    intro c r
    constructor
    · rintro h e he ⟨hc,rfl⟩
      exact h hc he
    · exact fun h hc hr => h r hr ⟨hc,rfl⟩
  rw [Distinct, hnot, hnot, hnot]
  simp only [← forall_and]
  apply forall_congr'
  intro e
  apply imp_congr_right
  intro he
  rw [statusReports, List.count_append, List.count_append, List.count_append, hone, hone, hone,
    if_pos h40, hmap, ← hzero, ← hzero, ← hzero]
  omega

/-- The loop over the inputs reads nothing from the chip. -/
theorem irq_inputs_add (irq : List IrqInput) (x : Inst) : ∃ es,
    (irq.foldl irq_input x).istate = x.istate ∧ (irq.foldl irq_input x).out = x.out++es ∧
      es.count (.read DEMO_FIFO_DATA_ADDR) = 0 := by
  induction irq generalizing x with
  | nil => exact ⟨[],rfl,(List.append_nil _).symm,rfl⟩
  | cons i irq ih =>
    have hone : ∃ es, (irq_input x i).istate = x.istate ∧ (irq_input x i).out = x.out++es ∧
        es.count (.read DEMO_FIFO_DATA_ADDR) = 0 := by
      cases i with
      | REG_EVENT => exact ⟨[_,_],rfl,List.append_assoc _ _ _,rfl⟩
      | EVENT decodes => exact ⟨[],rfl,(List.append_nil _).symm,rfl⟩
      | other id => exact ⟨[],rfl,(List.append_nil _).symm,rfl⟩
    obtain ⟨es,hi,ho,hc⟩ := hone
    obtain ⟨es',hi',ho',hc'⟩ := ih (irq_input x i)
    refine ⟨es++es',hi'.trans hi,?_,?_⟩
    · rw [List.foldl_cons, ho', ho, List.append_assoc]
    · rw [List.count_append, hc, hc']

/-- What `demo_handle_irq` adds. -/
theorem handle_irq_adds (n : Notified) (v : Notice) (fs : List Frame) (ends : ℕ)
    (hw : WellFormed v.inst.istate n fs ends) : ∃ w k es rs,
      demo_handle_irq n v = some (w,k) ∧ es.count (.read DEMO_FIFO_DATA_ADDR) = 0 ∧
      ((Handled n v ∧ Adds (es++statusEffects (statusByte v.inst.istate n)) rs v w ∧
          rs = statusReports v.inst.istate n (fs.flatMap (frameSamples v.inst.istate))
            (statusByte v.inst.istate n)) ∨
        (¬ Handled n v ∧ Adds es rs v w)) := by
  by_cases hs : v.inst.istate.irq_stream = true
  · obtain ⟨es,hi,ho,hc⟩ := irq_inputs_add n.irq v.inst
    let u : Notice := { v with inst := n.irq.foldl irq_input v.inst }
    have hu : Adds es [] v u := ⟨hi,ho,(List.append_nil _).symm⟩
    by_cases he : eventNum n.irq ≠ 0 ∧ (interrupts n.irq).getLast? = some true
    · have hwu : WellFormed u.inst.istate n fs ends := by
        rw [hu.istate]
        exact hw
      obtain ⟨w,hst,ha⟩ := handle_status_adds n u fs ends hwu
      rw [hu.istate] at ha
      refine ⟨w,eventNum n.irq,es,_,?_,hc,.inl ⟨⟨hs,he⟩,hu.trans ha,rfl⟩⟩
      rw [demo_handle_irq, hs]
      simp only [Bool.not_true, Bool.false_eq_true, if_false]
      rw [if_pos he, show handle_status n _ = some w from hst]
      rfl
    · refine ⟨u,eventNum n.irq,es,[],?_,hc,.inr ⟨fun h => he h.2,hu⟩⟩
      rw [demo_handle_irq, hs]
      simp only [Bool.not_true, Bool.false_eq_true, if_false]
      rw [if_neg he]
  · refine ⟨v,0,[],[],?_,rfl,.inr ⟨fun h => hs h.1,.refl v⟩⟩
    rw [demo_handle_irq, if_pos]
    simpa using hs

/-- A watermark or a full FIFO is drained once and its samples delivered,
exactly where the bit of the full FIFO comes with that of the watermark and,
where that one is set, the interrupt is handled and no register read brings a
sample of the FIFO again. -/
theorem irq_delivers_iff (n : Notified) (v : Notice) (fs : List Frame) (ends : ℕ)
    (hw : WellFormed v.inst.istate n fs ends) :
    (statusByte v.inst.istate n &&& 0x40 ≠ 0 ∨ statusByte v.inst.istate n &&& 0x80 ≠ 0 →
      ∃ w k, demo_handle_irq n v = some (w,k) ∧
        Delivered (fs.flatMap (frameSamples v.inst.istate)) v w) ↔
    (statusByte v.inst.istate n &&& 0x80 ≠ 0 → statusByte v.inst.istate n &&& 0x40 ≠ 0) ∧
    (statusByte v.inst.istate n &&& 0x40 ≠ 0 → Handled n v ∧ Distinct v.inst.istate n
      (fs.flatMap (frameSamples v.inst.istate)) (statusByte v.inst.istate n)) := by
  have hd : (∃ w k, demo_handle_irq n v = some (w,k) ∧
      Delivered (fs.flatMap (frameSamples v.inst.istate)) v w) ↔
      Handled n v ∧ statusByte v.inst.istate n &&& 0x40 ≠ 0 ∧ Distinct v.inst.istate n
        (fs.flatMap (frameSamples v.inst.istate)) (statusByte v.inst.istate n) := by
    obtain ⟨w,k,es,rs,hr,hes,hadds⟩ := handle_irq_adds n v fs ends hw
    have hret : (∃ w k, demo_handle_irq n v = some (w,k) ∧
        Delivered (fs.flatMap (frameSamples v.inst.istate)) v w) ↔
        Delivered (fs.flatMap (frameSamples v.inst.istate)) v w := by
      simp [hr]
    rw [hret]
    rcases hadds with ⟨hh,ha,hrs⟩ | ⟨hh,ha⟩
    · rw [adds_delivered ha, List.count_append, hes, statusEffects_count, and_iff_right hh]
      by_cases h40 : statusByte v.inst.istate n &&& 0x40 ≠ 0
      · rw [if_pos h40, hrs, statusReports_count _ _ _ _ h40]
        simp [h40]
      · rw [if_neg h40]
        simp [h40]
    · rw [adds_delivered ha, hes]
      simp [hh]
  rw [hd]
  tauto

/-- An interrupt with the given second status byte, over two frames. -/
def exampleNotified (b : UInt8) : Notified where
  irq := [.EVENT true]
  timer _ := []
  status := exampleRead [0,b]
  acc := exampleRead [1,0,2,0,3,0]
  gyr := exampleRead [4,0,5,0,6,0]
  fifo_len := exampleRead [14,0]
  fifo_data := exampleRead (littleEndian (fifoWords 0b11 exampleFrames 2))
  past _ := 0
  turns := 3
  full := exampleRead [7,0,8,0,9,0]
  is_level_trig _ := false

theorem example_wellFormed (b : UInt8) :
    WellFormed exampleInstance (exampleNotified b) exampleFrames 2 := by
  have h : WellFormed exampleInstance (exampleNotified 0) exampleFrames 2 :=
    ⟨by decide,by decide,by decide,by decide⟩
  exact ⟨h.total,h.length,h.data,h.turns⟩

/-- With all five bits set the FIFO is drained and delivered once. -/
theorem irq_delivers_all : ∃ w k, demo_handle_irq (exampleNotified 0xF0) ⟨⟨exampleInstance,[]⟩,[]⟩ =
    some (w,k) ∧ Delivered (exampleFrames.flatMap (frameSamples exampleInstance))
      ⟨⟨exampleInstance,[]⟩,[]⟩ w :=
  (irq_delivers_iff (exampleNotified 0xF0) ⟨⟨exampleInstance,[]⟩,[]⟩ exampleFrames 2
    (example_wellFormed 0xF0)).mpr
    ⟨fun _ => by decide,fun _ => ⟨⟨by decide,by decide,by decide⟩,fun _ => by decide,
      fun _ => by decide,fun _ => by decide⟩⟩ (.inl (by decide))

/-- With only the bit of the full FIFO the accelerometer is read instead. -/
theorem fifo_full_not_drained : WellFormed exampleInstance (exampleNotified 0x80) exampleFrames 2 ∧
    statusByte exampleInstance (exampleNotified 0x80) &&& 0x80 ≠ 0 ∧
    ¬ ∃ w k, demo_handle_irq (exampleNotified 0x80) ⟨⟨exampleInstance,[]⟩,[]⟩ = some (w,k) ∧
      Delivered (exampleFrames.flatMap (frameSamples exampleInstance))
        ⟨⟨exampleInstance,[]⟩,[]⟩ w := by
  refine ⟨example_wellFormed 0x80,by decide,?_⟩
  rintro ⟨w,k,h,es,rs,ho,-,hc,-⟩
  have hout : (demo_handle_irq (exampleNotified 0x80) ⟨⟨exampleInstance,[]⟩,[]⟩).map
      (fun r => r.1.inst.out) = some [.read DEMO_INT_STATUS_1_ADDR,.read DEMO_ACC_X_ADDR] := rfl
  rw [h] at hout
  have hes : es = [.read DEMO_INT_STATUS_1_ADDR,.read DEMO_ACC_X_ADDR] :=
    ho.symm.trans (Option.some.inj hout)
  rw [hes] at hc
  exact absurd hc (by decide)

end BaseDrivers.FifoInterrupt
