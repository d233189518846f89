import Mathlib.Tactic.SplitIfs
import BaseDrivers.DemoEvents
import BaseDrivers.FlushAnswers
import BaseDrivers.PollingTimers

/-!
# The FIFO mask and the register behind it

The mask of the sensors in the FIFO only grows, while the register is
rewritten from the enabled sensors. The two agree because both stay within
the enabled sensors, which only grow too. No other call touches either.
-/

set_option autoImplicit false

namespace BaseDrivers.FifoMask
open BaseDrivers.Execution BaseDrivers.DemoCommon BaseDrivers.DemoInstance BaseDrivers.DemoFifo
open BaseDrivers.DemoEvents BaseDrivers.InstanceFrame
open BaseDrivers.DemoSensor (workingEnv bootCommon)
open BaseDrivers.PollingTimers hiding exampleInst

/-- One write as the register sees it; of two bytes it keeps the high one. -/
def latch (high : UInt8) : Effect → UInt8
  | .write addr bytes => if addr = DEMO_FIFO_CONF_ADDR then bytes.getD 1 0 else high
  | _ => high

/-- The high byte of the FIFO configuration after all writes. It is zero
after a reset. -/
def confHigh (out : List Effect) : UInt8 := out.foldl latch 0

/-- The sensors whose frames the chip stores. -/
def chipMask (high : UInt8) : SensorType :=
  (if high &&& 0x02 ≠ 0 then DEMO_ACCEL else 0) ||| (if high &&& 0x04 ≠ 0 then DEMO_GYRO else 0)

/-- The mask of the instance is that of the chip and within the enabled
sensors. -/
structure Masked (x : Inst) : Prop where
  acc : has x.istate.fifo_enabled .ACC = true ↔ confHigh x.out &&& 0x02 ≠ 0
  gyr : has x.istate.fifo_enabled .GYR = true ↔ confHigh x.out &&& 0x04 ≠ 0
  acc_enabled : has x.istate.fifo_enabled .ACC = true → has x.istate.sensor_enabled .ACC = true
  gyr_enabled : has x.istate.fifo_enabled .GYR = true → has x.istate.sensor_enabled .GYR = true

/-- Effects other than a write of the FIFO configuration. -/
def Elsewhere : Effect → Prop
  | .write addr _ => addr ≠ DEMO_FIFO_CONF_ADDR
  | _ => True

theorem latch_elsewhere {e : Effect} (he : Elsewhere e) (high : UInt8) : latch high e = high := by
  cases e with
  | write addr bytes => exact if_neg he
  | _ => rfl

theorem confHigh_emit {e : Effect} (he : Elsewhere e) (x : Inst) :
    confHigh (x.emit e).out = confHigh x.out := by
  rw [Inst.emit, confHigh, List.foldl_append]
  exact latch_elsewhere he _

theorem confHigh_conf (bytes : List UInt8) (x : Inst) :
    confHigh (x.emit (.write DEMO_FIFO_CONF_ADDR bytes)).out = bytes.getD 1 0 := by
  rw [Inst.emit, confHigh, List.foldl_append]
  rfl

theorem chipMask_acc (high : UInt8) :
    has (chipMask high) .ACC = true ↔ high &&& 0x02 ≠ 0 := by
  rw [chipMask, has_or]
  split_ifs with ha hg <;> simp [ha, DEMO_ACCEL, DEMO_GYRO]

theorem chipMask_gyr (high : UInt8) :
    has (chipMask high) .GYR = true ↔ high &&& 0x04 ≠ 0 := by
  rw [chipMask, has_or]
  split_ifs with ha hg hg <;> simp [hg, DEMO_ACCEL, DEMO_GYRO]

/-- The chip stores its frames in the layout of the mask. -/
theorem masked_layout {x : Inst} (h : Masked x) (fs : List DemoFifo.Frame) (ends : ℕ) :
    fifoWords x.istate.fifo_enabled fs ends = fifoWords (chipMask (confHigh x.out)) fs ends := by
  have hm : members x.istate.fifo_enabled = members (chipMask (confHigh x.out)) := by
    apply List.filter_congr
    intro s hs
    rw [Bool.eq_iff_iff]
    rcases List.mem_pair.mp hs with rfl | rfl
    · exact h.acc.trans (chipMask_acc _).symm
    · exact h.gyr.trans (chipMask_gyr _).symm
  have hw : frameWords x.istate.fifo_enabled = frameWords (chipMask (confHigh x.out)) := by
    ext1 f
    rw [frameWords, frameWords, hm]
  rw [fifoWords, fifoWords, hw]

/-- What configuring the FIFO does to the mask and the register. -/
structure Rewritten (x y : Inst) : Prop where
  enabled : y.istate.sensor_enabled = x.istate.sensor_enabled
  acc : has y.istate.fifo_enabled .ACC =
    (has x.istate.fifo_enabled .ACC || has x.istate.sensor_enabled .ACC)
  gyr : has y.istate.fifo_enabled .GYR =
    (has x.istate.fifo_enabled .GYR || has x.istate.sensor_enabled .GYR)
  acc_conf : confHigh y.out &&& 0x02 ≠ 0 ↔ has x.istate.sensor_enabled .ACC = true
  gyr_conf : confHigh y.out &&& 0x04 ≠ 0 ↔ has x.istate.sensor_enabled .GYR = true

theorem config_fifo_rewrites (x : Inst) : Rewritten x (demo_config_fifo x) := by
  have hconf : confHigh (demo_config_fifo x).out =
      (if has x.istate.sensor_enabled .ACC then 0x02 else 0x00) |||
        (if has x.istate.sensor_enabled .GYR then 0x04 else 0x00) := confHigh_conf _ _
  constructor
  · exact (config_fifo_frame 0 (.refl _ x)).enabled
  · cases ha : has x.istate.sensor_enabled .ACC <;> cases hg : has x.istate.sensor_enabled .GYR <;>
      simp [demo_config_fifo, Inst.emit, ha, hg, DEMO_ACCEL, DEMO_GYRO]
  · cases ha : has x.istate.sensor_enabled .ACC <;> cases hg : has x.istate.sensor_enabled .GYR <;>
      simp [demo_config_fifo, Inst.emit, ha, hg, DEMO_ACCEL, DEMO_GYRO]
  · rw [hconf]
    cases has x.istate.sensor_enabled .ACC <;> cases has x.istate.sensor_enabled .GYR <;> decide
  · rw [hconf]
    cases has x.istate.sensor_enabled .ACC <;> cases has x.istate.sensor_enabled .GYR <;> decide

namespace Masked
variable {x : Inst}

theorem emit (h : Masked x) {e : Effect} (he : Elsewhere e) : Masked (x.emit e) := by
  have hc := confHigh_emit he x
  constructor
  · rw [hc]
    exact h.acc
  · rw [hc]
    exact h.gyr
  · exact h.acc_enabled
  · exact h.gyr_enabled

theorem write (h : Masked x) {addr : UInt8} (ha : addr ≠ DEMO_FIFO_CONF_ADDR)
    (bytes : List UInt8) : Masked (x.emit (.write addr bytes)) := h.emit ha

theorem setCfg (h : Masked x) (s : SensorIdx) (c : DemoSsCfg) : Masked (x.setCfg s c) :=
  ⟨h.acc,h.gyr,h.acc_enabled,h.gyr_enabled⟩

/-- Enabling a sensor keeps the mask within the enabled ones. -/
theorem enable (h : Masked x) (s : SensorIdx) :
    Masked { x with istate.sensor_enabled := x.istate.sensor_enabled ||| sensorType s } := by
  constructor
  · exact h.acc
  · exact h.gyr
  · intro ha
    rw [has_or, h.acc_enabled ha, Bool.true_or]
  · intro hg
    rw [has_or, h.gyr_enabled hg, Bool.true_or]

/-- The mask grows to the enabled sensors, and the register is set to them. -/
theorem config_fifo (h : Masked x) : Masked (demo_config_fifo x) := by
  have hr := config_fifo_rewrites x
  constructor
  · rw [hr.acc, hr.acc_conf, Bool.or_eq_true]
    exact or_iff_right_of_imp h.acc_enabled
  · rw [hr.gyr, hr.gyr_conf, Bool.or_eq_true]
    exact or_iff_right_of_imp h.gyr_enabled
  · rw [hr.acc, hr.enabled, Bool.or_eq_true]
    exact fun ha => ha.elim h.acc_enabled id
  · rw [hr.gyr, hr.enabled, Bool.or_eq_true]
    exact fun hg => hg.elim h.gyr_enabled id

end Masked

section Config
variable (env : Env) (pf_cfg : PfCfg) {x : Inst}

theorem polling_timer_masked (s : SensorIdx) (h : Masked x) :
    Masked (demo_start_sensor_polling_timer env s x) := by
  simp only [demo_start_sensor_polling_timer]
  split_ifs
  · exact (h.emit (by trivial)).setCfg _ _
  · exact (((h.emit (by trivial)).setCfg _ _).emit (by trivial)).setCfg _ _
  · exact h
  · exact (h.emit (by trivial)).setCfg _ _

theorem polling_config_masked (s : SensorIdx) (h : Masked x) :
    Masked (demo_set_sensor_polling_config env s x) := by
  simp only [demo_set_sensor_polling_config]
  split_ifs
  · exact polling_timer_masked env s (h.setCfg _ _)
  · exact h
  · exact (h.setCfg _ _).emit (by trivial)
  · exact h.setCfg _ _
  · exact h

theorem config_imu_masked (s : SensorIdx) {addr : UInt8} (ha : addr ≠ DEMO_FIFO_CONF_ADDR)
    (h : Masked x) : Masked (config_imu env pf_cfg s addr x) := by
  simp only [config_imu]
  split_ifs
  · exact ((h.emit (by trivial)).setCfg _ _).config_fifo.write ha _
  · exact polling_config_masked env s (((h.emit (by trivial)).setCfg _ _).write ha _)

theorem config_temp_masked (h : Masked x) : Masked (config_temp env pf_cfg x) := by
  simp only [config_temp]
  split_ifs
  · exact h.setCfg _ _
  · exact polling_config_masked env .TEMP (h.setCfg _ _)

theorem stage_masked (t : SensorIdx) (h : Masked x) : Masked (stage env pf_cfg t x) := by
  rw [stage]
  split_ifs
  · cases t with
    | ACC => exact config_imu_masked env pf_cfg .ACC (by decide) h
    | GYR => exact config_imu_masked env pf_cfg .GYR (by decide) h
    | MOTION => exact h
    | TEMP => exact config_temp_masked env pf_cfg h
  · exact h

theorem register_interrupt_masked (ss_cfg : SsCfg) (h : Masked x) :
    Masked (demo_hal_register_interrupt env ss_cfg x) := by
  simp only [demo_hal_register_interrupt]
  split_ifs
  · exact h
  · exact h
  · exact ⟨(h.emit (by trivial)).acc,(h.emit (by trivial)).gyr,h.acc_enabled,h.gyr_enabled⟩
  · exact h

theorem emits_masked (es : List Effect) (he : ∀ e ∈ es, Elsewhere e) (h : Masked x) :
    Masked { x with out := x.out++es } := by
  induction es generalizing x with
  | nil => rwa [List.append_nil]
  | cons e es ih =>
    have hn := ih (fun f hf => he f (List.mem_cons_of_mem e hf)) (h.emit (he e List.mem_cons_self))
    rwa [Inst.emit, List.append_assoc] at hn

theorem send_config_masked (h : Masked x) : Masked (demo_send_config_event x) := by
  rw [send_config_out]
  apply emits_masked _ _ h
  intro e he
  obtain ⟨s,-,rfl⟩ := List.mem_map.mp he
  trivial

theorem sensor_config_masked (ss_cfg : SsCfg) (s : SensorIdx) (h : Masked x) :
    Masked (sensor_config env pf_cfg ss_cfg s x) := by
  have hs := send_config_masked (register_interrupt_masked env ss_cfg (h.enable s))
  rw [sensor_config, config_hw_stages]
  exact stage_masked env pf_cfg .TEMP (stage_masked env pf_cfg .GYR
    (stage_masked env pf_cfg .ACC hs))

theorem flush_req_masked (flush_sensor : SensorType) (h : Masked x) :
    Masked (flush_req flush_sensor x) := by
  have hf : ∀ (y : Inst) (m : SensorType), Masked y →
      Masked { y with istate.flushing_sensors := m } :=
    fun y m hy => ⟨hy.acc,hy.gyr,hy.acc_enabled,hy.gyr_enabled⟩
  simp only [flush_req, FlushAnswers.send_flush_done_eq]
  split_ifs
  · exact hf _ _ h
  · exact hf _ _ ((hf _ _ h).emit (by trivial))
  · exact hf _ _ (hf _ _ h)

theorem set_config_masked (ss_cfgs : SensorIdx → SsCfg) (r : ConfigRequest) (h : Masked x) :
    Masked (demo_instance_set_client_config env pf_cfg ss_cfgs r x) := by
  have hon := h.emit (e := .bus_power true) (by trivial)
  cases r with
  | FLUSH_REQ m => exact (flush_req_masked m hon).emit (by trivial)
  | SENSOR_CONFIG s => exact (sensor_config_masked env pf_cfg (ss_cfgs s) s hon).emit (by trivial)
  | CAL_RESET => exact hon.emit (by trivial)
  | PHYSICAL_SENSOR_TEST_CONFIG => exact hon.emit (by trivial)
  | other id => exact hon.emit (by trivial)

end Config

section Events
variable (n : Notified) {v : Notice}

theorem read_sample_masked (s : SensorIdx) (addr : UInt8) (data : BusRead) (h : Masked v.inst) :
    Masked (readSample s addr data v).inst := h.emit (by trivial)

theorem polling_event_masked (data : BusRead) (s : SensorIdx) (h : Masked v.inst) :
    Masked (demo_handle_polling_timer_event data v s).inst := by
  cases s with
  | MOTION => exact h
  | _ => exact h.emit (by trivial)

theorem handle_wtm_masked (h : Masked v.inst) {u : Notice} (hu : handle_wtm n v = some u) :
    Masked u.inst := by
  obtain ⟨events,-,rfl⟩ := Option.map_eq_some_iff.mp hu
  exact (h.emit (by trivial)).emit (by trivial)

theorem handle_status_masked (h : Masked v.inst) {u : Notice} (hu : handle_status n v = some u) :
    Masked u.inst := by
  have hdrdy : ∀ (c : Prop) [Decidable c] (s : SensorIdx) (addr : UInt8) (data : BusRead)
      (w : Notice), Masked w.inst → Masked (if c then readSample s addr data w else w).inst := by
    intro c _ s addr data w hw
    split_ifs
    · exact read_sample_masked s addr data hw
    · exact hw
  have hwtm : ∀ (c : Prop) [Decidable c] (w w' : Notice), Masked w.inst →
      (if c then handle_wtm n w else some w) = some w' → Masked w'.inst := by
    intro c _ w w' hw hw'
    split_ifs at hw'
    · exact handle_wtm_masked n hw hw'
    · exact Option.some.inj hw' ▸ hw
  have hs : Masked (v.emit (.read DEMO_INT_STATUS_1_ADDR)).inst := h.emit (by trivial)
  obtain ⟨w,hw,rfl⟩ := Option.map_eq_some_iff.mp hu
  exact hdrdy _ .ACC _ n.full w (hwtm _ _ w
    (hdrdy _ .GYR DEMO_GYR_X_ADDR n.gyr _ (hdrdy _ .ACC DEMO_ACC_X_ADDR n.acc _ hs)) hw)

theorem irq_inputs_masked (irq : List IrqInput) {x : Inst} (h : Masked x) :
    Masked (irq.foldl irq_input x) := by
  induction irq generalizing x with
  | nil => exact h
  | cons i irq ih =>
    apply ih
    cases i with
    | REG_EVENT => exact (h.write (by decide) _).write (by decide) _
    | EVENT decodes => exact h
    | other id => exact h

theorem process_irq_masked (h : Masked v.inst) {u : Notice}
    (hu : demo_instance_process_irq_event n v = some u) : Masked u.inst := by
  obtain ⟨⟨w,event_num⟩,hw,rfl⟩ := Option.map_eq_some_iff.mp hu
  have hclear : Masked w.inst →
      Masked (if event_num ≠ 0 then demo_clear_irq n w else w).inst := by
    intro h
    rw [demo_clear_irq]
    split_ifs <;> exact h
  apply hclear
  simp only [demo_handle_irq] at hw
  have hi := irq_inputs_masked n.irq h
  split_ifs at hw
  · exact (Prod.mk.inj (Option.some.inj hw)).1 ▸ h
  · obtain ⟨w',hw',he⟩ := Option.map_eq_some_iff.mp hw
    rw [← (Prod.mk.inj he).1]
    exact handle_status_masked n hi hw'
  · rw [← (Prod.mk.inj (Option.some.inj hw)).1]
    exact hi

theorem timer_inputs_masked (s : SensorIdx) (inputs : List TimerInput) (h : Masked v.inst) :
    Masked (inputs.foldl (timer_input s) v).inst := by
  induction inputs generalizing v with
  | nil => exact h
  | cons i inputs ih =>
    apply ih
    cases i with
    | SENSOR_EVENT decodes data =>
      simp only [timer_input]
      split_ifs
      · exact polling_event_masked data s h
      · exact h
    | _ => exact h

theorem process_timer_masked (h : Masked v.inst) :
    Masked (demo_instance_process_timer_event n v).inst := by
  have hfold : ∀ (ss : List SensorIdx) (w : Notice), Masked w.inst →
      Masked (ss.foldl (fun v s =>
        if (v.inst.cfg s).timer_stream then (n.timer s).foldl (timer_input s) v else v) w).inst := by
    intro ss
    induction ss with
    | nil => exact fun w hw => hw
    | cons s ss ih =>
      intro w hw
      apply ih
      beta_reduce
      split_ifs
      · exact timer_inputs_masked s (n.timer s) hw
      · exact hw
  exact hfold SensorIdx.all v h

theorem notify_event_masked {x : Inst} (h : Masked x) {u : Notice}
    (hu : demo_instance_notify_event n x = some u) : Masked u.inst := by
  obtain ⟨v,hv,rfl⟩ := Option.map_eq_some_iff.mp hu
  have hon : Masked (x.emit (.bus_power true)) := h.emit (by trivial)
  exact (process_timer_masked n (process_irq_masked n hon hv)).emit (by trivial)

end Events

section Runs

/-- The calls of the framework on one instance. -/
inductive Call where
  | config (r : Requested)
  | flush (env : Env) (pf_cfg : PfCfg) (ss_cfgs : SensorIdx → SsCfg) (flush_sensor : SensorType)
  | notify (n : Notified)

/-- The instance after a call that is completed. -/
def call (x : Inst) : Call → Option Inst
  | .config r => some (request x r)
  | .flush env pf_cfg ss_cfgs flush_sensor =>
    some (demo_instance_set_client_config env pf_cfg ss_cfgs (.FLUSH_REQ flush_sensor) x)
  | .notify n => (demo_instance_notify_event n x).map Notice.inst

theorem call_masked (x : Inst) (c : Call) (y : Inst) (h : Masked x) (hy : call x c = some y) :
    Masked y := by
  cases c with
  | config r =>
    rw [← Option.some.inj hy]
    exact set_config_masked r.env r.pf_cfg r.ss_cfgs _ (h.setCfg _ _)
  | flush env pf_cfg ss_cfgs flush_sensor =>
    rw [← Option.some.inj hy]
    exact set_config_masked env pf_cfg ss_cfgs _ h
  | notify n =>
    obtain ⟨u,hu,rfl⟩ := Option.map_eq_some_iff.mp hy
    exact notify_event_masked n h hu

theorem init_keeps_masked (env : Env) : InitKeeps env Masked where
  poll y s h := by
    rw [createPoll]
    split_ifs
    · exact (h.emit (by trivial)).setCfg _ _
    · exact h
  stream y st h := by
    rw [createStream]
    split_ifs
    · exact h.emit (by trivial)
    · exact h
  streams y a b c h := ⟨h.acc,h.gyr,h.acc_enabled,h.gyr_enabled⟩
  port y c h := by
    have he := h.emit (e := .register_port c) (by trivial)
    exact ⟨he.acc,he.gyr,he.acc_enabled,he.gyr_enabled⟩
  connect y c h := ((h.emit (by trivial)).emit (by trivial)).emit (by trivial)
  reset y h := by
    have hcmd : DEMO_CMD_ADDR ≠ DEMO_FIFO_CONF_ADDR := by decide
    have he := h.write hcmd [0xAF,0xDE]
    rw [demo_hal_reset_device]
    split_ifs
    · exact ⟨he.acc,he.gyr,he.acc_enabled,he.gyr_enabled⟩
    · exact h

theorem instance_init_masked (env : Env) (hw_idx : Fin 2) (common : CommonState)
    (ss_cfgs : SensorIdx → SsCfg) {x : Inst}
    (h : demo_instance_init env hw_idx common ss_cfgs = (true,x)) : Masked x := by
  have h0 : Masked ⟨initialState hw_idx common ss_cfgs,[]⟩ := by
    constructor <;> simp [initialState, confHigh]
  exact init_successful (init_keeps_masked env) h0 h

/-- After every completed call of every run the FIFO mask of the instance is
that of the last configuration the chip was given, and within the enabled
sensors; so the frames are taken apart in the layout in which the chip
stores them. -/
theorem fifo_mask_matches (env : Env) (hw_idx : Fin 2) (common : CommonState)
    (ss_cfgs : SensorIdx → SsCfg) (x : Inst)
    (hinit : demo_instance_init env hw_idx common ss_cfgs = (true,x)) (cs : List Call) (y : Inst)
    (hrun : cs.foldlM call x = some y) :
    Masked y ∧ ∀ (fs : List DemoFifo.Frame) (ends : ℕ),
      fifoWords y.istate.fifo_enabled fs ends = fifoWords (chipMask (confHigh y.out)) fs ends := by
  have hy := foldlM_keeps Masked call_masked
    (instance_init_masked env hw_idx common ss_cfgs hinit) hrun
  exact ⟨hy,masked_layout hy⟩

/-- An instance whose sensors all have interrupt lines. -/
def exampleInst : Inst :=
  (demo_instance_init (workingEnv 0 0) chip0 bootCommon (fun _ => ⟨true,0,0,false⟩)).2

def exampleCalls : List Call :=
  [.config (exampleRequest .GYR),
    .flush (workingEnv 0 0) bootCommon.pf_cfg (fun _ => ⟨true,0,0,false⟩) DEMO_ACCEL]

def exampleAfter : Inst :=
  demo_instance_set_client_config (workingEnv 0 0) bootCommon.pf_cfg (fun _ => ⟨true,0,0,false⟩)
    (.FLUSH_REQ DEMO_ACCEL) (request exampleInst (exampleRequest .GYR))

theorem fifo_mask_matches_gyr : Masked exampleAfter ∧ ∀ (fs : List DemoFifo.Frame) (ends : ℕ),
    fifoWords exampleAfter.istate.fifo_enabled fs ends =
      fifoWords (chipMask (confHigh exampleAfter.out)) fs ends :=
  fifo_mask_matches (workingEnv 0 0) chip0 bootCommon (fun _ => ⟨true,0,0,false⟩) exampleInst rfl
    exampleCalls exampleAfter rfl

end Runs

end BaseDrivers.FifoMask
