import Mathlib.Tactic.SplitIfs
import BaseDrivers.PollingTimers

/-!
# What a configuration request makes of an instance

A setup is what the arbitration, the chip rates and the FIFO depend on: the
enabled sensors, those in the FIFO, those with an interrupt line, and two
rates for each. A request acts on the setup of an instance alone; the bus,
the timers and the framework do not come into it.
-/

set_option autoImplicit false

namespace BaseDrivers.InstanceSetup
open BaseDrivers.Execution BaseDrivers.DemoCommon BaseDrivers.DemoInstance BaseDrivers.DemoSensor
open BaseDrivers.InstanceFrame BaseDrivers.PollingTimers

/-- The sensors whose data can go through the FIFO. -/
def imu : SensorIdx → Bool
  | .ACC => true
  | .GYR => true
  | _ => false

@[ext] structure Setup where
  enabled : SensorIdx → Bool
  fifo : SensorIdx → Bool
  is_dri : SensorIdx → Bool
  sample_rate : SensorIdx → ℚ
  report_rate : SensorIdx → ℚ

def setup (x : Inst) : Setup where
  enabled := has x.istate.sensor_enabled
  fifo := has x.istate.fifo_enabled
  is_dri s := (x.cfg s).ss_cfg.is_dri
  sample_rate s := (x.cfg s).sample_rate
  report_rate s := (x.cfg s).report_rate

namespace Setup

def enable (s : SensorIdx) (u : Setup) : Setup :=
  { u with enabled := fun t => u.enabled t || decide (s = t) }

def setRates (s : SensorIdx) (sample_rate report_rate : ℚ) (u : Setup) : Setup :=
  { u with
    sample_rate := fun t => if t = s then sample_rate else u.sample_rate t
    report_rate := fun t => if t = s then report_rate else u.report_rate t }

/-- All enabled sensors go into the FIFO, with and without an interrupt line. -/
def fillFifo (u : Setup) : Setup := { u with fifo := fun s => u.fifo s || (imu s && u.enabled s) }

def roundRate (env : Env) (pf_cfg : PfCfg) (t : SensorIdx) (u : Setup) : Setup :=
  u.setRates t (demo_compute_odr env (clampRate pf_cfg (u.sample_rate t))).2 (u.report_rate t)

/-- The configuration of one sensor. -/
def configure (env : Env) (pf_cfg : PfCfg) (t : SensorIdx) (u : Setup) : Setup :=
  if u.enabled t && t != .MOTION then
    if imu t && u.is_dri t then (u.roundRate env pf_cfg t).fillFifo else u.roundRate env pf_cfg t
  else u

def request (u : Setup) (r : Requested) : Setup :=
  (((u.setRates r.sensor r.chosen.sample_rate r.chosen.report_rate).enable r.sensor).configure
    r.env r.pf_cfg .ACC |>.configure r.env r.pf_cfg .GYR).configure r.env r.pf_cfg .TEMP

end Setup

section Request
variable (env : Env) (pf_cfg : PfCfg) (u : Setup) (r : Requested) (s t : SensorIdx)

theorem configure_enabled : (u.configure env pf_cfg t).enabled = u.enabled := by
  rw [Setup.configure]
  split_ifs <;> rfl

theorem configure_is_dri : (u.configure env pf_cfg t).is_dri = u.is_dri := by
  rw [Setup.configure]
  split_ifs <;> rfl

theorem roundRate_report : (u.roundRate env pf_cfg t).report_rate = u.report_rate := by
  funext s
  show (if s = t then u.report_rate t else u.report_rate s) = u.report_rate s
  split_ifs with hst
  · rw [hst]
  · rfl

theorem configure_report : (u.configure env pf_cfg t).report_rate = u.report_rate := by
  rw [Setup.configure]
  split_ifs
  · exact roundRate_report env pf_cfg u t
  · exact roundRate_report env pf_cfg u t
  · rfl

theorem configure_sample (h : s = t → u.enabled t = true → t = .MOTION) :
    (u.configure env pf_cfg t).sample_rate s = u.sample_rate s := by
  by_cases hst : s = t
  · rw [Setup.configure, if_neg]
    simpa using h hst
  · rw [Setup.configure]
    split_ifs
    · exact if_neg hst
    · exact if_neg hst
    · rfl

theorem configure_sample_own (he : u.enabled s = true) (hs : s ≠ .MOTION) :
    (u.configure env pf_cfg s).sample_rate s =
      (demo_compute_odr env (clampRate pf_cfg (u.sample_rate s))).2 := by
  rw [Setup.configure, if_pos (by simp [he, hs])]
  split_ifs
  · exact if_pos rfl
  · exact if_pos rfl

theorem configure_fifo : (u.configure env pf_cfg t).fifo s =
    (u.fifo s || (imu s && u.enabled s && (imu t && u.enabled t && u.is_dri t))) := by
  rw [Setup.configure]
  cases he : u.enabled t <;> cases hd : u.is_dri t <;> cases t <;>
    simp [imu, Setup.fillFifo, Setup.roundRate, Setup.setRates]

theorem request_enabled : (u.request r).enabled s = (u.enabled s || decide (r.sensor = s)) := by
  rw [Setup.request, configure_enabled, configure_enabled, configure_enabled]
  rfl

theorem request_is_dri : (u.request r).is_dri = u.is_dri := by
  rw [Setup.request, configure_is_dri, configure_is_dri, configure_is_dri]
  rfl

theorem request_report : (u.request r).report_rate s =
    if s = r.sensor then r.chosen.report_rate else u.report_rate s := by
  rw [Setup.request, configure_report, configure_report, configure_report]
  rfl

/-- The rate of an enabled sensor is rounded to one of the chip, be it a new
rate or the one of before. -/
theorem request_sample (hs : s ≠ .MOTION) (he : (u.request r).enabled s = true) :
    (u.request r).sample_rate s = (demo_compute_odr r.env (clampRate r.pf_cfg
      (if s = r.sensor then r.chosen.sample_rate else u.sample_rate s))).2 := by
  rw [Setup.request, configure_enabled, configure_enabled, configure_enabled] at he
  rw [Setup.request]
  cases s with
  | ACC =>
    rw [configure_sample r.env r.pf_cfg _ .ACC .TEMP (fun h => by cases h),
      configure_sample r.env r.pf_cfg _ .ACC .GYR (fun h => by cases h),
      configure_sample_own r.env r.pf_cfg _ .ACC he hs]
    rfl
  | GYR =>
    rw [configure_sample r.env r.pf_cfg _ .GYR .TEMP (fun h => by cases h),
      configure_sample_own r.env r.pf_cfg _ .GYR (by rw [configure_enabled]; exact he) hs,
      configure_sample r.env r.pf_cfg _ .GYR .ACC (fun h => by cases h)]
    rfl
  | MOTION => exact (hs rfl).elim
  | TEMP =>
    rw [configure_sample_own r.env r.pf_cfg _ .TEMP
        (by rw [configure_enabled, configure_enabled]; exact he) hs,
      configure_sample r.env r.pf_cfg _ .TEMP .GYR (fun h => by cases h),
      configure_sample r.env r.pf_cfg _ .TEMP .ACC (fun h => by cases h)]
    rfl

theorem request_fifo : (u.request r).fifo s =
    (u.fifo s || (imu s && (u.request r).enabled s &&
      ((u.request r).enabled .ACC && u.is_dri .ACC ||
        (u.request r).enabled .GYR && u.is_dri .GYR))) := by
  rw [request_enabled, request_enabled, request_enabled, Setup.request]
  simp only [configure_fifo, configure_enabled, configure_is_dri, imu, Bool.true_and,
    Bool.false_and, Bool.and_false, Bool.or_false]
  rw [Bool.or_assoc, ← Bool.and_or_distrib_left]
  rfl

end Request

section Refines
variable (env : Env) (pf_cfg : PfCfg) (s t : SensorIdx) (x : Inst)

theorem setCfg_setup (c : DemoSsCfg) (hc : c.ss_cfg = (x.cfg t).ss_cfg) :
    setup (x.setCfg t c) = (setup x).setRates t c.sample_rate c.report_rate := by
  have hs : ∀ (β : Type) (f : DemoSsCfg → β) (s : SensorIdx),
      f ((x.setCfg t c).cfg s) = if s = t then f c else f (x.cfg s) := by
    intro β f s
    by_cases hst : s = t
    · rw [hst, cfg_setCfg, if_pos rfl]
    · rw [cfg_setCfg_of_ne hst, if_neg hst]
  apply Setup.ext
  · rfl
  · rfl
  · funext s
    refine (hs Bool (fun d => d.ss_cfg.is_dri) s).trans ?_
    split_ifs with hst
    · rw [hc, ← hst]
      rfl
    · rfl
  · exact funext (hs ℚ DemoSsCfg.sample_rate)
  · exact funext (hs ℚ DemoSsCfg.report_rate)

theorem setRates_same (u : Setup) : u.setRates t (u.sample_rate t) (u.report_rate t) = u := by
  have hs : ∀ f : SensorIdx → ℚ, (fun s => if s = t then f t else f s) = f := by
    intro f
    funext s
    split_ifs with hst
    · rw [hst]
    · rfl
  rw [Setup.setRates, hs, hs]

/-- Where only the timer of a sensor changes, the setup does not. -/
theorem timer_setup (c : DemoSsCfg) (hc : c.ss_cfg = (x.cfg t).ss_cfg)
    (hsample : c.sample_rate = (x.cfg t).sample_rate)
    (hreport : c.report_rate = (x.cfg t).report_rate) : setup (x.setCfg t c) = setup x := by
  rw [setCfg_setup t x c hc, hsample, hreport]
  exact setRates_same t (setup x)

theorem start_timer_setup : setup (demo_start_sensor_polling_timer env t x) = setup x := by
  have hsend : ∀ (y : Inst) (e : Effect), setup ((y.emit e).setCfg t
      { y.cfg t with timer_is_active := true }) = setup y :=
    fun y e => timer_setup t (y.emit e) _ rfl rfl rfl
  have hcreate : setup ((x.emit (.create (.poll t))).setCfg t
      { x.cfg t with timer_stream := true }) = setup x :=
    timer_setup t (x.emit (.create (.poll t))) _ rfl rfl rfl
  simp only [demo_start_sensor_polling_timer]
  split_ifs
  · exact hsend x _
  · exact (hsend _ _).trans hcreate
  · rfl
  · exact hcreate

theorem polling_config_setup : setup (demo_set_sensor_polling_config env t x) = setup x := by
  simp only [demo_set_sensor_polling_config]
  split_ifs
  · rw [start_timer_setup]
    exact timer_setup t x _ rfl rfl rfl
  · rfl
  · exact timer_setup t x _ rfl rfl rfl
  · exact timer_setup t x _ rfl rfl rfl
  · rfl

theorem config_fifo_cfg : (demo_config_fifo x).cfg = x.cfg := by
  simp only [demo_config_fifo]
  split_ifs <;> rfl

theorem config_fifo_setup : setup (demo_config_fifo x) = (setup x).fillFifo := by
  have hcfg : ∀ {β : Type} (f : DemoSsCfg → β),
      (fun s => f ((demo_config_fifo x).cfg s)) = fun s => f (x.cfg s) := by
    intro β f
    rw [config_fifo_cfg]
  apply Setup.ext
  · funext s
    exact congrArg (fun m => has m s) (config_fifo_frame 0 (.refl _ x)).enabled
  · funext s
    cases ha : has x.istate.sensor_enabled .ACC <;> cases hg : has x.istate.sensor_enabled .GYR <;>
      cases s <;> simp [setup, Setup.fillFifo, demo_config_fifo, Inst.emit, imu, ha, hg, DEMO_ACCEL,
        DEMO_GYRO]
  · exact hcfg (fun c => c.ss_cfg.is_dri)
  · exact hcfg DemoSsCfg.sample_rate
  · exact hcfg DemoSsCfg.report_rate

theorem config_imu_setup (addr : UInt8) : setup (config_imu env pf_cfg t addr x) =
    if (setup x).is_dri t then ((setup x).roundRate env pf_cfg t).fillFifo
    else (setup x).roundRate env pf_cfg t := by
  let r := demo_compute_odr env (clampRate pf_cfg (x.cfg t).sample_rate)
  let y := (x.emit (.read addr)).setCfg t
    { x.cfg t with sample_rate := r.2, wtm := quotient16 env r.2 (x.cfg t).report_rate }
  have hy : setup y = (setup x).roundRate env pf_cfg t :=
    setCfg_setup t (x.emit (.read addr)) _ rfl
  have hdri : (y.cfg t).ss_cfg.is_dri = (setup x).is_dri t :=
    congrFun (congrArg Setup.is_dri hy) t
  let z := (if (y.cfg t).ss_cfg.is_dri then demo_config_fifo y else y).emit (.write addr
    [(demo_com_read_wrapper x.istate.com_port (env.bus addr) 0 &&& ~~~DEMO_ACC_CONF_ODR_MASK) |||
      r.1,powerMode r.2])
  have hz : setup z = if (y.cfg t).ss_cfg.is_dri then (setup y).fillFifo else setup y := by
    show setup (if (y.cfg t).ss_cfg.is_dri then demo_config_fifo y else y) = _
    split_ifs
    · exact config_fifo_setup y
    · rfl
  rw [← hdri, ← hy, ← hz]
  show setup (if (y.cfg t).ss_cfg.is_dri then z else demo_set_sensor_polling_config env t z) = _
  split_ifs
  · rfl
  · exact polling_config_setup env t z

theorem config_temp_setup : setup (config_temp env pf_cfg x) =
    (setup x).roundRate env pf_cfg .TEMP := by
  have hy := setCfg_setup .TEMP x { x.cfg .TEMP with
    sample_rate := (demo_compute_odr env (clampRate pf_cfg (x.cfg .TEMP).sample_rate)).2 } rfl
  rw [← show _ = (setup x).roundRate env pf_cfg .TEMP from hy]
  simp only [config_temp]
  split_ifs
  · rfl
  · exact polling_config_setup env .TEMP _

theorem stage_setup : setup (stage env pf_cfg t x) = (setup x).configure env pf_cfg t := by
  rw [stage, Setup.configure, show (setup x).enabled t = has x.istate.sensor_enabled t from rfl]
  cases has x.istate.sensor_enabled t with
  | false => rfl
  | true =>
    cases t with
    | ACC => exact config_imu_setup env pf_cfg .ACC x DEMO_ACC_CONF_ADDR
    | GYR => exact config_imu_setup env pf_cfg .GYR x DEMO_GYR_CONF_ADDR
    | MOTION => rfl
    | TEMP => exact config_temp_setup env pf_cfg x

theorem register_interrupt_setup (ss_cfg : SsCfg) :
    setup (demo_hal_register_interrupt env ss_cfg x) = setup x := by
  simp only [demo_hal_register_interrupt]
  split_ifs <;> rfl

/-- Requests on instances are requests on their setups. -/
theorem request_setup (r : Requested) : setup (request x r) = (setup x).request r := by
  let x0 := x.setCfg r.sensor (withRates r.env r.chosen (x.cfg r.sensor))
  let x1 := x0.emit (.bus_power true)
  let x2 : Inst :=
    { x1 with istate.sensor_enabled := x1.istate.sensor_enabled ||| sensorType r.sensor }
  let x3 := demo_hal_register_interrupt r.env (r.ss_cfgs r.sensor) x2
  have h0 : setup x0 =
      (setup x).setRates r.sensor r.chosen.sample_rate r.chosen.report_rate :=
    setCfg_setup r.sensor x _ rfl
  have h2 : setup x2 = (setup x0).enable r.sensor := by
    apply Setup.ext
    · funext t
      exact (has_or _ _ t).trans (congrArg _ (has_sensorType r.sensor t))
    all_goals rfl
  have h3 : setup (demo_send_config_event x3) = setup x2 := by
    rw [send_config_out]
    exact register_interrupt_setup r.env x2 _
  show setup (demo_config_hw r.env r.pf_cfg (demo_send_config_event x3)) = _
  rw [config_hw_stages, stage_setup, stage_setup, stage_setup, h3, h2, h0]
  rfl

/-- What holds of the setups along a run holds of the run of the setups. -/
theorem always_setup (P : Setup → Prop) (rs : List Requested) :
    Always request (fun y => P (setup y)) x rs ↔ Always Setup.request P (setup x) rs :=
  always_image setup request_setup P x rs

end Refines

section Init

/-- Nothing is enabled and the FIFO is empty. -/
def Unused (ss_cfgs : SensorIdx → SsCfg) (x : Inst) : Prop :=
  setup x = ⟨fun _ => false,fun _ => false,fun s => (ss_cfgs s).is_dri,fun _ => 0,fun _ => 0⟩

theorem init_keeps_unused (env : Env) (ss_cfgs : SensorIdx → SsCfg) :
    InitKeeps env (Unused ss_cfgs) where
  poll y s h := by
    rw [createPoll]
    split_ifs
    · have hs : setup ((y.emit (.create (.poll s))).setCfg s
          { y.cfg s with timer_stream := true }) = setup y :=
        timer_setup s (y.emit (.create (.poll s))) _ rfl rfl rfl
      exact hs.trans h
    · exact h
  stream y st h := by
    rw [createStream]
    split_ifs
    · exact h
    · exact h
  streams _ _ _ _ h := h
  port _ _ h := h
  connect _ _ h := h
  reset y h := by
    rw [demo_hal_reset_device]
    split_ifs
    · exact h
    · exact h

theorem instance_init_unused (env : Env) (hw_idx : Fin 2) (common : CommonState)
    (ss_cfgs : SensorIdx → SsCfg) {x : Inst}
    (h : demo_instance_init env hw_idx common ss_cfgs = (true,x)) : Unused ss_cfgs x := by
  apply init_successful (init_keeps_unused env ss_cfgs) _ h
  apply Setup.ext
  · exact funext has_zero
  · exact funext has_zero
  all_goals rfl

end Init

end BaseDrivers.InstanceSetup
