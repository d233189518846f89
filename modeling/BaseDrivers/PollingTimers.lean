import Mathlib.Tactic.SplitIfs
import BaseDrivers.DemoSensor
import BaseDrivers.InstanceFrame

/-!
# The timers of the polled sensors

Every configuration request configures all enabled sensors again. A polled
sensor books its timer when its interval changes, drops it when the interval
becomes zero, and otherwise finds it as it is. The interval in use, the
requested one, the active flag and the stream then agree after each request,
and a request for another sensor does not touch the stream.
-/

set_option autoImplicit false

namespace BaseDrivers.PollingTimers
open BaseDrivers.Execution BaseDrivers.DemoCommon BaseDrivers.DemoInstance BaseDrivers.DemoSensor
open BaseDrivers.InstanceFrame

/-- A `SENSOR_CONFIG` request together with the rates the sensor layer wrote
into the instance for it, whatever they are. -/
structure Requested where
  env : Env
  pf_cfg : PfCfg
  ss_cfgs : SensorIdx → SsCfg
  sensor : SensorIdx
  chosen : Chosen

def request (x : Inst) (r : Requested) : Inst :=
  demo_instance_set_client_config r.env r.pf_cfg r.ss_cfgs (.SENSOR_CONFIG r.sensor)
    (x.setCfg r.sensor (withRates r.env r.chosen (x.cfg r.sensor)))

/-- The sensor layer makes such a request with the rates of its clients. -/
theorem reval_requests {σ : Type} [RequestStore σ] (env : Env) (s : SensorIdx) (i : Instance σ)
    (w : World σ) : (demo_reval_instance_config env s i w).inst = some { i with
      body := request i.body ⟨env,w.common.pf_cfg,fun t => (w.states t).ss_cfg,s,
        demo_get_sensor_config i.store (w.my_suid s)⟩ } := by
  simp only [demo_reval_instance_config, apply_chosen, demo_set_client_config, World.setInst, request]
  split_ifs
  · congr 4
    ext1 t
    simp only [World.setState, World.note]
    split_ifs with ht
    · rw [ht]
    · rfl
  · rfl

/-- Whether an effect is on the timer stream of a sensor. -/
def concerns (s : SensorIdx) : Effect → Bool
  | .create (.poll t) => t == s
  | .remove (.poll t) => t == s
  | .timer_config t _ _ _ => t == s
  | _ => false

def timerEffects (s : SensorIdx) (out : List Effect) : List Effect := out.filter (concerns s)

/-- The last timer configuration on the present stream of a sensor: whether
it is periodic, and its period. -/
def lastConfig (s : SensorIdx) (out : List Effect) : Option (Bool × UInt64) :=
  match (timerEffects s out).getLast? with
  | some (.timer_config _ is_periodic _ period) => some (is_periodic,period)
  | _ => none

/-- An active timer runs with the interval in use. -/
structure Ticking (s : SensorIdx) (x : Inst) : Prop where
  active : (x.cfg s).timer_is_active = true ↔ 0 < (x.cfg s).sample_intvl
  stream : (x.cfg s).timer_is_active = true → (x.cfg s).timer_stream = true
  config : (x.cfg s).timer_is_active = true →
    lastConfig s x.out = some (true,(x.cfg s).sample_intvl)

/-- The interval in use is moreover the requested one. -/
structure Booked (s : SensorIdx) (x : Inst) : Prop extends Ticking s x where
  intvl : (x.cfg s).sample_intvl = (x.cfg s).sample_intvl_req

/-- An enabled sensor without an interrupt line. -/
def Polled (s : SensorIdx) (x : Inst) : Prop :=
  has x.istate.sensor_enabled s = true ∧ (x.cfg s).ss_cfg.is_dri = false

/-- From `x` to `y` the timer of a sensor was left alone. -/
structure Same (s : SensorIdx) (x y : Inst) : Prop where
  ss_cfg : (y.cfg s).ss_cfg = (x.cfg s).ss_cfg
  active : (y.cfg s).timer_is_active = (x.cfg s).timer_is_active
  intvl : (y.cfg s).sample_intvl = (x.cfg s).sample_intvl
  stream : (y.cfg s).timer_stream = (x.cfg s).timer_stream
  req : (y.cfg s).sample_intvl_req = (x.cfg s).sample_intvl_req
  out : timerEffects s y.out = timerEffects s x.out

section Frame
variable {s t : SensorIdx} {x y z : Inst}

theorem cfg_setCfg (c : DemoSsCfg) (x : Inst) : (x.setCfg s c).cfg s = c := by
  simp [Inst.cfg, Inst.setCfg]

theorem cfg_setCfg_of_ne (h : s ≠ t) (c : DemoSsCfg) (x : Inst) :
    (x.setCfg t c).cfg s = x.cfg s := by
  simp [Inst.cfg, Inst.setCfg, h]

theorem timerEffects_append (s : SensorIdx) (as bs : List Effect) :
    timerEffects s (as++bs) = timerEffects s as++timerEffects s bs :=
  List.filter_append as bs

theorem lastConfig_config (s : SensorIdx) (out : List Effect) (is_periodic : Bool)
    (start_time period : UInt64) :
    lastConfig s (out++[.timer_config s is_periodic start_time period]) =
      some (is_periodic,period) := by
  simp [lastConfig, timerEffects, concerns]

namespace Same

theorem refl (s : SensorIdx) (x : Inst) : Same s x x := ⟨rfl,rfl,rfl,rfl,rfl,rfl⟩

theorem trans (hxy : Same s x y) (hyz : Same s y z) : Same s x z where
  ss_cfg := hyz.ss_cfg.trans hxy.ss_cfg
  active := hyz.active.trans hxy.active
  intvl := hyz.intvl.trans hxy.intvl
  stream := hyz.stream.trans hxy.stream
  req := hyz.req.trans hxy.req
  out := hyz.out.trans hxy.out

theorem emit (h : Same s x y) {e : Effect} (he : concerns s e = false) :
    Same s x (y.emit e) := by
  apply h.trans
  constructor
  all_goals first | rfl | simp [Inst.emit, timerEffects, he]

theorem setCfg_of_ne (h : Same s x y) (hst : s ≠ t) (c : DemoSsCfg) :
    Same s x (y.setCfg t c) := by
  apply h.trans
  constructor
  all_goals first | rfl | rw [cfg_setCfg_of_ne hst]

theorem rates (h : Same s x y) (t : SensorIdx) (sample_rate : ℚ) (wtm : UInt16) :
    Same s x (y.setCfg t { y.cfg t with sample_rate := sample_rate, wtm := wtm }) := by
  by_cases hst : s = t
  · subst hst
    apply h.trans
    constructor
    all_goals first | rfl | rw [cfg_setCfg]
  · exact h.setCfg_of_ne hst _

theorem ticking (h : Same s x y) (hx : Ticking s x) : Ticking s y := by
  constructor
  · rw [h.active, h.intvl]
    exact hx.active
  · rw [h.active, h.stream]
    exact hx.stream
  · rw [h.active, h.intvl, lastConfig, h.out]
    exact hx.config

theorem booked (h : Same s x y) (hx : Booked s x) : Booked s y where
  toTicking := h.ticking hx.toTicking
  intvl := by rw [h.intvl, h.req, hx.intvl]

end Same

end Frame

section Polling
variable (env : Env) {s t : SensorIdx} {x : Inst}

/-- A booked sensor finds its timer as it is. -/
theorem polling_config_idle (h : Booked s x) : demo_set_sensor_polling_config env s x = x := by
  rw [demo_set_sensor_polling_config]
  by_cases hreq : 0 < (x.cfg s).sample_intvl_req
  · rw [if_pos hreq, if_neg (not_not.mpr h.intvl)]
  · have ha : ¬ (x.cfg s).timer_is_active = true := by
      intro ha
      exact hreq (h.intvl ▸ h.active.mp ha)
    rw [if_neg hreq, if_neg ha]

/-- Starting the timer leaves a stream and a periodic configuration on it. -/
theorem start_timer_books (henc : env.encode_ok = true) (hok : env.stream_ok (.poll s) = true)
    (hreq : 0 < (x.cfg s).sample_intvl_req)
    (hi : (x.cfg s).sample_intvl = (x.cfg s).sample_intvl_req) :
    Booked s (demo_start_sensor_polling_timer env s x) := by
  have hsend : ∀ y : Inst, (y.cfg s).timer_stream = true →
      (y.cfg s).sample_intvl = (x.cfg s).sample_intvl →
      (y.cfg s).sample_intvl_req = (x.cfg s).sample_intvl_req →
      Booked s ((y.emit (.timer_config s true env.system_time (y.cfg s).sample_intvl)).setCfg s
        { y.cfg s with timer_is_active := true }) := by
    intro y hs hintvl hyreq
    have hpos : 0 < (y.cfg s).sample_intvl := by
      rw [hintvl, hi]
      exact hreq
    constructor
    · constructor
      · rw [cfg_setCfg]
        exact iff_of_true rfl hpos
      · rw [cfg_setCfg]
        exact fun _ => hs
      · rw [cfg_setCfg]
        exact fun _ => lastConfig_config s y.out true _ _
    · rw [cfg_setCfg]
      exact hintvl.trans (hi.trans hyreq.symm)
  rw [demo_start_sensor_polling_timer, if_pos henc, hok]
  by_cases hs : (x.cfg s).timer_stream = true
  · rw [hs]
    exact hsend x hs rfl rfl
  · rw [Bool.eq_false_of_not_eq_true hs]
    exact hsend ((x.emit (.create (.poll s))).setCfg s { x.cfg s with timer_stream := true })
      (by rw [cfg_setCfg]) (by rw [cfg_setCfg]) (by rw [cfg_setCfg])

theorem polling_config_books (henc : env.encode_ok = true)
    (hok : env.stream_ok (.poll s) = true) (h : Ticking s x) :
    Booked s (demo_set_sensor_polling_config env s x) := by
  rw [demo_set_sensor_polling_config]
  by_cases hreq : 0 < (x.cfg s).sample_intvl_req
  · rw [if_pos hreq]
    by_cases hi : (x.cfg s).sample_intvl = (x.cfg s).sample_intvl_req
    · rw [if_neg (not_not.mpr hi)]
      exact ⟨h,hi⟩
    · rw [if_pos hi]
      exact start_timer_books env henc hok (by rw [cfg_setCfg]; exact hreq) (by rw [cfg_setCfg])
  · have hzero : (x.cfg s).sample_intvl_req = 0 := by
      simpa [UInt64.lt_iff_toNat_lt, ← UInt64.toNat_inj] using hreq
    rw [if_neg hreq]
    by_cases ha : (x.cfg s).timer_is_active = true
    · -- the stream was there as the timer was active, so it is removed
      rw [if_pos ha, if_pos (h.stream ha)]
      let c : DemoSsCfg :=
        { x.cfg s with sample_intvl := 0, timer_is_active := false, timer_stream := false }
      have hc : (((x.setCfg s c).emit (.remove (.poll s))).cfg s) = c := cfg_setCfg c x
      constructor
      · constructor
        · rw [hc]
          simp [c]
        · rw [hc]
          intro h
          cases h
        · rw [hc]
          intro h
          cases h
      · rw [hc]
        exact hzero.symm
    · have hi : ¬ 0 < (x.cfg s).sample_intvl := fun hp => ha (h.active.mpr hp)
      rw [if_neg ha]
      exact ⟨h,by simpa [hzero, UInt64.lt_iff_toNat_lt, ← UInt64.toNat_inj] using hi⟩

theorem start_timer_same (hst : s ≠ t) :
    Same s x (demo_start_sensor_polling_timer env t x) := by
  have hts : (t == s) = false := beq_false_of_ne hst.symm
  have hcreate : Same s x
      ((x.emit (.create (.poll t))).setCfg t { x.cfg t with timer_stream := true }) :=
    ((Same.refl s x).emit (e := .create (.poll t)) hts).setCfg_of_ne hst _
  have hsend : ∀ y : Inst, Same s x y → Same s x
      ((y.emit (.timer_config t true env.system_time (y.cfg t).sample_intvl)).setCfg t
        { y.cfg t with timer_is_active := true }) :=
    fun y h => (h.emit (e := .timer_config t true env.system_time _) hts).setCfg_of_ne hst _
  simp only [demo_start_sensor_polling_timer]
  split_ifs
  · exact hsend x (Same.refl s x)
  · exact hsend _ hcreate
  · exact Same.refl s x
  · exact hcreate

theorem polling_config_same (hst : s ≠ t) :
    Same s x (demo_set_sensor_polling_config env t x) := by
  simp only [demo_set_sensor_polling_config]
  split_ifs
  · exact ((Same.refl s x).setCfg_of_ne hst _).trans (start_timer_same env hst)
  · exact Same.refl s x
  · exact ((Same.refl s x).setCfg_of_ne hst _).emit (beq_false_of_ne hst.symm)
  · exact (Same.refl s x).setCfg_of_ne hst _
  · exact Same.refl s x

end Polling

section Config
variable (env : Env) (pf_cfg : PfCfg) (s t : SensorIdx) (x : Inst)

theorem config_fifo_same : Same s x (demo_config_fifo x) := by
  have hmask : ∀ (y : Inst) (m : SensorType),
      Same s y { y with istate.fifo_enabled := m } := fun y m => ⟨rfl,rfl,rfl,rfl,rfl,rfl⟩
  have hw := (((Same.refl s x).emit (e := .write DEMO_FIFO_CONF_ADDR [0x00,0x00]) rfl).emit
    (e := .write DEMO_FIFO_CTRL_ADDR [0x01,0x00]) rfl).emit (e := .write DEMO_FIFO_WTM_ADDR
      [GET_LSB ((x.cfg .ACC).wtm.toNat*3),GET_MSB ((x.cfg .ACC).wtm.toNat*3)]) rfl
  simp only [demo_config_fifo]
  apply Same.emit _ rfl
  split_ifs
  · exact (hw.trans (hmask _ _)).trans (hmask _ _)
  · exact hw.trans (hmask _ _)
  · exact hw.trans (hmask _ _)
  · exact hw

/-- Configuring a sensor of the FIFO leaves the timers alone up to the
polling configuration, which comes last. -/
theorem config_imu_cases (addr : UInt8) : ∃ y, (∀ s, Same s x y) ∧
    config_imu env pf_cfg t addr x =
      if (x.cfg t).ss_cfg.is_dri then y else demo_set_sensor_polling_config env t y := by
  let r := demo_compute_odr env (clampRate pf_cfg (x.cfg t).sample_rate)
  let x1 := (x.emit (.read addr)).setCfg t
    { x.cfg t with sample_rate := r.2, wtm := quotient16 env r.2 (x.cfg t).report_rate }
  let bytes := [(demo_com_read_wrapper x.istate.com_port (env.bus addr) 0 &&&
    ~~~DEMO_ACC_CONF_ODR_MASK) ||| r.1,powerMode r.2]
  have h1 : ∀ s, Same s x x1 := fun s => ((Same.refl s x).emit rfl).rates t _ _
  have hdri : (x1.cfg t).ss_cfg.is_dri = (x.cfg t).ss_cfg.is_dri := by rw [(h1 t).ss_cfg]
  let y := (if (x1.cfg t).ss_cfg.is_dri then demo_config_fifo x1 else x1).emit (.write addr bytes)
  have heq : config_imu env pf_cfg t addr x =
      if (x1.cfg t).ss_cfg.is_dri then y else demo_set_sensor_polling_config env t y := rfl
  refine ⟨y,?_,by rw [heq, hdri]⟩
  intro s
  apply Same.emit _ rfl
  split_ifs
  · exact (h1 s).trans (config_fifo_same s x1)
  · exact h1 s

theorem config_temp_cases : ∃ y, (∀ s, Same s x y) ∧
    config_temp env pf_cfg x =
      if (x.cfg .TEMP).ss_cfg.is_dri then y else demo_set_sensor_polling_config env .TEMP y := by
  let r := demo_compute_odr env (clampRate pf_cfg (x.cfg .TEMP).sample_rate)
  let y := x.setCfg .TEMP { x.cfg .TEMP with sample_rate := r.2 }
  have hy : ∀ s, Same s x y := fun s => (Same.refl s x).rates .TEMP r.2 (x.cfg .TEMP).wtm
  refine ⟨y,hy,?_⟩
  rw [← (hy .TEMP).ss_cfg]
  rfl

/-- What the configuration of the sensor `t` means for the timer of `s`. -/
structure Configured (x z : Inst) : Prop where
  others : s ≠ t → Same s x z
  dri : (x.cfg s).ss_cfg.is_dri = true → Same s x z
  books : s = t → (x.cfg s).ss_cfg.is_dri = false → env.encode_ok = true →
    env.stream_ok (.poll s) = true → Ticking s x → Booked s z
  idle : (x.cfg s).ss_cfg.is_dri = false → Booked s x → Same s x z

theorem configured_of_cases {x y z : Inst} (hy : ∀ s, Same s x y)
    (hz : z = if (x.cfg t).ss_cfg.is_dri then y else demo_set_sensor_polling_config env t y) :
    Configured env s t x z := by
  have hs := hy s
  by_cases hd : (x.cfg t).ss_cfg.is_dri = true
  · rw [if_pos hd] at hz
    subst hz
    constructor
    · exact fun _ => hs
    · exact fun _ => hs
    · intro hst hn
      rw [hst, hd] at hn
      cases hn
    · exact fun _ _ => hs
  · rw [if_neg hd] at hz
    subst hz
    constructor
    · exact fun hst => hs.trans (polling_config_same env hst)
    · intro hn
      by_cases hst : s = t
      · rw [← hst] at hd
        exact (hd hn).elim
      · exact hs.trans (polling_config_same env hst)
    · intro hst _ henc hok hx
      subst hst
      exact polling_config_books env henc hok (hs.ticking hx)
    · intro _ hx
      by_cases hst : s = t
      · subst hst
        rw [polling_config_idle env (hs.booked hx)]
        exact hs
      · exact hs.trans (polling_config_same env hst)

/-- The branch of `demo_config_hw` for one sensor; there is none for motion. -/
def branch (x : Inst) : SensorIdx → Inst
  | .ACC => config_imu env pf_cfg .ACC DEMO_ACC_CONF_ADDR x
  | .GYR => config_imu env pf_cfg .GYR DEMO_GYR_CONF_ADDR x
  | .MOTION => x
  | .TEMP => config_temp env pf_cfg x

def stage (x : Inst) : Inst :=
  if has x.istate.sensor_enabled t then branch env pf_cfg x t else x

theorem config_hw_stages : demo_config_hw env pf_cfg x =
    stage env pf_cfg .TEMP (stage env pf_cfg .GYR (stage env pf_cfg .ACC x)) := rfl

theorem stage_enabled : (stage env pf_cfg t x).istate.sensor_enabled = x.istate.sensor_enabled := by
  rw [stage]
  split_ifs
  · cases t with
    | ACC => exact (config_imu_frame env pf_cfg DEMO_ACC_CONF_ADDR .ACC (.refl _ x)).enabled
    | GYR => exact (config_imu_frame env pf_cfg DEMO_GYR_CONF_ADDR .GYR (.refl _ x)).enabled
    | MOTION => rfl
    | TEMP => exact (config_temp_frame env pf_cfg 0 (.refl _ x)).enabled
  · rfl

theorem stage_configured (ht : t ≠ .MOTION) (hen : has x.istate.sensor_enabled t = true) :
    Configured env s t x (stage env pf_cfg t x) := by
  rw [stage, if_pos hen]
  cases t with
  | ACC =>
    obtain ⟨y,hy,hz⟩ := config_imu_cases env pf_cfg .ACC x DEMO_ACC_CONF_ADDR
    exact configured_of_cases env s .ACC hy hz
  | GYR =>
    obtain ⟨y,hy,hz⟩ := config_imu_cases env pf_cfg .GYR x DEMO_GYR_CONF_ADDR
    exact configured_of_cases env s .GYR hy hz
  | MOTION => exact (ht rfl).elim
  | TEMP =>
    obtain ⟨y,hy,hz⟩ := config_temp_cases env pf_cfg x
    exact configured_of_cases env s .TEMP hy hz

/-- A stage leaves a timer alone that belongs to another sensor, or to one
with nothing to change. -/
theorem stage_same (h : s = t → has x.istate.sensor_enabled s = true →
    (x.cfg s).ss_cfg.is_dri = true ∨ Booked s x) : Same s x (stage env pf_cfg t x) := by
  by_cases hen : has x.istate.sensor_enabled t = true
  · by_cases ht : t = .MOTION
    · rw [stage, if_pos hen, ht]
      exact Same.refl s x
    · have hc := stage_configured env pf_cfg s t x ht hen
      by_cases hst : s = t
      · rcases h hst (by rw [hst]; exact hen) with hd | hb
        · exact hc.dri hd
        · by_cases hd : (x.cfg s).ss_cfg.is_dri = true
          · exact hc.dri hd
          · exact hc.idle (Bool.eq_false_of_not_eq_true hd) hb
      · exact hc.others hst
  · rw [stage, if_neg hen]
    exact Same.refl s x

theorem config_hw_same (h : has x.istate.sensor_enabled s = true →
    (x.cfg s).ss_cfg.is_dri = true ∨ Booked s x) : Same s x (demo_config_hw env pf_cfg x) := by
  have hstep : ∀ (y : Inst) (t : SensorIdx),
      y.istate.sensor_enabled = x.istate.sensor_enabled → Same s x y →
      Same s x (stage env pf_cfg t y) := by
    intro y t hen hy
    apply hy.trans (stage_same env pf_cfg s t y ?_)
    intro _ hon
    rw [hen] at hon
    rw [hy.ss_cfg]
    exact (h hon).imp id hy.booked
  let x1 := stage env pf_cfg .ACC x
  let x2 := stage env pf_cfg .GYR x1
  have he1 : x1.istate.sensor_enabled = x.istate.sensor_enabled := stage_enabled env pf_cfg .ACC x
  have he2 : x2.istate.sensor_enabled = x.istate.sensor_enabled :=
    (stage_enabled env pf_cfg .GYR x1).trans he1
  rw [config_hw_stages]
  exact hstep x2 .TEMP he2 (hstep x1 .GYR he1 (hstep x .ACC rfl (Same.refl s x)))

/-- The stage of a polled sensor books its timer, and the others keep it. -/
theorem config_hw_books (hs : s ≠ .MOTION) (hp : Polled s x) (henc : env.encode_ok = true)
    (hok : env.stream_ok (.poll s) = true) (h : Ticking s x) :
    Booked s (demo_config_hw env pf_cfg x) := by
  have hother : ∀ (y : Inst) (t : SensorIdx), s ≠ t → Same s y (stage env pf_cfg t y) :=
    fun y t hst => stage_same env pf_cfg s t y (fun he => (hst he).elim)
  have hbook : ∀ y : Inst, y.istate.sensor_enabled = x.istate.sensor_enabled → Same s x y →
      Booked s (stage env pf_cfg s y) := by
    intro y hen hy
    have hon : has y.istate.sensor_enabled s = true := by
      rw [hen]
      exact hp.1
    apply (stage_configured env pf_cfg s s y hs hon).books rfl _ henc hok (hy.ticking h)
    rw [hy.ss_cfg]
    exact hp.2
  let x1 := stage env pf_cfg .ACC x
  let x2 := stage env pf_cfg .GYR x1
  have he1 : x1.istate.sensor_enabled = x.istate.sensor_enabled := stage_enabled env pf_cfg .ACC x
  have he2 : x2.istate.sensor_enabled = x.istate.sensor_enabled :=
    (stage_enabled env pf_cfg .GYR x1).trans he1
  rw [config_hw_stages]
  cases s with
  | ACC =>
    have h1 : Booked .ACC x1 := hbook x rfl (Same.refl _ x)
    have h2 : Booked .ACC x2 := (hother x1 .GYR (by decide)).booked h1
    exact (hother x2 .TEMP (by decide)).booked h2
  | GYR =>
    have h2 : Booked .GYR x2 := hbook x1 he1 (hother x .ACC (by decide))
    exact (hother x2 .TEMP (by decide)).booked h2
  | MOTION => exact (hs rfl).elim
  | TEMP =>
    exact hbook x2 he2 ((hother x .ACC (by decide)).trans (hother x1 .GYR (by decide)))

end Config

section Request
variable (r : Requested) (s : SensorIdx) (x : Inst)

/-- The instance a request hands to the configuration of the chip. -/
structure Handed (y : Inst) : Prop where
  request : request x r = (demo_config_hw r.env r.pf_cfg y).emit (.bus_power false)
  enabled : y.istate.sensor_enabled = x.istate.sensor_enabled ||| sensorType r.sensor
  same : s ≠ r.sensor → Same s x y
  ss_cfg : (y.cfg s).ss_cfg = (x.cfg s).ss_cfg
  ticking : Ticking s x → Ticking s y

theorem register_interrupt_same (env : Env) (ss_cfg : SsCfg) :
    Same s x (demo_hal_register_interrupt env ss_cfg x) := by
  have hmark : ∀ y : Inst, Same s y { y with istate.irq_info.irq_registered := true } :=
    fun y => ⟨rfl,rfl,rfl,rfl,rfl,rfl⟩
  simp only [demo_hal_register_interrupt]
  split_ifs
  · exact Same.refl s x
  · exact Same.refl s x
  · exact ((Same.refl s x).emit rfl).trans (hmark _)
  · exact Same.refl s x

theorem send_config_same : Same s x (demo_send_config_event x) := by
  rw [send_config_out]
  constructor
  all_goals first | rfl | skip
  have hn : timerEffects s ((SensorIdx.all.filter (has x.istate.sensor_enabled)).map
      (configEvent x)) = [] := by
    apply List.filter_eq_nil_iff.mpr
    intro e he
    obtain ⟨t,-,rfl⟩ := List.mem_map.mp he
    exact Bool.false_ne_true
  rw [timerEffects_append, hn, List.append_nil]

theorem request_hands : ∃ y, Handed r s x y := by
  let x0 := x.setCfg r.sensor (withRates r.env r.chosen (x.cfg r.sensor))
  let x1 := x0.emit (.bus_power true)
  let x2 : Inst :=
    { x1 with istate.sensor_enabled := x1.istate.sensor_enabled ||| sensorType r.sensor }
  let x3 := demo_hal_register_interrupt r.env (r.ss_cfgs r.sensor) x2
  let x4 := demo_send_config_event x3
  have h2 : Same s x0 x2 := ((Same.refl s x0).emit rfl).trans ⟨rfl,rfl,rfl,rfl,rfl,rfl⟩
  have h4 : Same s x0 x4 :=
    (h2.trans (register_interrupt_same s x2 _ _)).trans (send_config_same s x3)
  have hset : s ≠ r.sensor → Same s x x0 := fun hs => (Same.refl s x).setCfg_of_ne hs _
  refine ⟨x4,rfl,?_,fun hs => (hset hs).trans h4,?_,?_⟩
  · have he : x4.istate.sensor_enabled = x3.istate.sensor_enabled := by
      rw [show x4 = _ from send_config_out x3]
    exact he.trans (register_interrupt_frame (fun _ => True) (fun _ _ => trivial) _ _ x2).enabled
  · rw [h4.ss_cfg]
    by_cases hs : s = r.sensor
    · rw [hs, cfg_setCfg]
      rfl
    · rw [(hset hs).ss_cfg]
  · intro hx
    apply h4.ticking
    by_cases hs : s = r.sensor
    · -- only the requested interval and the rates are new
      have hc : x0.cfg s = withRates r.env r.chosen (x.cfg s) := by
        rw [hs, cfg_setCfg]
      constructor
      · rw [hc]
        exact hx.active
      · rw [hc]
        exact hx.stream
      · rw [hc]
        exact hx.config
    · exact (hset hs).ticking hx

/-- A request keeps every timer ticking and books those of the polled
sensors. -/
theorem request_books (hs : s ≠ .MOTION) (henc : r.env.encode_ok = true)
    (hok : r.env.stream_ok (.poll s) = true) (hx : Ticking s x) :
    Ticking s (request x r) ∧ (Polled s (request x r) → Booked s (request x r)) := by
  obtain ⟨y,hy⟩ := request_hands r s x
  let z := demo_config_hw r.env r.pf_cfg y
  have hz : Same s z (request x r) := by
    rw [hy.request]
    exact (Same.refl s z).emit rfl
  have hen : has (request x r).istate.sensor_enabled s = has y.istate.sensor_enabled s := by
    rw [hy.request, ← (config_hw_frame r.env r.pf_cfg y).enabled]
    rfl
  by_cases hp : Polled s y
  · have hb := hz.booked (config_hw_books r.env r.pf_cfg s y hs hp henc hok (hy.ticking hx))
    exact ⟨hb.toTicking,fun _ => hb⟩
  · have hsame : Same s y z := by
      apply config_hw_same
      intro hon
      by_cases hd : (y.cfg s).ss_cfg.is_dri = true
      · exact .inl hd
      · exact (hp ⟨hon,Bool.eq_false_of_not_eq_true hd⟩).elim
    have hyr := hsame.trans hz
    constructor
    · exact hyr.ticking (hy.ticking hx)
    · rintro ⟨hon,hd⟩
      rw [hen] at hon
      rw [hyr.ss_cfg] at hd
      exact (hp ⟨hon,hd⟩).elim

/-- A request for another sensor does nothing to the timer of `s`. -/
theorem request_others (hs : r.sensor ≠ s) (hb : Polled s x → Booked s x) :
    Same s x (request x r) := by
  obtain ⟨y,hy⟩ := request_hands r s x
  have hxy := hy.same hs.symm
  have hen : has y.istate.sensor_enabled s = has x.istate.sensor_enabled s := by
    rw [hy.enabled]
    simp [hs]
  rw [hy.request]
  apply Same.emit _ rfl
  apply hxy.trans (config_hw_same r.env r.pf_cfg s y ?_)
  intro hon
  by_cases hd : (y.cfg s).ss_cfg.is_dri = true
  · exact .inl hd
  · have hp : Polled s x :=
      ⟨hen ▸ hon,by rw [← hxy.ss_cfg]; exact Bool.eq_false_of_not_eq_true hd⟩
    exact .inr (hxy.booked (hb hp))

end Request

section Runs

/-- No timer was ever started. -/
def Unstarted (x : Inst) : Prop :=
  ∀ s, (x.cfg s).timer_is_active = false ∧ (x.cfg s).sample_intvl = 0

theorem unstarted_ticking {x : Inst} (h : Unstarted x) (s : SensorIdx) : Ticking s x := by
  obtain ⟨ha,hi⟩ := h s
  constructor
  · rw [ha, hi]
    decide
  · rw [ha]
    intro h
    cases h
  · rw [ha]
    intro h
    cases h

theorem init_keeps_unstarted (env : Env) : InitKeeps env Unstarted where
  poll y t h := by
    rw [createPoll]
    split_ifs
    · intro s
      by_cases hs : s = t
      · rw [hs, cfg_setCfg]
        exact h t
      · rw [cfg_setCfg_of_ne hs]
        exact h s
    · exact h
  stream y st h := by
    rw [createStream]
    split_ifs
    · exact h
    · exact h
  streams _ _ _ _ h := h
  port _ _ h := h
  connect _ _ h := h
  reset y h := by
    rw [demo_hal_reset_device]
    split_ifs
    · exact h
    · exact h

theorem instance_init_unstarted (env : Env) (hw_idx : Fin 2) (common : CommonState)
    (ss_cfgs : SensorIdx → SsCfg) {x : Inst}
    (h : demo_instance_init env hw_idx common ss_cfgs = (true,x)) : Unstarted x :=
  init_successful (init_keeps_unstarted env) (fun _ => ⟨rfl,rfl⟩) h

/-- For all sequences of configuration requests after a successful
initialization: the timer of every enabled polled sensor is booked after each
request, and a request for another sensor does nothing on its stream. -/
theorem polling_timers_booked (env : Env) (hw_idx : Fin 2) (common : CommonState)
    (ss_cfgs : SensorIdx → SsCfg) (x : Inst)
    (hinit : demo_instance_init env hw_idx common ss_cfgs = (true,x)) (rs : List Requested)
    (hok : ∀ r ∈ rs, r.env.encode_ok = true ∧ ∀ st, r.env.stream_ok st = true)
    (s : SensorIdx) (hs : s ≠ .MOTION) :
    Always request (fun y => Polled s y → Booked s y) x rs ∧
      Along request (fun y r => r.sensor ≠ s →
        timerEffects s (request y r).out = timerEffects s y.out) x rs := by
  have hstart : Ticking s x ∧ (Polled s x → Booked s x) := by
    have ht := unstarted_ticking (instance_init_unstarted env hw_idx common ss_cfgs hinit) s
    have hen : x.istate.sensor_enabled = 0 := by
      have hf := (instance_init_frame env hw_idx common ss_cfgs).enabled
      rw [hinit] at hf
      exact hf
    constructor
    · exact ht
    · rintro ⟨hon,-⟩
      rw [hen] at hon
      exact (Bool.false_ne_true ((has_zero s).symm.trans hon)).elim
  have hrun := always_of_step (fun y => Ticking s y ∧ (Polled s y → Booked s y))
    (fun y r hy hr => request_books r s y hs hr.1 (hr.2 (.poll s)) hy.1) x rs hstart
    ((along_forall request _ x rs).mpr hok)
  constructor
  · exact always_mono (fun y hy => hy.2) hrun
  · exact along_of_always (fun y r hy _ hrs => (request_others r s y hrs hy.2).out) x rs hrun
      (along_true request x rs)

/-- A request at 100 Hz to a sensor of a polled chip. -/
def exampleRequest (s : SensorIdx) : Requested where
  env := workingEnv 0 0
  pf_cfg := bootCommon.pf_cfg
  ss_cfgs _ := ⟨false,0,0,false⟩
  sensor := s
  chosen := ⟨100,100,true,100⟩

def exampleInst : Inst :=
  (demo_instance_init (workingEnv 0 0) chip0 bootCommon (fun _ => ⟨false,0,0,false⟩)).2

theorem polling_timers_booked_twice :
    Always request (fun y => Polled .ACC y → Booked .ACC y) exampleInst
        [exampleRequest .ACC,exampleRequest .TEMP] ∧
      Along request (fun y r => r.sensor ≠ .ACC →
          timerEffects .ACC (request y r).out = timerEffects .ACC y.out) exampleInst
        [exampleRequest .ACC,exampleRequest .TEMP] :=
  polling_timers_booked (workingEnv 0 0) chip0 bootCommon (fun _ => ⟨false,0,0,false⟩) exampleInst
    rfl [exampleRequest .ACC,exampleRequest .TEMP] (by simp [exampleRequest, workingEnv]) .ACC
    (by decide)

end Runs

end BaseDrivers.PollingTimers
