import Mathlib.Tactic.SplitIfs
import BaseDrivers.DemoInstance

/-!
# What a configuration of the instance leaves alone

Configuring the chip changes rates, timers and the FIFO. It does not change
which sensors are enabled or being flushed, nor their ids, and what it asks
for is confined to reads, timers and writes of a few registers.
-/

set_option autoImplicit false

namespace BaseDrivers.InstanceFrame
open BaseDrivers.Execution BaseDrivers.DemoCommon BaseDrivers.DemoInstance

/-- From `x` to `y` only effects that satisfy `p` were added. -/
structure Frame (p : Effect → Prop) (x y : Inst) : Prop where
  enabled : y.istate.sensor_enabled = x.istate.sensor_enabled
  flushing : y.istate.flushing_sensors = x.istate.flushing_sensors
  suid : ∀ s, (y.cfg s).suid = (x.cfg s).suid
  out : ∃ es, y.out = x.out++es ∧ ∀ e ∈ es, p e

namespace Frame
variable {p q : Effect → Prop} {x y z : Inst}

theorem refl (p : Effect → Prop) (x : Inst) : Frame p x x :=
  ⟨rfl,rfl,fun _ => rfl,[],by simp,by simp⟩

theorem trans (hxy : Frame p x y) (hyz : Frame p y z) : Frame p x z := by
  obtain ⟨es,he,hp⟩ := hxy.out
  obtain ⟨es',he',hp'⟩ := hyz.out
  refine ⟨hyz.enabled.trans hxy.enabled,hyz.flushing.trans hxy.flushing,
    fun s => (hyz.suid s).trans (hxy.suid s),es++es',?_,?_⟩
  · rw [he', he, List.append_assoc]
  · intro e h
    rcases List.mem_append.mp h with h | h
    · exact hp e h
    · exact hp' e h

theorem mono (h : Frame p x y) (hpq : ∀ e, p e → q e) : Frame q x y := by
  obtain ⟨es,he,hp⟩ := h.out
  exact ⟨h.enabled,h.flushing,h.suid,es,he,fun e h => hpq e (hp e h)⟩

theorem emit (h : Frame p x y) {e : Effect} (he : p e) : Frame p x (y.emit e) := by
  obtain ⟨es,ho,hp⟩ := h.out
  refine ⟨h.enabled,h.flushing,h.suid,es++[e],?_,?_⟩
  · simp [Inst.emit, ho]
  · intro f hf
    rcases List.mem_append.mp hf with hf | hf
    · exact hp f hf
    · rw [List.mem_singleton.mp hf]
      exact he

theorem setCfg (h : Frame p x y) {s : SensorIdx} {c : DemoSsCfg}
    (hc : c.suid = (y.cfg s).suid) : Frame p x (y.setCfg s c) := by
  refine ⟨h.enabled,h.flushing,?_,h.out⟩
  intro t
  rw [← h.suid t]
  by_cases ht : t = s
  · subst ht
    simpa [Inst.cfg, Inst.setCfg] using hc
  · simp [Inst.cfg, Inst.setCfg, ht]

theorem fifo (h : Frame p x y) (m : SensorType) :
    Frame p x { y with istate.fifo_enabled := m } :=
  ⟨h.enabled,h.flushing,h.suid,h.out⟩

theorem mem (h : Frame p x y) {e : Effect} (he : ¬ p e) : e ∈ y.out ↔ e ∈ x.out := by
  obtain ⟨es,ho,hp⟩ := h.out
  rw [ho, List.mem_append]
  exact or_iff_left (fun hm => he (hp e hm))

end Frame

def configured (out : List Effect) : List Suid :=
  out.filterMap (fun e => match e with | .config_event suid _ => some suid | _ => none)

def flushed (out : List Effect) : List Suid :=
  out.filterMap (fun e => match e with | .flush_event suid => some suid | _ => none)

def Wrote (addr : UInt8) (out : List Effect) : Prop := ∃ b, .write addr b ∈ out

def bytesTo (addr : UInt8) : Effect → Option (List UInt8)
  | .write a bytes => if a = addr then some bytes else none
  | _ => none

/-- What was written to a register, in order. -/
def written (addr : UInt8) (out : List Effect) : List (List UInt8) := out.filterMap (bytesTo addr)

/-- Effects no client sees. -/
def Silent : Effect → Prop
  | .config_event _ _ => False
  | .flush_event _ => False
  | _ => True

/-- The effects of configuring the chip through the register `addr`. -/
def Configures (addr : UInt8) : Effect → Prop
  | .read _ => True
  | .create _ => True
  | .remove _ => True
  | .timer_config _ _ _ _ => True
  | .write a _ =>
    a = addr ∨ a = DEMO_FIFO_CONF_ADDR ∨ a = DEMO_FIFO_CTRL_ADDR ∨ a = DEMO_FIFO_WTM_ADDR
  | _ => False

theorem configures_silent (addr : UInt8) (e : Effect) (h : Configures addr e) : Silent e := by
  cases e <;> first | exact h | trivial

theorem configures_write (addr a : UInt8) (b : List UInt8)
    (hf : a ≠ DEMO_FIFO_CONF_ADDR ∧ a ≠ DEMO_FIFO_CTRL_ADDR ∧ a ≠ DEMO_FIFO_WTM_ADDR)
    (ha : a ≠ addr) : ¬ Configures addr (.write a b) := by
  intro h
  rcases h with h | h | h | h
  · exact ha h
  · exact hf.1 h
  · exact hf.2.1 h
  · exact hf.2.2 h

theorem bytesTo_of_ne {addr : UInt8} {e : Effect} (he : ∀ bytes, e ≠ .write addr bytes) :
    bytesTo addr e = none := by
  cases e with
  | write a bytes =>
    apply if_neg
    intro ha
    exact he bytes (by rw [ha])
  | _ => rfl

theorem written_emit_of_ne {addr : UInt8} {e : Effect} (he : ∀ bytes, e ≠ .write addr bytes)
    (x : Inst) : written addr (x.emit e).out = written addr x.out := by
  rw [Inst.emit, written, List.filterMap_append, List.filterMap_cons, bytesTo_of_ne he]
  exact List.append_nil _

theorem written_emit (addr : UInt8) (bytes : List UInt8) (x : Inst) :
    written addr (x.emit (.write addr bytes)).out = written addr x.out++[bytes] := by
  rw [Inst.emit, written, List.filterMap_append, List.filterMap_cons, bytesTo, if_pos rfl]
  rfl

/-- Where two bytes were written last, what holds of the last two holds of them. -/
theorem last_pair {l l' : List (List UInt8)} {a b : UInt8} (h : l' = l++[[a,b]])
    {P : UInt8 → UInt8 → Prop} : (∃ c d, l' = l++[[c,d]] ∧ P c d) ↔ P a b := by
  constructor
  · rintro ⟨c,d,hcd,hP⟩
    rw [h, List.append_cancel_left_eq, List.cons.injEq, List.cons.injEq, List.cons.injEq] at hcd
    obtain ⟨⟨rfl,rfl,-⟩,-⟩ := hcd
    exact hP
  · exact fun hP => ⟨a,b,h,hP⟩

theorem frame_written {p : Effect → Prop} {x y : Inst} {addr : UInt8} (h : Frame p x y)
    (ha : ∀ bytes, ¬ p (.write addr bytes)) : written addr y.out = written addr x.out := by
  obtain ⟨es,ho,hp⟩ := h.out
  rw [ho, written, written, List.filterMap_append, List.append_right_eq_self]
  apply List.filterMap_eq_nil_iff.mpr
  intro e he
  apply bytesTo_of_ne
  rintro bytes rfl
  exact ha bytes (hp _ he)

theorem silent_configured {x y : Inst} (h : Frame Silent x y) :
    configured y.out = configured x.out := by
  obtain ⟨es,ho,hp⟩ := h.out
  rw [ho, configured, configured, List.filterMap_append, List.append_right_eq_self]
  apply List.filterMap_eq_nil_iff.mpr
  intro e he
  cases e <;> first | rfl | exact (hp _ he).elim

theorem silent_flushed {x y : Inst} (h : Frame Silent x y) : flushed y.out = flushed x.out := by
  obtain ⟨es,ho,hp⟩ := h.out
  rw [ho, flushed, flushed, List.filterMap_append, List.append_right_eq_self]
  apply List.filterMap_eq_nil_iff.mpr
  intro e he
  cases e <;> first | rfl | exact (hp _ he).elim

section Config
variable (env : Env) (pf_cfg : PfCfg) (addr : UInt8) {x y : Inst}

theorem polling_timer_frame (s : SensorIdx) (h : Frame (Configures addr) x y) :
    Frame (Configures addr) x (demo_start_sensor_polling_timer env s y) := by
  simp only [demo_start_sensor_polling_timer]
  split_ifs
  · exact (h.emit (by trivial)).setCfg (by rfl)
  · exact (((h.emit (by trivial)).setCfg (by rfl)).emit (by trivial)).setCfg (by rfl)
  · exact h
  · exact (h.emit (by trivial)).setCfg (by rfl)

theorem polling_config_frame (s : SensorIdx) (h : Frame (Configures addr) x y) :
    Frame (Configures addr) x (demo_set_sensor_polling_config env s y) := by
  simp only [demo_set_sensor_polling_config]
  split_ifs
  · exact polling_timer_frame env addr s (h.setCfg (by rfl))
  · exact h
  · exact (h.setCfg (by rfl)).emit (by trivial)
  · exact h.setCfg (by rfl)
  · exact h

theorem config_fifo_frame (h : Frame (Configures addr) x y) :
    Frame (Configures addr) x (demo_config_fifo y) := by
  have hw : Frame (Configures addr) x (((y.emit (.write DEMO_FIFO_CONF_ADDR [0x00,0x00])).emit
      (.write DEMO_FIFO_CTRL_ADDR [0x01,0x00])).emit (.write DEMO_FIFO_WTM_ADDR
        [GET_LSB ((y.cfg .ACC).wtm.toNat*3),GET_MSB ((y.cfg .ACC).wtm.toNat*3)])) :=
    ((h.emit (by right; left; rfl)).emit (by right; right; left; rfl)).emit (by right; right; right; rfl)
  simp only [demo_config_fifo]
  apply Frame.emit _ (by right; left; rfl)
  split_ifs
  · exact (hw.fifo _).fifo _
  · exact hw.fifo _
  · exact hw.fifo _
  · exact hw

theorem config_imu_frame (s : SensorIdx) (h : Frame (Configures addr) x y) :
    Frame (Configures addr) x (config_imu env pf_cfg s addr y) := by
  simp only [config_imu]
  split_ifs
  · exact (config_fifo_frame addr ((h.emit (by trivial)).setCfg (by rfl))).emit (by left; rfl)
  · exact polling_config_frame env addr s (((h.emit (by trivial)).setCfg (by rfl)).emit (by left; rfl))

theorem config_imu_wrote (s : SensorIdx) (y : Inst) :
    Wrote addr (config_imu env pf_cfg s addr y).out := by
  have hw : ∀ (z : Inst) (b : List UInt8), .write addr b ∈ (z.emit (.write addr b)).out := by
    intro z b
    simp [Inst.emit]
  simp only [config_imu]
  split_ifs
  · exact ⟨_,hw _ _⟩
  · obtain ⟨es,ho,-⟩ := (polling_config_frame env addr s (Frame.refl (Configures addr) _)).out
    rw [ho]
    exact ⟨_,List.mem_append_left _ (hw _ _)⟩

/-- The register of the sensor is written once, with its rate code in the low
half and the power mode that goes with the rate. -/
theorem config_imu_written (s : SensorIdx) (y : Inst)
    (hf : addr ≠ DEMO_FIFO_CONF_ADDR ∧ addr ≠ DEMO_FIFO_CTRL_ADDR ∧ addr ≠ DEMO_FIFO_WTM_ADDR)
    (h0 : addr ≠ 0) : written addr (config_imu env pf_cfg s addr y).out = written addr y.out++
      [[(demo_com_read_wrapper y.istate.com_port (env.bus addr) 0 &&& ~~~DEMO_ACC_CONF_ODR_MASK)
          ||| (demo_compute_odr env (clampRate pf_cfg (y.cfg s).sample_rate)).1,
        powerMode (demo_compute_odr env (clampRate pf_cfg (y.cfg s).sample_rate)).2]] := by
  have hpoll : ∀ z : Inst, written addr (demo_set_sensor_polling_config env s z).out =
      written addr z.out := fun z => frame_written (polling_config_frame env 0 s (Frame.refl _ z))
    (fun b => configures_write 0 addr b hf h0)
  have hfifo : ∀ z : Inst, written addr (demo_config_fifo z).out = written addr z.out :=
    fun z => frame_written (config_fifo_frame 0 (Frame.refl _ z))
      (fun b => configures_write 0 addr b hf h0)
  have hread : written addr (y.emit (.read addr)).out = written addr y.out :=
    written_emit_of_ne (fun _ h => by cases h) y
  simp only [config_imu]
  split_ifs
  · rw [written_emit, hfifo]
    exact congrArg (·++_) hread
  · rw [hpoll, written_emit]
    exact congrArg (·++_) hread

theorem config_temp_frame (h : Frame (Configures addr) x y) :
    Frame (Configures addr) x (config_temp env pf_cfg y) := by
  simp only [config_temp]
  split_ifs
  · exact h.setCfg (by rfl)
  · exact polling_config_frame env addr .TEMP (h.setCfg (by rfl))

theorem config_hw_frame (env : Env) (pf_cfg : PfCfg) (x : Inst) :
    Frame Silent x (demo_config_hw env pf_cfg x) := by
  have hi : ∀ (y : Inst) (s : SensorIdx) (addr : UInt8),
      Frame Silent y (config_imu env pf_cfg s addr y) :=
    fun y s addr => (config_imu_frame env pf_cfg addr s (Frame.refl _ y)).mono
      (configures_silent addr)
  have ht : ∀ y : Inst, Frame Silent y (config_temp env pf_cfg y) :=
    fun y => (config_temp_frame env pf_cfg 0 (Frame.refl _ y)).mono (configures_silent 0)
  simp only [demo_config_hw]
  split_ifs
  · exact ((hi _ _ _).trans (hi _ _ _)).trans (ht _)
  · exact (hi _ _ _).trans (hi _ _ _)
  · exact (hi _ _ _).trans (ht _)
  · exact hi _ _ _
  · exact (hi _ _ _).trans (ht _)
  · exact hi _ _ _
  · exact ht _
  · exact Frame.refl _ _

theorem frame_wrote {x y : Inst} {p : Effect → Prop} {a : UInt8} (h : Frame p x y)
    (ha : ∀ b, ¬ p (.write a b)) : Wrote a y.out ↔ Wrote a x.out :=
  exists_congr (fun b => h.mem (ha b))

/-- The two sensors in the FIFO are configured through their own register,
exactly when they are enabled. -/
theorem config_hw_wrote (env : Env) (pf_cfg : PfCfg) (x : Inst) :
    (Wrote DEMO_ACC_CONF_ADDR (demo_config_hw env pf_cfg x).out ↔
      Wrote DEMO_ACC_CONF_ADDR x.out ∨ has x.istate.sensor_enabled .ACC = true) ∧
    (Wrote DEMO_GYR_CONF_ADDR (demo_config_hw env pf_cfg x).out ↔
      Wrote DEMO_GYR_CONF_ADDR x.out ∨ has x.istate.sensor_enabled .GYR = true) := by
  have hacc : ∀ y : Inst, Wrote DEMO_GYR_CONF_ADDR
      (config_imu env pf_cfg .ACC DEMO_ACC_CONF_ADDR y).out ↔ Wrote DEMO_GYR_CONF_ADDR y.out :=
    fun y => frame_wrote (config_imu_frame env pf_cfg DEMO_ACC_CONF_ADDR .ACC (Frame.refl _ y))
      (fun b => configures_write _ _ b (by decide) (by decide))
  have hgyr : ∀ y : Inst, Wrote DEMO_ACC_CONF_ADDR
      (config_imu env pf_cfg .GYR DEMO_GYR_CONF_ADDR y).out ↔ Wrote DEMO_ACC_CONF_ADDR y.out :=
    fun y => frame_wrote (config_imu_frame env pf_cfg DEMO_GYR_CONF_ADDR .GYR (Frame.refl _ y))
      (fun b => configures_write _ _ b (by decide) (by decide))
  have htemp : ∀ (y : Inst) (a : UInt8), a ≠ DEMO_FIFO_CONF_ADDR ∧ a ≠ DEMO_FIFO_CTRL_ADDR ∧
      a ≠ DEMO_FIFO_WTM_ADDR → a ≠ 0 → (Wrote a (config_temp env pf_cfg y).out ↔ Wrote a y.out) :=
    fun y a hf h0 => frame_wrote (config_temp_frame env pf_cfg 0 (Frame.refl _ y))
      (fun b => configures_write _ _ b hf h0)
  have he : ∀ (y : Inst) (s : SensorIdx) (addr : UInt8),
      (config_imu env pf_cfg s addr y).istate.sensor_enabled = y.istate.sensor_enabled :=
    fun y s addr => (config_imu_frame env pf_cfg addr s (Frame.refl _ y)).enabled
  have hw := config_imu_wrote env pf_cfg
  simp only [demo_config_hw]
  by_cases ha : has x.istate.sensor_enabled .ACC = true <;>
    by_cases hg : has x.istate.sensor_enabled .GYR = true <;>
    by_cases ht : has x.istate.sensor_enabled .TEMP = true <;>
    simp [ha, hg, ht, he, hacc, hgyr, hw, htemp _ DEMO_ACC_CONF_ADDR (by decide) (by decide),
      htemp _ DEMO_GYR_CONF_ADDR (by decide) (by decide)]

theorem register_interrupt_frame (p : Effect → Prop) (hp : ∀ c b, p (.irq_request c b))
    (env : Env) (ss_cfg : SsCfg) (x : Inst) :
    Frame p x (demo_hal_register_interrupt env ss_cfg x) := by
  have hi : ∀ y : Inst, Frame p x y →
      Frame p x { y with istate.irq_info.irq_registered := true } :=
    fun y h => ⟨h.enabled,h.flushing,h.suid,h.out⟩
  simp only [demo_hal_register_interrupt]
  split_ifs
  · exact Frame.refl _ _
  · exact Frame.refl _ _
  · exact hi _ ((Frame.refl p x).emit (hp _ _))
  · exact Frame.refl _ _

def configEvent (x : Inst) (s : SensorIdx) : Effect :=
  .config_event (x.cfg s).suid (physicalConfig s (x.cfg s))

theorem send_configs (ss : List SensorIdx) (x : Inst) :
    ss.foldl (fun x s => send_config s x) x =
      { x with out := x.out++(ss.filter (has x.istate.sensor_enabled)).map (configEvent x) } := by
  induction ss generalizing x with
  | nil => simp
  | cons s ss ih =>
    rw [List.foldl_cons, ih]
    by_cases hs : has x.istate.sensor_enabled s = true
    · simp [send_config, hs, Inst.emit, configEvent, Inst.cfg]
    · simp [send_config, hs]

theorem send_config_out (x : Inst) : demo_send_config_event x =
    { x with
      out := x.out++(SensorIdx.all.filter (has x.istate.sensor_enabled)).map (configEvent x) } :=
  send_configs SensorIdx.all x

theorem configured_events (x : Inst) (ss : List SensorIdx) :
    configured (ss.map (configEvent x)) = ss.map (fun s => (x.cfg s).suid) := by
  induction ss with
  | nil => rfl
  | cons s ss ih =>
    rw [List.map_cons, List.map_cons, ← ih]
    rfl

theorem configured_append (as bs : List Effect) :
    configured (as++bs) = configured as++configured bs := List.filterMap_append

theorem flushed_append (as bs : List Effect) : flushed (as++bs) = flushed as++flushed bs :=
  List.filterMap_append

theorem wrote_append (a : UInt8) (as bs : List Effect) :
    Wrote a (as++bs) ↔ Wrote a as ∨ Wrote a bs := by
  simp [Wrote, exists_or]

/-- What a configuration request for the sensor `s` makes of the instance. -/
structure Reconfigured (s : SensorIdx) (x y : Inst) : Prop where
  enabled : y.istate.sensor_enabled = x.istate.sensor_enabled ||| sensorType s
  flushing : y.istate.flushing_sensors = x.istate.flushing_sensors
  suid : ∀ t, (y.cfg t).suid = (x.cfg t).suid
  events : configured y.out = configured x.out++
    (SensorIdx.all.filter (has (x.istate.sensor_enabled ||| sensorType s))).map
      (fun t => (x.cfg t).suid)
  flushes : flushed y.out = flushed x.out
  acc : Wrote DEMO_ACC_CONF_ADDR y.out ↔ Wrote DEMO_ACC_CONF_ADDR x.out ∨
    has (x.istate.sensor_enabled ||| sensorType s) .ACC = true
  gyr : Wrote DEMO_GYR_CONF_ADDR y.out ↔ Wrote DEMO_GYR_CONF_ADDR x.out ∨
    has (x.istate.sensor_enabled ||| sensorType s) .GYR = true

theorem wrote_events (a : UInt8) (x : Inst) (ss : List SensorIdx) :
    ¬ Wrote a (ss.map (configEvent x)) := by
  rintro ⟨b,hb⟩
  obtain ⟨s,-,hs⟩ := List.mem_map.mp hb
  cases hs

theorem sensor_config_reconfigures (env : Env) (pf_cfg : PfCfg) (ss_cfg : SsCfg) (s : SensorIdx)
    (x : Inst) : Reconfigured s x (sensor_config env pf_cfg ss_cfg s x) := by
  let x1 : Inst := { x with istate.sensor_enabled := x.istate.sensor_enabled ||| sensorType s }
  let x2 := demo_hal_register_interrupt env ss_cfg x1
  let x3 := demo_send_config_event x2
  have hr := register_interrupt_frame Silent (fun _ _ => trivial) env ss_cfg x1
  have hw : ∀ a, Wrote a x2.out ↔ Wrote a x1.out := by
    intro a
    have h := register_interrupt_frame (fun e => ∀ b, e ≠ .write a b) (by simp) env ss_cfg x1
    exact frame_wrote h (fun b hb => hb b rfl)
  have he : x2.istate.sensor_enabled = x.istate.sensor_enabled ||| sensorType s := hr.enabled
  have hsuid : (fun t => (x2.cfg t).suid) = fun t => (x.cfg t).suid := by
    ext1 t
    exact hr.suid t
  have ho : x3.out = x2.out++
      (SensorIdx.all.filter (has (x.istate.sensor_enabled ||| sensorType s))).map
        (configEvent x2) := by
    rw [← he]
    exact congrArg Inst.out (send_config_out x2)
  have h3 : x3.istate = x2.istate := by
    have h := congrArg Inst.istate (send_config_out x2)
    exact h
  have hc := config_hw_frame env pf_cfg x3
  have hcw := config_hw_wrote env pf_cfg x3
  rw [h3, he, ho, wrote_append, wrote_append, hw, hw] at hcw
  simp only [wrote_events, or_false] at hcw
  have hcfg : ∀ t, (x3.cfg t).suid = (x.cfg t).suid := by
    intro t
    rw [← congrFun hsuid t, Inst.cfg, h3]
    rfl
  refine ⟨?_,?_,?_,?_,?_,hcw.1,hcw.2⟩
  · exact hc.enabled.trans ((congrArg _ h3).trans he)
  · exact hc.flushing.trans ((congrArg _ h3).trans hr.flushing)
  · exact fun t => (hc.suid t).trans (hcfg t)
  · apply (silent_configured hc).trans
    rw [ho, configured_append, configured_events, silent_configured hr, hsuid]
  · apply (silent_flushed hc).trans
    rw [ho, flushed_append, silent_flushed hr]
    have hf : ∀ ss : List SensorIdx, flushed (ss.map (configEvent x2)) = [] := by
      intro ss
      induction ss with
      | nil => rfl
      | cons t ss ih => exact ih
    rw [hf, List.append_nil]

theorem set_config_reconfigures (env : Env) (pf_cfg : PfCfg) (ss_cfgs : SensorIdx → SsCfg)
    (s : SensorIdx) (x : Inst) :
    Reconfigured s x (demo_instance_set_client_config env pf_cfg ss_cfgs (.SENSOR_CONFIG s) x) := by
  have h := sensor_config_reconfigures env pf_cfg (ss_cfgs s) s (x.emit (.bus_power true))
  have hout : ∀ (y : Inst) (on : Bool), configured (y.emit (.bus_power on)).out = configured y.out ∧
      flushed (y.emit (.bus_power on)).out = flushed y.out ∧
      ∀ a, Wrote a (y.emit (.bus_power on)).out ↔ Wrote a y.out := by
    intro y on
    refine ⟨?_,?_,fun a => ?_⟩
    · simp [Inst.emit, configured]
    · simp [Inst.emit, flushed]
    · simp [Inst.emit, Wrote]
  obtain ⟨hc,hf,hw⟩ := hout x true
  obtain ⟨hc',hf',hw'⟩ := hout
    (sensor_config env pf_cfg (ss_cfgs s) s (x.emit (.bus_power true))) false
  exact ⟨h.enabled,h.flushing,h.suid,by rw [← hc]; exact hc'.trans h.events,
    by rw [← hf]; exact hf'.trans h.flushes,by rw [← hw]; exact (hw' _).trans h.acc,
    by rw [← hw]; exact (hw' _).trans h.gyr⟩

end Config

section Init
variable {x y : Inst}

/-- The effects of making an instance and of taking it down again. -/
def Starts : Effect → Prop
  | .config_event _ _ => False
  | .flush_event _ => False
  | .write a _ => a = DEMO_CMD_ADDR
  | _ => True

theorem starts_silent (e : Effect) (h : Starts e) : Silent e := by
  cases e <;> first | exact h | trivial

theorem remove_stream_frame (st : Stream) (present : Bool) (h : Frame Starts x y) :
    Frame Starts x (removeStream st present y) := by
  simp only [removeStream]
  split_ifs
  · exact h.emit (by trivial)
  · exact h

theorem create_stream_frame (env : Env) (st : Stream) (h : Frame Starts x y) :
    Frame Starts x (createStream env st y) := by
  simp only [createStream]
  split_ifs
  · exact h.emit (by trivial)
  · exact h

theorem remove_polls_frame (ss : List SensorIdx) (h : Frame Starts x y) :
    Frame Starts x (ss.foldl (fun x s => removePoll s x) y) := by
  induction ss generalizing y with
  | nil => exact h
  | cons s ss ih =>
    apply ih
    have hr := remove_stream_frame (.poll s) (y.cfg s).timer_stream h
    refine hr.setCfg ?_
    exact (h.suid s).trans (hr.suid s).symm

theorem instance_clean_frame (h : Frame Starts x y) :
    Frame Starts x (demo_instance_clean y) := by
  let y1 := removeStream .irq y.istate.irq_stream y
  let y2 := removeStream .ascp y1.istate.ascp_stream y1
  let y3 := removeStream .timer y2.istate.timer_stream y2
  have h3 : Frame Starts x y3 :=
    remove_stream_frame _ _ (remove_stream_frame _ _ (remove_stream_frame _ _ h))
  have h4 : Frame Starts x { y3 with
      istate.irq_stream := false, istate.ascp_stream := false, istate.timer_stream := false } :=
    ⟨h3.enabled,h3.flushing,h3.suid,h3.out⟩
  have h5 := ((remove_polls_frame SensorIdx.all h4).emit (e := .close_port) (by trivial)).emit
    (e := .deregister_port) (by trivial)
  exact ⟨h5.enabled,h5.flushing,h5.suid,h5.out⟩

/-- A property kept by every step of the initialization but the clean-up. -/
structure InitKeeps (env : Env) (I : Inst → Prop) : Prop where
  poll : ∀ y s, I y → I (createPoll env s y)
  stream : ∀ y st, I y → I (createStream env st y)
  streams : ∀ (y : Inst) (a b c : Bool), I y → I { y with
    istate.irq_stream := a, istate.ascp_stream := b, istate.timer_stream := c }
  port : ∀ (y : Inst) (c : ComPortConfig), I y →
    I { y.emit (.register_port c) with istate.com_port.port_handle := true }
  connect : ∀ (y : Inst) (c : ComPortConfig), I y →
    I (((y.emit .open_port).emit (.bus_power false)).emit (.ascp_request c))
  reset : ∀ y, I y → I (demo_hal_reset_device y)

/-- The initialization ends with the clean-up of such an instance and fails,
or with such an instance. -/
theorem init_cases {env : Env} {I : Inst → Prop} (hk : InitKeeps env I) (hw_idx : Fin 2)
    (common : CommonState) (ss_cfgs : SensorIdx → SsCfg)
    (h0 : I ⟨initialState hw_idx common ss_cfgs,[]⟩) :
    (∃ y, I y ∧ demo_instance_init env hw_idx common ss_cfgs = (false,demo_instance_clean y)) ∨
      I (demo_instance_init env hw_idx common ss_cfgs).2 := by
  have hpolls : ∀ (ss : List SensorIdx) (y : Inst), I y →
      I (ss.foldl (fun x s => createPoll env s x) y) := by
    intro ss
    induction ss with
    | nil => exact fun y hy => hy
    | cons s ss ih => exact fun y hy => ih _ (hk.poll y s hy)
  have hs := hk.streams _ (env.stream_ok .irq) (env.stream_ok .ascp) (env.stream_ok .timer)
    (hk.stream _ .timer (hk.stream _ .ascp (hk.stream _ .irq (hpolls SensorIdx.all _ h0))))
  simp only [demo_instance_init]
  split_ifs
  · exact .inl ⟨_,hk.port _ _ hs,rfl⟩
  · exact .inr (hk.reset _ (hk.connect _ _ (hk.port _ _ hs)))
  · exact .inl ⟨_,hs,rfl⟩
  · exact .inr (hk.reset _ (hk.connect _ _ hs))

theorem init_successful {env : Env} {I : Inst → Prop} (hk : InitKeeps env I) {hw_idx : Fin 2}
    {common : CommonState} {ss_cfgs : SensorIdx → SsCfg} {x : Inst}
    (h0 : I ⟨initialState hw_idx common ss_cfgs,[]⟩)
    (h : demo_instance_init env hw_idx common ss_cfgs = (true,x)) : I x := by
  rcases init_cases hk hw_idx common ss_cfgs h0 with ⟨y,_,hy⟩ | hx
  · rw [h] at hy
    cases hy
  · rwa [h] at hx

theorem init_keeps_frame (env : Env) (x : Inst) : InitKeeps env (Frame Starts x) where
  poll y s h := by
    rw [createPoll]
    split_ifs
    · exact (h.emit (by trivial)).setCfg (by rfl)
    · exact h
  stream y st h := create_stream_frame env st h
  streams y a b c h := ⟨h.enabled,h.flushing,h.suid,h.out⟩
  port y c h := by
    have he := h.emit (e := .register_port c) (by trivial)
    exact ⟨he.enabled,he.flushing,he.suid,he.out⟩
  connect y c h := ((h.emit (by trivial)).emit (by trivial)).emit (by trivial)
  reset y h := by
    have he := h.emit (e := .write DEMO_CMD_ADDR [0xAF,0xDE]) rfl
    rw [demo_hal_reset_device]
    split_ifs
    · exact ⟨he.enabled,he.flushing,he.suid,he.out⟩
    · exact h

/-- A new instance has no enabled sensor and nothing to flush, and it has
told no client anything. -/
theorem instance_init_frame (env : Env) (hw_idx : Fin 2) (common : CommonState)
    (ss_cfgs : SensorIdx → SsCfg) :
    Frame Starts ⟨initialState hw_idx common ss_cfgs,[]⟩
      (demo_instance_init env hw_idx common ss_cfgs).2 := by
  rcases init_cases (init_keeps_frame env _) hw_idx common ss_cfgs (Frame.refl Starts _)
    with ⟨y,hy,h⟩ | h
  · rw [h]
    exact instance_clean_frame hy
  · exact h

end Init

end BaseDrivers.InstanceFrame
