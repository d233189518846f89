import Mathlib.Tactic.SplitIfs
import BaseDrivers.PollingTimers

/-!
# Registering the interrupt

The sensors of a chip share one interrupt line and one bit that says whether
it is registered. A request for a sensor with an interrupt line sends the
registration while the bit is clear, and sets the bit with it. What becomes
of the registration is only logged.
-/

set_option autoImplicit false

namespace BaseDrivers.IrqRegistration
open BaseDrivers.Execution BaseDrivers.DemoCommon BaseDrivers.DemoInstance BaseDrivers.DemoSensor
open BaseDrivers.InstanceFrame BaseDrivers.PollingTimers

/-- The bit, and whether each registration sent so far was accepted. -/
structure Registration where
  registered : Bool
  answers : List Bool
  deriving DecidableEq

/-- The request is for a sensor with an interrupt line. -/
def dri (r : Requested) : Bool := (r.ss_cfgs r.sensor).is_dri

namespace Registration

def request (g : Registration) (r : Requested) : Registration :=
  if dri r && !g.registered && r.env.encode_ok then ⟨true,g.answers++[r.env.send_ok]⟩ else g

/-- The bit stands for an accepted registration, and there is at most one. -/
def Sound (g : Registration) : Prop :=
  (g.registered = true → true ∈ g.answers) ∧ g.answers.count true ≤ 1

/-- As long as no registration was accepted, a request for a sensor with an
interrupt line sends one. -/
def Retries (g : Registration) (r : Requested) : Prop :=
  dri r = true → true ∉ g.answers → ∃ accepted, (g.request r).answers = g.answers++[accepted]

theorem request_settled (g : Registration) (hg : g.registered = true) (r : Requested) :
    g.request r = g := by
  rw [request, hg]
  simp

/-- An accepted registration is the last one. -/
theorem accepted_settled (rs : List Requested) : Always request Sound ⟨true,[true]⟩ rs ∧
    Along request Retries ⟨true,[true]⟩ rs := by
  have hsound : Sound ⟨true,[true]⟩ := ⟨fun _ => List.mem_singleton_self _,Nat.le_refl _⟩
  have hretry : ∀ r, Retries ⟨true,[true]⟩ r := fun r _ hn => (hn (List.mem_singleton_self _)).elim
  induction rs with
  | nil => exact ⟨(always_nil _ _ _).mpr hsound,trivial⟩
  | cons r rs ih =>
    rw [always_cons, Along, request_settled _ rfl]
    exact ⟨⟨hsound,ih.1⟩,hretry r,ih.2⟩

/-- From the start, everything depends on the first request for a sensor with
an interrupt line. -/
theorem first_decides (rs : List Requested) :
    (Always request Sound ⟨false,[]⟩ rs ∧ Along request Retries ⟨false,[]⟩ rs) ↔
      ∀ r, rs.find? dri = some r → r.env.encode_ok = true ∧ r.env.send_ok = true := by
  have hsound : Sound ⟨false,[]⟩ := ⟨fun h => (Bool.false_ne_true h).elim,Nat.zero_le _⟩
  induction rs with
  | nil => simp [always_nil, Along, hsound]
  | cons r rs ih =>
    rw [always_cons, Along]
    cases hd : dri r with
    | false =>
      -- nothing is sent
      have hreq : request ⟨false,[]⟩ r = ⟨false,[]⟩ := by simp [request, hd]
      have hretry : Retries ⟨false,[]⟩ r := by
        intro h
        rw [hd] at h
        cases h
      rw [hreq, List.find?_cons_of_neg (by simp [hd])]
      apply Iff.trans _ ih
      exact ⟨fun h => ⟨h.1.2,h.2.2⟩,fun h => ⟨⟨hsound,h.1⟩,hretry,h.2⟩⟩
    | true =>
      rw [List.find?_cons_of_pos hd]
      have hfirst : (∀ r', some r = some r' → r'.env.encode_ok = true ∧ r'.env.send_ok = true) ↔
          r.env.encode_ok = true ∧ r.env.send_ok = true := by simp
      rw [hfirst]
      constructor
      · rintro ⟨⟨-,ha⟩,hr,-⟩
        have henc : r.env.encode_ok = true := by
          by_contra henc
          obtain ⟨accepted,h⟩ := hr hd (by simp)
          simp [request, henc] at h
        have hreq : request ⟨false,[]⟩ r = ⟨true,[r.env.send_ok]⟩ := by
          simp [request, hd, henc]
        have hs : Sound (request ⟨false,[]⟩ r) := ha 0 (Nat.zero_le _)
        rw [hreq] at hs
        exact ⟨henc,(List.mem_singleton.mp (hs.1 rfl)).symm⟩
      · rintro ⟨henc,hsend⟩
        have hreq : request ⟨false,[]⟩ r = ⟨true,[true]⟩ := by
          simp [request, hd, henc, hsend]
        obtain ⟨hal,hlo⟩ := accepted_settled rs
        rw [hreq]
        exact ⟨⟨hsound,hal⟩,fun _ _ => ⟨true,by rw [hreq]; rfl⟩,hlo⟩

end Registration

/-- The answer to a registration. -/
def answer : Effect → Option Bool
  | .irq_request _ accepted => some accepted
  | _ => none

/-- Whether each registration sent was accepted, in order. -/
def answers (out : List Effect) : List Bool := out.filterMap answer

def registration (x : Inst) : Registration := ⟨x.istate.irq_info.irq_registered,answers x.out⟩

section Refines
variable (env : Env) (pf_cfg : PfCfg) (t : SensorIdx) (x : Inst)

theorem answers_append (as bs : List Effect) : answers (as++bs) = answers as++answers bs :=
  List.filterMap_append

theorem emit_registration {e : Effect} (he : answer e = none) :
    registration (x.emit e) = registration x := by
  rw [registration, Inst.emit, answers_append, answers, answers, List.filterMap_cons, he,
    List.filterMap_nil, List.append_nil]
  rfl

theorem start_timer_registration :
    registration (demo_start_sensor_polling_timer env t x) = registration x := by
  simp only [demo_start_sensor_polling_timer]
  split_ifs
  · exact emit_registration x rfl
  · exact (emit_registration _ rfl).trans (emit_registration x rfl)
  · rfl
  · exact emit_registration x rfl

theorem polling_config_registration :
    registration (demo_set_sensor_polling_config env t x) = registration x := by
  simp only [demo_set_sensor_polling_config]
  split_ifs
  · exact start_timer_registration env t _
  · rfl
  · exact emit_registration _ rfl
  · rfl
  · rfl

theorem config_fifo_registration : registration (demo_config_fifo x) = registration x := by
  have h := (emit_registration ((x.emit (.write DEMO_FIFO_CONF_ADDR [0x00,0x00])).emit
    (.write DEMO_FIFO_CTRL_ADDR [0x01,0x00])) (e := .write DEMO_FIFO_WTM_ADDR
      [GET_LSB ((x.cfg .ACC).wtm.toNat*3),GET_MSB ((x.cfg .ACC).wtm.toNat*3)]) rfl).trans
    ((emit_registration _ rfl).trans (emit_registration x rfl))
  apply (emit_registration _ rfl).trans
  apply Eq.trans _ h
  split_ifs <;> rfl

theorem config_imu_registration (addr : UInt8) :
    registration (config_imu env pf_cfg t addr x) = registration x := by
  let r := demo_compute_odr env (clampRate pf_cfg (x.cfg t).sample_rate)
  let y := (x.emit (.read addr)).setCfg t
    { x.cfg t with sample_rate := r.2, wtm := quotient16 env r.2 (x.cfg t).report_rate }
  let z := (if (y.cfg t).ss_cfg.is_dri then demo_config_fifo y else y).emit (.write addr
    [(demo_com_read_wrapper x.istate.com_port (env.bus addr) 0 &&& ~~~DEMO_ACC_CONF_ODR_MASK) |||
      r.1,powerMode r.2])
  have hy : registration y = registration x := emit_registration x rfl
  have hz : registration z = registration x := by
    apply (emit_registration _ rfl).trans
    split_ifs
    · exact (config_fifo_registration y).trans hy
    · exact hy
  show registration (if (y.cfg t).ss_cfg.is_dri then z else demo_set_sensor_polling_config env t z)
    = _
  split_ifs
  · exact hz
  · exact (polling_config_registration env t z).trans hz

theorem config_temp_registration : registration (config_temp env pf_cfg x) = registration x := by
  simp only [config_temp]
  split_ifs
  · rfl
  · exact polling_config_registration env .TEMP _

theorem stage_registration : registration (stage env pf_cfg t x) = registration x := by
  rw [stage]
  split_ifs
  · cases t with
    | ACC => exact config_imu_registration env pf_cfg .ACC x DEMO_ACC_CONF_ADDR
    | GYR => exact config_imu_registration env pf_cfg .GYR x DEMO_GYR_CONF_ADDR
    | MOTION => rfl
    | TEMP => exact config_temp_registration env pf_cfg x
  · rfl

theorem send_config_registration : registration (demo_send_config_event x) = registration x := by
  have hn : answers ((SensorIdx.all.filter (has x.istate.sensor_enabled)).map
      (configEvent x)) = [] := by
    apply List.filterMap_eq_nil_iff.mpr
    intro e he
    obtain ⟨s,-,rfl⟩ := List.mem_map.mp he
    rfl
  rw [send_config_out, registration, answers_append, hn, List.append_nil]
  rfl

theorem register_registration (ss_cfg : SsCfg) :
    registration (demo_hal_register_interrupt env ss_cfg x) =
      if ss_cfg.is_dri && !(registration x).registered && env.encode_ok then
        ⟨true,(registration x).answers++[env.send_ok]⟩
      else registration x := by
  rw [show (registration x).registered = x.istate.irq_info.irq_registered from rfl]
  simp only [demo_hal_register_interrupt]
  cases ss_cfg.is_dri <;> cases x.istate.irq_info.irq_registered <;> cases env.encode_ok <;>
    first | rfl | exact congrArg (Registration.mk true) (answers_append x.out [_])

/-- Requests on instances are requests on their registrations. -/
theorem request_registration (r : Requested) :
    registration (request x r) = (registration x).request r := by
  let x0 := x.setCfg r.sensor (withRates r.env r.chosen (x.cfg r.sensor))
  let x1 := x0.emit (.bus_power true)
  let x2 : Inst :=
    { x1 with istate.sensor_enabled := x1.istate.sensor_enabled ||| sensorType r.sensor }
  let x3 := demo_hal_register_interrupt r.env (r.ss_cfgs r.sensor) x2
  have h2 : registration x2 = registration x := emit_registration x0 rfl
  have h3 : registration x3 = (registration x).request r := by
    rw [show x3 = _ from rfl, register_registration, h2]
    rfl
  have hhw : request x r = (demo_config_hw r.env r.pf_cfg (demo_send_config_event x3)).emit
    (.bus_power false) := rfl
  rw [hhw, emit_registration _ rfl, config_hw_stages, stage_registration, stage_registration,
    stage_registration, send_config_registration, h3]

end Refines

theorem init_keeps_unregistered (env : Env) :
    InitKeeps env (fun y => registration y = ⟨false,[]⟩) where
  poll y s h := by
    rw [createPoll]
    split_ifs
    · exact (emit_registration y rfl).trans h
    · exact h
  stream y st h := by
    rw [createStream]
    split_ifs
    · exact (emit_registration y rfl).trans h
    · exact h
  streams _ _ _ _ h := h
  port y _ h := (emit_registration y rfl).trans h
  connect y _ h := (emit_registration _ rfl).trans ((emit_registration _ rfl).trans
    ((emit_registration y rfl).trans h))
  reset y h := by
    rw [demo_hal_reset_device]
    split_ifs
    · exact (emit_registration y rfl).trans h
    · exact h

/-- After a successful initialization the bit stands for the one accepted
registration, and a failed one is repeated, exactly where the first request
for a sensor with an interrupt line has its registration accepted. -/
theorem registration_retried_iff (env : Env) (hw_idx : Fin 2) (common : CommonState)
    (ss_cfgs : SensorIdx → SsCfg) (x : Inst)
    (hinit : demo_instance_init env hw_idx common ss_cfgs = (true,x)) (rs : List Requested) :
    (Always request (fun y => (y.istate.irq_info.irq_registered = true → true ∈ answers y.out) ∧
        (answers y.out).count true ≤ 1) x rs ∧
      Along request (fun y r => dri r = true → true ∉ answers y.out →
        ∃ accepted, answers (request y r).out = answers y.out++[accepted]) x rs) ↔
    ∀ r, rs.find? dri = some r → r.env.encode_ok = true ∧ r.env.send_ok = true := by
  have hstart : registration x = ⟨false,[]⟩ :=
    init_successful (init_keeps_unregistered env) rfl hinit
  have hstep : ∀ y r, registration (request y r) = (registration y).request r :=
    fun y r => request_registration y r
  rw [← Registration.first_decides, ← hstart, ← always_image registration hstep,
    ← along_image registration hstep]
  apply and_congr Iff.rfl
  apply along_congr
  intro y r
  rw [Registration.Retries, ← hstep]
  exact Iff.rfl

/-- A request for a sensor with an interrupt line. -/
def driRequest (send_ok : Bool) : Requested :=
  { exampleRequest .ACC with
    env := { workingEnv 0 0 with send_ok := send_ok }
    ss_cfgs := fun _ => ⟨true,0,0,false⟩ }

/-- Once accepted, the registration is not sent again, whatever would become
of it. -/
theorem registration_kept :
    Always request (fun y => (y.istate.irq_info.irq_registered = true → true ∈ answers y.out) ∧
        (answers y.out).count true ≤ 1) exampleInst [driRequest true,driRequest false] ∧
      Along request (fun y r => dri r = true → true ∉ answers y.out →
        ∃ accepted, answers (request y r).out = answers y.out++[accepted]) exampleInst
          [driRequest true,driRequest false] :=
  (registration_retried_iff (workingEnv 0 0) chip0 bootCommon (fun _ => ⟨false,0,0,false⟩)
    exampleInst rfl [driRequest true,driRequest false]).mpr (by
      intro r hr
      rw [← Option.some.inj hr]
      exact ⟨rfl,rfl⟩)

/-- A registration that is not accepted sets the bit, and stays the only one. -/
theorem registration_lost :
    ¬ (Always request (fun y => (y.istate.irq_info.irq_registered = true → true ∈ answers y.out) ∧
        (answers y.out).count true ≤ 1) exampleInst [driRequest false,driRequest true] ∧
      Along request (fun y r => dri r = true → true ∉ answers y.out →
        ∃ accepted, answers (request y r).out = answers y.out++[accepted]) exampleInst
          [driRequest false,driRequest true]) := by
  rintro ⟨h,-⟩
  have hone : registration (request exampleInst (driRequest false)) = ⟨true,[false]⟩ :=
    (request_registration exampleInst (driRequest false)).trans (by decide)
  have hbit := congrArg Registration.registered hone
  have hanswers : answers (request exampleInst (driRequest false)).out = [false] :=
    congrArg Registration.answers hone
  have hmem : true ∈ answers (request exampleInst (driRequest false)).out :=
    (h 1 (by decide)).1 hbit
  rw [hanswers] at hmem
  exact absurd hmem (by decide)

end BaseDrivers.IrqRegistration
