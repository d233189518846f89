import Mathlib.Tactic.SplitIfs
import BaseDrivers.DemoFifo
import BaseDrivers.InstanceSetup

/-!
# The watermark register and the sensors in the FIFO

One routine sets the FIFO up for both sensors. The watermark it writes is
that of the accelerometer, cut to its low byte. The sensors it puts into the
FIFO are the enabled ones, so that a polled sensor gets in with an interrupt
driven one.
-/

set_option autoImplicit false

namespace BaseDrivers.FifoSetup
open BaseDrivers.Execution BaseDrivers.DemoCommon BaseDrivers.DemoInstance BaseDrivers.InstanceFrame
open BaseDrivers.PollingTimers BaseDrivers.InstanceSetup
open BaseDrivers.DemoSensor (workingEnv bootCommon)
open BaseDrivers.DemoFifo (word word_toNat)

section Watermark

theorem lsb_toNat (v : ℕ) : (GET_LSB v).toNat = v%256 := by
  rw [GET_LSB, UInt8.toNat_ofNat', show (0x00FF : ℕ) = 2^8-1 from rfl,
    Nat.and_two_pow_sub_one_eq_mod]
  exact Nat.mod_mod v 256

/-- The high byte is masked but not shifted down, so none of it is left. -/
theorem msb_zero (v : ℕ) : GET_MSB v = 0 := by
  apply UInt8.toNat_inj.mp
  rw [GET_MSB, UInt8.toNat_ofNat', Nat.and_mod_two_pow]
  exact Nat.and_zero _

theorem config_fifo_written (x : Inst) : written DEMO_FIFO_WTM_ADDR (demo_config_fifo x).out =
    written DEMO_FIFO_WTM_ADDR x.out++
      [[GET_LSB ((x.cfg .ACC).wtm.toNat*3),GET_MSB ((x.cfg .ACC).wtm.toNat*3)]] := by
  have hother : ∀ (addr : UInt8) (bytes : List UInt8) (y : Inst), addr ≠ DEMO_FIFO_WTM_ADDR →
      written DEMO_FIFO_WTM_ADDR (y.emit (.write addr bytes)).out =
        written DEMO_FIFO_WTM_ADDR y.out :=
    fun addr bytes y ha => written_emit_of_ne (fun b h => ha (Effect.write.inj h).1) y
  let y := (x.emit (.write DEMO_FIFO_CONF_ADDR [0x00,0x00])).emit
    (.write DEMO_FIFO_CTRL_ADDR [0x01,0x00])
  have hy : written DEMO_FIFO_WTM_ADDR y.out = written DEMO_FIFO_WTM_ADDR x.out :=
    (hother DEMO_FIFO_CTRL_ADDR _ _ (by decide)).trans
      (hother DEMO_FIFO_CONF_ADDR _ _ (by decide))
  simp only [demo_config_fifo]
  rw [hother DEMO_FIFO_CONF_ADDR _ _ (by decide), ← hy, ← written_emit]
  split_ifs <;> rfl

/-- The word in the watermark register is three times the watermark of a
sensor exactly where it fits a byte and the accelerometer has the same
watermark, up to multiples of 256. -/
theorem watermark_programmed (x : Inst) (s : SensorIdx) :
    (∃ lo hi, written DEMO_FIFO_WTM_ADDR (demo_config_fifo x).out =
        written DEMO_FIFO_WTM_ADDR x.out++[[lo,hi]] ∧
      (word lo hi).toNat = 3*(x.cfg s).wtm.toNat) ↔
    3*(x.cfg s).wtm.toNat < 256 ∧ (x.cfg .ACC).wtm.toNat%256 = (x.cfg s).wtm.toNat := by
  have hval : (word (GET_LSB ((x.cfg .ACC).wtm.toNat*3))
      (GET_MSB ((x.cfg .ACC).wtm.toNat*3))).toNat = (x.cfg .ACC).wtm.toNat*3%256 := by
    rw [word_toNat, lsb_toNat, msb_zero]
    rfl
  rw [last_pair (config_fifo_written x), hval]
  omega

def exampleGyr : Inst :=
  { exampleInst.setCfg .GYR { exampleInst.cfg .GYR with wtm := 4, ss_cfg.is_dri := true } with
    istate.sensor_enabled := DEMO_GYRO }

/-- The gyroscope alone, with a watermark of four frames: the register is set
to none. -/
theorem watermark_gyr_lost :
    ¬ ∃ lo hi, written DEMO_FIFO_WTM_ADDR (demo_config_fifo exampleGyr).out =
        written DEMO_FIFO_WTM_ADDR exampleGyr.out++[[lo,hi]] ∧
      (word lo hi).toNat = 3*(exampleGyr.cfg .GYR).wtm.toNat := by
  rw [last_pair (config_fifo_written exampleGyr)]
  decide

end Watermark

section Sharing

/-- Only interrupt driven sensors are in the FIFO. -/
def DriOnly (u : Setup) : Prop := ∀ s, imu s = true → u.fifo s = true → u.is_dri s = true

/-- The two sensors are of one kind, or not both enabled. -/
def Apart (u : Setup) : Prop :=
  u.is_dri .ACC = u.is_dri .GYR ∨ ¬ (u.enabled .ACC = true ∧ u.enabled .GYR = true)

/-- A request keeps polled sensors out of the FIFO exactly where it does not
enable a polled sensor together with an interrupt driven one. -/
theorem step_dri_only (u : Setup) (r : Requested) (hu : DriOnly u) :
    DriOnly (u.request r) ↔ Apart (u.request r) := by
  have hfifo := request_fifo u r
  rw [DriOnly, Apart, request_is_dri]
  constructor
  · intro h
    by_cases hkind : u.is_dri .ACC = u.is_dri .GYR
    · exact .inl hkind
    · right
      rintro ⟨ha,hg⟩
      have hone : (u.is_dri .ACC || u.is_dri .GYR) = true := by
        revert hkind
        cases u.is_dri .ACC <;> cases u.is_dri .GYR <;> decide
      have hin : ∀ s, imu s = true → (u.request r).enabled s = true →
          (u.request r).fifo s = true := by
        intro s hs hen
        rw [hfifo, hs, hen, ha, hg, Bool.true_and, Bool.true_and, Bool.true_and, Bool.true_and,
          hone, Bool.or_true]
      exact hkind ((h .ACC rfl (hin .ACC rfl ha)).trans (h .GYR rfl (hin .GYR rfl hg)).symm)
  · intro h s hs hin
    rw [hfifo, hs, Bool.true_and, Bool.or_eq_true] at hin
    rcases hin with hin | hin
    · exact hu s hs hin
    · -- the request put the sensor in, for itself or for the other one
      rw [Bool.and_eq_true, Bool.or_eq_true, Bool.and_eq_true, Bool.and_eq_true] at hin
      obtain ⟨hen,⟨ha,hd⟩ | ⟨hg,hd⟩⟩ := hin
      · cases s with
        | ACC => exact hd
        | GYR =>
          rcases h with h | h
          · exact h ▸ hd
          · exact (h ⟨ha,hen⟩).elim
        | MOTION => cases hs
        | TEMP => cases hs
      · cases s with
        | ACC =>
          rcases h with h | h
          · exact h ▸ hd
          · exact (h ⟨hen,hg⟩).elim
        | GYR => exact hd
        | MOTION => cases hs
        | TEMP => cases hs

theorem run_enabled (u : Setup) (rs : List Requested) (s : SensorIdx) :
    (run Setup.request u rs).enabled s = (u.enabled s || rs.any (fun r => decide (r.sensor = s))) := by
  induction rs generalizing u with
  | nil => rw [run, List.any_nil, Bool.or_false]
  | cons r rs ih => rw [run, ih, request_enabled, List.any_cons, Bool.or_assoc]

theorem run_is_dri (u : Setup) (rs : List Requested) :
    (run Setup.request u rs).is_dri = u.is_dri := by
  induction rs generalizing u with
  | nil => rfl
  | cons r rs ih => rw [run, ih, request_is_dri]

/-- Sensors that are apart at the end of a run were so all along. -/
theorem apart_of_run (u : Setup) (rs : List Requested) (h : Apart (run Setup.request u rs)) :
    Apart u := by
  rw [Apart, run_is_dri, run_enabled, run_enabled] at h
  refine h.imp id (fun hno hboth => hno ?_)
  rw [hboth.1, hboth.2]
  exact ⟨rfl,rfl⟩

theorem run_dri_only (u : Setup) (rs : List Requested) (hu : DriOnly u) (ha : Apart u) :
    Always Setup.request DriOnly u rs ↔ Apart (run Setup.request u rs) := by
  rw [always_iff_along (fun _ => True) DriOnly (fun _ _ _ => trivial)
    (fun v r _ hv => step_dri_only v r hv) u rs trivial hu]
  clear hu
  induction rs generalizing u with
  | nil => exact iff_of_true trivial ha
  | cons r rs ih =>
    constructor
    · rintro ⟨hr,h⟩
      exact (ih (u.request r) hr).mp h
    · intro h
      have hr := apart_of_run (u.request r) rs h
      exact ⟨hr,(ih (u.request r) hr).mpr h⟩

/-- In every sequence of requests after a successful initialization, only
interrupt driven sensors are ever in the FIFO exactly where the two sensors
are of one kind, or one of them is never asked for. -/
theorem fifo_dri_only (env : Env) (hw_idx : Fin 2) (common : CommonState)
    (ss_cfgs : SensorIdx → SsCfg) (x : Inst)
    (hinit : demo_instance_init env hw_idx common ss_cfgs = (true,x)) (rs : List Requested) :
    Always request (fun y => ∀ s, s = .ACC ∨ s = .GYR → has y.istate.fifo_enabled s = true →
        (y.cfg s).ss_cfg.is_dri = true) x rs ↔
      (ss_cfgs .ACC).is_dri = (ss_cfgs .GYR).is_dri ∨ (∀ r ∈ rs, r.sensor ≠ .ACC) ∨
        ∀ r ∈ rs, r.sensor ≠ .GYR := by
  have hx := instance_init_unused env hw_idx common ss_cfgs hinit
  have hdri : (fun y : Inst => ∀ s, s = .ACC ∨ s = .GYR → has y.istate.fifo_enabled s = true →
      (y.cfg s).ss_cfg.is_dri = true) = fun y => DriOnly (setup y) := by
    funext y
    apply propext
    apply forall_congr'
    intro s
    cases s <;> simp [imu, setup]
  have hnone : ∀ s : SensorIdx, rs.any (fun r => decide (r.sensor = s)) = true ↔
      ¬ ∀ r ∈ rs, r.sensor ≠ s := by
    intro s
    rw [List.any_eq_true]
    simp only [decide_eq_true_eq, ne_eq, not_forall, not_not, exists_prop]
  rw [hdri, always_setup, hx, run_dri_only _ rs (fun s _ h => by cases h)
    (.inr fun h => by cases h.1), Apart, run_is_dri, run_enabled, run_enabled]
  simp only [Bool.false_or, hnone, ← not_or, not_not]

/-- Both sensors on, and one of them without an interrupt line. -/
def exampleKinds (s : SensorIdx) : SsCfg := ⟨s != .GYR,0,0,false⟩

def exampleStart : Inst :=
  (demo_instance_init (workingEnv 0 0) chip0 bootCommon exampleKinds).2

theorem fifo_dri_only_acc : Always request (fun y => ∀ s, s = .ACC ∨ s = .GYR →
    has y.istate.fifo_enabled s = true → (y.cfg s).ss_cfg.is_dri = true) exampleStart
      [exampleRequest .ACC,exampleRequest .TEMP] :=
  (fifo_dri_only (workingEnv 0 0) chip0 bootCommon exampleKinds exampleStart rfl
    [exampleRequest .ACC,exampleRequest .TEMP]).mpr (.inr (.inr (by decide)))

theorem fifo_polled_gyr : ¬ Always request (fun y => ∀ s, s = .ACC ∨ s = .GYR →
    has y.istate.fifo_enabled s = true → (y.cfg s).ss_cfg.is_dri = true) exampleStart
      [exampleRequest .ACC,exampleRequest .GYR] := by
  intro h
  have hgyr := h 2 (Nat.le_refl _) .GYR (.inr rfl) (by decide +kernel)
  exact absurd hgyr (by decide +kernel)

end Sharing

end BaseDrivers.FifoSetup
