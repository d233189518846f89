import Mathlib.Algebra.Order.Floor.Semifield
import Mathlib.Data.Rat.Floor
import Mathlib.Order.Monotone.Basic
import Mathlib.Tactic.SplitIfs
import Mathlib.Tactic.Ring
import BaseDrivers.Ladder
import BaseDrivers.InstanceSetup

/-!
# The rates of the chip and their codes

The code `c` stands for 0.78125 Hz doubled `c-1` times. The driver works with
the whole parts of these rates, and rounds the whole part of a rate up to the
next of them. So the code goes with the rate written back through all later
configurations, and a rate between a fractional rate of the chip and the next
whole number gets the code below it.
-/

set_option autoImplicit false

namespace BaseDrivers.OdrLadder
open BaseDrivers.Execution BaseDrivers.DemoCommon BaseDrivers.DemoInstance BaseDrivers.InstanceFrame
open BaseDrivers.PollingTimers BaseDrivers.InstanceSetup BaseDrivers.Ladder
open BaseDrivers.DemoSensor (workingEnv bootCommon)

/-- The rate in Hz a code stands for. -/
def chipRate (code : ℕ) : ℚ := 25/32*2^(code-1)

/-- The whole part of the rate of the code `i+1`. -/
def whole (i : ℕ) : ℕ := 25*2^i/32

/-- The codes go up to 13. -/
def top : ℕ := 12

theorem whole_strictMono : StrictMono whole := by
  apply strictMono_nat_of_lt_succ
  intro i
  have hm : 25 ≤ 25*2^i := Nat.le_mul_of_pos_right 25 (Nat.two_pow_pos i)
  rw [whole, whole, Nat.pow_succ, ← Nat.mul_assoc]
  generalize 25*2^i = m at hm ⊢
  omega

theorem floor_chipRate (i : ℕ) : ⌊chipRate (i+1)⌋₊ = whole i := by
  have h : chipRate (i+1) = ((25*2^i : ℕ) : ℚ)/((32 : ℕ) : ℚ) := by
    rw [chipRate, Nat.add_sub_cancel]
    push_cast
    ring
  rw [h, Nat.floor_div_eq_div, whole]

theorem whole_zero {i : ℕ} (h : whole i = 0) : i = 0 :=
  whole_strictMono.injective (h.trans rfl)

/-- The comparisons with the truncated rates find the rung. -/
theorem odrRate_rung (n : ℕ) : odrRate n = whole (rung whole top n) := by
  simp only [top, rung, odrRate, gt_iff_lt, ← not_le, ite_not, apply_ite whole]
  rfl

theorem odrValue_whole {i : ℕ} (hi : i ≤ top) : odrValue (whole i) = UInt8.ofNat (i+1) := by
  have h : ∀ i < top+1, odrValue (whole i) = UInt8.ofNat (i+1) := by decide
  exact h i (Nat.lt_succ_of_le hi)

section Index
variable (env : Env) (pf_cfg : PfCfg)

/-- The rung of a rate; the code is one more. -/
def index (q : ℚ) : ℕ := rung whole top (toUInt32 env q).toNat

theorem index_le_top (q : ℚ) : index env q ≤ top := rung_le_top whole top _

theorem compute_odr_eq (q : ℚ) : demo_compute_odr env q =
    (UInt8.ofNat (index env q+1),(whole (index env q) : ℚ)) := by
  rw [demo_compute_odr, odrRate_rung]
  exact congrArg (·,_) (odrValue_whole (index_le_top env q))

theorem toUInt32_floor {q : ℚ} (h0 : 0 ≤ q) (h : q < 2^32) : (toUInt32 env q).toNat = ⌊q⌋₊ := by
  have hf : ⌊q⌋₊ < 2^32 := (Nat.floor_lt h0).mpr (by exact_mod_cast h)
  rw [toUInt32, if_pos ⟨Int.floor_nonneg.mpr h0,Int.floor_lt.mpr (by exact_mod_cast h)⟩,
    Int.floor_toNat]
  exact UInt32.toNat_ofNat_of_lt' hf

theorem index_floor {q : ℚ} (h0 : 0 ≤ q) (h : q < 2^32) : index env q = rung whole top ⌊q⌋₊ := by
  rw [index, toUInt32_floor env h0 h]

theorem whole_lt {i : ℕ} (hi : i ≤ top) : (whole i : ℚ) < 2^32 := by
  have h := whole_strictMono.monotone hi
  have ht : whole top = 3200 := rfl
  exact_mod_cast (show whole i < 2^32 by omega)

theorem index_whole {i : ℕ} (hi : i ≤ top) : index env (whole i) = i := by
  rw [index_floor env (Nat.cast_nonneg _) (whole_lt hi), Nat.floor_natCast]
  exact rung_steps whole whole_strictMono hi

theorem index_mono {q q' : ℚ} (h0 : 0 ≤ q) (hq : q ≤ q') (h : q' < 2^32) :
    index env q ≤ index env q' := by
  rw [index_floor env h0 (hq.trans_lt h), index_floor env (h0.trans hq) h]
  exact rung_mono whole whole_strictMono.monotone top (Nat.floor_mono hq)

/-- Whole limits can be applied to the whole part. -/
theorem floor_clamp {q : ℚ} (h : 0 < q) :
    ⌊clampRate pf_cfg q⌋₊ = clamp pf_cfg.min_odr pf_cfg.max_odr ⌊q⌋₊ := by
  rw [clampRate, if_pos h, clamp, Nat.floor_mono.map_min, Nat.floor_mono.map_max,
    Nat.floor_natCast, Nat.floor_natCast]

theorem clampRate_nonneg (q : ℚ) : 0 ≤ clampRate pf_cfg q := by
  rw [clampRate]
  split_ifs with h
  · exact le_min (h.le.trans (le_max_left _ _)) (Nat.cast_nonneg _)
  · exact le_refl _

theorem index_zero : index env 0 = 0 := by
  exact_mod_cast index_whole env (Nat.zero_le top)

theorem clampRate_zero : clampRate pf_cfg 0 = 0 := if_neg (lt_irrefl _)

theorem clampRate_off {q : ℚ} (h : ¬ 0 < q) : clampRate pf_cfg q = 0 := if_neg h

/-- A rate written back stays in the range of the conversion under the limits. -/
theorem written_back_lt {q : ℚ} (h : clampRate pf_cfg q < 2^32) :
    clampRate pf_cfg (whole (index env (clampRate pf_cfg q))) < 2^32 := by
  by_cases hw : whole (index env (clampRate pf_cfg q)) = 0
  · rw [hw, Nat.cast_zero, clampRate_zero]
    norm_num
  have hpos : (0 : ℚ) < whole (index env (clampRate pf_cfg q)) := by
    exact_mod_cast Nat.pos_of_ne_zero hw
  by_cases hq : 0 < q
  · rw [clampRate, if_pos hpos]
    rw [clampRate, if_pos hq] at h
    rcases min_lt_iff.mp h with h | h
    · exact (min_le_left _ _).trans_lt
        (max_lt (whole_lt (index_le_top env _)) ((le_max_right _ _).trans_lt h))
    · exact (min_le_right _ _).trans_lt h
  · rw [clampRate_off pf_cfg hq, index_zero] at hw
    exact absurd rfl hw

/-- The limits do not move a rate written back to another code. -/
theorem index_clamp {q : ℚ} (h : clampRate pf_cfg q < 2^32) :
    index env (clampRate pf_cfg (whole (index env (clampRate pf_cfg q)))) =
      index env (clampRate pf_cfg q) := by
  by_cases hw : whole (index env (clampRate pf_cfg q)) = 0
  · rw [hw, whole_zero hw, Nat.cast_zero, clampRate_zero, index_zero]
  have hpos : (0 : ℚ) < whole (index env (clampRate pf_cfg q)) := by
    exact_mod_cast Nat.pos_of_ne_zero hw
  by_cases hq : 0 < q
  · have hf := index_floor env (clampRate_nonneg pf_cfg q) h
    rw [floor_clamp pf_cfg hq] at hf
    rw [index_floor env (clampRate_nonneg pf_cfg _) (written_back_lt env pf_cfg h),
      floor_clamp pf_cfg hpos, Nat.floor_natCast, hf]
    exact rung_clamp whole whole_strictMono top _ _ _
  · rw [clampRate_off pf_cfg hq, index_zero] at hw
    exact absurd rfl hw

/-- So it is with limits beyond the range of the conversion. -/
theorem index_clamp_limits (hlim : pf_cfg.min_odr ≤ pf_cfg.max_odr) {q : ℚ} (hq : q < 2^32) :
    index env (clampRate pf_cfg (whole (index env (clampRate pf_cfg q)))) =
      index env (clampRate pf_cfg q) := by
  by_cases h : clampRate pf_cfg q < 2^32
  · exact index_clamp env pf_cfg h
  have hpos : 0 < q := by
    by_contra hneg
    rw [clampRate, if_neg hneg] at h
    exact h (by norm_num)
  have hmin : (2 : ℚ)^32 ≤ pf_cfg.min_odr := by
    rw [clampRate, if_pos hpos] at h
    exact (le_max_iff.mp ((le_of_not_gt h).trans (min_le_left _ _))).resolve_left (not_le_of_gt hq)
  have hconst : ∀ p : ℚ, 0 < p → p < 2^32 → clampRate pf_cfg p = pf_cfg.min_odr := by
    intro p hp hlt
    rw [clampRate, if_pos hp, max_eq_right (hlt.le.trans hmin),
      min_eq_left (by exact_mod_cast hlim)]
  by_cases hw : whole (index env (clampRate pf_cfg q)) = 0
  · rw [hw, whole_zero hw, Nat.cast_zero, clampRate_zero, index_zero]
  · rw [hconst _ (by exact_mod_cast Nat.pos_of_ne_zero hw) (whole_lt (index_le_top env _)),
      hconst q hpos hq]

end Index

section Written
variable (env : Env) (pf_cfg : PfCfg) (x : Inst) (s t : SensorIdx)

/-- The register with the rate and the power mode of a sensor of the FIFO. -/
def confAddr : SensorIdx → UInt8
  | .ACC => DEMO_ACC_CONF_ADDR
  | _ => DEMO_GYR_CONF_ADDR

theorem stage_written_of_ne (hs : imu s = true) (hst : s ≠ t) :
    written (confAddr s) (stage env pf_cfg t x).out = written (confAddr s) x.out := by
  have himu : ∀ addr, confAddr s ≠ addr →
      written (confAddr s) (config_imu env pf_cfg t addr x).out = written (confAddr s) x.out :=
    fun addr ha => frame_written (config_imu_frame env pf_cfg addr t (Frame.refl _ x))
      (fun b => configures_write addr (confAddr s) b (by cases s <;> decide) ha)
  rw [stage]
  split_ifs
  · cases t with
    | ACC => exact himu DEMO_ACC_CONF_ADDR (by cases s <;> first | exact (hst rfl).elim | decide)
    | GYR =>
      exact himu DEMO_GYR_CONF_ADDR (by cases s <;> first | exact (hst rfl).elim | decide | cases hs)
    | MOTION => rfl
    | TEMP =>
      exact frame_written (config_temp_frame env pf_cfg 0 (Frame.refl _ x))
        (fun b => configures_write 0 (confAddr s) b (by cases s <;> decide) (by cases s <;> decide))
  · rfl

/-- The register of an enabled sensor is written once, with the code and the
power mode of its rate. -/
theorem config_hw_written (hs : imu s = true) (he : has x.istate.sensor_enabled s = true) :
    ∃ conf, written (confAddr s) (demo_config_hw env pf_cfg x).out = written (confAddr s) x.out++
      [[(conf &&& ~~~DEMO_ACC_CONF_ODR_MASK) |||
          (demo_compute_odr env (clampRate pf_cfg (x.cfg s).sample_rate)).1,
        powerMode (demo_compute_odr env (clampRate pf_cfg (x.cfg s).sample_rate)).2]] := by
  rw [config_hw_stages]
  cases s with
  | ACC =>
    rw [stage_written_of_ne env pf_cfg _ .ACC .TEMP hs (by decide),
      stage_written_of_ne env pf_cfg _ .ACC .GYR hs (by decide), stage, if_pos he]
    exact ⟨_,config_imu_written env pf_cfg DEMO_ACC_CONF_ADDR .ACC x (by decide) (by decide)⟩
  | GYR =>
    have hacc := stage_written_of_ne env pf_cfg x .GYR .ACC hs (by decide)
    have hrate : ((stage env pf_cfg .ACC x).cfg .GYR).sample_rate = (x.cfg .GYR).sample_rate := by
      have h := congrFun (congrArg Setup.sample_rate (stage_setup env pf_cfg .ACC x)) .GYR
      exact h.trans (configure_sample env pf_cfg (setup x) .GYR .ACC (fun h => by cases h))
    rw [stage_written_of_ne env pf_cfg _ .GYR .TEMP hs (by decide), stage,
      if_pos (by rw [stage_enabled]; exact he), ← hacc, ← hrate]
    exact ⟨_,config_imu_written env pf_cfg DEMO_GYR_CONF_ADDR .GYR _ (by decide) (by decide)⟩
  | MOTION => cases hs
  | TEMP => cases hs

end Written

theorem and_or_distrib (a b c : UInt8) : (a ||| b) &&& c = (a &&& c) ||| (b &&& c) :=
  UInt8.toBitVec_inj.mp BitVec.and_or_distrib_right

/-- A value within a mask takes the place of what was under the mask. -/
theorem masked_merge (conf : UInt8) {code mask : UInt8} (h : code &&& mask = code) :
    ((conf &&& ~~~mask) ||| code) &&& mask = code ∧
      ((conf &&& ~~~mask) ||| code) &&& ~~~mask = conf &&& ~~~mask := by
  constructor
  · rw [and_or_distrib, UInt8.and_assoc, UInt8.not_and_self, UInt8.and_zero, UInt8.zero_or, h]
  · have hc : code &&& ~~~mask = 0 := by
      rw [← h, UInt8.and_assoc, UInt8.and_not_self, UInt8.and_zero]
    rw [and_or_distrib, UInt8.and_assoc, UInt8.and_self, hc, UInt8.or_zero]

/-- Every code fits under the mask of the rate. -/
theorem code_masked (env : Env) (q : ℚ) :
    (demo_compute_odr env q).1 &&& DEMO_ACC_CONF_ODR_MASK = (demo_compute_odr env q).1 := by
  have h : ∀ i < top+1, UInt8.ofNat (i+1) &&& DEMO_ACC_CONF_ODR_MASK = UInt8.ofNat (i+1) := by
    decide
  rw [compute_odr_eq]
  exact h _ (Nat.lt_succ_of_le (index_le_top env q))

theorem code_toNat (env : Env) (q : ℚ) : (demo_compute_odr env q).1.toNat = index env q+1 := by
  have h : ∀ i < top+1, (UInt8.ofNat (i+1)).toNat = i+1 := by decide
  rw [compute_odr_eq]
  exact h _ (Nat.lt_succ_of_le (index_le_top env q))

section Asked
variable (env : Env) (pf_cfg : PfCfg)

theorem chipRate_mono {i j : ℕ} (h : i ≤ j) : chipRate i ≤ chipRate j := by
  rw [chipRate, chipRate]
  have hp : (2 : ℚ)^(i-1) ≤ 2^(j-1) := pow_le_pow_right₀ (by norm_num) (by omega)
  exact mul_le_mul_of_nonneg_left hp (by norm_num)

theorem powerMode_zero {q : ℚ} : powerMode q = 0 ↔ q = 0 := by
  rw [powerMode]
  split_ifs with h
  · exact iff_of_true rfl h
  · exact iff_of_false (by decide) h
  · exact iff_of_false (by decide) h
  · exact iff_of_false (by decide) h

theorem clampRate_inside {q : ℚ} (h : 0 < q) (hmin : (pf_cfg.min_odr : ℚ) ≤ q)
    (hmax : q ≤ pf_cfg.max_odr) : clampRate pf_cfg q = q := by
  rw [clampRate, if_pos h, max_eq_left hmin, min_eq_left hmax]

/-- The rates of the chip between which and their next whole numbers a rate
is cut off to the code below it. -/
def CutOff (q : ℚ) : Prop := ∃ c, 1 ≤ c ∧ c ≤ top ∧ chipRate c < q ∧ q < ⌊chipRate c⌋₊+1

/-- Whole rates are never cut off. -/
theorem whole_rate_kept (n : ℕ) : ¬ CutOff n := by
  rintro ⟨c,-,-,hlow,hhigh⟩
  have hpos : 0 ≤ chipRate c := mul_nonneg (by norm_num) (pow_nonneg (by norm_num) _)
  have hfloor : ⌊chipRate c⌋₊ < n := (Nat.floor_lt hpos).mpr hlow
  exact absurd hhigh (not_lt_of_ge (by exact_mod_cast hfloor))

theorem whole_index {q : ℚ} (h0 : 0 ≤ q) (h : q < 2^32) :
    whole (index env q) ≠ 0 ↔ 1 ≤ q := by
  have hle := rung_le_iff whole whole_strictMono.monotone (show 0 < top by decide) ⌊q⌋₊
  rw [← index_floor env h0 h] at hle
  rw [← Nat.floor_pos, ← Nat.not_le]
  apply not_congr
  constructor
  · intro hw
    exact hle.mp (Nat.le_of_eq (whole_zero hw))
  · intro hq
    rw [Nat.le_zero.mp (hle.mpr hq)]
    rfl

/-- The code of a rate is of a rate at least as high, and not off, exactly
where the rate is not cut off and within the ladder. -/
theorem reached_iff {q : ℚ} (h0 : 0 ≤ q) (h : q < 2^32) :
    (q ≤ chipRate (index env q+1) ∧ whole (index env q) ≠ 0) ↔
      1 ≤ q ∧ q ≤ 3200 ∧ ¬ CutOff q := by
  have htop : chipRate (top+1) = 3200 := by
    rw [chipRate, top]
    norm_num
  have hi := index_le_top env q
  have hidx := index_floor env h0 h
  rw [whole_index env h0 h, and_comm]
  apply and_congr_right
  intro _
  constructor
  · intro hq
    constructor
    · rw [← htop]
      exact hq.trans (chipRate_mono (Nat.succ_le_succ hi))
    · rintro ⟨c,hc1,hctop,hlow,hhigh⟩
      obtain ⟨i,rfl⟩ : ∃ i, c = i+1 := ⟨c-1,by omega⟩
      have hfloor : ⌊q⌋₊ ≤ whole i := by
        rw [← floor_chipRate, ← Nat.lt_succ_iff, Nat.floor_lt h0]
        exact_mod_cast hhigh
      have hle := (rung_le_iff whole whole_strictMono.monotone hctop ⌊q⌋₊).mpr hfloor
      rw [← hidx] at hle
      exact absurd (hq.trans (chipRate_mono (Nat.succ_le_succ hle))) (not_le_of_gt hlow)
  · rintro ⟨hmax,hcut⟩
    by_contra hq
    have hlow := lt_of_not_ge hq
    have hfloor : ⌊q⌋₊ ≤ whole top := by
      have h3200 := Nat.floor_mono hmax
      have hcast : ⌊(3200 : ℚ)⌋₊ = whole top := by
        rw [Nat.floor_ofNat]
        rfl
      exact h3200.trans (Nat.le_of_eq hcast)
    have hle := le_steps_rung whole whole_strictMono.monotone hfloor
    rw [← hidx, ← floor_chipRate] at hle
    rcases Nat.lt_or_eq_of_le hi with hlt | heq
    · apply hcut
      refine ⟨index env q+1,by omega,hlt,hlow,?_⟩
      exact (Nat.lt_floor_add_one q).trans_le (by exact_mod_cast Nat.succ_le_succ hle)
    · rw [heq, htop] at hlow
      exact absurd hmax (not_le_of_gt hlow)

/-- The chip is set to a rate at least as high as the one asked for, and not
switched off, exactly where the rate is one of 1 to 3200 Hz that is not cut
off. -/
theorem chip_rate_reached (x : Inst) (s : SensorIdx) (hs : imu s = true)
    (he : has x.istate.sensor_enabled s = true) (r : ℚ) (hr : (x.cfg s).sample_rate = r)
    (h0 : 0 < r) (hmin : (pf_cfg.min_odr : ℚ) ≤ r) (hmax : r ≤ pf_cfg.max_odr)
    (h6400 : pf_cfg.max_odr ≤ 6400) :
    (∃ conf mode, written (confAddr s) (demo_config_hw env pf_cfg x).out =
        written (confAddr s) x.out++[[conf,mode]] ∧
      r ≤ chipRate (conf &&& DEMO_ACC_CONF_ODR_MASK).toNat ∧ mode ≠ 0) ↔
    1 ≤ r ∧ r ≤ 3200 ∧ ¬ CutOff r := by
  have hlt : r < 2^32 := by
    have h : (pf_cfg.max_odr : ℚ) ≤ 6400 := by exact_mod_cast h6400
    exact (hmax.trans h).trans_lt (by norm_num)
  obtain ⟨conf,hw⟩ := config_hw_written env pf_cfg x s hs he
  rw [hr, clampRate_inside pf_cfg h0 hmin hmax] at hw
  have hcode : ((conf &&& ~~~DEMO_ACC_CONF_ODR_MASK ||| (demo_compute_odr env r).1) &&&
      DEMO_ACC_CONF_ODR_MASK).toNat = index env r+1 := by
    rw [(masked_merge conf (code_masked env r)).1, code_toNat]
  have hmode : powerMode (demo_compute_odr env r).2 ≠ 0 ↔ whole (index env r) ≠ 0 := by
    rw [ne_eq, powerMode_zero, compute_odr_eq]
    exact not_congr Nat.cast_eq_zero
  rw [← reached_iff env h0.le hlt, last_pair hw, hcode]
  exact and_congr Iff.rfl hmode

end Asked

section Stable
variable (env : Env) (pf_cfg : PfCfg)

theorem clampRate_lt {q : ℚ} (h : pf_cfg.max_odr < 2^32) : clampRate pf_cfg q < 2^32 := by
  rw [clampRate]
  split_ifs
  · exact (min_le_right _ _).trans_lt (by exact_mod_cast h)
  · norm_num

/-- In the range of the conversion the code does not depend on the call. -/
theorem index_env (env' : Env) {q : ℚ} (h0 : 0 ≤ q) (h : q < 2^32) :
    index env' q = index env q := by
  rw [index_floor env' h0 h, index_floor env h0 h]

/-- Requests for other sensors under the same limits leave the rate written
back for the sensor `s` as it is. -/
theorem rate_kept (s : SensorIdx) (hs : s ≠ .MOTION) (q : ℚ) (hq : clampRate pf_cfg q < 2^32)
    (u : Setup) (rs : List Requested) (hrs : ∀ r ∈ rs, r.sensor ≠ s ∧ r.pf_cfg = pf_cfg)
    (he : u.enabled s = true) (hu : u.sample_rate s = whole (index env (clampRate pf_cfg q))) :
    Always Setup.request (fun v => v.sample_rate s = whole (index env (clampRate pf_cfg q))) u
      rs := by
  have hstep : ∀ (v : Setup) (r : Requested), (v.enabled s = true ∧
      v.sample_rate s = whole (index env (clampRate pf_cfg q))) →
      (r.sensor ≠ s ∧ r.pf_cfg = pf_cfg) → (v.request r).enabled s = true ∧
      (v.request r).sample_rate s = whole (index env (clampRate pf_cfg q)) := by
    rintro v r ⟨hen,hv⟩ ⟨hr,hpf⟩
    have hen' : (v.request r).enabled s = true := by
      rw [request_enabled, hen, Bool.true_or]
    constructor
    · exact hen'
    · rw [request_sample v r s hs hen', if_neg hr.symm, hv, hpf, compute_odr_eq,
        index_env env r.env (clampRate_nonneg pf_cfg _) (written_back_lt env pf_cfg hq),
        index_clamp env pf_cfg hq]
  exact always_mono (fun v hv => hv.2) (always_of_step _ hstep u rs ⟨he,hu⟩
    ((along_forall Setup.request _ u rs).mpr hrs))

theorem request_kept (x : Inst) (first : Requested) (rs : List Requested)
    (hs : first.sensor ≠ .MOTION) (hpf : first.pf_cfg = pf_cfg)
    (hq : clampRate pf_cfg first.chosen.sample_rate < 2^32)
    (hrs : ∀ r ∈ rs, r.sensor ≠ first.sensor ∧ r.pf_cfg = pf_cfg) :
    Always request (fun y => (y.cfg first.sensor).sample_rate =
      whole (index env (clampRate pf_cfg first.chosen.sample_rate))) (request x first) rs := by
  have he : ((setup x).request first).enabled first.sensor = true := by
    rw [request_enabled]
    simp
  have hrate := request_sample (setup x) first first.sensor hs he
  rw [if_pos rfl, hpf, compute_odr_eq, index_env env first.env (clampRate_nonneg pf_cfg _) hq,
    ← request_setup] at hrate
  rw [← request_setup] at he
  exact (always_setup (request x first) (fun u => u.sample_rate first.sensor =
    whole (index env (clampRate pf_cfg first.chosen.sample_rate))) rs).mpr
      (rate_kept env pf_cfg first.sensor hs first.chosen.sample_rate hq _ rs hrs he hrate)

/-- The rates of a sensor and their codes stay in step: the code is one of
the chip and the rate written back its whole part, codes are monotone, the
rate written back keeps its code under the same limits and under requests for
other sensors, and the code takes the low half of the register only. -/
theorem odr_in_step (conf : UInt8) {r r' : ℚ} (h0 : 0 ≤ r) (hle : r ≤ r') (h : r' < 2^32)
    (hlim : pf_cfg.min_odr ≤ pf_cfg.max_odr) :
    (∃ c, 1 ≤ c ∧ c ≤ 13 ∧
      demo_compute_odr env r = (UInt8.ofNat c,((⌊chipRate c⌋₊ : ℕ) : ℚ))) ∧
    (demo_compute_odr env r).1 ≤ (demo_compute_odr env r').1 ∧
    demo_compute_odr env (demo_compute_odr env r).2 = demo_compute_odr env r ∧
    demo_compute_odr env (clampRate pf_cfg (demo_compute_odr env (clampRate pf_cfg r)).2) =
      demo_compute_odr env (clampRate pf_cfg r) ∧
    (((conf &&& ~~~DEMO_ACC_CONF_ODR_MASK) ||| (demo_compute_odr env r).1) &&& 0x0F =
        (demo_compute_odr env r).1 ∧
      ((conf &&& ~~~DEMO_ACC_CONF_ODR_MASK) ||| (demo_compute_odr env r).1) &&& 0xF0 =
        conf &&& 0xF0) ∧
    ∀ (x : Inst) (first : Requested) (rs : List Requested), first.sensor ≠ .MOTION →
      first.pf_cfg = pf_cfg → first.chosen.sample_rate = r → clampRate pf_cfg r < 2^32 →
      (∀ q ∈ rs, q.sensor ≠ first.sensor ∧ q.pf_cfg = pf_cfg) →
      Always request (fun y =>
        (y.cfg first.sensor).sample_rate = (demo_compute_odr env (clampRate pf_cfg r)).2 ∧
        demo_compute_odr env (clampRate pf_cfg (y.cfg first.sensor).sample_rate) =
          demo_compute_odr env (clampRate pf_cfg r)) (request x first) rs := by
  have hr : r < 2^32 := hle.trans_lt h
  have hclamp : demo_compute_odr env
      (clampRate pf_cfg (demo_compute_odr env (clampRate pf_cfg r)).2) =
        demo_compute_odr env (clampRate pf_cfg r) := by
    rw [compute_odr_eq env (clampRate pf_cfg r), compute_odr_eq,
      index_clamp_limits env pf_cfg hlim hr]
  refine ⟨?_,?_,?_,hclamp,masked_merge conf (code_masked env r),?_⟩
  · refine ⟨index env r+1,by omega,Nat.succ_le_succ (index_le_top env r),?_⟩
    rw [floor_chipRate, compute_odr_eq]
  · rw [UInt8.le_iff_toNat_le, code_toNat, code_toNat]
    exact Nat.succ_le_succ (index_mono env h0 hle h)
  · rw [compute_odr_eq env r, compute_odr_eq, index_whole env (index_le_top env r)]
  · rintro x first rs hs hpf rfl hq hrs
    refine always_mono (fun y hy => ?_) (request_kept env pf_cfg x first rs hs hpf hq hrs)
    have hrate : (y.cfg first.sensor).sample_rate =
        (demo_compute_odr env (clampRate pf_cfg first.chosen.sample_rate)).2 := by
      rw [hy, compute_odr_eq]
    constructor
    · exact hrate
    · rw [hrate]
      exact hclamp

end Stable

def exampleLimits : PfCfg := { bootCommon.pf_cfg with max_odr := 6400 }

def exampleAsk (s : SensorIdx) : Requested := { exampleRequest s with pf_cfg := exampleLimits }

theorem odr_in_step_gyr : Always request (fun y =>
    (y.cfg .ACC).sample_rate =
      (demo_compute_odr (workingEnv 0 0) (clampRate exampleLimits 100)).2 ∧
    demo_compute_odr (workingEnv 0 0) (clampRate exampleLimits (y.cfg .ACC).sample_rate) =
      demo_compute_odr (workingEnv 0 0) (clampRate exampleLimits 100))
    (request exampleInst (exampleAsk .ACC)) [exampleAsk .GYR] := by
  have h := odr_in_step (workingEnv 0 0) exampleLimits 0xA5 (show (0 : ℚ) ≤ 100 by norm_num)
    (show (100 : ℚ) ≤ 200 by norm_num) (by norm_num) (by decide)
  exact h.2.2.2.2.2 exampleInst (exampleAsk .ACC) [exampleAsk .GYR] (by decide) rfl rfl
    (clampRate_lt exampleLimits (by decide)) (by simp [exampleAsk, exampleRequest])

/-- An instance with the accelerometer enabled at a rate. -/
def exampleAt (rate : ℚ) : Inst :=
  { exampleInst.setCfg .ACC { exampleInst.cfg .ACC with sample_rate := rate } with
    istate.sensor_enabled := DEMO_ACCEL }

theorem chip_rate_reached_100 :
    ∃ conf mode, written (confAddr .ACC)
        (demo_config_hw (workingEnv 0 0) exampleLimits (exampleAt 100)).out =
      written (confAddr .ACC) (exampleAt 100).out++[[conf,mode]] ∧
    (100 : ℚ) ≤ chipRate (conf &&& DEMO_ACC_CONF_ODR_MASK).toNat ∧ mode ≠ 0 := by
  have hcut : ¬ CutOff 100 := whole_rate_kept 100
  exact (chip_rate_reached (workingEnv 0 0) exampleLimits (exampleAt 100) .ACC rfl (by decide) 100
    rfl (by norm_num) (by norm_num [exampleLimits, bootCommon]) (by norm_num [exampleLimits])
    (Nat.le_refl _)).mpr ⟨by norm_num,by norm_num,hcut⟩

/-- At 100.5 Hz the chip samples at 100 Hz. -/
theorem chip_rate_cut_off :
    ¬ ∃ conf mode, written (confAddr .ACC)
        (demo_config_hw (workingEnv 0 0) exampleLimits (exampleAt (201/2))).out =
      written (confAddr .ACC) (exampleAt (201/2)).out++[[conf,mode]] ∧
    (201/2 : ℚ) ≤ chipRate (conf &&& DEMO_ACC_CONF_ODR_MASK).toNat ∧ mode ≠ 0 := by
  have h : written (confAddr .ACC)
      (demo_config_hw (workingEnv 0 0) exampleLimits (exampleAt (201/2))).out =
        written (confAddr .ACC) (exampleAt (201/2)).out++[[0x48,0x40]] := by decide +kernel
  rw [last_pair h, show (0x48 &&& DEMO_ACC_CONF_ODR_MASK).toNat = 8 from rfl]
  norm_num [chipRate]

end BaseDrivers.OdrLadder
