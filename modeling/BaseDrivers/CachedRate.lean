import BaseDrivers.RateArbitration

/-!
# The cached rate

A sensor keeps the rate it chose, to see whether the next choice differs. The
comparison is made with the chosen sample rate, and what is kept is the
chosen report rate. The two are the same until a client batches. The rates
are floats here, so the rate of a batch period is the quotient as the code
rounds it.
-/

set_option autoImplicit false

namespace BaseDrivers.CachedRate
open BaseDrivers.DemoCommon BaseDrivers.DemoInstance BaseDrivers.DemoSensor
open BaseDrivers.RateArbitration
open Float.Model (Format UnpackedFloat)

/-- A float in another format, rounded to the nearest one there. -/
def toFormat (f : Format) : UnpackedFloat → UnpackedFloat
  | .finite sign mantissa exponent _ => .round f sign mantissa exponent
  | x => x

/-- The value of a finite float. -/
def valueOf : UnpackedFloat → ℚ
  | .finite .positive mantissa exponent _ => mantissa*2^exponent
  | .finite .negative mantissa exponent _ => -(mantissa*2^exponent)
  | _ => 0

/-- `(float)(1e6 / (float)batch_period)`: the period is rounded to a float, the
quotient to a double and then to a float. -/
def periodRate (batch_period : UInt32) : ℚ :=
  let period := toFormat .binary64 (.ofUInt32 .binary32 batch_period)
  valueOf (toFormat .binary32 (.div .binary64 (.ofNat .binary64 1000000) period))

section Code
variable {σ : Type} [RequestStore σ]

/-- The sample rates are floats that are decoded and compared as they are. -/
def demo_get_sensor_config (store : σ) (suid : Suid) : Chosen :=
  chooseAll periodRate (get_client_requests store suid)

def demo_reval_instance_config (env : Env) (s : SensorIdx) (i : Instance σ) (w : World σ) :
    World σ :=
  apply_chosen env s i (demo_get_sensor_config i.store (w.my_suid s)) w

end Code

/-- The greatest sample rate the clients ask for, and zero without a client. -/
def requestedMax (l : List Request) : ℚ :=
  match (l.filter counts).map sampleOf with
  | [] => 0
  | q::qs => qs.foldl max q

section Requests
variable {l : List Request}

theorem requestedMax_idle (h : ¬ ∃ r ∈ l, counts r = true) : requestedMax l = 0 := by
  have hnil : l.filter counts = [] := by
    apply List.filter_eq_nil_iff.mpr
    intro r hr hc
    exact h ⟨r,hr,hc⟩
  rw [requestedMax, hnil]
  rfl

theorem requestedMax_greatest (h : ∃ r ∈ l, counts r = true) :
    IsGreatest (asked sampleRate l) (requestedMax l) := by
  have hset : ∀ q, q ∈ asked sampleRate l ↔ q ∈ (l.filter counts).map sampleOf := by
    intro q
    rw [List.mem_map]
    apply exists_congr
    intro r
    rw [List.mem_filter, and_assoc]
    exact Iff.rfl
  have hgreatest : IsGreatest {q | q ∈ (l.filter counts).map sampleOf} (requestedMax l) := by
    rw [requestedMax]
    cases hm : (l.filter counts).map sampleOf with
    | nil =>
      obtain ⟨r,hr,hc⟩ := h
      have hin : r ∈ l.filter counts := List.mem_filter.mpr ⟨hr,hc⟩
      rw [List.map_eq_nil_iff.mp hm] at hin
      cases hin
    | cons q qs =>
      simp only [List.mem_cons]
      exact foldl_max_greatest qs q
  rw [show asked sampleRate l = {q | q ∈ (l.filter counts).map sampleOf} from Set.ext hset]
  exact hgreatest

/-- No client is served with more than the greatest rate asked for, and that
one is not negative. -/
def Bounded (l : List Request) : Prop :=
  ((∃ r ∈ l, counts r = true) → 0 ≤ requestedMax l) ∧ ∀ x ∈ served 0 l, x.2 ≤ requestedMax l

theorem chosen_sample_iff : chosen sampleRate l = requestedMax l ↔ Bounded l := by
  constructor
  · intro h
    rw [Bounded, ← h]
    exact ⟨fun _ => chosen_nonneg,fun x hx => le_chosen (k := sampleRate) hx⟩
  · rintro ⟨hpos,hserved⟩
    by_cases hc : ∃ r ∈ l, counts r = true
    · apply le_antisymm
      · rcases (foldl_max_greatest ((served 0 l).map (fun x => sampleRate.serve x.1 x.2)) 0).1
          with h | h
        · exact (le_of_eq h).trans (hpos hc)
        · obtain ⟨x,hx,hq⟩ := List.mem_map.mp h
          exact (le_of_eq hq.symm).trans (hserved x hx)
      · exact asked_le (requestedMax_greatest hc).1
    · rw [chosen_idle sampleRate hc, requestedMax_idle hc]

/-- The rates at which the clients are served with reports. -/
def reports (l : List Request) : List ℚ := (served 0 l).map fun x => reportWith periodRate x.1 x.2

/-- The greatest of them. -/
def ReportedMax (l : List Request) (q : ℚ) : Prop :=
  IsGreatest {p | p = 0 ∨ ∃ x ∈ served 0 l, reportWith periodRate x.1 x.2 = p} q

theorem chosen_report_iff (q : ℚ) : (reports l).foldl max 0 = q ↔ ReportedMax l q := by
  have hset : {p | p = 0 ∨ ∃ x ∈ served 0 l, reportWith periodRate x.1 x.2 = p} =
      {p | p = 0 ∨ p ∈ reports l} := by
    ext p
    apply or_congr Iff.rfl
    rw [reports, List.mem_map]
  have hg := foldl_max_greatest (reports l) 0
  rw [← hset] at hg
  constructor
  · rintro rfl
    exact hg
  · exact fun h => hg.unique h

end Requests

section Reval
variable {σ : Type} [RequestStore σ] (env : Env) (s : SensorIdx) (i : Instance σ) (w : World σ)

theorem reval_chosen :
    ((demo_reval_instance_config env s i w).states s).chosen_sample_rate =
      if (demo_get_sensor_config i.store (w.my_suid s)).sample_rate ≠
          (w.states s).chosen_sample_rate then
        (demo_get_sensor_config i.store (w.my_suid s)).report_rate
      else (w.states s).chosen_sample_rate := by
  have hnote : (w.note (.reval s)).states = w.states := rfl
  simp only [demo_reval_instance_config, apply_chosen, hnote]
  split_ifs
  · simp [World.setState, World.setInst]
  · rfl

theorem reval_suid (t : SensorIdx) :
    (demo_reval_instance_config env s i w).my_suid t = w.my_suid t := by
  simp only [demo_reval_instance_config, apply_chosen]
  split_ifs <;> rfl

/-- The cached rate is the greatest one asked for, and the same requests
again find no change and leave it, exactly where the clients are served with
no more than that, and it was cached already or is the greatest report rate. -/
theorem cached_rate_iff (env' : Env) (body : Inst) :
    (((demo_reval_instance_config env s i w).states s).chosen_sample_rate =
        requestedMax (get_client_requests i.store (w.my_suid s)) ∧
      (demo_get_sensor_config i.store
          ((demo_reval_instance_config env s i w).my_suid s)).sample_rate =
        ((demo_reval_instance_config env s i w).states s).chosen_sample_rate ∧
      ((demo_reval_instance_config env' s { i with body := body }
          (demo_reval_instance_config env s i w)).states s).chosen_sample_rate =
        ((demo_reval_instance_config env s i w).states s).chosen_sample_rate) ↔
    Bounded (get_client_requests i.store (w.my_suid s)) ∧
      ((w.states s).chosen_sample_rate =
          requestedMax (get_client_requests i.store (w.my_suid s)) ∨
        ReportedMax (get_client_requests i.store (w.my_suid s))
          (requestedMax (get_client_requests i.store (w.my_suid s)))) := by
  have hserved := choose_served periodRate (get_client_requests i.store (w.my_suid s))
    ⟨0,0,false,0⟩
  have hsample : (demo_get_sensor_config i.store (w.my_suid s)).sample_rate =
      chosen sampleRate (get_client_requests i.store (w.my_suid s)) := hserved.1
  have hreport : (demo_get_sensor_config i.store (w.my_suid s)).report_rate =
      (reports (get_client_requests i.store (w.my_suid s))).foldl max 0 := hserved.2.1
  rw [reval_chosen env' s { i with body := body }, reval_suid, reval_chosen, hsample, hreport,
    ← chosen_sample_iff, ← chosen_report_iff]
  generalize get_client_requests i.store (w.my_suid s) = l
  constructor
  · rintro ⟨hmax,hsame,-⟩
    split_ifs at hmax hsame with hc
    · exact ⟨hsame.trans hmax,.inr hmax⟩
    · exact ⟨hsame.trans hmax,.inl hmax⟩
  · rintro ⟨hmax,hcache⟩
    have hval : (if chosen sampleRate l ≠ (w.states s).chosen_sample_rate
        then (reports l).foldl max 0
        else (w.states s).chosen_sample_rate) = requestedMax l := by
      split_ifs with hc
      · rcases hcache with h | h
        · exact (hc (hmax.trans h.symm)).elim
        · exact h
      · rw [← not_not.mp hc]
        exact hmax
    rw [hval, hmax]
    simp

end Reval

/-- A client at 100 Hz that batches for a second. -/
def batchedInstance : Instance (List Request) :=
  ⟨[exampleBatched],⟨initialState chip0 bootCommon (fun _ => ⟨false,0,0,false⟩),[]⟩⟩

/-- What is cached is the report rate of 1 Hz, and the next call finds a
change again. -/
theorem cached_report_rate :
    ¬ (((demo_reval_instance_config (workingEnv 0 0) .ACC batchedInstance boot0).states
          .ACC).chosen_sample_rate =
        requestedMax (get_client_requests batchedInstance.store (boot0.my_suid .ACC))) ∧
    ¬ ((demo_get_sensor_config batchedInstance.store
        ((demo_reval_instance_config (workingEnv 0 0) .ACC batchedInstance boot0).my_suid
          .ACC)).sample_rate =
        ((demo_reval_instance_config (workingEnv 0 0) .ACC batchedInstance boot0).states
          .ACC).chosen_sample_rate) := by
  rw [reval_suid, reval_chosen]
  decide +kernel

/-- 1e6 / 300000 is rounded to the float 0x40555555. -/
example : periodRate 300000 = 13981013/4194304 := by decide +kernel

end BaseDrivers.CachedRate
