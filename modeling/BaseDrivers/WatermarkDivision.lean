import BaseDrivers.CallOutcome
import BaseDrivers.OdrLadder
import BaseDrivers.RateArbitration

/-!
# The division for the watermark

Every configuration divides the rounded sample rate of each enabled sensor of
the FIFO by its report rate. A sensor stays enabled without clients, and the
report rate may be small against the sample rate; neither is looked at.
-/

set_option autoImplicit false

namespace BaseDrivers.WatermarkDivision
open BaseDrivers.Execution BaseDrivers.DemoCommon BaseDrivers.DemoInstance BaseDrivers.DemoSensor
open BaseDrivers.RequestList BaseDrivers.RailSettling BaseDrivers.PollingTimers
open BaseDrivers.InstanceSetup BaseDrivers.CallOutcome BaseDrivers.RateArbitration
open BaseDrivers.Ladder BaseDrivers.OdrLadder

variable {σ : Type} [RequestStore σ]

/-- A quotient is defined and fits into 16 bits. -/
def Defined (sample_rate report_rate : ℚ) : Prop :=
  report_rate ≠ 0 ∧ 0 ≤ ⌊sample_rate/report_rate⌋ ∧ ⌊sample_rate/report_rate⌋ < 2^16

/-- So are those of the last configuration, whose operands the instance keeps. -/
def Divides (w : World σ) : Prop := ∀ i, w.inst = some i → ∀ s, imu s = true →
  has i.body.istate.sensor_enabled s = true →
    Defined (i.body.cfg s).sample_rate (i.body.cfg s).report_rate

/-- A configuration request comes with a rate that is not negative. -/
def Rated (r : Request) : Prop :=
  r.message_id = .SENSOR_CONFIG →
    r.decoded.ok = true ∧ ∃ q, r.decoded.sample_rate = some q ∧ 0 ≤ q

/-- The rate the chip is set to for a rate. -/
def rounded (pf_cfg : PfCfg) (q : ℚ) : ℕ := whole (rung whole top ⌊clampRate pf_cfg q⌋₊)

/-- A client asks for a report rate that is large enough for all clients. -/
def Divisible (pf_cfg : PfCfg) (l : List Request) : Prop :=
  ∃ r ∈ l, counts r = true ∧ 0 < reportOf r ∧
    ∀ q ∈ l, counts q = true → rounded pf_cfg (sampleOf q) < 65536*reportOf r

/-- A sensor of the FIFO is configured for such clients only. -/
def Admitted (w : World σ) (c : Call) : Prop :=
  Configures w c → imu (sensor c) = true → Divisible w.common.pf_cfg
    ((listed c (held w)).filter (fun r => r.suid == suids (sensor c) w.hw_idx))

section Rates
variable (pf_cfg : PfCfg)

theorem clampRate_mono {q q' : ℚ} (h : q ≤ q') :
    clampRate pf_cfg q ≤ clampRate pf_cfg q' := by
  by_cases hq : 0 < q
  · rw [clampRate, clampRate, if_pos hq, if_pos (hq.trans_le h)]
    exact min_le_min (max_le_max h (le_refl _)) (le_refl _)
  · rw [clampRate, if_neg hq]
    exact clampRate_nonneg pf_cfg q'

theorem rounded_mono {q q' : ℚ} (h : q ≤ q') : rounded pf_cfg q ≤ rounded pf_cfg q' :=
  whole_strictMono.monotone (rung_mono whole whole_strictMono.monotone top
    (Nat.floor_mono (clampRate_mono pf_cfg h)))

variable {pf_cfg}

theorem index_rounded (hmax : pf_cfg.max_odr < 2^32) (env : Env) (q : ℚ) :
    whole (index env (clampRate pf_cfg q)) = rounded pf_cfg q := by
  rw [index_floor env (clampRate_nonneg pf_cfg q) (clampRate_lt pf_cfg hmax)]
  rfl

theorem rounded_twice (hmax : pf_cfg.max_odr < 2^32) (q : ℚ) :
    rounded pf_cfg (rounded pf_cfg q) = rounded pf_cfg q := by
  have h := index_clamp (workingEnv 0 0) pf_cfg (clampRate_lt pf_cfg hmax (q := q))
  rw [index_rounded hmax] at h
  rw [← index_rounded hmax (workingEnv 0 0) (rounded pf_cfg q), h, index_rounded hmax]

/-- The floor of a quotient of rates fits where the divisor is large enough. -/
theorem defined_iff {n : ℕ} {q : ℚ} (hq : 0 ≤ q) : Defined n q ↔ 0 < q ∧ n < 65536*q := by
  constructor
  · rintro ⟨hne,-,hlt⟩
    have hpos := lt_of_le_of_ne hq hne.symm
    rw [Int.floor_lt, div_lt_iff₀ hpos] at hlt
    exact ⟨hpos,by exact_mod_cast hlt⟩
  · rintro ⟨hpos,hlt⟩
    refine ⟨hpos.ne',Int.floor_nonneg.mpr (div_nonneg (Nat.cast_nonneg n) hq),?_⟩
    rw [Int.floor_lt, div_lt_iff₀ hpos]
    exact_mod_cast hlt

theorem rated_counts {l : List Request} (h : ∀ r ∈ l, Rated r) {r : Request} (hr : r ∈ l)
    (hc : counts r = true) : 0 ≤ sampleOf r := by
  simp only [counts, Bool.and_eq_true, beq_iff_eq] at hc
  obtain ⟨-,q,hq,h0⟩ := h r hr hc.1
  rwa [sampleOf_some hq]

/-- Requests with rates of their own are kept apart. -/
theorem rated_separate {l : List Request} (h : ∀ r ∈ l, Rated r) : Separate l := by
  have hleak : ∀ k, Leakless k l := by
    intro k u hu hc _ hn
    simp only [counts, Bool.and_eq_true, beq_iff_eq] at hc
    obtain ⟨-,q,hq,-⟩ := h u hu hc.1
    rw [hn] at hq
    cases hq
  refine ⟨?_,hleak _,hleak _⟩
  rintro ⟨r,hr,hc⟩
  exact ⟨r,hr,hc,rated_counts h hr hc⟩

/-- The quotient of the rates chosen for the clients. -/
theorem chosen_defined_iff {l : List Request} (h : ∀ r ∈ l, Rated r) :
    Defined (rounded pf_cfg (choose l).sample_rate) (choose l).report_rate ↔
      Divisible pf_cfg l := by
  have ha := arbitrated_of_separate (rated_separate h)
  by_cases hc : ∃ r ∈ l, counts r = true
  · obtain ⟨⟨p,hp,hcp,hps⟩,hsample⟩ := ha.sample hc
    obtain ⟨⟨r,hr,hcr,hrr⟩,hreport⟩ := ha.report hc
    change sampleOf p = _ at hps
    change reportOf r = _ at hrr
    have hr0 : 0 ≤ reportOf r := reportOf_nonneg (rated_counts h hr hcr)
    have hbound : ∀ b : ℚ, (∀ q ∈ l, counts q = true → rounded pf_cfg (sampleOf q) < b) ↔
        rounded pf_cfg (choose l).sample_rate < b := by
      intro b
      rw [← hps]
      constructor
      · exact fun hall => hall p hp hcp
      · intro hlt q hq hcq
        have hle := rounded_mono pf_cfg (hps ▸ hsample ⟨q,hq,hcq,rfl⟩ : sampleOf q ≤ sampleOf p)
        exact lt_of_le_of_lt (by exact_mod_cast hle) hlt
    rw [defined_iff (by rw [← hrr]; exact hr0)]
    constructor
    · rintro ⟨hpos,hlt⟩
      rw [← hrr] at hpos hlt
      exact ⟨r,hr,hcr,hpos,(hbound _).mpr hlt⟩
    · rintro ⟨q,hq,hcq,hpos,hall⟩
      have hle : reportOf q ≤ (choose l).report_rate := hreport ⟨q,hq,hcq,rfl⟩
      exact ⟨hpos.trans_le hle,((hbound _).mp hall).trans_le (by linarith)⟩
  · rw [(ha.idle hc).2]
    constructor
    · exact fun hd => absurd rfl hd.1
    · rintro ⟨r,hr,hcr,-⟩
      exact absurd ⟨r,hr,hcr⟩ hc

theorem divisible_perm {l l' : List Request} (h : l'.Perm l) (hd : Divisible pf_cfg l) :
    Divisible pf_cfg l' := by
  obtain ⟨r,hr,hc,hpos,hall⟩ := hd
  exact ⟨r,h.mem_iff.mpr hr,hc,hpos,fun q hq => hall q (h.mem_iff.mp hq)⟩

end Rates

section Step

/-- What the divisions of the next configuration start from. -/
structure Stable (w : World σ) : Prop where
  limits : w.common.pf_cfg.max_odr < 2^32
  rated : ∀ r ∈ held w, Rated r
  rates : ∀ u, Before w u → ∀ s, imu s = true → u.enabled s = true →
    ∃ q, u.sample_rate s = rounded w.common.pf_cfg q

omit [RequestStore σ] in
theorem divides_iff (w : World σ) : Divides w ↔ ∀ u, Before w u → ∀ s, imu s = true →
    u.enabled s = true → Defined (u.sample_rate s) (u.report_rate s) := by
  constructor
  · rintro h u (⟨i,hi,rfl⟩ | ⟨-,hno⟩) s hs he
    · exact h i hi s hs he
    · rw [hno] at he
      cases he
  · exact fun h i hi => h (setup i.body) (.inl ⟨i,hi,rfl⟩)

section Configured
variable {s : SensorIdx} {l : List Request} {w v : World σ} (h : Configured s l w v)
  (hw : Stable w)

include h hw

/-- An enabled sensor other than the one configured divides as before. -/
theorem configured_other {u : Setup} (hu : Before v u) {t : SensorIdx} (ht : imu t = true)
    (he : u.enabled t = true) (hts : t ≠ s) : ∃ u₀, Before w u₀ ∧ u₀.enabled t = true ∧
      u.sample_rate t = u₀.sample_rate t ∧ u.report_rate t = u₀.report_rate t := by
  obtain ⟨i,u₀,r,hi,hu₀,hx,rfl,hpf,-⟩ := h.setup
  rw [before_inst hi, hx] at hu
  subst hu
  have hmot : t ≠ .MOTION := by
    rintro rfl
    cases ht
  have he₀ : u₀.enabled t = true := by
    rw [request_enabled] at he
    simpa [hts.symm] using he
  obtain ⟨q,hq⟩ := hw.rates u₀ hu₀ t ht he₀
  refine ⟨u₀,hu₀,he₀,?_,?_⟩
  · rw [request_sample u₀ r t hmot he, if_neg hts, compute_odr_eq, hpf, hq,
      index_rounded hw.limits, rounded_twice hw.limits]
  · rw [request_report, if_neg hts]

/-- The sensor that is configured gets the rates chosen for its clients. -/
theorem configured_own {u : Setup} (hu : Before v u) (hs : imu s = true) :
    u.enabled s = true ∧ ∃ m : List Request,
      m.Perm (l.filter (fun r => r.suid == suids s w.hw_idx)) ∧
      u.sample_rate s = rounded w.common.pf_cfg (choose m).sample_rate ∧
      u.report_rate s = (choose m).report_rate := by
  obtain ⟨i,u₀,r,hi,-,hx,rfl,hpf,hc⟩ := h.setup
  rw [before_inst hi, hx] at hu
  subst hu
  have hmot : r.sensor ≠ .MOTION := by
    intro hm
    rw [hm] at hs
    cases hs
  have he : (u₀.request r).enabled r.sensor = true := by
    rw [request_enabled]
    simp
  have hl := h.held
  rw [held, hi] at hl
  have hchoose : r.chosen = choose (get_client_requests i.store (suids r.sensor w.hw_idx)) := hc
  refine ⟨he,_,hl.filter _,?_,?_⟩
  · rw [request_sample u₀ r _ hmot he, if_pos rfl, compute_odr_eq, hpf,
      index_rounded hw.limits, hchoose]
    rfl
  · rw [request_report, if_pos rfl, hchoose]
    rfl

theorem configured_stable (hl : ∀ r ∈ l, Rated r) : Stable v where
  limits := by
    rw [h.pf_cfg]
    exact hw.limits
  rated r hr := hl r (h.held.mem_iff.mp hr)
  rates u hu t ht he := by
    rw [h.pf_cfg]
    by_cases hts : t = s
    · subst hts
      obtain ⟨-,m,-,hm,-⟩ := configured_own h hw hu ht
      exact ⟨_,hm⟩
    · obtain ⟨u₀,hu₀,he₀,hsample,-⟩ := configured_other h hw hu ht he hts
      rw [hsample]
      exact hw.rates u₀ hu₀ t ht he₀

theorem configured_divides (hd : Divides w) (hl : ∀ r ∈ l, Rated r) :
    Divides v ↔ (imu s = true → Divisible w.common.pf_cfg
      (l.filter (fun r => r.suid == suids s w.hw_idx))) := by
  rw [divides_iff] at hd ⊢
  have hown : ∀ u, Before v u → imu s = true → (Defined (u.sample_rate s) (u.report_rate s) ↔
      Divisible w.common.pf_cfg (l.filter (fun r => r.suid == suids s w.hw_idx))) := by
    intro u hu hs
    obtain ⟨-,m,hm,hsample,hreport⟩ := configured_own h hw hu hs
    have hrated : ∀ r ∈ m, Rated r :=
      fun r hr => hl r (List.mem_of_mem_filter (hm.mem_iff.mp hr))
    rw [hsample, hreport, chosen_defined_iff hrated]
    exact ⟨divisible_perm hm.symm,divisible_perm hm⟩
  constructor
  · intro hv hs
    obtain ⟨i,_,_,hi,-⟩ := h.setup
    have hu : Before v (setup i.body) := .inl ⟨i,hi,rfl⟩
    exact (hown _ hu hs).mp (hv _ hu s hs (configured_own h hw hu hs).1)
  · intro hdiv u hu t ht he
    by_cases hts : t = s
    · subst hts
      exact (hown u hu ht).mpr (hdiv ht)
    · obtain ⟨u₀,hu₀,he₀,hsample,hreport⟩ := configured_other h hw hu ht he hts
      rw [hsample, hreport]
      exact hd u₀ hu₀ t ht he₀

end Configured

/-- The requests a call brings. -/
def Brings (c : Call) : Prop := ∀ r ∈ brings c, Rated r

theorem listed_rated {w : World σ} {c : Call} (hw : ∀ r ∈ held w, Rated r) (hc : Brings c) :
    ∀ r ∈ listed c (held w), Rated r := by
  have hwithout : ∀ (e : Option Request) (r : Request), r ∈ without e (held w) → Rated r := by
    intro e r hr
    cases e with
    | none => exact hw r hr
    | some q => exact hw r (List.mem_of_mem_erase hr)
  cases c with
  | request env s exist_request new_request remove =>
    cases remove with
    | true => exact hwithout exist_request
    | false =>
      intro r hr
      rcases List.mem_append.mp hr with hr | hr
      · exact hc r (List.mem_append_left _ hr)
      · exact hwithout exist_request r hr
  | timer env s events => exact hw

theorem step_stable (w : World σ) (c : Call) (hw : Stable w) (hc : Brings c) :
    Stable (step w c) := by
  obtain ⟨hkept,hconf⟩ := step_outcome w c
  by_cases h : Configures w c
  · exact configured_stable (hconf h) hw (listed_rated hw.rated hc)
  · have hk := hkept h
    constructor
    · rw [hk.pf_cfg]
      exact hw.limits
    · intro r hr
      exact (hk.held r hr).elim (hw.rated r) (hc r)
    · intro u hu
      rw [hk.pf_cfg]
      exact hw.rates u (hk.before u hu)

theorem step_divides (w : World σ) (c : Call) (hw : Stable w) (hd : Divides w) (hc : Brings c) :
    Divides (step w c) ↔ Admitted w c := by
  obtain ⟨hkept,hconf⟩ := step_outcome w c
  by_cases h : Configures w c
  · rw [configured_divides (hconf h) hw hd (listed_rated hw.rated hc), Admitted]
    exact ⟨fun hd _ => hd,fun ha => ha h⟩
  · apply iff_of_true _ (fun hc => absurd hc h)
    rw [divides_iff] at hd ⊢
    exact fun u hu => hd u ((hkept h).before u hu)

end Step

/-- In a run of client requests and timer events on a library that has no
instance yet, the quotient for the watermark is defined at every
configuration, exactly when every configuration of a sensor of the FIFO finds
a client whose report rate is large enough for all of them. -/
theorem watermark_divides (w : World σ) (cs : List Call) (hi : w.inst = none)
    (hmax : w.common.pf_cfg.max_odr < 2^32) (hrated : ∀ c ∈ cs, ∀ r ∈ brings c, Rated r) :
    Always step Divides w cs ↔ Along step Admitted w cs := by
  have hempty : held w = [] := by rw [held, hi]
  have hnone : ∀ u, Before w u → ∀ s, u.enabled s = false := by
    rintro u (⟨i,hw,-⟩ | ⟨-,hno⟩)
    · rw [hi] at hw
      cases hw
    · exact hno
  have hstable : Stable w := by
    refine ⟨hmax,?_,fun u hu s _ he => ?_⟩
    · rw [hempty]
      exact fun r hr => absurd hr List.not_mem_nil
    · rw [hnone u hu] at he
      cases he
  have hdivides : Divides w := by
    intro i hw
    rw [hi] at hw
    cases hw
  exact always_iff_along_of Stable Divides (fun v c hv _ hc _ => step_stable v c hv hc)
    (fun v c hv hd hc => step_divides v c hv hd hc) w cs hstable hdivides
    ((along_forall step Brings w cs).mpr hrated)

/-- The accelerometer at 100 Hz. -/
def exampleClient : Request := ⟨0,suids .ACC chip0,.SENSOR_CONFIG,⟨true,none,some 100⟩⟩

/-- The rail has settled long ago. -/
def exampleAdd : Call := .request (workingEnv 2000000 0) .ACC none (some exampleClient) false

def exampleRemove : Call := .request (workingEnv 2000000 0) .ACC (some exampleClient) none true

def exampleWorld : World (List Request) := { boot0 with common.pf_cfg := exampleLimits }

theorem example_rated : Rated exampleClient := fun _ => ⟨rfl,100,rfl,by norm_num⟩

theorem watermark_divides_add : Always step Divides exampleWorld [exampleAdd] := by
  have hbrings : ∀ c ∈ [exampleAdd], ∀ r ∈ brings c, Rated r := by
    simp [exampleAdd, brings, example_rated]
  have hlisted : ([exampleClient].filter (fun r => r.suid == suids .ACC chip0)) =
      [exampleClient] := by decide
  apply (watermark_divides exampleWorld [exampleAdd] rfl (by decide) hbrings).mpr
  refine ⟨fun _ _ => ?_,trivial⟩
  show Divisible exampleLimits ([exampleClient].filter (fun r => r.suid == suids .ACC chip0))
  rw [hlisted]
  have hreport : reportOf exampleClient = 100 := rfl
  refine ⟨exampleClient,List.mem_singleton_self _,rfl,by rw [hreport]; norm_num,fun q hq _ => ?_⟩
  have hle : whole (rung whole top ⌊clampRate exampleLimits (sampleOf q)⌋₊) ≤ 3200 :=
    whole_strictMono.monotone (rung_le_top whole top _)
  have hcast : (rounded exampleLimits (sampleOf q) : ℚ) ≤ 3200 := by exact_mod_cast hle
  rw [hreport]
  linarith

/-- After its only client is removed the accelerometer is still enabled, and
its rate is divided by zero. -/
theorem removed_client_divides_by_zero :
    ¬ Always step Divides exampleWorld [exampleAdd,exampleRemove] := by
  intro h
  have hd := h 2 (Nat.le_refl _) _ rfl .ACC rfl (by decide +kernel)
  exact hd.1 (by decide +kernel)

end BaseDrivers.WatermarkDivision
