import Mathlib.Order.Bounds.Basic
import Mathlib.Tactic.SplitIfs
import BaseDrivers.DemoSensor

/-!
# The arbitration of the rates

The clients of a sensor ask for a sample rate and, through a batch period or
the sample rate itself, for a report rate; the greatest ones are chosen. The
payload of a request is decoded into a buffer that outlives the request, so a
request without one is served with that of a request before it.
-/

set_option autoImplicit false

namespace BaseDrivers.RateArbitration
open BaseDrivers.DemoCommon BaseDrivers.DemoInstance BaseDrivers.DemoSensor

/-- A running maximum is the greatest of the values and the first one. -/
theorem foldl_max_greatest {α : Type*} [LinearOrder α] (l : List α) (a : α) :
    IsGreatest {x | x = a ∨ x ∈ l} (l.foldl max a) := by
  induction l generalizing a with
  | nil => exact ⟨.inl rfl,by rintro x (rfl | hx); exacts [le_refl _,absurd hx List.not_mem_nil]⟩
  | cons b l ih =>
    obtain ⟨hmem,hup⟩ := ih (max a b)
    constructor
    · rcases hmem with heq | hin
      · rcases max_choice a b with h | h
        · exact .inl (heq.trans h)
        · exact .inr (List.mem_cons.mpr (.inl (heq.trans h)))
      · exact .inr (List.mem_cons_of_mem b hin)
    · have hmax := hup (show max a b ∈ {x | x = max a b ∨ x ∈ l} from .inl rfl)
      rintro x (rfl | hx)
      · exact (le_max_left _ _).trans hmax
      · rcases List.mem_cons.mp hx with rfl | hx
        · exact (le_max_right _ _).trans hmax
        · exact hup (.inr hx)

section Requests

/-- A configuration request that can be decoded. -/
def counts (r : Request) : Bool := r.message_id == .SENSOR_CONFIG && r.decoded.ok

/-- The report rate of a request that is served with a sample rate, where
`rate` is what a batch period comes to. -/
def reportWith (rate : UInt32 → ℚ) (r : Request) (payload : ℚ) : ℚ :=
  match r.decoded.batch_period with
  | some p => if 0 < p then rate p else payload
  | none => payload

/-- The rate a request asks for. -/
def sampleOf (r : Request) : ℚ := r.decoded.sample_rate.getD 0

def reportOf (r : Request) : ℚ := reportWith exactRate r (sampleOf r)

def Batched (r : Request) : Prop := ∃ p, r.decoded.batch_period = some p ∧ 0 < p

variable {rate : UInt32 → ℚ}

theorem reportWith_batched {r : Request} (h : Batched r) (p q : ℚ) :
    reportWith rate r p = reportWith rate r q := by
  obtain ⟨b,hb,hpos⟩ := h
  rw [reportWith, reportWith, hb]
  exact (if_pos hpos).trans (if_pos hpos).symm

theorem reportWith_unbatched {r : Request} (h : ¬ Batched r) (p : ℚ) :
    reportWith rate r p = p := by
  rw [reportWith]
  cases hb : r.decoded.batch_period with
  | none => rfl
  | some b => exact if_neg (fun hpos => h ⟨b,hb,hpos⟩)

theorem reportOf_nonneg {r : Request} (h : 0 ≤ sampleOf r) : 0 ≤ reportOf r := by
  by_cases hb : Batched r
  · obtain ⟨b,hb,hpos⟩ := hb
    rw [reportOf, reportWith, hb]
    show 0 ≤ if 0 < b then exactRate b else sampleOf r
    rw [if_pos hpos, exactRate]
    positivity
  · rw [reportOf, reportWith_unbatched hb]
    exact h

/-- The counting requests with the sample rates they are served with; `p` is
in the buffer at first. -/
def served : ℚ → List Request → List (Request × ℚ)
  | _, [] => []
  | p, r::l =>
    if r.message_id = .SENSOR_CONFIG then
      (if r.decoded.ok then [(r,r.decoded.sample_rate.getD p)] else [])++
        served (r.decoded.sample_rate.getD p) l
    else served p l

/-- The arbitration takes the maximum over what is served. -/
theorem choose_served (rate : UInt32 → ℚ) (l : List Request) (c : Chosen) :
    (l.foldl (chooseRequest rate) c).sample_rate =
      ((served c.payload l).map Prod.snd).foldl max c.sample_rate ∧
    (l.foldl (chooseRequest rate) c).report_rate =
      ((served c.payload l).map (fun x => reportWith rate x.1 x.2)).foldl max c.report_rate ∧
    (l.foldl (chooseRequest rate) c).client_present =
      (c.client_present || !(served c.payload l).isEmpty) := by
  induction l generalizing c with
  | nil => simp [served]
  | cons r l ih =>
    rw [List.foldl_cons]
    have hr := ih (chooseRequest rate c r)
    by_cases hm : r.message_id = .SENSOR_CONFIG
    · cases hok : r.decoded.ok with
      | true =>
        have hc : chooseRequest rate c r = ⟨max c.sample_rate (r.decoded.sample_rate.getD c.payload),
            max c.report_rate (reportWith rate r (r.decoded.sample_rate.getD c.payload)),true,
            r.decoded.sample_rate.getD c.payload⟩ := by
          cases hb : r.decoded.batch_period with
          | none => simp [chooseRequest, reportWith, hm, hok, hb]
          | some b => simp [chooseRequest, reportWith, hm, hok, hb]
        rw [hc] at hr ⊢
        simpa [served, hm, hok] using hr
      | false => simpa [served, hm, hok, chooseRequest] using hr
    · simpa [served, hm, chooseRequest] using hr

/-- A request is served with its own payload, or with one from elsewhere in
the list. -/
theorem served_mem {p : ℚ} {l : List Request} {x : Request × ℚ} (h : x ∈ served p l) :
    x.1 ∈ l ∧ counts x.1 = true ∧ (x.1.decoded.sample_rate = some x.2 ∨
      x.1.decoded.sample_rate = none ∧ (x.2 = p ∨ ∃ j ∈ l,
        j.message_id = .SENSOR_CONFIG ∧ j.decoded.sample_rate = some x.2)) := by
  induction l generalizing p with
  | nil => cases h
  | cons r l ih =>
    have hlater : ∀ q, x ∈ served q l → (q = p ∨ r.message_id = .SENSOR_CONFIG ∧
        r.decoded.sample_rate = some q) → x.1 ∈ r::l ∧ counts x.1 = true ∧
          (x.1.decoded.sample_rate = some x.2 ∨ x.1.decoded.sample_rate = none ∧
            (x.2 = p ∨ ∃ j ∈ r::l, j.message_id = .SENSOR_CONFIG ∧
              j.decoded.sample_rate = some x.2)) := by
      intro q hx hq
      obtain ⟨hmem,hcounts,hpay⟩ := ih hx
      refine ⟨List.mem_cons_of_mem r hmem,hcounts,hpay.imp id (And.imp id ?_)⟩
      rintro (rfl | ⟨j,hj,hrest⟩)
      · exact hq.imp id (fun h => ⟨r,List.mem_cons_self,h⟩)
      · exact .inr ⟨j,List.mem_cons_of_mem r hj,hrest⟩
    rw [served] at h
    by_cases hm : r.message_id = .SENSOR_CONFIG
    · rw [if_pos hm] at h
      rcases List.mem_append.mp h with h | h
      · split_ifs at h with hok
        · rw [List.mem_singleton] at h
          subst h
          refine ⟨List.mem_cons_self,by simp [counts, hm, hok],?_⟩
          cases hs : r.decoded.sample_rate with
          | none => exact .inr ⟨rfl,.inl rfl⟩
          | some v => exact .inl rfl
        · cases h
      · apply hlater _ h
        cases hs : r.decoded.sample_rate with
        | none => exact .inl rfl
        | some v => exact .inr ⟨hm,rfl⟩
    · rw [if_neg hm] at h
      exact hlater p h (.inl rfl)

/-- Every counting request is served, with its own payload if it has one. -/
theorem served_of_counts (p : ℚ) {l : List Request} {r : Request} (hr : r ∈ l)
    (hc : counts r = true) : ∃ q, (r,q) ∈ served p l ∧
      ∀ v, r.decoded.sample_rate = some v → q = v := by
  induction l generalizing p with
  | nil => cases hr
  | cons a l ih =>
    rw [served]
    rcases List.mem_cons.mp hr with rfl | hr
    · rw [counts, Bool.and_eq_true, beq_iff_eq] at hc
      rw [if_pos hc.1, if_pos hc.2]
      refine ⟨_,List.mem_append_left _ List.mem_cons_self,fun v hv => ?_⟩
      rw [hv]
      rfl
    · split_ifs with hm hok
      · obtain ⟨q,hq,hv⟩ := ih (a.decoded.sample_rate.getD p) hr
        exact ⟨q,List.mem_append_right _ hq,hv⟩
      · obtain ⟨q,hq,hv⟩ := ih (a.decoded.sample_rate.getD p) hr
        exact ⟨q,hq,hv⟩
      · exact ih p hr

end Requests

section Greatest

/-- A rate a request is served with: the sample rate, or the report rate. The
served payload decides it for the requests in `free` only. -/
structure Rate where
  serve : Request → ℚ → ℚ
  free : Request → Prop
  served : ∀ u, free u → ∀ q, serve u q = q
  fixed : ∀ u, ¬ free u → ∀ p q, serve u p = serve u q
  nonneg : ∀ u, 0 ≤ sampleOf u → 0 ≤ serve u (sampleOf u)

def sampleRate : Rate where
  serve _ q := q
  free _ := True
  served _ _ _ := rfl
  fixed _ h := (h trivial).elim
  nonneg _ h := h

def reportRate : Rate where
  serve := reportWith exactRate
  free u := ¬ Batched u
  served _ h q := reportWith_unbatched h q
  fixed _ h := reportWith_batched (not_not.mp h)
  nonneg _ h := reportOf_nonneg h

variable (k : Rate) (l : List Request)

/-- The rates asked for. -/
def asked : Set ℚ := {q | ∃ r ∈ l, counts r = true ∧ k.serve r (sampleOf r) = q}

def chosen : ℚ := ((served 0 l).map (fun x => k.serve x.1 x.2)).foldl max 0

/-- No payload in the list is greater than all rates asked for, should there
be a request that can be served with it. -/
def Leakless : Prop := ∀ u ∈ l, counts u = true → k.free u → u.decoded.sample_rate = none →
  ∀ j ∈ l, j.message_id = .SENSOR_CONFIG → ∀ p, j.decoded.sample_rate = some p →
    ∃ q ∈ asked k l, p ≤ q

variable {k l}

theorem le_chosen {x : Request × ℚ} (h : x ∈ served 0 l) : k.serve x.1 x.2 ≤ chosen k l :=
  (foldl_max_greatest _ 0).2 (.inr (List.mem_map.mpr ⟨x,h,rfl⟩))

theorem chosen_nonneg : 0 ≤ chosen k l := (foldl_max_greatest _ 0).2 (.inl rfl)

theorem sampleOf_none {r : Request} (h : r.decoded.sample_rate = none) : sampleOf r = 0 := by
  rw [sampleOf, h]
  rfl

theorem sampleOf_some {r : Request} {q : ℚ} (h : r.decoded.sample_rate = some q) :
    sampleOf r = q := by
  rw [sampleOf, h]
  rfl

/-- What is asked for is never above what is chosen. -/
theorem asked_le {q : ℚ} (h : q ∈ asked k l) : q ≤ chosen k l := by
  obtain ⟨r,hr,hc,rfl⟩ := h
  obtain ⟨p,hp,hown⟩ := served_of_counts 0 hr hc
  cases hs : r.decoded.sample_rate with
  | some v =>
    rw [sampleOf_some hs, ← hown v hs]
    exact le_chosen hp
  | none =>
    rw [sampleOf_none hs]
    by_cases hf : k.free r
    · rw [k.served r hf]
      exact chosen_nonneg
    · rw [k.fixed r hf 0 p]
      exact le_chosen hp

/-- Without a leak the choice is one of the rates asked for. -/
theorem chosen_asked (hrate : ∃ r ∈ l, counts r = true ∧ 0 ≤ sampleOf r) (hleak : Leakless k l) :
    chosen k l ∈ asked k l := by
  obtain ⟨r0,hr0,hc0,hn0⟩ := hrate
  have hzero : chosen k l = 0 → chosen k l ∈ asked k l := by
    intro h
    have hmem : k.serve r0 (sampleOf r0) ∈ asked k l := ⟨r0,hr0,hc0,rfl⟩
    have hle := asked_le hmem
    rw [h] at hle ⊢
    rwa [← le_antisymm hle (k.nonneg r0 hn0)]
  rcases (foldl_max_greatest ((served 0 l).map (fun x => k.serve x.1 x.2)) 0).1 with h | h
  · exact hzero h
  · obtain ⟨⟨u,q⟩,hx,hq⟩ := List.mem_map.mp h
    change k.serve u q = chosen k l at hq
    obtain ⟨hu,hc,hpay | ⟨hnone,hp⟩⟩ := served_mem hx
    · exact ⟨u,hu,hc,by rw [sampleOf_some hpay, hq]⟩
    · by_cases hf : k.free u
      · rw [k.served u hf] at hq
        rcases hp with h0 | ⟨j,hj,hm,hjp⟩
        · exact hzero (hq.symm.trans h0)
        · -- the payload of another request, which does not go beyond what is asked for
          obtain ⟨p,hpa,hle⟩ := hleak u hu hc hf hnone j hj hm q hjp
          rw [hq] at hle
          rwa [le_antisymm hle (asked_le hpa)]
      · exact ⟨u,hu,hc,by rw [← hq]; exact k.fixed u hf _ _⟩

theorem chosen_greatest (hrate : ∃ r ∈ l, counts r = true ∧ 0 ≤ sampleOf r)
    (hleak : Leakless k l) : IsGreatest (asked k l) (chosen k l) :=
  ⟨chosen_asked hrate hleak,fun _ h => asked_le h⟩

theorem asked_perm {l' : List Request} (h : l'.Perm l) : asked k l' = asked k l := by
  ext q
  exact exists_congr (fun r => and_congr_left' h.mem_iff)

theorem leakless_perm {l' : List Request} (h : l'.Perm l) (hl : Leakless k l) : Leakless k l' := by
  intro u hu hc hf hn j hj hm p hp
  rw [asked_perm h]
  exact hl u (h.mem_iff.mp hu) hc hf hn j (h.mem_iff.mp hj) hm p hp

/-- A request right behind another one is served with its payload. -/
theorem leak_chosen {u j : Request} {p : ℚ} (hc : counts u = true) (hf : k.free u)
    (hn : u.decoded.sample_rate = none) (hm : j.message_id = .SENSOR_CONFIG)
    (hp : j.decoded.sample_rate = some p) (rest : List Request) : p ≤ chosen k (j::u::rest) := by
  rw [counts, Bool.and_eq_true, beq_iff_eq] at hc
  have hmem : (u,p) ∈ served 0 (j::u::rest) := by
    rw [served, if_pos hm, hp]
    apply List.mem_append_right
    rw [served, if_pos hc.1, if_pos hc.2, hn]
    exact List.mem_append_left _ List.mem_cons_self
  have hle := le_chosen (k := k) hmem
  rwa [k.served u hf] at hle

end Greatest

/-- The results the requests ask for. Where there are none, both rates are
zero. -/
structure Arbitrated (l : List Request) (c : Chosen) : Prop where
  present : c.client_present = true ↔ ∃ r ∈ l, counts r = true
  sample : (∃ r ∈ l, counts r = true) → IsGreatest (asked sampleRate l) c.sample_rate
  report : (∃ r ∈ l, counts r = true) → IsGreatest (asked reportRate l) c.report_rate
  idle : (¬ ∃ r ∈ l, counts r = true) → c.sample_rate = 0 ∧ c.report_rate = 0

/-- A client has a rate that is not negative, if there is a client, and no
payload leaks into a request without one. -/
structure Separate (l : List Request) : Prop where
  rate : (∃ r ∈ l, counts r = true) → ∃ r ∈ l, counts r = true ∧ 0 ≤ sampleOf r
  sample : Leakless sampleRate l
  report : Leakless reportRate l

section Orders

def choose (l : List Request) : Chosen := chooseAll exactRate l

theorem choose_sample (l : List Request) : (choose l).sample_rate = chosen sampleRate l :=
  (choose_served exactRate l ⟨0,0,false,0⟩).1

theorem choose_report (l : List Request) : (choose l).report_rate = chosen reportRate l :=
  (choose_served exactRate l ⟨0,0,false,0⟩).2.1

theorem choose_present (l : List Request) :
    (choose l).client_present = true ↔ ∃ r ∈ l, counts r = true := by
  have h := (choose_served exactRate l ⟨0,0,false,0⟩).2.2
  rw [show (choose l).client_present = _ from h, Bool.false_or, Bool.not_eq_true',
    List.isEmpty_eq_false_iff]
  constructor
  · intro hne
    obtain ⟨x,xs,hx⟩ := List.exists_cons_of_ne_nil hne
    have hmem : x ∈ served 0 l := by
      rw [show served 0 l = x::xs from hx]
      exact List.mem_cons_self
    obtain ⟨hl,hc,-⟩ := served_mem hmem
    exact ⟨x.1,hl,hc⟩
  · rintro ⟨r,hr,hc⟩
    obtain ⟨q,hq,-⟩ := served_of_counts 0 hr hc
    exact List.ne_nil_of_mem hq

theorem chosen_idle (k : Rate) {l : List Request} (h : ¬ ∃ r ∈ l, counts r = true) :
    chosen k l = 0 := by
  have hnil : served 0 l = [] := by
    apply List.eq_nil_iff_forall_not_mem.mpr
    intro x hx
    obtain ⟨hl,hc,-⟩ := served_mem hx
    exact h ⟨x.1,hl,hc⟩
  rw [chosen, hnil]
  rfl

theorem arbitrated_of_separate {l : List Request} (h : Separate l) : Arbitrated l (choose l) where
  present := choose_present l
  sample hc := by
    rw [choose_sample]
    exact chosen_greatest (h.rate hc) h.sample
  report hc := by
    rw [choose_report]
    exact chosen_greatest (h.rate hc) h.report
  idle hn := by
    rw [choose_sample, choose_report]
    exact ⟨chosen_idle sampleRate hn,chosen_idle reportRate hn⟩

theorem separate_perm {l l' : List Request} (h : l'.Perm l) (hl : Separate l) : Separate l' := by
  have hex : ∀ p : Request → Prop, (∃ r ∈ l', p r) ↔ ∃ r ∈ l, p r :=
    fun p => exists_congr (fun r => and_congr_left' h.mem_iff)
  constructor
  · rw [hex, hex]
    exact hl.rate
  · exact leakless_perm h hl.sample
  · exact leakless_perm h hl.report

theorem arbitrated_perm {l l' : List Request} (h : l'.Perm l) {c : Chosen}
    (ha : Arbitrated l' c) : Arbitrated l c := by
  have hex : (∃ r ∈ l', counts r = true) ↔ ∃ r ∈ l, counts r = true :=
    exists_congr (fun r => and_congr_left' h.mem_iff)
  constructor
  · exact ha.present.trans hex
  · intro hc
    rw [← asked_perm h]
    exact ha.sample (hex.mpr hc)
  · intro hc
    rw [← asked_perm h]
    exact ha.report (hex.mpr hc)
  · exact fun hn => ha.idle (fun hc => hn (hex.mp hc))

/-- Where some order of the requests could leak a payload, it does. -/
theorem leakless_of_greatest (k : Rate) {l : List Request}
    (h : ∀ l' : List Request, l'.Perm l → chosen k l' ∈ asked k l) : Leakless k l := by
  intro u hu hc hf hn j hj hm p hp
  have hne : u ≠ j := by
    rintro rfl
    rw [hn] at hp
    cases hp
  have hperm : (j::u::(l.erase j).erase u).Perm l :=
    ((List.perm_cons_erase ((List.mem_erase_of_ne hne).mpr hu)).symm.cons j).trans
      (List.perm_cons_erase hj).symm
  exact ⟨_,h _ hperm,leak_chosen hc hf hn hm hp _⟩

theorem separate_of_arbitrated {l : List Request}
    (h : ∀ l' : List Request, l'.Perm l → Arbitrated l (choose l')) : Separate l := by
  have hone : ∀ u ∈ l, counts u = true → ∃ r ∈ l, counts r = true := fun u hu hc => ⟨u,hu,hc⟩
  constructor
  · intro hc
    obtain ⟨r,hr,hcr,hq⟩ := ((h l (.refl l)).sample hc).1
    refine ⟨r,hr,hcr,?_⟩
    rw [show sampleOf r = _ from hq, choose_sample]
    exact chosen_nonneg
  · intro u hu hc
    apply leakless_of_greatest sampleRate _ u hu hc
    intro l' hl'
    rw [← choose_sample]
    exact ((h l' hl').sample (hone u hu hc)).1
  · intro u hu hc
    apply leakless_of_greatest reportRate _ u hu hc
    intro l' hl'
    rw [← choose_report]
    exact ((h l' hl').report (hone u hu hc)).1

/-- The results determine each other: there is one greatest rate. -/
theorem arbitrated_unique {l : List Request} {c c' : Chosen} (h : Arbitrated l c)
    (h' : Arbitrated l c') : c.sample_rate = c'.sample_rate ∧ c.report_rate = c'.report_rate ∧
      c.client_present = c'.client_present := by
  refine ⟨?_,?_,Bool.eq_iff_iff.mpr (h.present.trans h'.present.symm)⟩
  · by_cases hc : ∃ r ∈ l, counts r = true
    · exact (h.sample hc).unique (h'.sample hc)
    · rw [(h.idle hc).1, (h'.idle hc).1]
  · by_cases hc : ∃ r ∈ l, counts r = true
    · exact (h.report hc).unique (h'.report hc)
    · rw [(h.idle hc).2, (h'.idle hc).2]

/-- The requests of one sensor in another order, among the others. -/
theorem filter_orders (p : Request → Bool) (l m : List Request) (h : m.Perm (l.filter p)) :
    ∃ l' : List Request, l'.Perm l ∧ l'.filter p = m := by
  refine ⟨m++l.filter (fun r => !p r),(h.append_right _).trans (List.filter_append_perm p l),?_⟩
  have hm : ∀ r ∈ m, p r = true := fun r hr => (List.mem_filter.mp (h.mem_iff.mp hr)).2
  rw [List.filter_append, List.filter_eq_self.mpr hm, List.append_right_eq_self,
    List.filter_filter]
  apply List.filter_eq_nil_iff.mpr
  intro r _
  cases p r <;> decide

/-- For every list of requests: in every order the arbitration chooses what
the clients of the sensor ask for, and chooses the same, exactly where their
payloads are kept apart. -/
theorem arbitration_order_independent (suid : Suid) (l : List Request) :
    (∀ l' : List Request, l'.Perm l →
      Arbitrated (get_client_requests l suid) (demo_get_sensor_config l' suid) ∧
      (demo_get_sensor_config l' suid).sample_rate = (demo_get_sensor_config l suid).sample_rate ∧
      (demo_get_sensor_config l' suid).report_rate = (demo_get_sensor_config l suid).report_rate ∧
      (demo_get_sensor_config l' suid).client_present =
        (demo_get_sensor_config l suid).client_present) ↔
    Separate (get_client_requests l suid) := by
  have hchoose : ∀ m : List Request, demo_get_sensor_config m suid =
      choose (get_client_requests m suid) := fun _ => rfl
  constructor
  · intro h
    apply separate_of_arbitrated
    intro m hm
    obtain ⟨l',hl',hf⟩ := filter_orders (fun r => r.suid == suid) l m hm
    have ha := (h l' hl').1
    rw [hchoose] at ha
    rwa [← show get_client_requests l' suid = m from hf]
  · intro h l' hl'
    have hperm : (get_client_requests l' suid).Perm (get_client_requests l suid) :=
      List.Perm.filter (fun r : Request => r.suid == suid) hl'
    have ha := arbitrated_perm hperm (arbitrated_of_separate (separate_perm hperm h))
    exact ⟨ha,arbitrated_unique ha (arbitrated_of_separate h)⟩

end Orders

/-- At 100 Hz reported once a second, and without a payload. -/
def exampleBatched : Request :=
  ⟨0,suids .ACC chip0,.SENSOR_CONFIG,⟨true,some 1000000,some 100⟩⟩

def exampleBare : Request := ⟨1,suids .ACC chip0,.SENSOR_CONFIG,⟨true,none,none⟩⟩

/-- Behind the batched request the bare one is reported at 100 Hz too. -/
theorem bare_request_leaks : ¬ ∀ l' : List Request, l'.Perm [exampleBatched,exampleBare] →
    Arbitrated (get_client_requests [exampleBatched,exampleBare] (suids .ACC chip0))
      (demo_get_sensor_config l' (suids .ACC chip0)) ∧
    (demo_get_sensor_config l' (suids .ACC chip0)).sample_rate =
      (demo_get_sensor_config [exampleBatched,exampleBare] (suids .ACC chip0)).sample_rate ∧
    (demo_get_sensor_config l' (suids .ACC chip0)).report_rate =
      (demo_get_sensor_config [exampleBatched,exampleBare] (suids .ACC chip0)).report_rate ∧
    (demo_get_sensor_config l' (suids .ACC chip0)).client_present =
      (demo_get_sensor_config [exampleBatched,exampleBare] (suids .ACC chip0)).client_present := by
  intro h
  have hr := (h [exampleBare,exampleBatched] (.swap _ _ _)).2.2.1
  exact absurd hr (by decide +kernel)

end BaseDrivers.RateArbitration
