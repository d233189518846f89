import BaseDrivers.TouchPosition

/-!
# The samples of one touch and of another

Four samples make a position. The counter of the samples belongs to the
converter's handler, which clears it when it finds the pen released; the
timer's handler and the pen's leave a group that has been begun as it is.
-/

set_option autoImplicit false

namespace BaseDrivers.TouchMixing
open BaseDrivers.Execution BaseDrivers.TouchScreen BaseDrivers.TouchPosition

/-- Beside the handlers' state, whether the pen has been found released since
the sample at an index was stored. -/
structure Traced where
  touch : Touch
  stale : ℕ → Bool

def start : Traced := ⟨s3c_ts_init,fun _ => false⟩

def marked (t : Traced) (e : Event) : ℕ → Bool :=
  if seen e = true then fun _ => true
  else match e with
    | .adc _ _ _ => Function.update t.stale t.touch.cnt false
    | .timer _ => t.stale
    | .pen _ => t.stale

def trace (t : Traced) (e : Event) : Traced := ⟨step t.touch e,marked t e⟩

/-- A position reported is made of four samples of one touch. -/
def Unmixed (t : Traced) (e : Event) : Prop :=
  axes (step t.touch e).events ≠ axes t.touch.events → ∀ i < 4, (trace t e).stale i = false

/-- No group is begun, or the filter is certain to reject it. -/
def Idle (s : Touch) : Prop := s.cnt = 0 ∨ (s.cnt = 3 ∧ det s.x 0 > ERR_LIMIT)

/-- The timer and the pen interrupt find the pen released between groups. -/
def Timely (t : Traced) : Event → Prop
  | .timer adcdat0 => released adcdat0 = true → Idle t.touch
  | .pen adcdat0 => released adcdat0 = true → Idle t.touch
  | .adc _ _ _ => True

instance (s : Touch) : Decidable (Idle s) :=
  inferInstanceAs (Decidable (s.cnt = 0 ∨ (s.cnt = 3 ∧ det s.x 0 > ERR_LIMIT)))

instance (t : Traced) : (e : Event) → Decidable (Timely t e)
  | .timer adcdat0 => inferInstanceAs (Decidable (released adcdat0 = true → Idle t.touch))
  | .pen adcdat0 => inferInstanceAs (Decidable (released adcdat0 = true → Idle t.touch))
  | .adc _ _ _ => .isTrue trivial

/-- The samples of the group begun are of the touch at hand, or the filter is
certain to reject the group. -/
structure Ready (t : Traced) : Prop where
  cnt : t.touch.cnt < 4
  group : (∀ i < t.touch.cnt, t.stale i = false) ∨
    (t.touch.cnt = 3 ∧ det t.touch.x 0 > ERR_LIMIT)

/-- What the samples stored can be. -/
structure Ranged (s : Touch) : Prop where
  x : ∀ i, 0 ≤ s.x i ∧ s.x i ≤ 0x3ff
  y : s.y = fun _ => 0

theorem axes_touch (es : List InputEvent) (v : ℤ) : axes (es++touch_events v) = axes es := by
  rw [axes, List.filter_append]
  exact List.append_nil _

theorem look_kept (adcdat0 : UInt32) (s : Touch) :
    (look_at_pen adcdat0 s).cnt = s.cnt ∧ (look_at_pen adcdat0 s).x = s.x ∧
    (look_at_pen adcdat0 s).y = s.y ∧ axes (look_at_pen adcdat0 s).events = axes s.events := by
  rw [look_at_pen]
  split_ifs
  · exact ⟨rfl,rfl,rfl,axes_touch _ _⟩
  · exact ⟨rfl,rfl,rfl,rfl⟩

section Look
variable {e : Event} (he : ∀ r : Reading, e ≠ r.event)
include he

/-- The handlers of the timer and of the pen interrupt leave the samples and
the counter alone. -/
theorem look_step (s : Touch) : (step s e).cnt = s.cnt ∧ (step s e).x = s.x ∧
    (step s e).y = s.y ∧ axes (step s e).events = axes s.events := by
  cases e with
  | timer adcdat0 => exact look_kept adcdat0 { s with ts_timer := false }
  | pen adcdat0 => exact look_kept adcdat0 s
  | adc adcdat0 adcdat1 again => exact absurd rfl (he ⟨adcdat0,adcdat1,again⟩)

theorem look_marked (t : Traced) :
    marked t e = if seen e = true then fun _ => true else t.stale := by
  cases e with
  | timer adcdat0 => rfl
  | pen adcdat0 => rfl
  | adc adcdat0 adcdat1 again => exact absurd rfl (he ⟨adcdat0,adcdat1,again⟩)

theorem look_timely (t : Traced) : Timely t e ↔ (seen e = true → Idle t.touch) := by
  cases e with
  | timer adcdat0 => exact Iff.rfl
  | pen adcdat0 => exact Iff.rfl
  | adc adcdat0 adcdat1 again => exact absurd rfl (he ⟨adcdat0,adcdat1,again⟩)

end Look

theorem adc_up {r : Reading} (s : Touch) (hr : released r.again = true) :
    (step s r.event).cnt = 0 ∧ (step s r.event).x = s.x ∧ (step s r.event).y = s.y ∧
      axes (step s r.event).events = axes s.events := by
  show (adc_irq _ _ _ s).cnt = 0 ∧ (adc_irq _ _ _ s).x = s.x ∧ (adc_irq _ _ _ s).y = s.y ∧
    axes (adc_irq _ _ _ s).events = _
  rw [adc_irq, if_pos hr]
  exact ⟨rfl,rfl,rfl,axes_touch _ _⟩

theorem judged_x (s : Touch) : (judged s).x = s.x := by
  rw [judged]
  split_ifs <;> rfl

theorem adc_down {r : Reading} (s : Touch) (hd : Down r) :
    (step s r.event).x = store s.x s.cnt (sampleY r) ∧ (step s r.event).y = s.y := by
  rw [adc_stores s hd]
  split_ifs
  · exact ⟨judged_x _,judged_y _⟩
  · exact ⟨rfl,rfl⟩

theorem marked_down {r : Reading} (t : Traced) (hd : Down r) :
    marked t r.event = Function.update t.stale t.touch.cnt false := by
  have hseen : seen r.event = false := hd
  show (if seen r.event = true then fun _ => true
    else Function.update t.stale t.touch.cnt false) = _
  rw [hseen, if_neg Bool.false_ne_true]

theorem sampleY_le (r : Reading) : sampleY r ≤ 0x3ff := by
  rw [sampleY, UInt32.toNat_and]
  exact Int.ofNat_le.mpr Nat.and_le_right

theorem step_ranged (s : Touch) (e : Event) (hs : Ranged s) : Ranged (step s e) := by
  by_cases he : ∃ r : Reading, e = r.event
  · obtain ⟨r,rfl⟩ := he
    cases hr : released r.again with
    | true =>
      obtain ⟨-,hx,hy,-⟩ := adc_up s hr
      exact ⟨fun i => hx ▸ hs.x i,hy.trans hs.y⟩
    | false =>
      obtain ⟨hx,hy⟩ := adc_down s hr
      refine ⟨fun i => ?_,hy.trans hs.y⟩
      rw [hx, store]
      split_ifs
      · exact ⟨sampleY_nonneg r,sampleY_le r⟩
      · exact hs.x i
  · obtain ⟨-,hx,hy,-⟩ := look_step (not_exists.mp he) s
    exact ⟨fun i => hx ▸ hs.x i,hy.trans hs.y⟩

/-- Below four samples a reading of a pen that is down reports nothing. -/
theorem collects_axes {s : Touch} {r : Reading} (hd : Down r) (hc : s.cnt < 3) :
    (step s r.event).cnt = s.cnt+1 ∧ axes (step s r.event).events = axes s.events := by
  rw [adc_collects hd hc]
  exact ⟨rfl,rfl⟩

/-- The fourth sample is followed by the filter. -/
theorem completes_axes {s : Touch} {r : Reading} (hd : Down r) (hc : s.cnt = 3) :
    (step s r.event).cnt = 0 ∧
    axes (step s r.event).events = axes s.events++
      if filter_ts (stored r s).x s.y then position (mean (stored r s).x) (mean s.y) else [] := by
  rw [adc_completes hd hc]
  exact ⟨rfl,judged_axes (stored r s)⟩

theorem det_stored {s : Touch} (r : Reading) (hc : s.cnt = 3) :
    det (stored r s).x 0 = det s.x 0 := by
  simp [det, stored, store, hc]

theorem filter_rejects {x y : ℕ → ℤ} (h : det x 0 > ERR_LIMIT) : filter_ts x y = false := by
  rw [filter_ts, if_pos (.inl h)]

theorem ready_empty {t : Traced} (h : t.touch.cnt = 0) : Ready t where
  cnt := h.symm ▸ Nat.zero_lt_succ 3
  group := .inl fun i hi => absurd (h ▸ hi) (Nat.not_lt_zero i)

theorem unmixed_silent {t : Traced} {e : Event}
    (h : axes (step t.touch e).events = axes t.touch.events) : Unmixed t e :=
  fun hne => absurd h hne

section Down
variable {t : Traced} {r : Reading} (hd : Down r)
include hd

/-- With the sample at hand the group is one sample longer. -/
theorem down_fresh (hfresh : ∀ i < t.touch.cnt, t.stale i = false) :
    ∀ i < t.touch.cnt+1, (trace t r.event).stale i = false := by
  intro i hi
  show marked t r.event i = false
  rw [marked_down t hd, Function.update_apply]
  split_ifs
  · rfl
  · exact hfresh i (by omega)

theorem collects_ready (ht : Ready t) (hc : t.touch.cnt < 3) : Ready (trace t r.event) := by
  have hcnt : (trace t r.event).touch.cnt = t.touch.cnt+1 := (collects_axes hd hc).1
  have hfresh := ht.group.resolve_right (fun h => by omega)
  constructor
  · omega
  · rw [hcnt]
    exact .inl (down_fresh hd hfresh)

theorem completes_unmixed (ht : Ready t) (hc : t.touch.cnt = 3) : Unmixed t r.event := by
  intro h i hi
  rcases ht.group with hfresh | ⟨-,hdet⟩
  · exact down_fresh hd hfresh i (by omega)
  · have haxes := (completes_axes hd hc).2
    rw [← det_stored r hc] at hdet
    rw [filter_rejects hdet, if_neg Bool.false_ne_true, List.append_nil] at haxes
    exact absurd haxes h

end Down

theorem look_ready {t : Traced} {e : Event} (he : ∀ r : Reading, e ≠ r.event) (ht : Ready t)
    (htimely : Timely t e) : Ready (trace t e) := by
  obtain ⟨hcnt,hx,-,-⟩ := look_step he t.touch
  have hcnt : (trace t e).touch.cnt = t.touch.cnt := hcnt
  have hx : (trace t e).touch.x = t.touch.x := hx
  have hstale : (trace t e).stale = _ := look_marked he t
  rw [look_timely he] at htimely
  constructor
  · exact hcnt.symm ▸ ht.cnt
  · rw [hcnt, hx, hstale]
    split_ifs with hseen
    · rcases htimely hseen with hzero | hreject
      · exact .inl fun i hi => absurd (hzero ▸ hi) (Nat.not_lt_zero i)
      · exact .inr hreject
    · exact ht.group

/-- One event from a state in which no samples are mixed. -/
theorem step_ready (t : Traced) (e : Event) (ht : Ready t) (he : Timely t e) :
    Ready (trace t e) ∧ Unmixed t e := by
  by_cases hadc : ∃ r : Reading, e = r.event
  · obtain ⟨r,rfl⟩ := hadc
    cases hr : released r.again with
    | true =>
      obtain ⟨hcnt,-,-,haxes⟩ := adc_up t.touch hr
      exact ⟨ready_empty hcnt,unmixed_silent haxes⟩
    | false =>
      by_cases hc : t.touch.cnt < 3
      · exact ⟨collects_ready hr ht hc,unmixed_silent (collects_axes hr hc).2⟩
      · have hc : t.touch.cnt = 3 := by have := ht.cnt; omega
        exact ⟨ready_empty (completes_axes hr hc).1,completes_unmixed hr ht hc⟩
  · have he' := not_exists.mp hadc
    exact ⟨look_ready he' ht he,unmixed_silent (look_step he' t.touch).2.2.2⟩

theorem start_ready : Ready start := ready_empty rfl

theorem timely_unmixed (es : List Event) (h : Along trace Timely start es) :
    Along trace Unmixed start es :=
  along_of_always (fun t e ht he => (step_ready t e ht he).2) start es
    (always_of_step Ready (fun t e ht he => (step_ready t e ht he).1) start es start_ready h) h

/-- A group with a sample of another touch, which is still going to be
reported if its samples are alike. -/
structure Spoilt (t : Traced) : Prop where
  stale : t.stale 0 = true
  begun : 0 < t.touch.cnt
  cnt : t.touch.cnt < 4
  ranged : Ranged t.touch
  near : t.touch.cnt = 3 → ¬ det t.touch.x 0 > ERR_LIMIT

/-- A sample that the filter does not reject: the one before it, or the mean
of the two before it. -/
def alike (s : Touch) : ℤ :=
  if s.cnt = 1 then s.x 0 else (s.x (s.cnt-2)+s.x (s.cnt-1)).tdiv 2

/-- A reading with a given sample. -/
def reading (v : ℤ) : Reading := ⟨0,UInt32.ofNat v.toNat,0⟩

theorem reading_down (v : ℤ) : Down (reading v) := by
  show released 0 = false
  decide

theorem reading_sample {v : ℤ} (h0 : 0 ≤ v) (h : v ≤ 0x3ff) : sampleY (reading v) = v := by
  have hmask : v.toNat &&& 0x3ff = v.toNat % 2^10 := Nat.and_two_pow_sub_one_eq_mod v.toNat 10
  rw [sampleY, reading, UInt32.toNat_and, UInt32.toNat_ofNat', Nat.mod_eq_of_lt (by omega)]
  show ((v.toNat &&& 0x3ff : ℕ) : ℤ) = v
  rw [hmask, Nat.mod_eq_of_lt (by omega)]
  omega

theorem alike_range {s : Touch} (hs : Ranged s) : 0 ≤ alike s ∧ alike s ≤ 0x3ff := by
  have h2 := hs.x (s.cnt-2)
  have h1 := hs.x (s.cnt-1)
  rw [alike]
  split_ifs
  · exact hs.x 0
  · rw [Int.tdiv_eq_ediv_of_nonneg (by omega)]
    omega

theorem alike_sample {s : Touch} (hs : Ranged s) : sampleY (reading (alike s)) = alike s :=
  reading_sample (alike_range hs).1 (alike_range hs).2

/-- The third of three samples at the mean of the first two. -/
theorem det_mean {x : ℕ → ℤ} {i : ℕ} (h : x (i+2) = (x i+x (i+1)).tdiv 2) :
    ¬ det x i > ERR_LIMIT := by
  rw [det, ← h, if_neg (Int.lt_irrefl _), Int.sub_self]
  decide

theorem spoilt_next {t : Traced} (ht : Spoilt t) (hc : t.touch.cnt < 3) :
    Spoilt (trace t (reading (alike t.touch)).event) ∧
    (trace t (reading (alike t.touch)).event).touch.cnt = t.touch.cnt+1 := by
  have hdown := reading_down (alike t.touch)
  have hcnt : (trace t (reading (alike t.touch)).event).touch.cnt = t.touch.cnt+1 :=
    (collects_axes hdown hc).1
  refine ⟨?_,hcnt⟩
  constructor
  · show marked t _ 0 = true
    rw [marked_down t hdown, Function.update_of_ne (Nat.ne_of_lt ht.begun)]
    exact ht.stale
  · omega
  · omega
  · exact step_ranged t.touch (reading (alike t.touch)).event ht.ranged
  · intro h3
    have hc : t.touch.cnt = 2 := by omega
    have hx : (trace t (reading (alike t.touch)).event).touch.x = _ := (adc_down t.touch hdown).1
    rw [hx]
    apply det_mean
    rw [alike_sample ht.ranged]
    simp [store, alike, hc]

theorem spoilt_reported {t : Traced} (ht : Spoilt t) (hc : t.touch.cnt = 3) :
    ¬ Unmixed t (reading (alike t.touch)).event := by
  have hdown := reading_down (alike t.touch)
  have hx : (stored (reading (alike t.touch)) t.touch).x = store t.touch.x 3 (alike t.touch) := by
    rw [stored, alike_sample ht.ranged, hc]
  have h1 : ¬ det (store t.touch.x 3 (alike t.touch)) 1 > ERR_LIMIT := by
    apply det_mean
    simp [store, alike, hc]
  have h0 : ¬ det (store t.touch.x 3 (alike t.touch)) 0 > ERR_LIMIT := by
    rw [← hx, det_stored _ hc]
    exact ht.near hc
  have hy : ∀ i, ¬ det t.touch.y i > ERR_LIMIT := by
    intro i
    rw [ht.ranged.y]
    exact Int.not_lt.mpr (by decide : (0 : ℤ) ≤ 10)
  have hfilter : filter_ts (stored (reading (alike t.touch)) t.touch).x t.touch.y = true := by
    rw [hx, filter_ts, if_neg (not_or.mpr ⟨h0,hy 0⟩), if_neg (not_or.mpr ⟨h1,hy 1⟩)]
  have haxes := (completes_axes hdown hc).2
  rw [hfilter, if_pos rfl] at haxes
  intro h
  have hstale := h (by rw [haxes]; simp [position]) 0 (Nat.zero_lt_succ 3)
  rw [show (trace t _).stale = _ from marked_down t hdown, hc,
    Function.update_of_ne (by decide), ht.stale] at hstale
  cases hstale

/-- Readings alike bring a spoilt group to its report. -/
theorem spoilt_mixes {t : Traced} (ht : Spoilt t) :
    ∃ fs, Along trace Timely t fs ∧ ¬ Along trace Unmixed t fs := by
  obtain ⟨k,hk⟩ : ∃ k, t.touch.cnt+k = 3 := ⟨3-t.touch.cnt,by have := ht.cnt; omega⟩
  induction k generalizing t with
  | zero =>
    refine ⟨[(reading (alike t.touch)).event],⟨trivial,trivial⟩,?_⟩
    exact fun h => spoilt_reported ht hk h.1
  | succ k ih =>
    obtain ⟨hnext,hcnt⟩ := spoilt_next ht (by omega)
    obtain ⟨fs,htimely,hmixed⟩ := ih hnext (by omega)
    exact ⟨(reading (alike t.touch)).event::fs,⟨trivial,htimely⟩,fun h => hmixed h.2⟩

theorem untimely_spoilt {t : Traced} {e : Event} (ht : Ready t) (hr : Ranged t.touch)
    (he : ¬ Timely t e) : Spoilt (trace t e) := by
  have hlook : ∀ r : Reading, e ≠ r.event := by
    rintro r rfl
    exact he trivial
  obtain ⟨hcnt,hx,-,-⟩ := look_step hlook t.touch
  have hcnt : (trace t e).touch.cnt = t.touch.cnt := hcnt
  have hx : (trace t e).touch.x = t.touch.x := hx
  rw [look_timely hlook, Classical.not_imp, Idle, not_or] at he
  obtain ⟨hseen,hbegun,hreject⟩ := he
  constructor
  · rw [show (trace t e).stale = _ from look_marked hlook t, if_pos hseen]
  · rw [hcnt]
    exact Nat.pos_of_ne_zero hbegun
  · rw [hcnt]
    exact ht.cnt
  · exact step_ranged _ _ hr
  · rw [hcnt, hx]
    exact fun hc hdet => hreject ⟨hc,hdet⟩

theorem timely_kept (es : List Event) (h : Along trace Timely start es) :
    Ready (run trace start es) ∧ Ranged (run trace start es).touch :=
  always_last (always_of_step (fun t => Ready t ∧ Ranged t.touch)
    (fun t e ht he => ⟨(step_ready t e ht.1 he).1,step_ranged _ _ ht.2⟩) start es
    ⟨start_ready,⟨fun _ => ⟨Int.le_refl 0,Int.natCast_nonneg 0x3ff⟩,rfl⟩⟩ h)

/-- While the timer and the pen interrupt find the pen released only between
groups, no samples are mixed; and once one of them finds it released within a
group there are readings with which the samples are mixed. -/
theorem samples_unmixed_while (es : List Event) (h : Along trace Timely start es) :
    Along trace Unmixed start es ∧
    ∀ e, ¬ Timely (run trace start es) e →
      ∃ fs, Along trace Timely (run trace start (es++[e])) fs ∧
        ¬ Along trace Unmixed start (es++e::fs) := by
  constructor
  · exact timely_unmixed es h
  · intro e he
    obtain ⟨hready,hranged⟩ := timely_kept es h
    obtain ⟨fs,htimely,hmixed⟩ := spoilt_mixes (untimely_spoilt hready hranged he)
    refine ⟨fs,by rwa [run_append],fun hall => hmixed ?_⟩
    rw [along_append] at hall
    exact hall.2.2

/-- A touch that ends between groups, and a second one in which the timer
finds the pen released after its first sample. -/
theorem samples_unmixed_two_touches :
    Along trace Unmixed start
      [.adc 0 100 0,.adc 0 100 0,.adc 0 100 0,.adc 0 100 0,.timer 0x8000,.adc 0 300 0] ∧
    ∃ fs, Along trace Timely (run trace start [.adc 0 300 0,.timer 0x8000]) fs ∧
      ¬ Along trace Unmixed start ([.adc 0 300 0]++.timer 0x8000::fs) :=
  ⟨(samples_unmixed_while _ (by decide)).1,
    (samples_unmixed_while [.adc 0 300 0] (by decide)).2 (.timer 0x8000) (by decide)⟩

/-- The pen is lifted after two samples and put down again for two more. -/
theorem samples_mixed : ¬ ∀ es, Along trace Unmixed start es := by
  intro h
  have hall := h [.pen 0,.adc 0 0 0,.adc 0 0 0,.pen 0x8000,.pen 0,.adc 0 0 0,.adc 0 0 0]
  exact absurd (hall.2.2.2.2.2.2.1 (by decide) 0 (by decide)) (by decide)

end BaseDrivers.TouchMixing
