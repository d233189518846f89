import BaseDrivers.Execution
import BaseDrivers.SensorMonitor

/-!
# Configurations before the rail has settled

A sensor waits from the timer request of a new instance to the moment that
timer is handled. The pending state that guards the configuration belongs to
one sensor, while the rail and the instance belong to all of them, and a
removal does not ask at all. What is deferred is applied in any case.
-/

set_option autoImplicit false

namespace BaseDrivers.RailSettling
open BaseDrivers.Execution BaseDrivers.DemoCommon BaseDrivers.DemoInstance BaseDrivers.DemoSensor
open BaseDrivers.SensorMonitor

variable {σ : Type}

/-- The sensors that wait for the rail, those with a configuration still to be
applied, and whether one was applied while some sensor was waiting. -/
structure Watch where
  waiting : SensorIdx → Bool
  deferred : SensorIdx → Bool
  early : Bool

def mark (s : SensorIdx) (b : Bool) (f : SensorIdx → Bool) (t : SensorIdx) : Bool :=
  if t = s then b else f t

def readWatch (k : Watch) : Note → Watch
  | .rail_timer s _ .SET_CLIENT_REQ => { k with waiting := mark s true k.waiting }
  | .timer_handled s => { k with waiting := mark s false k.waiting }
  | .reval s =>
    { k with deferred := mark s false k.deferred, early := k.early || SensorIdx.all.any k.waiting }
  | .reject_config s true => { k with deferred := mark s true k.deferred }
  | _ => k

def watch (w : World σ) : Watch := monitor readWatch ⟨fun _ => false,fun _ => false,false⟩ w

/-- No configuration came too early, and every configuration that is still to
be applied has a timer that will apply it. -/
structure Settled (w : World σ) : Prop where
  early : (watch w).early = false
  deferred : ∀ s, (watch w).deferred s = true → (watch w).waiting s = true

inductive Call where
  | request (env : Env) (s : SensorIdx) (exist_request new_request : Option Request)
      (remove : Bool)
  | timer (env : Env) (s : SensorIdx) (events : List TimerEvent)

def step [RequestStore σ] (w : World σ) : Call → World σ
  | .request env s exist_request new_request remove =>
    (demo_set_client_request env s exist_request new_request remove w).2
  | .timer env s events => (demo_sensor_process_timer_event env s events w).1

def Waits (w : World σ) (s : SensorIdx) : Prop :=
  (w.states s).pwrail_pending_state = .SET_CLIENT_REQ

/-- A new instance starts a timer and the request goes out. -/
def Starts (env : Env) (s : SensorIdx) (w : World σ) : Prop :=
  Settling env ∧ sends env (w.states s) = true

/-- A call that configures the instance finds no sensor waiting, its own timer
apart. -/
def Admitted (w : World σ) : Call → Prop
  | .request _ _ exist_request _ true =>
    w.inst.isSome = true ∧ exist_request.isSome = true → ∀ t, ¬ Waits w t
  | .request env s _ new_request false =>
    (∃ r, new_request = some r ∧ r.message_id = .SENSOR_CONFIG) ∧
      (w.states s).pwrail_pending_state = .NONE ∧
      (w.inst.isSome = true ∨ creates env w.common = true ∧ ¬ Starts env s w) → ∀ t, ¬ Waits w t
  | .timer _ s events =>
    (w.states s).timer_stream = true ∧ .fired ∈ events ∧ Waits w s ∧ w.inst.isSome = true →
      ∀ t, t ≠ s → ¬ Waits w t

/-- What holds at the end of every call, whether or not it was admitted. -/
structure Steady (w : World σ) : Prop where
  pending : ∀ s, (w.states s).pwrail_pending_state = .NONE ∨ Waits w s
  waiting : ∀ s, (watch w).waiting s = true ↔ Waits w s
  rail : w.inst.isSome = true → w.common.rail_cfg.rail_vote ≠ .SNS_RAIL_OFF
  deferred : ∀ s, (watch w).deferred s = true → Waits w s ∧ w.inst.isSome = true

theorem any_waiting {w : World σ} (h : Steady w) :
    SensorIdx.all.any (watch w).waiting = false ↔ ∀ t, ¬ Waits w t := by
  rw [List.any_eq_false]
  constructor
  · intro ha t ht
    exact ha t t.mem_all ((h.waiting t).mpr ht)
  · intro ha t _ ht
    exact ha t ((h.waiting t).mp ht)

theorem noted_watch {notes : List Note} {w v : World σ} (h : Noted notes w v) :
    watch v = notes.foldl readWatch (watch w) := h.monitor _ _

theorem steady_of {w v : World σ} (hw : Steady w) (hwait : (watch v).waiting = (watch w).waiting)
    (hpend : ∀ t, (v.states t).pwrail_pending_state = (w.states t).pwrail_pending_state)
    (hrail : v.common.rail_cfg.rail_vote = w.common.rail_cfg.rail_vote)
    (hinst : v.inst.isSome = w.inst.isSome)
    (hdef : ∀ t, (watch v).deferred t = true → Waits w t ∧ w.inst.isSome = true) : Steady v := by
  have hwaits : ∀ t, Waits v t ↔ Waits w t := fun t => by rw [Waits, Waits, hpend]
  constructor
  · intro t
    rw [hwaits, hpend]
    exact hw.pending t
  · intro t
    rw [hwaits, hwait]
    exact hw.waiting t
  · rw [hinst, hrail]
    exact hw.rail
  · intro t ht
    rw [hwaits, hinst]
    exact hdef t ht

/-- Notes that start and end no waiting keep the invariant. -/
theorem noted_steady {notes : List Note} {w v : World σ} (h : Noted notes w v) (hw : Steady w)
    (hwait : (notes.foldl readWatch (watch w)).waiting = (watch w).waiting)
    (hdef : ∀ t, (notes.foldl readWatch (watch w)).deferred t = true →
      Waits w t ∧ w.inst.isSome = true) : Steady v := by
  have hv := noted_watch h
  exact steady_of hw (by rw [hv, hwait]) h.pending h.rail h.inst (fun t ht => hdef t (by rwa [hv] at ht))

theorem noted_reval {s : SensorIdx} {w v : World σ} (h : Noted [.reval s] w v) (hw : Steady w) :
    Steady v ∧ ((watch v).early = false ↔ (watch w).early = false ∧ ∀ t, ¬ Waits w t) := by
  constructor
  · apply noted_steady h hw rfl
    intro t ht
    by_cases hts : t = s
    · simp [readWatch, mark, hts] at ht
    · exact hw.deferred t (by simpa [readWatch, mark, hts] using ht)
  · rw [noted_watch h, ← any_waiting hw]
    simp only [List.foldl_cons, List.foldl_nil, readWatch, Bool.or_eq_false_iff]

theorem noted_reject {s : SensorIdx} {b : Bool} {w v : World σ}
    (h : Noted [.reject_config s b] w v) (hw : Steady w)
    (hb : b = true → Waits w s ∧ w.inst.isSome = true) :
    Steady v ∧ (watch v).early = (watch w).early := by
  cases b with
  | false => exact ⟨noted_steady h hw rfl hw.deferred,by rw [noted_watch h]; rfl⟩
  | true =>
    refine ⟨noted_steady h hw rfl ?_,by rw [noted_watch h]; rfl⟩
    intro t ht
    by_cases hts : t = s
    · rw [hts]
      exact hb rfl
    · exact hw.deferred t (by simpa [readWatch, mark, hts] using ht)

theorem noted_silent {w v : World σ} (h : Noted [] w v) (hw : Steady w) :
    Steady v ∧ (watch v).early = (watch w).early :=
  ⟨noted_steady h hw rfl hw.deferred,by rw [noted_watch h]; rfl⟩

section Request
variable (env : Env) (s : SensorIdx)

/-- A request on an instance comes too early exactly when it is a configuration
that is applied at once while another sensor waits. -/
theorem verdict_early {r : Request} {u v : World σ} (h : Noted (verdict s r u) u v)
    (hu : Steady u) (hi : u.inst.isSome = true) :
    Steady v ∧ ((watch v).early = false ↔ (watch u).early = false ∧
      (r.message_id = .SENSOR_CONFIG ∧ (u.states s).pwrail_pending_state = .NONE →
        ∀ t, ¬ Waits u t)) := by
  have hsame : Steady v ∧ (watch v).early = (watch u).early → r.message_id ≠ .SENSOR_CONFIG ∨
      (u.states s).pwrail_pending_state ≠ .NONE → Steady v ∧ ((watch v).early = false ↔
        (watch u).early = false ∧ (r.message_id = .SENSOR_CONFIG ∧
          (u.states s).pwrail_pending_state = .NONE → ∀ t, ¬ Waits u t)) := by
    rintro ⟨hs,he⟩ hno
    constructor
    · exact hs
    · rw [he, iff_self_and]
      intro _ hc
      rcases hno with hno | hno
      · exact absurd hc.1 hno
      · exact absurd hc.2 hno
  cases hm : r.message_id with
  | SENSOR_CONFIG =>
    rw [hm] at hsame
    simp only [verdict, hm] at h
    by_cases hp : (u.states s).pwrail_pending_state = .NONE
    · rw [if_pos (by simp [hu.rail hi, hp])] at h
      have hr := noted_reval h hu
      exact ⟨hr.1,by simpa [hp] using hr.2⟩
    · rw [if_neg (by simp [hp])] at h
      exact hsame (noted_reject h hu fun _ => ⟨(hu.pending s).resolve_left hp,hi⟩) (.inr hp)
  | FLUSH_REQ =>
    rw [hm] at hsame
    simp only [verdict, hm] at h
    exact hsame (noted_silent h hu) (.inl (by decide))
  | CAL_RESET =>
    rw [hm] at hsame
    simp only [verdict, hm] at h
    exact hsame (noted_silent h hu) (.inl (by decide))
  | PHYSICAL_SENSOR_TEST_CONFIG =>
    rw [hm] at hsame
    simp only [verdict, hm] at h
    rw [if_neg (by simp)] at h
    exact hsame (noted_reject h hu (by simp)) (.inl (by decide))
  | other id =>
    rw [hm] at hsame
    simp only [verdict, hm] at h
    rw [if_neg (by simp)] at h
    exact hsame (noted_reject h hu (by simp)) (.inl (by simp))

theorem vote_watch (v : RailState) (w : World σ) :
    watch (demo_sensor_update_power_rail_vote v w) = watch w := by
  apply (monitor_note readWatch _ (.vote v) w).trans
  rfl

/-- A timer that goes out makes its sensor wait. -/
theorem powered_starts (w : World σ) (h : Starts env s w) :
    watch (powered env s w) = { watch w with waiting := mark s true (watch w).waiting } ∧
      ∀ t, ((powered env s w).states t).pwrail_pending_state =
        if t = s then .SET_CLIENT_REQ else (w.states t).pwrail_pending_state := by
  let v := demo_sensor_update_power_rail_vote (onState s) w
  have hv : watch v = watch w := vote_watch (onState s) w
  have hsends : sends env (v.states s) = true := h.2
  rw [powered, if_pos h.1]
  constructor
  · rw [watch, start_monitor _ _ _ _ _ _ _ (fun _ _ => rfl), if_pos hsends]
    show readWatch (watch v) _ = _
    rw [hv]
    rfl
  · intro t
    rw [start_states, if_pos hsends]
    split_ifs <;> rfl

theorem remove_watch (w : World σ) : watch (w.removeTimerStream s) = watch w ∧
    ∀ t, ((w.removeTimerStream s).states t).pwrail_pending_state =
      (w.states t).pwrail_pending_state := by
  rw [World.removeTimerStream]
  split_ifs
  · constructor
    · exact monitor_note readWatch _ (.remove_timer_stream s) w
    · intro t
      by_cases ht : t = s
      · subst ht
        simp [World.setState]
      · simp [World.setState, World.note, ht]
  · exact ⟨rfl,fun _ => rfl⟩

theorem powered_else (w : World σ) (h : ¬ Starts env s w) :
    watch (powered env s w) = watch w ∧
      ∀ t, ((powered env s w).states t).pwrail_pending_state =
        (w.states t).pwrail_pending_state := by
  let v := demo_sensor_update_power_rail_vote (onState s) w
  have hv : watch v = watch w := vote_watch (onState s) w
  rw [powered]
  by_cases hs : Settling env
  · have hsends : ¬ sends env (v.states s) = true := fun hc => h ⟨hs,hc⟩
    rw [if_pos hs]
    constructor
    · rw [watch, start_monitor _ _ _ _ _ _ _ (fun _ _ => rfl), if_neg hsends]
      exact hv
    · intro t
      rw [start_states, if_neg hsends]
      split_ifs with ht
      · rw [ht]
        rfl
      · rfl
  · rw [if_neg hs]
    obtain ⟨hr,hp⟩ := remove_watch s v
    exact ⟨hr.trans hv,hp⟩

variable [RequestStore σ]

/-- Creating an instance starts at most a new waiting. -/
theorem new_instance_steady (w : World σ) (hw : Steady w) (hi : w.inst.isSome = false) :
    Steady (demo_new_instance env s w) ∧
      (watch (demo_new_instance env s w)).early = (watch w).early := by
  have hwatch : watch (demo_new_instance env s w) = watch (powered env s w) :=
    new_instance_monitor readWatch _ env s w
  have hst := new_instance_states env s w
  have hdef : ∀ t, (watch w).deferred t ≠ true := by
    intro t ht
    exact Bool.false_ne_true (hi.symm.trans (hw.deferred t ht).2)
  by_cases h : Starts env s w
  · obtain ⟨hk,hp⟩ := powered_starts env s w h
    refine ⟨⟨?_,?_,fun _ => new_instance_vote env s w,?_⟩,by rw [hwatch, hk]⟩
    · intro t
      rw [Waits, hst, hp]
      split_ifs
      · exact .inr rfl
      · exact hw.pending t
    · intro t
      rw [Waits, hst, hp, hwatch, hk]
      by_cases ht : t = s
      · simp [mark, ht]
      · simp only [mark, if_neg ht]
        exact hw.waiting t
    · intro t ht
      rw [hwatch, hk] at ht
      exact absurd ht (hdef t)
  · obtain ⟨hk,hp⟩ := powered_else env s w h
    refine ⟨⟨?_,?_,fun _ => new_instance_vote env s w,?_⟩,by rw [hwatch, hk]⟩
    · intro t
      rw [Waits, hst, hp]
      exact hw.pending t
    · intro t
      rw [Waits, hst, hp, hwatch, hk]
      exact hw.waiting t
    · intro t ht
      rw [hwatch, hk] at ht
      exact absurd ht (hdef t)

theorem new_instance_waits (w : World σ) (t : SensorIdx) :
    Waits (demo_new_instance env s w) t ↔ Waits w t ∨ t = s ∧ Starts env s w := by
  rw [Waits, new_instance_states]
  by_cases h : Starts env s w
  · rw [(powered_starts env s w h).2]
    by_cases ht : t = s
    · simp [ht, h]
    · simp [ht, Waits]
  · rw [(powered_else env s w h).2]
    simp [h, Waits]

/-- A request that asks for an instance applies its configuration at once
where the instance is made and no timer was started for it. -/
theorem add_early (exist_request new_request : Option Request) (w : World σ) (hw : Steady w) :
    let v := (demo_set_client_request env s exist_request new_request false w).2
    Steady v ∧ ((watch v).early = false ↔
      (watch w).early = false ∧ Admitted w (.request env s exist_request new_request false)) := by
  have hn := add_noted env s exist_request new_request w
  simp only [Admitted]
  -- a call that configures nothing is never early
  have hsilent : ∀ (u v : World σ), Noted [] u v → Steady u → (watch u).early = (watch w).early →
      ∀ p : Prop, p → (Steady v ∧ ((watch v).early = false ↔ (watch w).early = false ∧ p)) := by
    intro u v huv hu he p hp
    obtain ⟨hs,hv⟩ := noted_silent huv hu
    exact ⟨hs,by rw [hv, he]; exact ⟨fun h => ⟨h,hp⟩,fun h => h.1⟩⟩
  cases new_request with
  | none =>
    have hp : prepared env s none w = w := by simp [prepared, creating]
    rw [hp] at hn
    exact hsilent w _ hn hw rfl _ (by simp)
  | some r =>
    simp only [Option.some.injEq, exists_eq_left']
    by_cases hc : creating (some r) w = true
    · have hi : w.inst.isSome = false := by
        cases hwi : w.inst with
        | none => rfl
        | some i => simp [creating, hwi] at hc
      obtain ⟨hu,he⟩ := new_instance_steady env s w hw hi
      have hinst := new_instance_inst env s w
      rw [hi, Bool.or_false] at hinst
      simp only [prepared, if_pos hc, hinst] at hn
      by_cases hcr : creates env w.common = true
      · rw [if_pos hcr] at hn
        obtain ⟨hs,hv⟩ := verdict_early s hn hu (hinst.trans hcr)
        constructor
        · exact hs
        · rw [hv, he]
          by_cases hst : Starts env s w
          · have hp : ((demo_new_instance env s w).states s).pwrail_pending_state ≠ .NONE := by
              have hwaits := (new_instance_waits env s w s).mpr (.inr ⟨rfl,hst⟩)
              rw [hwaits]
              decide
            simp [hp, hst, hi]
          · have hp := (powered_else env s w hst).2 s
            rw [← new_instance_states] at hp
            have hwaits : ∀ t, Waits (demo_new_instance env s w) t ↔ Waits w t := fun t =>
              (new_instance_waits env s w t).trans (by simp [hst])
            simp only [hp, hwaits, hst, hcr, not_false_iff, and_self, or_true, and_true]
      · rw [if_neg hcr] at hn
        exact hsilent _ _ hn hu he _ (by simp [hi, hcr])
    · simp only [prepared, if_neg hc] at hn
      by_cases hi : w.inst.isSome = true
      · rw [if_pos hi] at hn
        simpa [hi] using verdict_early s hn hw hi
      · rw [if_neg hi] at hn
        have hflush : r.message_id ≠ .SENSOR_CONFIG := by
          intro hm
          simp [creating, hm] at hc
          exact hi (Option.isSome_iff_ne_none.mpr hc)
        exact hsilent w _ hn hw rfl _ (fun h => absurd h.1 hflush)

theorem remove_early (exist_request new_request : Option Request) (w : World σ) (hw : Steady w) :
    let v := (demo_set_client_request env s exist_request new_request true w).2
    Steady v ∧ ((watch v).early = false ↔
      (watch w).early = false ∧ Admitted w (.request env s exist_request new_request true)) := by
  have hn := remove_noted env s exist_request w
  have hv : (demo_set_client_request env s exist_request new_request true w).2 =
    (remove_request env s exist_request w).2 := rfl
  simp only [hv, Admitted]
  by_cases hc : w.inst.isSome = true ∧ exist_request.isSome = true
  · rw [if_pos (by simp [hc])] at hn
    simpa [hc] using noted_reval hn hw
  · rw [if_neg (by simpa using hc)] at hn
    obtain ⟨hs,he⟩ := noted_silent hn hw
    exact ⟨hs,by rw [he, iff_self_and]; exact fun _ h => absurd h hc⟩

end Request

section Timer
variable (env : Env) (s : SensorIdx)

/-- The condition under which a timer event does not come too early. -/
def Alone (w : World σ) : Prop :=
  Waits w s ∧ w.inst.isSome = true → ∀ t, t ≠ s → ¬ Waits w t

theorem handled_watch (w : World σ) : watch (w.note (.timer_handled s)) =
    { watch w with waiting := mark s false (watch w).waiting } := monitor_note readWatch _ _ w

/-- The world after the handler, from what it left of the watch. -/
theorem closed_steady {w v : World σ} (hw : Steady w)
    (hwait : (watch v).waiting = mark s false (watch w).waiting)
    (hown : (v.states s).pwrail_pending_state = .NONE)
    (hpend : ∀ t, t ≠ s → (v.states t).pwrail_pending_state = (w.states t).pwrail_pending_state)
    (hrail : v.common.rail_cfg.rail_vote = w.common.rail_cfg.rail_vote)
    (hinst : v.inst.isSome = w.inst.isSome)
    (hdef : ∀ t, (watch v).deferred t = true → (watch w).deferred t = true ∧ t ≠ s) :
    Steady v := by
  have hwaits : ∀ t, Waits v t ↔ t ≠ s ∧ Waits w t := by
    intro t
    by_cases ht : t = s
    · simp [ht, Waits, hown]
    · simp [ht, hpend t ht, Waits]
  constructor
  · intro t
    rw [hwaits]
    by_cases ht : t = s
    · exact .inl (ht ▸ hown)
    · rw [hpend t ht]
      exact (hw.pending t).imp id (fun h => ⟨ht,h⟩)
  · intro t
    rw [hwait, hwaits, mark]
    by_cases ht : t = s
    · simp [ht]
    · simp [ht, hw.waiting t]
  · rw [hinst, hrail]
    exact hw.rail
  · intro t ht
    obtain ⟨hd,hts⟩ := hdef t ht
    obtain ⟨hwt,hi⟩ := hw.deferred t hd
    exact ⟨(hwaits t).mpr ⟨hts,hwt⟩,hinst.trans hi⟩

theorem any_others {w : World σ} (hw : Steady w) :
    SensorIdx.all.any (mark s false (watch w).waiting) = false ↔ ∀ t, t ≠ s → ¬ Waits w t := by
  rw [List.any_eq_false]
  constructor
  · intro ha t ht hwt
    exact ha t t.mem_all (by simpa [mark, ht] using (hw.waiting t).mpr hwt)
  · intro ha t _ ht
    by_cases hts : t = s
    · simp [mark, hts] at ht
    · exact ha t hts ((hw.waiting t).mp (by simpa [mark, hts] using ht))

/-- Cleaning up after the timer changes neither the watch nor the invariant. -/
theorem remove_steady (w : World σ) (hw : Steady w) : Steady (w.removeTimerStream s) ∧
    (watch (w.removeTimerStream s)).early = (watch w).early := by
  obtain ⟨hr,hp⟩ := remove_watch s w
  obtain ⟨hi,hc,-⟩ := w.removeTimerStream_rest s
  constructor
  · exact steady_of hw (by rw [hr]) hp (by rw [hc]) (by rw [hi])
      (fun t ht => hw.deferred t (by rwa [hr] at ht))
  · rw [hr]

variable [RequestStore σ]

/-- With an instance, handling the timer configures its own sensor. -/
theorem handle_config (w : World σ) (i : Instance σ) (hw : Steady w) (hp : Waits w s)
    (hi : w.inst = some i) :
    Steady (handle_timer env s w).1 ∧
      ((watch (handle_timer env s w).1).early = false ↔ (watch w).early = false ∧ Alone s w) := by
  let v := demo_reval_instance_config env s i (w.note (.timer_handled s))
  have hn : Noted [.reval s] (w.note (.timer_handled s)) v :=
    reval_noted env s i _ (by rw [World.note, hi]; rfl)
  have hv : watch v = readWatch (watch (w.note (.timer_handled s))) (.reval s) := noted_watch hn
  rw [handled_watch] at hv
  have hhandle : (handle_timer env s w).1 = v.setPending s .NONE :=
    congrArg Prod.fst (handle_timer_config env s w hp i hi)
  have hset : watch (v.setPending s .NONE) = watch v := rfl
  have hown := v.setPending_pending s .NONE
  rw [hhandle]
  refine ⟨closed_steady s hw ?_ ?_ ?_ hn.rail hn.inst ?_,?_⟩
  · rw [hset, hv]
    rfl
  · rw [hown, if_pos rfl]
  · intro t ht
    rw [hown, if_neg ht, hn.pending]
    rfl
  · intro t ht
    rw [hset, hv] at ht
    by_cases hts : t = s
    · simp [readWatch, mark, hts] at ht
    · exact ⟨by simpa [readWatch, mark, hts] using ht,hts⟩
  · have hinst : w.inst.isSome = true := by simp [hi]
    rw [hset, hv]
    simp only [readWatch, Bool.or_eq_false_iff, any_others s hw, Alone, hp, hinst, true_and,
      true_imp_iff]

/-- Without one, handling the timer starts another, which is not waited for. -/
theorem handle_without (w : World σ) (hw : Steady w) (hp : Waits w s) (hi : w.inst = none) :
    Steady (handle_timer env s w).1 ∧
      ((watch (handle_timer env s w).1).early = false ↔ (watch w).early = false ∧ Alone s w) := by
  let u := w.note (.timer_handled s)
  let timeout := env.convert_ns_to_ticks 1000000000
  let v := demo_sensor_start_power_rail_timer env s timeout .DEINIT u
  have hv : watch v = watch u := by
    apply (start_monitor readWatch _ env s timeout .DEINIT u (fun _ _ => rfl)).trans
    split_ifs <;> rfl
  have hhandle : (handle_timer env s w).1 = v.setPending s .NONE :=
    congrArg Prod.fst (handle_timer_without env s w hp hi)
  have hset : watch (v.setPending s .NONE) = watch v := rfl
  have hown := v.setPending_pending s .NONE
  obtain ⟨hvi,hvc,-⟩ := start_rest env s timeout .DEINIT u
  have hu : watch u = { watch w with waiting := mark s false (watch w).waiting } :=
    handled_watch s w
  rw [hhandle]
  refine ⟨closed_steady s hw ?_ ?_ ?_ ?_ ?_ ?_,?_⟩
  · rw [hset, hv, hu]
  · rw [hown, if_pos rfl]
  · intro t ht
    rw [hown, if_neg ht, start_states, if_neg ht]
    rfl
  · show v.common.rail_cfg.rail_vote = w.common.rail_cfg.rail_vote
    rw [hvc]
    rfl
  · exact congrArg Option.isSome hvi
  · intro t ht
    rw [hset, hv, hu] at ht
    have hsome := (hw.deferred t ht).2
    simp [hi] at hsome
  · have hinst : w.inst.isSome = false := by simp [hi]
    rw [hset, hv, hu]
    simp [Alone, hinst]

omit [RequestStore σ] in
/-- A timer that is not waited for is noted. -/
theorem idle_early (w : World σ) (hw : Steady w)
    (hp : (w.states s).pwrail_pending_state = .NONE) : Steady (w.note (.timer_handled s)) ∧
      (watch (w.note (.timer_handled s))).early = (watch w).early := by
  refine ⟨closed_steady s hw ?_ hp (fun _ _ => rfl) rfl rfl ?_,?_⟩
  · rw [handled_watch]
  · intro t ht
    rw [handled_watch] at ht
    have hwaits := (hw.deferred t ht).1
    have hts : t ≠ s := by
      rintro rfl
      rw [Waits, hp] at hwaits
      cases hwaits
    exact ⟨ht,hts⟩
  · rw [handled_watch]

theorem handle_early (w : World σ) (hw : Steady w) :
    Steady (handle_timer env s w).1 ∧
      ((watch (handle_timer env s w).1).early = false ↔ (watch w).early = false ∧ Alone s w) := by
  rcases hw.pending s with hp | hp
  · have hno : ¬ Waits w s := by
      rw [Waits, hp]
      decide
    obtain ⟨hs,he⟩ := idle_early s w hw hp
    rw [handle_timer_none env s w hp, he]
    exact ⟨hs,by simp [Alone, hno]⟩
  · cases hi : w.inst with
    | none => exact handle_without env s w hw hp hi
    | some i => exact handle_config env s w i hw hp hi

theorem events_early (events : List TimerEvent) (w : World σ × Bool) (hw : Steady w.1) :
    Steady (events.foldl (timer_input env s) w).1 ∧
      ((watch (events.foldl (timer_input env s) w).1).early = false ↔
        (watch w.1).early = false ∧ (.fired ∈ events → Alone s w.1)) := by
  apply batch_handled env s (P := fun v => Steady v ∧ ((watch v).early = false ↔
    (watch w.1).early = false ∧ (.fired ∈ events → Alone s w.1))) _ events w
  · intro hfired
    simpa [hfired] using handle_early env s w.1 hw
  · intro hnone
    exact ⟨hw,by simp [hnone]⟩
  · rintro v hp ⟨hs,he⟩
    obtain ⟨hs',he'⟩ := idle_early s v hs hp
    rw [he']
    exact ⟨hs',he⟩

theorem timer_early (events : List TimerEvent) (w : World σ) (hw : Steady w) :
    let v := (demo_sensor_process_timer_event env s events w).1
    Steady v ∧ ((watch v).early = false ↔
      (watch w).early = false ∧ Admitted w (.timer env s events)) := by
  simp only [Admitted]
  rcases timer_event_cases env s w events with ⟨hrun,hno⟩ | ⟨hstream,hrun⟩
  · rw [hrun]
    constructor
    · exact hw
    · rw [iff_self_and]
      exact fun _ hc => absurd ⟨hc.1,hc.2.1⟩ hno
  · obtain ⟨hs,he⟩ := events_early env s events (w,true) hw
    have hcond : (.fired ∈ events → Alone s w) ↔ ((w.states s).timer_stream = true ∧
        .fired ∈ events ∧ Waits w s ∧ w.inst.isSome = true → ∀ t, t ≠ s → ¬ Waits w t) := by
      simp only [hstream, true_and, Alone, and_imp]
    rw [hrun, ← hcond]
    simp only
    split_ifs
    · obtain ⟨hr,hre⟩ := remove_steady s _ hs
      exact ⟨hr,by rw [hre]; exact he⟩
    · exact ⟨hs,he⟩

end Timer

theorem settled_iff {w : World σ} (hw : Steady w) : Settled w ↔ (watch w).early = false :=
  ⟨fun h => h.early,fun h => ⟨h,fun s hs => (hw.waiting s).mpr (hw.deferred s hs).1⟩⟩

theorem boot_steady (hw_idx : Fin 2) (scale_factor : SensorIdx → ℚ) :
    Steady (boot σ hw_idx scale_factor) ∧ Settled (boot σ hw_idx scale_factor) := by
  have hno : ∀ t, ¬ Waits (boot σ hw_idx scale_factor) t := fun t h => by cases h
  have hf : ∀ t, (watch (boot σ hw_idx scale_factor)).waiting t ≠ true := fun t h => by cases h
  constructor
  · constructor
    · exact fun _ => .inl rfl
    · exact fun t => ⟨fun h => (hf t h).elim,fun h => (hno t h).elim⟩
    · intro h
      cases h
    · intro t h
      cases h
  · constructor
    · rfl
    · intro t h
      cases h

section Run
variable [RequestStore σ]

theorem step_early (w : World σ) (c : Call) (hw : Steady w) :
    Steady (step w c) ∧
      ((watch (step w c)).early = false ↔ (watch w).early = false ∧ Admitted w c) := by
  cases c with
  | request env s exist_request new_request remove =>
    cases remove with
    | true => exact remove_early env s exist_request new_request w hw
    | false => exact add_early env s exist_request new_request w hw
  | timer env s events => exact timer_early env s events w hw

theorem step_settled (w : World σ) (c : Call) (hw : Steady w) (h : Settled w) :
    Settled (step w c) ↔ Admitted w c := by
  obtain ⟨hs,he⟩ := step_early w c hw
  rw [settled_iff hs, he]
  exact and_iff_right h.early

/-- No configuration is applied while a sensor waits for the rail, and what was
deferred is applied when its timer is handled, exactly when every call that
configures the instance finds the other sensors done waiting. -/
theorem configured_after_settling (w : World σ) (cs : List Call) (hw : Steady w)
    (h : Settled w) : Always step Settled w cs ↔ Along step Admitted w cs :=
  always_iff_along Steady Settled (fun v c hv => (step_early v c hv).1) step_settled w cs hw h

/-- The first configuration makes its sensor wait, and no other one. -/
theorem first_request (env : Env) (s : SensorIdx) (r : Request) (w : World σ)
    (hi : w.inst = none) (hr : r.message_id = .SENSOR_CONFIG) (hs : Starts env s w)
    (hc : creates env w.common = true) :
    let v := step w (.request env s none (some r) false)
    v.inst.isSome = true ∧ Waits v s ∧ ∀ t, t ≠ s →
      (v.states t).pwrail_pending_state = (w.states t).pwrail_pending_state := by
  have hn := add_noted env s none (some r) w
  have hcreating : creating (some r) w = true := by simp [creating, hi, hr]
  have hp := (powered_starts env s w hs).2
  rw [prepared, if_pos hcreating] at hn
  refine ⟨hn.inst.trans (by rw [new_instance_inst, hc]; rfl),?_,?_⟩
  · apply (hn.pending s).trans
    rw [new_instance_states, hp, if_pos rfl]
  · intro t ht
    apply (hn.pending t).trans
    rw [new_instance_states, hp, if_neg ht]

end Run

def exampleConfig (s : SensorIdx) : Request := ⟨s.num,suids s chip0,.SENSOR_CONFIG,⟨true,none,some 100⟩⟩

def exampleCall (s : SensorIdx) : Call :=
  .request (workingEnv 0 0) s none (some (exampleConfig s)) false

theorem configured_after_settling_first :
    Always step Settled boot0 [exampleCall .ACC] :=
  (configured_after_settling boot0 [exampleCall .ACC]
    (boot_steady chip0 _).1 (boot_steady chip0 _).2).mpr ⟨fun _ t h => (by cases h),trivial⟩

/-- The accelerometer waits, and the temperature sensor is configured. -/
theorem configured_while_waiting :
    ¬ Always step Settled boot0
      [exampleCall .ACC,exampleCall .TEMP] := by
  intro h
  have hsettling : Settling (workingEnv 0 0) := by
    show (0 : UInt64)-0 < UInt64.ofNat (⌊(100000000 : ℚ)⌋.toNat/52)
    simp
  obtain ⟨hi,hacc,hothers⟩ := first_request (workingEnv 0 0) .ACC (exampleConfig .ACC)
    boot0 rfl rfl ⟨hsettling,rfl⟩ rfl
  have hsteady := (step_early boot0 (exampleCall .ACC)
    (boot_steady chip0 _).1).1
  have hadm := (step_settled _ (exampleCall .TEMP) hsteady (h 1 (by decide))).mp
    (h 2 (Nat.le_refl _))
  exact hadm ⟨⟨_,rfl,rfl⟩,hothers .TEMP (by decide),.inl hi⟩ .ACC hacc

end BaseDrivers.RailSettling
