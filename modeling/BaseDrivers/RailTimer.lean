import BaseDrivers.Execution
import BaseDrivers.SensorMonitor

/-!
# The pending power-rail action

Every timer request writes a ticket for its sensor. The ticket ends when the
timer is handled or its stream goes away, and the pending state should say
what the ticket says. Two paths break this: a timer started from inside the
handler of another one is taken back, and creating an instance removes the
stream of a timer that is still awaited.
-/

set_option autoImplicit false

namespace BaseDrivers.RailTimer
open BaseDrivers.Execution BaseDrivers.DemoCommon BaseDrivers.DemoInstance BaseDrivers.DemoSensor
open BaseDrivers.SensorMonitor

variable {σ : Type}

/-- The action requested last, whether its timer is outstanding, and whether
a rail that should have gone off is still on. -/
structure Ticket where
  last : Pending
  live : Bool
  unanswered : Bool

def readTicket (s : SensorIdx) (k : Ticket) : Note → Ticket
  | .rail_timer t _ action => if t = s then { k with last := action, live := true } else k
  | .timer_handled t => if t = s then ⟨.NONE,false,k.unanswered || k.last == .DEINIT⟩ else k
  | .remove_timer_stream t => if t = s then { k with live := false } else k
  | .vote .SNS_RAIL_OFF => { k with unanswered := false }
  | _ => k

/-- What matters of one sensor. -/
structure View where
  ticket : Ticket
  stream : Bool
  pending : Pending

def view (s : SensorIdx) (w : World σ) : View :=
  ⟨monitor (readTicket s) ⟨.NONE,false,false⟩ w,(w.states s).timer_stream,
    (w.states s).pwrail_pending_state⟩

structure Kept (v : View) : Prop where
  outstanding : v.ticket.live = true ∧ v.stream = true ↔ v.pending ≠ .NONE
  last : v.ticket.last = v.pending
  answered : v.ticket.unanswered = false

def AllKept (w : World σ) : Prop := ∀ s, Kept (view s w)

/-- Surroundings in which timer requests go out. -/
structure Working (env : Env) : Prop where
  encode : env.encode_ok = true
  send : env.send_ok = true
  stream : env.sensor_stream_ok = true

/-- The calls of a run. -/
inductive Call where
  | detect (env : Env) (working : Working env) (s : SensorIdx)
  | request (env : Env) (working : Working env) (s : SensorIdx)
      (exist_request new_request : Option Request) (remove : Bool)
  | timer (env : Env) (working : Working env) (s : SensorIdx) (events : List TimerEvent)

def step [RequestStore σ] (w : World σ) : Call → World σ
  | .detect env _ s => demo_start_hw_detect env s w
  | .request env _ s exist_request new_request remove =>
    (demo_set_client_request env s exist_request new_request remove w).2
  | .timer env _ s events => (demo_sensor_process_timer_event env s events w).1

/-- No timer that should configure an instance fires without one, and no
instance is made on a settled rail while the sensor's own timer is pending. -/
def Admitted (w : World σ) : Call → Prop
  | .detect _ _ _ => True
  | .request env _ s _ new_request remove =>
    remove = false ∧ creating new_request w = true ∧ ¬ Settling env →
      (w.states s).pwrail_pending_state = .NONE
  | .timer _ _ s events =>
    (w.states s).timer_stream = true ∧ .fired ∈ events ∧
      (w.states s).pwrail_pending_state = .SET_CLIENT_REQ → w.inst.isSome = true

/-- Where no rail is owed, the views do not change. -/
def Calm (w v : World σ) : Prop :=
  ∀ t, (view t w).ticket.unanswered = false → view t v = view t w

theorem Calm.refl (w : World σ) : Calm w w := fun _ _ => rfl

theorem Calm.trans {u v w : World σ} (huv : Calm u v) (hvw : Calm v w) : Calm u w := by
  intro t ht
  have huv := huv t ht
  rw [← huv] at ht ⊢
  exact hvw t ht

theorem Calm.kept {w v : World σ} (h : Calm w v) (hw : AllKept w) : AllKept v := by
  intro t
  rw [h t (hw t).answered]
  exact hw t

/-- Notes the tickets do not depend on. -/
def Quiet : Note → Prop
  | .rail_timer _ _ _ => False
  | .timer_handled _ => False
  | .remove_timer_stream _ => False
  | _ => True

theorem quiet_read {n : Note} (hn : Quiet n) (t : SensorIdx) (k : Ticket)
    (hk : k.unanswered = false) : readTicket t k n = k := by
  cases n with
  | vote v =>
    cases v with
    | SNS_RAIL_OFF =>
      rw [readTicket, ← hk]
    | SNS_RAIL_ON_LPM => rfl
    | SNS_RAIL_ON_NPM => rfl
  | rail_timer => exact hn.elim
  | timer_handled => exact hn.elim
  | remove_timer_stream => exact hn.elim
  | _ => rfl

theorem note_view (n : Note) (w : World σ) (t : SensorIdx) :
    view t (w.note n) = { view t w with ticket := readTicket t (view t w).ticket n } := by
  rw [view, monitor_note]
  rfl

theorem note_calm {n : Note} (hn : Quiet n) (w : World σ) : Calm w (w.note n) := by
  intro t ht
  rw [note_view, quiet_read hn t _ ht]

theorem setState_view (s : SensorIdx) (d : DemoState) (w : World σ) (t : SensorIdx) :
    view t (w.setState s d) =
      if t = s then ⟨(view s w).ticket,d.timer_stream,d.pwrail_pending_state⟩ else view t w := by
  by_cases ht : t = s
  · subst ht
    simp [view, World.setState]
    rfl
  · simp [view, World.setState, ht]
    rfl

theorem setState_calm (s : SensorIdx) (d : DemoState) (w : World σ)
    (hs : d.timer_stream = (w.states s).timer_stream)
    (hp : d.pwrail_pending_state = (w.states s).pwrail_pending_state) :
    Calm w (w.setState s d) := by
  intro t _
  rw [setState_view, hs, hp]
  split_ifs with ht
  · rw [ht]
    rfl
  · rfl

theorem start_view (env : Env) (hw : Working env) (s : SensorIdx) (timeout : UInt64)
    (action : Pending) (w : World σ) (t : SensorIdx) :
    view t (demo_sensor_start_power_rail_timer env s timeout action w) =
      if t = s then ⟨⟨action,true,(view s w).ticket.unanswered⟩,true,action⟩ else view t w := by
  have hsends : sends env (w.states s) = true := by
    simp [sends, hw.encode, hw.send, hw.stream]
  rw [view, start_monitor _ _ _ _ _ _ _ (fun _ _ => rfl), start_states, if_pos hsends, hsends]
  by_cases ht : t = s
  · subst ht
    simp [readTicket, hw.stream, view]
  · have hs : ¬ s = t := fun h => ht h.symm
    simp [readTicket, ht, hs, view]

theorem start_kept (env : Env) (hw : Working env) (s : SensorIdx) (timeout : UInt64)
    (action : Pending) (ha : action ≠ .NONE) (w : World σ) (h : AllKept w) :
    AllKept (demo_sensor_start_power_rail_timer env s timeout action w) := by
  intro t
  rw [start_view env hw]
  split_ifs
  · exact ⟨by simp [ha],rfl,(h s).answered⟩
  · exact h t

theorem remove_view (s : SensorIdx) (w : World σ) (t : SensorIdx) :
    view t (w.removeTimerStream s) =
      if t = s ∧ (view s w).stream = true then
        { view s w with ticket.live := false, stream := false }
      else view t w := by
  have hst : (view s w).stream = (w.states s).timer_stream := rfl
  rw [World.removeTimerStream, hst]
  by_cases hs : (w.states s).timer_stream = true
  · rw [if_pos hs, setState_view]
    by_cases ht : t = s
    · subst ht
      simp [hs, note_view, readTicket]
      rfl
    · have hts : ¬ s = t := fun h => ht h.symm
      simp [ht, hts, note_view, readTicket]
  · rw [if_neg hs, if_neg (fun h => hs h.2)]

/-- Taking the stream away is harmless exactly when nothing is pending. -/
theorem remove_kept (s : SensorIdx) (w : World σ) (h : AllKept w) :
    AllKept (w.removeTimerStream s) ↔ (view s w).pending = .NONE := by
  constructor
  · intro hr
    have hs := (hr s).outstanding
    rw [remove_view] at hs
    by_contra hp
    have hlive := (h s).outstanding.mpr hp
    rw [if_pos ⟨rfl,hlive.2⟩] at hs
    exact Bool.false_ne_true (hs.mpr hp).1
  · intro hp t
    rw [remove_view]
    split_ifs with ht
    · exact ⟨by simp [hp],(h s).last,(h s).answered⟩
    · exact h t

theorem vote_calm (v : RailState) (w : World σ) :
    Calm w (demo_sensor_update_power_rail_vote v w) := note_calm (n := .vote v) trivial w

theorem register_calm (env : Env) (w : World σ) :
    Calm w (demo_sensor_register_pf_resource env w) := by
  have hport : Calm w (demo_register_com_port env w) := by
    rw [demo_register_com_port]
    split_ifs
    · exact Calm.refl w
    · exact (note_calm (n := .register_port w.common.com_port.com_config) trivial w).trans
        (note_calm (n := .open_port) trivial _)
  exact hport.trans (note_calm (n := .register_rails _) trivial _)

theorem detect_kept (env : Env) (hw : Working env) (s : SensorIdx) (w : World σ)
    (h : AllKept w) : AllKept (demo_start_hw_detect env s w) := by
  let w1 := if w.common.com_port.port_handle then w else demo_sensor_register_pf_resource env w
  let w2 : World σ := { w1 with common.rail_cfg.rail_vote := w1.common.registry_rail_on_state }
  let w3 := demo_sensor_update_power_rail_vote w2.common.rail_cfg.rail_vote w2
  let w4 := demo_sensor_start_power_rail_timer env s (off2idle env) .INIT w3
  let w5 := demo_switch_bus w4
  let w6 := w5.note (.chip_read DEMO_CHIP_ID_ADDR)
  let chip_id := demo_com_read_wrapper w6.common.com_port (env.bus DEMO_CHIP_ID_ADDR) 0
  let w7 := w6.setState s { w6.states s with
    hw_is_present := chip_id == DEMO_CHIP_ID_0 || chip_id == DEMO_CHIP_ID_1 }
  let closed : World σ := { (w7.note .close_port).note .deregister_port with
    common.com_port.port_handle := false }
  let w8 := if w7.common.com_port.port_handle then closed else w7
  let w9 := demo_sensor_update_power_rail_vote .SNS_RAIL_OFF w8
  have h1 : Calm w w1 := by
    show Calm w (if w.common.com_port.port_handle then w else _)
    split_ifs
    · exact Calm.refl w
    · exact register_calm env w
  have h3 : Calm w1 w3 := vote_calm _ w2
  have h4 : AllKept w4 := start_kept env hw s _ .INIT (by decide) w3 ((h1.trans h3).kept h)
  have h5 : Calm w4 w5 := by
    show Calm w4 (demo_switch_bus w4)
    rw [demo_switch_bus]
    split_ifs
    · exact note_calm (n := .chip_read DEMO_CHIP_ID_ADDR) trivial w4
    · exact Calm.refl w4
  have h7 : Calm w5 w7 := (note_calm (n := .chip_read DEMO_CHIP_ID_ADDR) trivial w5).trans
    (setState_calm s _ w6 rfl rfl)
  have h8 : Calm w7 w8 := by
    show Calm w7 (if w7.common.com_port.port_handle then closed else w7)
    split_ifs
    · exact (note_calm (n := .close_port) trivial w7).trans
        (note_calm (n := .deregister_port) trivial _)
    · exact Calm.refl w7
  have h9 : Calm w8 w9 := vote_calm _ w8
  have h10 : Calm w9 (demo_start_hw_detect env s w) := setState_calm s _ w9 rfl rfl
  exact (((h5.trans h7).trans (h8.trans h9)).trans h10).kept h4

section Request
variable (env : Env) (hw : Working env) (s : SensorIdx)

/-- What a request does to an instance is no matter of the timers. -/
theorem noted_view {notes : List Note} {w v : World σ} (h : Noted notes w v)
    (hn : ∀ n ∈ notes, ∀ t k, readTicket t k n = k) (t : SensorIdx) : view t v = view t w := by
  rw [view, h.monitor, read_silent _ (fun n hm => hn n hm t _), h.stream, h.pending]
  rfl

theorem noted_kept {notes : List Note} {w v : World σ} (h : Noted notes w v)
    (hn : ∀ n ∈ notes, ∀ t k, readTicket t k n = k) : AllKept v ↔ AllKept w :=
  forall_congr' (fun t => by rw [noted_view h hn])

theorem verdict_quiet (r : Request) (w : World σ) :
    ∀ n ∈ verdict s r w, ∀ t k, readTicket t k n = k := by
  intro n hn t k
  rw [verdict] at hn
  split at hn
  · cases hn
  · cases hn
  · split_ifs at hn
    · rw [List.mem_singleton.mp hn]
      rfl
    · rw [List.mem_singleton.mp hn]
      rfl

theorem powered_kept (hw : Working env) (w : World σ) (h : AllKept w) :
    AllKept (powered env s w) ↔ (¬ Settling env → (w.states s).pwrail_pending_state = .NONE) := by
  have hv := (vote_calm (onState s) w).kept h
  rw [powered]
  by_cases hs : Settling env
  · rw [if_pos hs]
    exact iff_of_true (start_kept env hw s _ _ (by decide) _ hv) (fun hn => absurd hs hn)
  · rw [if_neg hs]
    exact (remove_kept s _ hv).trans ⟨fun hp _ => hp,fun hp => hp hs⟩

variable [RequestStore σ]

theorem prepared_kept (hw : Working env) (new_request : Option Request) (w : World σ)
    (h : AllKept w) : AllKept (prepared env s new_request w) ↔
      (creating new_request w = true → ¬ Settling env →
        (w.states s).pwrail_pending_state = .NONE) := by
  rw [prepared]
  by_cases hc : creating new_request w = true
  · have hv : ∀ t, view t (demo_new_instance env s w) = view t (powered env s w) := by
      intro t
      rw [view, new_instance_monitor, new_instance_states]
      rfl
    rw [if_pos hc]
    refine Iff.trans ?_ ((powered_kept env s hw w h).trans ⟨fun hp _ => hp,fun hp => hp hc⟩)
    exact forall_congr' (fun t => by rw [hv])
  · rw [if_neg hc]
    exact iff_of_true h (fun hn => absurd hn hc)

theorem request_kept (hw : Working env) (exist_request new_request : Option Request)
    (remove : Bool) (w : World σ) (h : AllKept w) :
    AllKept (demo_set_client_request env s exist_request new_request remove w).2 ↔
      (remove = false ∧ creating new_request w = true ∧ ¬ Settling env →
        (w.states s).pwrail_pending_state = .NONE) := by
  cases remove with
  | true =>
    have hn := remove_noted env s exist_request w
    have hs : demo_set_client_request env s exist_request new_request true w =
        remove_request env s exist_request w := rfl
    rw [hs, noted_kept hn]
    · exact iff_of_true h (fun hr => absurd hr.1 (by decide))
    · intro n hm t k
      split_ifs at hm
      · rw [List.mem_singleton.mp hm]
        rfl
      · cases hm
  | false =>
    rw [noted_kept (add_noted env s exist_request new_request w), prepared_kept env s hw _ w h]
    · simp
    · intro n hm
      split at hm
      · split_ifs at hm
        · exact verdict_quiet s _ _ n hm
        · cases hm
      · cases hm

end Request

section Timer
variable (env : Env) (s : SensorIdx)

/-- The timer of `s` was handled, and nothing else is different. -/
structure Handled (w v : World σ) : Prop where
  others : ∀ t, t ≠ s → view t v = view t w
  own : (view s v).ticket = ⟨.NONE,false,false⟩

theorem Handled.calm {w v v' : World σ} (h : Handled s w v) (hw : AllKept w) (hc : Calm v v') :
    Handled s w v' := by
  constructor
  · intro t ht
    have hv := h.others t ht
    rw [hc t (by rw [hv]; exact (hw t).answered), hv]
  · rw [hc s (by rw [h.own])]
    exact h.own

theorem Handled.setPending {w v : World σ} (h : Handled s w v) (p : Pending) :
    Handled s w (v.setPending s p) := by
  constructor
  · intro t ht
    rw [World.setPending, setState_view, if_neg ht]
    exact h.others t ht
  · rw [World.setPending, setState_view, if_pos rfl]
    exact h.own

theorem Handled.kept {w v : World σ} (h : Handled s w v) (hw : AllKept w)
    (hp : (view s v).pending = .NONE) : AllKept v := by
  intro t
  by_cases ht : t = s
  · subst ht
    exact ⟨by simp [h.own, hp],by rw [h.own, hp],by rw [h.own]⟩
  · rw [h.others t ht]
    exact hw t

theorem handled_view (w : World σ) (t : SensorIdx) :
    view t (w.note (.timer_handled s)) =
      if t = s then { view s w with
        ticket := ⟨.NONE,false,(view s w).ticket.unanswered || (view s w).ticket.last == .DEINIT⟩ }
      else view t w := by
  rw [note_view]
  by_cases ht : t = s
  · subst ht
    simp [readTicket]
  · have hts : ¬ s = t := fun h => ht h.symm
    simp [readTicket, ht, hts]

theorem note_handled (w : World σ) (hw : AllKept w)
    (hp : (w.states s).pwrail_pending_state ≠ .DEINIT) :
    Handled s w (w.note (.timer_handled s)) := by
  have hlast : (view s w).ticket.last ≠ .DEINIT := by
    rw [(hw s).last]
    exact hp
  constructor
  · intro t ht
    rw [handled_view, if_neg ht]
  · rw [handled_view, if_pos rfl]
    simp [(hw s).answered, hlast]

theorem remove_registry_calm (w : World σ) : Calm w (w.removeRegistryStream s) := by
  rw [World.removeRegistryStream]
  split_ifs
  · exact (note_calm (n := .remove_registry_stream s) trivial w).trans
      (setState_calm s _ _ rfl rfl)
  · exact Calm.refl w

/-- The action requested last is no longer the one recorded. -/
def Lost (w : World σ) : Prop :=
  (view s w).pending = .NONE ∧
    ((view s w).ticket.last = .DEINIT ∨ (view s w).ticket.unanswered = true)

theorem lost_not_kept (w : World σ) (h : Lost s w) : ¬ AllKept w := by
  intro hw
  rcases h.2 with hl | hu
  · exact absurd (hl.symm.trans ((hw s).last.trans h.1)) (by decide)
  · exact Bool.false_ne_true ((hw s).answered.symm.trans hu)

theorem remove_lost (w : World σ) (h : Lost s w) : Lost s (w.removeTimerStream s) := by
  rw [Lost, remove_view]
  split_ifs
  · exact h
  · exact h

theorem note_lost (w : World σ) (h : Lost s w) : Lost s (w.note (.timer_handled s)) := by
  refine ⟨h.1,.inr ?_⟩
  rw [handled_view, if_pos rfl]
  rcases h.2 with hl | hu
  · simp [hl]
  · simp [hu]

variable [RequestStore σ]

/-- Handling a timer settles its ticket, if there is an instance to configure. -/
theorem handle_kept (w : World σ) (hw : AllKept w)
    (hi : (w.states s).pwrail_pending_state = .SET_CLIENT_REQ → w.inst.isSome = true) :
    AllKept (handle_timer env s w).1 := by
  have hn := note_handled s w hw
  have hdone : ∀ v : World σ, Handled s w v → AllKept (v.setPending s .NONE) := fun v hv =>
    (hv.setPending s .NONE).kept s hw (v.setPending_own s .NONE)
  cases hp : (w.states s).pwrail_pending_state with
  | NONE =>
    rw [handle_timer_none env s w hp]
    exact (hn (by simp [hp])).kept s hw hp
  | INIT =>
    have hv := hn (by simp [hp])
    rw [handle_timer_init env s w hp]
    split_ifs
    · exact hdone _ (hv.calm s hw ((remove_registry_calm s _).trans
        (note_calm (n := .available s) trivial _)))
    · exact hdone _ hv
  | SET_CLIENT_REQ =>
    have hv := hn (by simp [hp])
    cases hinst : w.inst with
    | none => simp [hinst, hp] at hi
    | some i =>
      have hr := reval_noted env s i (w.note (.timer_handled s)) (by rw [World.note, hinst]; rfl)
      have hc : Calm (w.note (.timer_handled s))
          (demo_reval_instance_config env s i (w.note (.timer_handled s))) := fun t _ =>
        noted_view hr (fun n hm t k => by rw [List.mem_singleton.mp hm]; rfl) t
      rw [handle_timer_config env s w hp i hinst]
      exact hdone _ (hv.calm s hw hc)
  | DEINIT =>
    rw [handle_timer_deinit env s w hp]
    have hv : ∀ t, view t (demo_sensor_update_power_rail_vote .SNS_RAIL_OFF
        ((w.note (.timer_handled s)).setPending s .NONE)) =
        if t = s then ⟨⟨.NONE,false,false⟩,(view s w).stream,.NONE⟩
        else { view t w with ticket.unanswered := false } := by
      intro t
      have hvote := note_view (.vote .SNS_RAIL_OFF)
        ((w.note (.timer_handled s)).setPending s .NONE) t
      apply Eq.trans hvote
      rw [World.setPending, setState_view]
      split_ifs with ht
      · rw [handled_view, if_pos rfl]
        rfl
      · rw [handled_view, if_neg ht]
        rfl
    intro t
    rw [hv]
    split_ifs
    · exact ⟨by simp,rfl,rfl⟩
    · exact ⟨(hw t).outstanding,(hw t).last,rfl⟩

theorem events_kept (events : List TimerEvent) (w : World σ × Bool) (hw : AllKept w.1)
    (hi : .fired ∈ events → (w.1.states s).pwrail_pending_state = .SET_CLIENT_REQ →
      w.1.inst.isSome = true) : AllKept (events.foldl (timer_input env s) w).1 := by
  apply batch_handled env s _ events w
  · exact fun hfired => handle_kept env s w.1 hw (hi hfired)
  · exact fun _ => hw
  · exact fun v hp hv => (note_handled s v hv (by simp [hp])).kept s hv hp

/-- Without an instance the handler starts a timer and forgets it. -/
theorem handle_loses (hw : Working env) (w : World σ)
    (hp : (w.states s).pwrail_pending_state = .SET_CLIENT_REQ) (hi : w.inst = none) :
    Lost s (handle_timer env s w).1 := by
  rw [handle_timer_without env s w hp hi]
  refine ⟨World.setPending_own s _ _,.inl ?_⟩
  rw [World.setPending, setState_view, if_pos rfl, start_view env hw, if_pos rfl]

theorem events_lose (hw : Working env) (events : List TimerEvent) (w : World σ × Bool)
    (hp : (w.1.states s).pwrail_pending_state = .SET_CLIENT_REQ) (hi : w.1.inst = none)
    (he : .fired ∈ events) : Lost s (events.foldl (timer_input env s) w).1 := by
  apply batch_handled env s _ events w
  · exact fun _ => handle_loses env s hw w.1 hp hi
  · exact fun hnone => absurd he hnone
  · exact fun v _ hv => note_lost s v hv

theorem timer_kept (hw : Working env) (events : List TimerEvent) (w : World σ) (h : AllKept w) :
    AllKept (demo_sensor_process_timer_event env s events w).1 ↔
      ((w.states s).timer_stream = true ∧ .fired ∈ events ∧
        (w.states s).pwrail_pending_state = .SET_CLIENT_REQ → w.inst.isSome = true) := by
  rcases timer_event_cases env s w events with ⟨hrun,hno⟩ | ⟨hstream,hrun⟩
  · rw [hrun]
    exact iff_of_true h (fun hc => absurd ⟨hc.1,hc.2.1⟩ hno)
  · rw [hrun]
    by_cases hok : .fired ∈ events → (w.states s).pwrail_pending_state = .SET_CLIENT_REQ →
        w.inst.isSome = true
    · have hr := events_kept env s events (w,true) h hok
      apply iff_of_true
      · simp only
        split_ifs with hp
        · exact (remove_kept s _ hr).mpr hp
        · exact hr
      · exact fun hc => hok hc.2.1 hc.2.2
    · simp only [Classical.not_imp, Option.not_isSome_iff_eq_none] at hok
      obtain ⟨hin,hp,hi⟩ := hok
      have hl := events_lose env s hw events (w,true) hp hi hin
      apply iff_of_false
      · simp only
        split_ifs
        · exact lost_not_kept s _ (remove_lost s _ hl)
        · exact lost_not_kept s _ hl
      · intro hc
        have hsome := hc ⟨hstream,hin,hp⟩
        simp [hi] at hsome

end Timer

theorem boot_kept (hw_idx : Fin 2) (scale_factor : SensorIdx → ℚ) :
    AllKept (boot σ hw_idx scale_factor) :=
  fun _ => ⟨⟨fun h => absurd h.1 Bool.false_ne_true,fun h => absurd rfl h⟩,rfl,rfl⟩

section Run
variable [RequestStore σ]

theorem step_kept (w : World σ) (c : Call) (h : AllKept w) :
    AllKept (step w c) ↔ Admitted w c := by
  cases c with
  | detect env working s => exact iff_of_true (detect_kept env working s w h) trivial
  | request env working s exist_request new_request remove =>
    exact request_kept env s working exist_request new_request remove w h
  | timer env working s events => exact timer_kept env s working events w h

/-- The pending state tells what the timers do at the end of every call,
exactly when no call of the run is one of the two that break it. -/
theorem pending_action_kept (w : World σ) (cs : List Call) (h : AllKept w) :
    Always step AllKept w cs ↔ Along step Admitted w cs :=
  always_iff_along (fun _ => True) AllKept (fun _ _ _ => trivial)
    (fun v c _ hv => step_kept v c hv) w cs trivial h

/-- Where no instance can be made, a request leaves its timer behind. -/
theorem refused_request (env : Env) (hw : Working env) (s : SensorIdx)
    (exist_request : Option Request) (r : Request) (w : World σ) (hi : w.inst = none)
    (hr : r.message_id ≠ .FLUSH_REQ) (hs : Settling env) (hc : creates env w.common = false) :
    let v := (demo_set_client_request env s exist_request (some r) false w).2
    v.inst = none ∧ (view s v).stream = true ∧ (view s v).pending = .SET_CLIENT_REQ := by
  have hcreating : creating (some r) w = true := by simp [creating, hi, hr]
  have hn := add_noted env s exist_request (some r) w
  have hinst := new_instance_inst env s w
  have hst := new_instance_states env s w s
  rw [powered, if_pos hs, start_states, if_pos rfl] at hst
  rw [hc, hi] at hinst
  rw [prepared, if_pos hcreating] at hn
  have hnone := hn.inst.trans hinst
  refine ⟨by simpa using hnone,?_,?_⟩
  · apply (hn.stream s).trans
    rw [hst]
    simp [hw.stream]
  · apply (hn.pending s).trans
    rw [hst]
    simp [sends, hw.encode, hw.send, hw.stream]

end Run

/-- The port cannot be registered, so no instance is made. -/
def failingEnv : Env := { workingEnv 0 0 with port_ok := false }

theorem failingEnv_settling : Settling failingEnv := by
  show (0 : UInt64)-0 < UInt64.ofNat (⌊(100000000 : ℚ)⌋.toNat/52)
  simp

def exampleRequest : Request := ⟨1,suids .ACC chip0,.SENSOR_CONFIG,⟨true,none,some 100⟩⟩

def exampleCalls : List Call :=
  [.request failingEnv ⟨rfl,rfl,rfl⟩ .ACC none (some exampleRequest) false,
   .timer failingEnv ⟨rfl,rfl,rfl⟩ .ACC [.fired]]

theorem pending_action_kept_request : Always step AllKept boot0
    (exampleCalls.take 1) :=
  (pending_action_kept boot0 (exampleCalls.take 1)
    (boot_kept chip0 _)).mpr ⟨fun _ => rfl,trivial⟩

/-- The instance could not be made, and the timer for turning the rail off is
forgotten as soon as it is started. -/
theorem deinit_timer_lost :
    ¬ Always step AllKept boot0 exampleCalls := by
  intro h
  have hw : Working failingEnv := ⟨rfl,rfl,rfl⟩
  obtain ⟨hi,hst,hp⟩ := refused_request failingEnv hw .ACC none exampleRequest
    boot0 rfl (by decide) failingEnv_settling rfl
  have ht := (timer_kept failingEnv .ACC hw [.fired] _ (h 1 (by decide))).mp (h 2 (Nat.le_refl _))
    ⟨hst,List.mem_cons_self,hp⟩
  exact Bool.false_ne_true ((congrArg Option.isSome hi).symm.trans ht)

end BaseDrivers.RailTimer
