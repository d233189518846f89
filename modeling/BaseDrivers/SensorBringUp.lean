import BaseDrivers.HwDetection
import BaseDrivers.RailTimer
import BaseDrivers.SensorHistory

/-!
# Bringing a sensor up

A sensor that has received what the detection waits for is announced by two
notifications that find its timer fired, whatever the framework does before,
between and for the other sensors. Until then it either waits for nothing and
has no chip, or waits for the timer of its detection on a stream that is
there. The framework hands requests to announced sensors only.
-/

set_option autoImplicit false

namespace BaseDrivers.SensorBringUp
open BaseDrivers.Execution BaseDrivers.DemoCommon BaseDrivers.DemoInstance BaseDrivers.DemoSensor
open BaseDrivers.DemoRegistry BaseDrivers.SensorMoves BaseDrivers.SensorHistory
open BaseDrivers.RailTimer (Working)
open BaseDrivers.HwDetection (isChipId)

section Frames
variable {granted : Prop} {s t : SensorIdx} {f g : Face}

theorem setup_frame (h : Setup granted s f g) : g.timer = f.timer ∧ g.pending = f.pending ∧
    g.present = f.present := by
  cases h <;> exact ⟨rfl,rfl,rfl⟩

theorem setups_frame (h : Setups granted s f g) : g.timer = f.timer ∧ g.pending = f.pending ∧
    g.present = f.present := by
  induction h with
  | refl => exact ⟨rfl,rfl,rfl⟩
  | tail _ hm ih =>
    obtain ⟨ht,hp,hs⟩ := setup_frame hm
    exact ⟨ht.trans ih.1,hp.trans ih.2.1,hs.trans ih.2.2⟩

theorem setup_received (h : Setup granted s f g) (hr : Received t f) : Received t g := by
  cases h with
  | configure c =>
    obtain ⟨hc,hp⟩ := hr
    refine ⟨?_,hp⟩
    show Function.update f.configured s true t = true
    rw [Function.update_apply]
    split_ifs
    · rfl
    · exact hc
  | receive_platform => exact ⟨hr.1,rfl,hr.2.2⟩
  | receive_placement => exact ⟨hr.1,hr.2.1,rfl⟩
  | _ => exact hr

/-- What was received stays received. -/
theorem moves_received (h : Moves granted s f g) (hr : Received t f) : Received t g := by
  induction h with
  | refl => exact hr
  | tail _ hm ih =>
    cases hm with
    | setup h => exact setup_received h ih
    | _ => exact ih

/-- A call for one sensor leaves the others alone. -/
theorem move_apart (h : Move granted s f g) (ht : t ≠ s) : g.timer t = f.timer t ∧
    g.pending t = f.pending t ∧ g.present t = f.present t := by
  cases h with
  | setup h =>
    obtain ⟨h1,h2,h3⟩ := setup_frame h
    rw [h1, h2, h3]
    exact ⟨rfl,rfl,rfl⟩
  | open_timer _ => exact ⟨Function.update_of_ne ht _ _,rfl,rfl⟩
  | close_timer _ => exact ⟨Function.update_of_ne ht _ _,rfl,rfl⟩
  | arm _ _ _ _ => exact ⟨rfl,Function.update_of_ne ht _ _,rfl⟩
  | disarm => exact ⟨rfl,Function.update_of_ne ht _ _,rfl⟩
  | probe _ _ => exact ⟨rfl,rfl,Function.update_of_ne ht _ _⟩
  | announce _ _ => exact ⟨rfl,Function.update_of_ne ht _ _,rfl⟩

theorem moves_apart (h : Moves granted s f g) (ht : t ≠ s) : g.timer t = f.timer t ∧
    g.pending t = f.pending t ∧ g.present t = f.present t := by
  induction h with
  | refl => exact ⟨rfl,rfl,rfl⟩
  | tail _ hm ih =>
    obtain ⟨h1,h2,h3⟩ := move_apart hm ht
    exact ⟨h1.trans ih.1,h2.trans ih.2.1,h3.trans ih.2.2⟩

end Frames

/-- The sensor waits for nothing and no chip was found. -/
def Idle (s : SensorIdx) (f : Face) : Prop := f.pending s = .NONE ∧ f.present s = false

/-- The timer of its detection is outstanding. -/
def Detecting (s : SensorIdx) (f : Face) : Prop := f.pending s = .INIT ∧ f.timer s = true

def Announced (s : SensorIdx) (f : Face) : Prop := .available s ∈ f.log

def Coming (s : SensorIdx) (f : Face) : Prop := Announced s f ∨ Idle s f ∨ Detecting s f

/-- The chip was found, and only the timer is missing. -/
def Ready (s : SensorIdx) (f : Face) : Prop :=
  Announced s f ∨ (Detecting s f ∧ f.present s = true)

section Detect
variable {σ : Type} (env : Env) (s : SensorIdx) (w : World σ)

theorem sends_working (hw : Working env) (d : DemoState) : SensorMonitor.sends env d = true := by
  rw [SensorMonitor.sends, hw.encode, hw.send, hw.stream, Bool.or_true]
  rfl

/-- A detection whose timer goes out waits for it, with what the chip said. -/
theorem detect_detects (hw : Working env) :
    Detecting s (face (demo_start_hw_detect env s w)) ∧
      (face (demo_start_hw_detect env s w)).present s =
        isChipId (demo_com_read_wrapper w.common.com_port (env.bus DEMO_CHIP_ID_ADDR) 0) := by
  let w₁ := if w.common.com_port.port_handle then w else demo_sensor_register_pf_resource env w
  let w₂ : World σ := { w₁ with common.rail_cfg.rail_vote := w₁.common.registry_rail_on_state }
  let w₃ := demo_sensor_update_power_rail_vote w₂.common.rail_cfg.rail_vote w₂
  let w₄ := demo_sensor_start_power_rail_timer env s (off2idle env) .INIT w₃
  let w₅ := (demo_switch_bus w₄).note (.chip_read DEMO_CHIP_ID_ADDR)
  let chip_id := demo_com_read_wrapper w₅.common.com_port (env.bus DEMO_CHIP_ID_ADDR) 0
  let w₆ := w₅.setState s { w₅.states s with hw_is_present := isChipId chip_id }
  let w₇ := demo_sensor_update_power_rail_vote .SNS_RAIL_OFF (released w₆)
  have hdummy₁ : w₁.common.com_port.dummy_byte = w.common.com_port.dummy_byte := by
    simp only [w₁]
    split_ifs
    · rfl
    · rw [SensorMonitor.register_common]
  have hcommon₅ : w₅.common = w₃.common := by
    have hswitch : (demo_switch_bus w₄).common = w₄.common := by
      rw [demo_switch_bus]
      split_ifs <;> rfl
    exact hswitch.trans (SensorMonitor.start_rest env s (off2idle env) .INIT w₃).2.1
  have hchip : chip_id = demo_com_read_wrapper w.common.com_port (env.bus DEMO_CHIP_ID_ADDR) 0 := by
    show (env.bus DEMO_CHIP_ID_ADDR).temp_buf (0+w₅.common.com_port.dummy_byte.toNat) = _
    rw [hcommon₅]
    show (env.bus DEMO_CHIP_ID_ADDR).temp_buf (0+w₁.common.com_port.dummy_byte.toNat) = _
    rw [hdummy₁]
    rfl
  have hstate₅ : w₅.states s = { w₃.states s with
      timer_stream := true, pwrail_pending_state := .INIT } := by
    have hswitch : (demo_switch_bus w₄).states = w₄.states := by
      rw [demo_switch_bus]
      split_ifs <;> rfl
    have hstart := SensorMonitor.start_states env s (off2idle env) .INIT w₃ s
    rw [if_pos rfl, if_pos (sends_working env hw _), hw.stream, Bool.or_true] at hstart
    exact (congrFun hswitch s).trans hstart
  have hstate₇ : w₇.states s = { w₅.states s with hw_is_present := isChipId chip_id } := by
    have hreleased : (released w₆).states = w₆.states := by
      rw [released]
      split_ifs <;> rfl
    exact (congrFun hreleased s).trans (if_pos rfl)
  have hend : (demo_start_hw_detect env s w).states s =
      { w₇.states s with hw_detection_finished := true } := if_pos rfl
  refine ⟨⟨?_,?_⟩,?_⟩
  · show ((demo_start_hw_detect env s w).states s).pwrail_pending_state = .INIT
    rw [hend, hstate₇, hstate₅]
  · show ((demo_start_hw_detect env s w).states s).timer_stream = true
    rw [hend, hstate₇, hstate₅]
  · show ((demo_start_hw_detect env s w).states s).hw_is_present = _
    rw [hend, hstate₇, hchip]

end Detect

section Timer
variable {σ : Type} [RequestStore σ] (env : Env) (s : SensorIdx) (w : World σ)
  (events : List TimerEvent)

omit [RequestStore σ] in
theorem remove_timer_frame : (face (w.removeTimerStream s)).pending = (face w).pending ∧
    (face (w.removeTimerStream s)).present = (face w).present ∧
    ∀ n ∈ (face w).log, n ∈ (face (w.removeTimerStream s)).log := by
  rw [World.removeTimerStream]
  split_ifs
  · have hf := face_timer (w.note (.remove_timer_stream s)) s false
    have hpending := congrArg Face.pending hf
    have hpresent := congrArg Face.present hf
    exact ⟨hpending,hpresent,fun _ => List.mem_append_left _⟩
  · exact ⟨rfl,rfl,fun _ => id⟩

/-- Events change nothing for a sensor that waits for nothing. -/
theorem timer_idle (h : Idle s (face w)) :
    Idle s (face (demo_sensor_process_timer_event env s events w).1) := by
  rcases timer_event_cases env s w events with ⟨heq,-⟩ | ⟨-,heq⟩
  · rw [heq]
    exact h
  · have hfold : Idle s (face (events.foldl (timer_input env s) (w,true)).1) :=
      batch_idle env s (P := fun v => Idle s (face v)) (fun _ _ h => h) events (w,true) h.1 h
    rw [heq]
    simp only
    split_ifs
    · obtain ⟨hpending,hpresent,-⟩ :=
        remove_timer_frame s (events.foldl (timer_input env s) (w,true)).1
      rw [Idle, hpending, hpresent]
      exact hfold
    · exact hfold

/-- Without its timer a detection goes on. -/
theorem timer_waits (h : Detecting s (face w)) (hno : .fired ∉ events) :
    (demo_sensor_process_timer_event env s events w).1 = w := by
  rcases timer_event_cases env s w events with ⟨heq,-⟩ | ⟨-,heq⟩
  · rw [heq]
  · have hidle (v : World σ) (hv : (v.states s).pwrail_pending_state = .NONE) (hvw : v = w) :
        v.note (.timer_handled s) = w := by
      rw [hvw] at hv
      cases h.1.symm.trans hv
    have hfold : (events.foldl (timer_input env s) (w,true)).1 = w :=
      batch_handled env s (P := fun v => v = w) hidle events (w,true)
        (fun hf => absurd hf hno) (fun _ => rfl)
    have hinit : ((events.foldl (timer_input env s) (w,true)).1.states s).pwrail_pending_state ≠
        .NONE := by
      rw [hfold]
      intro hnone
      cases h.1.symm.trans hnone
    rw [heq]
    simp only
    rw [if_neg hinit, hfold]

/-- The timer ends the detection: the sensor is announced if its chip was
found. -/
theorem timer_ends (h : Detecting s (face w)) (hfired : .fired ∈ events) :
    let f := face (demo_sensor_process_timer_event env s events w).1
    ((face w).present s = true → Announced s f) ∧ ((face w).present s = false → Idle s f) := by
  intro f
  rcases timer_event_cases env s w events with ⟨-,hno⟩ | ⟨-,heq⟩
  · exact absurd ⟨h.2,hfired⟩ hno
  · let P (v : World σ) : Prop := ((face w).present s = true → Announced s (face v)) ∧
      ((face w).present s = false → Idle s (face v))
    have hidle (v : World σ) (_ : (v.states s).pwrail_pending_state = .NONE) (hv : P v) :
        P (v.note (.timer_handled s)) :=
      ⟨fun hs => List.mem_append_left _ (hv.1 hs),hv.2⟩
    have hhandled : P (handle_timer env s w).1 := by
      rw [handle_timer_init env s w h.1]
      split_ifs with hs
      · refine ⟨fun _ => List.mem_append_right _ (List.mem_singleton_self _),fun habsent => ?_⟩
        cases hs.symm.trans habsent
      · refine ⟨fun hpresent => absurd hpresent hs,fun habsent => ?_⟩
        refine ⟨World.setPending_own s _ .NONE,?_⟩
        rw [face_pending]
        exact habsent
    have hfold : P (events.foldl (timer_input env s) (w,true)).1 :=
      batch_handled env s hidle events (w,true) (fun _ => hhandled) (fun hno => absurd hfired hno)
    have hf : f = face (let r := events.foldl (timer_input env s) (w,true)
        if (r.1.states s).pwrail_pending_state = .NONE then (r.1.removeTimerStream s,r.2)
        else r).1 := by rw [← heq]
    rw [hf]
    simp only
    split_ifs
    · obtain ⟨hpending,hpresent,hlog⟩ :=
        remove_timer_frame s (events.foldl (timer_input env s) (w,true)).1
      rw [Idle, hpending, hpresent]
      exact ⟨fun hs => hlog _ (hfold.1 hs),hfold.2⟩
    · exact hfold

/-- Handling a timer does not touch the port. -/
theorem timer_port : (demo_sensor_process_timer_event env s events w).1.common.com_port =
    w.common.com_port := by
  have hhandle (v : World σ) : (handle_timer env s v).1.common.com_port = v.common.com_port := by
    cases hp : (v.states s).pwrail_pending_state with
    | NONE => rw [handle_timer_none env s v hp]; rfl
    | INIT =>
      rw [handle_timer_init env s v hp]
      split_ifs
      · have hr := (World.removeRegistryStream_rest s (v.note (.timer_handled s))).2.1
        exact congrArg CommonState.com_port hr
      · rfl
    | SET_CLIENT_REQ =>
      cases hi : v.inst with
      | none =>
        rw [handle_timer_without env s v hp hi]
        exact congrArg CommonState.com_port
          (SensorMonitor.start_rest env s _ .DEINIT (v.note (.timer_handled s))).2.1
      | some i =>
        rw [handle_timer_config env s v hp i hi]
        exact congrArg CommonState.com_port (reval_common env s i (v.note (.timer_handled s)))
    | DEINIT => rw [handle_timer_deinit env s v hp]; rfl
  have hfold (r : World σ × Bool) :
      (events.foldl (timer_input env s) r).1.common.com_port = r.1.common.com_port := by
    induction events generalizing r with
    | nil => rfl
    | cons e events ih =>
      rw [List.foldl_cons, ih, timer_input]
      split_ifs
      · exact hhandle r.1
      · rfl
  rcases timer_event_cases env s w events with ⟨heq,-⟩ | ⟨-,heq⟩
  · rw [heq]
  · rw [heq]
    simp only
    split_ifs
    · exact (congrArg CommonState.com_port (World.removeTimerStream_rest s _).2.1).trans
        (hfold (w,true))
    · exact hfold (w,true)

end Timer

section Notify
variable {σ ι : Type} [RequestStore σ] (dec : Decoder ι) (s : SensorIdx) (a : Arrived ι)
  (w : World σ)

variable {s w}

theorem announced_notify (h : Announced s (face w)) :
    Announced s (face (demo_sensor_notify_event dec s a w).1) :=
  (moves_log (notify_moves dec s a w False.elim)).mem h

omit [RequestStore σ] in
theorem heard_coming (h : Idle s (face w) ∨ Detecting s (face w)) :
    Idle s (face (heard dec s a w)) ∨ Detecting s (face (heard dec s a w)) := by
  obtain ⟨ht,hp,hs⟩ := setups_frame (heard_setups dec s a w False.elim)
  rw [Idle, Detecting, ht, hp, hs]
  exact h

/-- What the timer events leave of a sensor on its way. -/
theorem handled_coming (h : Idle s (face w) ∨ Detecting s (face w)) :
    Coming s (face (handled dec s a w)) := by
  rcases heard_coming dec a h with hidle | hdetecting
  · exact .inr (.inl (timer_idle a.env s _ a.timer hidle))
  · by_cases hfired : .fired ∈ a.timer
    · obtain ⟨hfound,hnone⟩ := timer_ends a.env s _ a.timer hdetecting hfired
      cases hs : (face (heard dec s a w)).present s with
      | true => exact .inl (hfound hs)
      | false => exact .inr (.inl (hnone hs))
    · rw [handled, timer_waits a.env s _ a.timer hdetecting hfired]
      exact .inr (.inr hdetecting)

theorem notify_coming (hw : Working a.env) (h : Coming s (face w)) :
    Coming s (face (demo_sensor_notify_event dec s a w).1) := by
  rcases h with hannounced | hway
  · exact .inl (announced_notify dec a hannounced)
  · rw [notify_eq]
    split_ifs
    · exact .inr (.inr (detect_detects a.env s _ hw).1)
    · exact handled_coming dec a hway

theorem handled_announced (h : Announced s (face (handled dec s a w))) :
    Announced s (face (demo_sensor_notify_event dec s a w).1) := by
  rw [notify_eq]
  split_ifs with hdue
  · obtain ⟨hn,hr⟩ := detection_received hdue
    exact (moves_log (detect_moves a.env s _ hn hr False.elim)).mem h
  · exact h

omit [RequestStore σ] in
theorem heard_found (h : Detecting s (face w) ∧ (face w).present s = true) :
    Detecting s (face (heard dec s a w)) ∧ (face (heard dec s a w)).present s = true := by
  obtain ⟨ht,hp,hs⟩ := setups_frame (heard_setups dec s a w False.elim)
  rw [Detecting, ht, hp, hs]
  exact h

/-- A notification that finds the timer fired ends a successful detection. -/
theorem notify_announces (h : Ready s (face w)) (hfired : .fired ∈ a.timer) :
    Announced s (face (demo_sensor_notify_event dec s a w).1) := by
  rcases h with hannounced | hfound
  · exact announced_notify dec a hannounced
  · obtain ⟨hdetecting,hs⟩ := heard_found dec a hfound
    exact handled_announced dec a ((timer_ends a.env s _ a.timer hdetecting hfired).1 hs)

/-- A notification without the timer does not disturb it. -/
theorem notify_ready (h : Ready s (face w)) :
    Ready s (face (demo_sensor_notify_event dec s a w).1) := by
  by_cases hfired : .fired ∈ a.timer
  · exact .inl (notify_announces dec a h hfired)
  · rcases h with hannounced | hfound
    · exact .inl (announced_notify dec a hannounced)
    · obtain ⟨hdetecting,hs⟩ := heard_found dec a hfound
      have hsame : handled dec s a w = heard dec s a w :=
        timer_waits a.env s _ a.timer hdetecting hfired
      rw [notify_eq, hsame]
      split_ifs with hdue
      · cases hs.symm.trans (detection_received hdue).1
      · exact .inr ⟨hdetecting,hs⟩

omit [RequestStore σ] in
theorem due_of_idle {v : World σ} (h : Idle s (face v)) (hr : Received s (face v)) :
    detection_due s v = true := by
  obtain ⟨hp,hs⟩ := h
  obtain ⟨hc,hf,hl⟩ := hr
  have hnone : (v.states s).pwrail_pending_state = .NONE := hp
  have habsent : (v.states s).hw_is_present = false := hs
  have hcfg : (v.states s).registry_ss_cfg_received = true := hc
  have hplatform : v.common.registry_pf_cfg_received = true := hf
  have hplacement : v.common.registry_placement_received = true := hl
  rw [detection_due, hnone, habsent, hcfg, hplatform, hplacement]
  rfl

/-- Where everything needed was received, a notification that does not find
the timer of an earlier detection missing detects the chip. -/
theorem notify_detects (hw : Working a.env) (h : Coming s (face w)) (hr : Received s (face w))
    (hfired : (face w).timer s = true → .fired ∈ a.timer)
    (hchip : isChipId (demo_com_read_wrapper (heard dec s a w).common.com_port
      (a.env.bus DEMO_CHIP_ID_ADDR) 0) = true) :
    Ready s (face (demo_sensor_notify_event dec s a w).1) := by
  have hdetects (hidle : Idle s (face (handled dec s a w))) :
      Ready s (face (demo_sensor_notify_event dec s a w).1) := by
    have hreceived : Received s (face (handled dec s a w)) :=
      moves_received (handled_moves dec s a w False.elim) hr
    obtain ⟨hdetecting,hs⟩ := detect_detects a.env s (handled dec s a w) hw
    have hport : (handled dec s a w).common.com_port = (heard dec s a w).common.com_port :=
      timer_port a.env s _ a.timer
    rw [hport, hchip] at hs
    rw [notify_eq, if_pos (due_of_idle hidle hreceived)]
    exact .inr ⟨hdetecting,hs⟩
  rcases h with hannounced | hway
  · exact .inl (announced_notify dec a hannounced)
  · rcases heard_coming dec a hway with hidle | hdetecting
    · exact hdetects (timer_idle a.env s _ a.timer hidle)
    · have htimer : (face w).timer s = true := by
        obtain ⟨ht,-,-⟩ := setups_frame (heard_setups dec s a w False.elim)
        rw [← ht]
        exact hdetecting.2
      obtain ⟨hfound,hnone⟩ := timer_ends a.env s _ a.timer hdetecting (hfired htimer)
      cases hs : (face (heard dec s a w)).present s with
      | true => exact .inl (handled_announced dec a (hfound hs))
      | false => exact hdetects (hnone hs)

end Notify

section Runs
variable {σ ι : Type} [RequestStore σ] (dec : Decoder ι)

/-- The sensor's own notifications find the framework working, and requests go
to it once it is announced. What the other sensors are given is not looked at:
one that gets no stream to the registry goes through a null pointer in the
source, and on here. -/
def Admitted (s : SensorIdx) (w : World σ) : Call ι → Prop
  | .notify t a => t = s → Working a.env
  | .request _ t _ _ _ => t = s → Announced s (face w)

theorem step_apart {s : SensorIdx} {w : World σ} {c : Call ι} (hc : s ≠ c.sensor) :
    (face (step dec w c)).timer s = (face w).timer s ∧
    (face (step dec w c)).pending s = (face w).pending s ∧
    (face (step dec w c)).present s = (face w).present s :=
  moves_apart (step_moves dec w c False.elim) hc

theorem step_announced {s : SensorIdx} {w : World σ} {c : Call ι} (h : Announced s (face w)) :
    Announced s (face (step dec w c)) :=
  (moves_log (step_moves dec w c False.elim)).mem h

theorem step_coming {s : SensorIdx} (w : World σ) (c : Call ι) (h : Coming s (face w))
    (hc : Admitted s w c) : Coming s (face (step dec w c)) := by
  by_cases hs : s = c.sensor
  · cases c with
    | notify t a =>
      obtain rfl : s = t := hs
      exact notify_coming dec a (hc rfl) h
    | request env t exist_request new_request remove =>
      obtain rfl : s = t := hs
      exact .inl (step_announced dec (hc rfl))
  · obtain ⟨ht,hp,hpresent⟩ := step_apart dec (w := w) hs
    rcases h with hannounced | hway
    · exact .inl (step_announced dec hannounced)
    · rw [Coming, Idle, Detecting, ht, hp, hpresent]
      exact .inr hway

theorem step_ready {s : SensorIdx} (w : World σ) (c : Call ι) (h : Ready s (face w))
    (hc : Admitted s w c) : Ready s (face (step dec w c)) := by
  by_cases hs : s = c.sensor
  · cases c with
    | notify t a =>
      obtain rfl : s = t := hs
      exact notify_ready dec a h
    | request env t exist_request new_request remove =>
      obtain rfl : s = t := hs
      exact .inl (step_announced dec (hc rfl))
  · obtain ⟨ht,hp,hpresent⟩ := step_apart dec (w := w) hs
    rcases h with hannounced | hfound
    · exact .inl (step_announced dec hannounced)
    · rw [Ready, Detecting, ht, hp, hpresent]
      exact .inr hfound

/-- A sensor that has received what it waits for comes up: one notification
detects its chip and a later one announces it, in whatever run. -/
theorem sensor_comes_up (hw_idx : Fin 2) (scale_factor : SensorIdx → ℚ) (s : SensorIdx)
    (before between : List (Call ι)) (a b : Arrived ι)
    (hadm : Along (step dec) (Admitted s) (boot σ hw_idx scale_factor)
      (before++(.notify s a)::(between++[.notify s b]))) :
    let w := run (step dec) (boot σ hw_idx scale_factor) before
    Received s (face w) → ((w.states s).timer_stream = true → .fired ∈ a.timer) →
    isChipId (demo_com_read_wrapper (heard dec s a w).common.com_port
      (a.env.bus DEMO_CHIP_ID_ADDR) 0) = true → .fired ∈ b.timer →
    .available s ∈ (run (step dec) (boot σ hw_idx scale_factor)
      (before++(.notify s a)::(between++[.notify s b]))).log := by
  intro w hr ha hchip hb
  obtain ⟨hbefore,hnotify,hrest⟩ := (along_append ..).mp hadm
  obtain ⟨hbetween,-⟩ := (along_append ..).mp hrest
  have hboot : Coming s (face (boot σ hw_idx scale_factor)) := .inr (.inl ⟨rfl,rfl⟩)
  have hcoming : Coming s (face w) := always_last
    (always_of_step (fun w => Coming s (face w)) (step_coming dec) _ _ hboot hbefore)
  have hready := notify_detects dec a (hnotify rfl) hcoming hr ha hchip
  have hstays := always_last
    (always_of_step (fun w => Ready s (face w)) (step_ready dec) _ _ hready hbetween)
  have hannounced := notify_announces dec b hstays hb
  rw [run_append, run, run_append]
  exact hannounced

/-- Surroundings in which the chip does not answer. -/
def silentEnv : Env := { workingEnv 0 0 with bus := fun _ => ⟨true,fun _ => 0⟩ }

/-- The chip does not answer at first. -/
def exampleBefore : List (Call Unit) :=
  [.notify .ACC ⟨silentEnv,fun _ => some [1],[exampleAnswer .REG_CONFIG_ACCEL,
    exampleAnswer .REG_PLATFORM_CONFIG,exampleAnswer .REG_PLATFORM_PLACEMENT],[]⟩]

def exampleFired : Arrived Unit := ⟨workingEnv 0 0,fun _ => none,[],[.fired]⟩

def exampleBetween : List (Call Unit) := [.notify .GYR ⟨silentEnv,fun _ => some [2],[],[]⟩]

set_option maxRecDepth 8000 in
theorem sensor_comes_up_late : .available .ACC ∈ (run (step exampleDecoder) boot0
    (exampleBefore++(.notify .ACC exampleFired)::(exampleBetween++[.notify .ACC exampleFired]))).log := by
  have hadm : Along (step exampleDecoder) (Admitted .ACC) boot0
      (exampleBefore++(.notify .ACC exampleFired)::
        (exampleBetween++[.notify .ACC exampleFired])) :=
    ⟨fun _ => ⟨rfl,rfl,rfl⟩,fun _ => ⟨rfl,rfl,rfl⟩,fun _ => ⟨rfl,rfl,rfl⟩,fun _ => ⟨rfl,rfl,rfl⟩,
      trivial⟩
  exact sensor_comes_up exampleDecoder chip0 (fun _ => 1) .ACC exampleBefore exampleBetween
    exampleFired exampleFired hadm ⟨by decide,by decide,by decide⟩ (fun _ => by decide)
    (by decide) (by decide)

end Runs

end BaseDrivers.SensorBringUp
