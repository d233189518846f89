import Mathlib.Logic.Function.Basic
import Mathlib.Logic.Relation
import Mathlib.Tactic.SplitIfs
import BaseDrivers.DemoRegistry
import BaseDrivers.SensorMonitor
import BaseDrivers.SuidLookup

/-!
# The moves of the sensor layer

Of a world only the streams, the port, what was received and detected and the
log are looked at. Every call of the framework, whatever the surroundings
answer, is a sequence of small moves, and each move says under which
condition it is made. What every move keeps is kept by every call.
-/

set_option autoImplicit false

namespace BaseDrivers.SensorMoves
open BaseDrivers.DemoCommon BaseDrivers.DemoInstance BaseDrivers.DemoSensor BaseDrivers.DemoRegistry

/-- What is looked at. -/
structure Face where
  timer : SensorIdx → Bool
  registry : SensorIdx → Bool
  lookup : SensorIdx → Bool
  present : SensorIdx → Bool
  pending : SensorIdx → Pending
  configured : SensorIdx → Bool
  platform : Bool
  placement : Bool
  port : Bool
  log : List Note

def face {σ : Type} (w : World σ) : Face where
  timer s := (w.states s).timer_stream
  registry s := (w.states s).registry_stream
  lookup s := (w.states s).suid_lookup_data.suid_stream
  present s := (w.states s).hw_is_present
  pending s := (w.states s).pwrail_pending_state
  configured s := (w.states s).registry_ss_cfg_received
  platform := w.common.registry_pf_cfg_received
  placement := w.common.registry_placement_received
  port := w.common.com_port.port_handle
  log := w.log

/-- The detection of a sensor waits for these. -/
def Received (s : SensorIdx) (f : Face) : Prop :=
  f.configured s = true ∧ f.platform = true ∧ f.placement = true

/-- Notes about neither a stream nor the port, and not about what a sensor is. -/
def Plain : Note → Prop
  | .rail_timer _ _ _ => False
  | .create_timer_stream _ | .remove_timer_stream _ => False
  | .create_registry_stream _ | .remove_registry_stream _ | .registry_read _ _ _ => False
  | .lookup_deinit _ => False
  | .attributes _ _ => False
  | .available _ => False
  | .register_port _ | .open_port | .close_port | .deregister_port | .chip_read _ => False
  | _ => True

/-- The moves of a sensor that leave its timer, its waiting and its detection
alone. Where the call gets the stream and the port it asks for, they are there
when they are used. -/
inductive Setup (granted : Prop) (s : SensorIdx) (f : Face) : Face → Prop
  | note (n : Note) (hn : Plain n) : Setup granted s f { f with log := f.log++[n] }
  | read_registry (group : List UInt8) (accepted : Bool) (h : granted → f.registry s = true) :
    Setup granted s f { f with log := f.log++[.registry_read s group accepted] }
  | read_chip (addr : UInt8) (h : granted → f.port = true) :
    Setup granted s f { f with log := f.log++[.chip_read addr] }
  | open_registry (h : f.registry s = false) : Setup granted s f { f with
      log := f.log++[.create_registry_stream s], registry := Function.update f.registry s true }
  | close_registry (h : f.registry s = true) : Setup granted s f { f with
      log := f.log++[.remove_registry_stream s], registry := Function.update f.registry s false }
  | close_lookup (h : f.lookup s = true) : Setup granted s f { f with
      log := f.log++[.lookup_deinit s], lookup := Function.update f.lookup s false }
  | open_port (c : ComPortConfig) (h : f.port = false) : Setup granted s f { f with
      log := f.log++[.register_port c,.open_port], port := true }
  | close_port (h : f.port = true) : Setup granted s f { f with
      log := f.log++[.close_port,.deregister_port], port := false }
  | configure (c : SsCfg) : Setup granted s f { f with
      log := f.log++[.attributes s c], configured := Function.update f.configured s true }
  | receive_platform : Setup granted s f { f with platform := true }
  | receive_placement : Setup granted s f { f with placement := true }

/-- The moves of a call for a sensor. -/
inductive Move (granted : Prop) (s : SensorIdx) (f : Face) : Face → Prop
  | setup {g : Face} (h : Setup granted s f g) : Move granted s f g
  | open_timer (h : f.timer s = false) : Move granted s f { f with
      log := f.log++[.create_timer_stream s], timer := Function.update f.timer s true }
  | close_timer (h : f.timer s = true) : Move granted s f { f with
      log := f.log++[.remove_timer_stream s], timer := Function.update f.timer s false }
  | arm (timeout : UInt64) (action : Pending) (h : f.timer s = true)
      (hinit : action = .INIT → f.present s = false ∧ Received s f) : Move granted s f { f with
        log := f.log++[.rail_timer s timeout action]
        pending := Function.update f.pending s action }
  | disarm : Move granted s f { f with pending := Function.update f.pending s .NONE }
  | probe (b : Bool) (h : f.present s = false) : Move granted s f { f with
      present := Function.update f.present s b }
  | announce (hp : f.pending s = .INIT) (h : f.present s = true) : Move granted s f { f with
      log := f.log++[.available s], pending := Function.update f.pending s .NONE }

abbrev Setups (granted : Prop) (s : SensorIdx) : Face → Face → Prop :=
  Relation.ReflTransGen (Setup granted s)

/-- Any number of moves. -/
abbrev Moves (granted : Prop) (s : SensorIdx) : Face → Face → Prop :=
  Relation.ReflTransGen (Move granted s)

variable {granted : Prop}

theorem setups_moves {s : SensorIdx} {f g : Face} (h : Setups granted s f g) : Moves granted s f g :=
  Relation.ReflTransGen.mono (fun _ _ => Move.setup) _ _ h

theorem moves_keep {s : SensorIdx} {I : Face → Prop} (hstep : ∀ f g, Move granted s f g → I f → I g)
    {f g : Face} (h : Moves granted s f g) (hf : I f) : I g := by
  induction h with
  | refl => exact hf
  | tail _ hm ih => exact hstep _ _ hm ih

section Frames
variable {s t : SensorIdx} {f g : Face}

theorem setup_log (h : Setup granted s f g) : f.log <+: g.log := by
  cases h <;> first | exact List.prefix_append _ _ | exact List.prefix_rfl

/-- What was noted stays at the beginning of the log. -/
theorem moves_log (h : Moves granted s f g) : f.log <+: g.log := by
  induction h with
  | refl => exact List.prefix_rfl
  | tail _ hm ih =>
    refine ih.trans ?_
    cases hm with
    | setup h => exact setup_log h
    | disarm | probe _ _ => exact List.prefix_rfl
    | _ => exact List.prefix_append _ _

end Frames

section Face
variable {σ : Type} (w : World σ)

theorem face_note (n : Note) : face (w.note n) = { face w with log := (face w).log++[n] } := rfl

theorem setState_eq (s : SensorIdx) (d : DemoState) :
    (w.setState s d).states = Function.update w.states s d := by
  ext1 t
  rw [Function.update_apply]
  rfl

theorem states_field {α : Type} (get : DemoState → α) (s : SensorIdx) (d : DemoState) :
    (fun t => get ((w.setState s d).states t)) =
      Function.update (fun t => get (w.states t)) s (get d) := by
  rw [setState_eq]
  ext1 t
  by_cases ht : t = s
  · subst ht
    rw [Function.update_self, Function.update_self]
  · rw [Function.update_of_ne ht, Function.update_of_ne ht]

theorem face_setState (s : SensorIdx) (d : DemoState) : face (w.setState s d) =
    { face w with
      timer := Function.update (face w).timer s d.timer_stream
      registry := Function.update (face w).registry s d.registry_stream
      lookup := Function.update (face w).lookup s d.suid_lookup_data.suid_stream
      present := Function.update (face w).present s d.hw_is_present
      pending := Function.update (face w).pending s d.pwrail_pending_state
      configured := Function.update (face w).configured s d.registry_ss_cfg_received } := by
  have h {α : Type} (get : DemoState → α) := states_field w get s d
  simp only [face, h (fun d => d.timer_stream), h (fun d => d.registry_stream),
    h (fun d => d.suid_lookup_data.suid_stream), h (fun d => d.hw_is_present),
    h (fun d => d.pwrail_pending_state), h (fun d => d.registry_ss_cfg_received)]
  rfl

/-- A state whose fields looked at are as before. -/
theorem face_same (s : SensorIdx) (d : DemoState)
    (ht : d.timer_stream = (w.states s).timer_stream)
    (hr : d.registry_stream = (w.states s).registry_stream)
    (hl : d.suid_lookup_data.suid_stream = (w.states s).suid_lookup_data.suid_stream)
    (hh : d.hw_is_present = (w.states s).hw_is_present)
    (hp : d.pwrail_pending_state = (w.states s).pwrail_pending_state)
    (hc : d.registry_ss_cfg_received = (w.states s).registry_ss_cfg_received) :
    face (w.setState s d) = face w := by
  rw [face_setState]
  simp [face, ht, hr, hl, hh, hp, hc]

theorem face_pending (s : SensorIdx) (p : Pending) : face (w.setPending s p) =
    { face w with pending := Function.update (face w).pending s p } := by
  rw [World.setPending, face_setState]
  simp [face]

theorem face_timer (s : SensorIdx) (b : Bool) :
    face (w.setState s { w.states s with timer_stream := b }) =
      { face w with timer := Function.update (face w).timer s b } := by
  rw [face_setState]
  simp [face]

theorem face_registry (s : SensorIdx) (b : Bool) :
    face (w.setState s { w.states s with registry_stream := b }) =
      { face w with registry := Function.update (face w).registry s b } := by
  rw [face_setState]
  simp [face]

end Face

/-- The port is given back. -/
def released {σ : Type} (w : World σ) : World σ :=
  if w.common.com_port.port_handle then
    { (w.note .close_port).note .deregister_port with common.com_port.port_handle := false }
  else w

section Calls
variable {σ : Type} (env : Env) (s : SensorIdx) (w : World σ)

theorem note_setups {n : Note} (hn : Plain n) : Setups granted s (face w) (face (w.note n)) :=
  .single (.note n hn)

theorem vote_setups (v : RailState) :
    Setups granted s (face w) (face (demo_sensor_update_power_rail_vote v w)) :=
  note_setups s w (n := .vote v) trivial

theorem pending_moves : Moves granted s (face w) (face (w.setPending s .NONE)) := by
  rw [face_pending]
  exact .single .disarm

theorem remove_timer_moves : Moves granted s (face w) (face (w.removeTimerStream s)) := by
  rw [World.removeTimerStream]
  split_ifs with h
  · have hf := face_timer (w.note (.remove_timer_stream s)) s false
    exact hf ▸ .single (.close_timer h)
  · exact .refl

theorem remove_registry_setups : Setups granted s (face w) (face (w.removeRegistryStream s)) := by
  rw [World.removeRegistryStream]
  split_ifs with h
  · have hf := face_registry (w.note (.remove_registry_stream s)) s false
    exact hf ▸ .single (.close_registry h)
  · exact .refl

theorem opened_moves : Moves granted s (face w) (face (SensorMonitor.opened env s w)) := by
  rw [SensorMonitor.opened]
  split_ifs with h
  · exact .refl
  · have hs : (w.states s).timer_stream = false := by
      revert h
      cases (w.states s).timer_stream <;> simp
    have hf := face_timer (w.note (.create_timer_stream s)) s true
    exact hf ▸ .single (.open_timer hs)

theorem opened_face : ∃ log timer, face (SensorMonitor.opened env s w) =
    { face w with log := log, timer := timer } := by
  rw [SensorMonitor.opened]
  split_ifs
  · exact ⟨_,_,rfl⟩
  · exact ⟨_,_,face_timer (w.note (.create_timer_stream s)) s true⟩

/-- A timer is armed on a stream that is there. For the detection that is only
done while no chip was found and everything it waits for was received. -/
theorem start_moves (timeout : UInt64) (action : Pending)
    (hinit : action = .INIT → (face w).present s = false ∧ Received s (face w)) :
    Moves granted s (face w) (face (demo_sensor_start_power_rail_timer env s timeout action w)) := by
  have ho : Moves granted s _ _ := opened_moves env s w
  rw [SensorMonitor.start_eq]
  split_ifs with hsend
  · rw [face_pending]
    refine ho.tail (.arm timeout action ?_ ?_)
    · have hs := SensorMonitor.opened_states env s w s
      rw [if_pos rfl] at hs
      show ((SensorMonitor.opened env s w).states s).timer_stream = true
      rw [SensorMonitor.sends, Bool.and_eq_true, Bool.and_eq_true] at hsend
      rw [hs]
      exact hsend.1.2
    · obtain ⟨log,timer,hf⟩ := opened_face env s w
      rw [hf]
      exact hinit
  · exact ho

theorem powered_moves : Moves granted s (face w) (face (SensorMonitor.powered env s w)) := by
  have hv : Moves granted s _ _ := setups_moves (vote_setups s w (SensorMonitor.onState s))
  simp only [SensorMonitor.powered]
  split_ifs
  · exact hv.trans (start_moves env s _ _ .SET_CLIENT_REQ (fun h => by cases h))
  · exact hv.trans (remove_timer_moves s _)

theorem register_setups :
    Setups granted s (face w) (face (demo_sensor_register_pf_resource env w)) := by
  have hport : Setups granted s (face w) (face (demo_register_com_port env w)) := by
    rw [demo_register_com_port]
    split_ifs with h
    · exact .refl
    · have hp : (face w).port = false := by
        show w.common.com_port.port_handle = false
        revert h
        cases w.common.com_port.port_handle <;> simp
      have hmove : Setup granted s (face w) _ := .open_port w.common.com_port.com_config hp
      rw [List.append_cons] at hmove
      exact .single hmove
  exact hport.tail (.note (.register_rails _) trivial)

/-- The chip is read, by way of switching its bus. -/
def chipRead : World σ := (demo_switch_bus w).note (.chip_read DEMO_CHIP_ID_ADDR)

theorem switch_face : ∃ log, face (demo_switch_bus w) = { face w with log := log } := by
  rw [demo_switch_bus]
  split_ifs <;> exact ⟨_,rfl⟩

theorem chipRead_setups (h : granted → (face w).port = true) :
    Setups granted s (face w) (face (chipRead w)) := by
  have hswitch : Setups granted s (face w) (face (demo_switch_bus w)) := by
    rw [demo_switch_bus]
    split_ifs
    · exact .single (.read_chip _ h)
    · exact .refl
  refine hswitch.tail (.read_chip _ fun hg => ?_)
  obtain ⟨log,hf⟩ := switch_face w
  rw [hf]
  exact h hg

theorem release_setups : Setups granted s (face w) (face (released w)) := by
  rw [released]
  split_ifs with h
  · have hmove : Setup granted s (face w) _ := .close_port h
    rw [List.append_cons] at hmove
    exact .single hmove
  · exact .refl

theorem register_face : ∃ log, face (demo_sensor_register_pf_resource env w) =
    { face w with log := log, port := (face w).port || env.port_ok } := by
  obtain ⟨hs,-,-⟩ := SensorMonitor.register_rest env w
  simp only [face, hs, SensorMonitor.register_common]
  exact ⟨_,rfl⟩

theorem start_face (timeout : UInt64) (action : Pending) : ∃ log timer pending,
    face (demo_sensor_start_power_rail_timer env s timeout action w) =
      { face w with log := log, timer := timer, pending := pending } := by
  obtain ⟨log,timer,hf⟩ := opened_face env s w
  rw [SensorMonitor.start_eq]
  split_ifs
  · rw [face_pending, face_note, hf]
    exact ⟨_,_,_,rfl⟩
  · rw [hf]
    exact ⟨_,_,_,rfl⟩

theorem face_present (b : Bool) : face (w.setState s { w.states s with hw_is_present := b }) =
    { face w with present := Function.update (face w).present s b } := by
  rw [face_setState]
  simp [face]

/-- The first part of the detection, before the chip is read. -/
def prepared : World σ :=
  let w := if w.common.com_port.port_handle then w else demo_sensor_register_pf_resource env w
  let w := { w with common.rail_cfg.rail_vote := w.common.registry_rail_on_state }
  let w := demo_sensor_update_power_rail_vote w.common.rail_cfg.rail_vote w
  demo_sensor_start_power_rail_timer env s (off2idle env) .INIT w

theorem prepared_face : ∃ log timer pending, face (prepared env s w) = { face w with
    log := log, timer := timer, pending := pending, port := (face w).port || env.port_ok } := by
  let w₁ := if w.common.com_port.port_handle then w else demo_sensor_register_pf_resource env w
  obtain ⟨log₁,f₁⟩ : ∃ log, face w₁ =
      { face w with log := log, port := (face w).port || env.port_ok } := by
    simp only [w₁]
    split_ifs with hp
    · have hport : (face w).port = true := hp
      rw [hport, Bool.true_or]
      exact ⟨w.log,congrArg (fun b => { face w with port := b }) hport⟩
    · exact register_face env w
  let w₂ : World σ := { w₁ with common.rail_cfg.rail_vote := w₁.common.registry_rail_on_state }
  let w₃ := demo_sensor_update_power_rail_vote w₂.common.rail_cfg.rail_vote w₂
  have f₃ : face w₃ = { face w₁ with log := w₃.log } := rfl
  obtain ⟨log,timer,pending,f₄⟩ := start_face env s w₃ (off2idle env) .INIT
  refine ⟨log,timer,pending,f₄.trans ?_⟩
  rw [f₃, f₁]

/-- The hardware is detected only where everything it waits for was received
and no chip has been found. -/
theorem prepared_moves (hs : (face w).present s = false) (hr : Received s (face w)) :
    Moves granted s (face w) (face (prepared env s w)) := by
  let w₁ := if w.common.com_port.port_handle then w else demo_sensor_register_pf_resource env w
  let w₂ : World σ := { w₁ with common.rail_cfg.rail_vote := w₁.common.registry_rail_on_state }
  let w₃ := demo_sensor_update_power_rail_vote w₂.common.rail_cfg.rail_vote w₂
  have h₁ : Moves granted s (face w) (face w₁) ∧ ∃ log port, face w₁ =
      { face w with log := log, port := port } := by
    simp only [w₁]
    split_ifs
    · exact ⟨.refl,_,_,rfl⟩
    · obtain ⟨log,hf⟩ := register_face env w
      exact ⟨setups_moves (register_setups env s w),log,_,hf⟩
  obtain ⟨m₁,log₁,port,f₁⟩ := h₁
  have m₃ : Moves granted s (face w₁) (face w₃) :=
    setups_moves (vote_setups s w₂ w₁.common.registry_rail_on_state)
  have f₃ : face w₃ = { face w₁ with log := w₃.log } := rfl
  refine (m₁.trans m₃).trans (start_moves env s w₃ (off2idle env) .INIT fun _ => ?_)
  rw [f₃, f₁]
  exact ⟨hs,hr⟩

/-- The second part: what was read is judged, and the port given back. -/
theorem detected_moves (hs : (face w).present s = false) :
    Moves granted s (face (chipRead (prepared env s w))) (face (demo_start_hw_detect env s w)) := by
  let w₅ := chipRead (prepared env s w)
  let chip_id := demo_com_read_wrapper w₅.common.com_port (env.bus DEMO_CHIP_ID_ADDR) 0
  let w₆ := w₅.setState s { w₅.states s with
    hw_is_present := chip_id == DEMO_CHIP_ID_0 || chip_id == DEMO_CHIP_ID_1 }
  let w₇ := demo_sensor_update_power_rail_vote .SNS_RAIL_OFF (released w₆)
  have hend : face (demo_start_hw_detect env s w) = face w₇ :=
    face_same w₇ s { w₇.states s with hw_detection_finished := true } rfl rfl rfl rfl rfl rfl
  have hpresent : (face w₅).present s = false := by
    obtain ⟨log,timer,pending,hprepared⟩ := prepared_face env s w
    obtain ⟨log',hswitch⟩ := switch_face (prepared env s w)
    show (face ((demo_switch_bus (prepared env s w)).note _)).present s = false
    rw [face_note, hswitch, hprepared]
    exact hs
  have m₆ : Moves granted s (face w₅) (face w₆) := by
    show Moves granted s (face w₅) (face (w₅.setState s _))
    rw [face_present]
    exact .single (.probe _ hpresent)
  have m₇ : Moves granted s (face w₆) (face w₇) :=
    setups_moves ((release_setups s w₆).trans (vote_setups s (released w₆) .SNS_RAIL_OFF))
  rw [hend]
  exact m₆.trans m₇

theorem detect_moves (hs : (face w).present s = false) (hr : Received s (face w))
    (hport : granted → ((face w).port || env.port_ok) = true) :
    Moves granted s (face w) (face (demo_start_hw_detect env s w)) := by
  have hread : Setups granted s (face (prepared env s w)) (face (chipRead (prepared env s w))) := by
    apply chipRead_setups
    intro hg
    obtain ⟨log,timer,pending,hf⟩ := prepared_face env s w
    rw [hf]
    exact hport hg
  exact ((prepared_moves env s w hs hr).trans (setups_moves hread)).trans
    (detected_moves env s w hs)

theorem announce_moves (hp : (face w).pending s = .INIT) (hs : (face w).present s = true) :
    Moves granted s (face w)
      (face (((w.removeRegistryStream s).note (.available s)).setPending s .NONE)) := by
  have hsame : (face (w.removeRegistryStream s)).pending = (face w).pending ∧
      (face (w.removeRegistryStream s)).present = (face w).present := by
    rw [World.removeRegistryStream]
    split_ifs
    · have hf := face_registry (w.note (.remove_registry_stream s)) s false
      have hpending := congrArg Face.pending hf
      have hpresent := congrArg Face.present hf
      exact ⟨hpending,hpresent⟩
    · exact ⟨rfl,rfl⟩
  rw [face_pending, face_note]
  refine (setups_moves (remove_registry_setups s w)).tail (.announce ?_ ?_)
  · rw [hsame.1]
    exact hp
  · rw [hsame.2]
    exact hs

variable [RequestStore σ]

theorem new_instance_moves : Moves granted s (face w) (face (demo_new_instance env s w)) := by
  rw [SensorMonitor.new_instance_eq]
  split_ifs
  · exact powered_moves env s w
  · exact powered_moves env s w

theorem reval_setups (i : Instance σ) :
    Setups granted s (face w) (face (demo_reval_instance_config env s i w)) := by
  have hf : face (demo_reval_instance_config env s i w) = face (w.note (.reval s)) := by
    have hstates {α : Type} (get : DemoState → α)
        (hget : ∀ d rate, get { d with chosen_sample_rate := rate } = get d) :
        (fun t => get ((demo_reval_instance_config env s i w).states t)) =
          fun t => get (w.states t) := by
      ext1 t
      obtain ⟨rate,ht⟩ := reval_states env s i w t
      rw [ht, hget]
    simp only [face, reval_log, reval_common]
    rw [hstates (fun d => d.timer_stream) (fun _ _ => rfl),
      hstates (fun d => d.registry_stream) (fun _ _ => rfl),
      hstates (fun d => d.suid_lookup_data.suid_stream) (fun _ _ => rfl),
      hstates (fun d => d.hw_is_present) (fun _ _ => rfl),
      hstates (fun d => d.pwrail_pending_state) (fun _ _ => rfl),
      hstates (fun d => d.registry_ss_cfg_received) (fun _ _ => rfl)]
    rfl
  rw [hf]
  exact note_setups s w trivial

omit [RequestStore σ] in
theorem flush_setups (i : Instance σ) :
    Setups granted s (face w) (face (demo_handle_flush_request env s i w)) := by
  rw [demo_handle_flush_request]
  split_ifs <;> exact .refl

theorem handle_new_setups (exist_request : Option Request) (new_request : Request)
    (i : Instance σ) :
    Setups granted s (face w)
      (face (demo_handle_new_request env s exist_request new_request i w).2) := by
  simp only [demo_handle_new_request]
  split_ifs
  · exact reval_setups env s (w.setInst _) _
  · exact note_setups s (w.setInst _) (n := .reject_config s _) trivial

theorem serve_setups (exist_request : Option Request) (new_request : Request) (i : Instance σ) :
    Setups granted s (face w) (face (serve_request env s exist_request new_request i w).2) := by
  have hnew : Setups granted s _ _ := handle_new_setups env s w exist_request new_request i
  cases hm : new_request.message_id with
  | FLUSH_REQ =>
    simp only [serve_request, hm]
    split_ifs
    · exact .refl
    · exact flush_setups env s w i
  | CAL_RESET =>
    simp only [serve_request, hm]
    exact .refl
  | _ =>
    -- putting the old request back changes the instance only
    simp only [serve_request, hm]
    split_ifs
    · exact hnew
    · split <;> exact hnew

theorem request_moves (exist_request new_request : Option Request) (remove : Bool) :
    Moves granted s (face w)
      (face (demo_set_client_request env s exist_request new_request remove w).2) := by
  simp only [demo_set_client_request]
  split_ifs
  · cases hi : w.inst with
    | none =>
      simp only [remove_request, hi]
      exact .refl
    | some i =>
      cases exist_request with
      | none =>
        simp only [remove_request, hi]
        exact .refl
      | some r =>
        simp only [remove_request, hi]
        exact setups_moves (reval_setups env s (w.setInst _) _)
  · cases new_request with
    | none => exact .refl
    | some r =>
      have hnew : Moves granted s (face w) (face (if w.inst.isNone && r.message_id != .FLUSH_REQ then
          demo_new_instance env s w else w)) := by
        split_ifs
        · exact new_instance_moves env s w
        · exact .refl
      simp only
      split
      · exact hnew.trans (setups_moves (serve_setups env s _ exist_request r _))
      · exact hnew

theorem handle_timer_moves : Moves granted s (face w) (face (handle_timer env s w).1) := by
  have hn : Moves granted s (face w) (face (w.note (.timer_handled s))) :=
    setups_moves (note_setups s w (n := .timer_handled s) trivial)
  cases hp : (w.states s).pwrail_pending_state with
  | NONE =>
    rw [handle_timer_none env s w hp]
    exact hn
  | INIT =>
    rw [handle_timer_init env s w hp]
    split_ifs with hs
    · exact hn.trans (announce_moves s _ hp hs)
    · exact hn.trans (pending_moves s _)
  | SET_CLIENT_REQ =>
    cases hi : w.inst with
    | none =>
      rw [handle_timer_without env s w hp hi]
      exact (hn.trans (start_moves env s _ _ .DEINIT (fun h => by cases h))).trans
        (pending_moves s _)
    | some i =>
      rw [handle_timer_config env s w hp i hi]
      exact (hn.trans (setups_moves (reval_setups env s _ i))).trans (pending_moves s _)
  | DEINIT =>
    rw [handle_timer_deinit env s w hp]
    exact (hn.trans (pending_moves s _)).trans (setups_moves (vote_setups s _ _))

theorem timer_moves (events : List TimerEvent) :
    Moves granted s (face w) (face (demo_sensor_process_timer_event env s events w).1) := by
  have hevents : ∀ r : World σ × Bool,
      Moves granted s (face r.1) (face (events.foldl (timer_input env s) r).1) := by
    induction events with
    | nil => exact fun _ => .refl
    | cons e events ih =>
      intro r
      rw [List.foldl_cons]
      refine Relation.ReflTransGen.trans ?_ (ih _)
      rw [timer_input]
      split_ifs
      · exact handle_timer_moves env s r.1
      · exact .refl
  rw [demo_sensor_process_timer_event]
  split_ifs
  · exact .refl
  · simp only
    split_ifs
    · exact (hevents (w,true)).trans (remove_timer_moves s _)
    · exact hevents (w,true)

end Calls

section Events
variable {σ ι : Type} (dec : Decoder ι) (env : Env) (s : SensorIdx) (w : World σ)

theorem same_setups (d : DemoState)
    (ht : d.timer_stream = (w.states s).timer_stream)
    (hr : d.registry_stream = (w.states s).registry_stream)
    (hl : d.suid_lookup_data.suid_stream = (w.states s).suid_lookup_data.suid_stream)
    (hh : d.hw_is_present = (w.states s).hw_is_present)
    (hp : d.pwrail_pending_state = (w.states s).pwrail_pending_state)
    (hc : d.registry_ss_cfg_received = (w.states s).registry_ss_cfg_received) :
    Setups granted s (face w) (face (w.setState s d)) := by
  rw [face_same w s d ht hr hl hh hp hc]

theorem face_configured : face (w.setState s { w.states s with registry_ss_cfg_received := true }) =
    { face w with configured := Function.update (face w).configured s true } := by
  rw [face_setState]
  simp [face]

theorem sensor_cfg_setups (it : ι) :
    Setups granted s (face w) (face (parse_sensor_cfg dec s it w)) := by
  let c := dec.parse_phy_sensor_cfg it (w.states s).ss_cfg
  let w₁ := w.setState s { w.states s with ss_cfg := c }
  have m₁ : Setups granted s (face w) (face w₁) := same_setups s w { w.states s with ss_cfg := c }
    rfl rfl rfl rfl rfl rfl
  have m₂ : Setups granted s (face w₁) (face ((w₁.setState s { w₁.states s with
      registry_ss_cfg_received := true }).note (.attributes s c))) := by
    rw [face_note, face_configured]
    exact .single (.configure c)
  rw [parse_sensor_cfg]
  split_ifs
  · exact m₁.trans m₂
  · exact m₁

theorem platform_cfg_setups (it : ι) :
    Setups granted s (face w) (face (parse_platform_cfg dec env it w)) := by
  let p := dec.parse_phy_sensor_pf_cfg it w.common.pf_cfg
  let w₁ : World σ := { w with common.pf_cfg := p }
  let w₂ : World σ := { w₁ with common := withPlatform p w₁.common }
  have m₂ : Setups granted s (face w) (face w₂) := .single .receive_platform
  rw [parse_platform_cfg]
  split_ifs
  · exact m₂.trans (register_setups env s w₂)
  · exact .refl

theorem parse_setups (b : Branch) (it : ι) :
    Setups granted s (face w) (face (parse_branch dec env s b it w)) := by
  cases b with
  | sensor_cfg => exact sensor_cfg_setups dec s w it
  | platform_cfg => exact platform_cfg_setups dec env s w it
  | platform_cfg_md => exact .refl
  | placement =>
    rw [parse_branch, parse_placement]
    cases dec.ok it with
    | true => exact .single (.receive_placement (f := face w))
    | false => exact .refl
  | orient => exact .refl
  | fac_cal =>
    rw [parse_branch, parse_fac_cal]
    split_ifs <;> exact same_setups s w _ rfl rfl rfl rfl rfl rfl
  | spec =>
    rw [parse_branch, parse_spec]
    split_ifs <;> exact .refl
  | unknown => exact .refl

theorem registry_setups (events : List (RegistryEvent ι)) :
    Setups granted s (face w) (face (demo_sensor_process_registry_event dec env s events w)) := by
  have hevents : Setups granted s (face w)
      (face (events.foldl (demo_sensor_parse_registry dec env s) w)) := by
    induction events generalizing w with
    | nil => exact .refl
    | cons e events ih =>
      rw [List.foldl_cons]
      refine Relation.ReflTransGen.trans ?_ (ih _)
      rw [demo_sensor_parse_registry]
      split_ifs
      · exact (parse_setups dec env s w _ _).tail (.note (.registry_parsed s _) trivial)
      · exact .refl
  rw [demo_sensor_process_registry_event]
  split_ifs
  · exact .refl
  · simp only
    split_ifs
    · exact hevents.trans (remove_registry_setups s _)
    · exact hevents

theorem request_group_setups (g : Group)
    (h : granted → env.encode_ok = true → (face w).registry s = true) :
    Setups granted s (face w) (face (send_registry_request env s w g)) ∧
      (face (send_registry_request env s w g)).registry = (face w).registry := by
  rw [send_registry_request]
  split_ifs with hencode
  · exact ⟨.single (.read_registry _ _ fun hg => h hg hencode),rfl⟩
  · exact ⟨.refl,rfl⟩

theorem request_groups_setups (gs : List Group)
    (h : granted → env.encode_ok = true → (face w).registry s = true) :
    Setups granted s (face w) (face (gs.foldl (send_registry_request env s) w)) := by
  induction gs generalizing w with
  | nil => exact .refl
  | cons g gs ih =>
    obtain ⟨hg,hregistry⟩ := request_group_setups env s w g h
    exact hg.trans (ih _ (hregistry ▸ h))

/-- Asking the registry does not touch the lookup. -/
theorem send_setups (h : granted → env.encode_ok = true → (w.states s).registry_stream = false →
      env.sensor_stream_ok = true) :
    Setups granted s (face w) (face (demo_sensor_send_registry_request env s w)) ∧
    (face (demo_sensor_send_registry_request env s w)).lookup = (face w).lookup := by
  have hlookup (v : World σ) :
      (face ((groups s).foldl (send_registry_request env s) v)).lookup = (face v).lookup := by
    obtain ⟨-,hs,-⟩ := SuidLookup.sends_spec env s v (groups s)
    simp only [face, hs]
  rw [demo_sensor_send_registry_request]
  split_ifs with hno hok
  · exact ⟨.refl,rfl⟩
  · have hr : (face w).registry s = false := Bool.eq_false_iff.mpr hno
    have hf := face_registry (w.note (.create_registry_stream s)) s true
    have hmove : Setups granted s (face w) (face ((w.note (.create_registry_stream s)).setState s
        { w.states s with registry_stream := true })) := hf ▸ .single (.open_registry hr)
    have hsame := congrArg Face.lookup hf
    refine ⟨hmove.trans (request_groups_setups env s _ (groups s) fun _ _ => ?_),
      (hlookup _).trans hsame⟩
    exact (congrFun (congrArg Face.registry hf) s).trans (Function.update_self ..)
  · refine ⟨request_groups_setups env s w (groups s) fun hg hencode => ?_,hlookup w⟩
    exact absurd (h hg hencode (Bool.eq_false_iff.mpr hno)) hok

theorem lookup_get_same (t : DataType) (d : DemoState) : ∃ suid, lookup_get t d =
    { d with suid := suid } := by
  rw [lookup_get]
  split_ifs <;> exact ⟨_,rfl⟩

theorem face_lookup : face (w.setState s { w.states s with suid_lookup_data.suid_stream := false }) =
    { face w with lookup := Function.update (face w).lookup s false } := by
  rw [face_setState]
  simp [face]

theorem concluded_setups (hl : (face w).lookup s = true) :
    Setups granted s (face w) (face (SuidLookup.concluded s w)) := by
  obtain ⟨suid₁,h₁⟩ := lookup_get_same .timer (w.states s)
  obtain ⟨suid₂,h₂⟩ := lookup_get_same .interrupt { w.states s with suid := suid₁ }
  obtain ⟨suid₃,h₃⟩ := lookup_get_same .async_com_port { w.states s with suid := suid₂ }
  let v := w.setState s { w.states s with suid := suid₃ }
  have hsame : face v = face w := face_same w s _ rfl rfl rfl rfl rfl rfl
  have hv : Setups granted s (face w) (face v) := by rw [hsame]
  rw [SuidLookup.concluded, h₁, h₂, h₃]
  simp only
  split_ifs
  · have hf := face_lookup s (v.note (.lookup_deinit s))
    rw [← hsame] at hl
    exact hv.trans (hf ▸ .single (.close_lookup hl))
  · exact hv

/-- The id of the registry gets known and there is no stream to ask it through. -/
def asks (found : DataType → Option Suid) : Bool :=
  !(((SuidLookup.learned s found w).states s).suid .registry).isSome &&
    (((SuidLookup.looked s found w).states s).suid .registry).isSome &&
    env.encode_ok && !(w.states s).registry_stream

theorem looked_face (found : DataType → Option Suid) :
    face (SuidLookup.looked s found w) = face w := by
  have f₁ : face (SuidLookup.learned s found w) = face w :=
    face_same w s _ rfl rfl rfl rfl rfl rfl
  obtain ⟨suid,hsuid⟩ := lookup_get_same .registry ((SuidLookup.learned s found w).states s)
  let v := SuidLookup.learned s found w
  rw [SuidLookup.looked, hsuid]
  exact (face_same v s { v.states s with suid := suid } rfl rfl rfl rfl rfl rfl).trans f₁

theorem batched_setups (found : DataType → Option Suid)
    (h : granted → asks env s w found = true → env.sensor_stream_ok = true) :
    Setups granted s (face w) (face (SuidLookup.batched env s found w)) ∧
      (face (SuidLookup.batched env s found w)).lookup = (face w).lookup := by
  have hlooked := looked_face s w found
  rw [SuidLookup.batched]
  split_ifs with hdue
  · rw [← hlooked]
    refine send_setups env s _ fun hg hencode hstream => h hg ?_
    have hsame : (w.states s).registry_stream = false :=
      (congrFun (congrArg Face.registry hlooked) s).symm.trans hstream
    rw [asks, hdue, hencode, hsame]
    rfl
  · rw [hlooked]
    exact ⟨.refl,rfl⟩

/-- The lookup takes part in the call. -/
def looking : Bool :=
  (w.states s).suid_lookup_data.suid_stream && !(w.states s).suid_lookup_data.complete

theorem process_looking (found : DataType → Option Suid) (h : looking s w = true) :
    demo_sensor_process_suid_event env s found w =
      SuidLookup.concluded s (SuidLookup.batched env s found w) := by
  rw [looking, Bool.and_eq_true, Bool.not_eq_true'] at h
  exact SuidLookup.process_open env s found w h.1 h.2

/-- A running lookup is only torn down while it runs. -/
theorem suid_setups (found : DataType → Option Suid)
    (h : granted → looking s w = true → asks env s w found = true → env.sensor_stream_ok = true) :
    Setups granted s (face w) (face (demo_sensor_process_suid_event env s found w)) := by
  by_cases hlooking : looking s w = true
  · obtain ⟨hbatched,hlookup⟩ := batched_setups env s w found (fun hg => h hg hlooking)
    rw [process_looking env s w found hlooking]
    refine hbatched.trans (concluded_setups s _ ?_)
    rw [hlookup]
    rw [looking, Bool.and_eq_true] at hlooking
    exact hlooking.1
  · have hend : (!(w.states s).suid_lookup_data.suid_stream ||
        (w.states s).suid_lookup_data.complete) = true := by
      revert hlooking
      rw [looking]
      cases (w.states s).suid_lookup_data.suid_stream <;>
        cases (w.states s).suid_lookup_data.complete <;> simp
    have hw : demo_sensor_process_suid_event env s found w = w := if_pos hend
    rw [hw]

end Events

theorem detection_received {σ : Type} {s : SensorIdx} {w : World σ} (h : detection_due s w = true) :
    (face w).present s = false ∧ Received s (face w) := by
  simp only [detection_due, Bool.and_eq_true, Bool.not_eq_true'] at h
  obtain ⟨⟨⟨⟨hc,hf⟩,hp⟩,hn⟩,-⟩ := h
  exact ⟨hn,hc,hf,hp⟩

section Notify
variable {σ ι : Type} (dec : Decoder ι) (s : SensorIdx) (a : Arrived ι) (w : World σ)

/-- The world once the ids and the answers were taken in. -/
def heard : World σ :=
  demo_sensor_process_registry_event dec a.env s a.registry
    (demo_sensor_process_suid_event a.env s a.found w)

/-- The stream to the registry is given when it is asked for. -/
def StreamGranted : Prop :=
  looking s w = true → asks a.env s w a.found = true → a.env.sensor_stream_ok = true

theorem heard_setups (h : granted → StreamGranted s a w) :
    Setups granted s (face w) (face (heard dec s a w)) :=
  (suid_setups a.env s w a.found h).trans (registry_setups dec a.env s _ a.registry)

variable [RequestStore σ]

/-- The world once the timer events were handled, too. -/
def handled : World σ := (demo_sensor_process_timer_event a.env s a.timer (heard dec s a w)).1

/-- The port is there when the chip is looked for, or is given then. -/
def PortGranted : Prop :=
  detection_due s (handled dec s a w) = true →
    ((face (handled dec s a w)).port || a.env.port_ok) = true

theorem notify_eq : (demo_sensor_notify_event dec s a w).1 =
    if detection_due s (handled dec s a w) then
      demo_start_hw_detect a.env s (handled dec s a w)
    else handled dec s a w := by
  have hsplit : demo_sensor_notify_event dec s a w =
      if detection_due s (handled dec s a w) then (demo_start_hw_detect a.env s (handled dec s a w),
        (demo_sensor_process_timer_event a.env s a.timer (heard dec s a w)).2)
      else demo_sensor_process_timer_event a.env s a.timer (heard dec s a w) := rfl
  rw [hsplit]
  split_ifs <;> rfl

theorem handled_moves (h : granted → StreamGranted s a w) :
    Moves granted s (face w) (face (handled dec s a w)) :=
  (setups_moves (heard_setups dec s a w h)).trans (timer_moves a.env s _ a.timer)

/-- A notification is made of moves. -/
theorem notify_moves (h : granted → StreamGranted s a w ∧ PortGranted dec s a w) :
    Moves granted s (face w) (face (demo_sensor_notify_event dec s a w).1) := by
  have hhandled := handled_moves dec s a w (fun hg => (h hg).1)
  rw [notify_eq]
  split_ifs with hdue
  · obtain ⟨hn,hr⟩ := detection_received hdue
    exact hhandled.trans (detect_moves a.env s _ hn hr (fun hg => (h hg).2 hdue))
  · exact hhandled

end Notify

end BaseDrivers.SensorMoves
