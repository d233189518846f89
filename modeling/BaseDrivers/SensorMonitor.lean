import BaseDrivers.DemoSensor

/-!
# Monitors over the log

A monitor reads the log note by note and keeps what it has seen. How the
calls of the sensor layer change the monitor, the sensor states and the
instance is stated here for any monitor that does not look at the notes
about streams being created.
-/

set_option autoImplicit false

namespace BaseDrivers.SensorMonitor
open BaseDrivers.DemoCommon BaseDrivers.DemoInstance BaseDrivers.DemoSensor

variable {σ T : Type} (read : T → Note → T) (start : T)

def monitor (w : World σ) : T := w.log.foldl read start

theorem monitor_note (n : Note) (w : World σ) :
    monitor read start (w.note n) = read (monitor read start w) n := by
  simp [monitor, World.note]

theorem read_silent {notes : List Note} {k : T} (h : ∀ n ∈ notes, read k n = k) :
    notes.foldl read k = k := by
  induction notes with
  | nil => rfl
  | cons n notes ih =>
    rw [List.foldl_cons, h n List.mem_cons_self]
    exact ih (fun m hm => h m (List.mem_cons_of_mem n hm))

theorem reval_timer [RequestStore σ] (env : Env) (s : SensorIdx) (i : Instance σ) (w : World σ)
    (t : SensorIdx) :
    ((demo_reval_instance_config env s i w).states t).timer_stream = (w.states t).timer_stream ∧
      ((demo_reval_instance_config env s i w).states t).pwrail_pending_state =
        (w.states t).pwrail_pending_state := by
  obtain ⟨rate,hs⟩ := reval_states env s i w t
  rw [hs]
  exact ⟨rfl,rfl⟩

/-- What is there already, or cannot be had, stays as it is. -/
theorem or_same {a b : Bool} (h : (a || !b) = true) : (a || b) = a := by
  revert h
  cases a <;> cases b <;> decide

theorem or_new {a b : Bool} (h : ¬ (a || !b) = true) : (a || b) = true := by
  revert h
  cases a <;> cases b <;> decide

section Start
variable (env : Env) (s : SensorIdx) (timeout : UInt64) (action : Pending) (w : World σ)

/-- The world once the timer stream was asked for. -/
def opened : World σ :=
  if (w.states s).timer_stream || !env.sensor_stream_ok then w
  else (w.note (.create_timer_stream s)).setState s { w.states s with timer_stream := true }

theorem opened_states (t : SensorIdx) : (opened env s w).states t =
    if t = s then
      { w.states s with timer_stream := (w.states s).timer_stream || env.sensor_stream_ok }
    else w.states t := by
  rw [opened]
  by_cases hc : ((w.states s).timer_stream || !env.sensor_stream_ok) = true
  · rw [if_pos hc]
    by_cases ht : t = s
    · subst ht
      rw [if_pos rfl, or_same hc]
    · rw [if_neg ht]
  · rw [if_neg hc, or_new hc]
    rfl

theorem opened_monitor (hread : ∀ k t, read k (.create_timer_stream t) = k) :
    monitor read start (opened env s w) = monitor read start w := by
  rw [opened]
  split_ifs
  · rfl
  · exact (monitor_note read start _ w).trans (hread _ _)

/-- Whether the timer request goes out. -/
def sends (d : DemoState) : Bool :=
  env.encode_ok && (d.timer_stream || env.sensor_stream_ok) && env.send_ok

theorem start_eq : demo_sensor_start_power_rail_timer env s timeout action w =
    if sends env (w.states s) then
      ((opened env s w).note (.rail_timer s timeout action)).setPending s action
    else opened env s w := by
  have hst : ((opened env s w).states s).timer_stream =
      ((w.states s).timer_stream || env.sensor_stream_ok) := by
    rw [opened_states, if_pos rfl]
  rw [sends, ← hst]
  rfl

theorem start_monitor (hread : ∀ k t, read k (.create_timer_stream t) = k) :
    monitor read start (demo_sensor_start_power_rail_timer env s timeout action w) =
      if sends env (w.states s) then read (monitor read start w) (.rail_timer s timeout action)
      else monitor read start w := by
  rw [start_eq]
  have ho := opened_monitor read start env s w hread
  split_ifs
  · rw [← ho]
    exact monitor_note read start _ _
  · exact ho

theorem start_states (t : SensorIdx) :
    (demo_sensor_start_power_rail_timer env s timeout action w).states t =
      if t = s then
        { w.states s with
          timer_stream := (w.states s).timer_stream || env.sensor_stream_ok
          pwrail_pending_state :=
            if sends env (w.states s) then action else (w.states s).pwrail_pending_state }
      else w.states t := by
  have ho := opened_states env s w
  rw [start_eq]
  by_cases hc : sends env (w.states s) = true
  · rw [if_pos hc, if_pos hc]
    by_cases ht : t = s
    · subst ht
      simp [World.setPending, World.setState, World.note, ho]
    · simp [World.setPending, World.setState, World.note, ho, ht]
  · rw [if_neg hc, if_neg hc]
    exact ho t

theorem start_rest : (demo_sensor_start_power_rail_timer env s timeout action w).inst = w.inst ∧
    (demo_sensor_start_power_rail_timer env s timeout action w).common = w.common ∧
    (demo_sensor_start_power_rail_timer env s timeout action w).hw_idx = w.hw_idx := by
  have ho : (opened env s w).inst = w.inst ∧ (opened env s w).common = w.common ∧
      (opened env s w).hw_idx = w.hw_idx := by
    rw [opened]
    split_ifs <;> exact ⟨rfl,rfl,rfl⟩
  rw [start_eq]
  split_ifs <;> exact ho

end Start

section Register
variable (env : Env) (w : World σ)

/-- Registering the resources marks the port and turns the rail off. -/
theorem register_common : (demo_sensor_register_pf_resource env w).common =
    { w.common with
      com_port.port_handle := w.common.com_port.port_handle || env.port_ok
      rail_cfg.rail_vote := .SNS_RAIL_OFF } := by
  have hport : (demo_register_com_port env w).common =
      { w.common with
        com_port.port_handle := w.common.com_port.port_handle || env.port_ok } := by
    rw [demo_register_com_port]
    split_ifs with h
    · rw [or_same h]
    · rw [or_new h]
      rfl
  exact congrArg (fun c : CommonState => { c with rail_cfg.rail_vote := .SNS_RAIL_OFF }) hport

theorem register_rest : (demo_sensor_register_pf_resource env w).states = w.states ∧
    (demo_sensor_register_pf_resource env w).inst = w.inst ∧
    (demo_sensor_register_pf_resource env w).hw_idx = w.hw_idx := by
  have hport : (demo_register_com_port env w).states = w.states ∧
      (demo_register_com_port env w).inst = w.inst ∧
      (demo_register_com_port env w).hw_idx = w.hw_idx := by
    rw [demo_register_com_port]
    split_ifs <;> exact ⟨rfl,rfl,rfl⟩
  exact hport

theorem register_monitor (hport : ∀ k c, read k (.register_port c) = k)
    (hopen : ∀ k, read k .open_port = k) (hrails : ∀ k c, read k (.register_rails c) = k) :
    monitor read start (demo_sensor_register_pf_resource env w) = monitor read start w := by
  have hp : monitor read start (demo_register_com_port env w) = monitor read start w := by
    rw [demo_register_com_port]
    split_ifs
    · rfl
    · apply (monitor_note read start .open_port _).trans
      rw [hopen, monitor_note, hport]
  exact (monitor_note read start (.register_rails _) _).trans ((hrails _ _).trans hp)

end Register

section NewInstance
variable (env : Env) (s : SensorIdx) (w : World σ)

/-- The rail has been on for less than it takes to settle. -/
def Settling (env : Env) : Prop := env.system_time-env.on_timestamp < off2idle env

instance : DecidablePred Settling := fun env =>
  inferInstanceAs (Decidable (env.system_time-env.on_timestamp < off2idle env))

def onState (s : SensorIdx) : RailState := if s = .GYR then .SNS_RAIL_ON_NPM else .SNS_RAIL_ON_LPM

/-- The world in which `demo_new_instance` creates the instance. -/
def powered : World σ :=
  let v := demo_sensor_update_power_rail_vote (onState s) w
  if Settling env then
    demo_sensor_start_power_rail_timer env s (off2idle env-(env.system_time-env.on_timestamp))
      .SET_CLIENT_REQ v
  else v.removeTimerStream s

theorem powered_rest : (powered env s w).inst = w.inst ∧
    (powered env s w).common = { w.common with rail_cfg.rail_vote := onState s } ∧
    (powered env s w).hw_idx = w.hw_idx := by
  simp only [powered]
  split_ifs
  · exact start_rest _ _ _ _ _
  · exact World.removeTimerStream_rest _ _

/-- Creation needs the port and three of the streams. -/
def creates (env : Env) (common : CommonState) : Bool :=
  (common.com_port.port_handle || env.port_ok) && env.stream_ok .ascp && env.stream_ok .irq &&
    env.stream_ok .timer

theorem createStream_istate (st : Stream) (x : Inst) :
    (createStream env st x).istate = x.istate := by
  rw [createStream]
  split_ifs <;> rfl

theorem create_polls_port (ss : List SensorIdx) (x : Inst) :
    (ss.foldl (fun x s => createPoll env s x) x).istate.com_port = x.istate.com_port := by
  induction ss generalizing x with
  | nil => rfl
  | cons s ss ih =>
    rw [List.foldl_cons, ih, createPoll]
    split_ifs <;> rfl

theorem instance_init_ok (hw_idx : Fin 2) (common : CommonState) (ss_cfgs : SensorIdx → SsCfg) :
    (demo_instance_init env hw_idx common ss_cfgs).1 = creates env common := by
  have hport : (initialState hw_idx common ss_cfgs).com_port = common.com_port := rfl
  simp only [demo_instance_init, creates]
  cases hp : env.port_ok <;> cases hc : common.com_port.port_handle <;>
    cases ha : env.stream_ok .ascp <;> cases hi : env.stream_ok .irq <;>
    simp [createStream_istate, create_polls_port, hport, hc, Inst.emit]

variable [RequestStore σ]

theorem new_instance_eq : demo_new_instance env s w =
    if creates env w.common then
      (powered env s w).setInst ⟨RequestStore.empty,(demo_instance_init env (powered env s w).hw_idx
        (powered env s w).common (fun t => ((powered env s w).states t).ss_cfg)).2⟩
    else powered env s w := by
  have hc : creates env w.common = creates env (powered env s w).common := by
    rw [(powered_rest env s w).2.1]
    rfl
  rw [hc, ← instance_init_ok env (powered env s w).hw_idx (powered env s w).common
    (fun t => ((powered env s w).states t).ss_cfg)]
  rfl

/-- A new instance changes neither the states nor the log. -/
theorem new_instance_states (t : SensorIdx) :
    (demo_new_instance env s w).states t = (powered env s w).states t := by
  rw [new_instance_eq]
  split_ifs <;> rfl

theorem new_instance_monitor :
    monitor read start (demo_new_instance env s w) = monitor read start (powered env s w) := by
  rw [new_instance_eq]
  split_ifs <;> rfl

theorem new_instance_vote :
    (demo_new_instance env s w).common.rail_cfg.rail_vote ≠ .SNS_RAIL_OFF := by
  have hc : (demo_new_instance env s w).common = (powered env s w).common := by
    rw [new_instance_eq]
    split_ifs <;> rfl
  have hv : onState s ≠ .SNS_RAIL_OFF := by cases s <;> decide
  rw [hc, (powered_rest env s w).2.1]
  exact hv

theorem new_instance_inst :
    (demo_new_instance env s w).inst.isSome = (creates env w.common || w.inst.isSome) := by
  rw [new_instance_eq]
  cases creates env w.common with
  | true => rfl
  | false => exact congrArg Option.isSome (powered_rest env s w).1

end NewInstance

section Request
variable (env : Env) (s : SensorIdx)

/-- From `w` to `v` notes were added; timers, the rail and the presence of an
instance are as before. -/
structure Noted (notes : List Note) (w v : World σ) : Prop where
  log : v.log = w.log++notes
  stream : ∀ t, (v.states t).timer_stream = (w.states t).timer_stream
  pending : ∀ t, (v.states t).pwrail_pending_state = (w.states t).pwrail_pending_state
  rail : v.common.rail_cfg.rail_vote = w.common.rail_cfg.rail_vote
  inst : v.inst.isSome = w.inst.isSome

theorem Noted.refl (w : World σ) : Noted [] w w :=
  ⟨(List.append_nil _).symm,fun _ => rfl,fun _ => rfl,rfl,rfl⟩

theorem Noted.monitor {notes : List Note} {w v : World σ} (h : Noted notes w v) :
    monitor read start v = notes.foldl read (monitor read start w) := by
  rw [SensorMonitor.monitor, h.log, List.foldl_append]
  rfl

theorem handle_flush_noted (i : Instance σ) (w : World σ) (hw : w.inst.isSome = true) :
    Noted [] w (demo_handle_flush_request env s i w) := by
  rw [demo_handle_flush_request]
  split_ifs <;> exact ⟨(List.append_nil _).symm,fun _ => rfl,fun _ => rfl,rfl,hw.symm⟩

variable [RequestStore σ]

theorem reval_noted (i : Instance σ) (w : World σ) (hw : w.inst.isSome = true) :
    Noted [.reval s] w (demo_reval_instance_config env s i w) := by
  refine ⟨reval_log env s i w,?_,?_,by rw [reval_common],by rw [reval_inst, hw]; rfl⟩
  · exact fun t => (reval_timer env s i w t).1
  · exact fun t => (reval_timer env s i w t).2

/-- What a request on an instance has the sensor layer do. -/
def verdict (r : Request) (w : World σ) : List Note :=
  match r.message_id with
  | .FLUSH_REQ => []
  | .CAL_RESET => []
  | m =>
    if m == .SENSOR_CONFIG && w.common.rail_cfg.rail_vote != .SNS_RAIL_OFF &&
        (w.states s).pwrail_pending_state == .NONE then [.reval s]
    else [.reject_config s (m == .SENSOR_CONFIG)]

theorem handle_new_noted (exist_request : Option Request) (r : Request) (i : Instance σ)
    (w : World σ) (hw : w.inst.isSome = true) :
    Noted (if r.message_id == .SENSOR_CONFIG && w.common.rail_cfg.rail_vote != .SNS_RAIL_OFF &&
        (w.states s).pwrail_pending_state == .NONE then [.reval s]
      else [.reject_config s (r.message_id == .SENSOR_CONFIG)]) w
      (demo_handle_new_request env s exist_request r i w).2 := by
  simp only [demo_handle_new_request]
  split_ifs with h1 h2 h2
  · obtain ⟨hl,hs,hp,hr,hi⟩ := reval_noted env s
      { i with store := RequestStore.add_client_request (removeRequest exist_request i.store) r }
      (w.setInst { i with
        store := RequestStore.add_client_request (removeRequest exist_request i.store) r }) rfl
    exact ⟨hl,hs,hp,hr,hi.trans hw.symm⟩
  · exact absurd h1 h2
  · exact absurd h2 h1
  · exact ⟨rfl,fun _ => rfl,fun _ => rfl,rfl,hw.symm⟩

/-- Putting the old request back is not noted. -/
theorem serve_new_noted (exist_request : Option Request) (r : Request) (i : Instance σ)
    (w : World σ) (hw : w.inst.isSome = true) (hflush : r.message_id ≠ .FLUSH_REQ)
    (hreset : r.message_id ≠ .CAL_RESET) (notes : List Note)
    (hn : Noted notes w (demo_handle_new_request env s exist_request r i w).2) :
    Noted notes w (serve_request env s exist_request r i w).2 := by
  simp only [serve_request]
  split_ifs
  · exact hn
  · split
    · exact ⟨hn.log,hn.stream,hn.pending,hn.rail,hw.symm⟩
    · exact hn

theorem serve_noted (exist_request : Option Request) (r : Request) (i : Instance σ)
    (w : World σ) (hw : w.inst.isSome = true) :
    Noted (verdict s r w) w (serve_request env s exist_request r i w).2 := by
  have hn := handle_new_noted env s exist_request r i w hw
  have hnew := serve_new_noted env s exist_request r i w hw
  cases hm : r.message_id with
  | FLUSH_REQ =>
    simp only [serve_request, verdict, hm]
    split_ifs
    · exact Noted.refl w
    · exact handle_flush_noted env s i w hw
  | CAL_RESET =>
    simp only [serve_request, verdict, hm]
    exact Noted.refl w
  | _ =>
    apply hnew
    · simp [hm]
    · simp [hm]
    · simpa only [verdict, hm] using hn

theorem remove_noted (exist_request : Option Request) (w : World σ) :
    Noted (if w.inst.isSome && exist_request.isSome then [.reval s] else []) w
      (remove_request env s exist_request w).2 := by
  cases hi : w.inst with
  | none =>
    cases exist_request <;> simpa [remove_request, hi] using Noted.refl w
  | some i =>
    cases exist_request with
    | none => simpa [remove_request, hi] using Noted.refl w
    | some r =>
      simp only [remove_request, hi]
      obtain ⟨hl,hs,hp,hr,hj⟩ := reval_noted env s
        { i with store := RequestStore.remove_client_request i.store r }
        (w.setInst { i with store := RequestStore.remove_client_request i.store r }) rfl
      exact ⟨hl,hs,hp,hr,hj.trans (by rw [hi]; rfl)⟩

/-- An instance is asked for. -/
def creating (new_request : Option Request) (w : World σ) : Bool :=
  w.inst.isNone && new_request.any (fun r => r.message_id != .FLUSH_REQ)

/-- The world in which a request is served. -/
def prepared (new_request : Option Request) (w : World σ) : World σ :=
  if creating new_request w then demo_new_instance env s w else w

theorem add_noted (exist_request new_request : Option Request) (w : World σ) :
    Noted
      (match new_request with
       | some r => if (prepared env s new_request w).inst.isSome then
           verdict s r (prepared env s new_request w) else []
       | none => [])
      (prepared env s new_request w)
      (demo_set_client_request env s exist_request new_request false w).2 := by
  cases new_request with
  | none =>
    have hp : prepared env s none w = w := by simp [prepared, creating]
    rw [hp]
    exact Noted.refl w
  | some r =>
    have hp : prepared env s (some r) w =
        if w.inst.isNone && r.message_id != .FLUSH_REQ then demo_new_instance env s w else w := rfl
    simp only [demo_set_client_request, Bool.false_eq_true, if_false, ← hp]
    cases hi : (prepared env s (some r) w).inst with
    | none => exact Noted.refl _
    | some i =>
      exact serve_noted env s exist_request r i _ (by rw [hi]; rfl)

end Request

end BaseDrivers.SensorMonitor
