import Mathlib.Tactic.SplitIfs
import BaseDrivers.DemoInstance

/-!
# The sensor layer

The four sensors of one library, the common state, the shared instance and
its client requests form one world. Power-rail timers, client requests and
hardware detection are functions on it. The services of the framework are
present; what they answer is part of the environment of a call.
-/

set_option autoImplicit false

namespace BaseDrivers.DemoSensor
open BaseDrivers.DemoCommon BaseDrivers.DemoInstance

/-- The data types a sensor looks up. -/
inductive DataType where
  | timer
  | interrupt
  | async_com_port
  | registry
  deriving DecidableEq, Repr

structure Lookup where
  suid_stream : Bool
  found : DataType → Option Suid

def Lookup.complete (l : Lookup) : Bool :=
  (l.found .timer).isSome && (l.found .interrupt).isSome && (l.found .async_com_port).isSome &&
    (l.found .registry).isSome

structure Matrix3 where
  e00 : ℚ
  e11 : ℚ
  e22 : ℚ
  rest : ℕ → ℚ

/-- `demo_state`. The four looked-up ids are one table; `my_suid` is the entry
of `suids` for the sensor. -/
structure DemoState where
  ss_cfg : SsCfg
  suid : DataType → Option Suid
  suid_lookup_data : Lookup
  timer_stream : Bool
  registry_stream : Bool
  hw_is_present : Bool
  hw_detection_finished : Bool
  registry_ss_cfg_received : Bool
  pwrail_pending_state : Pending
  registry_fac_cal_received : Bool
  fac_cal_corr_mat : Matrix3
  fac_cal_bias : ℕ → ℤ
  fac_cal_scale : ℕ → ℚ
  fac_cal_version : UInt32
  scale_factor : ℚ
  chosen_sample_rate : ℚ

/-- What the sensor layer does to the framework. -/
inductive Note where
  | vote (v : RailState)
  | register_rails (c : RailConfig)
  | rail_timer (s : SensorIdx) (timeout : UInt64) (action : Pending)
  | timer_handled (s : SensorIdx)
  | create_timer_stream (s : SensorIdx)
  | remove_timer_stream (s : SensorIdx)
  | reval (s : SensorIdx)
  | reject_config (s : SensorIdx) (reval_config : Bool)
  | create_registry_stream (s : SensorIdx)
  | remove_registry_stream (s : SensorIdx)
  | registry_read (s : SensorIdx) (group : List UInt8) (accepted : Bool)
  | registry_parsed (s : SensorIdx) (group : List UInt8)
  | lookup_deinit (s : SensorIdx)
  | attributes (s : SensorIdx) (c : SsCfg)
  | available (s : SensorIdx)
  | register_port (c : ComPortConfig)
  | open_port
  | close_port
  | deregister_port
  | chip_read (addr : UInt8)
  deriving DecidableEq

structure Instance (σ : Type) where
  store : σ
  body : Inst

structure World (σ : Type) where
  hw_idx : Fin 2
  common : CommonState
  states : SensorIdx → DemoState
  inst : Option (Instance σ)
  log : List Note

namespace World
variable {σ : Type}

def note (n : Note) (w : World σ) : World σ := { w with log := w.log++[n] }

def setState (s : SensorIdx) (d : DemoState) (w : World σ) : World σ :=
  { w with states := fun t => if t = s then d else w.states t }

def setInst (i : Instance σ) (w : World σ) : World σ := { w with inst := some i }

def my_suid (w : World σ) (s : SensorIdx) : Suid := suids s w.hw_idx

def setPending (s : SensorIdx) (p : Pending) (w : World σ) : World σ :=
  w.setState s { w.states s with pwrail_pending_state := p }

/-- `sns_sensor_util_remove_sensor_stream` on the timer stream. -/
def removeTimerStream (s : SensorIdx) (w : World σ) : World σ :=
  if (w.states s).timer_stream then
    (w.note (.remove_timer_stream s)).setState s { w.states s with timer_stream := false }
  else w

def removeRegistryStream (s : SensorIdx) (w : World σ) : World σ :=
  if (w.states s).registry_stream then
    (w.note (.remove_registry_stream s)).setState s { w.states s with registry_stream := false }
  else w

variable (s : SensorIdx) (w : World σ)

theorem setPending_pending (p : Pending) (t : SensorIdx) :
    ((w.setPending s p).states t).pwrail_pending_state =
      if t = s then p else (w.states t).pwrail_pending_state := by
  by_cases ht : t = s
  · simp [setPending, setState, ht]
  · simp [setPending, setState, ht]

theorem setPending_own (p : Pending) :
    ((w.setPending s p).states s).pwrail_pending_state = p :=
  (setPending_pending s w p s).trans (if_pos rfl)

theorem removeTimerStream_rest : (w.removeTimerStream s).inst = w.inst ∧
    (w.removeTimerStream s).common = w.common ∧ (w.removeTimerStream s).hw_idx = w.hw_idx := by
  rw [removeTimerStream]
  split_ifs <;> exact ⟨rfl,rfl,rfl⟩

theorem removeRegistryStream_rest : (w.removeRegistryStream s).inst = w.inst ∧
    (w.removeRegistryStream s).common = w.common ∧
    (w.removeRegistryStream s).hw_idx = w.hw_idx := by
  rw [removeRegistryStream]
  split_ifs <;> exact ⟨rfl,rfl,rfl⟩

end World

section Requests
variable {σ : Type} [RequestStore σ]

/-- The results of `demo_get_sensor_config` and the payload buffer it decodes
into, which keeps its value from one request to the next. -/
structure Chosen where
  sample_rate : ℚ
  report_rate : ℚ
  client_present : Bool
  payload : ℚ

/-- `1e6 / batch_period` as an exact rational. -/
def exactRate (batch_period : UInt32) : ℚ := 1000000/(batch_period.toNat : ℚ)

/-- One turn of the loop; `rate` is what a batch period comes to. -/
def chooseRequest (rate : UInt32 → ℚ) (c : Chosen) (r : Request) : Chosen :=
  if r.message_id = .SENSOR_CONFIG then
    let payload := r.decoded.sample_rate.getD c.payload
    if r.decoded.ok then
      let report_rate :=
        match r.decoded.batch_period with
        | some p => if 0 < p then rate p else payload
        | none => payload
      ⟨max c.sample_rate payload,max c.report_rate report_rate,true,payload⟩
    else { c with payload := payload }
  else c

def chooseAll (rate : UInt32 → ℚ) (l : List Request) : Chosen :=
  l.foldl (chooseRequest rate) ⟨0,0,false,0⟩

/-- With exact rationals for the rates. -/
def demo_get_sensor_config (store : σ) (suid : Suid) : Chosen :=
  chooseAll exactRate (get_client_requests store suid)

/-- `FLT_MIN` -/
def FLT_MIN : ℚ := 1/2^126

def IS_ZERO (x : ℚ) : Bool := decide (-FLT_MIN ≤ x ∧ x ≤ FLT_MIN)

def withRates (env : Env) (c : Chosen) (d : DemoSsCfg) : DemoSsCfg :=
  { d with
    sample_rate := c.sample_rate
    report_rate := c.report_rate
    sample_intvl_req :=
      if IS_ZERO c.sample_rate then 0 else env.convert_ns_to_ticks (1000000000/c.sample_rate) }

def demo_set_client_config (env : Env) (w : World σ) (r : ConfigRequest) (x : Inst) : Inst :=
  demo_instance_set_client_config env w.common.pf_cfg (fun s => (w.states s).ss_cfg) r x

/-- The part of `demo_reval_instance_config` after the choice. -/
def apply_chosen (env : Env) (s : SensorIdx) (i : Instance σ) (c : Chosen) (w : World σ) :
    World σ :=
  let w := w.note (.reval s)
  let w :=
    if c.sample_rate ≠ (w.states s).chosen_sample_rate then
      w.setState s { w.states s with chosen_sample_rate := c.report_rate }
    else w
  let x := i.body.setCfg s (withRates env c (i.body.cfg s))
  w.setInst { i with body := demo_set_client_config env w (.SENSOR_CONFIG s) x }

def demo_reval_instance_config (env : Env) (s : SensorIdx) (i : Instance σ) (w : World σ) :
    World σ :=
  apply_chosen env s i (demo_get_sensor_config i.store (w.my_suid s)) w

def demo_sensor_update_power_rail_vote (v : RailState) (w : World σ) : World σ :=
  { w.note (.vote v) with common.rail_cfg.rail_vote := v }

def demo_sensor_start_power_rail_timer (env : Env) (s : SensorIdx) (timeout : UInt64)
    (action : Pending) (w : World σ) : World σ :=
  let w :=
    if (w.states s).timer_stream || !env.sensor_stream_ok then w
    else (w.note (.create_timer_stream s)).setState s { w.states s with timer_stream := true }
  if env.encode_ok && (w.states s).timer_stream && env.send_ok then
    (w.note (.rail_timer s timeout action)).setPending s action
  else w

/-- 100 ms in ticks. -/
def off2idle (env : Env) : UInt64 := env.convert_ns_to_ticks 100000000

/-- The returned instance is the one left in the world. The master sensor is
the accelerometer of the library. -/
def demo_new_instance (env : Env) (s : SensorIdx) (w : World σ) : World σ :=
  let w := demo_sensor_update_power_rail_vote
    (if s = .GYR then .SNS_RAIL_ON_NPM else .SNS_RAIL_ON_LPM) w
  let delta := env.system_time-env.on_timestamp
  let w :=
    if delta < off2idle env then
      demo_sensor_start_power_rail_timer env s (off2idle env-delta) .SET_CLIENT_REQ w
    else w.removeTimerStream s
  let r := demo_instance_init env w.hw_idx w.common (fun t => (w.states t).ss_cfg)
  if r.1 then w.setInst ⟨RequestStore.empty,r.2⟩ else w

def demo_handle_flush_request (env : Env) (s : SensorIdx) (i : Instance σ) (w : World σ) :
    World σ :=
  if sensorType s &&& (DEMO_MOTION ||| DEMO_TEMP) ≠ 0 then
    w.setInst { i with body := i.body.emit (.flush_event (w.my_suid s)) }
  else
    w.setInst { i with body := demo_set_client_config env w (.FLUSH_REQ (sensorType s)) i.body }

def removeRequest (exist_request : Option Request) (store : σ) : σ :=
  match exist_request with
  | some r => RequestStore.remove_client_request store r
  | none => store

def addRequest (exist_request : Option Request) (store : σ) : σ :=
  match exist_request with
  | some r => RequestStore.add_client_request store r
  | none => store

/-- Whether the request is one the handler knows, and the world after it. -/
def demo_handle_new_request (env : Env) (s : SensorIdx) (exist_request : Option Request)
    (new_request : Request) (i : Instance σ) (w : World σ) : Bool × World σ :=
  let store := removeRequest exist_request i.store
  let i := { i with store := RequestStore.add_client_request store new_request }
  let w := w.setInst i
  let reval_config := new_request.message_id == .SENSOR_CONFIG
  if reval_config && w.common.rail_cfg.rail_vote != .SNS_RAIL_OFF &&
      (w.states s).pwrail_pending_state == .NONE then
    (reval_config,demo_reval_instance_config env s i w)
  else (reval_config,w.note (.reject_config s reval_config))

/-- The part of `demo_set_client_request` for a request on an instance that
is present. The first component says whether the instance is returned. -/
def serve_request (env : Env) (s : SensorIdx) (exist_request : Option Request)
    (new_request : Request) (i : Instance σ) (w : World σ) : Bool × World σ :=
  match new_request.message_id with
  | .FLUSH_REQ =>
    if exist_request.isNone then (false,w) else (true,demo_handle_flush_request env s i w)
  | .CAL_RESET => (true,w)
  | _ =>
    let r := demo_handle_new_request env s exist_request new_request i w
    if r.1 then (true,r.2)
    else
      -- the old request comes back, the new one is not taken out again
      match r.2.inst with
      | some j => (false,r.2.setInst { j with store := addRequest exist_request j.store })
      | none => (false,r.2)

def remove_request (env : Env) (s : SensorIdx) (exist_request : Option Request) (w : World σ) :
    Bool × World σ :=
  match w.inst, exist_request with
  | some i, some r =>
    let i := { i with store := RequestStore.remove_client_request i.store r }
    (true,demo_reval_instance_config env s i (w.setInst i))
  | i, _ => (i.isSome,w)

def demo_set_client_request (env : Env) (s : SensorIdx) (exist_request new_request : Option Request)
    (remove : Bool) (w : World σ) : Bool × World σ :=
  if remove then remove_request env s exist_request w
  else
    match new_request with
    | none => (w.inst.isSome,w)
    | some r =>
      let w := if w.inst.isNone && r.message_id != .FLUSH_REQ then demo_new_instance env s w else w
      match w.inst with
      | some i => serve_request env s exist_request r i w
      | none => (false,w)

/-- The events a timer stream delivers. -/
inductive TimerEvent where
  | fired
  | undecodable
  | registered
  | config
  | other (id : ℕ)
  deriving DecidableEq, Repr

/-- What a decoded timer event does, by the pending state. The result is false
where no hardware was found. -/
def handle_timer (env : Env) (s : SensorIdx) (w : World σ) : World σ × Bool :=
  let w := w.note (.timer_handled s)
  match (w.states s).pwrail_pending_state with
  | .NONE => (w,true)
  | .INIT =>
    if (w.states s).hw_is_present then
      (((w.removeRegistryStream s).note (.available s)).setPending s .NONE,true)
    else (w.setPending s .NONE,false)
  | .SET_CLIENT_REQ =>
    let w :=
      match w.inst with
      | some i => demo_reval_instance_config env s i w
      | none =>
        demo_sensor_start_power_rail_timer env s (env.convert_ns_to_ticks 1000000000) .DEINIT w
    (w.setPending s .NONE,true)
  | .DEINIT => (demo_sensor_update_power_rail_vote .SNS_RAIL_OFF (w.setPending s .NONE),true)

def timer_input (env : Env) (s : SensorIdx) (w : World σ × Bool) (e : TimerEvent) :
    World σ × Bool :=
  if e = .fired then
    let r := handle_timer env s w.1
    (r.1,w.2 && r.2)
  else w

def demo_sensor_process_timer_event (env : Env) (s : SensorIdx) (events : List TimerEvent)
    (w : World σ) : World σ × Bool :=
  if !(w.states s).timer_stream || events.isEmpty then (w,true)
  else
    let r := events.foldl (timer_input env s) (w,true)
    if (r.1.states s).pwrail_pending_state = .NONE then (r.1.removeTimerStream s,r.2) else r

def demo_register_com_port (env : Env) (w : World σ) : World σ :=
  if w.common.com_port.port_handle || !env.port_ok then w
  else
    let w := (w.note (.register_port w.common.com_port.com_config)).note .open_port
    { w with common.com_port.port_handle := true }

def demo_register_power_rail (w : World σ) : World σ :=
  let w := { w with common.rail_cfg.rail_vote := .SNS_RAIL_OFF }
  w.note (.register_rails w.common.rail_cfg)

def demo_sensor_register_pf_resource (env : Env) (w : World σ) : World σ :=
  demo_register_power_rail (demo_register_com_port env w)

def DEMO_CHIP_ID_0 : UInt8 := 0x40
def DEMO_CHIP_ID_1 : UInt8 := 0x41
def DEMO_CHIP_ID_ADDR : UInt8 := 0x00

def demo_switch_bus (w : World σ) : World σ :=
  if w.common.com_port.com_config.bus_type = .SNS_BUS_SPI then w.note (.chip_read DEMO_CHIP_ID_ADDR)
  else w

def demo_start_hw_detect (env : Env) (s : SensorIdx) (w : World σ) : World σ :=
  let w := if w.common.com_port.port_handle then w else demo_sensor_register_pf_resource env w
  let w := { w with common.rail_cfg.rail_vote := w.common.registry_rail_on_state }
  let w := demo_sensor_update_power_rail_vote w.common.rail_cfg.rail_vote w
  let w := demo_sensor_start_power_rail_timer env s (off2idle env) .INIT w
  let w := (demo_switch_bus w).note (.chip_read DEMO_CHIP_ID_ADDR)
  let chip_id := demo_com_read_wrapper w.common.com_port (env.bus DEMO_CHIP_ID_ADDR) 0
  let w := w.setState s
    { w.states s with hw_is_present := chip_id == DEMO_CHIP_ID_0 || chip_id == DEMO_CHIP_ID_1 }
  let w :=
    if w.common.com_port.port_handle then
      let w := (w.note .close_port).note .deregister_port
      { w with common.com_port.port_handle := false }
    else w
  let w := demo_sensor_update_power_rail_vote .SNS_RAIL_OFF w
  w.setState s { w.states s with hw_detection_finished := true }

theorem reval_log (env : Env) (s : SensorIdx) (i : Instance σ) (w : World σ) :
    (demo_reval_instance_config env s i w).log = w.log++[.reval s] := by
  simp only [demo_reval_instance_config, apply_chosen]
  split_ifs <;> rfl

theorem reval_common (env : Env) (s : SensorIdx) (i : Instance σ) (w : World σ) :
    (demo_reval_instance_config env s i w).common = w.common := by
  simp only [demo_reval_instance_config, apply_chosen]
  split_ifs <;> rfl

theorem reval_hw_idx (env : Env) (s : SensorIdx) (i : Instance σ) (w : World σ) :
    (demo_reval_instance_config env s i w).hw_idx = w.hw_idx := by
  simp only [demo_reval_instance_config, apply_chosen]
  split_ifs <;> rfl

/-- Of the sensor states only a cached rate changes. -/
theorem reval_states (env : Env) (s : SensorIdx) (i : Instance σ) (w : World σ) (t : SensorIdx) :
    ∃ rate, (demo_reval_instance_config env s i w).states t =
      { w.states t with chosen_sample_rate := rate } := by
  simp only [demo_reval_instance_config, apply_chosen]
  split_ifs
  · by_cases ht : t = s
    · subst ht
      exact ⟨_,by simp [World.setState, World.setInst, World.note]; rfl⟩
    · exact ⟨(w.states t).chosen_sample_rate,by
        simp [World.setState, World.setInst, World.note, ht]⟩
  · exact ⟨(w.states t).chosen_sample_rate,rfl⟩

theorem reval_inst (env : Env) (s : SensorIdx) (i : Instance σ) (w : World σ) :
    (demo_reval_instance_config env s i w).inst =
      some ⟨i.store,demo_instance_set_client_config env w.common.pf_cfg
        (fun t => (w.states t).ss_cfg) (.SENSOR_CONFIG s)
        (i.body.setCfg s (withRates env (demo_get_sensor_config i.store (w.my_suid s))
          (i.body.cfg s)))⟩ := by
  have hs : ∀ d : DemoState, d.ss_cfg = (w.states s).ss_cfg →
      (fun t => (if t = s then d else w.states t).ss_cfg) = fun t => (w.states t).ss_cfg := by
    intro d hd
    ext t
    by_cases ht : t = s
    · subst ht
      simp [hd]
    · simp [ht]
  simp only [demo_reval_instance_config, apply_chosen]
  split_ifs
  · simp only [World.setInst, demo_set_client_config, World.setState, World.note, World.my_suid]
    rw [hs { w.states s with
      chosen_sample_rate := (demo_get_sensor_config i.store (suids s w.hw_idx)).report_rate } rfl]
  · rfl

section Handler
variable (env : Env) (s : SensorIdx) (w : World σ)

theorem handle_timer_none (hp : (w.states s).pwrail_pending_state = .NONE) :
    handle_timer env s w = (w.note (.timer_handled s),true) := by
  have hn : ((w.note (.timer_handled s)).states s).pwrail_pending_state = .NONE := hp
  simp only [handle_timer, hn]

theorem handle_timer_init (hp : (w.states s).pwrail_pending_state = .INIT) :
    handle_timer env s w =
      if (w.states s).hw_is_present then
        ((((w.note (.timer_handled s)).removeRegistryStream s).note (.available s)).setPending s
          .NONE,true)
      else ((w.note (.timer_handled s)).setPending s .NONE,false) := by
  have hn : ((w.note (.timer_handled s)).states s).pwrail_pending_state = .INIT := hp
  simp only [handle_timer, hn]
  rfl

theorem handle_timer_config (hp : (w.states s).pwrail_pending_state = .SET_CLIENT_REQ)
    (i : Instance σ) (hi : w.inst = some i) :
    handle_timer env s w =
      ((demo_reval_instance_config env s i (w.note (.timer_handled s))).setPending s .NONE,
        true) := by
  have hn : ((w.note (.timer_handled s)).states s).pwrail_pending_state = .SET_CLIENT_REQ := hp
  have hni : (w.note (.timer_handled s)).inst = some i := hi
  simp only [handle_timer, hn, hni]

theorem handle_timer_without (hp : (w.states s).pwrail_pending_state = .SET_CLIENT_REQ)
    (hi : w.inst = none) :
    handle_timer env s w =
      ((demo_sensor_start_power_rail_timer env s (env.convert_ns_to_ticks 1000000000) .DEINIT
        (w.note (.timer_handled s))).setPending s .NONE,true) := by
  have hn : ((w.note (.timer_handled s)).states s).pwrail_pending_state = .SET_CLIENT_REQ := hp
  have hni : (w.note (.timer_handled s)).inst = none := hi
  simp only [handle_timer, hn, hni]

theorem handle_timer_deinit (hp : (w.states s).pwrail_pending_state = .DEINIT) :
    handle_timer env s w =
      (demo_sensor_update_power_rail_vote .SNS_RAIL_OFF
        ((w.note (.timer_handled s)).setPending s .NONE),true) := by
  have hn : ((w.note (.timer_handled s)).states s).pwrail_pending_state = .DEINIT := hp
  simp only [handle_timer, hn]

/-- Whatever a sensor waits for, handling its timer ends the waiting. -/
theorem handle_timer_pending :
    ((handle_timer env s w).1.states s).pwrail_pending_state = .NONE := by
  cases hp : (w.states s).pwrail_pending_state with
  | NONE =>
    rw [handle_timer_none env s w hp]
    exact hp
  | INIT =>
    rw [handle_timer_init env s w hp]
    split_ifs
    · exact World.setPending_own s _ .NONE
    · exact World.setPending_own s _ .NONE
  | SET_CLIENT_REQ =>
    cases hi : w.inst with
    | none =>
      rw [handle_timer_without env s w hp hi]
      exact World.setPending_own s _ .NONE
    | some i =>
      rw [handle_timer_config env s w hp i hi]
      exact World.setPending_own s _ .NONE
  | DEINIT =>
    rw [handle_timer_deinit env s w hp]
    exact World.setPending_own s _ .NONE

section Batch
variable {P : World σ → Prop}
  (hidle : ∀ v : World σ, (v.states s).pwrail_pending_state = .NONE → P v →
    P (v.note (.timer_handled s)))
include hidle

theorem batch_idle (events : List TimerEvent) (r : World σ × Bool)
    (hp : (r.1.states s).pwrail_pending_state = .NONE) (h : P r.1) :
    P (events.foldl (timer_input env s) r).1 := by
  induction events generalizing r with
  | nil => exact h
  | cons e events ih =>
    rw [List.foldl_cons, timer_input]
    split_ifs
    · rw [handle_timer_none env s r.1 hp]
      exact ih (r.1.note (.timer_handled s),r.2 && true) hp (hidle r.1 hp h)
    · exact ih r hp h

/-- What the first timer of a batch brings about holds after the batch, if the
notes of the later ones keep it. -/
theorem batch_handled (events : List TimerEvent) (r : World σ × Bool)
    (hfired : .fired ∈ events → P (handle_timer env s r.1).1) (hnone : .fired ∉ events → P r.1) :
    P (events.foldl (timer_input env s) r).1 := by
  induction events with
  | nil => exact hnone List.not_mem_nil
  | cons e events ih =>
    rw [List.foldl_cons, timer_input]
    split_ifs with he
    · exact batch_idle env s hidle events
        ((handle_timer env s r.1).1,r.2 && (handle_timer env s r.1).2)
        (handle_timer_pending env s r.1) (hfired (he ▸ List.mem_cons_self))
    · have hmem : .fired ∈ e::events ↔ .fired ∈ events := by
        simp [Ne.symm he]
      exact ih (fun h => hfired (hmem.mpr h)) (fun h => hnone (mt hmem.mp h))

end Batch

/-- Either there is nothing to look at, or every event goes to the handler. -/
theorem timer_event_cases (events : List TimerEvent) :
    (demo_sensor_process_timer_event env s events w = (w,true) ∧
        ¬ ((w.states s).timer_stream = true ∧ .fired ∈ events)) ∨
      ((w.states s).timer_stream = true ∧
        demo_sensor_process_timer_event env s events w =
          let r := events.foldl (timer_input env s) (w,true)
          if (r.1.states s).pwrail_pending_state = .NONE then (r.1.removeTimerStream s,r.2)
          else r) := by
  by_cases hrun : (!(w.states s).timer_stream || events.isEmpty) = true
  · left
    constructor
    · exact if_pos hrun
    · rintro ⟨hs,he⟩
      cases events with
      | nil => cases he
      | cons e events => simp [hs] at hrun
  · right
    constructor
    · by_contra hs
      simp [hs] at hrun
    · exact if_neg hrun

end Handler

end Requests

section Start

def bootState (scale_factor : ℚ) : DemoState where
  ss_cfg := ⟨false,0,0,false⟩
  suid _ := none
  suid_lookup_data := ⟨true,fun _ => none⟩
  timer_stream := false
  registry_stream := false
  hw_is_present := false
  hw_detection_finished := false
  registry_ss_cfg_received := false
  pwrail_pending_state := .NONE
  registry_fac_cal_received := false
  fac_cal_corr_mat := ⟨0,0,0,fun _ => 0⟩
  fac_cal_bias _ := 0
  fac_cal_scale _ := 0
  fac_cal_version := 0
  scale_factor := scale_factor
  chosen_sample_rate := 0

def bootCommon : CommonState where
  i2c_dummy := 0
  i3c_dummy := 0
  spi_dummy := 0
  pf_cfg := ⟨.SNS_BUS_I2C,0,0,0,0,0,0,0,0,0,.SNS_RAIL_OFF,"","",0,0,0,0,false⟩
  md_cfg := ⟨false,0,0⟩
  registry_pf_cfg_received := false
  registry_md_cfg_received := false
  registry_placement_received := false
  registry_orient_received := false
  registry_req_cnt := 0
  irq_info := ⟨⟨0,0,0,0,false⟩,false,false⟩
  com_port := ⟨0,0,0,⟨.SNS_BUS_I2C,0,0,0,0,0⟩,false⟩
  rail_cfg := ⟨0,.SNS_RAIL_OFF,"",""⟩
  registry_rail_on_state := .SNS_RAIL_OFF
  placement _ := 0
  axis_map := []

/-- The library once its sensors have been initialised. -/
def boot (σ : Type) (hw_idx : Fin 2) (scale_factor : SensorIdx → ℚ) : World σ where
  hw_idx := hw_idx
  common := bootCommon
  states s := bootState (scale_factor s)
  inst := none
  log := []

/-- The library of the first chip, just initialised. -/
def boot0 : World (List Request) := boot (List Request) chip0 (fun _ => 1)

/-- Surroundings in which every call of the framework succeeds. -/
def workingEnv (system_time on_timestamp : UInt64) : Env where
  bus _ := ⟨true,fun _ => 0x40⟩
  system_time := system_time
  on_timestamp := on_timestamp
  convert_ns_to_ticks q := UInt64.ofNat (⌊q⌋.toNat/52)
  encode_ok := true
  send_ok := true
  sensor_stream_ok := true
  stream_ok _ := true
  port_ok := true
  undefined32 := 0
  undefined16 := 0
  stack _ := 0

end Start

end BaseDrivers.DemoSensor
