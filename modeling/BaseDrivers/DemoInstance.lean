import BaseDrivers.Execution
import BaseDrivers.DemoCommon

/-!
# The sensor instance

The instance configures the chip, polls the sensors without an interrupt
line, publishes the physical configuration and answers flushes. Its calls
take the instance state and what the framework and the bus have been asked
for so far. What the surroundings answer during one call is an environment.
-/

set_option autoImplicit false

namespace BaseDrivers.DemoInstance
open BaseDrivers.Execution BaseDrivers.DemoCommon

def DEMO_ACC_CONF_ADDR : UInt8 := 0x20
def DEMO_GYR_CONF_ADDR : UInt8 := 0x21
def DEMO_FIFO_WTM_ADDR : UInt8 := 0x35
def DEMO_FIFO_CONF_ADDR : UInt8 := 0x36
def DEMO_FIFO_CTRL_ADDR : UInt8 := 0x37
def DEMO_CMD_ADDR : UInt8 := 0x7E
def DEMO_ACC_CONF_ODR_MASK : UInt8 := 0x0F

/-- The data streams an instance creates. -/
inductive Stream where
  | poll (s : SensorIdx)
  | irq
  | ascp
  | timer
  deriving DecidableEq, Repr

/-- `sns_std_sensor_physical_config_event`, as far as it varies. -/
structure PhysicalConfig where
  sample_rate : ℚ
  water_mark : ℕ
  active_current : ℕ
  resolution : ℚ
  range : ℚ × ℚ
  dri_enabled : Bool
  deriving DecidableEq

/-- What the instance does to the bus and the framework. -/
inductive Effect where
  | bus_power (on : Bool)
  | read (addr : UInt8)
  | write (addr : UInt8) (bytes : List UInt8)
  | config_event (suid : Suid) (e : PhysicalConfig)
  | flush_event (suid : Suid)
  | irq_request (c : IrqConfig) (accepted : Bool)
  | timer_config (s : SensorIdx) (is_periodic : Bool) (start_time period : UInt64)
  | create (st : Stream)
  | remove (st : Stream)
  | register_port (c : ComPortConfig)
  | open_port
  | close_port
  | deregister_port
  | ascp_request (c : ComPortConfig)
  deriving DecidableEq

/-- What one call finds outside. Conversions of a rate that does not fit its
integer type are undefined in C and yield one of the two undefined values; a
local array starts with what the stack holds. -/
structure Env where
  bus : UInt8 → BusRead
  system_time : UInt64
  on_timestamp : UInt64
  convert_ns_to_ticks : ℚ → UInt64
  encode_ok : Bool
  send_ok : Bool
  sensor_stream_ok : Bool
  stream_ok : Stream → Bool
  port_ok : Bool
  undefined32 : UInt32
  undefined16 : UInt16
  stack : ℕ → ℚ

/-- The instance state and what has been asked for, in order. -/
structure Inst where
  istate : DemoInstanceState
  out : List Effect

namespace Inst

def emit (e : Effect) (x : Inst) : Inst := { x with out := x.out++[e] }

def setCfg (s : SensorIdx) (c : DemoSsCfg) (x : Inst) : Inst :=
  { x with istate.ss_cfgs := fun t => if t = s then c else x.istate.ss_cfgs t }

def cfg (x : Inst) (s : SensorIdx) : DemoSsCfg := x.istate.ss_cfgs s

end Inst

def toUInt32 (env : Env) (q : ℚ) : UInt32 :=
  if 0 ≤ ⌊q⌋ ∧ ⌊q⌋ < 2^32 then UInt32.ofNat ⌊q⌋.toNat else env.undefined32

/-- A float quotient converted to 16 bits. -/
def quotient16 (env : Env) (a b : ℚ) : UInt16 :=
  if b = 0 then env.undefined16
  else if 0 ≤ ⌊a/b⌋ ∧ ⌊a/b⌋ < 2^16 then UInt16.ofNat ⌊a/b⌋.toNat else env.undefined16

def demo_start_sensor_polling_timer (env : Env) (s : SensorIdx) (x : Inst) : Inst :=
  let x :=
    if (x.cfg s).timer_stream || !env.stream_ok (.poll s) then x
    else (x.emit (.create (.poll s))).setCfg s { x.cfg s with timer_stream := true }
  if env.encode_ok then
    (x.emit (.timer_config s true env.system_time (x.cfg s).sample_intvl)).setCfg s
      { x.cfg s with timer_is_active := true }
  else x

def demo_set_sensor_polling_config (env : Env) (s : SensorIdx) (x : Inst) : Inst :=
  if 0 < (x.cfg s).sample_intvl_req then
    if (x.cfg s).sample_intvl ≠ (x.cfg s).sample_intvl_req then
      demo_start_sensor_polling_timer env s
        (x.setCfg s { x.cfg s with sample_intvl := (x.cfg s).sample_intvl_req })
    else x
  else if (x.cfg s).timer_is_active then
    let y := x.setCfg s
      { x.cfg s with sample_intvl := 0, timer_is_active := false, timer_stream := false }
    if (x.cfg s).timer_stream then y.emit (.remove (.poll s)) else y
  else x

/-- The labels of the fall-through switch, from the top. -/
def odrLabels : List ℕ := [6400,3200,1600,800,400,200,100,50,25,12,6,3,1,0]

/-- The register value: one for every label from the rate's own on. -/
def odrValue (rate : ℕ) : UInt8 := UInt8.ofNat (odrLabels.dropWhile (· != rate)).length

/-- The thresholds are those of `SENSOR_HZ`, with their fractions cut off. -/
def odrRate (rate : ℕ) : ℕ :=
  if rate > 1600 then 3200
  else if rate > 800 then 1600
  else if rate > 400 then 800
  else if rate > 200 then 400
  else if rate > 100 then 200
  else if rate > 50 then 100
  else if rate > 25 then 50
  else if rate > 12 then 25
  else if rate > 6 then 12
  else if rate > 3 then 6
  else if rate > 1 then 3
  else if rate > 0 then 1
  else 0

/-- The returned value and the rate written back. -/
def demo_compute_odr (env : Env) (sample_rate : ℚ) : UInt8 × ℚ :=
  let rate := odrRate (toUInt32 env sample_rate).toNat
  (odrValue rate,rate)

def GET_LSB (v : ℕ) : UInt8 := UInt8.ofNat (v &&& 0x00FF)
def GET_MSB (v : ℕ) : UInt8 := UInt8.ofNat (v &&& 0xFF00)

def demo_config_fifo (x : Inst) : Inst :=
  let x := x.emit (.write DEMO_FIFO_CONF_ADDR [0x00,0x00])
  let x := x.emit (.write DEMO_FIFO_CTRL_ADDR [0x01,0x00])
  let wtm := (x.cfg .ACC).wtm.toNat*3
  let x := x.emit (.write DEMO_FIFO_WTM_ADDR [GET_LSB wtm,GET_MSB wtm])
  let acc := has x.istate.sensor_enabled .ACC
  let gyr := has x.istate.sensor_enabled .GYR
  let x := if acc then { x with istate.fifo_enabled := x.istate.fifo_enabled ||| DEMO_ACCEL } else x
  let x := if gyr then { x with istate.fifo_enabled := x.istate.fifo_enabled ||| DEMO_GYRO } else x
  x.emit (.write DEMO_FIFO_CONF_ADDR
    [0x00,(if acc then 0x02 else 0x00) ||| (if gyr then 0x04 else 0x00)])

/-- The rate is brought into the limits and to a rate of the chip. -/
def clampRate (pf_cfg : PfCfg) (rate : ℚ) : ℚ :=
  if 0 < rate then min (max rate pf_cfg.min_odr) pf_cfg.max_odr else 0

def powerMode (rate : ℚ) : UInt8 :=
  if rate = 0 then 0x00 else if rate < 15 then 0x30 else if rate ≥ 400 then 0x70 else 0x40

/-- The part of `demo_config_hw` for one sensor in the FIFO. -/
def config_imu (env : Env) (pf_cfg : PfCfg) (s : SensorIdx) (addr : UInt8) (x : Inst) : Inst :=
  let conf := demo_com_read_wrapper x.istate.com_port (env.bus addr)
  let x := x.emit (.read addr)
  let r := demo_compute_odr env (clampRate pf_cfg (x.cfg s).sample_rate)
  let x := x.setCfg s
    { x.cfg s with sample_rate := r.2, wtm := quotient16 env r.2 (x.cfg s).report_rate }
  let bytes := [(conf 0 &&& ~~~DEMO_ACC_CONF_ODR_MASK) ||| r.1,powerMode r.2]
  let is_dri := (x.cfg s).ss_cfg.is_dri
  let x := if is_dri then demo_config_fifo x else x
  let x := x.emit (.write addr bytes)
  if is_dri then x else demo_set_sensor_polling_config env s x

def config_temp (env : Env) (pf_cfg : PfCfg) (x : Inst) : Inst :=
  let r := demo_compute_odr env (clampRate pf_cfg (x.cfg .TEMP).sample_rate)
  let x := x.setCfg .TEMP { x.cfg .TEMP with sample_rate := r.2 }
  if (x.cfg .TEMP).ss_cfg.is_dri then x else demo_set_sensor_polling_config env .TEMP x

def demo_config_hw (env : Env) (pf_cfg : PfCfg) (x : Inst) : Inst :=
  let x := if has x.istate.sensor_enabled .ACC then config_imu env pf_cfg .ACC DEMO_ACC_CONF_ADDR x
    else x
  let x := if has x.istate.sensor_enabled .GYR then config_imu env pf_cfg .GYR DEMO_GYR_CONF_ADDR x
    else x
  if has x.istate.sensor_enabled .TEMP then config_temp env pf_cfg x else x

/-- `demo_ss_rsl` -/
def demo_ss_rsl : SensorIdx → List ℚ
  | .ACC => [61/1000,122/1000,244/1000,488/1000]
  | .GYR => [250/65536,500/65536,1000/65536,2000/65536,4000/65536]
  | .MOTION => []
  | .TEMP => [61/1000]

/-- `demo_ss_ranges` -/
def demo_ss_ranges : SensorIdx → List (ℚ × ℚ)
  | .ACC => [(-2,2),(-4,4),(-8,8),(-16,16)]
  | .GYR => [(-125,125),(-250,250),(-500,500),(-1000,1000),(-2000,2000)]
  | .MOTION => []
  | .TEMP => [(-40,85)]

/-- Entries the tables do not give are zero. -/
def physicalConfig (s : SensorIdx) (c : DemoSsCfg) : PhysicalConfig where
  sample_rate := c.sample_rate
  water_mark := if c.ss_cfg.is_dri then 2 else 1
  active_current := 180
  resolution := (demo_ss_rsl s).getD c.ss_cfg.res_idx.toNat 0
  range := (demo_ss_ranges s).getD c.ss_cfg.res_idx.toNat (0,0)
  dri_enabled := c.ss_cfg.is_dri

def send_config (s : SensorIdx) (x : Inst) : Inst :=
  if has x.istate.sensor_enabled s then
    x.emit (.config_event (x.cfg s).suid (physicalConfig s (x.cfg s)))
  else x

def demo_send_config_event (x : Inst) : Inst := SensorIdx.all.foldl (fun x s => send_config s x) x

/-- `ss_cfg` is the configuration in the sensor's own state. -/
def demo_hal_register_interrupt (env : Env) (ss_cfg : SsCfg) (x : Inst) : Inst :=
  if !ss_cfg.is_dri then x
  else if x.istate.irq_info.irq_registered then x
  else if env.encode_ok then
    let x := x.emit (.irq_request x.istate.irq_info.irq_config env.send_ok)
    { x with istate.irq_info.irq_registered := true }
  else x

/-- One turn of the loop in `demo_send_flush_done`. -/
def flushTurn (x : SensorType × Inst) : (SensorType × Inst) ⊕ Inst :=
  if x.1 = 0 then .inr x.2
  else if has x.1 .ACC then
    .inl (x.1 &&& ~~~DEMO_ACCEL,x.2.emit (.flush_event (x.2.cfg .ACC).suid))
  else .inl (0,x.2)

/-- The loop ends within three turns, whatever the mask. -/
def demo_send_flush_done (flush_sensors : SensorType) (x : Inst) : Inst :=
  (loop flushTurn 3 (flush_sensors,x)).elim Prod.snd id

/-- The requests of the sensor layer to the instance. -/
inductive ConfigRequest where
  | CAL_RESET
  | FLUSH_REQ (flush_sensor : SensorType)
  | SENSOR_CONFIG (sensor_idx : SensorIdx)
  | PHYSICAL_SENSOR_TEST_CONFIG
  | other (id : ℕ)
  deriving DecidableEq

def flush_req (flush_sensor : SensorType) (x : Inst) : Inst :=
  if x.istate.flushing_sensors ≠ 0 then
    { x with istate.flushing_sensors := x.istate.flushing_sensors ||| flush_sensor }
  else
    let x := { x with istate.flushing_sensors := x.istate.flushing_sensors ||| flush_sensor }
    let x := demo_send_flush_done flush_sensor x
    { x with istate.flushing_sensors := 0 }

def sensor_config (env : Env) (pf_cfg : PfCfg) (ss_cfg : SsCfg) (s : SensorIdx) (x : Inst) : Inst :=
  let x := { x with istate.sensor_enabled := x.istate.sensor_enabled ||| sensorType s }
  demo_config_hw env pf_cfg (demo_send_config_event (demo_hal_register_interrupt env ss_cfg x))

def demo_instance_set_client_config (env : Env) (pf_cfg : PfCfg) (ss_cfgs : SensorIdx → SsCfg)
    (r : ConfigRequest) (x : Inst) : Inst :=
  let x := x.emit (.bus_power true)
  let x :=
    match r with
    | .FLUSH_REQ flush_sensor => flush_req flush_sensor x
    | .SENSOR_CONFIG s => sensor_config env pf_cfg (ss_cfgs s) s x
    | _ => x
  x.emit (.bus_power false)

def demo_hal_reset_device (x : Inst) : Inst :=
  if !x.istate.reset_done || x.istate.force_reset then
    let x := x.emit (.write DEMO_CMD_ADDR [0xAF,0xDE])
    { x with istate.force_reset := false, istate.reset_done := true }
  else x

/-- `sns_sensor_util_remove_sensor_instance_stream` on a stream that may be
`NULL`. -/
def removeStream (st : Stream) (present : Bool) (x : Inst) : Inst :=
  if present then x.emit (.remove st) else x

def removePoll (s : SensorIdx) (x : Inst) : Inst :=
  (removeStream (.poll s) (x.cfg s).timer_stream x).setCfg s
    { x.cfg s with timer_stream := false }

def demo_instance_clean (x : Inst) : Inst :=
  let x := removeStream .irq x.istate.irq_stream x
  let x := removeStream .ascp x.istate.ascp_stream x
  let x := removeStream .timer x.istate.timer_stream x
  let x := { x with
    istate.irq_stream := false, istate.ascp_stream := false, istate.timer_stream := false }
  let x := SensorIdx.all.foldl (fun x s => removePoll s x) x
  let x := (x.emit .close_port).emit .deregister_port
  { x with istate.com_port.port_handle := false }

def createPoll (env : Env) (s : SensorIdx) (x : Inst) : Inst :=
  if env.stream_ok (.poll s) then
    (x.emit (.create (.poll s))).setCfg s { x.cfg s with timer_stream := true }
  else x

def createStream (env : Env) (st : Stream) (x : Inst) : Inst :=
  if env.stream_ok st then x.emit (.create st) else x

/-- The instance state after it was cleared and filled in. -/
def initialState (hw_idx : Fin 2) (common : CommonState) (ss_cfgs : SensorIdx → SsCfg) :
    DemoInstanceState where
  reset_done := false
  force_reset := false
  ss_cfgs s := ⟨suids s hw_idx,ss_cfgs s,0,0,0,false,0,0,false⟩
  fifo_enabled := 0
  irq_stream := false
  ascp_stream := false
  timer_stream := false
  irq_info := { common.irq_info with irq_ready := false, irq_registered := false }
  com_port := common.com_port
  flushing_sensors := 0
  sensor_enabled := 0

/-- Whether the call succeeds, and what it leaves behind. The code returned at
the end is that of the last stream. -/
def demo_instance_init (env : Env) (hw_idx : Fin 2) (common : CommonState)
    (ss_cfgs : SensorIdx → SsCfg) : Bool × Inst :=
  let x : Inst := ⟨initialState hw_idx common ss_cfgs,[]⟩
  let x := SensorIdx.all.foldl (fun x s => createPoll env s x) x
  let x := createStream env .irq x
  let x := createStream env .ascp x
  let x := createStream env .timer x
  let x := { x with
    istate.irq_stream := env.stream_ok .irq
    istate.ascp_stream := env.stream_ok .ascp
    istate.timer_stream := env.stream_ok .timer }
  let x :=
    if env.port_ok then
      let x := x.emit (.register_port common.com_port.com_config)
      { x with istate.com_port.port_handle := true }
    else x
  if !x.istate.com_port.port_handle || !x.istate.ascp_stream || !x.istate.irq_stream then
    (false,demo_instance_clean x)
  else
    let x := (x.emit .open_port).emit (.bus_power false)
    let x := x.emit (.ascp_request common.com_port.com_config)
    (env.stream_ok .timer,demo_hal_reset_device x)

end BaseDrivers.DemoInstance
