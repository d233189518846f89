import Mathlib.Data.Rat.Floor

/-!
# Data of the demo sensor library

Four sensors of one chip share a common state, and one instance serves all
their clients. Rates are exact rationals. What the code hands to the
framework, and what the bus is made to do, is recorded in order. The list of
client requests belongs to the framework; it is known by its laws only.
-/

set_option autoImplicit false

namespace BaseDrivers.DemoCommon

/-- `demo_sensor_idx` -/
inductive SensorIdx where
  | ACC
  | GYR
  | MOTION
  | TEMP
  deriving DecidableEq, Repr

namespace SensorIdx

def num : SensorIdx → ℕ
  | ACC => 0
  | GYR => 1
  | MOTION => 2
  | TEMP => 3

/-- The order of every loop from `ACC` to `NUMS`. -/
def all : List SensorIdx := [.ACC,.GYR,.MOTION,.TEMP]

theorem num_lt (s : SensorIdx) : s.num < 4 := by cases s <;> decide

theorem mem_all (s : SensorIdx) : s ∈ all := by cases s <;> decide

end SensorIdx

/-- `demo_sensor_type`, a mask with one bit a sensor. -/
abbrev SensorType := BitVec 32

def sensorType (s : SensorIdx) : SensorType := 1#32 <<< s.num

def DEMO_ACCEL : SensorType := sensorType .ACC
def DEMO_GYRO : SensorType := sensorType .GYR
def DEMO_MOTION : SensorType := sensorType .MOTION
def DEMO_TEMP : SensorType := sensorType .TEMP

/-- `mask & (1 << s)` -/
def has (mask : SensorType) (s : SensorIdx) : Bool := mask &&& sensorType s != 0

theorem has_eq (mask : SensorType) (s : SensorIdx) : has mask s = mask.getLsbD s.num := by
  have hs := s.num_lt
  rw [has, sensorType, ← BitVec.twoPow_eq, BitVec.and_twoPow]
  cases hb : mask.getLsbD s.num with
  | true =>
    rw [if_pos rfl, bne_iff_ne]
    intro h0
    have h1 := congrArg (fun x => x.getLsbD s.num) h0
    simp [show s.num < 32 by omega] at h1
  | false => simp

theorem sensorType_getLsbD (s t : SensorIdx) :
    (sensorType s).getLsbD t.num = decide (s = t) := by
  cases s <;> cases t <;> decide

@[simp] theorem has_zero (s : SensorIdx) : has 0#32 s = false := by simp [has]

@[simp] theorem has_or (a b : SensorType) (s : SensorIdx) : has (a ||| b) s = (has a s || has b s) := by
  simp [has_eq]

@[simp] theorem has_and (a b : SensorType) (s : SensorIdx) : has (a &&& b) s = (has a s && has b s) := by
  simp [has_eq]

@[simp] theorem has_not (a : SensorType) (s : SensorIdx) : has (~~~a) s = !has a s := by
  have hs := s.num_lt
  simp [has_eq, show s.num < 32 by omega]

@[simp] theorem has_sensorType (s t : SensorIdx) : has (sensorType s) t = decide (s = t) := by
  rw [has_eq, sensorType_getLsbD]

/-- `sns_sensor_uid` -/
abbrev Suid := List UInt8

/-- The table `suids`, by sensor and hardware index. -/
def suids (s : SensorIdx) (hw_idx : Fin 2) : Suid :=
  match s, hw_idx with
  | .ACC, 0 => [0x4A,0xFF,0x70,0x8E,0xE7,0xC7,0x45,0xC7,0x29,0xA3,0x2A,0x8A,0x83,0x70,0xF1,0xA6]
  | .ACC, 1 => [0x80,0x22,0x58,0x7A,0xE2,0xAB,0xFE,0xAC,0xD2,0x7A,0xE3,0x84,0x95,0xC6,0x7C,0x21]
  | .GYR, 0 => [0x4F,0xD9,0x70,0x73,0x99,0x2C,0xB1,0x0B,0x85,0x92,0x54,0xF2,0xE8,0xE4,0xA4,0xEC]
  | .GYR, 1 => [0x6E,0x3E,0xB6,0x66,0x4D,0x8F,0xD5,0x06,0x33,0x52,0xCC,0xF5,0x97,0xCB,0x0B,0xF5]
  | .MOTION, 0 => [0x0C,0x0B,0x9C,0x07,0xB5,0xA9,0x11,0x7A,0xF2,0x3D,0xA8,0x7D,0x39,0x72,0x5C,0x42]
  | .MOTION, 1 => [0x2C,0x6E,0x2A,0x5C,0x77,0x40,0x46,0x9E,0xB2,0x30,0x78,0x7E,0x76,0x55,0x86,0x41]
  | .TEMP, 0 => [0x79,0x0A,0x08,0xAF,0x62,0xAD,0x92,0xAA,0x7A,0x05,0xBC,0xE8,0x8C,0x7E,0x02,0xEE]
  | .TEMP, 1 => [0x1E,0x70,0x67,0x2B,0x30,0xEF,0x56,0xDD,0x82,0x1C,0xC9,0xB1,0xFC,0x1B,0x4E,0xB7]

/-- The first of the two chips a library drives. -/
def chip0 : Fin 2 := 0

theorem suids_injective (hw_idx : Fin 2) {s t : SensorIdx} (h : suids s hw_idx = suids t hw_idx) :
    s = t := by
  revert h
  cases s <;> cases t <;> revert hw_idx <;> decide

/-- The message ids the library compares with, and any other one. -/
inductive MsgId where
  | SENSOR_CONFIG
  | FLUSH_REQ
  | CAL_RESET
  | PHYSICAL_SENSOR_TEST_CONFIG
  | other (id : ℕ)
  deriving DecidableEq, Repr

/-- What `pb_decode` makes of a request's bytes. A request without a payload
does not touch the buffer of the sensor configuration. -/
structure StdRequest where
  ok : Bool
  batch_period : Option UInt32
  sample_rate : Option ℚ
  deriving DecidableEq

/-- A client request as the framework hands it over. The pointer is kept as
a number, so equal requests are the same request. -/
structure Request where
  pointer : ℕ
  suid : Suid
  message_id : MsgId
  decoded : StdRequest
  deriving DecidableEq

/-- The framework's list of the client requests of an instance. -/
class RequestStore (σ : Type) where
  empty : σ
  requests : σ → List Request
  add_client_request : σ → Request → σ
  remove_client_request : σ → Request → σ
  requests_empty : requests empty = []
  add_perm : ∀ s r, (requests (add_client_request s r)).Perm (r::requests s)
  remove_perm : ∀ s r, (requests (remove_client_request s r)).Perm ((requests s).erase r)

/-- `get_client_request`, from the first one to the last. -/
def get_client_requests {σ : Type} [RequestStore σ] (s : σ) (suid : Suid) : List Request :=
  (RequestStore.requests s).filter (fun r => r.suid == suid)

/-- The plain list is such a store. -/
instance listStore : RequestStore (List Request) where
  empty := []
  requests := id
  add_client_request s r := s++[r]
  remove_client_request s r := s.erase r
  requests_empty := rfl
  add_perm s r := List.perm_append_singleton r s
  remove_perm _ _ := List.Perm.refl _

/-- `sns_registry_phy_sensor_cfg` -/
structure SsCfg where
  is_dri : Bool
  hw_id : UInt64
  res_idx : UInt8
  sync_stream : Bool
  deriving DecidableEq, Repr

inductive BusType where
  | SNS_BUS_I2C
  | SNS_BUS_SPI
  | SNS_BUS_I3C
  | other (id : ℕ)
  deriving DecidableEq, Repr

inductive RailState where
  | SNS_RAIL_OFF
  | SNS_RAIL_ON_LPM
  | SNS_RAIL_ON_NPM
  deriving DecidableEq, Repr

/-- `demo_power_rail_pending_state` -/
inductive Pending where
  | NONE
  | INIT
  | SET_CLIENT_REQ
  | DEINIT
  deriving DecidableEq, Repr

/-- `sns_registry_phy_sensor_pf_cfg` -/
structure PfCfg where
  bus_type : BusType
  bus_instance : UInt8
  slave_config : UInt32
  i3c_address : UInt32
  min_bus_speed_khz : UInt32
  max_bus_speed_khz : UInt32
  reg_addr_type : UInt32
  min_odr : ℕ
  max_odr : ℕ
  num_rail : UInt8
  rail_on_state : RailState
  vddio_rail : String
  vdd_rail : String
  dri_irq_num : UInt16
  irq_pull_type : UInt32
  irq_drive_strength : UInt32
  irq_trigger_type : UInt32
  irq_is_chip_pin : Bool
  deriving DecidableEq, Repr

/-- `sns_registry_md_cfg` -/
structure MdCfg where
  disable : Bool
  thresh : ℚ
  win : ℚ
  deriving DecidableEq, Repr

/-- `sns_com_port_config` -/
structure ComPortConfig where
  bus_type : BusType
  bus_instance : UInt8
  slave_control : UInt32
  min_bus_speed_KHz : UInt32
  max_bus_speed_KHz : UInt32
  reg_addr_type : UInt32
  deriving DecidableEq, Repr

/-- `com_port_info`. Of the handle only whether it is `NULL` is used. -/
structure ComPortInfo where
  i2c_addr : UInt8
  i3c_addr : UInt8
  dummy_byte : UInt8
  com_config : ComPortConfig
  port_handle : Bool
  deriving DecidableEq, Repr

/-- `sns_rail_config` -/
structure RailConfig where
  num_of_rails : UInt8
  rail_vote : RailState
  vddio : String
  vdd : String
  deriving DecidableEq, Repr

/-- `sns_interrupt_req` -/
structure IrqConfig where
  interrupt_num : UInt16
  interrupt_pull_type : UInt32
  interrupt_drive_strength : UInt32
  interrupt_trigger_type : UInt32
  is_chip_pin : Bool
  deriving DecidableEq, Repr

structure IrqInfo where
  irq_config : IrqConfig
  irq_registered : Bool
  irq_ready : Bool
  deriving DecidableEq, Repr

/-- One entry of `axis_map`. -/
structure AxisConversion where
  ipaxis : ℕ
  opaxis : ℕ
  invert : Bool
  deriving DecidableEq, Repr

/-- `demo_common_state`, less the pointers to the four sensor states. -/
structure CommonState where
  i2c_dummy : UInt8
  i3c_dummy : UInt8
  spi_dummy : UInt8
  pf_cfg : PfCfg
  md_cfg : MdCfg
  registry_pf_cfg_received : Bool
  registry_md_cfg_received : Bool
  registry_placement_received : Bool
  registry_orient_received : Bool
  registry_req_cnt : UInt8
  irq_info : IrqInfo
  com_port : ComPortInfo
  rail_cfg : RailConfig
  registry_rail_on_state : RailState
  placement : ℕ → ℚ
  axis_map : List AxisConversion

/-- What one bus read finds: whether it worked, and the transfer buffer after
it, whatever that holds. -/
structure BusRead where
  ok : Bool
  temp_buf : ℕ → UInt8

/-- `demo_com_read_wrapper`: the transfer brings `dummy_byte` bytes first, and
the caller's buffer is filled with what follows them in any case. -/
def demo_com_read_wrapper (com_port : ComPortInfo) (r : BusRead) (i : ℕ) : UInt8 :=
  r.temp_buf (i+com_port.dummy_byte.toNat)

/-- `demo_ss_cfg_t`. Of the stream only whether it is `NULL` is used. -/
structure DemoSsCfg where
  suid : Suid
  ss_cfg : SsCfg
  wtm : UInt16
  sample_rate : ℚ
  report_rate : ℚ
  timer_is_active : Bool
  sample_intvl : UInt64
  sample_intvl_req : UInt64
  timer_stream : Bool
  deriving DecidableEq

/-- `demo_instance_state`. `fifo_enabled` is the field of `fifo_cfg`. -/
structure DemoInstanceState where
  reset_done : Bool
  force_reset : Bool
  ss_cfgs : SensorIdx → DemoSsCfg
  fifo_enabled : SensorType
  irq_stream : Bool
  ascp_stream : Bool
  timer_stream : Bool
  irq_info : IrqInfo
  com_port : ComPortInfo
  flushing_sensors : SensorType
  sensor_enabled : SensorType

end BaseDrivers.DemoCommon
