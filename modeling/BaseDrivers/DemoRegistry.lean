import BaseDrivers.DemoSensor

/-!
# The registry and the notifications

A sensor asks the registry for its groups once it knows the registry, parses
the answers as they arrive, and detects the hardware when enough of them are
there. How the items of an answer are turned into a configuration is the
framework's code; it is given as a decoder.
-/

set_option autoImplicit false

namespace BaseDrivers.DemoRegistry
open BaseDrivers.DemoCommon BaseDrivers.DemoInstance BaseDrivers.DemoSensor

inductive Group where
  | REG_CONFIG_SPEC
  | REG_CONFIG_ACCEL
  | REG_CONFIG_GYRO
  | REG_CONFIG_TEMP
  | REG_CONFIG_MD
  | REG_PLATFORM_CONFIG
  | REG_PLATFORM_PLACEMENT
  | REG_PLATFORM_ORIENT
  | REG_PLATFORM_FAC_CAL_ACCEL
  | REG_PLATFORM_FAC_CAL_GYRO
  | REG_PLATFORM_FAC_CAL_TEMP
  | REG_PLATFORM_CONFIG_MD
  deriving DecidableEq, Repr

def Group.suffix : Group → String
  | REG_CONFIG_SPEC => ".demo_spec.dummy_byte"
  | REG_CONFIG_ACCEL => ".accel.config"
  | REG_CONFIG_GYRO => ".gyro.config"
  | REG_CONFIG_TEMP => ".temp.config"
  | REG_CONFIG_MD => ".md.config"
  | REG_PLATFORM_CONFIG => "_platform.config"
  | REG_PLATFORM_PLACEMENT => "_platform.placement"
  | REG_PLATFORM_ORIENT => "_platform.orient"
  | REG_PLATFORM_FAC_CAL_ACCEL => "_platform.accel.fac_cal"
  | REG_PLATFORM_FAC_CAL_GYRO => "_platform.gyro.fac_cal"
  | REG_PLATFORM_FAC_CAL_TEMP => "_platform.temp.fac_cal"
  | REG_PLATFORM_CONFIG_MD => "_platform.md.config"

def bytes (s : String) : List UInt8 := s.toList.map (fun c => UInt8.ofNat c.toNat)

/-- The table `demo_registry_cfg`, without the terminating zero. -/
def demo_registry_cfg (hw_idx : Fin 2) (g : Group) : List UInt8 :=
  bytes ("demo_"++(if hw_idx.val = 0 then "0" else "1")++g.suffix)

/-- `!strncmp(buf, name, buf_len)` for a name with a terminating zero. -/
def strncmp : List UInt8 → List UInt8 → Bool
  | [], _ => true
  | c::buf, name =>
    if c = name.headD 0 then if c = 0 then true else strncmp buf name.tail else false

/-- The framework's decoder of registry items. Each parse function gives the
buffer after it, whether or not the whole answer can be decoded. -/
structure Decoder (ι : Type) where
  ok : ι → Bool
  parse_phy_sensor_cfg : ι → SsCfg → SsCfg
  parse_phy_sensor_pf_cfg : ι → PfCfg → PfCfg
  parse_md_cfg : ι → MdCfg → MdCfg
  parse_float_arr : ι → String → (ℕ → ℚ) → ℕ → ℚ
  parse_axis_orientation : ι → List AxisConversion → List AxisConversion
  parse_corr_matrix_3 : ι → Matrix3 → Matrix3
  version : ι → UInt32

structure RegistryEvent (ι : Type) where
  is_read_event : Bool
  name_ok : Bool
  group_name : List UInt8
  items : ι

/-- The branches of the dispatcher. -/
inductive Branch where
  | sensor_cfg
  | platform_cfg
  | platform_cfg_md
  | placement
  | orient
  | fac_cal
  | spec
  | unknown
  deriving DecidableEq, Repr

def dispatch (hw_idx : Fin 2) (buf : List UInt8) : Branch :=
  let is (g : Group) : Bool := strncmp buf (demo_registry_cfg hw_idx g)
  if is .REG_CONFIG_ACCEL || is .REG_CONFIG_GYRO || is .REG_CONFIG_TEMP || is .REG_CONFIG_MD then
    .sensor_cfg
  else if is .REG_PLATFORM_CONFIG then .platform_cfg
  else if is .REG_PLATFORM_CONFIG_MD then .platform_cfg_md
  else if is .REG_PLATFORM_PLACEMENT then .placement
  else if is .REG_PLATFORM_ORIENT then .orient
  else if is .REG_PLATFORM_FAC_CAL_ACCEL || is .REG_PLATFORM_FAC_CAL_GYRO ||
      is .REG_PLATFORM_FAC_CAL_TEMP then .fac_cal
  else if is .REG_CONFIG_SPEC then .spec
  else .unknown

/-- The branch that parses the answer for a group. -/
def Group.branch : Group → Branch
  | REG_CONFIG_SPEC => .spec
  | REG_CONFIG_ACCEL => .sensor_cfg
  | REG_CONFIG_GYRO => .sensor_cfg
  | REG_CONFIG_TEMP => .sensor_cfg
  | REG_CONFIG_MD => .sensor_cfg
  | REG_PLATFORM_CONFIG => .platform_cfg
  | REG_PLATFORM_PLACEMENT => .placement
  | REG_PLATFORM_ORIENT => .orient
  | REG_PLATFORM_FAC_CAL_ACCEL => .fac_cal
  | REG_PLATFORM_FAC_CAL_GYRO => .fac_cal
  | REG_PLATFORM_FAC_CAL_TEMP => .fac_cal
  | REG_PLATFORM_CONFIG_MD => .platform_cfg_md

/-- No name in the table is taken for another one. -/
theorem dispatch_group (hw_idx : Fin 2) (g : Group) :
    dispatch hw_idx (demo_registry_cfg hw_idx g) = g.branch := by
  revert hw_idx
  cases g <;> decide

def toUInt8 (env : Env) (q : ℚ) : UInt8 :=
  if 0 ≤ ⌊q⌋ ∧ ⌊q⌋ < 2^8 then UInt8.ofNat ⌊q⌋.toNat else env.undefined16.toUInt8

/-- `roundf`: halves go away from zero. -/
def roundf (q : ℚ) : ℤ := if 0 ≤ q then ⌊q+1/2⌋ else -⌊-q+1/2⌋

/-- The dummy bytes of a bus as the platform branch picks them. -/
def dummyOf (c : CommonState) : BusType → UInt8
  | .SNS_BUS_I3C => c.i3c_dummy
  | .SNS_BUS_I2C => c.i2c_dummy
  | .SNS_BUS_SPI => c.spi_dummy
  | .other _ => 0

/-- The common state once a platform configuration was taken in. -/
def withPlatform (p : PfCfg) (c : CommonState) : CommonState :=
  { c with
    registry_pf_cfg_received := true
    com_port :=
      { c.com_port with
        i2c_addr := p.slave_config.toUInt8
        i3c_addr := p.i3c_address.toUInt8
        dummy_byte := dummyOf c p.bus_type
        com_config :=
          { bus_type := p.bus_type
            bus_instance := p.bus_instance
            slave_control := if p.bus_type = .SNS_BUS_I3C then p.i3c_address else p.slave_config
            min_bus_speed_KHz := p.min_bus_speed_khz
            max_bus_speed_KHz := p.max_bus_speed_khz
            reg_addr_type := p.reg_addr_type } }
    rail_cfg :=
      { c.rail_cfg with num_of_rails := p.num_rail, vddio := p.vddio_rail, vdd := p.vdd_rail }
    registry_rail_on_state := p.rail_on_state
    irq_info :=
      { c.irq_info with
        irq_config :=
          { interrupt_num := p.dri_irq_num
            interrupt_pull_type := p.irq_pull_type
            interrupt_drive_strength := p.irq_drive_strength
            interrupt_trigger_type := p.irq_trigger_type
            is_chip_pin := p.irq_is_chip_pin } } }

section Parse
variable {σ ι : Type} [RequestStore σ] (dec : Decoder ι) (env : Env) (s : SensorIdx)

def parse_sensor_cfg (it : ι) (w : World σ) : World σ :=
  let c := dec.parse_phy_sensor_cfg it (w.states s).ss_cfg
  let w := w.setState s { w.states s with ss_cfg := c }
  if dec.ok it then
    (w.setState s { w.states s with registry_ss_cfg_received := true }).note (.attributes s c)
  else w

def parse_platform_cfg (it : ι) (w : World σ) : World σ :=
  let p := dec.parse_phy_sensor_pf_cfg it w.common.pf_cfg
  let w := { w with common.pf_cfg := p }
  if dec.ok it then
    demo_sensor_register_pf_resource env { w with common := withPlatform p w.common }
  else w

def parse_platform_cfg_md (it : ι) (w : World σ) : World σ :=
  { w with common :=
      { w.common with
        md_cfg := dec.parse_md_cfg it w.common.md_cfg
        registry_md_cfg_received := dec.ok it || w.common.registry_md_cfg_received } }

def parse_placement (it : ι) (w : World σ) : World σ :=
  { w with common :=
      { w.common with
        placement := dec.parse_float_arr it "placement" w.common.placement
        registry_placement_received := dec.ok it || w.common.registry_placement_received } }

def parse_orient (it : ι) (w : World σ) : World σ :=
  { w with common :=
      { w.common with
        axis_map := dec.parse_axis_orientation it w.common.axis_map
        registry_orient_received := dec.ok it || w.common.registry_orient_received } }

/-- Factory calibration as stored once it could be decoded. -/
def withFacCal (version : UInt32) (bias : ℕ → ℚ) (d : DemoState) : DemoState :=
  { d with
    registry_fac_cal_received := true
    fac_cal_version := version
    fac_cal_bias := fun i => if i < 3 then roundf (bias i*d.scale_factor) else d.fac_cal_bias i
    fac_cal_corr_mat :=
      if d.fac_cal_scale 0 ≠ 0 then
        { d.fac_cal_corr_mat with
          e00 := d.fac_cal_scale 0, e11 := d.fac_cal_scale 1, e22 := d.fac_cal_scale 2 }
      else d.fac_cal_corr_mat }

def parse_fac_cal (it : ι) (w : World σ) : World σ :=
  let d := { w.states s with
    fac_cal_scale := dec.parse_float_arr it "scale" (w.states s).fac_cal_scale
    fac_cal_corr_mat := dec.parse_corr_matrix_3 it (w.states s).fac_cal_corr_mat }
  if dec.ok it then
    w.setState s (withFacCal (dec.version it) (dec.parse_float_arr it "bias" env.stack) d)
  else w.setState s d

def parse_spec (it : ι) (w : World σ) : World σ :=
  if dec.ok it then
    let data := dec.parse_float_arr it "dummy_byte" env.stack
    { w with common :=
        { w.common with
          i2c_dummy := toUInt8 env (data 0)
          i3c_dummy := toUInt8 env (data 1)
          spi_dummy := toUInt8 env (data 2) } }
  else w

def parse_branch (b : Branch) (it : ι) (w : World σ) : World σ :=
  match b with
  | .sensor_cfg => parse_sensor_cfg dec s it w
  | .platform_cfg => parse_platform_cfg dec env it w
  | .platform_cfg_md => parse_platform_cfg_md dec it w
  | .placement => parse_placement dec it w
  | .orient => parse_orient dec it w
  | .fac_cal => parse_fac_cal dec env s it w
  | .spec => parse_spec dec env it w
  | .unknown => w

def parsed (group : List UInt8) (w : World σ) : World σ :=
  { w.note (.registry_parsed s group) with
    common.registry_req_cnt := w.common.registry_req_cnt-1 }

def demo_sensor_parse_registry (w : World σ) (e : RegistryEvent ι) : World σ :=
  if e.is_read_event && e.name_ok then
    parsed s e.group_name (parse_branch dec env s (dispatch w.hw_idx e.group_name) e.items w)
  else w

def demo_sensor_process_registry_event (events : List (RegistryEvent ι)) (w : World σ) : World σ :=
  if !(w.states s).registry_stream || events.isEmpty then w
  else
    let w := events.foldl (demo_sensor_parse_registry dec env s) w
    if w.common.registry_req_cnt = 0 then w.removeRegistryStream s else w

end Parse

section Notify
variable {σ ι : Type} [RequestStore σ]

def send_registry_request (env : Env) (s : SensorIdx) (w : World σ) (g : Group) : World σ :=
  if env.encode_ok then
    { w.note (.registry_read s (demo_registry_cfg w.hw_idx g) env.send_ok) with
      common.registry_req_cnt := w.common.registry_req_cnt+1 }
  else w

/-- The groups a sensor asks for; the accelerometer also asks for the common
ones. -/
def groups : SensorIdx → List Group
  | .ACC => [.REG_CONFIG_SPEC,.REG_PLATFORM_CONFIG,.REG_PLATFORM_PLACEMENT,.REG_PLATFORM_ORIENT,
      .REG_CONFIG_ACCEL,.REG_PLATFORM_FAC_CAL_ACCEL]
  | .GYR => [.REG_CONFIG_GYRO,.REG_PLATFORM_FAC_CAL_GYRO]
  | .MOTION => [.REG_CONFIG_MD,.REG_PLATFORM_CONFIG_MD]
  | .TEMP => [.REG_CONFIG_TEMP,.REG_PLATFORM_FAC_CAL_TEMP]

def demo_sensor_send_registry_request (env : Env) (s : SensorIdx) (w : World σ) : World σ :=
  if (w.states s).registry_stream then w
  else
    let w :=
      if env.sensor_stream_ok then
        (w.note (.create_registry_stream s)).setState s
          { w.states s with registry_stream := true }
      else w
    (groups s).foldl (send_registry_request env s) w

/-- `sns_suid_lookup_get` into a field that is still null. -/
def lookup_get (t : DataType) (d : DemoState) : DemoState :=
  if (d.suid t).isNone then
    { d with suid := fun u => if u = t then d.suid_lookup_data.found t else d.suid u }
  else d

/-- `found` are the ids that became known since the last call. -/
def demo_sensor_process_suid_event (env : Env) (s : SensorIdx) (found : DataType → Option Suid)
    (w : World σ) : World σ :=
  if !(w.states s).suid_lookup_data.suid_stream || (w.states s).suid_lookup_data.complete then w
  else
    let known := (w.states s).suid_lookup_data
    let w := w.setState s
      { w.states s with suid_lookup_data := { known with
          found := fun t => (known.found t).orElse fun _ => found t } }
    let asked := ((w.states s).suid .registry).isSome
    let w := w.setState s (lookup_get .registry (w.states s))
    let w :=
      if !asked && ((w.states s).suid .registry).isSome then demo_sensor_send_registry_request env s w
      else w
    let w := w.setState s
      (lookup_get .async_com_port (lookup_get .interrupt (lookup_get .timer (w.states s))))
    if (w.states s).suid_lookup_data.complete then
      (w.note (.lookup_deinit s)).setState s
        { w.states s with suid_lookup_data.suid_stream := false }
    else w

/-- What has arrived for a sensor when it is notified. -/
structure Arrived (ι : Type) where
  env : Env
  found : DataType → Option Suid
  registry : List (RegistryEvent ι)
  timer : List TimerEvent

def detection_due (s : SensorIdx) (w : World σ) : Bool :=
  (w.states s).registry_ss_cfg_received && w.common.registry_pf_cfg_received &&
    w.common.registry_placement_received && !(w.states s).hw_is_present &&
    (w.states s).pwrail_pending_state == .NONE

def demo_sensor_notify_event (dec : Decoder ι) (s : SensorIdx) (a : Arrived ι) (w : World σ) :
    World σ × Bool :=
  let w := demo_sensor_process_suid_event a.env s a.found w
  let w := demo_sensor_process_registry_event dec a.env s a.registry w
  let r := demo_sensor_process_timer_event a.env s a.timer w
  if detection_due s r.1 then (demo_start_hw_detect a.env s r.1,r.2) else r

end Notify

end BaseDrivers.DemoRegistry
