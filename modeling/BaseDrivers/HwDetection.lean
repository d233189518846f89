import Mathlib.Tactic.SplitIfs
import BaseDrivers.SensorMonitor

/-!
# Looking for the chip

The detection registers a port, reads the chip id and gives the port back. In
between the platform may fail at any call. The results of the registration
and of the transfers are dropped, and the transfer buffer is copied to the
caller whether it was filled or not, so the outcome is read off whatever the
buffer holds.
-/

set_option autoImplicit false

namespace BaseDrivers.HwDetection
open BaseDrivers.DemoCommon hiding demo_com_read_wrapper
open BaseDrivers.DemoInstance (Env)
open BaseDrivers.DemoSensor hiding demo_register_com_port demo_sensor_register_pf_resource
  demo_switch_bus demo_start_hw_detect

/-- What the platform answers. `register_ok` is the result of the
registration and `handle` whether it leaves a handle that is not `NULL`. -/
structure Platform where
  scp_service : Bool
  register_ok : Bool
  handle : Bool
  open_ok : Bool
  switch_bus : BusRead
  chip_id : BusRead

/-- The result and the caller's buffer. The test for a missing handle looks at
the address of the handle, which is never `NULL`. -/
def demo_com_read_wrapper (scp_service : Bool) (com_port : ComPortInfo) (r : BusRead)
    (buffer : List UInt8) : Bool × List UInt8 :=
  if !scp_service then (false,buffer)
  else (r.ok,(List.range buffer.length).map (DemoCommon.demo_com_read_wrapper com_port r))

section Detect
variable {σ : Type}

def demo_register_com_port (p : Platform) (w : World σ) : Bool × World σ :=
  if !p.scp_service then (false,w)
  else if w.common.com_port.port_handle then (true,w)
  else if p.register_ok && p.handle then
    let w := (w.note (.register_port w.common.com_port.com_config)).note .open_port
    (p.open_ok,{ w with common.com_port.port_handle := true })
  else (p.register_ok,{ w with common.com_port.port_handle := p.handle })

def demo_sensor_register_pf_resource (p : Platform) (w : World σ) : World σ :=
  demo_register_power_rail (demo_register_com_port p w).2

/-- A read of the chip id, which reaches the bus where there is a service. -/
def chipRead (p : Platform) (r : BusRead) (buffer : List UInt8) (w : World σ) :
    (Bool × List UInt8) × World σ :=
  (demo_com_read_wrapper p.scp_service w.common.com_port r buffer,
    if p.scp_service then w.note (.chip_read DEMO_CHIP_ID_ADDR) else w)

def demo_switch_bus (p : Platform) (w : World σ) : Bool × World σ :=
  if w.common.com_port.com_config.bus_type = .SNS_BUS_SPI then
    let r := chipRead p p.switch_bus [0,0] w
    (r.1.1,r.2)
  else (true,w)

def demo_read_chip_id (p : Platform) (buffer : List UInt8) (w : World σ) :
    (Bool × List UInt8) × World σ :=
  chipRead p p.chip_id buffer w

def isChipId (b : UInt8) : Bool := b == DEMO_CHIP_ID_0 || b == DEMO_CHIP_ID_1

/-- The world after the detection, and whether it reports success. -/
def demo_start_hw_detect (env : Env) (p : Platform) (s : SensorIdx) (w : World σ) :
    World σ × Bool :=
  let w := if w.common.com_port.port_handle then w else demo_sensor_register_pf_resource p w
  let w := { w with common.rail_cfg.rail_vote := w.common.registry_rail_on_state }
  let w := demo_sensor_update_power_rail_vote w.common.rail_cfg.rail_vote w
  let w := demo_sensor_start_power_rail_timer env s (off2idle env) .INIT w
  let w := (demo_switch_bus p w).2
  let r := demo_read_chip_id p [0,0] w
  let w := r.2
  let present := isChipId (r.1.2.getD 0 0)
  let w := w.setState s { w.states s with hw_is_present := present }
  let w :=
    if w.common.com_port.port_handle then
      let w := (w.note .close_port).note .deregister_port
      { w with common.com_port.port_handle := false }
    else w
  let w := demo_sensor_update_power_rail_vote .SNS_RAIL_OFF w
  (w.setState s { w.states s with hw_detection_finished := true },present)

theorem register_dummy (p : Platform) (w : World σ) :
    (demo_register_com_port p w).2.common.com_port.dummy_byte = w.common.com_port.dummy_byte := by
  rw [demo_register_com_port]
  split_ifs <;> rfl

theorem switch_bus_common (p : Platform) (w : World σ) :
    (demo_switch_bus p w).2.common = w.common := by
  simp only [demo_switch_bus, chipRead]
  split_ifs <;> rfl

theorem chip_id_byte (p : Platform) (w : World σ) :
    isChipId ((demo_read_chip_id p [0,0] w).1.2.getD 0 0) =
      (p.scp_service && isChipId (p.chip_id.temp_buf w.common.com_port.dummy_byte.toNat)) := by
  rw [demo_read_chip_id, chipRead, demo_com_read_wrapper]
  cases p.scp_service with
  | false => rfl
  | true =>
    show isChipId (p.chip_id.temp_buf (0+w.common.com_port.dummy_byte.toNat)) = _
    rw [Nat.zero_add, Bool.true_and]

/-- What is found is what lies behind the dummy bytes of the buffer. -/
theorem hw_present_read (env : Env) (p : Platform) (s : SensorIdx) (w : World σ) :
    ((demo_start_hw_detect env p s w).1.states s).hw_is_present =
      (p.scp_service && isChipId (p.chip_id.temp_buf w.common.com_port.dummy_byte.toNat)) := by
  let w₁ := if w.common.com_port.port_handle then w else demo_sensor_register_pf_resource p w
  let w₂ : World σ := { w₁ with common.rail_cfg.rail_vote := w₁.common.registry_rail_on_state }
  let w₃ := demo_sensor_update_power_rail_vote w₂.common.rail_cfg.rail_vote w₂
  let w₄ := demo_sensor_start_power_rail_timer env s (off2idle env) .INIT w₃
  have h₁ : w₁.common.com_port.dummy_byte = w.common.com_port.dummy_byte := by
    show (if _ then w else _).common.com_port.dummy_byte = _
    split_ifs
    · rfl
    · exact register_dummy p w
  have h₅ : (demo_switch_bus p w₄).2.common.com_port.dummy_byte =
      w.common.com_port.dummy_byte := by
    rw [switch_bus_common, (SensorMonitor.start_rest env s (off2idle env) .INIT w₃).2.1]
    exact h₁
  let w₆ := (demo_read_chip_id p [0,0] (demo_switch_bus p w₄).2).2
  let present := isChipId ((demo_read_chip_id p [0,0] (demo_switch_bus p w₄).2).1.2.getD 0 0)
  let w₇ := w₆.setState s { w₆.states s with hw_is_present := present }
  let w₈ : World σ :=
    if w₇.common.com_port.port_handle then
      { (w₇.note .close_port).note .deregister_port with common.com_port.port_handle := false }
    else w₇
  have h₇ : (w₇.states s).hw_is_present = present := by
    show (if s = s then _ else _ : DemoState).hw_is_present = present
    rw [if_pos rfl]
  have h₈ : w₈.states = w₇.states := by
    show (if _ then _ else w₇).states = w₇.states
    split_ifs <;> rfl
  have hfound : ((demo_start_hw_detect env p s w).1.states s).hw_is_present = present := by
    show (if s = s then _ else _ : DemoState).hw_is_present = present
    rw [if_pos rfl]
    show (w₈.states s).hw_is_present = present
    rw [h₈, h₇]
  rw [hfound, ← h₅]
  exact chip_id_byte p _

/-- The port of the detection is registered and its handle is not `NULL`. -/
def Registered (p : Platform) (w : World σ) : Prop :=
  w.common.com_port.port_handle = true ∨
    (p.scp_service = true ∧ p.register_ok = true ∧ p.handle = true)

/-- The chip is only reported after a good read of its id, exactly where the
port is there and the read succeeds, or the buffer does not look like an id.
A failed transfer leaves the caller's buffer as it was, exactly where there is
no service, or nothing fails, or the buffers are the same. -/
theorem hw_detection_iff (env : Env) (p : Platform) (s : SensorIdx) (w : World σ)
    (scp_service : Bool) (com_port : ComPortInfo) (r : BusRead) (buffer : List UInt8) :
    ((((demo_start_hw_detect env p s w).1.states s).hw_is_present = true →
        Registered p w ∧ p.chip_id.ok = true ∧
          isChipId (p.chip_id.temp_buf w.common.com_port.dummy_byte.toNat) = true) ↔
      (Registered p w ∧ p.chip_id.ok = true) ∨
        ¬ (p.scp_service = true ∧
          isChipId (p.chip_id.temp_buf w.common.com_port.dummy_byte.toNat) = true)) ∧
    (((demo_com_read_wrapper scp_service com_port r buffer).1 = false →
        (demo_com_read_wrapper scp_service com_port r buffer).2 = buffer) ↔
      scp_service = false ∨ r.ok = true ∨
        ∀ i (hi : i < buffer.length), r.temp_buf (i+com_port.dummy_byte.toNat) = buffer[i]) := by
  constructor
  · rw [hw_present_read, Bool.and_eq_true]
    tauto
  · rw [demo_com_read_wrapper]
    cases scp_service with
    | false => simp
    | true =>
      simp only [Bool.not_true, Bool.false_eq_true, if_false, false_or, Bool.true_eq_false]
      cases r.ok with
      | true => simp
      | false =>
        rw [imp_iff_right rfl, List.ext_getElem_iff]
        simp [DemoCommon.demo_com_read_wrapper]

end Detect

/-- The read fails and the buffer holds what an earlier one left there. -/
def failingPlatform : Platform where
  scp_service := true
  register_ok := true
  handle := true
  open_ok := true
  switch_bus := ⟨false,fun _ => 0x40⟩
  chip_id := ⟨false,fun _ => 0x40⟩

/-- The chip is reported without a single successful transfer, and the
caller's buffer is overwritten. -/
theorem hw_detection_stale :
    ¬ (((demo_start_hw_detect (workingEnv 0 0) failingPlatform .ACC boot0).1.states
        .ACC).hw_is_present = true →
      Registered failingPlatform boot0 ∧ failingPlatform.chip_id.ok = true ∧
        isChipId (failingPlatform.chip_id.temp_buf boot0.common.com_port.dummy_byte.toNat) =
          true) ∧
    ¬ ((demo_com_read_wrapper true boot0.common.com_port failingPlatform.chip_id [0,0]).1 = false →
      (demo_com_read_wrapper true boot0.common.com_port failingPlatform.chip_id [0,0]).2 =
        [0,0]) := by
  constructor
  · intro h
    exact absurd (h (by decide)).2.1 (by decide)
  · intro h
    exact absurd (h (by decide)) (by decide)

end BaseDrivers.HwDetection
