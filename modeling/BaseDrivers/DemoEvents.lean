import BaseDrivers.DemoInstance
import BaseDrivers.DemoFifo

/-!
# Events of the sensor instance

The framework notifies the instance of inputs on its interrupt stream and on
the timer streams of its sensors. A notification reads the chip and publishes
what it finds. Values are kept as raw words, before they are scaled. The loop
over the FIFO is given a bound on its turns; a notification in which it does
not end has no result.
-/

set_option autoImplicit false

namespace BaseDrivers.DemoEvents
open BaseDrivers.DemoCommon BaseDrivers.DemoInstance BaseDrivers.DemoFifo

def DEMO_ACC_X_ADDR : UInt8 := 0x03
def DEMO_GYR_X_ADDR : UInt8 := 0x06
def DEMO_TEMP_ADDR : UInt8 := 0x09
def DEMO_INT_STATUS_1_ADDR : UInt8 := 0x0D
def DEMO_FIFO_LENGTH_ADDR : UInt8 := 0x15
def DEMO_FIFO_DATA_ADDR : UInt8 := 0x16
def DEMO_INT_IO_CTRL_ADDR : UInt8 := 0x38
def DEMO_INT_MAP2_FEAT_ADDR : UInt8 := 0x3B

/-- An input of the interrupt stream, with whether `pb_decode` accepts it. -/
inductive IrqInput where
  | REG_EVENT
  | EVENT (decodes : Bool)
  | other (id : ℕ)
  deriving DecidableEq, Repr

/-- An input of a timer stream, with what the chip answers if it is read. -/
inductive TimerInput where
  | SENSOR_EVENT (decodes : Bool) (data : BusRead)
  | REG_EVENT
  | CONFIG
  | other (id : ℕ)

/-- What one notification brings and finds. `is_level_trig` is the test of the
trigger type in `IS_IRQ_LEVEL_TRIG`. -/
structure Notified where
  irq : List IrqInput
  timer : SensorIdx → List TimerInput
  status : BusRead
  acc : BusRead
  gyr : BusRead
  fifo_len : BusRead
  fifo_data : BusRead
  past : Buf
  turns : ℕ
  full : BusRead
  is_level_trig : UInt32 → Bool

/-- What a notification sends to the clients and to the interrupt stream. -/
inductive Report where
  | sample (e : Sample)
  | temperature (suid : Suid) (raw : Option (BitVec 16))
  | irq_cleared
  deriving DecidableEq, Repr

structure Notice where
  inst : Inst
  reports : List Report

namespace Notice

def emit (e : Effect) (v : Notice) : Notice := { v with inst := v.inst.emit e }

def publish (rs : List Report) (v : Notice) : Notice := { v with reports := v.reports++rs }

end Notice

/-- Three words read from `addr`, published for the sensor. -/
def readSample (s : SensorIdx) (addr : UInt8) (data : BusRead) (v : Notice) : Notice :=
  let buffer := demo_com_read_wrapper v.inst.istate.com_port data
  (v.emit (.read addr)).publish [.sample ⟨(v.inst.cfg s).suid,word (buffer 0) (buffer 1),
    word (buffer 2) (buffer 3),word (buffer 4) (buffer 5)⟩]

def demo_handle_acc_drdy_irq_event : BusRead → Notice → Notice := readSample .ACC DEMO_ACC_X_ADDR
def demo_handle_gyr_drdy_irq_event : BusRead → Notice → Notice := readSample .GYR DEMO_GYR_X_ADDR

/-- The word `0x8000` stands for the default temperature. -/
def readTemperature (data : BusRead) (v : Notice) : Notice :=
  let buffer := demo_com_read_wrapper v.inst.istate.com_port data
  (v.emit (.read DEMO_TEMP_ADDR)).publish [.temperature (v.inst.cfg .TEMP).suid
    (if buffer 0 = 0 ∧ buffer 1 = 0x80 then none else some (word (buffer 0) (buffer 1)))]

def demo_handle_polling_timer_event (data : BusRead) (v : Notice) : SensorIdx → Notice
  | .ACC => readSample .ACC DEMO_ACC_X_ADDR data v
  | .GYR => readSample .GYR DEMO_GYR_X_ADDR data v
  | .MOTION => v
  | .TEMP => readTemperature data v

def handle_wtm (n : Notified) (v : Notice) : Option Notice :=
  (demo_handle_wtm_irq_event v.inst.istate n.fifo_len n.fifo_data n.past n.turns).map
    (fun events => ((v.emit (.read DEMO_FIFO_LENGTH_ADDR)).emit
      (.read DEMO_FIFO_DATA_ADDR)).publish (events.map .sample))

/-- The handlers of the status bits. -/
def handle_status (n : Notified) (v : Notice) : Option Notice :=
  let v := v.emit (.read DEMO_INT_STATUS_1_ADDR)
  let buffer := demo_com_read_wrapper v.inst.istate.com_port n.status
  let v := if buffer 1 &&& 0x20 ≠ 0 then demo_handle_acc_drdy_irq_event n.acc v else v
  let v := if buffer 1 &&& 0x10 ≠ 0 then demo_handle_gyr_drdy_irq_event n.gyr v else v
  let r := if buffer 1 &&& 0x40 ≠ 0 then handle_wtm n v else some v
  r.map (fun v =>
    if buffer 1 &&& 0x80 ≠ 0 then demo_handle_acc_drdy_irq_event n.full v else v)

/-- A registration configures the interrupt pin and its map. -/
def irq_input (x : Inst) : IrqInput → Inst
  | .REG_EVENT => (x.emit (.write DEMO_INT_IO_CTRL_ADDR [0x05,0x05])).emit
      (.write DEMO_INT_MAP2_FEAT_ADDR [0x00,0x50])
  | .EVENT _ => x
  | .other _ => x

/-- The interrupts among the inputs, with whether each is accepted. -/
def interrupts (irq : List IrqInput) : List Bool :=
  irq.filterMap (fun i => match i with | .EVENT decodes => some decodes | _ => none)

/-- `event_num`, which counts in 16 bits. -/
def eventNum (irq : List IrqInput) : UInt16 := UInt16.ofNat (interrupts irq).length

/-- Only the last interrupt is decoded. -/
def demo_handle_irq (n : Notified) (v : Notice) : Option (Notice × UInt16) :=
  if !v.inst.istate.irq_stream then some (v,0)
  else
    let v := { v with inst := n.irq.foldl irq_input v.inst }
    let event_num := eventNum n.irq
    if event_num ≠ 0 ∧ (interrupts n.irq).getLast? = some true then
      (handle_status n v).map (fun v => (v,event_num))
    else some (v,event_num)

def demo_clear_irq (n : Notified) (v : Notice) : Notice :=
  if !n.is_level_trig v.inst.istate.irq_info.irq_config.interrupt_trigger_type ||
      !v.inst.istate.irq_stream then v
  else v.publish [.irq_cleared]

def demo_instance_process_irq_event (n : Notified) (v : Notice) : Option Notice :=
  (demo_handle_irq n v).map (fun r => if r.2 ≠ 0 then demo_clear_irq n r.1 else r.1)

def timer_input (s : SensorIdx) (v : Notice) : TimerInput → Notice
  | .SENSOR_EVENT decodes data =>
    if decodes && (v.inst.cfg s).timer_is_active then demo_handle_polling_timer_event data v s else v
  | .REG_EVENT => v
  | .CONFIG => v
  | .other _ => v

def demo_instance_process_timer_event (n : Notified) (v : Notice) : Notice :=
  SensorIdx.all.foldl (fun v s =>
    if (v.inst.cfg s).timer_stream then (n.timer s).foldl (timer_input s) v else v) v

/-- The asynchronous port has nothing to process. -/
def demo_instance_notify_event (n : Notified) (x : Inst) : Option Notice :=
  (demo_instance_process_irq_event n ⟨x.emit (.bus_power true),[]⟩).map
    (fun v => (demo_instance_process_timer_event n v).emit (.bus_power false))

end BaseDrivers.DemoEvents
