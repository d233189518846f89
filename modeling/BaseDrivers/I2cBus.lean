import Mathlib.Data.Int.Init
import BaseDrivers.Execution

/-!
# The S3C2440 I2C adapter and its interrupt handler

The adapter's transfer record, its registers and the caller's memory form
one machine state. The handler runs once per bus event. Its register
writes and buffer accesses are recorded in order; the controller performs
one bus operation from what a call has written. The slave is any function
of the bus history: it supplies the status word and the shift register the
next interrupt finds.
-/

set_option autoImplicit false

namespace BaseDrivers.I2cBus
open BaseDrivers.Execution

/-- `enum s3c2440_i2c_state` -/
inductive BusState where
  | STATE_IDLE
  | STATE_START
  | STATE_READ
  | STATE_WRITE
  | STATE_STOP
  deriving DecidableEq, Repr

/-- `struct i2c_msg`. `buf` is an address of the caller's memory. -/
structure I2cMsg where
  addr : UInt16
  flags : UInt16
  len : UInt16
  buf : ℤ
  deriving DecidableEq, Repr, Inhabited

def I2C_M_RD : UInt16 := 0x0001
def S3C2410_IICSTAT_LASTBIT : UInt32 := 0x1
def S3C2410_IICCON_IRQPEND : UInt32 := 0x10
def ENODEV : ℤ := 19
def ETIMEOUT : ℤ := 110

/-- `struct s3c2440_i2c_regs`, as far as a transfer uses it. -/
structure Regs where
  iiccon : UInt32
  iicstat : UInt32
  iicds : UInt32
  deriving DecidableEq, Repr

/-- `struct s3c2440_i2c_xfer_data`. The pointer `msgs` is kept as the part
of the caller's array that starts at it. -/
structure XferData where
  msgs : List I2cMsg
  msg_num : ℤ
  cur_msg : ℤ
  cur_ptr : ℤ
  state : BusState
  err : ℤ
  deriving DecidableEq, Repr

/-- What one call does to the outside, in order. -/
inductive Op where
  | iiccon (v : UInt32)
  | iicstat (v : UInt32)
  | iicds (v : UInt32)
  | load (buf i : ℤ)
  | store (buf i : ℤ)
  | wake_up
  deriving DecidableEq, Repr

abbrev Memory := ℤ → UInt8

structure Machine where
  xfer : XferData
  regs : Regs
  mem : Memory
  ops : List Op

namespace Machine

/-- `*s3c2440_i2c_xfer_data.msgs` -/
def msg (m : Machine) : I2cMsg := m.xfer.msgs.headD default

def setIiccon (v : UInt32) (m : Machine) : Machine :=
  { m with regs.iiccon := v, ops := m.ops++[.iiccon v] }

def setIicstat (v : UInt32) (m : Machine) : Machine :=
  { m with regs.iicstat := v, ops := m.ops++[.iicstat v] }

def setIicds (v : UInt32) (m : Machine) : Machine :=
  { m with regs.iicds := v, ops := m.ops++[.iicds v] }

def setState (s : BusState) (m : Machine) : Machine := { m with xfer.state := s }

/-- `iicds = msgs->buf[cur_ptr]; cur_ptr++` -/
def sendByte (m : Machine) : Machine :=
  let b := (m.mem (m.msg.buf+m.xfer.cur_ptr)).toUInt32
  { m with
    regs.iicds := b
    xfer.cur_ptr := m.xfer.cur_ptr+1
    ops := m.ops++[.load m.msg.buf m.xfer.cur_ptr,.iicds b] }

/-- `msgs->buf[cur_ptr] = iicds; cur_ptr++` -/
def storeByte (m : Machine) : Machine :=
  { m with
    mem := fun a => if a = m.msg.buf+m.xfer.cur_ptr then m.regs.iicds.toUInt8 else m.mem a
    xfer.cur_ptr := m.xfer.cur_ptr+1
    ops := m.ops++[.store m.msg.buf m.xfer.cur_ptr] }

/-- `msgs++; cur_msg++; cur_ptr = 0; state = STATE_START` -/
def nextMsg (m : Machine) : Machine :=
  { m with
    xfer.msgs := m.xfer.msgs.tail
    xfer.cur_msg := m.xfer.cur_msg+1
    xfer.cur_ptr := 0
    xfer.state := .STATE_START }

end Machine

def isRead (msg : I2cMsg) : Bool := msg.flags &&& I2C_M_RD != 0

def s3c2440_i2c_start (m : Machine) : Machine :=
  let m := m.setState .STATE_START
  if isRead m.msg then
    (m.setIicds (m.msg.addr.toUInt32 <<< 1)).setIicstat 0xb0
  else
    (m.setIicds (m.msg.addr.toUInt32 <<< 1)).setIicstat 0xf0

def s3c2440_i2c_stop (err : ℤ) (m : Machine) : Machine :=
  let m := { m with xfer.state := .STATE_STOP, xfer.err := err }
  let m :=
    if isRead m.msg then (m.setIicstat 0x90).setIiccon 0xaf
    else (m.setIicstat 0xd0).setIiccon 0xaf
  { m with ops := m.ops++[.wake_up] }

def isLastMsg (m : Machine) : Bool := m.xfer.cur_msg == m.xfer.msg_num-1

def isEndData (m : Machine) : Bool := decide ((m.msg.len.toNat : ℤ) ≤ m.xfer.cur_ptr)

def isLastData (m : Machine) : Bool := m.xfer.cur_ptr == (m.msg.len.toNat : ℤ)-1

/-- The code after the `next_read` label. -/
def next_read (m : Machine) : Machine :=
  if !isEndData m then
    if isLastData m then m.setIiccon 0x2f else m.setIiccon 0xaf
  else if !isLastMsg m then s3c2440_i2c_start m.nextMsg
  else s3c2440_i2c_stop 0 m

/-- The body of `case STATE_WRITE`. -/
def case_write (iicSt : UInt32) (m : Machine) : Machine :=
  if iicSt &&& S3C2410_IICSTAT_LASTBIT != 0 then s3c2440_i2c_stop (-ENODEV) m
  else if !isEndData m then m.sendByte.setIiccon 0xaf
  else if !isLastMsg m then s3c2440_i2c_start m.nextMsg
  else s3c2440_i2c_stop 0 m

/-- The body of `case STATE_START`. A read jumps to `next_read`, a write
falls through into `STATE_WRITE`. -/
def case_start (iicSt : UInt32) (m : Machine) : Machine :=
  if iicSt &&& S3C2410_IICSTAT_LASTBIT != 0 then s3c2440_i2c_stop (-ENODEV) m
  else if isLastMsg m && isEndData m then s3c2440_i2c_stop 0 m
  else if isRead m.msg then next_read (m.setState .STATE_READ)
  else case_write iicSt (m.setState .STATE_WRITE)

/-- `iiccon &= ~(S3C2410_IICCON_IRQPEND)` -/
def clearPending (m : Machine) : Machine :=
  m.setIiccon (m.regs.iiccon &&& ~~~S3C2410_IICCON_IRQPEND)

/-- The interrupt handler. `iicSt` is what `iicstat` reads as; only its last
bit is used, the arbitration bit leads to a message and nothing else. -/
def s3c2440_i2c_xfer_irq (iicSt : UInt32) (m : Machine) : Machine :=
  let m := { m with ops := [] }
  clearPending <|
    match m.xfer.state with
    | .STATE_START => case_start iicSt m
    | .STATE_WRITE => case_write iicSt m
    | .STATE_READ => next_read m.storeByte
    | _ => m

/-- One operation on the wire. A read says whether its byte is acknowledged. -/
inductive BusEvent where
  | start (addr : ℕ) (read : Bool)
  | write (b : UInt8)
  | read (ack : Bool)
  | stop
  deriving DecidableEq, Repr

def lastIicstat : List Op → Option UInt32 → Option UInt32
  | [], v => v
  | .iicstat v::ops, _ => lastIicstat ops (some v)
  | _::ops, v => lastIicstat ops v

/-- The operation the controller performs once a call has returned. A write
of `iicstat` generates a start or a stop condition; otherwise the pending
transfer goes on in the direction of the mode bits. -/
def busEvent (m : Machine) : BusEvent :=
  match lastIicstat m.ops none with
  | some v =>
    if v &&& 0x20 != 0 then .start (m.regs.iicds.toNat/2) (v &&& 0xc0 == 0x80) else .stop
  | none =>
    if m.regs.iicstat &&& 0xc0 == 0x80 then .read (m.regs.iiccon &&& 0x80 != 0)
    else .write m.regs.iicds.toUInt8

/-- What the next interrupt finds in `iicstat` and `iicds`. -/
structure Reply where
  iicstat : UInt32
  iicds : UInt32
  deriving DecidableEq, Repr

def Reply.nack (r : Reply) : Bool := r.iicstat &&& S3C2410_IICSTAT_LASTBIT != 0

abbrev Slave := List BusEvent → Reply

structure Bus where
  machine : Machine
  history : List BusEvent

/-- One interrupt: the reply to the last bus event, the handler, and the bus
event the handler has caused. -/
def interrupt (slave : Slave) (b : Bus) : Bus :=
  let r := slave b.history
  let m := s3c2440_i2c_xfer_irq r.iicstat
    { b.machine with regs.iicds := r.iicds }
  ⟨m,b.history++[busEvent m]⟩

def busTurn (slave : Slave) (b : Bus) : Bus ⊕ Bus :=
  if b.machine.xfer.state = .STATE_STOP then .inr b else .inl (interrupt slave b)

/-- The state in which `s3c2440_i2c_xfer` goes to sleep. -/
def armed (msgs : List I2cMsg) (m : Machine) : Bus :=
  let m := { m with
    xfer := { m.xfer with
      msgs := msgs
      msg_num := msgs.length
      cur_msg := 0
      cur_ptr := 0
      err := -ENODEV }
    ops := [] }
  let m := s3c2440_i2c_start m
  ⟨m,[busEvent m]⟩

structure Transfer where
  ret : ℤ
  mem : Memory
  history : List BusEvent

/-- What the caller gets when the wait is over. -/
def transferOf (b : Bus) : Transfer :=
  ⟨if b.machine.xfer.state = .STATE_STOP then b.machine.xfer.err else -ETIMEOUT,
    b.machine.mem,b.history⟩

/-- `s3c2440_i2c_xfer`. The wait sees at most `n` interrupts before its
timeout, and the bus is silent after a stop. -/
def s3c2440_i2c_xfer (slave : Slave) (n : ℕ) (msgs : List I2cMsg) (m : Machine) : Transfer :=
  transferOf ((loop (busTurn slave) n (armed msgs m)).elim id id)

end BaseDrivers.I2cBus
