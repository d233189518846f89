import Mathlib.Logic.Function.Basic
import Mathlib.Tactic.SplitIfs
import BaseDrivers.I2cTransfer

/-!
# The memory chip behind the adapter

The driver hands one byte to the kernel's SMBus layer, which turns it into
messages, and the adapter's interrupt handler puts them on the bus. The chip
on the bus keeps 256 bytes; after a write it may be busy and refuse its
address. Seen from the program that opens the device, the four together are a
memory whose reads and writes can fail.
-/

set_option autoImplicit false

namespace BaseDrivers.At24cxx
open BaseDrivers.Execution BaseDrivers.I2cBus BaseDrivers.I2cTransfer

section Chip

/-- What the chip expects after a start with its address. -/
inductive Phase where
  | idle
  | addressed
  | writing
  | reading
  deriving DecidableEq, Repr

structure Chip where
  cells : UInt8 → UInt8
  pointer : UInt8
  phase : Phase
  out : Reply

/-- The address in `I2C_BOARD_INFO`. -/
def CHIP_ADDR : ℕ := 0x50

def ack : Reply := ⟨0,0⟩
def refusal : Reply := ⟨S3C2410_IICSTAT_LASTBIT,0⟩

/-- One bus event. The first byte written is the place of the next access,
which moves on with every byte. -/
def observe (busy : Bool) (c : Chip) : BusEvent → Chip
  | .start addr read =>
    if addr = CHIP_ADDR ∧ busy = false then
      { c with phase := if read then .reading else .addressed, out := ack }
    else { c with phase := .idle, out := refusal }
  | .write b =>
    match c.phase with
    | .addressed => { c with pointer := b, phase := .writing, out := ack }
    | .writing =>
      { c with cells := Function.update c.cells c.pointer b, pointer := c.pointer+1, out := ack }
    | _ => { c with out := refusal }
  | .read _ =>
    if c.phase = .reading then
      { c with pointer := c.pointer+1, out := ⟨0,(c.cells c.pointer).toUInt32⟩ }
    else { c with out := refusal }
  | .stop => { c with phase := .idle }

/-- The chip as the adapter's slave. -/
def slave (busy : Bool) (c : Chip) : Slave := fun h => (h.foldl (observe busy) c).out

end Chip

section Layers

/-- The adapter as the kernel sees it. -/
abbrev MasterXfer := List I2cMsg → Machine → Transfer

/-- What a call into the kernel gives back, and what has been on the bus. -/
structure Answer where
  status : ℤ
  history : List BusEvent

/-- A negative result of the adapter is handed on. -/
def answered (t : Transfer) (status : ℤ) : Answer := ⟨if t.ret < 0 then t.ret else status,t.history⟩

/-- The SMBus layer of the kernel, for an adapter that only transfers
messages. The protocol fixes the messages; where the layer keeps its buffers,
and in which state it finds the adapter, is its own affair. -/
structure SmbusLayer where
  i2c_smbus_read_byte_data : MasterXfer → UInt16 → UInt8 → Answer
  i2c_smbus_write_byte_data : MasterXfer → UInt16 → UInt8 → UInt8 → Answer
  read_messages : ∀ xfer addr command, ∃ (m : Machine) (b d : ℤ), m.mem b = command ∧
    let t := xfer [⟨addr,0,1,b⟩,⟨addr,I2C_M_RD,1,d⟩] m
    i2c_smbus_read_byte_data xfer addr command = answered t (t.mem d).toNat
  write_messages : ∀ xfer addr command value, ∃ (m : Machine) (b : ℤ), m.mem b = command ∧
    m.mem (b+1) = value ∧
    i2c_smbus_write_byte_data xfer addr command value = answered (xfer [⟨addr,0,2,b⟩] m) 0

def EIO : ℤ := 5

/-- `unsigned char data = ` the status. -/
def toByte (status : ℤ) : UInt8 := UInt8.ofNat (status%256).toNat

/-- The chip, the memory of the program, and what its calls have returned. -/
structure Device where
  chip : Chip
  user : UInt32 → UInt8
  returned : List ℤ

variable (k : SmbusLayer) (writable : UInt32 → Bool)

/-- The adapter with the chip behind it. It sees at most `n` interrupts. -/
def adapter (busy : Bool) (n : ℕ) (c : Chip) : MasterXfer := s3c2440_i2c_xfer (slave busy c) n

def after (busy : Bool) (c : Chip) (a : Answer) : Chip := a.history.foldl (observe busy) c

def copy_to_user (dst : UInt32) (v : UInt8) (user : UInt32 → UInt8) : UInt32 → UInt8 :=
  if writable dst then Function.update user dst v else user

/-- The byte goes to the address that `buf[1]` is, not to `buf+1`. -/
def at24cxx_read (busy : Bool) (n : ℕ) (buf : UInt32) (d : Device) : Device :=
  let r := k.i2c_smbus_read_byte_data (adapter busy n d.chip) 0x50 (d.user buf)
  { chip := after busy d.chip r
    user := copy_to_user writable (d.user (buf+1)).toUInt32 (toByte r.status) d.user
    returned := d.returned++[1] }

def at24cxx_write (busy : Bool) (n : ℕ) (buf : UInt32) (d : Device) : Device :=
  let r := k.i2c_smbus_write_byte_data (adapter busy n d.chip) 0x50 (d.user buf) (d.user (buf+1))
  { d with
    chip := after busy d.chip r
    returned := d.returned++[if r.status = 0 then 2 else - EIO] }

end Layers

section Transactions
variable (c : Chip) (mem : Memory)

@[simp] theorem ack_taken : ack.nack = false := by decide

@[simp] theorem refusal_refuses : refusal.nack = true := by decide

theorem write_direction (len : UInt16) (b : ℤ) : isRead ⟨0x50,0,len,b⟩ = false := by
  simp [isRead]

theorem read_direction (len : UInt16) (b : ℤ) : isRead ⟨0x50,I2C_M_RD,len,b⟩ = true := by
  simp [isRead, I2C_M_RD]

theorem slave_start (busy read : Bool) (h : List BusEvent) :
    slave busy c (h++[.start 0x50 read]) = if busy then refusal else ack := by
  rw [slave, List.foldl_append]
  cases busy <;> rfl

/-- A busy chip refuses its address. -/
theorem busy_refuses (b : ℤ) (len : UInt16) (msgs : List I2cMsg) :
    transaction (slave true c) (⟨0x50,0,len,b⟩::msgs) mem [] =
      ⟨-ENODEV,mem,[.start 0x50 false,.stop]⟩ := by
  have hstart : (slave true c ([]++[.start 0x50 false])).nack = true := by
    rw [slave_start]
    rfl
  rw [transaction_cons, afterStart, write_direction]
  exact if_pos hstart

def writeOnBus (b : ℤ) : Transfer :=
  ⟨0,mem,[.start 0x50 false,.write (mem b),.write (mem (b+1)),.stop]⟩

def readOnBus (b d : ℤ) : Transfer :=
  ⟨0,stored mem d (c.cells (mem b)),
    [.start 0x50 false,.write (mem b),.start 0x50 true,.read false,.stop]⟩

theorem write_transaction (b : ℤ) :
    transaction (slave false c) [⟨0x50,0,2,b⟩] mem [] = writeOnBus mem b := by
  have hbytes : bufBytes mem ⟨0x50,0,2,b⟩ = [mem b,mem (b+1)] := by
    simp [bufBytes, List.range_succ]
  have hstart : (slave false c ([]++[.start 0x50 false])).nack = false := by
    rw [slave_start]
    rfl
  have hsent : sendBytes (slave false c) [mem b,mem (b+1)] [.start 0x50 false] =
      ([.start 0x50 false,.write (mem b),.write (mem (b+1))],true) := by
    simp [sendBytes, slave, observe, CHIP_ADDR]
  have hsend : afterSend (slave false c) ⟨0x50,0,2,b⟩ [] 0 mem [.start 0x50 false] =
      writeOnBus mem b := by
    rw [afterSend, List.drop_zero, hbytes, hsent]
    rfl
  rw [transaction_cons, afterStart, write_direction]
  exact (if_neg (Bool.eq_false_iff.mp hstart)).trans hsend

theorem read_transaction (b d : ℤ) :
    transaction (slave false c) [⟨0x50,0,1,b⟩,⟨0x50,I2C_M_RD,1,d⟩] mem [] =
      readOnBus c mem b d := by
  have hbytes : bufBytes mem ⟨0x50,0,1,b⟩ = [mem b] := by
    simp [bufBytes, List.range_succ]
  have hstart : (slave false c ([]++[.start 0x50 false])).nack = false := by
    rw [slave_start]
    rfl
  have hsent : sendBytes (slave false c) [mem b] [.start 0x50 false] =
      ([.start 0x50 false,.write (mem b)],true) := by
    simp [sendBytes, slave, observe, CHIP_ADDR]
  have hagain : (slave false c ([.start 0x50 false,.write (mem b)]++[.start 0x50 true])).nack =
      false := by
    rw [slave_start]
    rfl
  have hbyte : slave false c [.start 0x50 false,.write (mem b),.start 0x50 true,.read false] =
      ⟨0,(c.cells (mem b)).toUInt32⟩ := by
    simp [slave, observe, CHIP_ADDR]
  -- the only byte is the last one, so it is not acknowledged
  have hreceive : afterReceive (slave false c) ⟨0x50,I2C_M_RD,1,d⟩ [] 0 mem
      [.start 0x50 false,.write (mem b),.start 0x50 true] = readOnBus c mem b d := by
    simp [afterReceive, receiveBytes, transaction, hbyte, readOnBus]
  have hsecond : transaction (slave false c) [⟨0x50,I2C_M_RD,1,d⟩] mem
      [.start 0x50 false,.write (mem b)] = readOnBus c mem b d := by
    rw [transaction_cons, afterStart, read_direction]
    exact (if_neg (Bool.eq_false_iff.mp hagain)).trans hreceive
  have hsend : afterSend (slave false c) ⟨0x50,0,1,b⟩ [⟨0x50,I2C_M_RD,1,d⟩] 0 mem
      [.start 0x50 false] = readOnBus c mem b d := by
    rw [afterSend, List.drop_zero, hbytes, hsent]
    exact hsecond
  rw [transaction_cons, afterStart, write_direction]
  exact (if_neg (Bool.eq_false_iff.mp hstart)).trans hsend

end Transactions

section Answers
variable (k : SmbusLayer) (c : Chip) (n : ℕ) (command value : UInt8)

theorem read_refused (hn : 4 ≤ n) : k.i2c_smbus_read_byte_data (adapter true n c) 0x50 command =
    ⟨-ENODEV,[.start 0x50 false,.stop]⟩ := by
  obtain ⟨m,b,d,-,hanswer⟩ := k.read_messages (adapter true n c) 0x50 command
  have hxfer := xfer_reference (slave true c) [⟨0x50,0,1,b⟩,⟨0x50,I2C_M_RD,1,d⟩] m n
    (List.cons_ne_nil _ _) hn
  rw [busy_refuses] at hxfer
  rw [hanswer, adapter, hxfer]
  rfl

theorem read_answered (hn : 4 ≤ n) : k.i2c_smbus_read_byte_data (adapter false n c) 0x50 command =
    ⟨(c.cells command).toNat,
      [.start 0x50 false,.write command,.start 0x50 true,.read false,.stop]⟩ := by
  obtain ⟨m,b,d,hcommand,hanswer⟩ := k.read_messages (adapter false n c) 0x50 command
  have hxfer := xfer_reference (slave false c) [⟨0x50,0,1,b⟩,⟨0x50,I2C_M_RD,1,d⟩] m n
    (List.cons_ne_nil _ _) hn
  rw [read_transaction, readOnBus, hcommand] at hxfer
  rw [hanswer, adapter, hxfer]
  simp [answered, stored]

theorem write_refused (hn : 4 ≤ n) :
    k.i2c_smbus_write_byte_data (adapter true n c) 0x50 command value =
      ⟨-ENODEV,[.start 0x50 false,.stop]⟩ := by
  obtain ⟨m,b,-,-,hanswer⟩ := k.write_messages (adapter true n c) 0x50 command value
  have hxfer := xfer_reference (slave true c) [⟨0x50,0,2,b⟩] m n (List.cons_ne_nil _ _)
    (Nat.le_of_succ_le hn)
  rw [busy_refuses] at hxfer
  rw [hanswer, adapter, hxfer]
  rfl

theorem write_answered (hn : 4 ≤ n) :
    k.i2c_smbus_write_byte_data (adapter false n c) 0x50 command value =
      ⟨0,[.start 0x50 false,.write command,.write value,.stop]⟩ := by
  obtain ⟨m,b,hcommand,hvalue,hanswer⟩ := k.write_messages (adapter false n c) 0x50 command value
  have hxfer := xfer_reference (slave false c) [⟨0x50,0,2,b⟩] m n (List.cons_ne_nil _ _)
    (Nat.le_of_succ_le hn)
  rw [write_transaction, writeOnBus, hcommand, hvalue] at hxfer
  rw [hanswer, adapter, hxfer]
  rfl

end Answers

section Calls
variable (k : SmbusLayer) (writable : UInt32 → Bool)

/-- What the program asks for. The chip may be busy, and the adapter sees so
many interrupts. -/
inductive Call where
  | read (busy : Bool) (n : ℕ) (buf : UInt32)
  | write (busy : Bool) (n : ℕ) (buf : UInt32)
  | store (a : UInt32) (v : UInt8)

def step (d : Device) : Call → Device
  | .read busy n buf => at24cxx_read k writable busy n buf d
  | .write busy n buf => at24cxx_write k busy n buf d
  | .store a v => { d with user := Function.update d.user a v }

/-- The interrupts of two messages with one byte each. -/
def Enough : Call → Prop
  | .read _ n _ => 4 ≤ n
  | .write _ n _ => 4 ≤ n
  | .store _ _ => True

instance : DecidablePred Enough
  | .read _ n _ => inferInstanceAs (Decidable (4 ≤ n))
  | .write _ n _ => inferInstanceAs (Decidable (4 ≤ n))
  | .store _ _ => .isTrue trivial

/-- The chip as a memory, with what the program sees. -/
structure Store where
  cells : UInt8 → UInt8
  user : UInt32 → UInt8
  returned : List ℤ

/-- What a call means. A busy chip makes a write fail and a read bring the
error's low byte. -/
def meant (m : Store) : Call → Store
  | .read busy _ buf =>
    { m with
      user := copy_to_user writable (m.user (buf+1)).toUInt32
        (if busy then toByte (-ENODEV) else m.cells (m.user buf)) m.user
      returned := m.returned++[1] }
  | .write busy _ buf =>
    if busy then { m with returned := m.returned++[- EIO] }
    else { m with
      cells := Function.update m.cells (m.user buf) (m.user (buf+1))
      returned := m.returned++[2] }
  | .store a v => { m with user := Function.update m.user a v }

def shown (d : Device) : Store := ⟨d.chip.cells,d.user,d.returned⟩

theorem toByte_toNat (b : UInt8) : toByte (b.toNat : ℤ) = b := by
  have hb := b.toNat_lt
  have hmod : ((b.toNat : ℤ)%256).toNat = b.toNat := by omega
  rw [toByte, hmod]
  exact UInt8.ofNat_toNat

theorem step_shown (d : Device) (c : Call) (hc : Enough c) :
    shown (step k writable d c) = meant writable (shown d) c := by
  cases c with
  | read busy n buf =>
    cases busy with
    | true =>
      have hr := read_refused k d.chip n (d.user buf) hc
      simp only [step, at24cxx_read, hr]
      rfl
    | false =>
      have hr := read_answered k d.chip n (d.user buf) hc
      simp only [step, at24cxx_read, hr, toByte_toNat]
      simp [shown, meant, after, observe, CHIP_ADDR]
  | write busy n buf =>
    cases busy with
    | true =>
      have hw := write_refused k d.chip n (d.user buf) (d.user (buf+1)) hc
      simp only [step, at24cxx_write, hw]
      rfl
    | false =>
      have hw := write_answered k d.chip n (d.user buf) (d.user (buf+1)) hc
      simp only [step, at24cxx_write, hw]
      rfl
  | store a v => rfl

/-- Through all the layers the chip is a memory: every write that returns 2
is stored, every one that returns an error changes nothing, and every read
brings what was stored last, or the low byte of an error. -/
theorem chip_is_memory (cs : List Call) (hcs : ∀ c ∈ cs, Enough c) (d : Device) :
    shown (run (step k writable) d cs) = run (meant writable) (shown d) cs := by
  induction cs generalizing d with
  | nil => rfl
  | cons c cs ih =>
    rw [run, run, ih (fun c hc => hcs c (List.mem_cons_of_mem _ hc)),
      step_shown k writable d c (hcs c List.mem_cons_self)]

def exampleMachine (command value : UInt8) : Machine :=
  ⟨⟨[],0,0,0,.STATE_IDLE,0⟩,⟨0,0,0⟩,fun a => if a = 0 then command else value,[]⟩

/-- A layer that keeps its buffers at 0 and 8. -/
def exampleLayer : SmbusLayer where
  i2c_smbus_read_byte_data xfer addr command :=
    let t := xfer [⟨addr,0,1,0⟩,⟨addr,I2C_M_RD,1,8⟩] (exampleMachine command 0)
    answered t (t.mem 8).toNat
  i2c_smbus_write_byte_data xfer addr command value :=
    answered (xfer [⟨addr,0,2,0⟩] (exampleMachine command value)) 0
  read_messages _ _ command := ⟨exampleMachine command 0,0,8,rfl,rfl⟩
  write_messages _ _ command value := ⟨exampleMachine command value,0,rfl,rfl,rfl⟩

def exampleDevice : Device := ⟨⟨fun _ => 0xFF,0,.idle,ack⟩,fun _ => 0,[]⟩

/-- The byte 9 is written to the place 7, at first to a busy chip. -/
def exampleCalls : List Call :=
  [.store 0 7,.store 1 9,.write true 4 0,.write false 4 0,.read false 4 0]

theorem chip_is_memory_written :
    let m := shown (run (step exampleLayer fun _ => true) exampleDevice exampleCalls)
    m.returned = [-5,2,1] ∧ m.cells 7 = 9 ∧ m.user 9 = 9 := by
  intro m
  have hm : m = run (meant fun _ => true) (shown exampleDevice) exampleCalls :=
    chip_is_memory exampleLayer (fun _ => true) exampleCalls (by decide) exampleDevice
  rw [hm]
  decide

end Calls

end BaseDrivers.At24cxx
