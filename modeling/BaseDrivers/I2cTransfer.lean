import Mathlib.Algebra.BigOperators.Group.List.Basic
import Mathlib.Tactic.Ring
import BaseDrivers.I2cBus

/-!
# The reference transaction and the interrupt-driven transfer

The reference goes through the messages and their bytes in order and stops
at the first refused byte; it knows no states, no registers and no
interrupts. The transaction that remains from any state the handler can be
in is a function of that state. Every interrupt keeps it, so a transfer
whose interrupts are all served is the reference transaction.
-/

set_option autoImplicit false

namespace BaseDrivers.I2cTransfer
open BaseDrivers.Execution BaseDrivers.I2cBus

def bufBytes (mem : Memory) (msg : I2cMsg) : List UInt8 :=
  (List.range msg.len.toNat).map (fun i : ℕ => mem (msg.buf+i))

/-- The bytes in order up to the first one the slave refuses. -/
def sendBytes (slave : Slave) : List UInt8 → List BusEvent → List BusEvent × Bool
  | [], h => (h,true)
  | b::bs, h =>
    let h := h++[.write b]
    if (slave h).nack then (h,false) else sendBytes slave bs h

def stored (mem : Memory) (a : ℤ) (b : UInt8) : Memory := fun x => if x = a then b else mem x

/-- Received bytes go to consecutive places; only the last is not
acknowledged. -/
def receiveBytes (slave : Slave) (buf : ℤ) :
    ℕ → ℤ → Memory → List BusEvent → Memory × List BusEvent
  | 0, _, mem, h => (mem,h)
  | n+1, i, mem, h =>
    let h := h++[.read (n != 0)]
    receiveBytes slave buf n (i+1) (stored mem (buf+i) (slave h).iicds.toUInt8) h

def refused (mem : Memory) (h : List BusEvent) : Transfer := ⟨-ENODEV,mem,h++[.stop]⟩

def transaction (slave : Slave) : List I2cMsg → Memory → List BusEvent → Transfer
  | [], mem, h => ⟨0,mem,h++[.stop]⟩
  | msg::msgs, mem, h =>
    let h := h++[.start msg.addr.toNat (isRead msg)]
    if (slave h).nack then refused mem h
    else if isRead msg then
      let r := receiveBytes slave msg.buf msg.len.toNat 0 mem h
      transaction slave msgs r.1 r.2
    else
      let r := sendBytes slave (bufBytes mem msg) h
      if r.2 then transaction slave msgs mem r.1 else refused mem r.1

def afterReceive (slave : Slave) (msg : I2cMsg) (msgs : List I2cMsg) (k : ℕ)
    (mem : Memory) (h : List BusEvent) : Transfer :=
  let r := receiveBytes slave msg.buf (msg.len.toNat-k) k mem h
  transaction slave msgs r.1 r.2

def afterSend (slave : Slave) (msg : I2cMsg) (msgs : List I2cMsg) (k : ℕ)
    (mem : Memory) (h : List BusEvent) : Transfer :=
  let r := sendBytes slave ((bufBytes mem msg).drop k) h
  if r.2 then transaction slave msgs mem r.1 else refused mem r.1

def afterStart (slave : Slave) (msg : I2cMsg) (msgs : List I2cMsg)
    (mem : Memory) (h : List BusEvent) : Transfer :=
  if (slave h).nack then refused mem h
  else if isRead msg then afterReceive slave msg msgs 0 mem h
  else afterSend slave msg msgs 0 mem h

theorem transaction_cons (slave : Slave) (msg : I2cMsg) (msgs : List I2cMsg)
    (mem : Memory) (h : List BusEvent) :
    transaction slave (msg::msgs) mem h =
      afterStart slave msg msgs mem (h++[.start msg.addr.toNat (isRead msg)]) := by
  simp [transaction, afterStart, afterReceive, afterSend]

theorem afterReceive_end (slave : Slave) (msg : I2cMsg) (msgs : List I2cMsg) (k : ℕ)
    (mem : Memory) (h : List BusEvent) (hk : msg.len.toNat ≤ k) :
    afterReceive slave msg msgs k mem h = transaction slave msgs mem h := by
  simp [afterReceive, Nat.sub_eq_zero_of_le hk, receiveBytes]

theorem afterReceive_next (slave : Slave) (msg : I2cMsg) (msgs : List I2cMsg) (k : ℕ)
    (mem : Memory) (h : List BusEvent) (hk : k < msg.len.toNat) :
    afterReceive slave msg msgs k mem h =
      let h := h++[.read (k+1 != msg.len.toNat)]
      afterReceive slave msg msgs (k+1) (stored mem (msg.buf+k) (slave h).iicds.toUInt8) h := by
  have hn : msg.len.toNat-k = msg.len.toNat-(k+1)+1 := by omega
  have hl : (msg.len.toNat-(k+1) != 0) = (k+1 != msg.len.toNat) := by
    rw [Bool.eq_iff_iff]
    simp only [bne_iff_ne]
    omega
  simp only [afterReceive, hn, receiveBytes, hl]
  norm_cast

theorem afterSend_end (slave : Slave) (msg : I2cMsg) (msgs : List I2cMsg) (k : ℕ)
    (mem : Memory) (h : List BusEvent) (hk : msg.len.toNat ≤ k) :
    afterSend slave msg msgs k mem h = transaction slave msgs mem h := by
  have hd : (bufBytes mem msg).drop k = [] := by simp [bufBytes, hk]
  simp [afterSend, hd, sendBytes]

theorem afterSend_next (slave : Slave) (msg : I2cMsg) (msgs : List I2cMsg) (k : ℕ)
    (mem : Memory) (h : List BusEvent) (hk : k < msg.len.toNat) :
    afterSend slave msg msgs k mem h =
      let h := h++[.write (mem (msg.buf+k))]
      if (slave h).nack then refused mem h else afterSend slave msg msgs (k+1) mem h := by
  have hd : (bufBytes mem msg).drop k = mem (msg.buf+k)::(bufBytes mem msg).drop (k+1) := by
    rw [List.drop_eq_getElem_cons (by simpa [bufBytes] using hk)]
    simp [bufBytes]
  simp only [afterSend, hd, sendBytes]
  split <;> simp

/-- Interrupts the messages can take: one for the address and one for each
byte. -/
def interrupts (msgs : List I2cMsg) : ℕ := (msgs.map (fun msg => msg.len.toNat+1)).sum

def mode (msg : I2cMsg) : UInt32 := if isRead msg then 0xb0 else 0xf0

/-- The machine is at byte `k` of `msg`, with `msgs` still to come. -/
structure At (m : Machine) (msg : I2cMsg) (msgs : List I2cMsg) (k : ℕ) : Prop where
  messages : m.xfer.msgs = msg::msgs
  count : m.xfer.msg_num = m.xfer.cur_msg+msgs.length+1
  pointer : m.xfer.cur_ptr = k

/-- The transfer still owed to the caller in each state, and a bound on the
interrupts until it is done. -/
inductive Owes (slave : Slave) : Bus → Transfer → ℕ → Prop
  | start {m : Machine} {msg : I2cMsg} {msgs : List I2cMsg} {h : List BusEvent}
      (hs : m.xfer.state = .STATE_START) (ha : At m msg msgs 0)
      (hm : m.regs.iicstat = mode msg) :
      Owes slave ⟨m,h⟩ (afterStart slave msg msgs m.mem h)
        (msg.len.toNat+1+interrupts msgs)
  | write {m : Machine} {msg : I2cMsg} {msgs : List I2cMsg} {h : List BusEvent} {k : ℕ}
      (hs : m.xfer.state = .STATE_WRITE) (ha : At m msg msgs k)
      (hm : m.regs.iicstat = mode msg) (hr : isRead msg = false) (hk : k ≤ msg.len.toNat) :
      Owes slave ⟨m,h⟩
        (if (slave h).nack then refused m.mem h else afterSend slave msg msgs k m.mem h)
        (msg.len.toNat-k+1+interrupts msgs)
  | read {m : Machine} {msg : I2cMsg} {msgs : List I2cMsg} {h : List BusEvent} {k : ℕ}
      (hs : m.xfer.state = .STATE_READ) (ha : At m msg msgs k)
      (hm : m.regs.iicstat = mode msg) (hr : isRead msg = true) (hk : k < msg.len.toNat) :
      Owes slave ⟨m,h⟩
        (afterReceive slave msg msgs (k+1)
          (stored m.mem (msg.buf+k) (slave h).iicds.toUInt8) h)
        (msg.len.toNat-k+interrupts msgs)
  | stop {m : Machine} {h : List BusEvent} (hs : m.xfer.state = .STATE_STOP) :
      Owes slave ⟨m,h⟩ ⟨m.xfer.err,m.mem,h⟩ 0

theorem lastIicstat_append (as bs : List Op) (v : Option UInt32) :
    lastIicstat (as++bs) v = lastIicstat bs (lastIicstat as v) := by
  induction as generalizing v with
  | nil => rfl
  | cons a as ih => cases a <;> exact ih _

/-- No call has yet touched `iicstat`. -/
def Quiet (m : Machine) : Prop := lastIicstat m.ops none = none

theorem addr_bus (a : UInt16) : (a.toUInt32 <<< 1).toNat/2 = a.toNat := by
  have ha : a.toNat < 65536 := a.toNat_lt
  have hs : (a.toUInt32 <<< 1).toNat = a.toNat*2%2^32 := by
    simp [UInt32.toNat_shiftLeft, Nat.shiftLeft_eq]
  omega

theorem mode_start (msg : I2cMsg) : mode msg &&& 0x20 != 0 := by
  unfold mode; split <;> decide

theorem mode_read (msg : I2cMsg) : (mode msg &&& 0xc0 == 0x80) = isRead msg := by
  unfold mode; split <;> simp_all <;> decide

theorem start_eq (m : Machine) : s3c2440_i2c_start m =
    ((m.setState .STATE_START).setIicds (m.msg.addr.toUInt32 <<< 1)).setIicstat (mode m.msg) := by
  cases hr : isRead m.msg <;>
    simp [s3c2440_i2c_start, mode, hr, show (m.setState .STATE_START).msg = m.msg from rfl]

theorem start_event (m : Machine) :
    busEvent (s3c2440_i2c_start m) = .start m.msg.addr.toNat (isRead m.msg) := by
  simp [start_eq, busEvent, Machine.setIicstat, Machine.setIicds, Machine.setState,
    lastIicstat_append, lastIicstat, addr_bus, mode_read, mode_start, -UInt32.toNat_shiftLeft]

theorem start_clear_event (m : Machine) :
    busEvent (clearPending (s3c2440_i2c_start m)) = busEvent (s3c2440_i2c_start m) := by
  simp [start_eq, busEvent, clearPending, Machine.setIiccon, Machine.setIicstat,
    Machine.setIicds, lastIicstat_append, lastIicstat, mode_start]

theorem stop_event (e : ℤ) (m : Machine) :
    busEvent (clearPending (s3c2440_i2c_stop e m)) = .stop := by
  simp only [s3c2440_i2c_stop]
  split <;>
    simp [busEvent, clearPending, Machine.setIiccon, Machine.setIicstat,
      lastIicstat_append, lastIicstat] <;> decide

theorem send_event (m : Machine) (hq : Quiet m) (hm : (m.regs.iicstat &&& 0xc0 == 0x80) = false) :
    busEvent (clearPending (m.sendByte.setIiccon 0xaf)) =
      .write (m.mem (m.msg.buf+m.xfer.cur_ptr)) := by
  simp only [Quiet] at hq
  simp [busEvent, clearPending, Machine.setIiccon, Machine.sendByte, lastIicstat_append,
    lastIicstat, hq, hm]

theorem receive_event (m : Machine) (hq : Quiet m) (v : UInt32)
    (hm : (m.regs.iicstat &&& 0xc0 == 0x80) = true) :
    busEvent (clearPending (m.setIiccon v)) =
      .read ((v &&& ~~~S3C2410_IICCON_IRQPEND) &&& 0x80 != 0) := by
  simp only [Quiet] at hq
  simp [busEvent, clearPending, Machine.setIiccon, lastIicstat_append, lastIicstat, hq, hm]

/-- The bus once a call has left the machine `m` and cleared the interrupt. -/
def resumed (m : Machine) (h : List BusEvent) : Bus :=
  ⟨clearPending m,h++[busEvent (clearPending m)]⟩

theorem stop_xfer (e : ℤ) (m : Machine) : (s3c2440_i2c_stop e m).xfer =
    { m.xfer with state := .STATE_STOP, err := e } := by
  simp only [s3c2440_i2c_stop]
  split <;> rfl

theorem stop_mem (e : ℤ) (m : Machine) : (s3c2440_i2c_stop e m).mem = m.mem := by
  simp only [s3c2440_i2c_stop]
  split <;> rfl

theorem stop_owes (slave : Slave) (e : ℤ) (m : Machine) (h : List BusEvent) :
    Owes slave (resumed (s3c2440_i2c_stop e m) h) ⟨e,m.mem,h++[.stop]⟩ 0 := by
  have ho := @Owes.stop slave (clearPending (s3c2440_i2c_stop e m)) (h++[.stop])
    (by simp [clearPending, Machine.setIiccon, stop_xfer])
  rw [resumed, stop_event]
  simpa [clearPending, Machine.setIiccon, stop_xfer, stop_mem] using ho

/-- Both cases leave a message in the same way: a start for the next one or
the final stop. -/
theorem leave_owes (slave : Slave) (m : Machine) (msg : I2cMsg) (msgs : List I2cMsg)
    (k : ℕ) (h : List BusEvent) (ha : At m msg msgs k) :
    ∃ n ≤ interrupts msgs,
      Owes slave (resumed (if !isLastMsg m then s3c2440_i2c_start m.nextMsg
        else s3c2440_i2c_stop 0 m) h) (transaction slave msgs m.mem h) n := by
  have hc := ha.count
  cases msgs with
  | nil =>
    have hl : isLastMsg m = true := by
      simp only [isLastMsg, beq_iff_eq]
      simp at hc
      omega
    exact ⟨0,by omega,by simpa [hl, transaction] using stop_owes slave 0 m h⟩
  | cons msg' msgs =>
    have hl : isLastMsg m = false := by
      simp only [isLastMsg, beq_eq_false_iff_ne]
      simp at hc
      omega
    have hmsg : m.nextMsg.msg = msg' := by
      simp [Machine.msg, Machine.nextMsg, ha.messages]
    refine ⟨msg'.len.toNat+1+interrupts msgs,by simp [interrupts],?_⟩
    rw [hl, transaction_cons, resumed, Bool.not_false, if_pos rfl, start_clear_event,
      start_event, hmsg]
    have hs := start_eq m.nextMsg
    rw [hmsg] at hs
    rw [hs]
    refine Owes.start rfl ⟨?_,?_,rfl⟩ rfl
    · simp [clearPending, Machine.setIiccon, Machine.setIicstat, Machine.setIicds,
        Machine.setState, Machine.nextMsg, ha.messages]
    · simp [clearPending, Machine.setIiccon, Machine.setIicstat, Machine.setIicds,
        Machine.setState, Machine.nextMsg, hc]
      ring

theorem next_read_owes (slave : Slave) (m : Machine) (msg : I2cMsg) (msgs : List I2cMsg)
    (k : ℕ) (h : List BusEvent) (ha : At m msg msgs k) (hs : m.xfer.state = .STATE_READ)
    (hm : m.regs.iicstat = mode msg) (hr : isRead msg = true) (hq : Quiet m) :
    ∃ n ≤ msg.len.toNat-k+interrupts msgs,
      Owes slave (resumed (next_read m) h) (afterReceive slave msg msgs k m.mem h) n := by
  have hmsg : m.msg = msg := by simp [Machine.msg, ha.messages]
  have hp := ha.pointer
  have hmode : (m.regs.iicstat &&& 0xc0 == 0x80) = true := by rw [hm, mode_read, hr]
  by_cases hk : k < msg.len.toNat
  · have he : isEndData m = false := by
      simp only [isEndData, hmsg, hp, decide_eq_false_iff_not]
      omega
    have hl : isLastData m = decide (k+1 = msg.len.toNat) := by
      rw [Bool.eq_iff_iff]
      simp only [isLastData, hmsg, hp, beq_iff_eq, decide_eq_true_eq]
      omega
    refine ⟨msg.len.toNat-k+interrupts msgs,Nat.le_refl _,?_⟩
    rw [afterReceive_next slave msg msgs k m.mem h hk]
    have hb : ∀ v : UInt32, ((v &&& ~~~S3C2410_IICCON_IRQPEND) &&& 0x80 != 0) =
        (k+1 != msg.len.toNat) →
        Owes slave (resumed (m.setIiccon v) h)
          (afterReceive slave msg msgs (k+1) (stored m.mem (msg.buf+k)
            (slave (h++[.read (k+1 != msg.len.toNat)])).iicds.toUInt8)
            (h++[.read (k+1 != msg.len.toNat)])) (msg.len.toNat-k+interrupts msgs) := by
      intro v hv
      rw [resumed, receive_event m hq v hmode, hv]
      exact Owes.read hs ⟨ha.messages,ha.count,hp⟩ hm hr hk
    simp only [next_read, he, hl, Bool.not_false, if_true]
    by_cases hlast : k+1 = msg.len.toNat
    · have hv : (k+1 != msg.len.toNat) = false := by simpa using hlast
      simpa [hlast] using hb 0x2f (hv ▸ by decide)
    · have hv : (k+1 != msg.len.toNat) = true := by simpa using hlast
      simpa [hlast] using hb 0xaf (hv ▸ by decide)
  · have he : isEndData m = true := by
      simp only [isEndData, hmsg, hp, decide_eq_true_eq]
      omega
    obtain ⟨n,hn,ho⟩ := leave_owes slave m msg msgs k h ha
    refine ⟨n,by omega,?_⟩
    rw [afterReceive_end slave msg msgs k m.mem h (by omega)]
    simpa only [next_read, he, Bool.not_true, Bool.false_eq_true, if_false] using ho

theorem case_write_owes (slave : Slave) (m : Machine) (msg : I2cMsg) (msgs : List I2cMsg)
    (k : ℕ) (h : List BusEvent) (iicSt : UInt32) (ha : At m msg msgs k)
    (hs : m.xfer.state = .STATE_WRITE) (hm : m.regs.iicstat = mode msg)
    (hr : isRead msg = false) (hq : Quiet m)
    (hack : (iicSt &&& S3C2410_IICSTAT_LASTBIT != 0) = false) :
    ∃ n ≤ msg.len.toNat-k+interrupts msgs,
      Owes slave (resumed (case_write iicSt m) h) (afterSend slave msg msgs k m.mem h) n := by
  have hmsg : m.msg = msg := by simp [Machine.msg, ha.messages]
  have hp := ha.pointer
  have hmode : (m.regs.iicstat &&& 0xc0 == 0x80) = false := by rw [hm, mode_read, hr]
  by_cases hk : k < msg.len.toNat
  · have he : isEndData m = false := by
      simp only [isEndData, hmsg, hp, decide_eq_false_iff_not]
      omega
    refine ⟨msg.len.toNat-(k+1)+1+interrupts msgs,by omega,?_⟩
    rw [afterSend_next slave msg msgs k m.mem h hk]
    simp only [case_write, hack, he, Bool.not_false, if_true, Bool.false_eq_true, if_false]
    rw [resumed, send_event m hq hmode, hmsg, hp]
    have hnext : At (clearPending (m.sendByte.setIiccon 0xaf)) msg msgs (k+1) :=
      ⟨ha.messages,ha.count,by simp [clearPending, Machine.setIiccon, Machine.sendByte, hp]⟩
    exact Owes.write hs hnext hm hr hk
  · have he : isEndData m = true := by
      simp only [isEndData, hmsg, hp, decide_eq_true_eq]
      omega
    obtain ⟨n,hn,ho⟩ := leave_owes slave m msg msgs k h ha
    refine ⟨n,by omega,?_⟩
    rw [afterSend_end slave msg msgs k m.mem h (by omega)]
    simpa only [case_write, hack, he, Bool.not_true, Bool.false_eq_true, if_false] using ho

/-- A start that ends the transfer at once belongs to a last, empty message. -/
theorem start_done (m : Machine) (msg : I2cMsg) (msgs : List I2cMsg) (ha : At m msg msgs 0)
    (he : (isLastMsg m && isEndData m) = true) : msgs = [] ∧ msg.len.toNat = 0 := by
  have hmsg : m.msg = msg := by simp [Machine.msg, ha.messages]
  have hc := ha.count
  have hp := ha.pointer
  simp only [isLastMsg, isEndData, hmsg, Bool.and_eq_true, beq_iff_eq, decide_eq_true_eq] at he
  exact ⟨List.length_eq_zero_iff.mp (by omega),by omega⟩

/-- After a start the transfer is refused, over, or goes on with its first
byte. -/
theorem case_start_owes (slave : Slave) (m : Machine) (msg : I2cMsg) (msgs : List I2cMsg)
    (h : List BusEvent) (ha : At m msg msgs 0) (hm : m.regs.iicstat = mode msg) (hq : Quiet m) :
    ∃ n ≤ msg.len.toNat+interrupts msgs,
      Owes slave (resumed (case_start (slave h).iicstat m) h)
        (afterStart slave msg msgs m.mem h) n := by
  have hmsg : m.msg = msg := by simp [Machine.msg, ha.messages]
  rw [case_start, afterStart]
  cases hack : (slave h).nack with
  | true =>
    rw [Reply.nack] at hack
    simp only [hack, if_true]
    exact ⟨0,by omega,stop_owes slave (-ENODEV) m h⟩
  | false =>
    rw [Reply.nack] at hack
    simp only [hack, Bool.false_eq_true, if_false, hmsg]
    by_cases hempty : (isLastMsg m && isEndData m) = true
    · obtain ⟨hnil,hlen⟩ := start_done m msg msgs ha hempty
      subst hnil
      refine ⟨0,by omega,?_⟩
      rw [if_pos hempty, afterReceive_end slave msg [] 0 m.mem h (by omega),
        afterSend_end slave msg [] 0 m.mem h (by omega), ite_self]
      exact stop_owes slave 0 m h
    · rw [if_neg hempty]
      cases hr : isRead msg with
      | true =>
        exact next_read_owes slave (m.setState .STATE_READ) msg msgs 0 h
          ⟨ha.messages,ha.count,ha.pointer⟩ rfl hm hr hq
      | false =>
        exact case_write_owes slave (m.setState .STATE_WRITE) msg msgs 0 h
          (slave h).iicstat ⟨ha.messages,ha.count,ha.pointer⟩ rfl hm hr hq hack

/-- One interrupt keeps the transfer owed and shortens the way to it. -/
theorem interrupt_owes (slave : Slave) (b : Bus) (t : Transfer) (n : ℕ)
    (ho : Owes slave b t n) (hb : b.machine.xfer.state ≠ .STATE_STOP) :
    ∃ n' < n, Owes slave (interrupt slave b) t n' := by
  cases ho with
  | @start m msg msgs h hs ha hm =>
    let m' : Machine := { m with regs.iicds := (slave h).iicds, ops := [] }
    have hi : interrupt slave ⟨m,h⟩ = resumed (case_start (slave h).iicstat m') h := by
      simp [interrupt, s3c2440_i2c_xfer_irq, hs, resumed, m']
    rw [hi]
    obtain ⟨k,hk,ho⟩ := case_start_owes slave m' msg msgs h
      ⟨ha.messages,ha.count,ha.pointer⟩ hm rfl
    exact ⟨k,by omega,ho⟩
  | @write m msg msgs h k hs ha hm hr hk =>
    let m' : Machine := { m with regs.iicds := (slave h).iicds, ops := [] }
    have hi : interrupt slave ⟨m,h⟩ = resumed (case_write (slave h).iicstat m') h := by
      simp [interrupt, s3c2440_i2c_xfer_irq, hs, resumed, m']
    rw [hi]
    cases hack : (slave h).nack with
    | true =>
      rw [Reply.nack] at hack
      simp only [case_write, hack, if_true]
      exact ⟨0,by omega,stop_owes slave (-ENODEV) m' h⟩
    | false =>
      obtain ⟨j,hj,ho⟩ := case_write_owes slave m' msg msgs k h (slave h).iicstat
        ⟨ha.messages,ha.count,ha.pointer⟩ hs hm hr rfl hack
      exact ⟨j,by omega,by simpa using ho⟩
  | @read m msg msgs h k hs ha hm hr hk =>
    let m' : Machine := { m with regs.iicds := (slave h).iicds, ops := [] }
    have hi : interrupt slave ⟨m,h⟩ = resumed (next_read m'.storeByte) h := by
      simp [interrupt, s3c2440_i2c_xfer_irq, hs, resumed, m']
    have hmsg : m'.msg = msg := by simp [m', Machine.msg, ha.messages]
    have hnext : At m'.storeByte msg msgs (k+1) :=
      ⟨ha.messages,ha.count,by simp [m', Machine.storeByte, ha.pointer]⟩
    obtain ⟨j,hj,ho⟩ := next_read_owes slave m'.storeByte msg msgs (k+1) h hnext hs hm hr rfl
    rw [hi]
    refine ⟨j,by omega,?_⟩
    have hmem : m'.storeByte.mem = stored m.mem (msg.buf+k) (slave h).iicds.toUInt8 := by
      simp only [Machine.storeByte, hmsg]
      simp only [m', ha.pointer]
      rfl
    simpa only [hmem] using ho
  | stop hs => exact absurd hs hb

theorem armed_owes (slave : Slave) (msg : I2cMsg) (msgs : List I2cMsg) (m : Machine) :
    Owes slave (armed (msg::msgs) m) (transaction slave (msg::msgs) m.mem [])
      (interrupts (msg::msgs)) := by
  have hn : interrupts (msg::msgs) = msg.len.toNat+1+interrupts msgs := by simp [interrupts]
  simp only [armed, start_event]
  rw [start_eq, transaction_cons, hn]
  exact Owes.start rfl ⟨rfl,by simp [Machine.setIicstat, Machine.setIicds, Machine.setState],rfl⟩ rfl

theorem busTurn_continue {slave : Slave} {b b' : Bus} (h : busTurn slave b = .inl b') :
    b' = interrupt slave b ∧ b.machine.xfer.state ≠ .STATE_STOP := by
  unfold busTurn at h
  split at h <;> simp_all

theorem busTurn_leave {slave : Slave} {b b' : Bus} (h : busTurn slave b = .inr b') :
    b' = b ∧ b.machine.xfer.state = .STATE_STOP := by
  unfold busTurn at h
  split at h <;> simp_all

theorem owes_paid {slave : Slave} {b : Bus} {t : Transfer} {n : ℕ} (ho : Owes slave b t n)
    (hb : b.machine.xfer.state = .STATE_STOP) : transferOf b = t := by
  cases ho <;> simp_all [transferOf]

theorem loop_reference (slave : Slave) (msg : I2cMsg) (msgs : List I2cMsg) (m : Machine)
    (n : ℕ) (hn : interrupts (msg::msgs) ≤ n) :
    ∃ b, loop (busTurn slave) (n+1) (armed (msg::msgs) m) = .inr b ∧
      transferOf b = transaction slave (msg::msgs) m.mem [] := by
  refine loop_owes (Owes slave) transferOf ?_ ?_ (n+1) _ _ _
    (armed_owes slave msg msgs m) (by omega)
  · intro b b' t k ho hb
    obtain ⟨rfl,hs⟩ := busTurn_continue hb
    exact interrupt_owes slave b t k ho hs
  · intro b b' t k ho hb
    obtain ⟨rfl,hs⟩ := busTurn_leave hb
    exact owes_paid ho hs

/-- Whatever the messages and the slave, the interrupt-driven transfer is the
reference transaction once the interrupts it needs have been served. -/
theorem xfer_reference (slave : Slave) (msgs : List I2cMsg) (m : Machine) (n : ℕ)
    (hne : msgs ≠ []) (hn : interrupts msgs ≤ n) :
    s3c2440_i2c_xfer slave n msgs m = transaction slave msgs m.mem [] := by
  obtain ⟨msg,msgs,rfl⟩ := List.exists_cons_of_ne_nil hne
  obtain ⟨b,hb,ht⟩ := loop_reference slave msg msgs m n hn
  rw [s3c2440_i2c_xfer, ← ht]
  rcases loop_last hb with h | ⟨b',h,hl⟩
  · rw [h]; rfl
  · obtain ⟨rfl,_⟩ := busTurn_leave hl
    rw [h]; rfl

/-- The slave refuses the address of the third message. -/
def exampleSlave : Slave := fun h => ⟨if h.length = 6 then 1 else 0,0x55⟩

def exampleMsgs : List I2cMsg := [⟨0x50,0,1,0⟩,⟨0x50,1,2,8⟩,⟨0x50,0,3,0⟩]

def exampleMachine : Machine :=
  ⟨⟨[],0,0,0,.STATE_IDLE,0⟩,⟨0,0,0⟩,fun a => if a = 0 then 7 else 0,[]⟩

theorem xfer_reference_nack :
    s3c2440_i2c_xfer exampleSlave 9 exampleMsgs exampleMachine =
      transaction exampleSlave exampleMsgs exampleMachine.mem [] ∧
    (transaction exampleSlave exampleMsgs exampleMachine.mem []).ret = -ENODEV ∧
    (transaction exampleSlave exampleMsgs exampleMachine.mem []).history =
      [.start 0x50 false,.write 7,.start 0x50 true,.read true,.read false,
        .start 0x50 false,.stop] :=
  ⟨xfer_reference exampleSlave exampleMsgs exampleMachine 9 (by decide) (by decide),
    by decide,by decide⟩

end BaseDrivers.I2cTransfer
