import Mathlib.Tactic.SplitIfs
import BaseDrivers.I2cAfterReturn

/-!
# The progress of the interrupt handler

The bus is not trusted here: every interrupt comes with any status and any
data. The handler stays with the messages it was given, touches the buffer
of the one at hand inside its length only, and stops within one interrupt
for each address and each byte.
-/

set_option autoImplicit false

namespace BaseDrivers.I2cProgress
open BaseDrivers.Execution BaseDrivers.I2cBus BaseDrivers.I2cTransfer BaseDrivers.I2cAfterReturn

/-- The record points at one of the messages. -/
structure Placed (msgs : List I2cMsg) (x : XferData) : Prop where
  count : x.msg_num = msgs.length
  lower : 0 ≤ x.cur_msg
  upper : x.cur_msg < x.msg_num
  current : x.msgs = msgs.drop x.cur_msg.toNat

/-- The handler is at one of the messages, and the places of the buffer that
an interrupt touches are among those of this message. -/
structure Inside (msgs : List I2cMsg) (m : Machine) (r : Reply) : Prop where
  placed : Placed msgs m.xfer
  accesses : ∀ buf i, .load buf i ∈ (later m r).ops ∨ .store buf i ∈ (later m r).ops →
    buf = m.msg.buf ∧ i = m.xfer.cur_ptr ∧ 0 ≤ i ∧ i < m.msg.len.toNat

/-- The places of buffers in what a call has done. -/
def accesses (ops : List Op) : List (ℤ × ℤ) :=
  ops.filterMap (fun op => match op with
    | .load buf i => some (buf,i)
    | .store buf i => some (buf,i)
    | _ => none)

theorem accesses_append (as bs : List Op) : accesses (as++bs) = accesses as++accesses bs :=
  List.filterMap_append

theorem mem_accesses {ops : List Op} {buf i : ℤ} (h : .load buf i ∈ ops ∨ .store buf i ∈ ops) :
    (buf,i) ∈ accesses ops := by
  rw [accesses, List.mem_filterMap]
  rcases h with h | h
  · exact ⟨_,h,rfl⟩
  · exact ⟨_,h,rfl⟩

/-- What the handler begins with. -/
def found (m : Machine) (r : Reply) : Machine := { m with regs.iicds := r.iicds, ops := [] }

/-- What it comes to before it clears the interrupt. -/
def handled (m : Machine) (r : Reply) : Machine :=
  match m.xfer.state with
  | .STATE_START => case_start r.iicstat (found m r)
  | .STATE_WRITE => case_write r.iicstat (found m r)
  | .STATE_READ => next_read (found m r).storeByte
  | _ => found m r

theorem later_eq (m : Machine) (r : Reply) : later m r = clearPending (handled m r) := rfl

section Pieces
variable (m : Machine)

theorem start_accesses : accesses (s3c2440_i2c_start m).ops = accesses m.ops := by
  rw [start_eq]
  show accesses (m.ops++_++_) = _
  rw [accesses_append, accesses_append]
  exact (List.append_nil _).trans (List.append_nil _)

theorem stop_accesses (err : ℤ) : accesses (s3c2440_i2c_stop err m).ops = accesses m.ops := by
  simp only [s3c2440_i2c_stop]
  split_ifs <;> simp [Machine.setIicstat, Machine.setIiccon, accesses]

theorem next_read_accesses : accesses (next_read m).ops = accesses m.ops := by
  rw [next_read]
  split_ifs
  · simp [Machine.setIiccon, accesses]
  · simp [Machine.setIiccon, accesses]
  · exact start_accesses m.nextMsg
  · exact stop_accesses m 0

theorem case_write_accesses (iicSt : UInt32) : accesses (case_write iicSt m).ops = accesses m.ops ∨
    isEndData m = false ∧
      accesses (case_write iicSt m).ops = accesses m.ops++[(m.msg.buf,m.xfer.cur_ptr)] := by
  rw [case_write]
  split_ifs with hack hend
  · exact .inl (stop_accesses m _)
  · right
    constructor
    · simpa using hend
    · simp [Machine.sendByte, Machine.setIiccon, accesses]
  · exact .inl (start_accesses m.nextMsg)
  · exact .inl (stop_accesses m 0)

theorem case_start_accesses (iicSt : UInt32) : accesses (case_start iicSt m).ops = accesses m.ops ∨
    isEndData m = false ∧
      accesses (case_start iicSt m).ops = accesses m.ops++[(m.msg.buf,m.xfer.cur_ptr)] := by
  rw [case_start]
  split_ifs
  · exact .inl (stop_accesses m _)
  · exact .inl (stop_accesses m 0)
  · exact .inl (next_read_accesses _)
  · exact case_write_accesses (m.setState .STATE_WRITE) iicSt

end Pieces

section Place
variable {msgs : List I2cMsg} {m : Machine}

theorem start_placed (h : Placed msgs m.xfer) : Placed msgs (s3c2440_i2c_start m).xfer := by
  rw [start_eq]
  exact ⟨h.count,h.lower,h.upper,h.current⟩

theorem stop_placed (err : ℤ) (h : Placed msgs m.xfer) :
    Placed msgs (s3c2440_i2c_stop err m).xfer := by
  rw [stop_xfer]
  exact ⟨h.count,h.lower,h.upper,h.current⟩

theorem next_placed (h : Placed msgs m.xfer) (hl : isLastMsg m = false) :
    Placed msgs m.nextMsg.xfer := by
  have hlower := h.lower
  have hupper := h.upper
  have hne : m.xfer.cur_msg ≠ m.xfer.msg_num-1 := beq_eq_false_iff_ne.mp hl
  constructor
  · exact h.count
  · show 0 ≤ m.xfer.cur_msg+1
    omega
  · show m.xfer.cur_msg+1 < m.xfer.msg_num
    omega
  · show m.xfer.msgs.tail = msgs.drop (m.xfer.cur_msg+1).toNat
    rw [h.current, List.tail_drop, Int.toNat_add hlower (Int.le_of_lt Int.one_pos)]
    rfl

theorem next_read_placed (h : Placed msgs m.xfer) : Placed msgs (next_read m).xfer := by
  rw [next_read]
  split_ifs with hend hdata hlast
  · exact h
  · exact h
  · exact start_placed (next_placed h (by simpa using hlast))
  · exact stop_placed 0 h

theorem case_write_placed (iicSt : UInt32) (h : Placed msgs m.xfer) :
    Placed msgs (case_write iicSt m).xfer := by
  rw [case_write]
  split_ifs with hack hend hlast
  · exact stop_placed _ h
  · exact ⟨h.count,h.lower,h.upper,h.current⟩
  · exact start_placed (next_placed h (by simpa using hlast))
  · exact stop_placed 0 h

theorem case_start_placed (iicSt : UInt32) (h : Placed msgs m.xfer) :
    Placed msgs (case_start iicSt m).xfer := by
  have hstate (s : BusState) : Placed msgs (m.setState s).xfer :=
    ⟨h.count,h.lower,h.upper,h.current⟩
  rw [case_start]
  split_ifs
  · exact stop_placed _ h
  · exact stop_placed 0 h
  · exact next_read_placed (hstate .STATE_READ)
  · exact case_write_placed iicSt (hstate .STATE_WRITE)

/-- Whatever state it finds, the handler stays with the messages. -/
theorem later_placed (r : Reply) (h : Placed msgs m.xfer) : Placed msgs (later m r).xfer := by
  have hfound : Placed msgs (found m r).xfer := h
  have hstored : Placed msgs (found m r).storeByte.xfer := ⟨h.count,h.lower,h.upper,h.current⟩
  show Placed msgs (handled m r).xfer
  rw [handled]
  split
  · exact case_start_placed r.iicstat hfound
  · exact case_write_placed r.iicstat hfound
  · exact next_read_placed hstored
  · exact hfound

end Place

/-- The handler will have stopped after `n` more interrupts. -/
def Within (m : Machine) (n : ℕ) : Prop :=
  ∃ slave h t, ∃ k ≤ n, Owes slave ⟨m,h⟩ t k

/-- What is owed under one slave is owed, with another result, under any. -/
theorem owes_any {slave : Slave} {b : Bus} {t : Transfer} {n : ℕ} (ho : Owes slave b t n)
    (slave' : Slave) : ∃ t', Owes slave' b t' n := by
  cases ho with
  | start hs ha hm => exact ⟨_,.start hs ha hm⟩
  | write hs ha hm hr hk => exact ⟨_,.write hs ha hm hr hk⟩
  | read hs ha hm hr hk => exact ⟨_,.read hs ha hm hr hk⟩
  | stop hs => exact ⟨_,.stop hs⟩

theorem later_within {m : Machine} {n : ℕ} (r : Reply) (h : Within m n) :
    Within (later m r) (n-1) := by
  obtain ⟨slave,hist,t,k,hk,ho⟩ := h
  by_cases hs : m.xfer.state = .STATE_STOP
  · exact ⟨slave,[],_,0,Nat.zero_le _,.stop (stopped_later m r hs).1⟩
  · -- one interrupt under the slave that gives this reply
    obtain ⟨t',ho'⟩ := owes_any ho (fun _ => r)
    obtain ⟨k',hlt,hnext⟩ := interrupt_owes (fun _ => r) ⟨m,hist⟩ t' k ho' hs
    exact ⟨_,_,t',k',by omega,hnext⟩

theorem run_within (rs : List Reply) {m : Machine} {n : ℕ} (h : Within m n) :
    Within (run later m rs) (n-rs.length) := by
  induction rs generalizing m n with
  | nil => exact h
  | cons r rs ih =>
    have hrest := ih (later_within r h)
    rwa [Nat.sub_sub, Nat.add_comm, ← List.length_cons (a := r)] at hrest

theorem within_zero {m : Machine} (h : Within m 0) : m.xfer.state = .STATE_STOP := by
  obtain ⟨slave,hist,t,k,hk,ho⟩ := h
  obtain rfl : k = 0 := by omega
  generalize hz : 0 = z at ho
  cases ho with
  | start hs ha hm => omega
  | write hs ha hm hr hk => omega
  | read hs ha hm hr hk => omega
  | stop hs => exact hs

theorem at_end {m : Machine} {msg : I2cMsg} {msgs : List I2cMsg} {k : ℕ} (ha : At m msg msgs k)
    (h : isEndData m = false) : 0 ≤ m.xfer.cur_ptr ∧ m.xfer.cur_ptr < m.msg.len.toNat := by
  have hp := ha.pointer
  rw [isEndData, decide_eq_false_iff_not] at h
  omega

/-- The places an interrupt touches, from what is owed. -/
theorem within_accesses {m : Machine} {n : ℕ} (r : Reply) (h : Within m n) (buf i : ℤ)
    (hop : .load buf i ∈ (later m r).ops ∨ .store buf i ∈ (later m r).ops) :
    buf = m.msg.buf ∧ i = m.xfer.cur_ptr ∧ 0 ≤ i ∧ i < m.msg.len.toNat := by
  have hmem : (buf,i) ∈ accesses (handled m r).ops := by
    have hmem := mem_accesses hop
    rw [later_eq] at hmem
    simpa [clearPending, Machine.setIiccon, accesses_append, accesses] using hmem
  -- the places are none, or the one of a byte that is not behind the end
  have hbyte : ∀ {as : List (ℤ × ℤ)} {msg msgs k}, At m msg msgs k →
      (as = [] ∨ isEndData m = false ∧ as = [(m.msg.buf,m.xfer.cur_ptr)]) → (buf,i) ∈ as →
      buf = m.msg.buf ∧ i = m.xfer.cur_ptr ∧ 0 ≤ i ∧ i < m.msg.len.toNat := by
    rintro as msg msgs k ha (rfl | ⟨hend,rfl⟩) hin
    · cases hin
    · obtain ⟨rfl,rfl⟩ : buf = m.msg.buf ∧ i = m.xfer.cur_ptr := by simpa using hin
      exact ⟨rfl,rfl,at_end ha hend⟩
  obtain ⟨slave,hist,t,j,-,ho⟩ := h
  rw [handled] at hmem
  cases ho with
  | start hs ha hm =>
    rw [hs] at hmem
    exact hbyte ha (case_start_accesses (found m r) r.iicstat) hmem
  | write hs ha hm hr hk =>
    rw [hs] at hmem
    exact hbyte ha (case_write_accesses (found m r) r.iicstat) hmem
  | @read _ msg msgs _ k hs ha hm hr hk =>
    have hmsg : m.msg = msg := by simp [Machine.msg, ha.messages]
    have hp := ha.pointer
    rw [hs] at hmem
    have hstore : accesses (next_read (found m r).storeByte).ops = [(m.msg.buf,m.xfer.cur_ptr)] :=
      next_read_accesses (found m r).storeByte
    rw [hstore] at hmem
    obtain ⟨rfl,rfl⟩ : buf = m.msg.buf ∧ i = m.xfer.cur_ptr := by simpa using hmem
    rw [hmsg]
    exact ⟨rfl,rfl,by omega,by omega⟩
  | stop hs =>
    rw [hs] at hmem
    cases hmem

theorem armed_within (msgs : List I2cMsg) (hne : msgs ≠ []) (m : Machine) :
    Within (armed msgs m).machine (interrupts msgs) := by
  obtain ⟨msg,msgs,rfl⟩ := List.exists_cons_of_ne_nil hne
  exact ⟨fun _ => ⟨0,0⟩,_,_,_,Nat.le_refl _,armed_owes (fun _ => ⟨0,0⟩) msg msgs m⟩

theorem armed_placed (msgs : List I2cMsg) (hne : msgs ≠ []) (m : Machine) :
    Placed msgs (armed msgs m).machine.xfer := by
  apply start_placed
  constructor
  · rfl
  · exact Int.le_refl 0
  · exact Int.natCast_pos.mpr (List.length_pos_iff.mpr hne)
  · rfl

/-- An interrupt that changes nothing but the pending bit; the data register is
as the bus has left it. -/
structure Settled (m : Machine) (r : Reply) : Prop where
  xfer : (later m r).xfer = m.xfer
  mem : (later m r).mem = m.mem
  iicstat : (later m r).regs.iicstat = m.regs.iicstat
  iicds : (later m r).regs.iicds = r.iicds
  iiccon : (later m r).regs.iiccon = m.regs.iiccon &&& ~~~S3C2410_IICCON_IRQPEND

theorem stopped_settled (m : Machine) (r : Reply) (h : m.xfer.state = .STATE_STOP) :
    Settled m r := by
  have heq : later m r = clearPending (found m r) := by rw [later_eq, handled, h]
  constructor <;> rw [heq] <;> rfl

/-- Whatever the interrupts bring, the handler stays inside its messages, it
has stopped after as many interrupts as the messages have addresses and bytes,
and once it has stopped an interrupt changes the pending bit only. -/
theorem handler_inside (msgs : List I2cMsg) (hne : msgs ≠ []) (m : Machine) (rs : List Reply) :
    Along later (Inside msgs) (armed msgs m).machine rs ∧
    (interrupts msgs ≤ rs.length →
      (run later (armed msgs m).machine rs).xfer.state = .STATE_STOP) ∧
    Along later (fun m r => m.xfer.state = .STATE_STOP → Settled m r)
      (armed msgs m).machine rs := by
  have hall := along_true later (armed msgs m).machine rs
  have hinv := always_of_step (fun m => Placed msgs m.xfer ∧ ∃ n, Within m n)
    (fun m r hm _ => ⟨later_placed r hm.1,hm.2.imp' (·-1) (fun n hn => later_within r hn)⟩)
    (armed msgs m).machine rs ⟨armed_placed msgs hne m,_,armed_within msgs hne m⟩ hall
  refine ⟨?_,?_,?_⟩
  · exact along_of_always (fun m r hm _ => ⟨hm.1,fun buf i hop =>
      hm.2.elim fun n hn => within_accesses r hn buf i hop⟩) _ rs hinv hall
  · intro hlen
    have hwithin := run_within rs (armed_within msgs hne m)
    rw [Nat.sub_eq_zero_of_le hlen] at hwithin
    exact within_zero hwithin
  · exact along_of_always (fun m r _ _ hs => stopped_settled m r hs) _ rs hinv hall

/-- Nine interrupts that all say the same end three messages of six bytes. -/
theorem handler_inside_alike :
    (run later (armed exampleMsgs exampleMachine).machine
      (List.replicate 9 ⟨0,0xff⟩)).xfer.state = .STATE_STOP :=
  (handler_inside exampleMsgs (by decide) exampleMachine _).2.1 (by decide)

end BaseDrivers.I2cProgress
