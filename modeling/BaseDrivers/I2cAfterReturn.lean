import Mathlib.Tactic.SplitIfs
import BaseDrivers.I2cTransfer

/-!
# Interrupts after a transfer has returned

The handler works from the transfer record alone, and only a stop closes it.
After a stop every later interrupt finds nothing to do. A transfer left by
its timeout stays open, and the next interrupt goes on with its messages.
-/

set_option autoImplicit false

namespace BaseDrivers.I2cAfterReturn
open BaseDrivers.Execution BaseDrivers.I2cBus BaseDrivers.I2cTransfer

/-- An interrupt with any status and data. -/
def later (m : Machine) (r : Reply) : Machine :=
  s3c2440_i2c_xfer_irq r.iicstat { m with regs.iicds := r.iicds }

/-- The machine when `s3c2440_i2c_xfer` returns, by a stop or by the timeout
after `n` interrupts. -/
def returned (slave : Slave) (n : ℕ) (msgs : List I2cMsg) (m : Machine) : Machine :=
  ((loop (busTurn slave) n (armed msgs m)).elim id id).machine

/-- An interrupt touches no buffer, and it does the same whatever the
messages hold. -/
structure LeftAlone (m : Machine) (r : Reply) : Prop where
  buffers : ∀ buf i, .load buf i ∉ (later m r).ops ∧ .store buf i ∉ (later m r).ops
  memory : (later m r).mem = m.mem
  messages : ∀ msgs, later { m with xfer.msgs := msgs } r = { later m r with xfer.msgs := msgs }

theorem stopped_later (m : Machine) (r : Reply) (h : m.xfer.state = .STATE_STOP) :
    (later m r).xfer.state = .STATE_STOP ∧ LeftAlone m r := by
  have heq : ∀ msgs, later { m with xfer.msgs := msgs } r =
      clearPending { m with xfer.msgs := msgs, regs.iicds := r.iicds, ops := [] } := by
    intro msgs
    simp only [later, s3c2440_i2c_xfer_irq, h]
  have hm := heq m.xfer.msgs
  constructor
  · rw [hm]
    exact h
  · constructor
    · intro buf i
      rw [hm]
      simp [clearPending, Machine.setIiccon]
    · rw [hm]
      rfl
    · intro msgs
      rw [heq, hm]
      rfl

theorem stopped_run (m : Machine) (rs : List Reply) (h : m.xfer.state = .STATE_STOP) :
    Along later LeftAlone m rs := by
  induction rs generalizing m with
  | nil => trivial
  | cons r rs ih =>
    obtain ⟨hs,ha⟩ := stopped_later m r h
    exact ⟨ha,ih _ hs⟩

section Ops
variable (m : Machine)

theorem start_ops : m.ops <+: (s3c2440_i2c_start m).ops := by
  rw [start_eq]
  exact (List.prefix_append _ _).trans (List.prefix_append _ _)

theorem stop_ops (err : ℤ) : m.ops <+: (s3c2440_i2c_stop err m).ops := by
  simp only [s3c2440_i2c_stop]
  apply List.IsPrefix.trans _ (List.prefix_append _ _)
  split_ifs
  · exact (List.prefix_append _ _).trans (List.prefix_append _ _)
  · exact (List.prefix_append _ _).trans (List.prefix_append _ _)

theorem stop_iicstat (err : ℤ) : (s3c2440_i2c_stop err m).regs.iicstat =
    if isRead m.msg then 0x90 else 0xd0 := by
  have hmsg : ({ m with xfer.state := .STATE_STOP, xfer.err := err } : Machine).msg = m.msg := rfl
  simp only [s3c2440_i2c_stop, hmsg]
  split_ifs <;> rfl

theorem next_read_ops : m.ops <+: (next_read m).ops := by
  rw [next_read]
  split_ifs
  · exact List.prefix_append _ _
  · exact List.prefix_append _ _
  · exact start_ops m.nextMsg
  · exact stop_ops m 0

theorem clearPending_ops : m.ops <+: (clearPending m).ops := List.prefix_append _ _

end Ops

/-- Two messages a handler that reads them tells apart. -/
def probe (read : Bool) : List I2cMsg := [⟨0,if read then I2C_M_RD else 0,65535,0⟩]

section Open
variable {m : Machine} {r : Reply}

/-- What leaving the messages alone means for the two of them. -/
structure Blind (m : Machine) (r : Reply) : Prop where
  iicstat : (later { m with xfer.msgs := probe true } r).regs.iicstat =
    (later { m with xfer.msgs := probe false } r).regs.iicstat
  state : (later { m with xfer.msgs := probe true } r).xfer.state =
    (later { m with xfer.msgs := probe false } r).xfer.state
  msgs : (later { m with xfer.msgs := probe true } r).xfer.msgs = probe true
  loads : ∀ buf i, .load buf i ∉ (later { m with xfer.msgs := probe true } r).ops

theorem blind_of_left (h : LeftAlone m r) : Blind m r := by
  have ht := h.messages (probe true)
  have hf := h.messages (probe false)
  constructor
  · exact (congrArg (fun n : Machine => n.regs.iicstat) ht).trans
      (congrArg (fun n : Machine => n.regs.iicstat) hf).symm
  · exact (congrArg (fun n : Machine => n.xfer.state) ht).trans
      (congrArg (fun n : Machine => n.xfer.state) hf).symm
  · exact congrArg (fun n : Machine => n.xfer.msgs) ht
  · intro buf i
    rw [congrArg Machine.ops ht]
    exact (h.buffers buf i).1

/-- The storing of a byte stays in the record of the call. -/
theorem read_touches (h : m.xfer.state = .STATE_READ) : ¬ LeftAlone m r := by
  intro ha
  have hs : .store m.msg.buf m.xfer.cur_ptr ∈ (later m r).ops := by
    simp only [later, s3c2440_i2c_xfer_irq, h]
    apply (clearPending_ops _).subset
    apply (next_read_ops _).subset
    exact List.mem_singleton.mpr rfl
  exact (ha.buffers _ _).2 hs

theorem probe_read {p : Machine} {read : Bool} (hp : p.xfer.msgs = probe read) :
    isRead p.msg = read := by
  rw [Machine.msg, hp]
  cases read <;> decide

/-- A stop tells the two messages apart. -/
theorem stop_probes (e : ℤ) (p q : Machine) (hp : p.xfer.msgs = probe true)
    (hq : q.xfer.msgs = probe false) : (clearPending (s3c2440_i2c_stop e p)).regs.iicstat ≠
      (clearPending (s3c2440_i2c_stop e q)).regs.iicstat := by
  change (s3c2440_i2c_stop e p).regs.iicstat ≠ (s3c2440_i2c_stop e q).regs.iicstat
  rw [stop_iicstat, stop_iicstat, probe_read hp, probe_read hq]
  decide

/-- Going on to the next message moves the pointer to the messages. -/
theorem next_probe (p : Machine) (hp : p.xfer.msgs = probe true) :
    (clearPending (s3c2440_i2c_start p.nextMsg)).xfer.msgs ≠ probe true := by
  rw [start_eq]
  change p.xfer.msgs.tail ≠ probe true
  rw [hp]
  decide

theorem write_touches (h : m.xfer.state = .STATE_WRITE) : ¬ LeftAlone m r := by
  intro ha
  have hb := blind_of_left ha
  let p : Machine := { m with xfer.msgs := probe true, regs.iicds := r.iicds, ops := [] }
  let q : Machine := { m with xfer.msgs := probe false, regs.iicds := r.iicds, ops := [] }
  have hp : later { m with xfer.msgs := probe true } r = clearPending (case_write r.iicstat p) := by
    simp only [later, s3c2440_i2c_xfer_irq, h, p]
  have hq : later { m with xfer.msgs := probe false } r = clearPending (case_write r.iicstat q) := by
    simp only [later, s3c2440_i2c_xfer_irq, h, q]
  have hstat := hb.iicstat
  have hmsgs := hb.msgs
  have hloads := hb.loads
  rw [hp, hq] at hstat
  rw [hp] at hmsgs hloads
  have hend : isEndData q = isEndData p := rfl
  have hlast : isLastMsg q = isLastMsg p := rfl
  simp only [case_write, hend, hlast] at hstat hmsgs hloads
  split_ifs at hstat hmsgs hloads
  · exact stop_probes _ p q rfl rfl hstat
  · apply hloads p.msg.buf p.xfer.cur_ptr
    apply (clearPending_ops _).subset
    apply (List.prefix_append _ _).subset
    exact List.mem_cons_self
  · exact next_probe p rfl hmsgs
  · exact stop_probes _ p q rfl rfl hstat

theorem start_touches (h : m.xfer.state = .STATE_START) : ¬ LeftAlone m r := by
  intro ha
  have hb := blind_of_left ha
  let p : Machine := { m with xfer.msgs := probe true, regs.iicds := r.iicds, ops := [] }
  let q : Machine := { m with xfer.msgs := probe false, regs.iicds := r.iicds, ops := [] }
  have hp : later { m with xfer.msgs := probe true } r = clearPending (case_start r.iicstat p) := by
    simp only [later, s3c2440_i2c_xfer_irq, h, p]
  have hq : later { m with xfer.msgs := probe false } r = clearPending (case_start r.iicstat q) := by
    simp only [later, s3c2440_i2c_xfer_irq, h, q]
  have hstat := hb.iicstat
  have hstate := hb.state
  have hmsgs := hb.msgs
  rw [hp, hq] at hstat hstate
  rw [hp] at hmsgs
  have hrp : isRead p.msg = true := probe_read rfl
  have hrq : isRead q.msg = false := probe_read rfl
  have hend : isEndData q = isEndData p := rfl
  have hlast : isLastMsg q = isLastMsg p := rfl
  have hendr : isEndData (p.setState .STATE_READ) = isEndData p := rfl
  have hendw : isEndData (q.setState .STATE_WRITE) = isEndData p := rfl
  have hlastr : isLastMsg (p.setState .STATE_READ) = isLastMsg p := rfl
  by_cases hn : (r.iicstat &&& S3C2410_IICSTAT_LASTBIT != 0) = true
  · simp only [case_start, if_pos hn] at hstat
    exact stop_probes _ p q rfl rfl hstat
  · by_cases hl : (isLastMsg p && isEndData p) = true
    · simp only [case_start, if_neg hn, hend, hlast, if_pos hl] at hstat
      exact stop_probes _ p q rfl rfl hstat
    · simp only [case_start, if_neg hn, hend, hlast, if_neg hl, hrp, hrq, if_true,
        Bool.false_eq_true, if_false, next_read, case_write, hendr, hendw, hlastr] at hstate hmsgs
      cases he : isEndData p with
      | false =>
        -- the one message is read and the other one is written
        rw [he] at hstate
        simp only [Bool.not_false, if_true] at hstate
        split_ifs at hstate <;> cases hstate
      | true =>
        rw [he, Bool.and_true, Bool.not_eq_true] at hl
        rw [he, hl] at hmsgs
        exact next_probe (p.setState .STATE_READ) rfl hmsgs

end Open

section Runs

/-- The adapter is past its first transfer. -/
def Used (m : Machine) : Prop := m.xfer.state ≠ .STATE_IDLE

theorem start_used (m : Machine) : Used (s3c2440_i2c_start m) := by
  rw [Used, start_eq]
  intro h
  cases h

theorem stop_used (err : ℤ) (m : Machine) : Used (s3c2440_i2c_stop err m) := by
  rw [Used, stop_xfer]
  intro h
  cases h

theorem next_read_used (m : Machine) (h : Used m) : Used (next_read m) := by
  rw [next_read]
  split_ifs
  · exact h
  · exact h
  · exact start_used _
  · exact stop_used _ _

theorem case_write_used (iicSt : UInt32) (m : Machine) (h : Used m) :
    Used (case_write iicSt m) := by
  rw [case_write]
  split_ifs
  · exact stop_used _ _
  · exact h
  · exact start_used _
  · exact stop_used _ _

theorem case_start_used (iicSt : UInt32) (m : Machine) : Used (case_start iicSt m) := by
  rw [case_start]
  split_ifs
  · exact stop_used _ _
  · exact stop_used _ _
  · apply next_read_used
    intro h
    cases h
  · apply case_write_used
    intro h
    cases h

theorem irq_used (iicSt : UInt32) (m : Machine) (h : Used m) :
    Used (s3c2440_i2c_xfer_irq iicSt m) := by
  let c : Machine := { m with ops := [] }
  rw [s3c2440_i2c_xfer_irq]
  cases hs : m.xfer.state with
  | STATE_IDLE => exact (h hs).elim
  | STATE_START => exact case_start_used iicSt c
  | STATE_READ => exact next_read_used c.storeByte h
  | STATE_WRITE => exact case_write_used iicSt c h
  | STATE_STOP => exact h

theorem armed_used (msgs : List I2cMsg) (m : Machine) : Used (armed msgs m).machine :=
  start_used _

theorem returned_used (slave : Slave) (n : ℕ) (msgs : List I2cMsg) (m : Machine) :
    Used (returned slave n msgs m) := by
  have hstep : ∀ b b' : Bus, Used b.machine → busTurn slave b = .inl b' → Used b'.machine := by
    intro b b' hb hturn
    rw [(busTurn_continue hturn).1]
    exact irq_used _ _ hb
  have hleave : ∀ b b' : Bus, Used b.machine → busTurn slave b = .inr b' → Used b'.machine := by
    intro b b' hb hturn
    rw [(busTurn_leave hturn).1]
    exact hb
  have hk := loop_keeps _ _ hstep hleave n (armed msgs m) (armed_used msgs m)
  rw [returned]
  cases hl : loop (busTurn slave) n (armed msgs m) with
  | inl b =>
    rw [hl] at hk
    exact hk
  | inr b =>
    rw [hl] at hk
    exact hk

theorem open_touches {m : Machine} (hu : Used m) (hs : m.xfer.state ≠ .STATE_STOP) (r : Reply) :
    ¬ LeftAlone m r := by
  cases h : m.xfer.state with
  | STATE_IDLE => exact (hu h).elim
  | STATE_START => exact start_touches h
  | STATE_READ => exact read_touches h
  | STATE_WRITE => exact write_touches h
  | STATE_STOP => exact (hs h).elim

/-- Whatever interrupts come after the return, the messages and buffers of
the transfer are left alone, exactly when a stop has closed it. -/
theorem buffers_left_alone_iff (slave : Slave) (n : ℕ) (msgs : List I2cMsg) (m : Machine)
    (rs : List Reply) :
    Along later LeftAlone (returned slave n msgs m) rs ↔
      (returned slave n msgs m).xfer.state = .STATE_STOP ∨ rs = [] := by
  constructor
  · intro h
    cases rs with
    | nil => exact .inr rfl
    | cons r rs =>
      left
      by_contra hs
      exact open_touches (returned_used slave n msgs m) hs r h.1
  · intro h
    rcases h with hs | rfl
    · exact stopped_run _ rs hs
    · trivial

/-- The transfer times out after the address of a read, and the byte of a
late interrupt is stored in the buffer. -/
theorem late_byte_stored : ¬ Along later LeftAlone
    (returned exampleSlave 1 [⟨0x50,I2C_M_RD,2,8⟩] exampleMachine) [⟨0,0x55⟩] := by
  intro h
  have hread : (returned exampleSlave 1 [⟨0x50,I2C_M_RD,2,8⟩] exampleMachine).xfer.state =
      .STATE_READ := by decide +kernel
  exact read_touches hread h.1

end Runs

end BaseDrivers.I2cAfterReturn
