import Mathlib.Algebra.Ring.Nat
import Mathlib.Tactic.SplitIfs
import BaseDrivers.ProcLog

/-!
# The log with an index for its readers

In the full version of the log the readers have an index of their own, which
an open puts back to the oldest byte. Its emptiness test compares it with
that same byte, so a log just opened counts as read.
-/

set_option autoImplicit false

namespace BaseDrivers.ProcLogFull
open BaseDrivers.Execution BaseDrivers.ProcLog

/-- The ring of the simple version and the index of the readers. -/
structure FullLog extends Log where
  mylog_r_for_read : ℕ
  deriving DecidableEq, Repr

def boot : FullLog := { ProcLog.boot with mylog_r_for_read := 0 }

def is_mylog_empty_for_read (l : FullLog) : Bool := l.mylog_r_for_read == l.mylog_r

def mylog_putc (c : UInt8) (l : FullLog) : FullLog :=
  let l :=
    if is_mylog_full l.toLog then
      let r := (l.mylog_r+1)%MYLOG_BUF_LEN
      { l with
        mylog_r := r
        mylog_r_for_read :=
          if (l.mylog_r_for_read+1)%MYLOG_BUF_LEN = r then r else l.mylog_r_for_read }
    else l
  { l with
    mylog_buf := l.mylog_buf.set l.mylog_w c
    mylog_w := (l.mylog_w+1)%MYLOG_BUF_LEN }

/-- The next position is taken from the oldest byte, not from the readers. -/
def mylog_getc_for_read (l : FullLog) : Option UInt8 × FullLog :=
  if is_mylog_empty_for_read l then (none,l)
  else (l.mylog_buf[l.mylog_r_for_read]?,
    { l with mylog_r_for_read := (l.mylog_r+1)%MYLOG_BUF_LEN })

def mymsg_open (l : FullLog) : FullLog := { l with mylog_r_for_read := l.mylog_r }

/-- What a read comes to. One that sleeps is not woken while no byte is put
and no signal arrives. -/
inductive Outcome where
  | EAGAIN
  | asleep
  | bytes (cs : List UInt8)
  deriving DecidableEq, Repr

/-- The copying loop, with the bytes copied so far. A byte is taken before
the count is looked at. -/
def copyTurn (count : ℕ) (s : List UInt8 × FullLog) :
    (List UInt8 × FullLog) ⊕ (List UInt8 × FullLog) :=
  match mylog_getc_for_read s.2 with
  | (none,l) => .inr (s.1,l)
  | (some c,l) => if s.1.length < count then .inl (s.1++[c],l) else .inr (s.1,l)

/-- `mymsg_read`. The loop ends after at most `count+1` turns, as one byte is
copied in every turn but the last. -/
def mymsg_read (nonblock : Bool) (count : ℕ) (l : FullLog) : Outcome × FullLog :=
  if is_mylog_empty_for_read l then (if nonblock then .EAGAIN else .asleep,l)
  else
    let r := (loop (copyTurn count) (count+1) ([],l)).elim id id
    (.bytes r.1,r.2)

/-- A read with a positive count. -/
structure Read where
  nonblock : Bool
  count : ℕ
  pos : 0 < count

def Outcome.copied : Outcome → List UInt8
  | .bytes cs => cs
  | .EAGAIN => []
  | .asleep => []

/-- The bytes a sequence of reads returns, and the log after it. A read that
sleeps is the last one. -/
def reads : FullLog → List Read → List UInt8 × FullLog
  | l, [] => ([],l)
  | l, r::rs =>
    let a := mymsg_read r.nonblock r.count l
    if a.1 = .asleep then ([],a.2) else (a.1.copied++(reads a.2 rs).1,(reads a.2 rs).2)

def asked (rs : List Read) : ℕ := (rs.map Read.count).sum

/-- Two opens, each followed by reads, return the bytes retained at the first
one, the oldest first, as far as the counts of the reads go. -/
def SeesAll (l : FullLog) (rs rs' : List Read) : Prop :=
  (reads (mymsg_open l) rs).1 = (retained l.toLog).take (asked rs) ∧
    (reads (mymsg_open (reads (mymsg_open l) rs).2) rs').1 = (retained l.toLog).take (asked rs')

instance (l : FullLog) (rs rs' : List Read) : Decidable (SeesAll l rs rs') :=
  inferInstanceAs (Decidable (_ ∧ _))

/-- The log after a sequence of bytes was put. -/
def logged (l : FullLog) (cs : List UInt8) : FullLog := run (fun l c => mylog_putc c l) l cs

/-- The ring itself is that of the simple version. -/
theorem putc_toLog (c : UInt8) (l : FullLog) :
    (mylog_putc c l).toLog = ProcLog.mylog_putc c l.toLog := by
  simp only [mylog_putc, ProcLog.mylog_putc]
  split_ifs <;> rfl

theorem logged_retained (l : FullLog) (cs : List UInt8) (h : Valid l.toLog)
    (hne : retained l.toLog ≠ []) : retained (logged l cs).toLog ≠ [] := by
  induction cs generalizing l with
  | nil => exact hne
  | cons c cs ih =>
    obtain ⟨hv,hr⟩ := putc_retained h c
    rw [← putc_toLog] at hv hr
    apply ih _ hv
    rw [hr, push]
    exact List.append_ne_nil_of_right_ne_nil _ (List.cons_ne_nil c [])

/-- Only a log into which nothing was put is empty. -/
theorem logged_empty (cs : List UInt8) : retained (logged boot cs).toLog = [] ↔ cs = [] := by
  cases cs with
  | nil => exact iff_of_true boot_retained rfl
  | cons c cs =>
    obtain ⟨hv,hr⟩ := putc_retained boot_valid c
    have hne := logged_retained (mylog_putc c boot) cs
      (by rw [putc_toLog]; exact hv) (by rw [putc_toLog]; exact hr ▸ by simp [push])
    exact iff_of_false hne (List.cons_ne_nil c cs)

/-- Readers who find the log empty leave it as it is. -/
theorem reads_nothing (l : FullLog) (rs : List Read) (h : is_mylog_empty_for_read l = true) :
    reads l rs = ([],l) := by
  induction rs with
  | nil => rfl
  | cons r rs ih =>
    rw [reads, mymsg_read, if_pos h]
    cases r.nonblock with
    | false => rfl
    | true =>
      rw [if_pos rfl, if_neg (by rintro ⟨⟩), ih]
      rfl

theorem open_empty (l : FullLog) : is_mylog_empty_for_read (mymsg_open l) = true := by
  simp [is_mylog_empty_for_read, mymsg_open]

theorem asked_zero (rs : List Read) : asked rs = 0 ↔ rs = [] := by
  cases rs with
  | nil => simp [asked]
  | cons r rs =>
    have hr := r.pos
    simp [asked]
    omega

/-- After an open nothing can be read, so all the log is seen exactly when
nothing is in it or nothing is read. -/
theorem opened_log_seen_iff (cs : List UInt8) (rs rs' : List Read) :
    SeesAll (logged boot cs) rs rs' ↔ cs = [] ∨ (rs = [] ∧ rs' = []) := by
  have hread : ∀ (l : FullLog) (rs : List Read), reads (mymsg_open l) rs = ([],mymsg_open l) :=
    fun l rs => reads_nothing _ rs (open_empty l)
  have htake : ∀ rs, [] = (retained (logged boot cs).toLog).take (asked rs) ↔ rs = [] ∨ cs = [] := by
    intro rs
    rw [eq_comm, List.take_eq_nil_iff, asked_zero, logged_empty]
  rw [SeesAll, hread, hread]
  simp only [htake]
  tauto

/-- One byte is put, and a program that opens the log and reads gets nothing. -/
theorem opened_log_unread :
    ¬ SeesAll (logged boot [65]) [⟨true,1,by decide⟩] [⟨true,1,by decide⟩] := by
  decide +kernel

end BaseDrivers.ProcLogFull
