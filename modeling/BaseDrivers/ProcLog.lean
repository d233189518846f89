import BaseDrivers.Execution
import BaseDrivers.CircularBuffer

/-!
# The log behind a proc entry

The log is a circular buffer with a read and a write index. One slot stays
free, so that equal indices mean an empty log. A byte put into a full log
moves the read index first. The log is a queue that drops its oldest byte
when it is full; the queue refines it call by call.
-/

set_option autoImplicit false

namespace BaseDrivers.ProcLog
open BaseDrivers.Execution BaseDrivers.CircularBuffer

def MYLOG_BUF_LEN : ℕ := 1024

structure Log where
  mylog_buf : List UInt8
  mylog_r : ℕ
  mylog_w : ℕ
  deriving DecidableEq, Repr

/-- Static storage starts with zeros. -/
def boot : Log := ⟨List.replicate MYLOG_BUF_LEN 0,0,0⟩

def is_mylog_empty (l : Log) : Bool := l.mylog_w == l.mylog_r

def is_mylog_full (l : Log) : Bool := (l.mylog_w+1)%MYLOG_BUF_LEN == l.mylog_r

def mylog_putc (c : UInt8) (l : Log) : Log :=
  let l := if is_mylog_full l then { l with mylog_r := (l.mylog_r+1)%MYLOG_BUF_LEN } else l
  { l with
    mylog_buf := l.mylog_buf.set l.mylog_w c
    mylog_w := (l.mylog_w+1)%MYLOG_BUF_LEN }

/-- The byte stored through the pointer when 1 is returned, and the log. -/
def mylog_getc (l : Log) : Option UInt8 × Log :=
  if is_mylog_empty l then (none,l)
  else (l.mylog_buf[l.mylog_r]?,{ l with mylog_r := (l.mylog_r+1)%MYLOG_BUF_LEN })

/-- The bytes between the two indices, the oldest first. -/
def retained (l : Log) : List UInt8 :=
  contents l.mylog_buf l.mylog_r (gap MYLOG_BUF_LEN l.mylog_r l.mylog_w)

/-- Both indices lie in the buffer. -/
structure Valid (l : Log) : Prop where
  length : l.mylog_buf.length = MYLOG_BUF_LEN
  r_lt : l.mylog_r < MYLOG_BUF_LEN
  w_lt : l.mylog_w < MYLOG_BUF_LEN

/-- A byte put into a queue of capacity `n` drops the oldest one when the
queue is full. -/
def push (n : ℕ) (q : List UInt8) (c : UInt8) : List UInt8 :=
  (if q.length = n then q.tail else q)++[c]

theorem boot_valid : Valid boot := by
  constructor
  · exact List.length_replicate
  · decide
  · decide

theorem boot_retained : retained boot = [] := rfl

section Log
variable {l : Log}

theorem length_retained (h : Valid l) :
    (retained l).length = gap MYLOG_BUF_LEN l.mylog_r l.mylog_w := by
  apply length_contents
  rw [h.length]
  exact (gap_lt h.r_lt h.w_lt).le

theorem empty_iff (h : Valid l) : is_mylog_empty l = true ↔ retained l = [] := by
  rw [is_mylog_empty, beq_iff_eq, ← gap_zero h.r_lt, ← length_retained h, List.length_eq_zero_iff]

theorem full_iff (h : Valid l) :
    is_mylog_full l = true ↔ (retained l).length = MYLOG_BUF_LEN-1 := by
  rw [is_mylog_full, beq_iff_eq, gap_full h.r_lt h.w_lt, length_retained h]

/-- Moving the read index drops the oldest byte. -/
theorem advance_retained (h : Valid l) (hne : retained l ≠ []) :
    Valid { l with mylog_r := (l.mylog_r+1)%MYLOG_BUF_LEN } ∧
      retained { l with mylog_r := (l.mylog_r+1)%MYLOG_BUF_LEN } = (retained l).tail := by
  have hg : gap MYLOG_BUF_LEN l.mylog_r l.mylog_w ≠ 0 := by
    intro hg
    rw [← length_retained h, List.length_eq_zero_iff] at hg
    exact hne hg
  constructor
  · exact ⟨h.length,Nat.mod_lt _ (by decide),h.w_lt⟩
  · rw [retained, gap_pop h.r_lt h.w_lt hg, ← List.drop_one, retained,
      ← contents_drop _ _ _ _ (by omega) (by rw [h.length]; exact (gap_lt h.r_lt h.w_lt).le)]
    apply contents_congr
    rw [h.length, Nat.mod_mod]

theorem append_retained (h : Valid l) (hroom : (retained l).length ≠ MYLOG_BUF_LEN-1)
    (c : UInt8) :
    Valid { l with
        mylog_buf := l.mylog_buf.set l.mylog_w c, mylog_w := (l.mylog_w+1)%MYLOG_BUF_LEN } ∧
      retained { l with
        mylog_buf := l.mylog_buf.set l.mylog_w c, mylog_w := (l.mylog_w+1)%MYLOG_BUF_LEN } =
          retained l++[c] := by
  rw [length_retained h] at hroom
  have hlt := gap_lt h.r_lt h.w_lt
  constructor
  · exact ⟨List.length_set.trans h.length,h.r_lt,Nat.mod_lt _ (by decide)⟩
  · have hp := contents_push l.mylog_buf l.mylog_r (gap MYLOG_BUF_LEN l.mylog_r l.mylog_w) c
      (by rw [h.length]; exact hlt)
    rw [h.length, gap_end h.r_lt h.w_lt, ← gap_push h.r_lt h.w_lt hroom] at hp
    exact hp

theorem putc_retained (h : Valid l) (c : UInt8) :
    Valid (mylog_putc c l) ∧ retained (mylog_putc c l) = push (MYLOG_BUF_LEN-1) (retained l) c := by
  rw [mylog_putc, push]
  by_cases hfull : is_mylog_full l = true
  · have hlen := (full_iff h).mp hfull
    have hne : retained l ≠ [] := by
      intro h0
      rw [h0] at hlen
      cases hlen
    obtain ⟨hv,hr⟩ := advance_retained h hne
    rw [if_pos hfull, if_pos hlen, ← hr]
    apply append_retained hv
    rw [hr, List.length_tail, hlen]
    decide
  · have hlen : ¬ (retained l).length = MYLOG_BUF_LEN-1 := fun hl => hfull ((full_iff h).mpr hl)
    rw [if_neg hfull, if_neg hlen]
    exact append_retained h hlen c

/-- The call returns 0 exactly when the log is empty, and delivers the oldest
byte otherwise. -/
theorem getc_retained (h : Valid l) : (mylog_getc l).1 = (retained l).head? ∧
    Valid (mylog_getc l).2 ∧ retained (mylog_getc l).2 = (retained l).tail := by
  rw [mylog_getc]
  by_cases hempty : is_mylog_empty l = true
  · have h0 := (empty_iff h).mp hempty
    rw [if_pos hempty, h0]
    exact ⟨rfl,h,rfl⟩
  · have hne : retained l ≠ [] := fun h0 => hempty ((empty_iff h).mpr h0)
    rw [if_neg hempty]
    constructor
    · have hlen := length_retained h
      have hpos := List.length_pos_of_ne_nil hne
      rw [List.head?_eq_getElem?, retained, getElem?_contents _ _ _ _
        (by rw [h.length]; exact (gap_lt h.r_lt h.w_lt).le), if_pos (by omega), h.length]
      simp only [Nat.add_zero, Nat.mod_eq_of_lt h.r_lt]
    · exact advance_retained h hne

end Log

section Runs

inductive Op where
  | putc (c : UInt8)
  | getc
  deriving DecidableEq, Repr

/-- The log, and what the reads so far have returned. -/
structure Session where
  log : Log
  got : List (Option UInt8)
  deriving DecidableEq, Repr

def step (s : Session) : Op → Session
  | .putc c => { s with log := mylog_putc c s.log }
  | .getc => ⟨(mylog_getc s.log).2,s.got++[(mylog_getc s.log).1]⟩

/-- The queue, what its reads have returned, and all the bytes ever put. -/
structure Spec where
  queue : List UInt8
  got : List (Option UInt8)
  put : List UInt8
  deriving DecidableEq, Repr

def specStep (n : ℕ) (q : Spec) : Op → Spec
  | .putc c => { q with queue := push n q.queue c, put := q.put++[c] }
  | .getc => { q with queue := q.queue.tail, got := q.got++[q.queue.head?] }

/-- The log is valid, holds the queue, has answered like it, and the queue is
the most recent part of the bytes put. -/
structure Agrees (s : Session) (q : Spec) : Prop where
  valid : Valid s.log
  retained : retained s.log = q.queue
  got : s.got = q.got
  recent : q.queue <:+ q.put
  bound : q.queue.length ≤ MYLOG_BUF_LEN-1

theorem push_suffix (n : ℕ) {q put : List UInt8} (h : q <:+ put) (c : UInt8) :
    push n q c <:+ put++[c] := by
  have happend : ∀ p : List UInt8, p <:+ put → p++[c] <:+ put++[c] := by
    rintro p ⟨t,rfl⟩
    exact ⟨t,(List.append_assoc t p [c]).symm⟩
  rw [push]
  split_ifs
  · exact happend _ ((List.tail_suffix q).trans h)
  · exact happend _ h

theorem push_length {n : ℕ} {q : List UInt8} (h : q.length ≤ n) (hn : 0 < n) (c : UInt8) :
    (push n q c).length ≤ n := by
  rw [push]
  split_ifs
  · rw [List.length_append, List.length_tail, List.length_singleton]
    omega
  · rw [List.length_append, List.length_singleton]
    omega

theorem step_agrees (s : Session) (q : Spec) (op : Op) (h : Agrees s q) :
    Agrees (step s op) (specStep (MYLOG_BUF_LEN-1) q op) := by
  cases op with
  | putc c =>
    obtain ⟨hv,hr⟩ := putc_retained h.valid c
    rw [h.retained] at hr
    exact ⟨hv,hr,h.got,push_suffix _ h.recent c,push_length h.bound (by decide) c⟩
  | getc =>
    obtain ⟨hg,hv,hr⟩ := getc_retained h.valid
    rw [h.retained] at hg hr
    constructor
    · exact hv
    · exact hr
    · simp only [step, specStep, h.got, hg]
    · exact (List.tail_suffix _).trans h.recent
    · exact (List.tail_suffix _).length_le.trans h.bound

/-- Over every sequence of puts and reads the log is the queue of all but one
of its slots that drops its oldest byte. -/
theorem log_is_dropping_queue (ops : List Op) :
    Agrees (run step ⟨boot,[]⟩ ops) (run (specStep (MYLOG_BUF_LEN-1)) ⟨[],[],[]⟩ ops) := by
  apply run_simulates Agrees step_agrees
  exact ⟨boot_valid,boot_retained,rfl,List.suffix_rfl,Nat.zero_le _⟩

/-- A full log moves its read index along. -/
example : (mylog_putc 7 ⟨List.replicate MYLOG_BUF_LEN 1,5,4⟩).mylog_r = 6 := by decide

end Runs

end BaseDrivers.ProcLog
