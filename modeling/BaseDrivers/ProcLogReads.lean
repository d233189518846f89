import Mathlib.Tactic.SplitIfs
import BaseDrivers.ProcLog

/-!
# Reading the log

A read takes a byte from the log before it looks at its count. The byte taken
last is dropped when the count is used up, so a read of less than the log
holds loses one byte.
-/

set_option autoImplicit false

namespace BaseDrivers.ProcLogReads
open BaseDrivers.Execution BaseDrivers.ProcLog

def EAGAIN : ℤ := 11

def ERESTARTSYS : ℤ := 512

/-- A read: whether the file does not block, whether a signal ends its sleep,
its count, and what storing the bytes to the user returns. -/
structure Read where
  nonblock : Bool
  signal : Bool
  count : ℕ
  put_user : ℕ → ℤ

/-- All copies to the user succeed. -/
def Stores (r : Read) : Prop := ∀ i, r.put_user i = 0

/-- The variables of the copying loop, and the bytes that have reached the
user. -/
structure Copy where
  error : ℤ
  i : ℕ
  buf : List UInt8
  log : Log

/-- The byte is taken from the log before the count is looked at. -/
def copyTurn (r : Read) (s : Copy) : Copy ⊕ Copy :=
  if s.error = 0 then
    match mylog_getc s.log with
    | (none,l) => .inr { s with log := l }
    | (some c,l) =>
      if s.i < r.count then
        .inl ⟨r.put_user s.i,s.i+1,if r.put_user s.i = 0 then s.buf++[c] else s.buf,l⟩
      else .inr { s with log := l }
  else .inr s

/-- The value returned, if the sleep ends; the bytes that have reached the
user, and the log. -/
structure Answer where
  ret : Option ℤ
  copied : List UInt8
  log : Log

/-- No byte is put during the sleep, so that only a signal ends it. -/
def wait_event_interruptible (condition signal : Bool) : Option ℤ :=
  if condition then some 0 else if signal then some (-ERESTARTSYS) else none

/-- The loop ends after at most `count+1` turns, as `i` grows in every turn
but the last. -/
def mymsg_read (r : Read) (l : Log) : Answer :=
  if r.nonblock && is_mylog_empty l then ⟨some (-EAGAIN),[],l⟩
  else
    match wait_event_interruptible (!is_mylog_empty l) r.signal with
    | none => ⟨none,[],l⟩
    | some error =>
      let s := (loop (copyTurn r) (r.count+1) ⟨error,0,[],l⟩).elim id id
      ⟨some (if s.error = 0 then s.i else s.error),s.buf,s.log⟩

/-- The log, and the bytes that have reached the user. -/
structure Reader where
  log : Log
  got : List UInt8

def step (s : Reader) (r : Read) : Reader :=
  ⟨(mymsg_read r s.log).log,s.got++(mymsg_read r s.log).copied⟩

/-- A call returns the number of bytes it copied, at most its count, or it
fails and copies nothing. -/
def Counts (r : Read) (a : Answer) : Prop :=
  a.copied.length ≤ r.count ∧
    ∀ n, a.ret = some n → n = a.copied.length ∨ (n < 0 ∧ a.copied = [])

/-- Nothing is copied from an empty log. -/
theorem read_empty (r : Read) {l : Log} (hempty : is_mylog_empty l = true) :
    (mymsg_read r l).copied = [] ∧ (mymsg_read r l).log = l ∧
      ∀ n, (mymsg_read r l).ret = some n → n < 0 := by
  rw [mymsg_read, hempty, Bool.and_true]
  cases r.nonblock with
  | true => exact ⟨rfl,rfl,by rintro n ⟨⟩; decide⟩
  | false =>
    cases r.signal with
    | false => exact ⟨rfl,rfl,by rintro n ⟨⟩⟩
    | true =>
      have hloop : loop (copyTurn r) (r.count+1) ⟨-ERESTARTSYS,0,[],l⟩ =
          .inr ⟨-ERESTARTSYS,0,[],l⟩ := loop_leave _ rfl
      rw [if_neg Bool.false_ne_true]
      show (Answer.mk _ _ _).copied = _ ∧ (Answer.mk _ _ _).log = _ ∧
        ∀ n, (Answer.mk _ _ _).ret = _ → _
      rw [hloop]
      refine ⟨rfl,rfl,?_⟩
      rintro n ⟨⟩
      show -ERESTARTSYS < 0
      decide

section Read
variable {r : Read}

/-- The loop ends when the log is empty or the count is used up, the latter
only after a byte was taken. -/
theorem turn_ends {s : Copy} (hs : s.error = 0)
    (hend : (mylog_getc s.log).1 = none ∨ r.count ≤ s.i) :
    copyTurn r s = .inr { s with log := (mylog_getc s.log).2 } := by
  rw [copyTurn, if_pos hs]
  cases hc : (mylog_getc s.log).1 with
  | none =>
    have hget : mylog_getc s.log = (none,(mylog_getc s.log).2) := Prod.ext hc rfl
    rw [hget]
  | some c =>
    have hget : mylog_getc s.log = (some c,(mylog_getc s.log).2) := Prod.ext hc rfl
    have hi : ¬ s.i < r.count := by
      rcases hend with h | h
      · rw [hc] at h
        cases h
      · omega
    rw [hget]
    simp only [if_neg hi]

variable (hput : Stores r)
include hput

theorem turn_copies {s : Copy} {c : UInt8} (hs : s.error = 0)
    (hc : (mylog_getc s.log).1 = some c) (hi : s.i < r.count) :
    copyTurn r s = .inl ⟨0,s.i+1,s.buf++[c],(mylog_getc s.log).2⟩ := by
  have hget : mylog_getc s.log = (some c,(mylog_getc s.log).2) := Prod.ext hc rfl
  rw [copyTurn, if_pos hs, hget]
  simp only [if_pos hi, hput s.i, if_true]

/-- The loop copies as many bytes as the count leaves, and takes one more. -/
theorem copies (k : ℕ) (s : Copy) (hs : s.error = 0) (hk : s.i+k = r.count) (hv : Valid s.log) :
    ∃ s', loop (copyTurn r) (k+1) s = .inr s' ∧ s'.error = 0 ∧
      s'.i = s.i+((retained s.log).take k).length ∧ s'.buf = s.buf++(retained s.log).take k ∧
      Valid s'.log ∧ retained s'.log = (retained s.log).drop (k+1) := by
  induction k generalizing s with
  | zero =>
    obtain ⟨-,hv',hr⟩ := getc_retained hv
    refine ⟨_,loop_leave 0 (turn_ends hs (.inr hk.ge)),hs,?_,?_,hv',?_⟩
    · rw [List.take_zero]
      rfl
    · rw [List.take_zero, List.append_nil]
    · rw [List.drop_one]
      exact hr
  | succ k ih =>
    obtain ⟨hg,hv',hr⟩ := getc_retained hv
    cases hq : retained s.log with
    | nil =>
      rw [hq] at hg hr
      exact ⟨_,loop_leave _ (turn_ends hs (.inl hg)),hs,rfl,(List.append_nil _).symm,hv',hr⟩
    | cons c q =>
      rw [hq] at hg hr
      have hmore := turn_copies hput hs hg (by omega)
      obtain ⟨s',hl,he,hi,hb,hv'',hr'⟩ := ih ⟨0,s.i+1,s.buf++[c],(mylog_getc s.log).2⟩ rfl
        (by show s.i+1+k = r.count; omega) hv'
      refine ⟨s',(loop_continue _ hmore).trans hl,he,?_,?_,hv'',?_⟩
      · rw [hi, hr, List.take_succ_cons, List.length_cons, List.tail_cons]
        show s.i+1+_ = _
        omega
      · rw [hb, hr, List.append_assoc]
        rfl
      · rw [hr', hr]
        rfl

/-- A read delivers the oldest bytes up to its count, and takes one more from
the log. -/
theorem read_spec {l : Log} (hv : Valid l) : (mymsg_read r l).copied = (retained l).take r.count ∧
    Valid (mymsg_read r l).log ∧
    retained (mymsg_read r l).log = (retained l).drop (r.count+1) ∧ Counts r (mymsg_read r l) := by
  cases hempty : is_mylog_empty l with
  | true =>
    have hnone : (mymsg_read r l).copied = [] ∧ (mymsg_read r l).log = l ∧
        ∀ n, (mymsg_read r l).ret = some n → n < 0 := read_empty r hempty
    have h0 := (empty_iff hv).mp hempty
    rw [hnone.1, hnone.2.1, h0, List.take_nil, List.drop_nil]
    refine ⟨rfl,hv,rfl,?_⟩
    rw [Counts, hnone.1]
    exact ⟨Nat.zero_le _,fun n hn => .inr ⟨hnone.2.2 n hn,rfl⟩⟩
  | false =>
    obtain ⟨s,hl,he,hi,hb,hv',hr⟩ := copies hput r.count ⟨0,0,[],l⟩ rfl (Nat.zero_add _) hv
    have hread : mymsg_read r l = ⟨some s.i,s.buf,s.log⟩ := by
      rw [mymsg_read, hempty, Bool.and_false, if_neg Bool.false_ne_true]
      show Answer.mk _ _ _ = _
      rw [hl]
      show Answer.mk (some (if s.error = 0 then _ else _)) _ _ = _
      rw [if_pos he]
      rfl
    rw [hread]
    refine ⟨hb,hv',hr,?_,?_⟩
    · rw [hb]
      exact List.length_take_le _ _
    · rintro n ⟨⟩
      left
      rw [hi, hb]
      simp

end Read

section Runs

theorem step_spec {s : Reader} {r : Read} (hv : Valid s.log) (hput : Stores r) :
    (step s r).got = s.got++(retained s.log).take r.count ∧ Valid (step s r).log ∧
      retained (step s r).log = (retained s.log).drop (r.count+1) := by
  obtain ⟨hc,hv',hr,-⟩ := read_spec hput hv
  exact ⟨congrArg (s.got++·) hc,hv',hr⟩

/-- An invariant of the reads whose copies succeed. -/
theorem reads_always (I : Reader → Prop)
    (hstep : ∀ s r, I s → Valid s.log → Stores r → I (step s r)) {rs : List Read}
    (hput : ∀ r ∈ rs, Stores r) {s : Reader} (hv : Valid s.log) (hs : I s) :
    Always step (fun s => I s ∧ Valid s.log) s rs :=
  always_of_step _ (fun s r h hr => ⟨hstep s r h.1 h.2 hr,(step_spec h.2 hr).2.1⟩) s rs ⟨hs,hv⟩
    ((along_forall step Stores s rs).mpr hput)

/-- Bytes taken from the log never come back. -/
theorem reads_lose {rs : List Read} (hput : ∀ r ∈ rs, Stores r) {s : Reader} (hv : Valid s.log) :
    ((run step s rs).got++retained (run step s rs).log).length ≤
      (s.got++retained s.log).length := by
  have hstep : ∀ (t : Reader) (r : Read),
      (t.got++retained t.log).length ≤ (s.got++retained s.log).length → Valid t.log → Stores r →
      ((step t r).got++retained (step t r).log).length ≤ (s.got++retained s.log).length := by
    intro t r ht hvt hr
    obtain ⟨hg,-,hleft⟩ := step_spec hvt hr
    apply Nat.le_trans _ ht
    rw [hg, hleft]
    simp only [List.length_append, List.length_take, List.length_drop]
    omega
  exact (always_last (reads_always _ hstep hput hv (Nat.le_refl _))).1

/-- Reads of an empty log return nothing. -/
theorem reads_nothing {rs : List Read} (hput : ∀ r ∈ rs, Stores r) {s : Reader}
    (hv : Valid s.log) (h0 : retained s.log = []) :
    (run step s rs).got = s.got ∧ retained (run step s rs).log = [] := by
  have hstep : ∀ (t : Reader) (r : Read), t.got = s.got ∧ retained t.log = [] → Valid t.log →
      Stores r → (step t r).got = s.got ∧ retained (step t r).log = [] := by
    intro t r ht hvt hr
    obtain ⟨hg,-,hleft⟩ := step_spec hvt hr
    rw [hg, hleft, ht.1, ht.2, List.take_nil, List.append_nil, List.drop_nil]
    exact ⟨rfl,rfl⟩
  exact (always_last (reads_always _ hstep hput hv ⟨rfl,h0⟩)).1

/-- The bytes returned and those still in the log are the ones it held
before, and every call returns the number of bytes it copied. -/
def KeepsAll (l : Log) (rs : List Read) : Prop :=
  (run step ⟨l,[]⟩ rs).got++retained (run step ⟨l,[]⟩ rs).log = retained l ∧
    Along step (fun s r => Counts r (mymsg_read r s.log)) ⟨l,[]⟩ rs

theorem reads_count (l : Log) (hv : Valid l) (rs : List Read)
    (hput : ∀ r ∈ rs, Stores r) :
    Along step (fun s r => Counts r (mymsg_read r s.log)) ⟨l,[]⟩ rs :=
  along_of_always (fun _ _ h hr => (read_spec hr h.2).2.2.2) _ rs
    (reads_always (fun _ => True) (fun _ _ _ _ _ => trivial) hput hv trivial)
    ((along_forall step Stores _ rs).mpr hput)

/-- Nothing is lost exactly where the first read has room for all the log
holds. -/
theorem reads_keep_iff (l : Log) (hv : Valid l) (rs : List Read)
    (hput : ∀ r ∈ rs, Stores r) :
    KeepsAll l rs ↔ ∀ r ∈ rs.head?, (retained l).length ≤ r.count := by
  cases rs with
  | nil => exact iff_of_true ⟨rfl,trivial⟩ (fun _ hr => by cases hr)
  | cons r rs =>
    have hput' : ∀ r ∈ rs, Stores r := fun r hr => hput r (List.mem_cons_of_mem _ hr)
    obtain ⟨hg,hv',hr⟩ := step_spec (s := ⟨l,[]⟩) hv (hput r List.mem_cons_self)
    constructor
    · rintro ⟨hall,-⟩ _ ⟨⟩
      by_contra hshort
      have hlose := reads_lose hput' hv'
      rw [run] at hall
      rw [hall, hg, hr, List.nil_append, List.length_append, List.length_take,
        List.length_drop] at hlose
      simp only at hlose
      omega
    · intro hroom
      have hlen := hroom r rfl
      rw [List.nil_append, List.take_of_length_le hlen] at hg
      rw [List.drop_of_length_le (Nat.le_succ_of_le hlen)] at hr
      obtain ⟨hgot,hleft⟩ := reads_nothing hput' hv' hr
      constructor
      · rw [run, hgot, hleft, hg, List.append_nil]
      · exact reads_count l hv _ hput

/-- Two bytes in the log. -/
def exampleLog : Log := mylog_putc 66 (mylog_putc 65 boot)

theorem exampleLog_valid : Valid exampleLog :=
  (putc_retained (putc_retained boot_valid 65).1 66).1

/-- A read of two bytes and one that finds nothing. -/
theorem reads_keep_two : KeepsAll exampleLog
    [⟨true,false,2,fun _ => 0⟩,⟨false,true,1,fun _ => 0⟩] :=
  (reads_keep_iff exampleLog exampleLog_valid _ (by simp [Stores])).mpr (by
    rintro _ ⟨⟩
    decide +kernel)

/-- One of the two bytes is read, and the other one is lost. -/
theorem reads_lose_one : ¬ KeepsAll exampleLog [⟨true,false,1,fun _ => 0⟩] := by
  intro h
  exact absurd h.1 (by decide +kernel)

end Runs

end BaseDrivers.ProcLogReads
