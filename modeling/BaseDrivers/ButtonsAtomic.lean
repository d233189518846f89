import Mathlib.Algebra.BigOperators.Group.Finset.Piecewise
import Mathlib.Data.Int.Init
import Mathlib.Tactic.SplitIfs
import BaseDrivers.Execution

/-!
# Opening the buttons under an atomic counter

Any number of processes open and close the device, and the atomic operations
of their calls come in any order. The counter starts at 1; a call that takes
it to 0 has the device, any other puts it back.
-/

set_option autoImplicit false

namespace BaseDrivers.ButtonsAtomic
open BaseDrivers.Execution

inductive Irq where
  | IRQ_EINT0 | IRQ_EINT2 | IRQ_EINT11 | IRQ_EINT19
  deriving DecidableEq, Repr

/-- The lines in the order in which they are requested, and freed. -/
def irqs : List Irq := [.IRQ_EINT0,.IRQ_EINT2,.IRQ_EINT11,.IRQ_EINT19]

/-- Where a process stands in its call, with the lines still to come. -/
inductive Pc where
  | user
  | busy
  | opening (left : List Irq)
  | closing (left : List Irq)
  deriving DecidableEq, Repr

/-- `held` counts the opens that returned 0 and whose close has not begun. -/
structure Proc where
  held : ℕ
  pc : Pc
  deriving DecidableEq, Repr

/-- The counter, and the lines with `buttons_irq` registered for `pins_desc`.
The `atomic_t` is 1 less what the processes have taken, and there are not 2³¹
of them, so it does not wrap around. -/
structure Shared where
  flag : ℤ
  registered : Irq → Bool

def atomic_dec_and_test (flag : ℤ) : ℤ × Bool := (flag-1,flag-1 == 0)
def atomic_inc (flag : ℤ) : ℤ := flag+1

def EBUSY : ℤ := 16

/-- Without a flag for sharing, a line takes one handler. -/
def request_irq (irq : Irq) (registered : Irq → Bool) : ℤ × (Irq → Bool) :=
  if registered irq then (-EBUSY,registered) else (0,Function.update registered irq true)

def free_irq (irq : Irq) (registered : Irq → Bool) : Irq → Bool :=
  Function.update registered irq false

/-- The single steps of `button_open` and `button_close`. `EBUSY` puts the
counter back and returns, `opened` and `closed` return 0. -/
inductive Action where
  | dec_and_test
  | EBUSY
  | request_irq
  | opened
  | inc
  | free_irq
  | closed
  deriving DecidableEq, Repr

/-- One step of a process. Only a process that has the device open closes it. -/
def act : Action → Proc → Shared → Option (Proc × Shared)
  | .dec_and_test, ⟨held,.user⟩, s =>
    some (⟨held,if (atomic_dec_and_test s.flag).2 then .opening irqs else .busy⟩,
      { s with flag := (atomic_dec_and_test s.flag).1 })
  | .EBUSY, ⟨held,.busy⟩, s => some (⟨held,.user⟩,{ s with flag := atomic_inc s.flag })
  | .request_irq, ⟨held,.opening (irq::left)⟩, s =>
    some (⟨held,.opening left⟩,{ s with registered := (request_irq irq s.registered).2 })
  | .opened, ⟨held,.opening []⟩, s => some (⟨held+1,.user⟩,s)
  | .inc, ⟨held+1,.user⟩, s => some (⟨held,.closing irqs⟩,{ s with flag := atomic_inc s.flag })
  | .free_irq, ⟨held,.closing (irq::left)⟩, s =>
    some (⟨held,.closing left⟩,{ s with registered := free_irq irq s.registered })
  | .closed, ⟨held,.closing []⟩, s => some (⟨held,.user⟩,s)
  | _, _, _ => none

/-- What one step can do. -/
inductive Acts : Action → Proc → Shared → Proc → Shared → Prop where
  | admitted {held : ℕ} {s : Shared} (h : s.flag = 1) :
    Acts .dec_and_test ⟨held,.user⟩ s ⟨held,.opening irqs⟩ { s with flag := s.flag-1 }
  | refused {held : ℕ} {s : Shared} (h : s.flag ≠ 1) :
    Acts .dec_and_test ⟨held,.user⟩ s ⟨held,.busy⟩ { s with flag := s.flag-1 }
  | busy {held : ℕ} {s : Shared} :
    Acts .EBUSY ⟨held,.busy⟩ s ⟨held,.user⟩ { s with flag := s.flag+1 }
  | request {held : ℕ} {irq : Irq} {left : List Irq} {s : Shared} :
    Acts .request_irq ⟨held,.opening (irq::left)⟩ s ⟨held,.opening left⟩
      { s with registered := Function.update s.registered irq true }
  | opened {held : ℕ} {s : Shared} : Acts .opened ⟨held,.opening []⟩ s ⟨held+1,.user⟩ s
  | inc {held : ℕ} {s : Shared} :
    Acts .inc ⟨held+1,.user⟩ s ⟨held,.closing irqs⟩ { s with flag := s.flag+1 }
  | free {held : ℕ} {irq : Irq} {left : List Irq} {s : Shared} :
    Acts .free_irq ⟨held,.closing (irq::left)⟩ s ⟨held,.closing left⟩
      { s with registered := Function.update s.registered irq false }
  | closed {held : ℕ} {s : Shared} : Acts .closed ⟨held,.closing []⟩ s ⟨held,.user⟩ s

/-- The line has the handler afterwards, whether or not it had it before. -/
theorem request_registered (irq : Irq) (registered : Irq → Bool) :
    (request_irq irq registered).2 = Function.update registered irq true := by
  rw [request_irq]
  split_ifs with h
  · rw [← h, Function.update_eq_self]
  · rfl

theorem act_acts {a : Action} {c c' : Proc} {s s' : Shared} (h : act a c s = some (c',s')) :
    Acts a c s c' s' := by
  revert h
  fun_cases act a c s with
  | case1 held =>
    rintro ⟨⟩
    by_cases hf : s.flag = 1
    · simpa [atomic_dec_and_test, hf] using @Acts.admitted held s hf
    · simpa [atomic_dec_and_test, sub_eq_zero, hf] using @Acts.refused held s hf
  | case3 held irq left =>
    rintro ⟨⟩
    rw [request_registered]
    exact .request
  | case8 =>
    intro h
    cases h
  | _ =>
    rintro ⟨⟩
    constructor

/-- How often a process has the device: from the counter's 0 to the close. -/
def holdings (c : Proc) : ℕ :=
  c.held+match c.pc with
    | .opening _ => 1
    | .user | .busy | .closing _ => 0

/-- What a process has taken from the counter. -/
def taken (c : Proc) : ℕ := holdings c+if c.pc = .busy then 1 else 0

theorem act_taken {a : Action} {c c' : Proc} {s s' : Shared} (h : act a c s = some (c',s')) :
    s'.flag+taken c' = s.flag+taken c := by
  cases act_acts h with
  | admitted hf => simp [taken, holdings]
  | refused hf => simp [taken, holdings]
  | busy => simp [taken, holdings]; omega
  | request => simp [taken, holdings]
  | opened => simp [taken, holdings]
  | inc => simp [taken, holdings]; omega
  | free => rfl
  | closed => rfl

/-- Only a counter of 1 gives the device to a process. -/
theorem act_holdings {a : Action} {c c' : Proc} {s s' : Shared} (h : act a c s = some (c',s')) :
    holdings c' ≤ holdings c ∨ s.flag = 1 ∧ holdings c' = holdings c+1 := by
  cases act_acts h with
  | admitted hf => exact .inr ⟨hf,rfl⟩
  | inc => exact .inl (Nat.le_succ _)
  | _ => exact .inl (Nat.le_refl _)

section Processes
variable {P : Type*} [DecidableEq P]

structure Device (P : Type*) where
  shared : Shared
  procs : P → Proc

/-- `flag` is `ATOMIC_INIT(1)`; no process has called the driver. -/
def boot : Device P := ⟨⟨1,fun _ => false⟩,fun _ => ⟨0,.user⟩⟩

def Enabled (d : Device P) (e : P × Action) : Prop := (act e.2 (d.procs e.1) d.shared).isSome

instance (d : Device P) (e : P × Action) : Decidable (Enabled d e) :=
  inferInstanceAs (Decidable ((act e.2 (d.procs e.1) d.shared).isSome = true))

/-- An action that is not the next one of its process changes nothing. -/
def step (d : Device P) (e : P × Action) : Device P :=
  match act e.2 (d.procs e.1) d.shared with
  | some r => ⟨r.2,Function.update d.procs e.1 r.1⟩
  | none => d

/-- The steps of an open which is not refused. -/
def button_open (p : P) : List (P × Action) :=
  (p,.dec_and_test) :: irqs.map (fun _ => (p,.request_irq))++[(p,.opened)]

/-- One process moves by an action of its own, or nothing changes. -/
theorem step_cases (d : Device P) (e : P × Action) :
    step d e = d ∨ ∃ c, act e.2 (d.procs e.1) d.shared = some (c,(step d e).shared) ∧
      (step d e).procs = Function.update d.procs e.1 c := by
  cases h : act e.2 (d.procs e.1) d.shared with
  | none => exact .inl (by rw [step, h])
  | some r => exact .inr ⟨r.1,by rw [step, h],by rw [step, h]⟩

def Holds (d : Device P) (p : P) : Prop := 0 < holdings (d.procs p)

/-- The counter is 1 less what the processes have taken: the one that has the
device, and the opens that have been refused and are to put it back. -/
def Counted (d : Device P) : Prop :=
  ∃ S : Finset P, (∀ p, p ∉ S → taken (d.procs p) = 0) ∧
    d.shared.flag+(∑ p ∈ S, taken (d.procs p) : ℕ) = 1

theorem sum_update (S : Finset P) (p : P) (hp : p ∈ S) (f : P → Proc) (c : Proc) :
    (∑ q ∈ S, taken (Function.update f p c q))+taken (f p) = (∑ q ∈ S, taken (f q))+taken c := by
  have hf : (fun q => taken (Function.update f p c q)) =
      Function.update (fun q => taken (f q)) p (taken c) := by
    funext q
    exact Function.apply_update (fun _ => taken) f p c q
  rw [hf, Finset.sum_update_of_mem hp, ← Finset.sum_erase_add S _ hp, Finset.sdiff_singleton_eq_erase]
  omega

theorem step_counted (d : Device P) (e : P × Action) (hd : Counted d) : Counted (step d e) := by
  obtain ⟨S,hS,hflag⟩ := hd
  rcases step_cases d e with h | ⟨c,hact,hprocs⟩
  · exact ⟨S,by rwa [h],by rwa [h]⟩
  · refine ⟨insert e.1 S,?_,?_⟩
    · intro q hq
      rw [Finset.mem_insert, not_or] at hq
      rw [hprocs, Function.update_of_ne hq.1]
      exact hS q hq.2
    · have hsum := sum_update (insert e.1 S) e.1 (Finset.mem_insert_self e.1 S) d.procs c
      have hins : ∑ q ∈ insert e.1 S, taken (d.procs q) = ∑ q ∈ S, taken (d.procs q) :=
        Finset.sum_insert_of_eq_zero_if_notMem (hS e.1)
      have htaken := act_taken hact
      rw [hprocs]
      omega

theorem counted_one {d : Device P} (hd : Counted d) :
    d.shared.flag = 1 ↔ ∀ p, taken (d.procs p) = 0 := by
  obtain ⟨S,hS,hflag⟩ := hd
  have hsum : d.shared.flag = 1 ↔ ∑ p ∈ S, taken (d.procs p) = 0 := by omega
  rw [hsum, Finset.sum_eq_zero_iff]
  constructor
  · intro h p
    by_cases hp : p ∈ S
    · exact h p hp
    · exact hS p hp
  · exact fun h p _ => h p

/-- The invariant of every interleaving. -/
structure Owned (d : Device P) : Prop where
  counted : Counted d
  once : ∀ p, holdings (d.procs p) ≤ 1
  one : ∀ p q, Holds d p → Holds d q → p = q

omit [DecidableEq P] in
theorem boot_owned : Owned (boot : Device P) where
  counted := ⟨∅,fun _ _ => rfl,rfl⟩
  once _ := Nat.zero_le 1
  one _ _ hp _ := absurd hp (Nat.lt_irrefl 0)

theorem step_owned (d : Device P) (e : P × Action) (hd : Owned d) : Owned (step d e) := by
  have hcount := step_counted d e hd.counted
  rcases step_cases d e with h | ⟨c,hact,hprocs⟩
  · rwa [h]
  · have hself : (step d e).procs e.1 = c := by rw [hprocs, Function.update_self]
    have hother (q : P) (hq : q ≠ e.1) : (step d e).procs q = d.procs q := by
      rw [hprocs, Function.update_of_ne hq]
    rcases act_holdings hact with hle | ⟨hone,hc⟩
    · have hkeep (q : P) : holdings ((step d e).procs q) ≤ holdings (d.procs q) := by
        by_cases hq : q = e.1
        · rwa [hq, hself]
        · rw [hother q hq]
      constructor
      · exact hcount
      · exact fun q => (hkeep q).trans (hd.once q)
      · exact fun p q hp hq => hd.one p q (hp.trans_le (hkeep p)) (hq.trans_le (hkeep q))
    · -- a counter of 1 says that nobody had the device
      have hzero (q : P) : holdings (d.procs q) = 0 := by
        have htaken := (counted_one hd.counted).mp hone q
        rw [taken] at htaken
        omega
      have hholds (q : P) (hq : Holds (step d e) q) : q = e.1 := by
        by_contra hne
        rw [Holds, hother q hne, hzero q] at hq
        exact absurd hq (Nat.lt_irrefl 0)
      constructor
      · exact hcount
      · intro q
        by_cases hq : q = e.1
        · rw [hq, hself, hc, hzero]
        · rw [hother q hq, hzero]
          exact Nat.zero_le 1
      · exact fun p q hp hq => (hholds p hp).trans (hholds q hq).symm

theorem runs_owned (as : List (P × Action)) : Always step Owned boot as :=
  always_of_step Owned (fun d e hd _ => step_owned d e hd) boot as boot_owned
    (along_true step boot as)

/-- The requests of an open that has the device, and its return. -/
theorem run_opening (p : P) (held : ℕ) (left : List Irq) (d : Device P)
    (hd : d.procs p = ⟨held,.opening left⟩) :
    (run step d (left.map (fun _ => (p,.request_irq))++[(p,.opened)])).procs p =
      ⟨held+1,.user⟩ := by
  induction left generalizing d with
  | nil => simp [run, step, hd, act]
  | cons irq left ih =>
    apply ih
    simp [step, hd, act]

theorem open_succeeds (p : P) (d : Device P) (hd : d.procs p = ⟨0,.user⟩)
    (hflag : d.shared.flag = 1) : (run step d (button_open p)).procs p = ⟨1,.user⟩ := by
  rw [button_open, List.cons_append, run]
  exact run_opening p 0 irqs _ (by simp [step, hd, act, atomic_dec_and_test, hflag])

/-- At most one process has the device, and with all of them outside the
driver the counter is 1 and whoever opens it next gets it. -/
structure Exclusive (d : Device P) : Prop where
  one : ∀ p q, Holds d p → Holds d q → p = q
  flag : (∀ p, d.procs p = ⟨0,.user⟩) → d.shared.flag = 1
  next_open : (∀ p, d.procs p = ⟨0,.user⟩) →
    ∀ p, (run step d (button_open p)).procs p = ⟨1,.user⟩

theorem owned_exclusive (d : Device P) (hd : Owned d) : Exclusive d := by
  have hflag (h : ∀ p, d.procs p = ⟨0,.user⟩) : d.shared.flag = 1 :=
    (counted_one hd.counted).mpr (fun p => by rw [h p]; rfl)
  constructor
  · exact hd.one
  · exact hflag
  · exact fun h p => open_succeeds p d (h p) (hflag h)

/-- Over any number of processes and any interleaving of their steps. -/
theorem open_exclusive (as : List (P × Action)) : Always step Exclusive boot as :=
  always_mono owned_exclusive (runs_owned as)

end Processes

end BaseDrivers.ButtonsAtomic
