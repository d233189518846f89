import Mathlib.Data.Int.Init
import BaseDrivers.Execution

/-!
# The timer of the second counter

Opening the device initializes its one timer, adds it and clears the counter;
the handler arms the timer again, and a release deletes it. None of them
looks at how often the device is open.
-/

set_option autoImplicit false

namespace BaseDrivers.SecondTimer
open BaseDrivers.Execution

inductive TimerFunction where
  | second_timer_handler
  deriving DecidableEq, Repr

/-- `struct second_dev`, its timer as whether it is pending and the function
it calls. The `atomic_t` counts one a second and would take 68 years to wrap
around. The last three fields are kept for the statements: how many opens
have not been released, whether a pending timer was initialized or added, and
whether the counter was set while it served somebody. -/
structure Second where
  counter : ℤ
  pending : Bool
  function : Option TimerFunction
  openers : ℕ
  misused : Bool
  cut : Bool
  deriving DecidableEq, Repr

/-- `second_devp` as `kzalloc` leaves it. -/
def boot : Second := ⟨0,false,none,0,false,false⟩

def init_timer (s : Second) : Second :=
  { s with pending := false, misused := s.misused || s.pending }

def add_timer (s : Second) : Second :=
  { s with pending := true, misused := s.misused || s.pending }

def mod_timer (s : Second) : Second := { s with pending := true }
def del_timer (s : Second) : Second := { s with pending := false }

def atomic_set (v : ℤ) (s : Second) : Second :=
  { s with counter := v, cut := s.cut || decide (0 < s.openers) }

def atomic_inc (s : Second) : Second := { s with counter := s.counter+1 }

def second_timer_handler (s : Second) : Second := atomic_inc (mod_timer s)

def second_open (s : Second) : Second :=
  let s := init_timer s
  let s := { s with function := some .second_timer_handler }
  let s := add_timer s
  atomic_set 0 s

def second_release (s : Second) : Second := del_timer s

/-- The kernel takes the timer off its list and calls its function. -/
def expire (s : Second) : Second :=
  match s.function with
  | some .second_timer_handler => second_timer_handler { s with pending := false }
  | none => { s with pending := false }

inductive Event where
  | second_open
  | second_release
  | expire
  deriving DecidableEq, Repr

def step (s : Second) : Event → Second
  | .second_open => let s := second_open s; { s with openers := s.openers+1 }
  | .second_release => let s := second_release s; { s with openers := s.openers-1 }
  | .expire => expire s

/-- A release belongs to an open, and only a pending timer expires. -/
def Admissible (s : Second) : Event → Prop
  | .second_open => True
  | .second_release => 0 < s.openers
  | .expire => s.pending = true

instance (s : Second) : (e : Event) → Decidable (Admissible s e)
  | .second_open => .isTrue trivial
  | .second_release => inferInstanceAs (Decidable (0 < s.openers))
  | .expire => inferInstanceAs (Decidable (s.pending = true))

/-- The timer runs exactly while the device is open, it was never initialized
or added while pending, and no open has cut short the count of another. -/
structure Exact (s : Second) : Prop where
  runs : s.pending = true ↔ 0 < s.openers
  used : s.misused = false
  kept : s.cut = false

/-- The device is opened by one at a time. -/
def Alone (s : Second) (e : Event) : Prop := e = .second_open → s.openers = 0

instance (s : Second) (e : Event) : Decidable (Alone s e) :=
  inferInstanceAs (Decidable (e = .second_open → s.openers = 0))

/-- A timer that is in use calls the handler. -/
def Armed (s : Second) : Prop := 0 < s.openers → s.function = some .second_timer_handler

theorem boot_exact : Exact boot := ⟨by decide,rfl,rfl⟩

theorem boot_armed : Armed boot := fun h => absurd h (Nat.lt_irrefl 0)

theorem expire_handler {s : Second} (h : s.function = some .second_timer_handler) :
    expire s = { s with pending := true, counter := s.counter+1 } := by
  rw [expire, h]
  rfl

theorem step_armed (s : Second) (e : Event) (hs : Armed s) : Armed (step s e) := by
  cases e with
  | second_open => exact fun _ => rfl
  | second_release => exact fun h => hs (Nat.lt_of_lt_of_le h (Nat.sub_le _ _))
  | expire =>
    intro h
    rw [step, expire] at h ⊢
    split at h <;> exact hs h

theorem open_exact (s : Second) (hs : Exact s) : Exact (step s .second_open) ↔ s.openers = 0 := by
  constructor
  · intro h
    have hkept := h.kept
    simpa [step, second_open, atomic_set, init_timer, add_timer, hs.kept] using hkept
  · intro hzero
    have hidle : s.pending = false := by
      rw [Bool.eq_false_iff, ne_eq, hs.runs, hzero]
      exact Nat.lt_irrefl 0
    constructor
    · exact iff_of_true rfl (Nat.succ_pos _)
    · simp [step, second_open, atomic_set, init_timer, add_timer, hs.used, hidle]
    · simp [step, second_open, atomic_set, init_timer, add_timer, hs.kept, hzero]

/-- The release deletes the timer whoever else has the device open. -/
theorem release_exact (s : Second) (hs : Exact s) (hone : s.openers ≤ 1) :
    Exact (step s .second_release) := by
  constructor
  · have hzero : s.openers-1 = 0 := by omega
    simp [step, second_release, del_timer, hzero]
  · exact hs.used
  · exact hs.kept

theorem expire_exact (s : Second) (hs : Exact s) (harm : Armed s) (hadm : s.pending = true) :
    Exact (step s .expire) := by
  rw [step, expire_handler (harm (hs.runs.mp hadm))]
  exact ⟨iff_of_true rfl (hs.runs.mp hadm),hs.used,hs.kept⟩

/-- What is known while the property holds. -/
structure Single (s : Second) : Prop where
  armed : Armed s
  one : s.openers ≤ 1

theorem step_exact (s : Second) (e : Event) (hi : Single s) (hs : Exact s)
    (hadm : Admissible s e) : Exact (step s e) ↔ Alone s e := by
  cases e with
  | second_open =>
    rw [open_exact s hs]
    exact ⟨fun h _ => h,fun h => h rfl⟩
  | second_release =>
    exact iff_of_true (release_exact s hs hi.one) (fun h => by cases h)
  | expire => exact iff_of_true (expire_exact s hs hi.armed hadm) (fun h => by cases h)

theorem step_single (s : Second) (e : Event) (hi : Single s) (hs : Exact s)
    (hadm : Admissible s e) (h : Exact (step s e)) : Single (step s e) := by
  constructor
  · exact step_armed s e hi.armed
  · have halone := (step_exact s e hi hs hadm).mp h
    cases e with
    | second_open => exact Nat.le_of_eq (congrArg Nat.succ (halone rfl))
    | second_release => exact Nat.le_trans (Nat.sub_le _ _) hi.one
    | expire =>
      rw [step, expire_handler (hi.armed (hs.runs.mp hadm))]
      exact hi.one

/-- In every run the timer is used and runs as the device is open exactly
while nobody opens a device that somebody has open. -/
theorem timer_exact_iff (es : List Event) (hadm : Along step Admissible boot es) :
    Always step Exact boot es ↔ Along step Alone boot es :=
  always_iff_along_of Single Exact (fun s e hi hs ha h => step_single s e hi hs ha h)
    (fun s e hi hs ha => step_exact s e hi hs ha) boot es ⟨boot_armed,by decide⟩ boot_exact hadm

/-- Open, a second, release, and opened again. -/
theorem timer_exact_reopened :
    Along step Admissible boot [.second_open,.expire,.second_release,.second_open] ∧
      Always step Exact boot [.second_open,.expire,.second_release,.second_open] :=
  ⟨by decide,(timer_exact_iff _ (by decide)).mpr (by decide)⟩

/-- The second of two opens initializes the timer the first one has pending. -/
theorem open_pending_timer : ¬ ∀ es : List Event, Along step Admissible boot es →
    Always step Exact boot es := by
  intro h
  have hused := (always_last (h [.second_open,.second_open] (by decide))).used
  revert hused
  decide

end BaseDrivers.SecondTimer
