import Mathlib.Logic.Function.Basic
import Mathlib.Tactic.SplitIfs
import BaseDrivers.ButtonsNoblock
import BaseDrivers.Retrigger

/-!
# The debounced buttons under a semaphore

A semaphore lets one process at a time open the device; any number of them can
share the open file and read it at once. Every edge starts the timer again, and
the timer stores the key and sets `ev_press`, which reads wait for and clear.
The steps of the processes, the edges, the levels of the pins and the ticks of
the clock come in any order.
-/

set_option autoImplicit false

namespace BaseDrivers.ButtonsNoshake
open BaseDrivers.Execution BaseDrivers.Retrigger
open BaseDrivers.ButtonsAtomic (Irq irqs request_irq free_irq request_registered)
open BaseDrivers.ButtonsNoblock (Pin PinDesc pins_desc dev_id key_of)

/-- What a read has copied, with how many keys had been stored then, and how
many reads had returned when it began. -/
structure Copy where
  key : UInt8
  source : ℕ
  begun : ℕ
  deriving DecidableEq, Repr

/-- Where a process stands in its call. -/
inductive Pc where
  | user
  | waiting
  | opening (left : List Irq)
  | reading (begun : ℕ)
  | woken (begun : ℕ)
  | copied (c : Copy)
  | closing (left : List Irq)
  deriving DecidableEq, Repr

/-- `held` counts the opens that returned 0 and whose close has not begun. -/
structure Proc where
  held : ℕ
  pc : Pc
  deriving DecidableEq, Repr

/-- The static variables, the lines, the pins and the clock, how many files are
open and how many reads are in progress. For the statements: when the edges
came, when which keys were stored, and what the reads have returned. -/
structure Shared where
  button_lock : ℕ
  registered : Irq → Bool
  files : ℕ
  busy : ℕ
  gpio : Pin → UInt32
  irq_pd : Option PinDesc
  jiffies : ℕ
  buttons_timer : Option ℕ
  key_val : UInt8
  ev_press : Bool
  edges : List ℕ
  keys : List (ℕ × UInt8)
  reads : List Copy

section Interrupts

/-- The timer is put off to a hundredth of a second from now. -/
def buttons_irq (HZ : ℕ) (dev_id : PinDesc) (s : Shared) : Shared :=
  { s with
    irq_pd := some dev_id
    buttons_timer := some (s.jiffies+HZ/100)
    edges := s.edges++[s.jiffies] }

def buttons_timer_function (s : Shared) : Shared :=
  match s.irq_pd with
  | none => s
  | some pindesc =>
    let key := key_of pindesc (s.gpio pindesc.pin)
    { s with key_val := key, ev_press := true, keys := s.keys++[(s.jiffies,key)] }

/-- A tick of the clock, and the timer if it is due. -/
def tick (s : Shared) : Shared :=
  let s := { s with jiffies := s.jiffies+1 }
  match s.buttons_timer with
  | some expires =>
    if expires ≤ s.jiffies then buttons_timer_function { s with buttons_timer := none } else s
  | none => s

def edge (HZ : ℕ) (irq : Irq) (s : Shared) : Shared :=
  if s.registered irq then buttons_irq HZ dev_id s else s

end Interrupts

/-- The single steps of `button_open`, `button_read` and `button_close`. With
`O_NOBLOCK` an open and a read return where the others wait. A signal ends
the wait of a read as well, and the read goes on. -/
inductive Action where
  | down_trylock
  | down_wait
  | down
  | request_irq
  | opened
  | read (size : ℕ)
  | read_nonblock (size : ℕ)
  | wake (signal : Bool)
  | copy_to_user
  | clear
  | close
  | free_irq
  | up
  deriving DecidableEq, Repr

/-- One step of a process. While a file is open every process can read it. The
process that opened it closes it, and the file is released when no read is in
progress. -/
def act : Action → Proc → Shared → Option (Proc × Shared)
  | .down_trylock, ⟨held,.user⟩, s =>
    if 0 < s.button_lock then some (⟨held,.opening irqs⟩,{ s with button_lock := s.button_lock-1 })
    else some (⟨held,.user⟩,s)
  | .down_wait, ⟨held,.user⟩, s => some (⟨held,.waiting⟩,s)
  | .down, ⟨held,.waiting⟩, s =>
    if 0 < s.button_lock then some (⟨held,.opening irqs⟩,{ s with button_lock := s.button_lock-1 })
    else none
  | .request_irq, ⟨held,.opening (irq::left)⟩, s =>
    some (⟨held,.opening left⟩,{ s with registered := (request_irq irq s.registered).2 })
  | .opened, ⟨held,.opening []⟩, s => some (⟨held+1,.user⟩,{ s with files := s.files+1 })
  | .read size, ⟨held,.user⟩, s =>
    if s.files = 0 then none
    else if size ≠ 1 then some (⟨held,.user⟩,s)
    else some (⟨held,.reading s.reads.length⟩,{ s with busy := s.busy+1 })
  | .read_nonblock size, ⟨held,.user⟩, s =>
    if s.files = 0 then none
    else if size ≠ 1 ∨ s.ev_press = false then some (⟨held,.user⟩,s)
    else some (⟨held,.woken s.reads.length⟩,{ s with busy := s.busy+1 })
  | .wake signal, ⟨held,.reading begun⟩, s =>
    if s.ev_press || signal then some (⟨held,.woken begun⟩,s) else none
  | .copy_to_user, ⟨held,.woken begun⟩, s =>
    some (⟨held,.copied ⟨s.key_val,s.keys.length,begun⟩⟩,s)
  | .clear, ⟨held,.copied c⟩, s =>
    some (⟨held,.user⟩,{ s with ev_press := false, busy := s.busy-1, reads := s.reads++[c] })
  | .close, ⟨held+1,.user⟩, s =>
    if s.busy = 0 then some (⟨held,.closing irqs⟩,{ s with files := s.files-1 }) else none
  | .free_irq, ⟨held,.closing (irq::left)⟩, s =>
    some (⟨held,.closing left⟩,{ s with registered := free_irq irq s.registered })
  | .up, ⟨held,.closing []⟩, s =>
    some (⟨held,.user⟩,{ s with button_lock := s.button_lock+1 })
  | _, _, _ => none

/-- What one step can do. -/
inductive Acts : Action → Proc → Shared → Proc → Shared → Prop where
  | trylock {held : ℕ} {s : Shared} (h : 0 < s.button_lock) :
    Acts .down_trylock ⟨held,.user⟩ s ⟨held,.opening irqs⟩
      { s with button_lock := s.button_lock-1 }
  | refused {held : ℕ} {s : Shared} (h : s.button_lock = 0) :
    Acts .down_trylock ⟨held,.user⟩ s ⟨held,.user⟩ s
  | wait {held : ℕ} {s : Shared} : Acts .down_wait ⟨held,.user⟩ s ⟨held,.waiting⟩ s
  | down {held : ℕ} {s : Shared} (h : 0 < s.button_lock) :
    Acts .down ⟨held,.waiting⟩ s ⟨held,.opening irqs⟩ { s with button_lock := s.button_lock-1 }
  | request {held : ℕ} {irq : Irq} {left : List Irq} {s : Shared} :
    Acts .request_irq ⟨held,.opening (irq::left)⟩ s ⟨held,.opening left⟩
      { s with registered := Function.update s.registered irq true }
  | opened {held : ℕ} {s : Shared} :
    Acts .opened ⟨held,.opening []⟩ s ⟨held+1,.user⟩ { s with files := s.files+1 }
  | read {held : ℕ} {s : Shared} (h : 0 < s.files) :
    Acts (.read 1) ⟨held,.user⟩ s ⟨held,.reading s.reads.length⟩ { s with busy := s.busy+1 }
  | invalid {held size : ℕ} {s : Shared} (h : size ≠ 1) :
    Acts (.read size) ⟨held,.user⟩ s ⟨held,.user⟩ s
  | ready {held : ℕ} {s : Shared} (h : 0 < s.files) (hp : s.ev_press = true) :
    Acts (.read_nonblock 1) ⟨held,.user⟩ s ⟨held,.woken s.reads.length⟩
      { s with busy := s.busy+1 }
  | again {held size : ℕ} {s : Shared} (h : size ≠ 1 ∨ s.ev_press = false) :
    Acts (.read_nonblock size) ⟨held,.user⟩ s ⟨held,.user⟩ s
  | wake {held begun : ℕ} {signal : Bool} {s : Shared} (h : s.ev_press = true ∨ signal = true) :
    Acts (.wake signal) ⟨held,.reading begun⟩ s ⟨held,.woken begun⟩ s
  | copy {held begun : ℕ} {s : Shared} :
    Acts .copy_to_user ⟨held,.woken begun⟩ s ⟨held,.copied ⟨s.key_val,s.keys.length,begun⟩⟩ s
  | clear {held : ℕ} {c : Copy} {s : Shared} :
    Acts .clear ⟨held,.copied c⟩ s ⟨held,.user⟩
      { s with ev_press := false, busy := s.busy-1, reads := s.reads++[c] }
  | close {held : ℕ} {s : Shared} (h : s.busy = 0) :
    Acts .close ⟨held+1,.user⟩ s ⟨held,.closing irqs⟩ { s with files := s.files-1 }
  | free {held : ℕ} {irq : Irq} {left : List Irq} {s : Shared} :
    Acts .free_irq ⟨held,.closing (irq::left)⟩ s ⟨held,.closing left⟩
      { s with registered := Function.update s.registered irq false }
  | up {held : ℕ} {s : Shared} :
    Acts .up ⟨held,.closing []⟩ s ⟨held,.user⟩ { s with button_lock := s.button_lock+1 }

theorem act_acts {a : Action} {c c' : Proc} {s s' : Shared} (h : act a c s = some (c',s')) :
    Acts a c s c' s' := by
  revert h
  fun_cases act a c s with
  | case2 held =>
    rintro ⟨⟩
    exact .refused (Nat.eq_zero_of_not_pos ‹_›)
  | case6 held irq left =>
    rintro ⟨⟩
    rw [request_registered]
    exact .request
  | case10 size _ held hfiles hsize =>
    rintro ⟨⟩
    obtain rfl := not_ne_iff.mp hsize
    exact .read (Nat.pos_of_ne_zero hfiles)
  | case13 size _ held hfiles hready =>
    rintro ⟨⟩
    obtain ⟨hsize,hp⟩ := not_or.mp hready
    obtain rfl := not_ne_iff.mp hsize
    exact .ready (Nat.pos_of_ne_zero hfiles) (Bool.of_not_eq_false hp)
  | case14 signal held =>
    rintro ⟨⟩
    exact .wake (Bool.or_eq_true_iff.mp ‹_›)
  | case5 | case8 | case11 | case15 | case19 | case22 =>
    intro h
    cases h
  | _ =>
    rintro ⟨⟩
    constructor <;> assumption

theorem edge_cases (HZ : ℕ) (irq : Irq) (s : Shared) :
    edge HZ irq s = s ∨ edge HZ irq s = buttons_irq HZ dev_id s := ite_eq_or_eq _ _ _ |>.symm

/-- What a tick can do. -/
structure Ticked (s s' : Shared) : Prop where
  lock : s'.button_lock = s.button_lock
  lines : s'.registered = s.registered
  pin : s'.irq_pd = s.irq_pd
  reads : s'.reads = s.reads
  keys : s'.keys = s.keys ∧ s'.key_val = s.key_val ∧ s'.ev_press = s.ev_press ∨
    ∃ pindesc, s.irq_pd = some pindesc ∧ s'.key_val = key_of pindesc (s.gpio pindesc.pin) ∧
      s'.keys = s.keys++[(s.jiffies+1,s'.key_val)] ∧ s'.ev_press = true

theorem timer_function_ticked (s : Shared) : s.irq_pd = none ∧ buttons_timer_function s = s ∨
    ∃ pindesc, s.irq_pd = some pindesc ∧ buttons_timer_function s =
      { s with
        key_val := key_of pindesc (s.gpio pindesc.pin)
        ev_press := true
        keys := s.keys++[(s.jiffies,key_of pindesc (s.gpio pindesc.pin))] } := by
  cases hpd : s.irq_pd with
  | none => exact .inl ⟨rfl,by rw [buttons_timer_function, hpd]⟩
  | some pindesc => exact .inr ⟨pindesc,rfl,by rw [buttons_timer_function, hpd]⟩

theorem tick_ticked (s : Shared) : Ticked s (tick s) := by
  dsimp only [tick]
  split
  · rename_i expires ht
    split_ifs with he
    · rcases timer_function_ticked { s with jiffies := s.jiffies+1, buttons_timer := none } with
        ⟨hpd,hf⟩ | ⟨pindesc,hpd,hf⟩
      · rw [hf]
        exact ⟨rfl,rfl,rfl,rfl,.inl ⟨rfl,rfl,rfl⟩⟩
      · rw [hf]
        exact ⟨rfl,rfl,rfl,rfl,.inr ⟨pindesc,hpd,rfl,rfl,rfl⟩⟩
    · exact ⟨rfl,rfl,rfl,rfl,.inl ⟨rfl,rfl,rfl⟩⟩
  · exact ⟨rfl,rfl,rfl,rfl,.inl ⟨rfl,rfl,rfl⟩⟩

section Processes
variable {P : Type*} [DecidableEq P] (HZ : ℕ)

structure Device (P : Type*) where
  shared : Shared
  procs : P → Proc

/-- `DECLARE_MUTEX` and the timer added in `button_drv_init`, which is due at
once and finds no `irq_pd`. The source gives it its function under the name
`buttons_function`. -/
def boot (gpio : Pin → UInt32) (jiffies : ℕ) : Device P where
  shared := ⟨1,fun _ => false,0,0,gpio,none,jiffies,some 0,0,false,[],[],[]⟩
  procs _ := ⟨0,.user⟩

inductive Event (P : Type*) where
  | act (p : P) (a : Action)
  | edge (irq : Irq)
  | level (pin : Pin) (pinval : UInt32)
  | tick
  deriving DecidableEq

/-- An action that is not the next one of its process changes nothing. -/
def step (d : Device P) : Event P → Device P
  | .act p a =>
    match act a (d.procs p) d.shared with
    | some r => ⟨r.2,Function.update d.procs p r.1⟩
    | none => d
  | .edge irq => { d with shared := edge HZ irq d.shared }
  | .level pin pinval => { d with shared.gpio := Function.update d.shared.gpio pin pinval }
  | .tick => { d with shared := tick d.shared }

/-- One process moves by an action of its own, or nothing changes. -/
theorem act_cases (d : Device P) (p : P) (a : Action) : step HZ d (.act p a) = d ∨
    ∃ c, Acts a (d.procs p) d.shared c (step HZ d (.act p a)).shared ∧
      (step HZ d (.act p a)).procs = Function.update d.procs p c := by
  cases h : act a (d.procs p) d.shared with
  | none => exact .inl (by rw [step, h])
  | some r =>
    refine .inr ⟨r.1,?_,by rw [step, h]⟩
    rw [step, h]
    exact act_acts h

end Processes

section Semaphore

/-- How often a process has the semaphore. -/
def holdings (c : Proc) : ℕ :=
  c.held+match c.pc with
    | .opening _ | .closing _ => 1
    | _ => 0

/-- The lines a holder has. -/
def Requested (c : Proc) (irq : Irq) : Prop :=
  match c.pc with
  | .opening left => irq ∉ left
  | .closing left => irq ∈ left
  | _ => True

def left (c : Proc) : List Irq :=
  match c.pc with
  | .opening left | .closing left => left
  | _ => []

/-- The lines are those of the holder. -/
structure Served (c : Proc) (s : Shared) : Prop where
  lines : ∀ irq, s.registered irq = true ↔ Requested c irq
  nodup : (left c).Nodup

theorem mem_irqs (irq : Irq) : irq ∈ irqs := by cases irq <;> decide

theorem irqs_nodup : irqs.Nodup := by decide

/-- What a step of a process does to the semaphore and the lines. -/
inductive Effect (c : Proc) (s : Shared) (c' : Proc) (s' : Shared) : Prop
  | take (hl : 0 < s.button_lock) (hl' : s'.button_lock = s.button_lock-1)
      (hc : holdings c' = holdings c+1) (hr : s'.registered = s.registered)
      (hpc : c'.pc = .opening irqs)
  | release (hl : s'.button_lock = s.button_lock+1) (hc : holdings c = holdings c'+1)
      (hr : s'.registered = s.registered) (hpc : c.pc = .closing [])
  | stay (hl : s'.button_lock = s.button_lock) (hc : holdings c' = holdings c)
      (hr : holdings c = 0 → s'.registered = s.registered) (hs : Served c s → Served c' s')

theorem acts_effect {a : Action} {c c' : Proc} {s s' : Shared} (h : Acts a c s c' s') :
    Effect c s c' s' := by
  cases h with
  | trylock hl => exact .take hl rfl rfl rfl rfl
  | down hl => exact .take hl rfl rfl rfl rfl
  | up => exact .release rfl rfl rfl rfl
  | @request held irq left s =>
    refine .stay rfl rfl (fun h => by cases h) fun h => ?_
    obtain ⟨hirq,hleft⟩ := List.nodup_cons.mp h.nodup
    refine ⟨fun i => ?_,hleft⟩
    have hi : s.registered i = true ↔ i ∉ irq::left := h.lines i
    by_cases hne : i = irq
    · simp [Requested, hne, hirq]
    · simp [Requested, hne, hi]
  | opened =>
    refine .stay rfl rfl (fun _ => rfl) fun h => ⟨fun i => ?_,List.nodup_nil⟩
    simpa [Requested] using h.lines i
  | close =>
    refine .stay rfl rfl (fun _ => rfl) fun h => ⟨fun i => ?_,irqs_nodup⟩
    simpa [Requested, mem_irqs] using h.lines i
  | @free held irq left s =>
    refine .stay rfl rfl (fun h => by cases h) fun h => ?_
    obtain ⟨hirq,hleft⟩ := List.nodup_cons.mp h.nodup
    refine ⟨fun i => ?_,hleft⟩
    have hi : s.registered i = true ↔ i ∈ irq::left := h.lines i
    by_cases hne : i = irq
    · simp [Requested, hne, hirq]
    · simp [Requested, hne, hi]
  | _ => exact .stay rfl rfl (fun _ => rfl) fun h => ⟨h.lines,h.nodup⟩

variable {P : Type*} {HZ : ℕ}

/-- The semaphore is free with all the lines, or one process has it. -/
inductive Owned (d : Device P) : Prop
  | free (lock : d.shared.button_lock = 1) (none : ∀ p, holdings (d.procs p) = 0)
      (lines : ∀ irq, d.shared.registered irq = false)
  | taken (p : P) (lock : d.shared.button_lock = 0) (one : holdings (d.procs p) = 1)
      (others : ∀ q, q ≠ p → holdings (d.procs q) = 0) (served : Served (d.procs p) d.shared)

theorem served_frame {c : Proc} {s s' : Shared} (hr : s'.registered = s.registered)
    (h : Served c s) : Served c s' := ⟨fun irq => hr ▸ h.lines irq,h.nodup⟩

/-- The clock, the edges and the pins leave the semaphore and the lines alone. -/
theorem owned_frame {d d' : Device P} (h : Owned d)
    (hl : d'.shared.button_lock = d.shared.button_lock)
    (hr : d'.shared.registered = d.shared.registered) (hp : d'.procs = d.procs) : Owned d' := by
  cases h with
  | free lock none lines => exact .free (hl.trans lock) (by rwa [hp]) (by rwa [hr])
  | taken p lock one others served =>
    exact .taken p (hl.trans lock) (by rwa [hp]) (by rwa [hp]) (hp ▸ served_frame hr served)

theorem owned_one {d : Device P} (h : Owned d) {p : P} (hp : 0 < holdings (d.procs p)) :
    holdings (d.procs p) = 1 ∧ d.shared.button_lock = 0 ∧ Served (d.procs p) d.shared ∧
      ∀ q, q ≠ p → holdings (d.procs q) = 0 := by
  cases h with
  | free lock none lines => exact absurd (none p) (by omega)
  | taken o lock one others served =>
    obtain rfl : p = o := by
      by_contra hne
      exact absurd (others p hne) (by omega)
    exact ⟨one,lock,served,others⟩

variable [DecidableEq P]

theorem acts_owned {d d' : Device P} {p : P} {c : Proc}
    (he : Effect (d.procs p) d.shared c d'.shared) (hp : d'.procs = Function.update d.procs p c)
    (h : Owned d) : Owned d' := by
  have hself : d'.procs p = c := by rw [hp, Function.update_self]
  have hother (q : P) (hq : q ≠ p) : d'.procs q = d.procs q := by
    rw [hp, Function.update_of_ne hq]
  cases h with
  | free lock none lines =>
    have hnone (q : P) (hq : q ≠ p) : holdings (d'.procs q) = 0 := by rw [hother q hq, none]
    cases he with
    | take hl hl' hc hr hpc =>
      refine .taken p (by omega) (by rw [hself, hc, none]) hnone ?_
      rw [hself]
      refine ⟨fun irq => ?_,by rw [left, hpc]; exact irqs_nodup⟩
      simp [Requested, hpc, hr, lines, mem_irqs]
    | release hl hc hr hpc => exact absurd (none p) (by omega)
    | stay hl hc hr hs =>
      refine .free (hl.trans lock) (fun q => ?_) (by rwa [hr (none p)])
      by_cases hq : q = p
      · rw [hq, hself, hc, none]
      · exact hnone q hq
  | taken o lock one others served =>
    cases he with
    | take hl hl' hc hr hpc => omega
    | release hl hc hr hpc =>
      -- only the owner has something to give back
      obtain rfl : p = o := by
        by_contra hne
        exact absurd (others p hne) (by omega)
      refine .free (by omega) (fun q => ?_) (fun irq => ?_)
      · by_cases hq : q = p
        · rw [hq, hself]
          omega
        · rw [hother q hq, others q hq]
      · have hline := served.lines irq
        simp only [Requested, hpc, List.not_mem_nil, iff_false, Bool.not_eq_true] at hline
        rw [hr, hline]
    | stay hl hc hr hs =>
      by_cases ho : p = o
      · subst ho
        refine .taken p (hl.trans lock) (by rw [hself, hc, one]) (fun q hq => ?_) (hself ▸ hs served)
        rw [hother q hq, others q hq]
      · have hstay := hother o (Ne.symm ho)
        refine .taken o (hl.trans lock) (by rw [hstay, one]) (fun q hq => ?_)
          (hstay ▸ served_frame (hr (others p ho)) served)
        by_cases hqp : q = p
        · rw [hqp, hself, hc, others p ho]
        · rw [hother q hqp, others q hq]

theorem step_owned (d : Device P) (e : Event P) (h : Owned d) : Owned (step HZ d e) := by
  cases e with
  | act p a =>
    rcases act_cases HZ d p a with hd | ⟨c,hact,hp⟩
    · rwa [hd]
    · exact acts_owned (acts_effect hact) hp h
  | edge irq =>
    have hs : (step HZ d (.edge irq)).shared = edge HZ irq d.shared := rfl
    rcases edge_cases HZ irq d.shared with he | he <;> rw [he] at hs
    · exact owned_frame h (by rw [hs]) (by rw [hs]) rfl
    · exact owned_frame h (by rw [hs]; rfl) (by rw [hs]; rfl) rfl
  | level pin pinval => exact owned_frame h rfl rfl rfl
  | tick =>
    have htick := tick_ticked d.shared
    exact owned_frame h htick.lock htick.lines rfl

theorem runs_owned (HZ jiffies : ℕ) (gpio : Pin → UInt32) (es : List (Event P)) :
    Always (step HZ) Owned (boot gpio jiffies) es :=
  always_of_step Owned (fun d e hd _ => step_owned d e hd) _ es
    (.free rfl (fun _ => rfl) (fun _ => rfl)) (along_true _ _ es)

/-- A process has the device from taking the semaphore to giving it back. It
requests lines that nobody has, has all of them between its open and its
close, and leaves none behind. -/
structure Exclusive (d : Device P) : Prop where
  one : ∀ p q, 0 < holdings (d.procs p) → 0 < holdings (d.procs q) → p = q
  once : ∀ p, holdings (d.procs p) ≤ 1
  lock : d.shared.button_lock = 0 ∧ (∃ p, 0 < holdings (d.procs p)) ∨
    d.shared.button_lock = 1 ∧ ∀ p, holdings (d.procs p) = 0
  requested : ∀ p irq left, (d.procs p).pc = .opening (irq::left) →
    request_irq irq d.shared.registered = (0,Function.update d.shared.registered irq true)
  opened : ∀ p, 0 < (d.procs p).held → ∀ irq, d.shared.registered irq = true
  idle : (∀ p, holdings (d.procs p) = 0) → ∀ irq, d.shared.registered irq = false

omit [DecidableEq P] in
theorem owned_exclusive (d : Device P) (h : Owned d) : Exclusive d where
  one p q hp hq := by
    by_contra hne
    exact absurd ((owned_one h hp).2.2.2 q (Ne.symm hne)) (by omega)
  once p := by
    by_cases hp : 0 < holdings (d.procs p)
    · exact (owned_one h hp).1.le
    · omega
  lock := by
    cases h with
    | free lock none lines => exact .inr ⟨lock,none⟩
    | taken o lock one others served => exact .inl ⟨lock,o,by omega⟩
  requested p irq left hp := by
    have hserved := (owned_one h (p := p) (by simp [holdings, hp])).2.2.1
    have hline := hserved.lines irq
    simp only [Requested, hp, List.mem_cons_self, not_true_eq_false, iff_false] at hline
    exact if_neg hline
  opened p hp irq := by
    have ⟨hone,_,hserved,_⟩ := owned_one h (p := p) (by unfold holdings; omega)
    refine (hserved.lines irq).mpr ?_
    unfold holdings at hone
    unfold Requested
    grind
  idle hp := by
    cases h with
    | free lock none lines => exact lines
    | taken o lock one others served => exact absurd (hp o) (by omega)

/-- Over any number of processes and any interleaving of their steps with the
edges and the clock. -/
theorem button_exclusive (HZ jiffies : ℕ) (gpio : Pin → UInt32) (es : List (Event P)) :
    Always (step HZ) Exclusive (boot gpio jiffies) es :=
  always_mono owned_exclusive (runs_owned HZ jiffies gpio es)

end Semaphore

section Debouncing
variable {P : Type*} [DecidableEq P] {HZ : ℕ}

/-- The timer as the edges start it: what was due before any edge does
nothing. -/
def timer (s : Shared) : Timer where
  now := s.jiffies
  due := s.irq_pd.bind fun _ => s.buttons_timer
  starts := s.edges
  fired := s.keys.map Prod.fst

theorem irq_timer (s : Shared) (pindesc : PinDesc) :
    timer (buttons_irq HZ pindesc s) = start (HZ/100) (timer s) := rfl

theorem tick_timer (s : Shared) : timer (tick s) = Retrigger.tick (timer s) := by
  cases hpd : s.irq_pd with
  | none =>
    have hdue : (timer s).due = none := by rw [timer, hpd]; rfl
    rw [Retrigger.tick_idle hdue]
    unfold tick buttons_timer_function timer
    grind
  | some pindesc =>
    cases ht : s.buttons_timer with
    | none =>
      have hdue : (timer s).due = none := by rw [timer, hpd, ht]; rfl
      rw [Retrigger.tick_idle hdue]
      simp [tick, timer, ht, hpd]
    | some expires =>
      have hdue : (timer s).due = some expires := by rw [timer, hpd, ht]; rfl
      rw [Retrigger.tick_due hdue]
      by_cases he : expires ≤ s.jiffies+1
      · simp [tick, timer, ht, hpd, he, buttons_timer_function]
      · simp [tick, timer, ht, hpd, he]

/-- The key of the first button is the only one a timer stores. -/
def Plain (key : UInt8) : Prop := key = 0x01 ∨ key = 0x81

theorem key_plain (pinval : UInt32) : Plain (key_of dev_id pinval) := by
  unfold key_of
  split_ifs
  · exact .inr rfl
  · exact .inl rfl

structure Debounced (HZ : ℕ) (s : Shared) : Prop where
  timer : Retriggered (HZ/100) (timer s)
  pin : ∀ pindesc, s.irq_pd = some pindesc → pindesc = dev_id
  plain : ∀ k ∈ s.keys, Plain k.2

theorem tick_debounced {s : Shared} (h : Debounced HZ s) : Debounced HZ (tick s) := by
  have htick := tick_ticked s
  refine ⟨tick_timer s ▸ tick_retriggered h.timer,fun pindesc hp => h.pin pindesc (htick.pin ▸ hp),?_⟩
  rcases htick.keys with ⟨hkeys,-,-⟩ | ⟨pindesc,hpd,hkey,hkeys,-⟩
  · rw [hkeys]
    exact h.plain
  · rw [hkeys, hkey, h.pin pindesc hpd]
    exact List.forall_mem_append.mpr ⟨h.plain,List.forall_mem_singleton.mpr (key_plain _)⟩

theorem edge_debounced (hHZ : 100 ≤ HZ) (irq : Irq) {s : Shared} (h : Debounced HZ s) :
    Debounced HZ (edge HZ irq s) := by
  rcases edge_cases HZ irq s with he | he
  · rwa [he]
  · rw [he]
    exact ⟨irq_timer s dev_id ▸ start_retriggered (by omega) h.timer,
      fun pindesc hp => (Option.some.inj hp).symm,h.plain⟩

theorem act_debounced {a : Action} {c c' : Proc} {s s' : Shared} (h : Acts a c s c' s')
    (hd : Debounced HZ s) : Debounced HZ s' := by
  cases h <;> exact ⟨hd.timer,hd.pin,hd.plain⟩

theorem step_debounced (hHZ : 100 ≤ HZ) (d : Device P) (e : Event P)
    (h : Debounced HZ d.shared) : Debounced HZ (step HZ d e).shared := by
  cases e with
  | act p a =>
    rcases act_cases HZ d p a with hd | ⟨c,hact,-⟩
    · rwa [hd]
    · exact act_debounced hact h
  | edge irq => exact edge_debounced hHZ irq h
  | level pin pinval => exact ⟨h.timer,h.pin,h.plain⟩
  | tick => exact tick_debounced h

theorem runs_debounced (hHZ : 100 ≤ HZ) (jiffies : ℕ) (gpio : Pin → UInt32)
    (es : List (Event P)) :
    Always (step HZ) (fun d => Debounced HZ d.shared) (boot gpio jiffies) es :=
  always_of_step _ (fun d e hd _ => step_debounced hHZ d e hd) _ es
    ⟨new_retriggered (HZ/100) jiffies,fun _ h => (nomatch h),fun _ h => absurd h List.not_mem_nil⟩
    (along_true _ _ es)

/-- One key for each burst of edges, a hundredth of a second after its last
one: whichever button is bouncing, that of the first. -/
structure Reported (HZ : ℕ) (s : Shared) : Prop where
  times : s.keys.map Prod.fst = settled (HZ/100) s.jiffies s.edges
  plain : ∀ k ∈ s.keys, k.2 = 0x01 ∨ k.2 = 0x81

/-- Over any edges, ticks and levels, and whoever opens, reads and closes the
device meanwhile. -/
theorem bounces_reported_once (hHZ : 100 ≤ HZ) (jiffies : ℕ) (gpio : Pin → UInt32)
    (es : List (Event P)) :
    Always (step HZ) (fun d => Reported HZ d.shared) (boot gpio jiffies) es :=
  always_mono (fun _ h => ⟨h.timer.fired,h.plain⟩) (runs_debounced hHZ jiffies gpio es)

/-- An open, two edges of two lines before the timer has run off, and a level
that has changed by then. -/
def bounce : List (Event Bool) :=
  .act true .down_trylock::irqs.map (fun _ => .act true .request_irq)++[.act true .opened,
    .edge .IRQ_EINT0,.tick,.edge .IRQ_EINT2,.level .S3C2440_GPG0 1,.tick,.tick]

theorem bounces_reported_once_two :
    (run (step 200) (boot (fun _ => 0) 5) bounce).shared.keys = [(8,0x81)] ∧
    Always (step 200) (fun d => Reported 200 d.shared) (boot (fun _ => 0) 5) bounce :=
  ⟨by decide,bounces_reported_once (by decide) 5 (fun _ => 0) bounce⟩

end Debouncing

section Reading
variable {P : Type*} {HZ : ℕ}

/-- A copy is a key that was stored, under the number it was stored with. -/
def Genuine (keys : List (ℕ × UInt8)) (c : Copy) : Prop :=
  0 < c.source ∧ (keys[c.source-1]?).map Prod.snd = some c.key

/-- None of the first reads to return has returned the key of that number, or a
later one. -/
def Unread (s : Shared) (begun source : ℕ) : Prop :=
  0 < source ∧ begun ≤ s.reads.length ∧ ∀ c ∈ s.reads.take begun, c.source < source

/-- What a process has still to return. -/
def Pending (s : Shared) (c : Proc) : Prop :=
  match c.pc with
  | .reading begun => begun ≤ s.reads.length
  | .woken begun => Unread s begun s.keys.length
  | .copied c => Genuine s.keys c ∧ Unread s c.begun c.source
  | _ => True

/-- Every read returns a stored key, and a later one than the reads that had
returned when it began. -/
structure Delivered (s : Shared) : Prop where
  genuine : ∀ c ∈ s.reads, 0 < c.source ∧ (s.keys[c.source-1]?).map Prod.snd = some c.key
  begun : ∀ (j : ℕ) c, s.reads[j]? = some c → c.begun ≤ j
  order : ∀ (i j : ℕ) c c', s.reads[i]? = some c → s.reads[j]? = some c' → i < c'.begun →
    c.source < c'.source

/-- Beside what the reads have returned, a key that is still to be read is a
later one. -/
structure Fresh (s : Shared) : Prop extends Delivered s where
  stored : ∀ k, s.keys.getLast? = some k → s.key_val = k.2
  pressed : s.ev_press = true → Unread s s.reads.length s.keys.length

theorem fresh_frame {s s' : Shared} (h : Fresh s) (hv : s'.key_val = s.key_val)
    (he : s'.ev_press = s.ev_press) (hk : s'.keys = s.keys) (hr : s'.reads = s.reads) :
    Fresh s' := by
  obtain ⟨⟨hgenuine,hbegun,horder⟩,hstored,hpressed⟩ := h
  refine ⟨⟨?_,?_,?_⟩,?_,?_⟩
  · rwa [hr, hk]
  · rwa [hr]
  · rwa [hr]
  · rwa [hk, hv]
  · rwa [he, Unread, hk, hr]

theorem pending_frame {s s' : Shared} {c : Proc} (h : Pending s c) (hk : s'.keys = s.keys)
    (hr : s'.reads = s.reads) : Pending s' c := by
  unfold Pending Unread at h ⊢
  rwa [hk, hr]

theorem genuine_append {keys : List (ℕ × UInt8)} {c : Copy} (k : ℕ × UInt8) (h : Genuine keys c) :
    Genuine (keys++[k]) c := by
  obtain ⟨hpos,hkey⟩ := h
  obtain ⟨k',hk',hc⟩ := Option.map_eq_some_iff.mp hkey
  refine ⟨hpos,?_⟩
  rw [List.getElem?_append_left (List.getElem?_eq_some_iff.mp hk').1, hkey]

theorem genuine_bound {keys : List (ℕ × UInt8)} {c : Copy} (h : Genuine keys c) :
    c.source ≤ keys.length := by
  obtain ⟨hpos,hkey⟩ := h
  obtain ⟨k',hk',hc⟩ := Option.map_eq_some_iff.mp hkey
  have hlt := (List.getElem?_eq_some_iff.mp hk').1
  omega

/-- The copy of a key is what was stored last. -/
theorem copy_genuine {s : Shared} (hf : Fresh s) (hpos : 0 < s.keys.length) (begun : ℕ) :
    Genuine s.keys ⟨s.key_val,s.keys.length,begun⟩ := by
  refine ⟨hpos,?_⟩
  have hlast := List.getLast?_eq_some_getLast (List.length_pos_iff.mp hpos)
  rw [← List.getLast?_eq_getElem?, hlast]
  exact congrArg some (hf.stored _ hlast).symm

theorem unread_later {s : Shared} (hf : Fresh s) : Unread s s.reads.length (s.keys.length+1) := by
  refine ⟨Nat.succ_pos _,Nat.le_refl _,fun c hc => ?_⟩
  rw [List.take_length] at hc
  exact Nat.lt_succ_of_le (genuine_bound (hf.genuine c hc))

/-- What was unread when a read began is unread at its end. -/
theorem unread_begun {s : Shared} {begun source : ℕ} (h : Unread s s.reads.length source)
    (hbegun : begun ≤ s.reads.length) : Unread s begun source := by
  refine ⟨h.1,hbegun,fun c hc => h.2.2 c ?_⟩
  rw [List.take_length]
  exact List.mem_of_mem_take hc

theorem pending_append {s s' : Shared} {c : Proc} (k : Copy) (h : Pending s c)
    (hk : s'.keys = s.keys) (hr : s'.reads = s.reads++[k]) : Pending s' c := by
  have hunread {begun source : ℕ} (h : Unread s begun source) : Unread s' begun source := by
    obtain ⟨hpos,hbegun,hless⟩ := h
    rw [Unread, hr, List.take_append_of_le_length hbegun, List.length_append]
    exact ⟨hpos,Nat.le_add_right_of_le hbegun,hless⟩
  unfold Pending at h ⊢
  rw [hk]
  split at h
  · rw [hr, List.length_append]
    exact Nat.le_add_right_of_le h
  · exact hunread h
  · exact ⟨h.1,hunread h.2⟩
  · trivial

/-- The end of a read. -/
theorem delivered_append {s s' : Shared} {k : Copy} (h : Delivered s)
    (hk : s'.keys = s.keys) (hr : s'.reads = s.reads++[k]) (hgenuine : Genuine s.keys k)
    (hunread : Unread s k.begun k.source) : Delivered s' := by
  have hread {j : ℕ} {c : Copy} (hj : s'.reads[j]? = some c) :
      s.reads[j]? = some c ∨ j = s.reads.length ∧ c = k := by
    rw [hr, List.getElem?_append] at hj
    grind
  refine ⟨?_,?_,?_⟩
  · rw [hr, hk]
    exact List.forall_mem_append.mpr ⟨h.genuine,List.forall_mem_singleton.mpr hgenuine⟩
  · intro j c hj
    rcases hread hj with hj | ⟨rfl,rfl⟩
    · exact h.begun j c hj
    · exact hunread.2.1
  · intro i j c c' hi hj hij
    rcases hread hj with hj | ⟨rfl,rfl⟩
    · have hbegun := h.begun j c' hj
      rcases hread hi with hi | ⟨rfl,rfl⟩
      · exact h.order i j c c' hi hj hij
      · have hlt := (List.getElem?_eq_some_iff.mp hj).1
        omega
    · rcases hread hi with hi | ⟨rfl,rfl⟩
      · apply hunread.2.2 c
        apply List.mem_of_getElem? (i := i)
        rwa [List.getElem?_take_of_lt hij]
      · exact absurd hunread.2.1 (Nat.not_le_of_lt hij)

/-- A read that no signal ends returns a key that was not read when it began. -/
theorem act_fresh {a : Action} {c c' : Proc} {s s' : Shared} (h : Acts a c s c' s')
    (ha : a ≠ .wake true) (hf : Fresh s) (hc : Pending s c) : Fresh s' ∧ Pending s' c' := by
  cases h with
  | read _ => exact ⟨fresh_frame hf rfl rfl rfl rfl,Nat.le_refl _⟩
  | ready _ hp => exact ⟨fresh_frame hf rfl rfl rfl rfl,hf.pressed hp⟩
  | @wake held begun signal s hp =>
    have hsignal : signal ≠ true := fun h => ha (h ▸ rfl)
    exact ⟨hf,unread_begun (hf.pressed (hp.resolve_right hsignal)) hc⟩
  | @copy held begun => exact ⟨hf,copy_genuine hf hc.1 begun,hc⟩
  | @clear held k s =>
    exact ⟨⟨delivered_append hf.toDelivered rfl rfl hc.1 hc.2,hf.stored,fun h => (nomatch h)⟩,trivial⟩
  | _ => exact ⟨fresh_frame hf rfl rfl rfl rfl,trivial⟩

/-- A step of another process leaves open what a process has still to return. -/
theorem act_pending {a : Action} {c c' d : Proc} {s s' : Shared} (h : Acts a c s c' s')
    (hd : Pending s d) : Pending s' d := by
  cases h with
  | @clear held k s => exact pending_append k hd rfl rfl
  | _ => exact pending_frame hd rfl rfl

theorem tick_fresh {s : Shared} (hf : Fresh s) : Fresh (tick s) := by
  have htick := tick_ticked s
  rcases htick.keys with ⟨hk,hv,he⟩ | ⟨pindesc,hpd,hv,hk,he⟩
  · exact fresh_frame hf hv he hk htick.reads
  · obtain ⟨⟨hgenuine,hbegun,horder⟩,-,-⟩ := id hf
    refine ⟨⟨fun c hc => ?_,?_,?_⟩,fun k h => ?_,fun _ => ?_⟩
    · rw [htick.reads] at hc
      exact hk ▸ genuine_append _ (hgenuine c hc)
    · rwa [htick.reads]
    · rwa [htick.reads]
    · rw [hk, List.getLast?_concat] at h
      rw [← Option.some.inj h]
    · have hlater := unread_later hf
      rwa [Unread, htick.reads, hk, List.length_append]

theorem tick_pending {s : Shared} {c : Proc} (h : Pending s c) : Pending (tick s) c := by
  have htick := tick_ticked s
  have hunread {begun n m : ℕ} (hnm : n ≤ m) (hn : Unread s begun n) : Unread (tick s) begun m := by
    rw [Unread, htick.reads]
    exact ⟨hn.1.trans_le hnm,hn.2.1,fun c hc => (hn.2.2 c hc).trans_le hnm⟩
  have hlength : s.keys.length ≤ (tick s).keys.length ∧
      ∀ k, Genuine s.keys k → Genuine (tick s).keys k := by
    rcases htick.keys with ⟨hk,-,-⟩ | ⟨pindesc,-,-,hk,-⟩
    · rw [hk]
      exact ⟨Nat.le_refl _,fun _ hk => hk⟩
    · rw [hk, List.length_append]
      exact ⟨Nat.le_add_right _ _,fun k hk => genuine_append _ hk⟩
  unfold Pending at h ⊢
  split at h
  · rwa [htick.reads]
  · exact hunread hlength.1 h
  · exact ⟨hlength.2 _ h.1,hunread (Nat.le_refl _) h.2⟩
  · trivial

/-- The invariant of the reads while no signal ends one. -/
structure Answering (d : Device P) : Prop where
  fresh : Fresh d.shared
  pending : ∀ p, Pending d.shared (d.procs p)

variable [DecidableEq P]

theorem step_answering (d : Device P) (e : Event P) (hd : Answering d)
    (he : ∀ p, e ≠ .act p (.wake true)) : Answering (step HZ d e) := by
  cases e with
  | act p a =>
    rcases act_cases HZ d p a with h | ⟨c,hact,hp⟩
    · rwa [h]
    · obtain ⟨hfresh,hpending⟩ := act_fresh hact (fun h => he p (h ▸ rfl)) hd.fresh (hd.pending p)
      refine ⟨hfresh,fun q => ?_⟩
      rw [hp]
      by_cases hq : q = p
      · rw [hq, Function.update_self]
        exact hpending
      · rw [Function.update_of_ne hq]
        exact act_pending hact (hd.pending q)
  | edge irq =>
    have hs : (step HZ d (.edge irq)).shared = edge HZ irq d.shared := rfl
    rcases edge_cases HZ irq d.shared with he | he <;> rw [he] at hs
    · exact ⟨hs ▸ hd.fresh,fun p => hs ▸ hd.pending p⟩
    · exact ⟨hs ▸ fresh_frame hd.fresh rfl rfl rfl rfl,
        fun p => hs ▸ pending_frame (hd.pending p) rfl rfl⟩
  | level pin pinval => exact ⟨fresh_frame hd.fresh rfl rfl rfl rfl,hd.pending⟩
  | tick => exact ⟨tick_fresh hd.fresh,fun p => tick_pending (hd.pending p)⟩

theorem runs_answering (HZ jiffies : ℕ) (gpio : Pin → UInt32) (es : List (Event P))
    (hes : ∀ e ∈ es, ∀ p, e ≠ .act p (.wake true)) :
    Always (step HZ) Answering (boot gpio jiffies) es :=
  always_of_step Answering (fun d e hd he => step_answering d e hd he) _ es
    ⟨⟨⟨fun _ h => absurd h List.not_mem_nil,fun _ _ h => (nomatch h),fun _ _ _ _ h => (nomatch h)⟩,
      fun _ h => (nomatch h),fun h => (nomatch h)⟩,fun _ => trivial⟩
    ((along_forall _ _ _ es).mpr hes)

/-- Where no signal ends a read: any number of processes that share the open
file return the same key only from reads that overlap. -/
theorem keys_read_in_order (HZ jiffies : ℕ) (gpio : Pin → UInt32) (es : List (Event P))
    (hes : ∀ e ∈ es, ∀ p, e ≠ .act p (.wake true)) :
    Always (step HZ) (fun d => Delivered d.shared) (boot gpio jiffies) es :=
  always_mono (fun _ h => h.fresh.toDelivered) (runs_answering HZ jiffies gpio es hes)

/-- Two processes read the first key at once, and one of them the second key
after that, at first in vain. -/
def readings : List (Event Bool) :=
  bounce++[.act true (.read 1),.act false (.read 1),.act true (.wake false),
    .act false (.wake false),.act true .copy_to_user,.act true .clear,.act false .copy_to_user,
    .act false .clear,.act false (.read_nonblock 1),.edge .IRQ_EINT19,.tick,.tick,
    .act false (.read_nonblock 1),.act false .copy_to_user,.act false .clear]

theorem keys_read_in_order_shared :
    (run (step 200) (boot (fun _ => 0) 5) readings).shared.reads =
      [⟨0x81,1,0⟩,⟨0x81,1,0⟩,⟨0x81,2,2⟩] ∧
    Always (step 200) (fun d => Delivered d.shared) (boot (fun _ => 0) 5) readings :=
  ⟨by decide,keys_read_in_order 200 5 (fun _ => 0) readings (by decide)⟩

end Reading

end BaseDrivers.ButtonsNoshake
