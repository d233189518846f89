import Mathlib.Data.List.Basic
import Mathlib.Logic.Function.Basic
import BaseDrivers.ButtonsAtomic

/-!
# Reading the buttons with and without waiting

The interrupt stores the key of the first button, whichever was pressed, and
sets `ev_press`; a read waits for `ev_press`,
or does not wait, copies the key and clears `ev_press`. A wait that a signal
ends is taken for one that ended with a key. Readers take their steps in any
order, with the interrupts between them.
-/

set_option autoImplicit false

namespace BaseDrivers.ButtonsNoblock
open BaseDrivers.Execution
open BaseDrivers.ButtonsAtomic (Irq)

inductive Pin where
  | S3C2440_GPG0 | S3C2440_GPG2 | S3C2440_GPG3 | S3C2440_GPG11
  deriving DecidableEq, Repr

structure PinDesc where
  pin : Pin
  key_val : UInt8
  deriving DecidableEq, Repr

def pins_desc : List PinDesc :=
  [⟨.S3C2440_GPG0,0x01⟩,⟨.S3C2440_GPG2,0x02⟩,⟨.S3C2440_GPG3,0x03⟩,⟨.S3C2440_GPG11,0x04⟩]

/-- Every line is requested with the address of the table, which is that of
its first entry. -/
def dev_id : PinDesc := pins_desc.get ⟨0,by decide⟩

/-- What a read has copied. Beside the key, for the statements: how many
interrupts and how many reads there had been, and what `ev_press` was. -/
structure Copy where
  key : UInt8
  source : ℕ
  returns : ℕ
  pressed : Bool
  deriving DecidableEq, Repr

/-- Where a reader stands in its call. -/
inductive Pc where
  | user
  | waiting
  | reading
  | copied (c : Copy)
  deriving DecidableEq, Repr

section Readers
variable {P : Type*} [DecidableEq P]

/-- The static variables and the readers. For the statements: the keys stored
by the interrupts, how many reads have returned 1, and how many of the keys
had been stored when the last of them did. -/
structure Device (P : Type*) where
  key_val : UInt8
  ev_press : Bool
  procs : P → Pc
  keys : List UInt8
  returns : ℕ
  served : ℕ

def boot : Device P := ⟨0,false,fun _ => .user,[],0,0⟩

/-- The key of a button, with bit 7 set when it is released. -/
def key_of (pindesc : PinDesc) (pinval : UInt32) : UInt8 :=
  if pinval ≠ 0 then 0x80 ||| pindesc.key_val else pindesc.key_val

/-- The handler runs to its end before any reader runs. -/
def buttons_irq (dev_id : PinDesc) (gpio : Pin → UInt32) (d : Device P) : Device P :=
  let key := key_of dev_id (gpio dev_id.pin)
  { d with key_val := key, ev_press := true, keys := d.keys++[key] }

/-- The steps of `button_read`. A wait looks at `ev_press` whenever it is
woken; `signal` ends it whatever it finds. -/
inductive Action where
  | call (nonblock : Bool) (size : ℕ)
  | wake
  | signal
  | copy
  | ret
  deriving DecidableEq, Repr

def go (p : P) (c : Pc) (d : Device P) : Device P :=
  { d with procs := Function.update d.procs p c }

/-- `copy_to_user` -/
def copy_of (d : Device P) : Copy := ⟨d.key_val,d.keys.length,d.returns,d.ev_press⟩

/-- `ev_press = 0; return 1;` -/
def finish (p : P) (d : Device P) : Device P :=
  { go p .user d with ev_press := false, returns := d.returns+1, served := d.keys.length }

/-- The next step of a call. One of another size than 1 returns `-EINVAL`, one
that may not wait returns `-EAGAIN` when there is no key. -/
def button_read (p : P) : Action → Pc → Device P → Device P
  | .call nonblock size, .user, d =>
    if size ≠ 1 then d
    else if nonblock then
      if d.ev_press = false then d else go p .reading d
    else go p (if d.ev_press then .reading else .waiting) d
  | .wake, .waiting, d => if d.ev_press then go p .reading d else d
  | .signal, .waiting, d => go p .reading d
  | .copy, .reading, d => go p (.copied (copy_of d)) d
  | .ret, .copied _, d => finish p d
  | _, _, d => d

/-- An interrupt of one of the lines comes with the levels of the pins. -/
inductive Event (P : Type*) where
  | irq (line : Irq) (gpio : Pin → UInt32)
  | act (p : P) (a : Action)

def step (d : Device P) : Event P → Device P
  | .irq _ gpio => buttons_irq dev_id gpio d
  | .act p a => button_read p a (d.procs p) d

/-- A condition on what a call that returns 1 in this step has copied. -/
def Returning (Q : Device P → Copy → Prop) (d : Device P) (e : Event P) : Prop :=
  ∀ p c, e = .act p .ret → d.procs p = .copied c → Q d c

/-- The key has been stored by an interrupt which came after the last call
that returned 1. -/
structure Delivered (d : Device P) (c : Copy) : Prop where
  fresh : d.served < c.source
  stored : d.keys[c.source-1]? = some c.key

/-- `ev_press` was set when the key was copied, and no other call has returned
1 since then. -/
structure Genuine (d : Device P) (c : Copy) : Prop where
  pressed : c.pressed = true
  alone : c.returns = d.returns

/-- No more reads than interrupts. -/
def Counted (d : Device P) : Prop := d.returns ≤ d.keys.length

/-- What one step can do. -/
inductive Moves (d : Device P) : Event P → Device P → Prop where
  | stays (e : Event P) (h : ∀ p c, e = .act p .ret → d.procs p ≠ .copied c) : Moves d e d
  | irq (line : Irq) (gpio : Pin → UInt32) : Moves d (.irq line gpio) (buttons_irq dev_id gpio d)
  | goes (p : P) (a : Action) (c : Pc) (ha : a ≠ .ret) (hc : ∀ k, c ≠ .copied k)
    (hr : c = .reading → d.ev_press = true ∨ a = .signal) : Moves d (.act p a) (go p c d)
  | copies (p : P) (h : d.procs p = .reading) :
    Moves d (.act p .copy) (go p (.copied (copy_of d)) d)
  | returns (p : P) (c : Copy) (h : d.procs p = .copied c) : Moves d (.act p .ret) (finish p d)

theorem step_moves (d : Device P) (e : Event P) : Moves d e (step d e) := by
  cases e with
  | irq line gpio => exact .irq line gpio
  | act p a =>
    have hother (h : a ≠ .ret) : ∀ q c, Event.act p a = .act q .ret → d.procs q ≠ .copied c := by
      rintro q c ⟨⟩
      exact absurd rfl h
    rw [step]
    generalize hpc : d.procs p = pc
    fun_cases button_read p a pc d with
    | case1 => exact .stays _ (hother (by simp))
    | case2 => exact .stays _ (hother (by simp))
    | case3 _ _ _ hev =>
      exact .goes p _ .reading (by simp) (by simp) (fun _ => .inl (by simpa using hev))
    | case4 =>
      apply Moves.goes p _ _ (by simp)
      · intro k
        split <;> simp
      · split
        · next hev => exact fun _ => .inl hev
        · simp
    | case5 => exact .goes p _ .reading (by simp) (by simp) (fun _ => .inl ‹_›)
    | case6 => exact .stays _ (hother (by simp))
    | case7 => exact .goes p _ .reading (by simp) (by simp) (fun _ => .inr rfl)
    | case8 => exact .copies p hpc
    | case9 c => exact .returns p c hpc
    | case10 _ _ _ _ _ _ _ hret =>
      apply Moves.stays
      rintro q c ⟨⟩ hq
      exact hret c rfl (hpc.symm.trans hq)

/-- What is known of a read that has copied a key. -/
structure Copied (d : Device P) (c : Copy) : Prop where
  source : c.source ≤ d.keys.length
  key : 0 < c.source → d.keys[c.source-1]? = some c.key
  returns : c.returns ≤ d.returns
  alone : c.returns = d.returns → (c.pressed = true ↔ d.served < c.source)
  overtaken : c.returns < d.returns → c.source ≤ d.served

/-- The invariant of every interleaving: `ev_press` says whether there has
been an interrupt since the last call that returned 1. -/
structure Kept (d : Device P) : Prop where
  served : d.served ≤ d.keys.length
  pressed : d.ev_press = true ↔ d.served < d.keys.length
  last : 0 < d.keys.length → d.keys[d.keys.length-1]? = some d.key_val
  copied : ∀ p c, d.procs p = .copied c → Copied d c

theorem go_copied {d : Device P} {p q : P} {pc : Pc} {c : Copy}
    (h : (go p pc d).procs q = .copied c) : d.procs q = .copied c ∨ pc = .copied c := by
  rw [go] at h
  by_cases hq : q = p
  · subst hq
    exact .inr (by simpa using h)
  · exact .inl (by simpa [hq] using h)

omit [DecidableEq P] in
theorem irq_kept (gpio : Pin → UInt32) {d : Device P} (hd : Kept d) :
    Kept (buttons_irq dev_id gpio d) := by
  have hlen : (buttons_irq dev_id gpio d).keys.length = d.keys.length+1 := List.length_append
  have hserved := hd.served
  constructor
  · show d.served ≤ _
    omega
  · show true = true ↔ d.served < _
    rw [hlen]
    exact iff_of_true rfl (by omega)
  · intro _
    rw [hlen]
    exact List.getElem?_concat_length
  · intro p c hp
    have hc := hd.copied p c hp
    have hsource := hc.source
    constructor
    · show c.source ≤ _
      omega
    · intro hpos
      show (d.keys++_)[_]? = _
      rw [List.getElem?_append_left (by omega)]
      exact hc.key hpos
    · exact hc.returns
    · exact hc.alone
    · exact hc.overtaken

omit [DecidableEq P] in
theorem copy_copied {d : Device P} (hd : Kept d) : Copied d (copy_of d) where
  source := Nat.le_refl _
  key := hd.last
  returns := Nat.le_refl _
  alone _ := hd.pressed
  overtaken h := absurd h (Nat.lt_irrefl _)

theorem go_kept {d : Device P} (hd : Kept d) (p : P) {pc : Pc}
    (hpc : ∀ c, pc = .copied c → Copied d c) : Kept (go p pc d) := by
  have hgo : ∀ {c}, Copied d c → Copied (go p pc d) c :=
    fun h => ⟨h.source,h.key,h.returns,h.alone,h.overtaken⟩
  constructor
  · exact hd.served
  · exact hd.pressed
  · exact hd.last
  · exact fun q c hq => hgo ((go_copied hq).elim (hd.copied q c) (hpc c))

theorem finish_kept {d : Device P} (hd : Kept d) (p : P) : Kept (finish p d) := by
  constructor
  · exact Nat.le_refl _
  · exact iff_of_false Bool.false_ne_true (Nat.lt_irrefl _)
  · exact hd.last
  · intro q c hq
    have hc := hd.copied q c ((go_copied hq).resolve_right (by simp))
    have hreturns := hc.returns
    constructor
    · exact hc.source
    · exact hc.key
    · exact Nat.le_succ_of_le hc.returns
    · intro h
      have h : c.returns = d.returns+1 := h
      omega
    · exact fun _ => hc.source

theorem moves_kept {d d' : Device P} {e : Event P} (h : Moves d e d') (hd : Kept d) :
    Kept d' := by
  cases h with
  | stays => exact hd
  | irq line gpio => exact irq_kept gpio hd
  | goes p a pc ha hpc hr => exact go_kept hd p (fun c hc => absurd hc (hpc c))
  | copies p hp => exact go_kept hd p (fun c hc => Pc.copied.inj hc ▸ copy_copied hd)
  | returns p c hp => exact finish_kept hd p

omit [DecidableEq P] in
theorem boot_kept : Kept (boot : Device P) where
  served := Nat.le_refl 0
  pressed := iff_of_false Bool.false_ne_true (Nat.lt_irrefl 0)
  last h := absurd h (Nat.lt_irrefl 0)
  copied p c h := by cases h

theorem runs_kept (es : List (Event P)) : Always step Kept boot es :=
  always_of_step Kept (fun d e hd _ => moves_kept (step_moves d e) hd) boot es boot_kept
    (along_true step boot es)

omit [DecidableEq P] in
/-- What a call returns is a key of its own exactly when it is a genuine one. -/
theorem delivered_iff {d : Device P} {c : Copy} (hc : Copied d c) :
    Delivered d c ↔ Genuine d c := by
  have hreturns := hc.returns
  constructor
  · rintro ⟨hfresh,-⟩
    have halone : c.returns = d.returns := by
      by_contra hne
      have hover := hc.overtaken (by omega)
      omega
    exact ⟨(hc.alone halone).mpr hfresh,halone⟩
  · rintro ⟨hpressed,halone⟩
    have hfresh := (hc.alone halone).mp hpressed
    exact ⟨hfresh,hc.key (by omega)⟩

/-- The reads that have returned 1 are no more than the interrupts they have
been served. -/
def Served (d : Device P) : Prop := d.returns ≤ d.served

theorem step_served {d d' : Device P} {e : Event P} (h : Moves d e d') (hd : Kept d)
    (hs : Served d) (he : Returning Delivered d e) : Served d' := by
  cases h with
  | stays => exact hs
  | irq line gpio => exact hs
  | goes p a pc ha hpc hr => exact hs
  | copies p hp => exact hs
  | returns p c hp =>
    have hfresh := (he p c rfl hp).fresh
    have hsource := (hd.copied p c hp).source
    have hs : d.returns ≤ d.served := hs
    show d.returns+1 ≤ d.keys.length
    omega

/-- Every call that returns 1 delivers a key stored since the last of them,
and they are never more than the interrupts, exactly when every one of them
is genuine. -/
theorem reads_genuine_iff (es : List (Event P)) :
    (Along step (Returning Delivered) boot es ∧ Always step Counted boot es) ↔
      Along step (Returning Genuine) boot es := by
  have hiff (d : Device P) (e : Event P) (hd : Kept d) :
      Returning Delivered d e ↔ Returning Genuine d e :=
    forall_congr' fun p => forall_congr' fun c => imp_congr_right fun _ =>
      forall_congr' fun hp => delivered_iff (hd.copied p c hp)
  have hkept := runs_kept es
  constructor
  · rintro ⟨h,-⟩
    exact along_of_always (fun d e hd he => (hiff d e hd).mp he) boot es hkept h
  · intro h
    have hdelivered : Along step (Returning Delivered) boot es :=
      along_of_always (fun d e hd he => (hiff d e hd).mpr he) boot es hkept h
    refine ⟨hdelivered,?_⟩
    have hserved : Always step (fun d => Kept d ∧ Served d) boot es :=
      always_of_step _ (fun d e hd he => ⟨moves_kept (step_moves d e) hd.1,
        step_served (step_moves d e) hd.1 hd.2 he⟩) boot es ⟨boot_kept,Nat.le_refl 0⟩ hdelivered
    exact always_mono (fun d hd => Nat.le_trans hd.2 hd.1.served) hserved

/-- A reader past its wait has found a key, and what it has copied is still
the last thing that happened. -/
structure Awake (d : Device P) : Prop where
  reading : ∀ p, d.procs p = .reading → d.ev_press = true
  copied : ∀ p c, d.procs p = .copied c → Genuine d c

theorem moves_awake [Subsingleton P] {d d' : Device P} {e : Event P} (h : Moves d e d')
    (hd : Awake d) (he : ∀ p, e ≠ .act p .signal) : Awake d' := by
  cases h with
  | stays => exact hd
  | irq line gpio =>
    constructor
    · exact fun _ _ => rfl
    · exact fun p c hp => ⟨(hd.copied p c hp).pressed,(hd.copied p c hp).alone⟩
  | goes p a pc ha hpc hr =>
    constructor
    · intro q hq
      rw [Subsingleton.elim q p] at hq
      have hq : pc = .reading := by simpa [go] using hq
      exact (hr hq).resolve_right (fun h => he p (by rw [h]))
    · intro q c hq
      have hc := hd.copied q c ((go_copied hq).resolve_right (hpc c))
      exact ⟨hc.pressed,hc.alone⟩
  | copies p hp =>
    constructor
    · intro q hq
      rw [Subsingleton.elim q p] at hq
      simp [go] at hq
    · intro q c hq
      rw [Subsingleton.elim q p] at hq
      have hc : copy_of d = c := by simpa [go] using hq
      exact hc ▸ ⟨hd.reading p hp,rfl⟩
  | returns p c hp =>
    have huser : (finish p d).procs p = .user := Function.update_self ..
    constructor
    · intro q hq
      rw [Subsingleton.elim q p, huser] at hq
      cases hq
    · intro q c hq
      rw [Subsingleton.elim q p, huser] at hq
      cases hq

omit [DecidableEq P] in
theorem boot_awake : Awake (boot : Device P) where
  reading p h := by cases h
  copied p c h := by cases h

/-- With one reader, and no wait ended by a signal, every read is genuine. -/
theorem unsignalled_genuine [Subsingleton P] (es : List (Event P))
    (h : ∀ e ∈ es, ∀ p, e ≠ .act p .signal) : Along step (Returning Genuine) boot es := by
  have hall := (along_forall step (fun e : Event P => ∀ p, e ≠ .act p .signal) boot es).mpr h
  have hawake := always_of_step Awake (fun d e hd he => moves_awake (step_moves d e) hd he)
    boot es boot_awake hall
  exact along_of_always (fun d e hd _ p c _ hp => hd.copied p c hp) boot es hawake hall

end Readers

/-- A wait without a single interrupt is ended by a signal. -/
theorem signal_returns : ¬ ∀ es : List (Event Unit),
    Along step (Returning Delivered) boot es ∧ Always step Counted boot es := by
  intro h
  have hcount := always_last
    (h [.act () (.call false 1),.act () .signal,.act () .copy,.act () .ret]).2
  exact absurd hcount (by show ¬ _ ≤ _; decide)

end BaseDrivers.ButtonsNoblock
