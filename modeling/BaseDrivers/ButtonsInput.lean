import Mathlib.Data.Int.Init
import BaseDrivers.Execution

/-!
# The debounced buttons of the input driver

Every edge of a button arms the one timer again and leaves the descriptor of
the button in the one variable the timer handler looks at. The handler reads
the pin of that button only.
-/

set_option autoImplicit false

namespace BaseDrivers.ButtonsInput
open BaseDrivers.Execution

/-- The four buttons, named as in `pins_desc`. -/
inductive Button where
  | S2 | S3 | S4 | S5
  deriving DecidableEq, Repr

inductive Pin where
  | S3C2440_GPG0 | S3C2440_GPG2 | S3C2440_GPG3 | S3C2440_GPG11
  deriving DecidableEq, Repr

inductive Key where
  | KEY_L | KEY_S | KEY_ENTER | KEY_LEFTSHIFT
  deriving DecidableEq, Repr

structure PinDesc where
  pin : Pin
  key_val : Key
  deriving DecidableEq, Repr

def pins_desc : Button → PinDesc
  | .S2 => ⟨.S3C2440_GPG0,.KEY_L⟩
  | .S3 => ⟨.S3C2440_GPG2,.KEY_S⟩
  | .S4 => ⟨.S3C2440_GPG3,.KEY_ENTER⟩
  | .S5 => ⟨.S3C2440_GPG11,.KEY_LEFTSHIFT⟩

/-- What the driver hands to the input layer. -/
inductive InputEvent where
  | EV_KEY (code : Key) (value : ℤ)
  | SYNC
  deriving DecidableEq, Repr

/-- The static variables, whether `buttons_timer` is pending, what the pins
are read as, and what has been reported. -/
structure Buttons where
  irq_pd : Option Button
  buttons_timer : Bool
  gpio : Pin → UInt32
  ev_press : Bool
  events : List InputEvent

/-- The timer is added here, before there has been any edge. -/
def buttons_init (gpio : Pin → UInt32) : Buttons where
  irq_pd := none
  buttons_timer := true
  gpio := gpio
  ev_press := false
  events := []

def buttons_irq (dev_id : Button) (s : Buttons) : Buttons :=
  { s with irq_pd := some dev_id, buttons_timer := true }

/-- `input_event` followed by `input_sync`. -/
def report (code : Key) (value : ℤ) (s : Buttons) : Buttons :=
  { s with events := s.events++[.EV_KEY code value,.SYNC] }

def buttons_timer_function (s : Buttons) : Buttons :=
  match s.irq_pd with
  | none => s
  | some pindesc =>
    let pinval := s.gpio (pins_desc pindesc).pin
    let s :=
      if pinval ≠ 0 then report (pins_desc pindesc).key_val 0 s
      else report (pins_desc pindesc).key_val 1 s
    { s with ev_press := true }

/-- An edge leaves the pin of its button at a new level. -/
inductive Event where
  | edge (b : Button) (pinval : UInt32)
  | expire
  deriving DecidableEq, Repr

def set_pin (b : Button) (pinval : UInt32) (s : Buttons) : Buttons :=
  { s with gpio := fun p => if p = (pins_desc b).pin then pinval else s.gpio p }

def step (s : Buttons) : Event → Buttons
  | .edge b pinval => buttons_irq b (set_pin b pinval s)
  | .expire => buttons_timer_function { s with buttons_timer := false }

/-- The timer fires once each time it has been armed. -/
def Admissible (s : Buttons) (e : Event) : Prop := e = .expire → s.buttons_timer = true

instance (s : Buttons) (e : Event) : Decidable (Admissible s e) :=
  inferInstanceAs (Decidable (e = .expire → s.buttons_timer = true))

/-- The value a pin stands for: 0 released, 1 pressed. -/
def level (pinval : UInt32) : ℤ := if pinval ≠ 0 then 0 else 1

/-- The values reported for a key. -/
def values (code : Key) (es : List InputEvent) : List ℤ :=
  es.filterMap (fun e => match e with
    | .EV_KEY c v => if c = code then some v else none
    | .SYNC => none)

/-- The levels the edges of a button left its pin at. -/
def edges (b : Button) : List Event → List ℤ
  | .edge c pinval :: es => if c = b then level pinval :: edges b es else edges b es
  | .expire :: es => edges b es
  | [] => []

/-- Those of them with which the timer fired next. -/
def timed (b : Button) : List Event → List ℤ
  | .edge c pinval :: .expire :: es => if c = b then level pinval :: timed b es else timed b es
  | _ :: es => timed b es
  | [] => []

/-- Every button that had an edge was last reported at its current level. -/
def KeysReported (es : List Event) (s : Buttons) : Prop :=
  ∀ b, edges b es ≠ [] →
    (values (pins_desc b).key_val s.events).getLast? = some (level (s.gpio (pins_desc b).pin))

/-- For every button, the last of its edges with which the timer fired next
left the level that its very last edge left. -/
def LastEdgesTimed (es : List Event) : Prop :=
  ∀ b, (timed b es).getLast? = (edges b es).getLast?

theorem pin_injective {b c : Button} : (pins_desc b).pin = (pins_desc c).pin ↔ b = c := by
  cases b <;> cases c <;> decide

theorem key_injective {b c : Button} : (pins_desc b).key_val = (pins_desc c).key_val ↔ b = c := by
  cases b <;> cases c <;> decide

theorem values_append (code : Key) (es fs : List InputEvent) :
    values code (es++fs) = values code es++values code fs := List.filterMap_append

theorem timer_gpio (s : Buttons) : (buttons_timer_function s).gpio = s.gpio := by
  rw [buttons_timer_function]
  cases s.irq_pd with
  | none => rfl
  | some c => dsimp only; split <;> rfl

theorem timer_timer (s : Buttons) :
    (buttons_timer_function s).buttons_timer = s.buttons_timer := by
  rw [buttons_timer_function]
  cases s.irq_pd with
  | none => rfl
  | some c => dsimp only; split <;> rfl

/-- The handler reports the button of the last edge and no other. -/
theorem timer_values (b c : Button) (s : Buttons) (h : s.irq_pd = some c) :
    values (pins_desc b).key_val (buttons_timer_function s).events =
      values (pins_desc b).key_val s.events++
        if c = b then [level (s.gpio (pins_desc c).pin)] else [] := by
  have hev : (buttons_timer_function s).events =
      s.events++[.EV_KEY (pins_desc c).key_val (level (s.gpio (pins_desc c).pin)),.SYNC] := by
    rw [buttons_timer_function, h, level]
    dsimp only
    split <;> rfl
  rw [hev, values_append]
  congr 1
  by_cases hcb : c = b
  · rw [if_pos hcb]
    exact List.filterMap_cons_some (if_pos (key_injective.mpr hcb))
  · rw [if_neg hcb]
    exact List.filterMap_cons_none (if_neg (fun hk => hcb (key_injective.mp hk)))

theorem edge_gpio (b c : Button) (pinval : UInt32) (s : Buttons) :
    (step s (.edge c pinval)).gpio (pins_desc b).pin =
      if c = b then pinval else s.gpio (pins_desc b).pin := by
  change (if (pins_desc b).pin = (pins_desc c).pin then pinval else _) = _
  simp only [pin_injective, eq_comm]

/-- A pin is at the level of the last edge of its button. -/
theorem run_level (b : Button) (s : Buttons) (es : List Event) :
    level ((run step s es).gpio (pins_desc b).pin) =
      (edges b es).getLast?.getD (level (s.gpio (pins_desc b).pin)) := by
  induction es generalizing s with
  | nil => rfl
  | cons e es ih =>
    rw [run, ih]
    cases e with
    | expire =>
      rw [step, timer_gpio]
      rfl
    | edge c pinval =>
      rw [edge_gpio]
      by_cases hcb : c = b
      · rw [if_pos hcb, edges, if_pos hcb, List.getLast?_cons]
        rfl
      · rw [if_neg hcb, edges, if_neg hcb]

/-- An edge with which the timer fires next. -/
theorem timed_values (b c : Button) (pinval : UInt32) (s : Buttons) :
    values (pins_desc b).key_val (step (step s (.edge c pinval)) .expire).events =
      values (pins_desc b).key_val s.events++if c = b then [level pinval] else [] := by
  have hpin : (step s (.edge c pinval)).gpio (pins_desc c).pin = pinval := by
    rw [edge_gpio, if_pos rfl]
  have h := timer_values b c { step s (.edge c pinval) with buttons_timer := false } rfl
  rw [hpin] at h
  exact h

theorem timer_none (s : Buttons) (h : s.irq_pd = none) : buttons_timer_function s = s := by
  rw [buttons_timer_function, h]

/-- A pending timer that finds no button, or does not fire next. -/
def Quiet (s : Buttons) (es : List Event) : Prop :=
  s.buttons_timer = true → s.irq_pd = none ∨ es.head? ≠ some .expire

theorem expire_quiet (s : Buttons) (es : List Event) : Quiet (step s .expire) es := by
  intro h
  have hidle : (step s .expire).buttons_timer = false := timer_timer { s with buttons_timer := false }
  exact absurd (hidle.symm.trans h) (by decide)

theorem edge_quiet (b : Button) (pinval : UInt32) (s : Buttons) (es : List Event)
    (h : ∀ fs, es ≠ .expire :: fs) : Quiet (step s (.edge b pinval)) es := by
  intro _
  right
  cases es with
  | nil =>
    intro he
    cases he
  | cons e es =>
    intro he
    exact h es (by rw [Option.some.inj he])

/-- A key is reported once for each of its edges with which the timer fired
next, at the level of that edge. -/
theorem run_values (b : Button) (s : Buttons) (es : List Event) (hs : Quiet s es)
    (hadm : Along step Admissible s es) :
    values (pins_desc b).key_val (run step s es).events =
      values (pins_desc b).key_val s.events++timed b es := by
  fun_induction timed b es generalizing s with
  | case1 pinval es ih =>
    rw [run, run, ih _ (expire_quiet _ es) hadm.2.2, timed_values, if_pos rfl, List.append_assoc]
    rfl
  | case2 c pinval es hcb ih =>
    rw [run, run, ih _ (expire_quiet _ es) hadm.2.2, timed_values, if_neg hcb, List.append_nil]
  | case3 e es hne ih =>
    cases e with
    | edge c pinval =>
      have hq := edge_quiet c pinval s es (fun fs he => hne c pinval fs rfl he)
      exact ih _ hq hadm.2
    | expire =>
      have hpd := (hs (hadm.1 rfl)).resolve_right (fun h => h rfl)
      have hstep : step s .expire = { s with buttons_timer := false } :=
        timer_none { s with buttons_timer := false } hpd
      have hq := expire_quiet s es
      have hadm := hadm.2
      rw [hstep] at hq hadm
      rw [run, hstep]
      exact ih _ hq hadm
  | case4 => exact (List.append_nil _).symm

theorem timed_sublist (b : Button) (es : List Event) : (timed b es).Sublist (edges b es) := by
  fun_induction timed b es with
  | case1 pinval es ih =>
    rw [edges, if_pos rfl]
    exact ih.cons_cons _
  | case2 c pinval es hcb ih =>
    rw [edges, if_neg hcb]
    exact ih
  | case3 e es hne ih =>
    cases e with
    | edge c pinval =>
      rw [edges]
      split
      · exact ih.cons _
      · exact ih
    | expire => exact ih
  | case4 => exact List.Sublist.refl []

/-- Once the timer has fired after the last edge, every key is reported at
its level exactly when the timer fired on a last edge of each button. -/
theorem keys_reported_iff (gpio : Pin → UInt32) (es : List Event)
    (hadm : Along step Admissible (buttons_init gpio) (es++[.expire])) :
    KeysReported (es++[.expire]) (run step (buttons_init gpio) (es++[.expire])) ↔
      LastEdgesTimed (es++[.expire]) := by
  apply forall_congr'
  intro b
  have hvalues := run_values b (buttons_init gpio) _ (fun _ => .inl rfl) hadm
  have hlevel := run_level b (buttons_init gpio) (es++[.expire])
  have hsub := timed_sublist b (es++[.expire])
  rw [hvalues, hlevel]
  cases hl : edges b (es++[.expire]) with
  | nil =>
    rw [hl, List.sublist_nil] at hsub
    exact iff_of_true (fun h => absurd rfl h) (by rw [hsub])
  | cons v vs =>
    rw [List.getLast?_cons]
    constructor
    · exact fun h => h (List.cons_ne_nil v vs)
    · exact fun h _ => h

/-- S2 and S3 are pressed before the timer fires. -/
theorem pressed_key_unreported :
    Along step Admissible (buttons_init (fun _ => 1)) [.edge .S2 0,.edge .S3 0,.expire] ∧
      ¬ KeysReported [.edge .S2 0,.edge .S3 0,.expire]
        (run step (buttons_init (fun _ => 1)) [.edge .S2 0,.edge .S3 0,.expire]) := by
  constructor
  · decide
  · intro h
    exact absurd (h .S2 (by decide)) (by decide)

/-- S2 bounces as it is pressed, S3 is pressed, and S2 released. -/
def exampleEvents : List Event :=
  [.edge .S2 0,.edge .S2 1,.edge .S2 0,.expire,.edge .S3 0,.expire,.edge .S2 1]

theorem keys_reported_bounce : KeysReported (exampleEvents++[.expire])
    (run step (buttons_init (fun _ => 1)) (exampleEvents++[.expire])) :=
  (keys_reported_iff (fun _ => 1) exampleEvents (by decide)).mpr
    (by intro b; cases b <;> decide)

end BaseDrivers.ButtonsInput
