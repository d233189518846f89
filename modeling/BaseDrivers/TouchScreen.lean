import Mathlib.Data.Int.Init
import Mathlib.Tactic.SplitIfs
import BaseDrivers.Execution

/-!
# The S3C touch screen

A pen interrupt and a timer look at the pen and start a measurement, and the
interrupt of the converter collects four samples and reports them. Each of
the three handlers reports a released pen itself. Only the converter's
reports it as released.
-/

set_option autoImplicit false

namespace BaseDrivers.TouchScreen
open BaseDrivers.Execution

/-- What the handlers hand to the input layer. -/
inductive InputEvent where
  | ABS_X (v : ℤ)
  | ABS_Y (v : ℤ)
  | ABS_PRESSURE (v : ℤ)
  | BTN_TOUCH (v : ℤ)
  | SYNC
  deriving DecidableEq, Repr

/-- The registers the handlers write, the static variables of `adc_irq`,
whether `ts_timer` is pending, and what has been reported. -/
structure Touch where
  adccon : UInt32
  adctsc : UInt32
  cnt : ℕ
  x : ℕ → ℤ
  y : ℕ → ℤ
  ts_timer : Bool
  events : List InputEvent

def enter_wait_pen_down_mode (s : Touch) : Touch := { s with adctsc := 0xd3 }
def enter_wait_pen_up_mode (s : Touch) : Touch := { s with adctsc := 0x1d3 }
def enter_measure_xy_mode (s : Touch) : Touch := { s with adctsc := 0xc }
def start_adc (s : Touch) : Touch := { s with adccon := s.adccon ||| 1 }

/-- `ts_timer` is started once by `s3c_ts_init`. -/
def s3c_ts_init : Touch where
  adccon := ((1 : UInt32) <<< 14) ||| ((49 : UInt32) <<< 6)
  adctsc := 0xd3
  cnt := 0
  x _ := 0
  y _ := 0
  ts_timer := true
  events := []

def report (es : List InputEvent) (s : Touch) : Touch := { s with events := s.events++es }

/-- The pressure and the button, followed by the end of the report. -/
def touch_events (v : ℤ) : List InputEvent := [.ABS_PRESSURE v,.BTN_TOUCH v,.SYNC]

/-- Bit 15 of `adcdat0` is set when the pen is up. -/
def released (adcdat0 : UInt32) : Bool := adcdat0 &&& 0x8000 != 0

def ERR_LIMIT : ℤ := 10

/-- The distance of a sample from the mean of the two before it. -/
def det (x : ℕ → ℤ) (i : ℕ) : ℤ :=
  let avr := (x i+x (i+1)).tdiv 2
  if x (i+2) > avr then x (i+2)-avr else avr-x (i+2)

def filter_ts (x y : ℕ → ℤ) : Bool :=
  if det x 0 > ERR_LIMIT ∨ det y 0 > ERR_LIMIT then false
  else if det x 1 > ERR_LIMIT ∨ det y 1 > ERR_LIMIT then false
  else true

/-- The body of the two handlers that look at the pen. Both report a 1 when
it is up. -/
def look_at_pen (adcdat0 : UInt32) (s : Touch) : Touch :=
  if released adcdat0 then enter_wait_pen_down_mode (report (touch_events 1) s)
  else start_adc (enter_measure_xy_mode s)

def s3c_ts_timer_function : UInt32 → Touch → Touch := look_at_pen
def pen_down_up_irq : UInt32 → Touch → Touch := look_at_pen

def mean (x : ℕ → ℤ) : ℤ := (x 0+x 1+x 2+x 3).tdiv 4

def store (a : ℕ → ℤ) (i : ℕ) (v : ℤ) : ℕ → ℤ := fun j => if j = i then v else a j

/-- The register is read once for the sample and once more for the pen. Both
coordinates go into `x`, the second one stays. -/
def adc_irq (adcdat0 adcdat1 again : UInt32) (s : Touch) : Touch :=
  if released again then
    enter_wait_pen_down_mode (report (touch_events 0) { s with cnt := 0 })
  else
    let s := { s with x := store s.x s.cnt (adcdat0 &&& 0x3ff).toNat }
    let s := { s with x := store s.x s.cnt (adcdat1 &&& 0x3ff).toNat }
    let s := { s with cnt := s.cnt+1 }
    if s.cnt = 4 then
      let s :=
        if filter_ts s.x s.y then
          report ([.ABS_X (mean s.x),.ABS_Y (mean s.y)]++touch_events 1) s
        else s
      { enter_wait_pen_up_mode { s with cnt := 0 } with ts_timer := true }
    else start_adc (enter_measure_xy_mode s)

/-- What can happen, with the values the registers are read as. -/
inductive Event where
  | timer (adcdat0 : UInt32)
  | pen (adcdat0 : UInt32)
  | adc (adcdat0 adcdat1 again : UInt32)
  deriving DecidableEq, Repr

def step (s : Touch) : Event → Touch
  | .timer adcdat0 => s3c_ts_timer_function adcdat0 { s with ts_timer := false }
  | .pen adcdat0 => pen_down_up_irq adcdat0 s
  | .adc adcdat0 adcdat1 again => adc_irq adcdat0 adcdat1 again s

/-- Whether the handler of an event finds the pen released. -/
def seen : Event → Bool
  | .timer adcdat0 => released adcdat0
  | .pen adcdat0 => released adcdat0
  | .adc _ _ again => released again

def touches (es : List InputEvent) : List ℤ :=
  es.filterMap (fun e => match e with | .BTN_TOUCH v => some v | _ => none)

def pressures (es : List InputEvent) : List ℤ :=
  es.filterMap (fun e => match e with | .ABS_PRESSURE v => some v | _ => none)

/-- What the handler of an event reports. -/
def reported (s : Touch) (e : Event) : List InputEvent := (step s e).events.drop s.events.length

/-- After a handler has seen the pen released, the last values reported are
0; and a handler that reports a 1 has seen the pen down. -/
structure Truthful (s : Touch) (e : Event) : Prop where
  up_touch : seen e = true → (touches (step s e).events).getLast? = some 0
  up_pressure : seen e = true → (pressures (step s e).events).getLast? = some 0
  down_touch : .BTN_TOUCH 1 ∈ reported s e → seen e = false
  down_pressure : .ABS_PRESSURE 1 ∈ reported s e → seen e = false

/-- The timer and the pen interrupt do not find the pen released. -/
def LeavesRelease : Event → Prop
  | .timer adcdat0 => released adcdat0 = false
  | .pen adcdat0 => released adcdat0 = false
  | .adc _ _ _ => True

theorem touches_append (as bs : List InputEvent) : touches (as++bs) = touches as++touches bs :=
  List.filterMap_append

theorem pressures_append (as bs : List InputEvent) :
    pressures (as++bs) = pressures as++pressures bs := List.filterMap_append

theorem touch_events_last (v : ℤ) (es : List InputEvent) :
    (touches (es++touch_events v)).getLast? = some v ∧
      (pressures (es++touch_events v)).getLast? = some v := by
  constructor
  · rw [touches_append]
    exact List.getLast?_concat
  · rw [pressures_append]
    exact List.getLast?_concat

theorem touch_events_one {v : ℤ}
    (h : .BTN_TOUCH 1 ∈ touch_events v ∨ .ABS_PRESSURE 1 ∈ touch_events v) : v = 1 := by
  simp only [touch_events, List.mem_cons, List.not_mem_nil] at h
  rcases h with h | h <;> simp_all

theorem look_events (adcdat0 : UInt32) (s : Touch) : (look_at_pen adcdat0 s).events =
    s.events++(if released adcdat0 then touch_events 1 else []) := by
  rw [look_at_pen]
  split_ifs
  · rfl
  · exact (List.append_nil _).symm

theorem adc_released (adcdat0 adcdat1 again : UInt32) (s : Touch) (h : released again = true) :
    (adc_irq adcdat0 adcdat1 again s).events = s.events++touch_events 0 := by
  rw [adc_irq, if_pos h]
  rfl

/-- A handler that looks at a released pen reports it as pressed. -/
theorem look_truthful (s s' : Touch) (e : Event) (adcdat0 : UInt32)
    (hs : (step s e).events = (look_at_pen adcdat0 s').events) (hes : s'.events = s.events)
    (he : seen e = released adcdat0) : Truthful s e ↔ released adcdat0 = false := by
  rw [look_events, hes] at hs
  constructor
  · intro h
    by_contra hr
    rw [Bool.not_eq_false] at hr
    have hu := h.up_touch (he.trans hr)
    rw [hs, if_pos hr, (touch_events_last 1 s.events).1] at hu
    exact absurd (Option.some.inj hu) (by decide)
  · intro hr
    rw [hr] at he
    constructor
    · intro h
      rw [he] at h
      cases h
    · intro h
      rw [he] at h
      cases h
    · exact fun _ => he
    · exact fun _ => he

theorem adc_truthful (s : Touch) (adcdat0 adcdat1 again : UInt32) :
    Truthful s (.adc adcdat0 adcdat1 again) := by
  cases hr : released again with
  | true =>
    have hev : (step s (.adc adcdat0 adcdat1 again)).events = s.events++touch_events 0 :=
      adc_released adcdat0 adcdat1 again s hr
    have hnews : reported s (.adc adcdat0 adcdat1 again) = touch_events 0 := by
      rw [reported, hev, List.drop_left]
    have hlast := touch_events_last 0 s.events
    constructor
    · exact fun _ => by rw [hev, hlast.1]
    · exact fun _ => by rw [hev, hlast.2]
    · intro h
      rw [hnews] at h
      exact absurd (touch_events_one (.inl h)) (by decide)
    · intro h
      rw [hnews] at h
      exact absurd (touch_events_one (.inr h)) (by decide)
  | false =>
    constructor
    · intro h
      exact absurd (hr.symm.trans h) (by decide)
    · intro h
      exact absurd (hr.symm.trans h) (by decide)
    · exact fun _ => hr
    · exact fun _ => hr

theorem step_truthful (s : Touch) (e : Event) : Truthful s e ↔ LeavesRelease e := by
  cases e with
  | timer adcdat0 => exact look_truthful s { s with ts_timer := false } _ adcdat0 rfl rfl rfl
  | pen adcdat0 => exact look_truthful s s _ adcdat0 rfl rfl rfl
  | adc adcdat0 adcdat1 again => exact iff_of_true (adc_truthful s adcdat0 adcdat1 again) trivial

/-- Over every sequence of events the reports follow the pen exactly when the
timer and the pen interrupt leave the release to the converter. -/
theorem reports_truthful_iff (es : List Event) :
    Along step Truthful s3c_ts_init es ↔ ∀ e ∈ es, LeavesRelease e :=
  (along_congr step_truthful s3c_ts_init es).trans (along_forall step LeavesRelease _ es)

/-- The pen interrupt of a pen that is lifted reports a touch. -/
theorem lifted_pen_touches : ¬ Along step Truthful s3c_ts_init [.pen 0x8000] := by
  intro h
  exact absurd (h.1.up_touch (by decide)) (by decide)

end BaseDrivers.TouchScreen
