import Mathlib.Data.Int.Init
import Mathlib.Data.List.Basic
import Mathlib.Tactic.SplitIfs

/-!
# The points of a multi-touch panel

A reply of the panel has six bytes for a point, the coordinates in 12 bits
and the number of the point in 4. The bytes are taken apart at offsets
written out for each of the five points, in a `switch` that falls through.
-/

set_option autoImplicit false

namespace BaseDrivers.MultiTouch

structure MtpEvent where
  x : ℕ
  y : ℕ
  id : ℕ
  deriving DecidableEq, Repr

inductive InputEvent where
  | ABS_MT_POSITION_X (v : ℕ)
  | ABS_MT_POSITION_Y (v : ℕ)
  | ABS_MT_TRACKING_ID (v : ℕ)
  | input_mt_sync
  | input_sync
  deriving DecidableEq, Repr

/-- The static variables, and what has been reported. -/
structure Panel where
  mtp_points : ℕ
  mtp_events : ℕ → MtpEvent
  events : List InputEvent

/-- The result of `i2c_transfer`, and the bytes it has received. -/
structure Transfer where
  ret : ℤ
  rxdata : ℕ → UInt8

/-- `u8 buf[32]`, cleared, of which the transfer fills 31 bytes. The call in the
source leaves `buf` out of its arguments; it is taken to be meant. -/
def received (t : Transfer) (i : ℕ) : UInt8 := if i < 31 then t.rxdata i else 0

/-- `(s16)(h & 0x0F) << 8 | (s16)l` -/
def coordinate (h l : UInt8) : ℕ := ((h &&& 0x0F).toNat <<< 8) ||| l.toNat

def set_event (i : ℕ) (e : MtpEvent) (s : Panel) : Panel :=
  { s with mtp_events := fun j => if j = i then e else s.mtp_events j }

def case_1 (buf : ℕ → UInt8) (s : Panel) : Panel :=
  set_event 0 ⟨coordinate (buf 0x03) (buf 0x1c),coordinate (buf 0x05) (buf 0x1c),
    (buf 0x05 >>> 4).toNat⟩ s

def case_2 (buf : ℕ → UInt8) (s : Panel) : Panel :=
  case_1 buf (set_event 1 ⟨coordinate (buf 0x09) (buf 0x0a),coordinate (buf 0x0b) (buf 0x0c),
    (buf 0x0b >>> 4).toNat⟩ s)

def case_3 (buf : ℕ → UInt8) (s : Panel) : Panel :=
  case_2 buf (set_event 2 ⟨coordinate (buf 0x0F) (buf 0x10),coordinate (buf 0x11) (buf 0x12),
    (buf 0x11 >>> 4).toNat⟩ s)

def case_4 (buf : ℕ → UInt8) (s : Panel) : Panel :=
  case_3 buf (set_event 3 ⟨coordinate (buf 0x15) (buf 0x16),coordinate (buf 0x17) (buf 0x18),
    (buf 0x17 >>> 4).toNat⟩ s)

def case_5 (buf : ℕ → UInt8) (s : Panel) : Panel :=
  case_4 buf (set_event 4 ⟨coordinate (buf 0x1b) (buf 0x1c),coordinate (buf 0x1d) (buf 0x1e),
    (buf 0x1d >>> 4).toNat⟩ s)

def mtp_ft5x0x_read_data (t : Transfer) (s : Panel) : ℤ × Panel :=
  if t.ret < 0 then (t.ret,s)
  else
    let buf := received t
    let s := { s with mtp_points := (buf 2 &&& 0x0f).toNat }
    match s.mtp_points with
    | 5 => (0,case_5 buf s)
    | 4 => (0,case_4 buf s)
    | 3 => (0,case_3 buf s)
    | 2 => (0,case_2 buf s)
    | 1 => (0,case_1 buf s)
    | 0 => (0,s)
    | _ => (-1,s)

def report (es : List InputEvent) (s : Panel) : Panel := { s with events := s.events++es }

def report_point (s : Panel) (i : ℕ) : Panel :=
  report [.ABS_MT_POSITION_X (s.mtp_events i).x,.ABS_MT_POSITION_Y (s.mtp_events i).y,
    .ABS_MT_TRACKING_ID (s.mtp_events i).id,.input_mt_sync] s

def mtp_work_func (t : Transfer) (s : Panel) : Panel :=
  let r := mtp_ft5x0x_read_data t s
  let s := r.2
  if r.1 < 0 then s
  else if s.mtp_points = 0 then report [.input_mt_sync,.input_sync] s
  else report [.input_sync] ((List.range s.mtp_points).foldl report_point s)

/-- What the work function reports. -/
def reported (t : Transfer) (s : Panel) : List InputEvent :=
  (mtp_work_func t s).events.drop s.events.length

/-- The points in a report: the values up to an `input_mt_sync`. -/
def points : List InputEvent → List MtpEvent
  | .ABS_MT_POSITION_X x::.ABS_MT_POSITION_Y y::.ABS_MT_TRACKING_ID id::.input_mt_sync::es =>
    ⟨x,y,id⟩::points es
  | _::es => points es
  | [] => []

/-- A transfer of both messages, with the bytes of the reply. -/
def answered (b : ℕ → UInt8) : Transfer := ⟨2,b⟩

/-- The number of touch points a reply announces. -/
def count (b : ℕ → UInt8) : ℕ := (b 2).toNat % 16

/-- A point of the reply, by the layout of the panel. -/
def due (b : ℕ → UInt8) (i : ℕ) : MtpEvent where
  x := (b (3+6*i)).toNat % 16*256+(b (4+6*i)).toNat
  y := (b (5+6*i)).toNat % 16*256+(b (6+6*i)).toNat
  id := (b (5+6*i)).toNat/16

/-- The points due for a reply. -/
def duePoints (b : ℕ → UInt8) : List MtpEvent :=
  if count b ≤ 5 then (List.range (count b)).map (due b) else []

/-- The reply the panel makes of a list of points. The high half of the first
byte of a point is not a part of it. -/
structure Encodes (ps : List MtpEvent) (b : ℕ → UInt8) : Prop where
  few : ps.length ≤ 5
  small : ∀ p ∈ ps, p.x < 4096 ∧ p.y < 4096 ∧ p.id < 16
  count : count b = ps.length
  x_high : ∀ i p, ps[i]? = some p → (b (3+6*i)).toNat % 16 = p.x/256
  x_low : ∀ i p, ps[i]? = some p → (b (4+6*i)).toNat = p.x % 256
  y_high : ∀ i p, ps[i]? = some p → (b (5+6*i)).toNat = p.id*16+p.y/256
  y_low : ∀ i p, ps[i]? = some p → (b (6+6*i)).toNat = p.y % 256

/-- There is no first point, or its low bytes are those of the fifth. -/
def Clean (b : ℕ → UInt8) : Prop := count b = 0 ∨ 5 < count b ∨ (b 4 = b 28 ∧ b 6 = b 28)

theorem low_half (h : UInt8) : (h &&& 0x0F).toNat = h.toNat % 16 := by
  rw [UInt8.toNat_and]
  exact Nat.and_two_pow_sub_one_eq_mod h.toNat 4

theorem coordinate_eq (h l : UInt8) : coordinate h l = h.toNat % 16*256+l.toNat := by
  rw [coordinate, low_half, ← Nat.shiftLeft_add_eq_or_of_lt l.toNat_lt, Nat.shiftLeft_eq]

theorem high_half (h : UInt8) : (h >>> 4).toNat = h.toNat/16 := by
  rw [UInt8.toNat_shiftRight]
  exact Nat.shiftRight_eq_div_pow h.toNat 4

/-- The first point as it is decoded. -/
def first (b : ℕ → UInt8) : MtpEvent where
  x := (b 3).toNat % 16*256+(b 28).toNat
  y := (b 5).toNat % 16*256+(b 28).toNat
  id := (b 5).toNat/16

/-- A point as it is decoded. -/
def decoded (b : ℕ → UInt8) (i : ℕ) : MtpEvent := if i = 0 then first b else due b i

/-- The slots set from the last one down. -/
def fill (b : ℕ → UInt8) : ℕ → Panel → Panel
  | 0, s => s
  | n+1, s => fill b n (set_event n (decoded b n) s)

theorem fill_other (b : ℕ → UInt8) {n i : ℕ} (h : n ≤ i) (s : Panel) :
    (fill b n s).mtp_events i = s.mtp_events i := by
  induction n generalizing s with
  | zero => rfl
  | succ n ih =>
    rw [fill, ih (by omega)]
    exact if_neg (by omega)

theorem fill_event (b : ℕ → UInt8) {n i : ℕ} (h : i < n) (s : Panel) :
    (fill b n s).mtp_events i = decoded b i := by
  induction n generalizing s with
  | zero => exact absurd h (Nat.not_lt_zero i)
  | succ n ih =>
    rw [fill]
    rcases Nat.lt_succ_iff_lt_or_eq.mp h with h | rfl
    · exact ih h _
    · rw [fill_other b (Nat.le_refl i)]
      exact if_pos rfl

theorem fill_rest (b : ℕ → UInt8) (n : ℕ) (s : Panel) :
    (fill b n s).events = s.events ∧ (fill b n s).mtp_points = s.mtp_points := by
  induction n generalizing s with
  | zero => exact ⟨rfl,rfl⟩
  | succ n ih => exact ih _

theorem event_eq (h l m n : UInt8) :
    (⟨coordinate h l,coordinate m n,(m >>> 4).toNat⟩ : MtpEvent) =
      ⟨h.toNat % 16*256+l.toNat,m.toNat % 16*256+n.toNat,m.toNat/16⟩ := by
  rw [coordinate_eq, coordinate_eq, high_half]

section Cases
variable (b : ℕ → UInt8) (s : Panel)

theorem case_1_fills : case_1 (received (answered b)) s = fill b 1 s := by
  rw [case_1, event_eq]
  rfl

theorem case_2_fills : case_2 (received (answered b)) s = fill b 2 s := by
  rw [case_2, case_1_fills, event_eq]
  rfl

theorem case_3_fills : case_3 (received (answered b)) s = fill b 3 s := by
  rw [case_3, case_2_fills, event_eq]
  rfl

theorem case_4_fills : case_4 (received (answered b)) s = fill b 4 s := by
  rw [case_4, case_3_fills, event_eq]
  rfl

theorem case_5_fills : case_5 (received (answered b)) s = fill b 5 s := by
  rw [case_5, case_4_fills, event_eq]
  rfl

/-- The number of points is kept, and up to five of them fill their slots. -/
theorem read_fills : mtp_ft5x0x_read_data (answered b) s =
    if 5 < count b then (-1,{ s with mtp_points := count b })
    else (0,fill b (count b) { s with mtp_points := count b }) := by
  have hcount : (received (answered b) 2 &&& 0x0f).toNat = count b := low_half (b 2)
  have hret : ¬ (answered b).ret < 0 := Int.not_lt.mpr (Int.natCast_nonneg 2)
  rw [mtp_ft5x0x_read_data, if_neg hret]
  simp only [hcount]
  split
  · next h => rw [h, if_neg (by decide), case_5_fills]
  · next h => rw [h, if_neg (by decide), case_4_fills]
  · next h => rw [h, if_neg (by decide), case_3_fills]
  · next h => rw [h, if_neg (by decide), case_2_fills]
  · next h => rw [h, if_neg (by decide), case_1_fills]
  · next h => rw [h, if_neg (by decide), fill]
  · next h5 h4 h3 h2 h1 h0 =>
    have hmany : 5 < count b := by grind
    rw [if_pos hmany]

end Cases

/-- What is reported for a point. -/
def emitted (e : MtpEvent) : List InputEvent :=
  [.ABS_MT_POSITION_X e.x,.ABS_MT_POSITION_Y e.y,.ABS_MT_TRACKING_ID e.id,.input_mt_sync]

theorem report_points (is : List ℕ) (s : Panel) : (is.foldl report_point s).events =
    s.events++(is.map s.mtp_events).flatMap emitted := by
  induction is generalizing s with
  | nil => exact (List.append_nil _).symm
  | cons i is ih =>
    rw [List.foldl_cons, ih]
    exact List.append_assoc _ _ _

theorem points_emitted (es : List MtpEvent) (is : List InputEvent) :
    points (es.flatMap emitted++is) = es++points is := by
  induction es with
  | nil => rfl
  | cons e es ih =>
    rw [List.flatMap_cons, List.append_assoc]
    exact congrArg (e :: ·) ih

/-- The report made of a reply. -/
def answer (b : ℕ → UInt8) : List InputEvent :=
  if 5 < count b then []
  else if count b = 0 then [.input_mt_sync,.input_sync]
  else ((List.range (count b)).map (decoded b)).flatMap emitted++[.input_sync]

theorem work_reports (b : ℕ → UInt8) (s : Panel) :
    (mtp_work_func (answered b) s).events = s.events++answer b := by
  rw [mtp_work_func, read_fills, answer]
  by_cases h5 : 5 < count b
  · rw [if_pos h5, if_pos h5]
    exact (List.append_nil _).symm
  · obtain ⟨hevents,hpoints⟩ := fill_rest b (count b) { s with mtp_points := count b }
    have hslots : (List.range (count b)).map (fill b (count b) { s with
        mtp_points := count b }).mtp_events = (List.range (count b)).map (decoded b) :=
      List.map_congr_left fun i hi => fill_event b (List.mem_range.mp hi) _
    rw [if_neg h5, if_neg h5]
    simp only [Int.lt_irrefl, if_false, hpoints]
    by_cases h0 : count b = 0
    · rw [if_pos h0, if_pos h0, report, hevents]
    · rw [if_neg h0, if_neg h0, report, report_points, hslots, hevents, List.append_assoc]

/-- The points reported for a reply. -/
theorem reported_points (b : ℕ → UInt8) (s : Panel) : points (reported (answered b) s) =
    if count b ≤ 5 then (List.range (count b)).map (decoded b) else [] := by
  rw [reported, work_reports, List.drop_left, answer]
  by_cases h5 : 5 < count b
  · rw [if_pos h5, if_neg (Nat.not_le.mpr h5)]
    rfl
  · rw [if_neg h5, if_pos (Nat.not_lt.mp h5)]
    by_cases h0 : count b = 0
    · rw [if_pos h0, h0]
      rfl
    · rw [if_neg h0, points_emitted]
      exact List.append_nil _

theorem first_due (b : ℕ → UInt8) : decoded b 0 = due b 0 ↔ b 4 = b 28 ∧ b 6 = b 28 := by
  rw [← UInt8.toNat_inj, ← UInt8.toNat_inj]
  show first b = due b 0 ↔ _
  simp only [first, due, MtpEvent.mk.injEq, Nat.mul_zero, Nat.add_zero, and_true]
  omega

theorem decoded_points_iff (b : ℕ → UInt8) (s : Panel) :
    points (reported (answered b) s) = duePoints b ↔ Clean b := by
  rw [reported_points, duePoints, Clean]
  by_cases h5 : count b ≤ 5
  · rw [if_pos h5, if_pos h5, List.map_inj_left]
    constructor
    · intro h
      by_cases h0 : count b = 0
      · exact .inl h0
      · exact .inr (.inr ((first_due b).mp (h 0 (List.mem_range.mpr (by omega)))))
    · intro h i hi
      rw [List.mem_range] at hi
      have hfirst := (h.resolve_left (by omega)).resolve_left (by omega)
      by_cases h0 : i = 0
      · rw [h0]
        exact (first_due b).mpr hfirst
      · exact if_neg h0
  · rw [if_neg h5, if_neg h5]
    exact iff_of_true rfl (.inr (.inl (by omega)))

theorem encodes_point {ps : List MtpEvent} {b : ℕ → UInt8} (h : Encodes ps b) {i : ℕ}
    {p : MtpEvent} (hp : ps[i]? = some p) : due b i = p := by
  obtain ⟨hx,hy,-⟩ := h.small p (List.mem_of_getElem? hp)
  have hxh := h.x_high i p hp
  have hxl := h.x_low i p hp
  have hyh := h.y_high i p hp
  have hyl := h.y_low i p hp
  show MtpEvent.mk _ _ _ = MtpEvent.mk p.x p.y p.id
  congr 1 <;> omega

/-- The layout undoes the panel's encoding. -/
theorem encodes_due {ps : List MtpEvent} {b : ℕ → UInt8} (h : Encodes ps b) :
    duePoints b = ps := by
  rw [duePoints, h.count, if_pos h.few]
  apply List.ext_getElem?
  intro i
  rw [List.getElem?_map]
  by_cases hi : i < ps.length
  · have hp : ps[i]? = some ps[i] := List.getElem?_eq_getElem hi
    rw [List.getElem?_range hi, hp, Option.map_some, encodes_point h hp]
  · rw [List.getElem?_eq_none (by simpa using hi), List.getElem?_eq_none (by omega)]
    rfl

/-- The points reported are those of the reply's layout exactly where there
is no first point or its low bytes are the fifth point's, and so are the
points which the panel has encoded. -/
theorem reply_points_iff (b : ℕ → UInt8) (s : Panel) :
    (points (reported (answered b) s) = duePoints b ↔ Clean b) ∧
    ∀ ps, Encodes ps b → (points (reported (answered b) s) = ps ↔ Clean b) := by
  constructor
  · exact decoded_points_iff b s
  · intro ps h
    rw [← decoded_points_iff b s, encodes_due h]

/-- A panel that has reported nothing. -/
def blank : Panel := ⟨0,fun _ => ⟨0,0,0⟩,[]⟩

/-- One point in a reply with the given bytes at 4, at 6 and at 28. -/
def onePoint (x y z : UInt8) (i : ℕ) : UInt8 :=
  if i = 2 then 1 else if i = 4 then x else if i = 6 then y else if i = 28 then z else 0

/-- A single point at 16 and 16, while the fifth has a 16 left over. -/
theorem one_point_kept : points (reported (answered (onePoint 16 16 16)) blank) = [⟨16,16,0⟩] := by
  apply ((reply_points_iff (onePoint 16 16 16) blank).2 [⟨16,16,0⟩] _).mpr (.inr (.inr ⟨rfl,rfl⟩))
  have hone : ∀ (i : ℕ) (p : MtpEvent), [(⟨16,16,0⟩ : MtpEvent)][i]? = some p →
      i = 0 ∧ p = ⟨16,16,0⟩ := by
    intro i p h
    cases i with
    | zero => exact ⟨rfl,(Option.some.inj h).symm⟩
    | succ i => cases h
  constructor
  · decide
  · decide
  · rfl
  · rintro i p h
    obtain ⟨rfl,rfl⟩ := hone i p h
    rfl
  · rintro i p h
    obtain ⟨rfl,rfl⟩ := hone i p h
    rfl
  · rintro i p h
    obtain ⟨rfl,rfl⟩ := hone i p h
    rfl
  · rintro i p h
    obtain ⟨rfl,rfl⟩ := hone i p h
    rfl

/-- A single point at 16 and 32, and nothing of a fifth, is reported in the
corner. -/
theorem one_point_lost : ¬ ∀ (b : ℕ → UInt8) (s : Panel),
    points (reported (answered b) s) = duePoints b := by
  intro h
  exact absurd (h (onePoint 16 32 0) blank) (by decide)

end BaseDrivers.MultiTouch
