import BaseDrivers.TouchScreen

/-!
# The position reported by the touch screen

The converter's readings are collected in groups of four. Both coordinates
of a reading are stored in the same array, so a group is filtered by its
second coordinates alone, and the mean of these is reported as the first
coordinate of the position, with a zero for the second one.
-/

set_option autoImplicit false

namespace BaseDrivers.TouchPosition
open BaseDrivers.Execution BaseDrivers.TouchScreen

/-- What the registers are read as in an interrupt of the converter. -/
structure Reading where
  adcdat0 : UInt32
  adcdat1 : UInt32
  again : UInt32
  deriving DecidableEq, Repr

def Reading.event (r : Reading) : Event := .adc r.adcdat0 r.adcdat1 r.again

/-- The pen is down. -/
def Down (r : Reading) : Prop := released r.again = false

def sampleX (r : Reading) : ℤ := (r.adcdat0 &&& 0x3ff).toNat

def sampleY (r : Reading) : ℤ := (r.adcdat1 &&& 0x3ff).toNat

def total (sample : Reading → ℤ) (a b c d : Reading) : ℤ :=
  sample a+sample b+sample c+sample d

/-- The groups of four readings, each turned into what is reported for it. -/
def groups {α : Type} (f : Reading → Reading → Reading → Reading → List α) : List Reading → List α
  | a::b::c::d::rs => f a b c d++groups f rs
  | _ => []

/-- A condition on every complete group of four readings. -/
def EachGroup (P : Reading → Reading → Reading → Reading → Prop) : List Reading → Prop
  | a::b::c::d::rs => P a b c d ∧ EachGroup P rs
  | _ => True

/-- `c` is at most `ERR_LIMIT` away from the mean of `a` and `b`, rounded
down. -/
def nearFloor (a b c : ℤ) : Bool :=
  decide ((a+b)/2-ERR_LIMIT ≤ c ∧ c ≤ (a+b)/2+ERR_LIMIT)

/-- The same with the mean as it is; everything is doubled. -/
def nearExact (a b c : ℤ) : Bool :=
  decide (a+b-2*ERR_LIMIT ≤ 2*c ∧ 2*c ≤ a+b+2*ERR_LIMIT)

section Spec
variable (near : ℤ → ℤ → ℤ → Bool)

/-- The third and the fourth sample are near the mean of the two before
them. -/
def steady (a b c d : ℤ) : Bool := near a b c && near b c d

def position (x y : ℤ) : List InputEvent := [.ABS_X x,.ABS_Y y]

/-- The position due for a group. -/
def due (a b c d : Reading) : List InputEvent :=
  if steady near (sampleX a) (sampleX b) (sampleX c) (sampleX d) &&
      steady near (sampleY a) (sampleY b) (sampleY c) (sampleY d) then
    position (total sampleX a b c d/4) (total sampleY a b c d/4)
  else []

/-- The position reported for a group. -/
def given (a b c d : Reading) : List InputEvent :=
  if steady nearFloor (sampleY a) (sampleY b) (sampleY c) (sampleY d) then
    position (total sampleY a b c d/4) 0
  else []

def isAxis : InputEvent → Bool
  | .ABS_X _ => true
  | .ABS_Y _ => true
  | _ => false

/-- What has been reported of positions. -/
def axes (es : List InputEvent) : List InputEvent := es.filter isAxis

/-- After every number of readings the positions reported are those due for
the groups complete by then, and the index is one of the arrays. -/
def Positions (rs : List Reading) : Prop :=
  ∀ k ≤ rs.length,
    axes (run step s3c_ts_init ((rs.take k).map Reading.event)).events =
      groups (due near) (rs.take k) ∧
    (run step s3c_ts_init ((rs.take k).map Reading.event)).cnt < 4

end Spec

/-- The group is not reported, or all its samples are too small to tell. -/
def Clear (a b c d : Reading) : Prop :=
  steady nearFloor (sampleY a) (sampleY b) (sampleY c) (sampleY d) = false ∨
    (total sampleX a b c d < 4 ∧ total sampleY a b c d < 4)

section Groups

/-- Readings come in groups of four, and a last group may be incomplete. -/
@[elab_as_elim]
theorem four_induction {P : List Reading → Prop} (short : ∀ rs, rs.length < 4 → P rs)
    (group : ∀ a b c d rs, P rs → P (a::b::c::d::rs)) : (rs : List Reading) → P rs
  | [] => short [] (by decide)
  | [a] => short [a] (Nat.lt_of_sub_eq_succ rfl)
  | [a,b] => short [a,b] (Nat.lt_of_sub_eq_succ rfl)
  | [a,b,c] => short [a,b,c] (Nat.lt_succ_self 3)
  | a::b::c::d::rs => group a b c d rs (four_induction short group rs)

variable {α : Type} (f g : Reading → Reading → Reading → Reading → List α)

theorem groups_short {rs : List Reading} (h : rs.length < 4) : groups f rs = [] := by
  rw [groups]
  rintro a b c d rs rfl
  simp only [List.length_cons] at h
  omega

theorem eachGroup_short (P : Reading → Reading → Reading → Reading → Prop) {rs : List Reading}
    (h : rs.length < 4) : EachGroup P rs := by
  rw [EachGroup]
  · trivial
  · rintro a b c d rs rfl
    simp only [List.length_cons] at h
    omega

theorem eachGroup_congr {P Q : Reading → Reading → Reading → Reading → Prop}
    (h : ∀ a b c d, P a b c d ↔ Q a b c d) (rs : List Reading) :
    EachGroup P rs ↔ EachGroup Q rs := by
  induction rs using four_induction with
  | short rs hrs => exact iff_of_true (eachGroup_short P hrs) (eachGroup_short Q hrs)
  | group a b c d rs ih => exact and_congr (h a b c d) ih

/-- Two reports agree after every reading exactly where they agree on every
group. -/
theorem groups_take_iff (rs : List Reading) :
    (∀ k ≤ rs.length, groups f (rs.take k) = groups g (rs.take k)) ↔
      EachGroup (fun a b c d => f a b c d = g a b c d) rs := by
  have hshort : ∀ {rs : List Reading} {k : ℕ}, (rs.take k).length < 4 →
      groups f (rs.take k) = groups g (rs.take k) := by
    intro rs k h
    rw [groups_short f h, groups_short g h]
  induction rs using four_induction with
  | short rs hrs =>
    apply iff_of_true _ (eachGroup_short _ hrs)
    intro k _
    apply hshort
    rw [List.length_take]
    omega
  | group a b c d rs ih =>
    constructor
    · intro h
      have hhead : f a b c d = g a b c d := by
        have h4 : f a b c d++[] = g a b c d++[] := h 4 (by simp)
        rwa [List.append_nil, List.append_nil] at h4
      refine ⟨hhead,ih.mp fun k hk => ?_⟩
      have htake : f a b c d++groups f (rs.take k) = g a b c d++groups g (rs.take k) :=
        h (k+4) (by simp only [List.length_cons]; omega)
      rw [hhead] at htake
      exact List.append_cancel_left htake
    · rintro ⟨hhead,htail⟩ k hk
      by_cases hk4 : k < 4
      · apply hshort
        rw [List.length_take]
        omega
      · obtain ⟨m,rfl⟩ : ∃ m, k = m+4 := ⟨k-4,by omega⟩
        show f a b c d++groups f (rs.take m) = g a b c d++groups g (rs.take m)
        rw [hhead, ih.mpr htail m (by simp only [List.length_cons] at hk; omega)]

end Groups

section Samples

theorem sampleY_nonneg (r : Reading) : 0 ≤ sampleY r := Int.natCast_nonneg _

theorem sampleX_nonneg (r : Reading) : 0 ≤ sampleX r := Int.natCast_nonneg _

theorem total_nonneg {sample : Reading → ℤ} (h : ∀ r, 0 ≤ sample r) (a b c d : Reading) :
    0 ≤ total sample a b c d :=
  Int.add_nonneg (Int.add_nonneg (Int.add_nonneg (h a) (h b)) (h c)) (h d)

/-- One comparison of the filter. -/
theorem det_near {x : ℕ → ℤ} (i : ℕ) (h : 0 ≤ x i+x (i+1)) :
    ¬ det x i > ERR_LIMIT ↔ nearFloor (x i) (x (i+1)) (x (i+2)) = true := by
  rw [nearFloor, decide_eq_true_iff, det, Int.tdiv_eq_ediv_of_nonneg h]
  split_ifs <;> omega

theorem filter_steady {x y : ℕ → ℤ} (hx : ∀ i < 4, 0 ≤ x i) (hy : ∀ i < 4, 0 ≤ y i) :
    filter_ts x y = (steady nearFloor (x 0) (x 1) (x 2) (x 3) &&
      steady nearFloor (y 0) (y 1) (y 2) (y 3)) := by
  have hx0 := det_near 0 (Int.add_nonneg (hx 0 (by decide)) (hx 1 (by decide)))
  have hx1 := det_near 1 (Int.add_nonneg (hx 1 (by decide)) (hx 2 (by decide)))
  have hy0 := det_near 0 (Int.add_nonneg (hy 0 (by decide)) (hy 1 (by decide)))
  have hy1 := det_near 1 (Int.add_nonneg (hy 1 (by decide)) (hy 2 (by decide)))
  rw [Bool.eq_iff_iff, Bool.and_eq_true, steady, steady, Bool.and_eq_true, Bool.and_eq_true,
    ← hx0, ← hx1, ← hy0, ← hy1, filter_ts]
  split_ifs <;> simp only [true_iff, false_iff] <;> tauto

/-- The reading of a pen that is down, stored at the index. -/
def stored (r : Reading) (s : Touch) : Touch :=
  { s with x := store s.x s.cnt (sampleY r), cnt := s.cnt+1 }

/-- What is done with the samples once there are four. -/
def judged (s : Touch) : Touch :=
  if filter_ts s.x s.y then
    report ([.ABS_X (mean s.x),.ABS_Y (mean s.y)]++touch_events 1) s
  else s

theorem adc_stores (s : Touch) {r : Reading} (hd : Down r) : step s r.event =
    if (stored r s).cnt = 4 then
      { enter_wait_pen_up_mode { judged (stored r s) with cnt := 0 } with ts_timer := true }
    else start_adc (enter_measure_xy_mode (stored r s)) := by
  have hstored : stored r s =
      { s with x := store (store s.x s.cnt (sampleX r)) s.cnt (sampleY r), cnt := s.cnt+1 } := by
    rw [stored]
    congr 1
    ext1 j
    simp only [store]
    split_ifs <;> rfl
  show adc_irq _ _ _ _ = _
  rw [adc_irq, hd, if_neg Bool.false_ne_true, hstored]
  rfl

/-- A reading that does not complete a group. -/
def collected (r : Reading) (s : Touch) : Touch := start_adc (enter_measure_xy_mode (stored r s))

theorem adc_collects {s : Touch} {r : Reading} (hd : Down r) (hc : s.cnt < 3) :
    step s r.event = collected r s := by
  rw [adc_stores s hd]
  apply if_neg
  show s.cnt+1 ≠ 4
  omega

theorem adc_completes {s : Touch} {r : Reading} (hd : Down r) (hc : s.cnt = 3) :
    step s r.event =
      { enter_wait_pen_up_mode { judged (stored r s) with cnt := 0 } with ts_timer := true } := by
  rw [adc_stores s hd]
  apply if_pos
  show s.cnt+1 = 4
  rw [hc]

theorem judged_y (s : Touch) : (judged s).y = s.y := by
  rw [judged]
  split_ifs <;> rfl

theorem judged_axes (s : Touch) : axes (judged s).events = axes s.events++
    if filter_ts s.x s.y then position (mean s.x) (mean s.y) else [] := by
  rw [judged]
  split_ifs
  · show axes (s.events++_) = _
    rw [axes, List.filter_append]
    rfl
  · exact (List.append_nil _).symm

/-- No group is begun, and nothing has ever been stored in `y`. -/
structure Fresh (s : Touch) : Prop where
  cnt : s.cnt = 0
  y : s.y = fun _ => 0

/-- Four readings of a pen that is down. -/
theorem four_readings {s : Touch} {a b c d : Reading} (h : Fresh s) (ha : Down a) (hb : Down b)
    (hc : Down c) (hd : Down d) :
    Fresh (run step s ([a,b,c,d].map Reading.event)) ∧
    axes (run step s ([a,b,c,d].map Reading.event)).events = axes s.events++given a b c d := by
  let u : Touch := stored d (collected c (collected b (collected a s)))
  have hrun : run step s ([a,b,c,d].map Reading.event) =
      { enter_wait_pen_up_mode { judged u with cnt := 0 } with ts_timer := true } := by
    have h1 : (collected a s).cnt = 1 := congrArg (·+1) h.cnt
    have h2 : (collected b (collected a s)).cnt = 2 := congrArg (·+1) h1
    have h3 : (collected c (collected b (collected a s))).cnt = 3 := congrArg (·+1) h2
    show step (step (step (step s a.event) b.event) c.event) d.event = _
    rw [adc_collects ha (by rw [h.cnt]; decide), adc_collects hb (by rw [h1]; decide),
      adc_collects hc (by rw [h2]; decide), adc_completes hd h3]
  have hx : u.x 0 = sampleY a ∧ u.x 1 = sampleY b ∧ u.x 2 = sampleY c ∧ u.x 3 = sampleY d := by
    simp [u, collected, stored, store, start_adc, enter_measure_xy_mode, h.cnt]
  have hy : u.y = fun _ => 0 := h.y
  have hnonneg : ∀ i < 4, 0 ≤ u.x i := by
    intro i hi
    obtain rfl | rfl | rfl | rfl : i = 0 ∨ i = 1 ∨ i = 2 ∨ i = 3 := by omega
    · exact hx.1 ▸ sampleY_nonneg a
    · exact hx.2.1 ▸ sampleY_nonneg b
    · exact hx.2.2.1 ▸ sampleY_nonneg c
    · exact hx.2.2.2 ▸ sampleY_nonneg d
  have hfilter : filter_ts u.x u.y =
      steady nearFloor (sampleY a) (sampleY b) (sampleY c) (sampleY d) := by
    rw [filter_steady hnonneg (by simp [hy]), hx.1, hx.2.1, hx.2.2.1, hx.2.2.2, hy]
    exact Bool.and_true _
  have hmean : mean u.x = total sampleY a b c d/4 := by
    rw [mean, hx.1, hx.2.1, hx.2.2.1, hx.2.2.2]
    exact Int.tdiv_eq_ediv_of_nonneg (total_nonneg sampleY_nonneg a b c d)
  rw [hrun]
  constructor
  · exact ⟨rfl,(judged_y u).trans hy⟩
  · show axes (judged u).events = _
    rw [judged_axes, hfilter, hmean, hy]
    rfl

/-- Readings that do not complete a group are only stored. -/
theorem short_run {rs : List Reading} (hdown : ∀ r ∈ rs, Down r) {s : Touch}
    (hcnt : s.cnt+rs.length < 4) :
    (run step s (rs.map Reading.event)).cnt = s.cnt+rs.length ∧
    (run step s (rs.map Reading.event)).events = s.events := by
  induction rs generalizing s with
  | nil => exact ⟨rfl,rfl⟩
  | cons r rs ih =>
    rw [List.length_cons] at hcnt
    have hstep := adc_collects (hdown r List.mem_cons_self) (s := s) (by omega)
    have hc : (collected r s).cnt = s.cnt+1 := rfl
    obtain ⟨hc',he⟩ := ih (fun r hr => hdown r (List.mem_cons_of_mem _ hr)) (s := collected r s)
      (by rw [hc]; omega)
    rw [List.map_cons, run, hstep, hc', he, hc, List.length_cons]
    exact ⟨by omega,rfl⟩

/-- What has been reported after a number of readings with the pen down. -/
theorem run_positions {rs : List Reading} (hdown : ∀ r ∈ rs, Down r) {s : Touch} (h : Fresh s) :
    axes (run step s (rs.map Reading.event)).events = axes s.events++groups given rs ∧
    (run step s (rs.map Reading.event)).cnt < 4 := by
  induction rs using four_induction generalizing s with
  | short rs hrs =>
    obtain ⟨hc,he⟩ := short_run hdown (s := s) (by rw [h.cnt, Nat.zero_add]; exact hrs)
    rw [he, groups_short given hrs, List.append_nil, hc, h.cnt, Nat.zero_add]
    exact ⟨rfl,hrs⟩
  | group a b c d rs ih =>
    obtain ⟨ha,hb,hc,hd,hrest⟩ : Down a ∧ Down b ∧ Down c ∧ Down d ∧ ∀ r ∈ rs, Down r := by
      simpa using hdown
    obtain ⟨hfresh,haxes⟩ := four_readings h ha hb hc hd
    have hrs := ih hrest hfresh
    rw [haxes, List.append_assoc] at hrs
    exact hrs

end Samples

section Positions
variable {near : ℤ → ℤ → ℤ → Bool}

/-- What is reported for a group is what is due exactly where the group is
clear, whichever way the filter rounds. -/
theorem given_due_iff (hexact : ∀ a b c, nearExact a b c = true → near a b c = true)
    (hfloor : ∀ a b c, near a b c = true → nearFloor a b c = true) (a b c d : Reading) :
    given a b c d = due near a b c d ↔ Clear a b c d := by
  have hsteady : ∀ a b c d, steady near a b c d = true → steady nearFloor a b c d = true := by
    intro a b c d h
    rw [steady, Bool.and_eq_true] at h ⊢
    exact ⟨hfloor _ _ _ h.1,hfloor _ _ _ h.2⟩
  have hsmall : ∀ {sample : Reading → ℤ}, (∀ r, 0 ≤ sample r) → total sample a b c d < 4 →
      steady near (sample a) (sample b) (sample c) (sample d) = true := by
    intro sample h hsum
    have ha := h a
    have hb := h b
    have hc := h c
    have hd := h d
    rw [total] at hsum
    rw [steady, Bool.and_eq_true]
    constructor
    · apply hexact
      rw [nearExact, decide_eq_true_iff, ERR_LIMIT]
      omega
    · apply hexact
      rw [nearExact, decide_eq_true_iff, ERR_LIMIT]
      omega
  have hX := total_nonneg sampleX_nonneg a b c d
  have hY := total_nonneg sampleY_nonneg a b c d
  rw [Clear, given, due]
  cases hs : steady nearFloor (sampleY a) (sampleY b) (sampleY c) (sampleY d) with
  | false =>
    have hno : steady near (sampleY a) (sampleY b) (sampleY c) (sampleY d) = false := by
      by_contra hyes
      rw [Bool.not_eq_false] at hyes
      rw [hsteady _ _ _ _ hyes] at hs
      cases hs
    rw [hno, Bool.and_false]
    exact iff_of_true rfl (.inl rfl)
  | true =>
    rw [if_pos rfl]
    constructor
    · intro h
      right
      split_ifs at h with hdue
      · injection h with h1 h2
        injection h1 with h1
        injection h2 with h2
        injection h2 with h2
        omega
      · cases h
    · rintro (h | ⟨hx,hy⟩)
      · cases h
      · have hx0 : total sampleX a b c d/4 = 0 := by omega
        have hy0 : total sampleY a b c d/4 = 0 := by omega
        rw [hsmall sampleX_nonneg hx, hsmall sampleY_nonneg hy, hx0, hy0]
        rfl

theorem positions_iff_of (hexact : ∀ a b c, nearExact a b c = true → near a b c = true)
    (hfloor : ∀ a b c, near a b c = true → nearFloor a b c = true) (rs : List Reading)
    (hdown : ∀ r ∈ rs, Down r) : Positions near rs ↔ EachGroup Clear rs := by
  have hrun : ∀ k, axes (run step s3c_ts_init ((rs.take k).map Reading.event)).events =
        groups given (rs.take k) ∧
      (run step s3c_ts_init ((rs.take k).map Reading.event)).cnt < 4 :=
    fun k => run_positions (fun r hr => hdown r (List.mem_of_mem_take hr)) ⟨rfl,rfl⟩
  rw [← eachGroup_congr (given_due_iff hexact hfloor), ← groups_take_iff]
  constructor
  · intro h k hk
    rw [← (hrun k).1]
    exact (h k hk).1
  · intro h k hk
    rw [(hrun k).1]
    exact ⟨h k hk,(hrun k).2⟩

/-- The positions reported are those due exactly where every complete group
is clear, whether or not the mean in the filter is rounded. -/
theorem positions_iff (rs : List Reading) (hdown : ∀ r ∈ rs, Down r) :
    (Positions nearFloor rs ↔ EachGroup Clear rs) ∧
    (Positions nearExact rs ↔ EachGroup Clear rs) := by
  have hround : ∀ a b c, nearExact a b c = true → nearFloor a b c = true := by
    intro a b c h
    rw [nearExact, decide_eq_true_iff] at h
    rw [nearFloor, decide_eq_true_iff]
    omega
  exact ⟨positions_iff_of hround (fun _ _ _ h => h) rs hdown,
    positions_iff_of (fun _ _ _ h => h) hround rs hdown⟩

/-- One unsteady group, and one in the corner of the screen. -/
def cornerReadings : List Reading :=
  [⟨9,0,0⟩,⟨9,0,0⟩,⟨9,500,0⟩,⟨9,0,0⟩,⟨1,0,0⟩,⟨0,1,0⟩,⟨1,0,0⟩,⟨0,0,0⟩]

theorem positions_corner :
    Positions nearFloor cornerReadings ∧ Positions nearExact cornerReadings := by
  have hclear : EachGroup Clear cornerReadings :=
    ⟨.inl (by decide),.inr (by decide),trivial⟩
  have hdown : ∀ r ∈ cornerReadings, Down r := by
    show ∀ r ∈ cornerReadings, released r.again = false
    decide
  exact ⟨(positions_iff cornerReadings hdown).1.mpr hclear,
    (positions_iff cornerReadings hdown).2.mpr hclear⟩

/-- A pen at rest at 100 and 200 is reported at 200 and 0. -/
theorem positions_swapped :
    ¬ Positions nearFloor (List.replicate 4 ⟨100,200,0⟩) ∧
    ¬ Positions nearExact (List.replicate 4 ⟨100,200,0⟩) := by
  constructor
  · intro h
    exact absurd (h 4 (by decide)).1 (by decide)
  · intro h
    exact absurd (h 4 (by decide)).1 (by decide)

end Positions

end BaseDrivers.TouchPosition
