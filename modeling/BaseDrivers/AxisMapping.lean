import Mathlib.Data.Int.Init
import Mathlib.Logic.Function.Basic

/-!
# The axes of a chip on those of a device

Each axis of the device is one of the chip's or its opposite, named by a
number from 1 to 3 with a sign. The number is taken apart by shifting its
sign bit over the whole byte; the samples are multiplied by the sign and
stored in 16 bits again.
-/

set_option autoImplicit false

namespace BaseDrivers.AxisMapping

/-- `axis_map_t`, of which the first three places are used. -/
structure AxisMap where
  axis : ℕ → UInt8
  sign : ℕ → Int8

def set_axis (i : ℕ) (v : UInt8) (m : AxisMap) : AxisMap :=
  { m with axis := Function.update m.axis i v }

def set_sign (i : ℕ) (v : Int8) (m : AxisMap) : AxisMap :=
  { m with sign := Function.update m.sign i v }

/-- `SIGN_OF_INT8`; the byte is an `int` in it. -/
def sign_of_int8 (x : Int8) : Int32 := (1 : Int32) ||| (x.toInt32 >>> 7)

/-- The two assignments for one axis. -/
def init_axis (axis_cfg : ℕ → Int8) (i : ℕ) (m : AxisMap) : AxisMap :=
  let m := set_sign i (sign_of_int8 (axis_cfg i)).toInt8 m
  set_axis i ((axis_cfg i).toInt32*(m.sign i).toInt32-1).toUInt32.toUInt8 m

def sensor_axis_map_init (axis_map : AxisMap) (axis_cfg_data : Option (ℕ → UInt8)) : AxisMap :=
  match axis_cfg_data with
  | none =>
    let m := set_axis 2 2 (set_axis 1 1 (set_axis 0 0 axis_map))
    set_sign 2 1 (set_sign 1 1 (set_sign 0 1 m))
  | some axis_cfg_data =>
    let axis_cfg := fun i => (axis_cfg_data i).toInt8
    init_axis axis_cfg 2 (init_axis axis_cfg 1 (init_axis axis_cfg 0 axis_map))

/-- `data[axis_map->axis[i]] * axis_map->sign[i]`, as `tmp` keeps it. -/
def mapped (axis_map : AxisMap) (data : ℕ → Int16) (i : ℕ) : Int16 :=
  ((data (axis_map.axis i).toNat).toInt32*(axis_map.sign i).toInt32).toInt16

def sensor_data_map_axis (axis_map : AxisMap) (data : ℕ → Int16) : ℕ → Int16 :=
  let tmp := mapped axis_map data
  Function.update (Function.update (Function.update data 0 (tmp 0)) 1 (tmp 1)) 2 (tmp 2)

/-- The entries of a configuration: 1, 2, 3 and their opposites. -/
def Entry (c : UInt8) : Prop := c.toInt8.toInt ≠ 0 ∧ -3 ≤ c.toInt8.toInt ∧ c.toInt8.toInt ≤ 3

instance (c : UInt8) : Decidable (Entry c) :=
  inferInstanceAs (Decidable (c.toInt8.toInt ≠ 0 ∧ -3 ≤ c.toInt8.toInt ∧ c.toInt8.toInt ≤ 3))

/-- The place and the sign that an entry names. -/
def place (c : UInt8) : ℕ := c.toInt8.toInt.natAbs-1

def signum (c : UInt8) : ℤ := if c.toInt8.toInt < 0 then -1 else 1

/-- The map has the places and the signs of the configuration, all of them in
range, and mapping gives the samples it names as integers. -/
structure Exact (m : AxisMap) (cfg : ℕ → UInt8) (data : ℕ → Int16) : Prop where
  axis : ∀ i < 3, (m.axis i).toNat = place (cfg i) ∧ place (cfg i) < 3
  sign : ∀ i < 3, (m.sign i).toInt = signum (cfg i) ∧ (signum (cfg i) = 1 ∨ signum (cfg i) = -1)
  value : ∀ i < 3, (sensor_data_map_axis m data i).toInt =
    signum (cfg i)*(data (place (cfg i))).toInt

theorem entry_cases {c : UInt8} (h : Entry c) :
    c = 1 ∨ c = 2 ∨ c = 3 ∨ c = 255 ∨ c = 254 ∨ c = 253 := by
  obtain ⟨h0,hlo,hhi⟩ := h
  have hbyte (k : ℤ) (hk : c.toInt8.toInt = k) : c = (Int8.ofInt k).toUInt8 := by
    rw [← hk, Int8.ofInt_toInt]
    rfl
  rcases (by omega : c.toInt8.toInt = 1 ∨ c.toInt8.toInt = 2 ∨ c.toInt8.toInt = 3 ∨
    c.toInt8.toInt = -1 ∨ c.toInt8.toInt = -2 ∨ c.toInt8.toInt = -3) with h | h | h | h | h | h
  · exact .inl (hbyte 1 h)
  · exact .inr (.inl (hbyte 2 h))
  · exact .inr (.inr (.inl (hbyte 3 h)))
  · exact .inr (.inr (.inr (.inl (hbyte (-1) h))))
  · exact .inr (.inr (.inr (.inr (.inl (hbyte (-2) h)))))
  · exact .inr (.inr (.inr (.inr (.inr (hbyte (-3) h)))))

/-- What the shift and the product make of an entry. -/
theorem entry_taken {c : UInt8} (h : Entry c) :
    (sign_of_int8 c.toInt8).toInt8.toInt = signum c ∧
    ((c.toInt8.toInt32*(sign_of_int8 c.toInt8).toInt8.toInt32-1).toUInt32.toUInt8).toNat =
      place c ∧ place c < 3 ∧ (signum c = 1 ∨ signum c = -1) := by
  rcases entry_cases h with rfl | rfl | rfl | rfl | rfl | rfl <;> decide

theorem init_other {axis_cfg : ℕ → Int8} {i j : ℕ} (m : AxisMap) (h : j ≠ i) :
    (init_axis axis_cfg i m).axis j = m.axis j ∧ (init_axis axis_cfg i m).sign j = m.sign j :=
  ⟨Function.update_of_ne h ..,Function.update_of_ne h ..⟩

theorem init_self (axis_cfg : ℕ → Int8) (i : ℕ) (m : AxisMap) :
    (init_axis axis_cfg i m).sign i = (sign_of_int8 (axis_cfg i)).toInt8 ∧
    (init_axis axis_cfg i m).axis i = ((axis_cfg i).toInt32*
      (sign_of_int8 (axis_cfg i)).toInt8.toInt32-1).toUInt32.toUInt8 := by
  simp [init_axis, set_axis, set_sign]

/-- The map that a configuration gives. -/
theorem init_map (m : AxisMap) (cfg : ℕ → UInt8) (hcfg : ∀ i < 3, Entry (cfg i)) :
    ∀ i < 3, ((sensor_axis_map_init m (some cfg)).sign i).toInt = signum (cfg i) ∧
      ((sensor_axis_map_init m (some cfg)).axis i).toNat = place (cfg i) := by
  have hself (i : ℕ) (hi : i < 3) (m : AxisMap) :
      ((init_axis (fun i => (cfg i).toInt8) i m).sign i).toInt = signum (cfg i) ∧
      ((init_axis (fun i => (cfg i).toInt8) i m).axis i).toNat = place (cfg i) := by
    obtain ⟨hsign,haxis,-,-⟩ := entry_taken (hcfg i hi)
    rw [(init_self _ i m).1, (init_self _ i m).2]
    exact ⟨hsign,haxis⟩
  intro i hi
  rw [sensor_axis_map_init]
  rcases (by omega : i = 0 ∨ i = 1 ∨ i = 2) with rfl | rfl | rfl
  · rw [(init_other _ (by decide)).1, (init_other _ (by decide)).2,
      (init_other _ (by decide)).1, (init_other _ (by decide)).2]
    exact hself 0 hi m
  · rw [(init_other _ (by decide)).1, (init_other _ (by decide)).2]
    exact hself 1 hi _
  · exact hself 2 hi _

theorem data_mapped (m : AxisMap) (data : ℕ → Int16) :
    ∀ i < 3, sensor_data_map_axis m data i = mapped m data i := by
  intro i hi
  rw [sensor_data_map_axis]
  rcases (by omega : i = 0 ∨ i = 1 ∨ i = 2) with rfl | rfl | rfl
  · rw [Function.update_of_ne (by decide), Function.update_of_ne (by decide),
      Function.update_self]
  · rw [Function.update_of_ne (by decide), Function.update_self]
  · rw [Function.update_self]

/-- In 16 bits the opposite of a sample is itself again in one case. -/
theorem product_fits {d : Int16} {c : Int8} (hc : c.toInt = 1 ∨ c.toInt = -1) :
    (d.toInt32*c.toInt32).toInt16.toInt = c.toInt*d.toInt ↔ ¬ (c.toInt = -1 ∧ d = -32768) := by
  have hlo := d.le_toInt
  have hhi := d.toInt_lt
  have hmin : d = -32768 ↔ d.toInt = -32768 := by
    rw [← Int16.toInt_inj]
    rfl
  rw [hmin, Int32.toInt_toInt16, Int32.toInt_mul, Int16.toInt_toInt32, Int8.toInt_toInt32]
  have hkept (z : ℤ) (hz : -2^15 ≤ z) (hz' : z < 2^15) : (z.bmod (2^32)).bmod (2^16) = z := by
    rw [Int.bmod_eq_of_le (n := z) (by omega) (by omega), Int.bmod_eq_of_le (by omega) (by omega)]
  rcases hc with hc | hc
  · rw [hc, Int.mul_one, Int.one_mul, hkept _ hlo hhi]
    simp
  · rw [hc, Int.mul_neg, Int.mul_one, Int.neg_mul, Int.one_mul]
    by_cases hd : d.toInt = -32768
    · rw [hd]
      decide
    · rw [hkept _ (by omega) (by omega)]
      simp [hd]

theorem mapped_exact (m : AxisMap) (cfg : ℕ → UInt8) (data : ℕ → Int16)
    (hcfg : ∀ i < 3, Entry (cfg i)) {i : ℕ} (hi : i < 3) :
    (sensor_data_map_axis (sensor_axis_map_init m (some cfg)) data i).toInt =
        signum (cfg i)*(data (place (cfg i))).toInt ↔
      ¬ (signum (cfg i) = -1 ∧ data (place (cfg i)) = -32768) := by
  obtain ⟨hsign,haxis⟩ := init_map m cfg hcfg i hi
  obtain ⟨-,-,-,hsignum⟩ := entry_taken (hcfg i hi)
  rw [data_mapped _ data i hi, mapped, haxis, ← hsign]
  exact product_fits (hsign ▸ hsignum)

/-- The mapping is exact as long as no sample to be reversed is the least one
of 16 bits. -/
theorem axes_exact_iff (m : AxisMap) (cfg : ℕ → UInt8) (data : ℕ → Int16)
    (hcfg : ∀ i < 3, Entry (cfg i)) : Exact (sensor_axis_map_init m (some cfg)) cfg data ↔
      ∀ i < 3, ¬ (signum (cfg i) = -1 ∧ data (place (cfg i)) = -32768) := by
  constructor
  · intro h i hi
    exact (mapped_exact m cfg data hcfg hi).mp (h.value i hi)
  · intro h
    constructor
    · intro i hi
      exact ⟨(init_map m cfg hcfg i hi).2,(entry_taken (hcfg i hi)).2.2.1⟩
    · intro i hi
      exact ⟨(init_map m cfg hcfg i hi).1,(entry_taken (hcfg i hi)).2.2.2⟩
    · intro i hi
      exact (mapped_exact m cfg data hcfg hi).mpr (h i hi)

def triple {α : Type*} (x y z : α) (i : ℕ) : α := if i = 0 then x else if i = 1 then y else z

def blank : AxisMap := ⟨fun _ => 0,fun _ => 0⟩

/-- The first axis reversed, the least sample on the third. -/
theorem axes_exact_third :
    Exact (sensor_axis_map_init blank (some (triple 255 2 3))) (triple 255 2 3)
      (triple 100 200 (-32768)) :=
  (axes_exact_iff blank _ _ (by decide)).mpr (by decide)

/-- The least sample is its own opposite. -/
theorem least_not_reversed : ¬ ∀ (m : AxisMap) (cfg : ℕ → UInt8) (data : ℕ → Int16),
    (∀ i < 3, Entry (cfg i)) → Exact (sensor_axis_map_init m (some cfg)) cfg data := by
  intro h
  have hvalue := (h blank (triple 255 2 3) (triple (-32768) 0 0) (by decide)).value 0 (by decide)
  revert hvalue
  decide

end BaseDrivers.AxisMapping
