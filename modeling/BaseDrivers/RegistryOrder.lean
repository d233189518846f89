import Mathlib.Data.List.Permutation
import BaseDrivers.Execution
import BaseDrivers.SensorMonitor
import BaseDrivers.DemoRegistry

/-!
# The order of the registry answers

The six answers to the accelerometer write disjoint parts of the states, with
one exception: the platform branch picks the dummy byte for its bus from
counts which the spec branch writes. Every other pair commutes, so an order
matters only by which of these two comes first.
-/

set_option autoImplicit false

namespace BaseDrivers.RegistryOrder
open BaseDrivers.Execution BaseDrivers.DemoCommon BaseDrivers.DemoInstance BaseDrivers.DemoSensor
open BaseDrivers.DemoRegistry BaseDrivers.SensorMonitor

variable {σ ι : Type} (dec : Decoder ι)

/-- The contents of the answers, and what each finds outside when it is parsed. -/
structure Contents (ι : Type) where
  env : Group → Env
  items : Group → ι

/-- The answer to the read of a group. -/
def answer (c : Contents ι) (hw_idx : Fin 2) (g : Group) : RegistryEvent ι :=
  ⟨true,true,demo_registry_cfg hw_idx g,c.items g⟩

def deliver (c : Contents ι) (w : World σ) (g : Group) : World σ :=
  demo_sensor_parse_registry dec (c.env g) .ACC w (answer c w.hw_idx g)

/-- The sensor and common states, without the log. -/
def core (w : World σ) : World σ := { w with log := [] }

def configuredBus (c : Contents ι) (w : World σ) : BusType :=
  (dec.parse_phy_sensor_pf_cfg (c.items .REG_PLATFORM_CONFIG) w.common.pf_cfg).bus_type

/-- The count the spec group gives for the configured bus. -/
def specDummy (c : Contents ι) (w : World σ) : UInt8 :=
  let env := c.env .REG_CONFIG_SPEC
  let data := dec.parse_float_arr (c.items .REG_CONFIG_SPEC) "dummy_byte" env.stack
  match configuredBus dec c w with
  | .SNS_BUS_I2C => toUInt8 env (data 0)
  | .SNS_BUS_I3C => toUInt8 env (data 1)
  | .SNS_BUS_SPI => toUInt8 env (data 2)
  | .other _ => 0

/-- An order ends where the order of the reads ends, with the right dummy byte. -/
def Agrees (c : Contents ι) (w : World σ) (order : List Group) : Prop :=
  core (run (deliver dec c) w order) = core (run (deliver dec c) w (groups .ACC)) ∧
    (run (deliver dec c) w order).common.com_port.dummy_byte = specDummy dec c w

def SpecFirst (order : List Group) : Prop :=
  [.REG_CONFIG_SPEC,.REG_PLATFORM_CONFIG].Sublist order

/-- The stored counts already say what the spec group will. -/
def SpecKnown (c : Contents ι) (w : World σ) : Prop :=
  dummyOf w.common (configuredBus dec c w) = specDummy dec c w

section Parts
variable (c : Contents ι)

/-- What an answer makes of the common state. -/
def commonAfter (g : Group) (s : CommonState) : CommonState :=
  let s :=
    match g with
    | .REG_CONFIG_SPEC =>
      let data := dec.parse_float_arr (c.items g) "dummy_byte" (c.env g).stack
      { s with
        i2c_dummy := toUInt8 (c.env g) (data 0)
        i3c_dummy := toUInt8 (c.env g) (data 1)
        spi_dummy := toUInt8 (c.env g) (data 2) }
    | .REG_PLATFORM_CONFIG =>
      let p := dec.parse_phy_sensor_pf_cfg (c.items g) s.pf_cfg
      let s := withPlatform p { s with pf_cfg := p }
      { s with
        com_port.port_handle := s.com_port.port_handle || (c.env g).port_ok
        rail_cfg.rail_vote := .SNS_RAIL_OFF }
    | .REG_PLATFORM_PLACEMENT =>
      { s with
        placement := dec.parse_float_arr (c.items g) "placement" s.placement
        registry_placement_received := true }
    | .REG_PLATFORM_ORIENT =>
      { s with
        axis_map := dec.parse_axis_orientation (c.items g) s.axis_map
        registry_orient_received := true }
    | _ => s
  { s with registry_req_cnt := s.registry_req_cnt-1 }

/-- What an answer makes of the state of the accelerometer. -/
def stateAfter (g : Group) (d : DemoState) : DemoState :=
  match g with
  | .REG_CONFIG_ACCEL =>
    { d with
      ss_cfg := dec.parse_phy_sensor_cfg (c.items g) d.ss_cfg
      registry_ss_cfg_received := true }
  | .REG_PLATFORM_FAC_CAL_ACCEL =>
    withFacCal (dec.version (c.items g)) (dec.parse_float_arr (c.items g) "bias" (c.env g).stack)
      { d with
        fac_cal_scale := dec.parse_float_arr (c.items g) "scale" d.fac_cal_scale
        fac_cal_corr_mat := dec.parse_corr_matrix_3 (c.items g) d.fac_cal_corr_mat }
  | _ => d

def after (w : World σ) (g : Group) : World σ :=
  { w with
    common := commonAfter dec c g w.common
    states := fun t => if t = .ACC then stateAfter dec c g (w.states .ACC) else w.states t }

theorem core_eq {w v : World σ} (hidx : w.hw_idx = v.hw_idx) (hcommon : w.common = v.common)
    (hstates : ∀ t, w.states t = v.states t) (hinst : w.inst = v.inst) : core w = core v := by
  cases w
  cases v
  obtain rfl := hidx
  obtain rfl := hcommon
  obtain rfl := hinst
  obtain rfl := funext hstates
  rfl

theorem deliver_core (w : World σ) (g : Group) (hg : g ∈ groups .ACC)
    (hok : dec.ok (c.items g) = true) : core (deliver dec c w g) = after dec c (core w) g := by
  have hd := dispatch_group w.hw_idx g
  have hv : deliver dec c w g = parsed .ACC (demo_registry_cfg w.hw_idx g)
      (parse_branch dec (c.env g) .ACC (dispatch w.hw_idx (demo_registry_cfg w.hw_idx g))
        (c.items g) w) := rfl
  have hsame : ∀ t, w.states t = if t = .ACC then w.states .ACC else w.states t := by
    intro t
    split_ifs with ht
    · rw [ht]
    · rfl
  show core (deliver dec c w g) = core (after dec c w g)
  rw [hv, hd]
  cases g with
  | REG_CONFIG_SPEC =>
    simp only [Group.branch, parse_branch, parse_spec, if_pos hok]
    exact core_eq rfl rfl hsame rfl
  | REG_PLATFORM_CONFIG =>
    simp only [Group.branch, parse_branch, parse_platform_cfg, if_pos hok]
    let p := dec.parse_phy_sensor_pf_cfg (c.items .REG_PLATFORM_CONFIG) w.common.pf_cfg
    let v : World σ := { w with common := withPlatform p { w.common with pf_cfg := p } }
    have hc := register_common (c.env .REG_PLATFORM_CONFIG) v
    obtain ⟨hs,hi,hx⟩ := register_rest (c.env .REG_PLATFORM_CONFIG) v
    refine core_eq hx ?_ ?_ hi
    · exact congrArg (fun s : CommonState => { s with registry_req_cnt := s.registry_req_cnt-1 }) hc
    · intro t
      exact (congrFun hs t).trans (hsame t)
  | REG_PLATFORM_PLACEMENT =>
    simp only [Group.branch, parse_branch, parse_placement, hok, Bool.true_or]
    exact core_eq rfl rfl hsame rfl
  | REG_PLATFORM_ORIENT =>
    simp only [Group.branch, parse_branch, parse_orient, hok, Bool.true_or]
    exact core_eq rfl rfl hsame rfl
  | REG_CONFIG_ACCEL =>
    simp only [Group.branch, parse_branch, parse_sensor_cfg, if_pos hok]
    refine core_eq rfl rfl ?_ rfl
    intro t
    by_cases ht : t = .ACC
    · simp [ht, parsed, World.note, World.setState, after, stateAfter]
    · simp [ht, parsed, World.note, World.setState, after]
  | REG_PLATFORM_FAC_CAL_ACCEL =>
    simp only [Group.branch, parse_branch, parse_fac_cal, if_pos hok]
    exact core_eq rfl rfl (fun t => rfl) rfl
  | _ => exact absurd hg (by decide)

/-- The states after an order, from those before it. -/
theorem run_core (order : List Group) (horder : ∀ g ∈ order, g ∈ groups .ACC)
    (hok : ∀ g ∈ groups .ACC, dec.ok (c.items g) = true) (w : World σ) :
    core (run (deliver dec c) w order) = run (after dec c) (core w) order := by
  induction order generalizing w with
  | nil => rfl
  | cons g order ih =>
    have hg := horder g List.mem_cons_self
    rw [run, run, ih (fun h hh => horder h (List.mem_cons_of_mem g hh)),
      deliver_core dec c w g hg (hok g hg)]

/-- The two answers of which one reads what the other writes. -/
def dummyGroup (g : Group) : Bool := g == .REG_CONFIG_SPEC || g == .REG_PLATFORM_CONFIG

theorem after_comm (g h : Group) (hg : dummyGroup g = false) (w : World σ) :
    after dec c (after dec c w g) h = after dec c (after dec c w h) g := by
  have hcommon : ∀ s, commonAfter dec c h (commonAfter dec c g s) =
      commonAfter dec c g (commonAfter dec c h s) := by
    intro s
    cases g <;> first | exact absurd hg (by decide) | cases h <;> rfl
  have hstate : ∀ d, stateAfter dec c h (stateAfter dec c g d) =
      stateAfter dec c g (stateAfter dec c h d) := by
    intro d
    cases g <;> cases h <;> rfl
  simp only [after, hcommon, hstate, if_true]
  congr 1
  ext1 t
  split_ifs <;> rfl

theorem run_port (order : List Group) (h : ∀ g ∈ order, dummyGroup g = false) (w : World σ) :
    (run (after dec c) w order).common.com_port = w.common.com_port := by
  induction order generalizing w with
  | nil => rfl
  | cons g order ih =>
    have hg := h g List.mem_cons_self
    rw [run, ih (fun k hk => h k (List.mem_cons_of_mem g hk))]
    cases g <;> first | exact absurd hg (by decide) | rfl

/-- The four answers that are neither. -/
def rest : List Group := (groups .ACC).filter (fun g => !dummyGroup g)

theorem run_split (order : List Group) (h : order.Perm (groups .ACC)) (w : World σ) :
    run (after dec c) w order =
      run (after dec c) (run (after dec c) w (order.filter dummyGroup)) rest := by
  rw [run_partition dummyGroup order (fun a _ b _ ha _ s => after_comm dec c a b ha s)]
  apply run_perm (h.filter _)
  intro a ha b _ s
  have hda := (List.mem_filter.mp ha).2
  exact after_comm dec c a b (by simpa using hda) s

theorem filter_dummy (order : List Group) (h : order.Perm (groups .ACC)) :
    order.filter dummyGroup = [.REG_CONFIG_SPEC,.REG_PLATFORM_CONFIG] ∨
      order.filter dummyGroup = [.REG_PLATFORM_CONFIG,.REG_CONFIG_SPEC] :=
  List.perm_pair.mp (h.filter dummyGroup)

theorem specFirst_iff (order : List Group) (h : order.Perm (groups .ACC)) :
    SpecFirst order ↔ order.filter dummyGroup = [.REG_CONFIG_SPEC,.REG_PLATFORM_CONFIG] := by
  constructor
  · intro hs
    exact ((hs.filter dummyGroup).eq_of_length (h.filter dummyGroup).length_eq.symm).symm
  · intro hf
    rw [SpecFirst, ← hf]
    exact List.filter_sublist

theorem spec_first_dummy (w : World σ) :
    (run (after dec c) w [.REG_CONFIG_SPEC,.REG_PLATFORM_CONFIG]).common.com_port.dummy_byte =
      specDummy dec c w := by
  have hd : (run (after dec c) w [.REG_CONFIG_SPEC,.REG_PLATFORM_CONFIG]).common.com_port.dummy_byte =
      dummyOf (commonAfter dec c .REG_CONFIG_SPEC w.common) (configuredBus dec c w) := rfl
  rw [hd, specDummy]
  cases configuredBus dec c w <;> rfl

/-- The other way round only the dummy byte is different: it is the one stored
before. -/
theorem platform_first (w : World σ) :
    run (after dec c) w [.REG_PLATFORM_CONFIG,.REG_CONFIG_SPEC] =
      { run (after dec c) w [.REG_CONFIG_SPEC,.REG_PLATFORM_CONFIG] with
        common.com_port.dummy_byte := dummyOf w.common (configuredBus dec c w) } := rfl

theorem order_core (order : List Group) (h : order.Perm (groups .ACC))
    (hok : ∀ g ∈ groups .ACC, dec.ok (c.items g) = true) (w : World σ) :
    core (run (deliver dec c) w order) =
      run (after dec c) (run (after dec c) (core w) (order.filter dummyGroup)) rest := by
  rw [run_core dec c order (fun g hg => h.mem_iff.mp hg) hok, run_split dec c order h]

/-- The dummy byte is settled by the two answers alone. -/
theorem order_dummy (order : List Group) (h : order.Perm (groups .ACC))
    (hok : ∀ g ∈ groups .ACC, dec.ok (c.items g) = true) (w : World σ) :
    (run (deliver dec c) w order).common.com_port.dummy_byte =
      (run (after dec c) (core w) (order.filter dummyGroup)).common.com_port.dummy_byte := by
  have hrest : ∀ g ∈ rest, dummyGroup g = false := by decide
  have hc := congrArg (fun v : World σ => v.common.com_port.dummy_byte) (order_core dec c order h hok w)
  rw [run_port dec c rest hrest] at hc
  exact hc

end Parts

/-- Every order of the answers ends in the same states with the dummy byte of
the spec group, exactly when that group comes before the platform
configuration or says nothing new. -/
theorem order_agrees_iff (c : Contents ι) (w : World σ) (order : List Group)
    (horder : order.Perm (groups .ACC)) (hok : ∀ g ∈ groups .ACC, dec.ok (c.items g) = true) :
    Agrees dec c w order ↔ SpecFirst order ∨ SpecKnown dec c w := by
  have hfirst : (run (after dec c) (core w)
      [.REG_CONFIG_SPEC,.REG_PLATFORM_CONFIG]).common.com_port.dummy_byte = specDummy dec c w :=
    spec_first_dummy dec c w
  rw [Agrees, order_core dec c order horder hok, order_core dec c _ (List.Perm.refl _) hok,
    order_dummy dec c order horder hok, specFirst_iff order horder]
  rcases filter_dummy order horder with hf | hf
  · rw [hf]
    exact iff_of_true ⟨rfl,hfirst⟩ (.inl rfl)
  · rw [hf, platform_first]
    constructor
    · rintro ⟨-,hd⟩
      exact .inr hd
    · rintro (hd | hd)
      · exact absurd hd (by decide)
      · refine ⟨?_,hd⟩
        have hk : dummyOf (core w).common (configuredBus dec c (core w)) = specDummy dec c w := hd
        rw [hk, ← hfirst]
        rfl

/-- Answers that say I2C and one dummy byte for every bus. -/
def exampleDecoder : Decoder Unit where
  ok _ := true
  parse_phy_sensor_cfg _ c := c
  parse_phy_sensor_pf_cfg _ p := { p with bus_type := .SNS_BUS_I2C }
  parse_md_cfg _ c := c
  parse_float_arr _ _ buf i := if i < 3 then 1 else buf i
  parse_axis_orientation _ m := m
  parse_corr_matrix_3 _ m := m
  version _ := 0

def exampleContents : Contents Unit := ⟨fun _ => workingEnv 0 0,fun _ => ()⟩

def exampleOrder : List Group :=
  [.REG_PLATFORM_CONFIG,.REG_CONFIG_SPEC,.REG_PLATFORM_PLACEMENT,.REG_PLATFORM_ORIENT,
   .REG_CONFIG_ACCEL,.REG_PLATFORM_FAC_CAL_ACCEL]

theorem order_agrees_reversed :
    Agrees exampleDecoder exampleContents boot0
      [.REG_PLATFORM_FAC_CAL_ACCEL,.REG_CONFIG_SPEC,.REG_CONFIG_ACCEL,.REG_PLATFORM_CONFIG,
       .REG_PLATFORM_ORIENT,.REG_PLATFORM_PLACEMENT] :=
  (order_agrees_iff exampleDecoder exampleContents boot0 _
    (by decide) (fun _ _ => rfl)).mpr (.inl (by rw [SpecFirst]; decide))

/-- The platform configuration comes first and picks the count stored at boot. -/
theorem platform_first_stale :
    ¬ Agrees exampleDecoder exampleContents boot0 exampleOrder := by
  intro h
  have hd := order_dummy exampleDecoder exampleContents exampleOrder (by decide) (fun _ _ => rfl)
    boot0
  have hspec : specDummy exampleDecoder exampleContents boot0 = 1 := by
    show toUInt8 (workingEnv 0 0) 1 = 1
    simp [toUInt8]
  have hstale : (0 : UInt8) = 1 := hd.symm.trans (h.2.trans hspec)
  exact absurd hstale (by decide)

end BaseDrivers.RegistryOrder
