import Mathlib.Data.List.TakeWhile
import Mathlib.Tactic.SplitIfs
import BaseDrivers.DemoRegistry

/-!
# The names of the registry groups

A group name is compared with the table over the bytes the message brings.
Where these have no terminating zero, the comparison ends with the name from
the message, so every beginning of a name in the table is taken for it.
-/

set_option autoImplicit false

namespace BaseDrivers.RegistryNames
open BaseDrivers.DemoCommon BaseDrivers.DemoInstance BaseDrivers.DemoSensor
open BaseDrivers.DemoRegistry

/-- The bytes before the terminating zero, or all of them. -/
def upToNul (buf : List UInt8) : List UInt8 := buf.takeWhile (fun c => c != 0)

theorem upToNul_cons (c : UInt8) (buf : List UInt8) :
    upToNul (c::buf) = if c = 0 then [] else c::upToNul buf := by
  by_cases hc : c = 0 <;> simp [upToNul, hc]

theorem upToNul_whole {buf : List UInt8} (h : 0 ∉ buf) : upToNul buf = buf := by
  rw [upToNul, List.takeWhile_eq_self_iff]
  intro c hc
  rw [bne_iff_ne]
  rintro rfl
  exact h hc

/-- A name is found equal to itself, and to each of its beginnings. -/
theorem strncmp_iff (buf name : List UInt8) (hn : 0 ∉ name) :
    strncmp buf name = true ↔ upToNul buf = name ∨ buf <+: name := by
  induction buf generalizing name with
  | nil => exact iff_of_true rfl (.inr List.nil_prefix)
  | cons c buf ih =>
    rw [upToNul_cons]
    cases name with
    | nil =>
      by_cases hc : c = 0
      · simp [strncmp, hc]
      · simp [strncmp, hc]
    | cons d name =>
      obtain ⟨hd,hn⟩ := not_or.mp (mt List.mem_cons.mpr hn)
      by_cases hc : c = 0
      · simp [strncmp, hc, hd]
      · by_cases hcd : c = d
        · have hd0 : ¬ d = 0 := fun h => hd h.symm
          simp [strncmp, hcd, hd0, ih name hn]
        · simp [strncmp, hc, hcd]

def allGroups : List Group :=
  [.REG_CONFIG_SPEC,.REG_CONFIG_ACCEL,.REG_CONFIG_GYRO,.REG_CONFIG_TEMP,.REG_CONFIG_MD,
    .REG_PLATFORM_CONFIG,.REG_PLATFORM_PLACEMENT,.REG_PLATFORM_ORIENT,.REG_PLATFORM_FAC_CAL_ACCEL,
    .REG_PLATFORM_FAC_CAL_GYRO,.REG_PLATFORM_FAC_CAL_TEMP,.REG_PLATFORM_CONFIG_MD]

theorem mem_allGroups (g : Group) : g ∈ allGroups := by
  cases g <;> decide

theorem cfg_no_nul (hw_idx : Fin 2) (g : Group) : 0 ∉ demo_registry_cfg hw_idx g := by
  have h : ∀ hw_idx, ∀ g ∈ allGroups, 0 ∉ demo_registry_cfg hw_idx g := by
    decide +kernel
  exact h hw_idx g (mem_allGroups g)

/-- No name in the table begins another one. -/
theorem cfg_not_begun (hw_idx : Fin 2) (g g' : Group)
    (h : demo_registry_cfg hw_idx g <+: demo_registry_cfg hw_idx g') : g = g' := by
  have hall : ∀ hw_idx, ∀ g ∈ allGroups, ∀ g' ∈ allGroups,
      demo_registry_cfg hw_idx g <+: demo_registry_cfg hw_idx g' → g = g' := by decide +kernel
  exact hall hw_idx g (mem_allGroups g) g' (mem_allGroups g') h

/-- A parsing branch is entered for a name that compares equal to one of its
own groups. -/
theorem dispatch_enters (hw_idx : Fin 2) (buf : List UInt8)
    (h : dispatch hw_idx buf ≠ .unknown) :
    ∃ g : Group, g.branch = dispatch hw_idx buf ∧
      strncmp buf (demo_registry_cfg hw_idx g) = true := by
  simp only [dispatch, Bool.or_eq_true] at h ⊢
  split_ifs at h ⊢ with hs hp hm hl ho hf hd
  · rcases hs with ((hs | hs) | hs) | hs
    · exact ⟨.REG_CONFIG_ACCEL,rfl,hs⟩
    · exact ⟨.REG_CONFIG_GYRO,rfl,hs⟩
    · exact ⟨.REG_CONFIG_TEMP,rfl,hs⟩
    · exact ⟨.REG_CONFIG_MD,rfl,hs⟩
  · exact ⟨.REG_PLATFORM_CONFIG,rfl,hp⟩
  · exact ⟨.REG_PLATFORM_CONFIG_MD,rfl,hm⟩
  · exact ⟨.REG_PLATFORM_PLACEMENT,rfl,hl⟩
  · exact ⟨.REG_PLATFORM_ORIENT,rfl,ho⟩
  · rcases hf with (hf | hf) | hf
    · exact ⟨.REG_PLATFORM_FAC_CAL_ACCEL,rfl,hf⟩
    · exact ⟨.REG_PLATFORM_FAC_CAL_GYRO,rfl,hf⟩
    · exact ⟨.REG_PLATFORM_FAC_CAL_TEMP,rfl,hf⟩
  · exact ⟨.REG_CONFIG_SPEC,rfl,hd⟩
  · exact (h rfl).elim

/-- The last branch is left for the names that compare equal to none. -/
theorem dispatch_unknown (hw_idx : Fin 2) (buf : List UInt8)
    (h : dispatch hw_idx buf = .unknown) (g : Group) :
    strncmp buf (demo_registry_cfg hw_idx g) ≠ true := by
  simp only [dispatch, Bool.or_eq_true] at h
  split_ifs at h with hs hp hm hl ho hf hd
  simp only [not_or] at hs hf
  cases g with
  | REG_CONFIG_SPEC => exact hd
  | REG_CONFIG_ACCEL => exact hs.1.1.1
  | REG_CONFIG_GYRO => exact hs.1.1.2
  | REG_CONFIG_TEMP => exact hs.1.2
  | REG_CONFIG_MD => exact hs.2
  | REG_PLATFORM_CONFIG => exact hp
  | REG_PLATFORM_PLACEMENT => exact hl
  | REG_PLATFORM_ORIENT => exact ho
  | REG_PLATFORM_FAC_CAL_ACCEL => exact hf.1.1
  | REG_PLATFORM_FAC_CAL_GYRO => exact hf.1.2
  | REG_PLATFORM_FAC_CAL_TEMP => exact hf.2
  | REG_PLATFORM_CONFIG_MD => exact hm

/-- The name is, up to a terminating zero, that of the group. -/
def Names (hw_idx : Fin 2) (buf : List UInt8) (g : Group) : Prop :=
  upToNul buf = demo_registry_cfg hw_idx g

/-- The name begins a name in the table and goes no further. -/
def Begins (hw_idx : Fin 2) (buf : List UInt8) (g : Group) : Prop :=
  buf <+: demo_registry_cfg hw_idx g ∧ buf ≠ demo_registry_cfg hw_idx g

theorem compares_iff (hw_idx : Fin 2) (buf : List UInt8) (g : Group) :
    strncmp buf (demo_registry_cfg hw_idx g) = true ↔
      Names hw_idx buf g ∨ Begins hw_idx buf g := by
  have hn := cfg_no_nul hw_idx g
  rw [strncmp_iff buf _ hn]
  constructor
  · rintro (h | h)
    · exact .inl h
    · by_cases he : buf = demo_registry_cfg hw_idx g
      · left
        rw [Names, upToNul_whole (he ▸ hn)]
        exact he
      · exact .inr ⟨h,he⟩
  · exact fun h => h.imp id And.left

/-- The beginning of a name is no name. -/
theorem begins_unnamed (hw_idx : Fin 2) (buf : List UInt8) (g g' : Group)
    (h : Begins hw_idx buf g) : ¬ Names hw_idx buf g' := by
  intro hg
  have hn : 0 ∉ buf := fun h0 => cfg_no_nul hw_idx g (h.1.subset h0)
  rw [Names, upToNul_whole hn] at hg
  have hsame := cfg_not_begun hw_idx g' g (hg ▸ h.1)
  rw [hsame] at hg
  exact h.2 hg

section Parse
variable {σ ι : Type} (dec : Decoder ι) (env : Env) (s : SensorIdx)

/-- Each branch is entered only for its own groups, and a name of no group
only counts the answer, exactly where the name is not a mere beginning of a
name in the table. -/
theorem registry_names_iff (w : World σ) (group_name : List UInt8) (items : ι) :
    ((dispatch w.hw_idx group_name ≠ .unknown →
        ∃ g : Group, g.branch = dispatch w.hw_idx group_name ∧ Names w.hw_idx group_name g) ∧
      ((∀ g, ¬ Names w.hw_idx group_name g) →
        (demo_sensor_parse_registry dec env s w ⟨true,true,group_name,items⟩).states = w.states ∧
        (demo_sensor_parse_registry dec env s w ⟨true,true,group_name,items⟩).inst = w.inst ∧
        (demo_sensor_parse_registry dec env s w ⟨true,true,group_name,items⟩).common =
          { w.common with registry_req_cnt := w.common.registry_req_cnt-1 })) ↔
    ∀ g, ¬ Begins w.hw_idx group_name g := by
  constructor
  · rintro ⟨hbranch,-⟩ g hg
    have hin : dispatch w.hw_idx group_name ≠ .unknown := fun hu =>
      dispatch_unknown _ _ hu g ((compares_iff _ _ g).mpr (.inr hg))
    obtain ⟨g',-,hg'⟩ := hbranch hin
    exact begins_unnamed _ _ g g' hg hg'
  · intro hnone
    have hbranch : dispatch w.hw_idx group_name ≠ .unknown →
        ∃ g : Group, g.branch = dispatch w.hw_idx group_name ∧ Names w.hw_idx group_name g := by
      intro hin
      obtain ⟨g,hb,hg⟩ := dispatch_enters _ _ hin
      exact ⟨g,hb,((compares_iff _ _ g).mp hg).resolve_right (hnone g)⟩
    refine ⟨hbranch,?_⟩
    intro hno
    have hu : dispatch w.hw_idx group_name = .unknown := by
      by_contra hin
      obtain ⟨g,-,hg⟩ := hbranch hin
      exact hno g hg
    have hparse : demo_sensor_parse_registry dec env s w ⟨true,true,group_name,items⟩ =
        parsed s group_name w := by
      show parsed s group_name (parse_branch dec env s (dispatch w.hw_idx group_name) items w) = _
      rw [hu]
      rfl
    rw [hparse]
    exact ⟨rfl,rfl,rfl⟩

end Parse

/-- The beginning of a name enters the branch of the sensor configurations,
and so does no name at all. -/
theorem registry_names_beginning :
    ¬ (dispatch chip0 (bytes "demo_0.accel") ≠ .unknown →
      ∃ g : Group, g.branch = dispatch chip0 (bytes "demo_0.accel") ∧
        Names chip0 (bytes "demo_0.accel") g) ∧
    ¬ (dispatch chip0 [] ≠ .unknown →
      ∃ g : Group, g.branch = dispatch chip0 [] ∧ Names chip0 [] g) := by
  constructor
  · intro h
    obtain ⟨g,-,hg⟩ := h (by decide)
    exact begins_unnamed chip0 _ .REG_CONFIG_ACCEL g ⟨by decide,by decide⟩ hg
  · intro h
    obtain ⟨g,-,hg⟩ := h (by decide)
    exact begins_unnamed chip0 _ .REG_CONFIG_ACCEL g ⟨by decide,by decide⟩ hg

end BaseDrivers.RegistryNames
