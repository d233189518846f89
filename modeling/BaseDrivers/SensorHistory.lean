import BaseDrivers.Execution
import BaseDrivers.SensorMoves

/-!
# What a log of the sensor layer tells

The framework notifies the sensors and hands over requests in any order, and
the surroundings answer as they like. The log then opens and closes the
streams and the port in turn and leaves open what the states say, and it
announces a sensor once.
-/

set_option autoImplicit false

namespace BaseDrivers.SensorHistory
open BaseDrivers.Execution BaseDrivers.DemoCommon BaseDrivers.DemoInstance BaseDrivers.DemoSensor
open BaseDrivers.DemoRegistry BaseDrivers.SensorMoves

/-- The calls of the framework. -/
inductive Call (ι : Type) where
  | notify (s : SensorIdx) (a : Arrived ι)
  | request (env : Env) (s : SensorIdx) (exist_request new_request : Option Request) (remove : Bool)

def step {σ ι : Type} [RequestStore σ] (dec : Decoder ι) (w : World σ) : Call ι → World σ
  | .notify s a => (demo_sensor_notify_event dec s a w).1
  | .request env s exist_request new_request remove =>
    (demo_set_client_request env s exist_request new_request remove w).2

/-- The sensor a call is for. -/
def Call.sensor {ι : Type} : Call ι → SensorIdx
  | .notify s _ => s
  | .request _ s _ _ _ => s

/-- The call gets the stream and the port it goes on to use. -/
def Granted {σ ι : Type} [RequestStore σ] (dec : Decoder ι) (w : World σ) : Call ι → Prop
  | .notify s a => StreamGranted s a w ∧ PortGranted dec s a w
  | .request _ _ _ _ _ => True

theorem step_moves {σ ι : Type} [RequestStore σ] {granted : Prop} (dec : Decoder ι) (w : World σ)
    (c : Call ι) (h : granted → Granted dec w c) :
    Moves granted c.sensor (face w) (face (step dec w c)) := by
  cases c with
  | notify s a => exact notify_moves dec s a w h
  | request env s exist_request new_request remove =>
    exact request_moves env s w exist_request new_request remove

/-- What every move keeps holds along every run. -/
theorem faces_keep {σ ι : Type} [RequestStore σ] (dec : Decoder ι) {I : Face → Prop}
    (hstep : ∀ s f g, Move False s f g → I f → I g) (w : World σ) (cs : List (Call ι))
    (hw : I (face w)) : Always (step dec) (fun w => I (face w)) w cs :=
  always_of_step (fun w => I (face w))
    (fun v c hv _ => moves_keep (hstep c.sensor) (step_moves dec v c False.elim) hv) w cs hw
    (along_true _ _ _)

section Resources

/-- What is open. -/
structure Held where
  timer : SensorIdx → Bool
  registry : SensorIdx → Bool
  lookup : SensorIdx → Bool
  port : Bool

/-- What is open after one more note, if the note is in order: what is opened
was closed, and what is used or closed was open. -/
def hold (h : Held) : Note → Option Held
  | .create_timer_stream s =>
    if h.timer s then none else some { h with timer := Function.update h.timer s true }
  | .remove_timer_stream s =>
    if h.timer s then some { h with timer := Function.update h.timer s false } else none
  | .rail_timer s _ _ => if h.timer s then some h else none
  | .create_registry_stream s =>
    if h.registry s then none else some { h with registry := Function.update h.registry s true }
  | .remove_registry_stream s =>
    if h.registry s then some { h with registry := Function.update h.registry s false } else none
  | .registry_read s _ _ => if h.registry s then some h else none
  | .lookup_deinit s =>
    if h.lookup s then some { h with lookup := Function.update h.lookup s false } else none
  | .register_port _ => if h.port then none else some { h with port := true }
  | .open_port => if h.port then some h else none
  | .close_port => if h.port then some h else none
  | .deregister_port => if h.port then some { h with port := false } else none
  | .chip_read _ => if h.port then some h else none
  | _ => some h

/-- Once the sensors have been initialised only the lookups are open. -/
def atBoot : Held := ⟨fun _ => false,fun _ => false,fun _ => true,false⟩

def held (log : List Note) : Option Held := log.foldlM hold atBoot

section Ungranted
variable {σ ι : Type} [RequestStore σ] (dec : Decoder ι) (s : SensorIdx) (a : Arrived ι)
  (w : World σ)

end Ungranted

end Resources

section Announcements
variable (s : SensorIdx)

/-- A note that announces the sensor or has its hardware looked for. -/
def Announces : Note → Prop
  | .available t => t = s
  | .rail_timer t _ action => t = s ∧ action = .INIT
  | _ => False

/-- The detection timer of the sensor was started after its attributes were
published. -/
def Detected (log : List Note) : Prop :=
  ∃ before after c timeout, log = before++.rail_timer s timeout .INIT::after ∧
    .attributes s c ∈ before

/-- The sensor was announced once, after its detection, and not looked for
again. -/
def AnnouncedOnce (log : List Note) : Prop :=
  ∃ before after, log = before++.available s::after ∧ .available s ∉ before ∧
    Detected s before ∧ ∀ n ∈ after, ¬ Announces s n

/-- What holds of a sensor between two moves. -/
structure Announcing (f : Face) : Prop where
  configured : f.configured s = true → ∃ c, .attributes s c ∈ f.log
  pending : f.pending s = .INIT → Received s f ∧ Detected s f.log
  announced : .available s ∈ f.log →
    AnnouncedOnce s f.log ∧ f.present s = true ∧ f.pending s ≠ .INIT ∧ Received s f

variable {s}

theorem Detected.append {log : List Note} (h : Detected s log) (notes : List Note) :
    Detected s (log++notes) := by
  obtain ⟨before,after,c,timeout,rfl,hc⟩ := h
  exact ⟨before,after++notes,c,timeout,by simp,hc⟩

theorem AnnouncedOnce.append {log notes : List Note} (h : AnnouncedOnce s log)
    (hn : ∀ n ∈ notes, ¬ Announces s n) : AnnouncedOnce s (log++notes) := by
  obtain ⟨before,after,rfl,hb,hd,ha⟩ := h
  refine ⟨before,after++notes,by simp,hb,hd,fun n hmem => ?_⟩
  rcases List.mem_append.mp hmem with h | h
  · exact ha n h
  · exact hn n h

theorem plain_announces {n : Note} (hn : Plain n) : ¬ Announces s n := by
  cases n <;> first | exact id | exact absurd hn id

/-- A move that neither announces the sensor nor has it looked for. -/
theorem Announcing.keep {f g : Face} (h : Announcing s f) (notes : List Note)
    (hlog : g.log = f.log++notes) (hn : ∀ n ∈ notes, ¬ Announces s n)
    (hc : g.configured s = true → f.configured s = true ∨ ∃ c, .attributes s c ∈ notes)
    (hp : g.pending s = .INIT → f.pending s = .INIT) (hr : Received s f → Received s g)
    (hs : f.present s = true → g.present s = true) : Announcing s g := by
  constructor
  · intro hcfg
    rw [hlog]
    obtain hold | ⟨c,hmem⟩ := hc hcfg
    · obtain ⟨c,hmem⟩ := h.configured hold
      exact ⟨c,List.mem_append_left _ hmem⟩
    · exact ⟨c,List.mem_append_right _ hmem⟩
  · intro hinit
    obtain ⟨hreceived,hdetected⟩ := h.pending (hp hinit)
    rw [hlog]
    exact ⟨hr hreceived,hdetected.append notes⟩
  · intro hmem
    rw [hlog] at hmem ⊢
    rcases List.mem_append.mp hmem with hold | hnew
    · obtain ⟨hone,hpresent,hno,hreceived⟩ := h.announced hold
      exact ⟨hone.append hn,hs hpresent,fun hinit => hno (hp hinit),hr hreceived⟩
    · exact absurd rfl (hn _ hnew)

/-- A note that says nothing about the announcement. -/
theorem Announcing.noted {f g : Face} (h : Announcing s f) (notes : List Note)
    (hlog : g.log = f.log++notes) (hn : ∀ n ∈ notes, ¬ Announces s n)
    (hc : g.configured = f.configured) (hp : g.pending = f.pending)
    (hr : Received s f → Received s g) (hs : g.present = f.present) : Announcing s g :=
  h.keep notes hlog hn (fun h => .inl (hc ▸ h)) (fun h => hp ▸ h) hr (fun h => hs ▸ h)

theorem arm_announcing {f : Face} (h : Announcing s f) (t : SensorIdx) (timeout : UInt64)
    (action : Pending) (hinit : action = .INIT → f.present t = false ∧ Received t f) :
    Announcing s { f with
      log := f.log++[.rail_timer t timeout action]
      pending := Function.update f.pending t action } := by
  by_cases hnew : t = s ∧ action = .INIT
  · obtain ⟨rfl,rfl⟩ := hnew
    obtain ⟨habsent,hreceived⟩ := hinit rfl
    obtain ⟨c,hc⟩ := h.configured hreceived.1
    constructor
    · intro _
      exact ⟨c,List.mem_append_left _ hc⟩
    · intro _
      exact ⟨hreceived,f.log,[],c,timeout,rfl,hc⟩
    · intro hmem
      rcases List.mem_append.mp hmem with hold | hnew
      · rw [(h.announced hold).2.1] at habsent
        cases habsent
      · cases List.mem_singleton.mp hnew
  · apply h.keep [.rail_timer t timeout action] rfl
    · intro n hn
      rw [List.mem_singleton.mp hn]
      exact hnew
    · exact .inl
    · intro hp
      by_cases ht : s = t
      · subst ht
        exact absurd ⟨rfl,(Function.update_self s action f.pending).symm.trans hp⟩ hnew
      · exact (Function.update_of_ne ht action f.pending).symm.trans hp
    · exact id
    · exact id

theorem announce_announcing {f : Face} (h : Announcing s f) (t : SensorIdx)
    (hp : f.pending t = .INIT) (hs : f.present t = true) : Announcing s { f with
      log := f.log++[.available t], pending := Function.update f.pending t .NONE } := by
  by_cases ht : t = s
  · subst ht
    obtain ⟨hreceived,hdetected⟩ := h.pending hp
    constructor
    · intro hcfg
      obtain ⟨c,hc⟩ := h.configured hcfg
      exact ⟨c,List.mem_append_left _ hc⟩
    · intro hinit
      cases (Function.update_self t Pending.NONE f.pending).symm.trans hinit
    · intro _
      refine ⟨⟨f.log,[],rfl,?_,hdetected,fun _ hn => absurd hn List.not_mem_nil⟩,hs,?_,hreceived⟩
      · intro hmem
        exact (h.announced hmem).2.2.1 hp
      · intro hinit
        cases (Function.update_self t Pending.NONE f.pending).symm.trans hinit
  · apply h.keep [.available t] rfl
    · intro n hn
      rw [List.mem_singleton.mp hn]
      exact ht
    · exact .inl
    · intro hinit
      exact (Function.update_of_ne (Ne.symm ht) Pending.NONE f.pending).symm.trans hinit
    · exact id
    · exact id

theorem announces_one {n : Note} (hn : ¬ Announces s n) : ∀ m ∈ [n], ¬ Announces s m := by
  intro m hm
  rw [List.mem_singleton.mp hm]
  exact hn

theorem announces_nil : ∀ n ∈ ([] : List Note), ¬ Announces s n :=
  fun _ hn => absurd hn List.not_mem_nil

theorem setup_announcing {t : SensorIdx} {f g : Face} (hm : Setup False t f g)
    (h : Announcing s f) : Announcing s g := by
  cases hm with
  | note n hn => exact h.noted [n] rfl (announces_one (plain_announces hn)) rfl rfl id rfl
  | read_registry group accepted _ =>
    exact h.noted [.registry_read t group accepted] rfl (announces_one id) rfl rfl id rfl
  | read_chip addr _ => exact h.noted [.chip_read addr] rfl (announces_one id) rfl rfl id rfl
  | open_registry _ =>
    exact h.noted [.create_registry_stream t] rfl (announces_one id) rfl rfl id rfl
  | close_registry _ =>
    exact h.noted [.remove_registry_stream t] rfl (announces_one id) rfl rfl id rfl
  | close_lookup _ => exact h.noted [.lookup_deinit t] rfl (announces_one id) rfl rfl id rfl
  | open_port c _ =>
    refine h.noted [.register_port c,.open_port] rfl (fun n hn => ?_) rfl rfl id rfl
    rcases List.mem_pair.mp hn with rfl | rfl <;> exact id
  | close_port _ =>
    refine h.noted [.close_port,.deregister_port] rfl (fun n hn => ?_) rfl rfl id rfl
    rcases List.mem_pair.mp hn with rfl | rfl <;> exact id
  | configure c =>
    apply h.keep [.attributes t c] rfl (announces_one id)
    · intro hcfg
      by_cases ht : s = t
      · subst ht
        exact .inr ⟨c,List.mem_singleton_self _⟩
      · exact .inl ((Function.update_of_ne ht true f.configured).symm.trans hcfg)
    · exact id
    · rintro ⟨hc,hp⟩
      refine ⟨?_,hp⟩
      show Function.update f.configured t true s = true
      rw [Function.update_apply]
      split_ifs
      · rfl
      · exact hc
    · exact id
  | receive_platform =>
    exact h.noted [] (List.append_nil _).symm announces_nil rfl rfl
      (fun hr => ⟨hr.1,rfl,hr.2.2⟩) rfl
  | receive_placement =>
    exact h.noted [] (List.append_nil _).symm announces_nil rfl rfl
      (fun hr => ⟨hr.1,hr.2.1,rfl⟩) rfl

theorem move_announcing (t : SensorIdx) (f g : Face) (hm : Move False t f g) (h : Announcing s f) :
    Announcing s g := by
  cases hm with
  | setup hs => exact setup_announcing hs h
  | open_timer _ => exact h.noted [.create_timer_stream t] rfl (announces_one id) rfl rfl id rfl
  | close_timer _ => exact h.noted [.remove_timer_stream t] rfl (announces_one id) rfl rfl id rfl
  | arm timeout action _ hinit => exact arm_announcing h t timeout action hinit
  | disarm =>
    refine h.keep [] (List.append_nil _).symm announces_nil .inl ?_ id id
    intro hinit
    by_cases ht : s = t
    · subst ht
      cases (Function.update_self s Pending.NONE f.pending).symm.trans hinit
    · exact (Function.update_of_ne ht Pending.NONE f.pending).symm.trans hinit
  | probe b habsent =>
    refine h.keep [] (List.append_nil _).symm announces_nil .inl id id ?_
    intro hs
    by_cases ht : s = t
    · subst ht
      rw [habsent] at hs
      cases hs
    · exact (Function.update_of_ne ht b f.present).trans hs
  | announce hp hs => exact announce_announcing h t hp hs

/-- In whatever surroundings and order of calls a sensor is announced at most
once: after its attributes were published, everything the detection waits for
was received and its chip was found by the detection whose timer ran off. It
is not looked for again. -/
theorem sensor_announced_once {σ ι : Type} [RequestStore σ] (dec : Decoder ι) (hw_idx : Fin 2)
    (scale_factor : SensorIdx → ℚ) (cs : List (Call ι)) :
    Always (step dec) (fun w => ∀ s, .available s ∈ w.log →
      AnnouncedOnce s w.log ∧ (w.states s).hw_is_present = true ∧ Received s (face w))
      (boot σ hw_idx scale_factor) cs := by
  let I (f : Face) : Prop := ∀ s, Announcing s f
  have hmove (t : SensorIdx) (f g : Face) (hm : Move False t f g) (h : I f) : I g :=
    fun s => move_announcing t f g hm (h s)
  have hboot : I (face (boot σ hw_idx scale_factor)) := by
    intro s
    constructor
    · intro h
      cases h
    · intro h
      cases h
    · intro h
      cases h
  refine always_mono (fun w h s hmem => ?_) (faces_keep dec hmove _ cs hboot)
  obtain ⟨hone,hpresent,-,hreceived⟩ := (h s).announced hmem
  exact ⟨hone,hpresent,hreceived⟩

/-- Answers that can be decoded and change nothing. -/
def exampleDecoder : Decoder Unit where
  ok _ := true
  parse_phy_sensor_cfg _ c := c
  parse_phy_sensor_pf_cfg _ p := p
  parse_md_cfg _ c := c
  parse_float_arr _ _ buf := buf
  parse_axis_orientation _ m := m
  parse_corr_matrix_3 _ m := m
  version _ := 0

def exampleAnswer (g : Group) : RegistryEvent Unit := ⟨true,true,demo_registry_cfg chip0 g,()⟩

/-- The answers arrive with the ids, and then the timer of the detection. -/
def exampleCalls : List (Call Unit) :=
  [.notify .ACC ⟨workingEnv 0 0,fun _ => some [1],
      [exampleAnswer .REG_CONFIG_ACCEL,exampleAnswer .REG_PLATFORM_CONFIG,
        exampleAnswer .REG_PLATFORM_PLACEMENT],[]⟩,
    .notify .ACC ⟨workingEnv 0 0,fun _ => none,[],[.fired]⟩]

set_option maxRecDepth 8000 in
example : .available .ACC ∈ (run (step exampleDecoder) boot0 exampleCalls).log := by decide

end Announcements

end BaseDrivers.SensorHistory
