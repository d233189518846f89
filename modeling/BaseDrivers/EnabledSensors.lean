import BaseDrivers.InstanceFrame
import BaseDrivers.RequestList

/-!
# The enabled sensors and their clients

A sensor is enabled by its first configuration request. The re-evaluation of
a removal sets the same bit again, so nothing ever clears it. The enabled
sensors are those with clients exactly as long as no removal takes the last
client of a sensor away. The effects of the instance are those of the last
call.
-/

set_option autoImplicit false

namespace BaseDrivers.EnabledSensors
open BaseDrivers.Execution BaseDrivers.DemoCommon BaseDrivers.DemoInstance BaseDrivers.DemoSensor
open BaseDrivers.InstanceFrame BaseDrivers.RequestList

variable {σ : Type} [RequestStore σ]

/-- A configuration request addressed to the sensor `s`. -/
structure Client (hw_idx : Fin 2) (s : SensorIdx) where
  request : Request
  config : request.message_id = .SENSOR_CONFIG
  addressed : request.suid = suids s hw_idx

inductive Call (hw_idx : Fin 2) where
  | add (env : Env) (s : SensorIdx) (new_request : Client hw_idx s)
  | replace (env : Env) (s : SensorIdx) (exist_request new_request : Client hw_idx s)
  | remove (env : Env) (s : SensorIdx) (exist_request : Client hw_idx s)

namespace Call
variable {hw_idx : Fin 2}

def sensor : Call hw_idx → SensorIdx
  | add _ s _ => s
  | replace _ s _ _ => s
  | remove _ s _ => s

/-- The requests that are held after the call. -/
def list : Call hw_idx → List Request → List Request
  | add _ _ new_request, l => new_request.request::l
  | replace _ _ exist_request new_request, l => new_request.request::l.erase exist_request.request
  | remove _ _ exist_request, l => l.erase exist_request.request

def apply (w : World σ) : Call hw_idx → World σ
  | add env s new_request =>
    (demo_set_client_request env s none (some new_request.request) false w).2
  | replace env s exist_request new_request =>
    (demo_set_client_request env s (some exist_request.request) (some new_request.request) false
      w).2
  | remove env s exist_request =>
    (demo_set_client_request env s (some exist_request.request) none true w).2

end Call

def forget (w : World σ) : World σ :=
  { w with inst := w.inst.map (fun i => { i with body.out := [] }) }

def step {hw_idx : Fin 2} (w : World σ) (c : Call hw_idx) : World σ := c.apply (forget w)

def isClient (hw_idx : Fin 2) (s : SensorIdx) (r : Request) : Bool :=
  r.message_id == .SENSOR_CONFIG && r.suid == suids s hw_idx

def client (w : World σ) (s : SensorIdx) : Bool := (held w).any (isClient w.hw_idx s)

def enabled (w : World σ) : SensorType :=
  (w.inst.map (fun i => i.body.istate.sensor_enabled)).getD 0

def out (w : World σ) : List Effect := (w.inst.map (fun i => i.body.out)).getD []

/-- The enabled sensors, the sensors of the last configuration events and the
sensors configured on the chip are those with a client. -/
structure Follows (w : World σ) : Prop where
  enabled : ∀ s, has (enabled w) s = client w s
  events : configured (out w) =
    (SensorIdx.all.filter (client w)).map (fun s => suids s w.hw_idx)
  acc : Wrote DEMO_ACC_CONF_ADDR (out w) ↔ client w .ACC = true
  gyr : Wrote DEMO_GYR_CONF_ADDR (out w) ↔ client w .GYR = true

/-- The rail is on, no rail timer is pending, and there is an instance with
the sensors' ids. -/
structure Ready (hw_idx : Fin 2) (w : World σ) : Prop where
  index : w.hw_idx = hw_idx
  inst : ∃ i, w.inst = some i ∧ ∀ s, (i.body.cfg s).suid = suids s hw_idx
  rail : w.common.rail_cfg.rail_vote ≠ .SNS_RAIL_OFF
  pending : ∀ s, (w.states s).pwrail_pending_state = .NONE

/-- The call is not a removal of the last client of a sensor. -/
def Keeps {hw_idx : Fin 2} (w : World σ) : Call hw_idx → Prop
  | .remove _ s exist_request =>
    ((held w).erase exist_request.request).any (isClient hw_idx s) = true
  | _ => True

/-- What every call does: the list changes, and the sensor is configured. -/
structure Applied {hw_idx : Fin 2} (w : World σ) (c : Call hw_idx) (w' : World σ) : Prop where
  ready : Ready hw_idx w'
  list : (held w').Perm (c.list (held w))
  inst : ∃ i j x, w.inst = some i ∧ w'.inst = some j ∧
    x.istate.sensor_enabled = i.body.istate.sensor_enabled ∧
    (∀ s, (x.cfg s).suid = suids s hw_idx) ∧ x.out = [] ∧ Reconfigured c.sensor x j.body

theorem reval_applied {hw_idx : Fin 2} (env : Env) (c : Call hw_idx) (w w' : World σ) (i : Instance σ)
    (store : σ) (hr : Ready hw_idx w) (hi : w.inst = some i)
    (hstore : (RequestStore.requests store).Perm (c.list (RequestStore.requests i.store)))
    (hw : w'.hw_idx = w.hw_idx) (hc : w'.common = w.common) (hst : w'.states = w.states) :
    Applied w c (demo_reval_instance_config env c.sensor
      { i with store := store, body.out := [] } w') := by
  obtain ⟨k,hk,hsuid⟩ := hr.inst
  obtain rfl : k = i := Option.some.inj (hk.symm.trans hi)
  have hj := reval_inst env c.sensor { k with store := store, body.out := [] } w'
  have hset : ∀ (d : DemoSsCfg), d.suid = (k.body.cfg c.sensor).suid → ∀ s,
      ((Inst.setCfg c.sensor d { k.body with out := [] }).cfg s).suid = suids s hw_idx := by
    intro d hd s
    by_cases hs : s = c.sensor
    · subst hs
      simpa [Inst.cfg, Inst.setCfg] using hd.trans (hsuid c.sensor)
    · simpa [Inst.cfg, Inst.setCfg, hs] using hsuid s
  let x : Inst := Inst.setCfg c.sensor
    (withRates env (demo_get_sensor_config store (w'.my_suid c.sensor)) (k.body.cfg c.sensor))
    { k.body with out := [] }
  have hx : ∀ s, (x.cfg s).suid = suids s hw_idx := hset _ rfl
  have hrec := set_config_reconfigures env w'.common.pf_cfg (fun t => (w'.states t).ss_cfg) c.sensor x
  refine ⟨⟨?_,⟨_,hj,?_⟩,?_,?_⟩,?_,⟨k,_,x,hi,hj,rfl,hx,rfl,hrec⟩⟩
  · rw [reval_hw_idx, hw, hr.index]
  · exact fun s => (hrec.suid s).trans (hx s)
  · rw [reval_common, hc]
    exact hr.rail
  · intro s
    obtain ⟨rate,hs⟩ := reval_states env c.sensor { k with store := store, body.out := [] } w' s
    rw [hs, hst]
    exact hr.pending s
  · simpa [held, hj, hi] using hstore

theorem step_applied {hw_idx : Fin 2} (w : World σ) (c : Call hw_idx) (hr : Ready hw_idx w) :
    Applied w c (step w c) := by
  obtain ⟨i,hi,hsuid⟩ := hr.inst
  have hpend := hr.pending
  have hrail := hr.rail
  cases c with
  | add env s new_request =>
    let j : Instance σ := { i with
      store := RequestStore.add_client_request i.store new_request.request, body.out := [] }
    have hs : step w (.add env s new_request) =
        demo_reval_instance_config env s j (w.setInst j) := by
      simp [step, Call.apply, forget, hi, demo_set_client_request, serve_request, j,
        new_request.config, demo_handle_new_request, World.setInst, hpend, hrail, removeRequest]
    rw [hs]
    exact reval_applied env (.add env s new_request) w _ i _ hr hi (RequestStore.add_perm _ _)
      rfl rfl rfl
  | replace env s exist_request new_request =>
    let j : Instance σ := { i with
      store := RequestStore.add_client_request
        (RequestStore.remove_client_request i.store exist_request.request) new_request.request
      body.out := [] }
    have hs : step w (.replace env s exist_request new_request) =
        demo_reval_instance_config env s j (w.setInst j) := by
      simp [step, Call.apply, forget, hi, demo_set_client_request, serve_request, j,
        new_request.config, demo_handle_new_request, World.setInst, hpend, hrail, removeRequest]
    rw [hs]
    exact reval_applied env (.replace env s exist_request new_request) w _ i _ hr hi
      (replace_perm (some exist_request.request) _ _) rfl rfl rfl
  | remove env s exist_request =>
    let j : Instance σ := { i with
      store := RequestStore.remove_client_request i.store exist_request.request, body.out := [] }
    have hs : step w (.remove env s exist_request) =
        demo_reval_instance_config env s j (w.setInst j) := by
      simp [step, Call.apply, forget, hi, demo_set_client_request, remove_request, j,
        World.setInst]
    rw [hs]
    exact reval_applied env (.remove env s exist_request) w _ i _ hr hi
      (RequestStore.remove_perm _ _) rfl rfl rfl

theorem isClient_eq {hw_idx : Fin 2} {s : SensorIdx} (r : Client hw_idx s) (t : SensorIdx) :
    isClient hw_idx t r.request = decide (s = t) := by
  rw [isClient, r.config, r.addressed]
  by_cases ht : s = t
  · subst ht
    simp
  · have hne : suids s hw_idx ≠ suids t hw_idx := fun h => ht (suids_injective hw_idx h)
    simp [ht, hne]

theorem erase_any {p : Request → Bool} {r : Request} (hr : p r = false) (l : List Request) :
    (l.erase r).any p = l.any p := by
  induction l with
  | nil => rfl
  | cons a l ih =>
    by_cases ha : a = r
    · subst ha
      simp [hr]
    · simp [ha, ih]

/-- A call does not change whether another sensor has clients. -/
theorem list_other {hw_idx : Fin 2} (c : Call hw_idx) (l : List Request) (t : SensorIdx)
    (ht : c.sensor ≠ t) : (c.list l).any (isClient hw_idx t) = l.any (isClient hw_idx t) := by
  have hr : ∀ r : Client hw_idx c.sensor, isClient hw_idx t r.request = false := by
    intro r
    simp [isClient_eq, ht]
  cases c with
  | add env s new_request => simp [Call.list, hr new_request]
  | replace env s exist_request new_request =>
    simp [Call.list, hr new_request, erase_any (hr exist_request)]
  | remove env s exist_request => simp [Call.list, erase_any (hr exist_request)]

theorem list_own {hw_idx : Fin 2} (c : Call hw_idx) (w : World σ) :
    (c.list (held w)).any (isClient hw_idx c.sensor) = true ↔ Keeps w c := by
  cases c with
  | add env s new_request => simp [Call.list, Call.sensor, Keeps, isClient_eq]
  | replace env s exist_request new_request =>
    simp [Call.list, Call.sensor, Keeps, isClient_eq]
  | remove env s exist_request => rfl

theorem applied_client {hw_idx : Fin 2} {w w' : World σ} {c : Call hw_idx}
    (h : Applied w c w') (t : SensorIdx) :
    client w' t = (c.list (held w)).any (isClient hw_idx t) := by
  rw [client, h.ready.index]
  exact h.list.any_eq

theorem applied_enabled {hw_idx : Fin 2} {w w' : World σ} {c : Call hw_idx}
    (h : Applied w c w') : enabled w' = enabled w ||| sensorType c.sensor := by
  obtain ⟨i,j,x,hi,hj,hx,-,-,hrec⟩ := h.inst
  simp only [enabled, hi, hj, Option.map_some, Option.getD_some]
  rw [hrec.enabled, hx]

/-- The events and the chip follow the mask in any case. -/
theorem applied_follows {hw_idx : Fin 2} {w w' : World σ} {c : Call hw_idx}
    (h : Applied w c w') (he : ∀ s, has (enabled w') s = client w' s) : Follows w' := by
  obtain ⟨i,j,x,hi,hj,hx,hsuid,hout,hrec⟩ := h.inst
  have henabled : x.istate.sensor_enabled ||| sensorType c.sensor = enabled w' := by
    rw [applied_enabled h, enabled, hi, hx]
    rfl
  have hsilent : ∀ a, ¬ Wrote a x.out := by
    intro a
    simp [Wrote, hout]
  have hmask : has (enabled w') = client w' := funext he
  have hjout : out w' = j.body.out := by simp [out, hj]
  have hclients : (fun t => (x.cfg t).suid) = fun t => suids t w'.hw_idx := by
    rw [h.ready.index]
    exact funext hsuid
  refine ⟨he,?_,?_,?_⟩
  · rw [hjout, hrec.events, henabled, hmask, hout, hclients]
    rfl
  · rw [hjout, hrec.acc, henabled, he]
    simp [hsilent]
  · rw [hjout, hrec.gyr, henabled, he]
    simp [hsilent]

theorem step_follows {hw_idx : Fin 2} (w : World σ) (c : Call hw_idx) (hr : Ready hw_idx w)
    (hf : Follows w) : Follows (step w c) ↔ Keeps w c := by
  have h := step_applied w c hr
  have hown := list_own c w
  rw [← applied_client h] at hown
  rw [← hown]
  constructor
  · intro hf'
    rw [← hf'.enabled, applied_enabled h]
    simp
  · intro hk
    apply applied_follows h
    intro t
    rw [applied_enabled h, has_or, hf.enabled, has_sensorType]
    by_cases ht : c.sensor = t
    · subst ht
      simp [hk]
    · rw [applied_client h, list_other c _ t ht, client, hr.index]
      simp [ht]

/-- A new instance without requests follows. -/
theorem init_follows (env : Env) (common : CommonState) (ss_cfgs : SensorIdx → SsCfg)
    (w : World σ) (store : σ) (hstore : RequestStore.requests store = [])
    (hw : w.inst = some ⟨store,(demo_instance_init env w.hw_idx common ss_cfgs).2⟩) :
    Follows w := by
  have h := instance_init_frame env w.hw_idx common ss_cfgs
  have hs := h.mono starts_silent
  have hclient : ∀ s, client w s = false := by
    intro s
    simp [client, held, hw, hstore]
  have hout : out w = (demo_instance_init env w.hw_idx common ss_cfgs).2.out := by simp [out, hw]
  have hwrote : ∀ a, a ≠ DEMO_CMD_ADDR → ¬ Wrote a (out w) := by
    intro a ha
    rw [hout, frame_wrote h (fun b hb => ha hb)]
    simp [Wrote]
  constructor
  · intro s
    rw [hclient, enabled, hw, Option.map_some, Option.getD_some, h.enabled]
    exact has_zero s
  · rw [hout, silent_configured hs]
    simp [hclient, configured]
  · simpa [hclient] using hwrote DEMO_ACC_CONF_ADDR (by decide)
  · simpa [hclient] using hwrote DEMO_GYR_CONF_ADDR (by decide)

/-- After every call of a run the enabled sensors are those with clients,
exactly when no removal takes the last client of its sensor away. -/
theorem enabled_follows_clients {hw_idx : Fin 2} (w : World σ) (cs : List (Call hw_idx))
    (hr : Ready hw_idx w) (hf : Follows w) :
    Always step Follows w cs ↔ Along step Keeps w cs :=
  always_iff_along (Ready hw_idx) Follows (fun v c hv => (step_applied v c hv).ready)
    step_follows w cs hr hf

def exampleWorld : World (List Request) :=
  { boot0.setInst exampleInstance with
    common.rail_cfg.rail_vote := .SNS_RAIL_ON_LPM }

def exampleClient : Client chip0 .ACC :=
  ⟨⟨1,suids .ACC chip0,.SENSOR_CONFIG,⟨true,none,some 100⟩⟩,rfl,rfl⟩

theorem exampleWorld_ready : Ready chip0 exampleWorld :=
  ⟨rfl,⟨exampleInstance,rfl,(instance_init_frame _ _ _ _).suid⟩,by decide,fun _ => rfl⟩

theorem exampleWorld_follows : Follows exampleWorld :=
  init_follows _ _ _ exampleWorld [] rfl rfl

theorem enabled_follows_clients_add :
    Always step Follows exampleWorld [.add (workingEnv 0 0) .ACC exampleClient] :=
  (enabled_follows_clients exampleWorld [.add (workingEnv 0 0) .ACC exampleClient]
    exampleWorld_ready exampleWorld_follows).mpr ⟨trivial,trivial⟩

/-- The only client is removed, and the sensor stays enabled. -/
theorem removed_client_enabled :
    ¬ Always step Follows exampleWorld [.add (workingEnv 0 0) .ACC exampleClient,
      .remove (workingEnv 0 0) .ACC exampleClient] := by
  intro h
  let c : Call chip0 := .add (workingEnv 0 0) .ACC exampleClient
  have hc := step_applied exampleWorld c exampleWorld_ready
  have hk := (step_follows _ (.remove (workingEnv 0 0) .ACC exampleClient) hc.ready
    (h 1 (by decide))).mp (h 2 (Nat.le_refl _))
  have hheld := (hc.list.erase exampleClient.request).any_eq (f := isClient chip0 .ACC)
  simp only [Keeps, hheld] at hk
  exact absurd hk (by decide)

end BaseDrivers.EnabledSensors
