import BaseDrivers.FlushAnswers
import BaseDrivers.InstanceSetup
import BaseDrivers.RailSettling

/-!
# What a call makes of the instance

A client request or a timer event leaves the setup of the instance as it is,
makes an instance with nothing enabled, or has one sensor configured once for
the requests that are held by then.
-/

set_option autoImplicit false

namespace BaseDrivers.CallOutcome
open BaseDrivers.DemoCommon BaseDrivers.DemoInstance BaseDrivers.DemoSensor
open BaseDrivers.RequestList BaseDrivers.SensorMonitor BaseDrivers.RailSettling
open BaseDrivers.PollingTimers BaseDrivers.InstanceSetup

variable {σ : Type} [RequestStore σ]

/-- The setup of the instance, or one with which it can be made. -/
def Before (w : World σ) (u : Setup) : Prop :=
  (∃ i, w.inst = some i ∧ setup i.body = u) ∨ w.inst = none ∧ ∀ s, u.enabled s = false

omit [RequestStore σ] in
theorem before_inst {w : World σ} {i : Instance σ} (h : w.inst = some i) (u : Setup) :
    Before w u ↔ setup i.body = u := by
  simp [Before, h]

/-- No sensor was configured; requests may have come in from `l`. -/
structure Kept (l : List Request) (w v : World σ) : Prop where
  hw_idx : v.hw_idx = w.hw_idx
  pf_cfg : v.common.pf_cfg = w.common.pf_cfg
  held : ∀ r ∈ held v, r ∈ held w ∨ r ∈ l
  before : ∀ u, Before v u → Before w u

/-- The sensor `s` was configured once, when the requests `l` were held. -/
structure Configured (s : SensorIdx) (l : List Request) (w v : World σ) : Prop where
  hw_idx : v.hw_idx = w.hw_idx
  pf_cfg : v.common.pf_cfg = w.common.pf_cfg
  held : (held v).Perm l
  setup : ∃ (i : Instance σ) (u : Setup) (r : Requested), v.inst = some i ∧ Before w u ∧
    setup i.body = u.request r ∧ r.sensor = s ∧ r.pf_cfg = w.common.pf_cfg ∧
    r.chosen = demo_get_sensor_config i.store (suids s w.hw_idx)

section Relations
variable {l : List Request} {u v w : World σ}

/-- The states and the log do not matter. -/
theorem Kept.of_same (hinst : v.inst = w.inst) (hhw : v.hw_idx = w.hw_idx)
    (hpf : v.common.pf_cfg = w.common.pf_cfg) : Kept l w v where
  hw_idx := hhw
  pf_cfg := hpf
  held r hr := by
    rw [RequestList.held, hinst] at hr
    exact .inl hr
  before u hu := by
    rw [Before, hinst] at hu
    exact hu

theorem Kept.trans (huv : Kept [] u v) (hvw : Kept l v w) : Kept l u w where
  hw_idx := hvw.hw_idx.trans huv.hw_idx
  pf_cfg := hvw.pf_cfg.trans huv.pf_cfg
  held r hr := by
    rcases hvw.held r hr with h | h
    · exact .inl ((huv.held r h).resolve_right List.not_mem_nil)
    · exact .inr h
  before x hx := huv.before x (hvw.before x hx)

theorem Kept.configured {s : SensorIdx} (huv : Kept [] u v) (hvw : Configured s l v w) :
    Configured s l u w where
  hw_idx := hvw.hw_idx.trans huv.hw_idx
  pf_cfg := hvw.pf_cfg.trans huv.pf_cfg
  held := hvw.held
  setup := by
    obtain ⟨i,x,r,hi,hx,hu,hs,hpf,hc⟩ := hvw.setup
    rw [huv.pf_cfg] at hpf
    rw [huv.hw_idx] at hc
    exact ⟨i,x,r,hi,huv.before x hx,hu,hs,hpf,hc⟩

/-- Another store and a body with the same setup. -/
theorem Kept.of_body {i j : Instance σ} (hi : w.inst = some i) (hj : v.inst = some j)
    (hu : setup j.body = setup i.body)
    (hl : ∀ r ∈ RequestStore.requests j.store, r ∈ RequestStore.requests i.store ∨ r ∈ l)
    (hhw : v.hw_idx = w.hw_idx) (hpf : v.common.pf_cfg = w.common.pf_cfg) : Kept l w v where
  hw_idx := hhw
  pf_cfg := hpf
  held r hr := by
    rw [RequestList.held, hj] at hr
    rw [RequestList.held, hi]
    exact hl r hr
  before u h := by
    rw [before_inst hj, hu] at h
    exact (before_inst hi u).mpr h

theorem reval_configured (env : Env) (s : SensorIdx) {i j : Instance σ} (hi : w.inst = some i)
    (hj : j.body = i.body) (hl : (RequestStore.requests j.store).Perm l)
    (hinst : v.hw_idx = w.hw_idx ∧ v.common = w.common) :
    Configured s l w (demo_reval_instance_config env s j v) where
  hw_idx := (reval_hw_idx env s j v).trans hinst.1
  pf_cfg := by rw [reval_common, hinst.2]
  held := by simpa only [RequestList.held, reval_requests] using hl
  setup := by
    let r : Requested := ⟨env,v.common.pf_cfg,fun t => (v.states t).ss_cfg,s,
      demo_get_sensor_config j.store (v.my_suid s)⟩
    have hu : setup (request j.body r) = (setup i.body).request r := by
      rw [request_setup, hj]
    have hpf : r.pf_cfg = w.common.pf_cfg := congrArg CommonState.pf_cfg hinst.2
    have hc : r.chosen = demo_get_sensor_config j.store (suids s w.hw_idx) :=
      congrArg (fun n => demo_get_sensor_config j.store (suids s n)) hinst.1
    exact ⟨_,setup i.body,r,reval_requests env s j v,(before_inst hi _).mpr rfl,hu,rfl,hpf,hc⟩

end Relations

section Request
variable (env : Env) (s : SensorIdx)

theorem flush_setup (pf_cfg : PfCfg) (ss_cfgs : SensorIdx → SsCfg) (m : SensorType) (x : Inst) :
    setup (demo_instance_set_client_config env pf_cfg ss_cfgs (.FLUSH_REQ m) x) = setup x := by
  simp only [demo_instance_set_client_config, flush_req, FlushAnswers.send_flush_done_eq]
  split_ifs <;> rfl

theorem handle_flush_kept (l : List Request) {i : Instance σ} {w : World σ} (hi : w.inst = some i) :
    Kept l w (demo_handle_flush_request env s i w) := by
  rw [demo_handle_flush_request]
  split_ifs
  · exact Kept.of_body hi rfl rfl (fun r hr => .inl hr) rfl rfl
  · exact Kept.of_body hi rfl (flush_setup env w.common.pf_cfg (fun t => (w.states t).ss_cfg)
      (sensorType s) i.body) (fun r hr => .inl hr) rfl rfl

/-- The request is a configuration to be applied at once. -/
def applies (r : Request) (w : World σ) : Bool :=
  r.message_id == .SENSOR_CONFIG && w.common.rail_cfg.rail_vote != .SNS_RAIL_OFF &&
    (w.states s).pwrail_pending_state == .NONE

/-- The instance with the new request in the place of the old one. -/
def replaced (exist_request : Option Request) (r : Request) (i : Instance σ) : Instance σ :=
  { i with store := RequestStore.add_client_request (removeRequest exist_request i.store) r }

theorem handle_new_eq (exist_request : Option Request) (r : Request) (i : Instance σ)
    (w : World σ) : demo_handle_new_request env s exist_request r i w =
      if applies s r w then
        (r.message_id == .SENSOR_CONFIG,demo_reval_instance_config env s
          (replaced exist_request r i) (w.setInst (replaced exist_request r i)))
      else (r.message_id == .SENSOR_CONFIG,(w.setInst (replaced exist_request r i)).note
        (.reject_config s (r.message_id == .SENSOR_CONFIG))) := rfl

theorem mem_removeRequest {exist_request : Option Request} {store : σ} {r : Request}
    (h : r ∈ RequestStore.requests (removeRequest exist_request store)) :
    r ∈ RequestStore.requests store := by
  have hmem := (removeRequest_perm exist_request store).mem_iff.mp h
  cases exist_request with
  | none => exact hmem
  | some q => exact List.mem_of_mem_erase hmem

theorem mem_replaced {exist_request : Option Request} {r q : Request} {i : Instance σ}
    (h : q ∈ RequestStore.requests (replaced exist_request r i).store) :
    q ∈ RequestStore.requests i.store ∨ q = r := by
  rcases List.mem_cons.mp ((RequestStore.add_perm _ _).mem_iff.mp h) with hq | hq
  · exact .inr hq
  · exact .inl (mem_removeRequest hq)

theorem mem_addRequest {exist_request : Option Request} {store : σ} {r : Request}
    (h : r ∈ RequestStore.requests (addRequest exist_request store)) :
    r ∈ RequestStore.requests store ∨ r ∈ exist_request.toList := by
  cases exist_request with
  | none => exact .inl h
  | some q =>
    rcases List.mem_cons.mp ((RequestStore.add_perm _ _).mem_iff.mp h) with hq | hq
    · exact .inr (by simp [hq])
    · exact .inl hq

theorem serve_applied (exist_request : Option Request) (r : Request) {i : Instance σ}
    {w : World σ} (hi : w.inst = some i) (h : applies s r w = true) :
    Configured s (r::without exist_request (held w)) w
      (serve_request env s exist_request r i w).2 := by
  have hm : r.message_id = .SENSOR_CONFIG := by
    simp only [applies, Bool.and_eq_true, beq_iff_eq] at h
    exact h.1.1
  have hserve : (serve_request env s exist_request r i w).2 = demo_reval_instance_config env s
      (replaced exist_request r i) (w.setInst (replaced exist_request r i)) := by
    simp [serve_request, hm, handle_new_eq, h]
  rw [hserve, held, hi]
  exact reval_configured env s hi rfl (replace_perm exist_request r i.store) ⟨rfl,rfl⟩

theorem serve_kept (exist_request : Option Request) (r : Request) {i : Instance σ}
    {w : World σ} (hi : w.inst = some i) (h : applies s r w = false) :
    Kept (r::exist_request.toList) w (serve_request env s exist_request r i w).2 := by
  have hnew := handle_new_eq env s exist_request r i w
  rw [h, if_neg Bool.false_ne_true] at hnew
  have hstored : ∀ q ∈ RequestStore.requests (replaced exist_request r i).store,
      q ∈ RequestStore.requests i.store ∨ q ∈ r::exist_request.toList := by
    intro q hq
    exact (mem_replaced hq).imp id (fun hr => List.mem_cons.mpr (.inl hr))
  -- a rejected request stays in the list beside the old one
  have hback : ∀ q ∈ RequestStore.requests (addRequest exist_request
      (replaced exist_request r i).store),
      q ∈ RequestStore.requests i.store ∨ q ∈ r::exist_request.toList := by
    intro q hq
    rcases mem_addRequest hq with hq | hq
    · exact hstored q hq
    · exact .inr (List.mem_cons_of_mem r hq)
  cases hm : r.message_id with
  | FLUSH_REQ =>
    simp only [serve_request, hm]
    split_ifs
    · exact Kept.of_same rfl rfl rfl
    · exact handle_flush_kept env s _ hi
  | CAL_RESET =>
    simp only [serve_request, hm]
    exact Kept.of_same rfl rfl rfl
  | SENSOR_CONFIG =>
    simp only [serve_request, hnew, hm]
    exact Kept.of_body hi rfl rfl hstored rfl rfl
  | _ =>
    simp only [serve_request, hnew, hm]
    exact Kept.of_body hi rfl rfl hback rfl rfl

theorem powered_kept (w : World σ) : Kept [] w (powered env s w) := by
  obtain ⟨hi,hc,hhw⟩ := powered_rest env s w
  exact Kept.of_same hi hhw (by rw [hc])

/-- A new instance holds no requests and has nothing enabled. -/
theorem new_instance_kept (w : World σ) (hi : w.inst = none) :
    Kept [] w (demo_new_instance env s w) ∧ held (demo_new_instance env s w) = [] := by
  have hp := powered_kept env s w
  have hpi : (powered env s w).inst = none := (powered_rest env s w).1.trans hi
  rw [new_instance_eq]
  split_ifs with hc
  · let r := demo_instance_init env (powered env s w).hw_idx (powered env s w).common
      (fun t => ((powered env s w).states t).ss_cfg)
    have hok : r.1 = true := by
      rw [instance_init_ok, (powered_rest env s w).2.1]
      exact hc
    have hunused := instance_init_unused env _ _ _ (show r = (true,r.2) from Prod.ext hok rfl)
    have hempty : held ((powered env s w).setInst ⟨RequestStore.empty,r.2⟩) = [] :=
      RequestStore.requests_empty
    refine ⟨⟨hp.hw_idx,hp.pf_cfg,fun q hq => ?_,fun u hu => .inr ⟨hi,fun t => ?_⟩⟩,hempty⟩
    · rw [hempty] at hq
      exact absurd hq List.not_mem_nil
    · rw [before_inst rfl] at hu
      rw [← hu, show setup r.2 = _ from hunused]
  · exact ⟨hp,by rw [held, hpi]⟩

/-- A new instance has its rail on; its first configuration waits exactly
where a timer is started for it. -/
theorem new_instance_applies (r : Request) (w : World σ) :
    applies s r (demo_new_instance env s w) = true ↔ r.message_id = .SENSOR_CONFIG ∧
      (w.states s).pwrail_pending_state = .NONE ∧ ¬ Starts env s w := by
  have hvote := new_instance_vote env s w
  have hst := new_instance_states env s w s
  simp only [applies, Bool.and_eq_true, beq_iff_eq, bne_iff_ne, hst, and_assoc]
  apply and_congr_right
  intro _
  rw [and_iff_right hvote]
  by_cases h : Starts env s w
  · rw [(powered_starts env s w h).2, if_pos rfl]
    simp [h]
  · rw [(powered_else env s w h).2]
    simp [h]

end Request

section Call

def sensor : Call → SensorIdx
  | .request _ s _ _ _ => s
  | .timer _ s _ => s

/-- The requests a call brings. -/
def brings : Call → List Request
  | .request _ _ exist_request new_request _ => new_request.toList++exist_request.toList
  | .timer _ _ _ => []

/-- The requests that are held when a call configures the instance. -/
def listed : Call → List Request → List Request
  | .request _ _ exist_request _ true, l => without exist_request l
  | .request _ _ exist_request new_request false, l =>
    new_request.toList++without exist_request l
  | .timer _ _ _, l => l

/-- The call configures the instance. -/
def Configures (w : World σ) : Call → Prop
  | .request _ _ exist_request _ true => w.inst.isSome = true ∧ exist_request.isSome = true
  | .request env s _ new_request false =>
    (∃ r, new_request = some r ∧ r.message_id = .SENSOR_CONFIG) ∧
      (w.states s).pwrail_pending_state = .NONE ∧
      (w.inst.isSome = true ∧ w.common.rail_cfg.rail_vote ≠ .SNS_RAIL_OFF ∨
        w.inst.isSome = false ∧ creates env w.common = true ∧ ¬ Starts env s w)
  | .timer _ s events =>
    (w.states s).timer_stream = true ∧ .fired ∈ events ∧ Waits w s ∧ w.inst.isSome = true

/-- A call configures its sensor, or no sensor. -/
structure Outcome (w : World σ) (c : Call) (v : World σ) : Prop where
  kept : ¬ Configures w c → Kept (brings c) w v
  configured : Configures w c → Configured (sensor c) (listed c (held w)) w v

section Outcomes
variable (env : Env) (s : SensorIdx)

theorem outcome_of_kept {w v : World σ} {c : Call} (hno : ¬ Configures w c)
    (h : Kept (brings c) w v) : Outcome w c v := ⟨fun _ => h,fun hc => absurd hc hno⟩

theorem outcome_of_configured {w v : World σ} {c : Call} (hyes : Configures w c)
    (h : Configured (sensor c) (listed c (held w)) w v) : Outcome w c v :=
  ⟨fun hno => absurd hyes hno,fun _ => h⟩

/-- A request is served in the world in which its instance was made. -/
theorem served_outcome {c : Call} (exist_request : Option Request) (r : Request)
    {w u : World σ} (hc : c = .request env s exist_request (some r) false) {i : Instance σ}
    (hwu : Kept [] w u) (hheld : held u = held w) (hi : u.inst = some i)
    (happ : applies s r u = true ↔ Configures w c) :
    Outcome w c (serve_request env s exist_request r i u).2 := by
  subst hc
  cases ha : applies s r u with
  | true =>
    apply outcome_of_configured (happ.mp ha)
    have h := hwu.configured (serve_applied env s exist_request r hi ha)
    rwa [hheld] at h
  | false =>
    apply outcome_of_kept (fun hc => Bool.false_ne_true (ha.symm.trans (happ.mpr hc)))
    exact hwu.trans (serve_kept env s exist_request r hi ha)

theorem add_outcome (exist_request new_request : Option Request) (w : World σ) :
    Outcome w (.request env s exist_request new_request false)
      (demo_set_client_request env s exist_request new_request false w).2 := by
  cases new_request with
  | none =>
    apply outcome_of_kept
    · rintro ⟨⟨r,hr,-⟩,-⟩
      cases hr
    · exact Kept.of_same rfl rfl rfl
  | some r =>
    cases hi : w.inst with
    | some i =>
      have hserve : demo_set_client_request env s exist_request (some r) false w =
          serve_request env s exist_request r i w := by
        simp [demo_set_client_request, hi]
      rw [hserve]
      apply served_outcome env s exist_request r rfl (Kept.of_same rfl rfl rfl) rfl hi
      simp [Configures, applies, hi, and_assoc, and_comm]
    | none =>
      by_cases hflush : r.message_id = .FLUSH_REQ
      · apply outcome_of_kept
        · simp [Configures, hflush]
        · have hrun : (demo_set_client_request env s exist_request (some r) false w).2 = w := by
            simp [demo_set_client_request, hi, hflush]
          rw [hrun]
          exact Kept.of_same rfl rfl rfl
      · obtain ⟨hkept,hheld⟩ := new_instance_kept env s w hi
        have hsome := new_instance_inst env s w
        rw [hi, Option.isSome_none, Bool.or_false] at hsome
        have happ := new_instance_applies env s r w
        have hnone : held w = [] := by rw [held, hi]
        cases hnew : (demo_new_instance env s w).inst with
        | some i =>
          have hserve : demo_set_client_request env s exist_request (some r) false w =
              serve_request env s exist_request r i (demo_new_instance env s w) := by
            simp [demo_set_client_request, hi, hflush, hnew]
          rw [hnew] at hsome
          rw [hserve]
          apply served_outcome env s exist_request r rfl hkept (hheld.trans hnone.symm) hnew
          rw [happ]
          simp [Configures, hi, ← hsome]
        | none =>
          have hrun : (demo_set_client_request env s exist_request (some r) false w).2 =
              demo_new_instance env s w := by
            simp [demo_set_client_request, hi, hflush, hnew]
          rw [hnew] at hsome
          rw [hrun]
          apply outcome_of_kept
          · simp [Configures, hi, ← hsome]
          · exact hkept.trans (Kept.of_same rfl rfl rfl)

theorem remove_outcome (exist_request new_request : Option Request) (w : World σ) :
    Outcome w (.request env s exist_request new_request true)
      (demo_set_client_request env s exist_request new_request true w).2 := by
  have hrun : (demo_set_client_request env s exist_request new_request true w).2 =
    (remove_request env s exist_request w).2 := rfl
  rw [hrun]
  cases hi : w.inst with
  | none =>
    have hsame : (remove_request env s exist_request w).2 = w := by
      simp [remove_request, hi]
    rw [hsame]
    apply outcome_of_kept
    · simp [Configures, hi]
    · exact Kept.of_same rfl rfl rfl
  | some i =>
    cases exist_request with
    | none =>
      have hsame : (remove_request env s none w).2 = w := by
        simp [remove_request]
      rw [hsame]
      apply outcome_of_kept
      · simp [Configures]
      · exact Kept.of_same rfl rfl rfl
    | some r =>
      let j : Instance σ := { i with store := RequestStore.remove_client_request i.store r }
      have hreval : (remove_request env s (some r) w).2 =
          demo_reval_instance_config env s j (w.setInst j) := by
        simp [remove_request, hi, j]
      rw [hreval]
      apply outcome_of_configured
      · simp [Configures, hi]
      · rw [listed, held, hi]
        exact reval_configured env s hi (j := j) rfl (RequestStore.remove_perm i.store r) ⟨rfl,rfl⟩

/-- A batch of events does what the first of them does, up to the log. -/
theorem events_first (events : List TimerEvent) (w : World σ × Bool) :
    ∃ log, (events.foldl (timer_input env s) w).1 =
      { (if .fired ∈ events then (handle_timer env s w.1).1 else w.1) with log := log } := by
  apply batch_handled env s (P := fun v => ∃ log, v =
    { (if .fired ∈ events then (handle_timer env s w.1).1 else w.1) with log := log }) _ events w
  · intro hfired
    rw [if_pos hfired]
    exact ⟨_,rfl⟩
  · intro hnone
    rw [if_neg hnone]
    exact ⟨_,rfl⟩
  · rintro v - ⟨log,hlog⟩
    rw [hlog]
    exact ⟨_,rfl⟩

theorem handle_outcome (events : List TimerEvent) (w : World σ)
    (hstream : (w.states s).timer_stream = true) (hfired : .fired ∈ events) :
    Outcome w (.timer env s events) (handle_timer env s w).1 := by
  have hyes : ∀ i, w.inst = some i → Waits w s → Configures w (.timer env s events) :=
    fun i hi hp => ⟨hstream,hfired,hp,by simp [hi]⟩
  cases hp : (w.states s).pwrail_pending_state with
  | NONE =>
    apply outcome_of_kept
    · simp [Configures, Waits, hp]
    · rw [handle_timer_none env s w hp]
      exact Kept.of_same rfl rfl rfl
  | INIT =>
    apply outcome_of_kept
    · simp [Configures, Waits, hp]
    · rw [handle_timer_init env s w hp]
      obtain ⟨hi,hc,hhw⟩ := (w.note (.timer_handled s)).removeRegistryStream_rest s
      split_ifs
      · exact Kept.of_same hi hhw (congrArg CommonState.pf_cfg hc)
      · exact Kept.of_same rfl rfl rfl
  | SET_CLIENT_REQ =>
    cases hi : w.inst with
    | none =>
      apply outcome_of_kept
      · simp [Configures, hi]
      · rw [handle_timer_without env s w hp hi]
        obtain ⟨hri,hrc,hrh⟩ := start_rest env s (env.convert_ns_to_ticks 1000000000) .DEINIT
          (w.note (.timer_handled s))
        exact Kept.of_same hri hrh (congrArg CommonState.pf_cfg hrc)
    | some i =>
      apply outcome_of_configured (hyes i hi hp)
      rw [handle_timer_config env s w hp i hi, listed, held, hi]
      have h := reval_configured env s hi rfl (.refl _) (v := w.note (.timer_handled s))
        (l := RequestStore.requests i.store) ⟨rfl,rfl⟩
      exact ⟨h.hw_idx,h.pf_cfg,h.held,h.setup⟩
  | DEINIT =>
    apply outcome_of_kept
    · simp [Configures, Waits, hp]
    · rw [handle_timer_deinit env s w hp]
      exact Kept.of_same rfl rfl rfl

/-- What happens to the sensor states and the log afterwards does not count. -/
theorem Outcome.same {w v v' : World σ} {c : Call} (h : Outcome w c v) (hi : v'.inst = v.inst)
    (hhw : v'.hw_idx = v.hw_idx) (hc : v'.common = v.common) : Outcome w c v' := by
  have hheld : held v' = held v := by rw [held, held, hi]
  constructor
  · intro hno
    obtain ⟨h1,h2,h3,h4⟩ := h.kept hno
    refine ⟨hhw.trans h1,(congrArg CommonState.pf_cfg hc).trans h2,?_,?_⟩
    · rw [hheld]
      exact h3
    · intro u hu
      apply h4
      rwa [Before, hi] at hu
  · intro hyes
    obtain ⟨h1,h2,h3,h4⟩ := h.configured hyes
    refine ⟨hhw.trans h1,(congrArg CommonState.pf_cfg hc).trans h2,?_,?_⟩
    · rw [hheld]
      exact h3
    · rw [hi]
      exact h4

theorem timer_outcome (events : List TimerEvent) (w : World σ) :
    Outcome w (.timer env s events) (demo_sensor_process_timer_event env s events w).1 := by
  rcases timer_event_cases env s w events with ⟨hrun,hno⟩ | ⟨hstream,hrun⟩
  · rw [hrun]
    apply outcome_of_kept
    · rintro ⟨hs,he,-⟩
      exact hno ⟨hs,he⟩
    · exact Kept.of_same rfl rfl rfl
  · obtain ⟨log,hlog⟩ := events_first env s events (w,true)
    have hfold : Outcome w (.timer env s events) (events.foldl (timer_input env s) (w,true)).1 := by
      rw [hlog]
      split_ifs with hfired
      · exact (handle_outcome env s events w hstream hfired).same rfl rfl rfl
      · apply outcome_of_kept
        · rintro ⟨-,he,-⟩
          exact hfired he
        · exact Kept.of_same rfl rfl rfl
    rw [hrun]
    simp only
    split_ifs
    · obtain ⟨hi,hc,hhw⟩ := (events.foldl (timer_input env s) (w,true)).1.removeTimerStream_rest s
      exact hfold.same hi hhw hc
    · exact hfold

/-- Every call configures its own sensor once or none at all. -/
theorem step_outcome (w : World σ) (c : Call) : Outcome w c (step w c) := by
  cases c with
  | request env s exist_request new_request remove =>
    cases remove with
    | true => exact remove_outcome env s exist_request new_request w
    | false => exact add_outcome env s exist_request new_request w
  | timer env s events => exact timer_outcome env s events w

end Outcomes

end Call

end BaseDrivers.CallOutcome
