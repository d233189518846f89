import BaseDrivers.InstanceFrame
import BaseDrivers.RequestList

/-!
# The answers to flush requests

The sensor layer answers for the motion and the temperature sensor itself.
For the other two it hands the mask of the sensor to the instance, whose
loop knows the accelerometer only. A ledger keeps the id of every request,
and the events published so far are compared with it.
-/

set_option autoImplicit false

namespace BaseDrivers.FlushAnswers
open BaseDrivers.Execution BaseDrivers.DemoCommon BaseDrivers.DemoInstance BaseDrivers.DemoSensor
open BaseDrivers.InstanceFrame BaseDrivers.RequestList

variable {σ : Type}

structure Flush where
  env : Env
  sensor : SensorIdx
  exist_request : Request
  new_request : Request
  flush : new_request.message_id = .FLUSH_REQ

/-- The world and the ids of the sensors that were asked to flush. -/
structure Ledger (σ : Type) where
  world : World σ
  due : List Suid

def step [RequestStore σ] (l : Ledger σ) (c : Flush) : Ledger σ where
  world := (demo_set_client_request c.env c.sensor (some c.exist_request) (some c.new_request)
    false l.world).2
  due := l.due++[l.world.my_suid c.sensor]

/-- There is an instance with nothing to flush, which knows the id of the
accelerometer. -/
def Idle (l : Ledger σ) : Prop :=
  ∃ i, l.world.inst = some i ∧ i.body.istate.flushing_sensors = 0 ∧
    (i.body.cfg .ACC).suid = suids .ACC l.world.hw_idx

/-- Every request was answered once under its own id and no other event was
published; nothing is being flushed. -/
def Answered (l : Ledger σ) : Prop :=
  ∃ i, l.world.inst = some i ∧ flushed i.body.out = l.due ∧ i.body.istate.flushing_sensors = 0

theorem flushTurn_done (x : Inst) : flushTurn (0,x) = .inr x := if_pos rfl

theorem flushTurn_acc (m : SensorType) (x : Inst) (hm : has m .ACC = true) :
    flushTurn (m,x) = .inl (m &&& ~~~DEMO_ACCEL,x.emit (.flush_event (x.cfg .ACC).suid)) := by
  have h0 : m ≠ 0 := by
    intro h0
    simp [h0] at hm
  rw [flushTurn, if_neg h0, if_pos hm]

theorem flushTurn_other (m : SensorType) (x : Inst) (h0 : m ≠ 0) (hm : has m .ACC = false) :
    flushTurn (m,x) = .inl (0,x) := by
  rw [flushTurn, if_neg h0, if_neg (by simp [hm])]

theorem flush_loop_other (m : SensorType) (x : Inst) (hm : has m .ACC = false) :
    loop flushTurn 2 (m,x) = .inr x := by
  by_cases h0 : m = 0
  · rw [h0, loop_leave 1 (flushTurn_done x)]
  · rw [loop_continue 1 (flushTurn_other m x h0 hm), loop_leave 0 (flushTurn_done x)]

/-- The loop over any mask ends, and answers for the accelerometer only. -/
theorem send_flush_done_eq (flush_sensors : SensorType) (x : Inst) :
    demo_send_flush_done flush_sensors x =
      if has flush_sensors .ACC then x.emit (.flush_event (x.cfg .ACC).suid) else x := by
  rw [demo_send_flush_done]
  cases hm : has flush_sensors .ACC with
  | false =>
    rw [loop_mono (flush_loop_other _ x hm) (by decide)]
    rfl
  | true =>
    rw [loop_continue 2 (flushTurn_acc _ x hm), flush_loop_other _ _ (by simp [DEMO_ACCEL])]
    rfl

theorem flushed_emit (x : Inst) (e : Effect) :
    flushed (x.emit e).out = flushed x.out++flushed [e] := flushed_append _ _

theorem flush_req_flushed (s : SensorIdx) (x : Inst) (hx : x.istate.flushing_sensors = 0) :
    flushed (flush_req (sensorType s) x).out =
        flushed x.out++(if s = .ACC then [(x.cfg .ACC).suid] else []) ∧
      (flush_req (sensorType s) x).istate = x.istate := by
  rw [flush_req, if_neg (by simp [hx])]
  simp only [send_flush_done_eq, has_sensorType, decide_eq_true_eq]
  split_ifs
  · constructor
    · exact flushed_emit _ _
    · rw [← hx]
      rfl
  · constructor
    · exact (List.append_nil _).symm
    · rw [← hx]

/-- The bus is powered around a request to the instance. -/
theorem set_config_flushed (env : Env) (pf_cfg : PfCfg) (ss_cfgs : SensorIdx → SsCfg)
    (s : SensorIdx) (x : Inst) (hx : x.istate.flushing_sensors = 0) :
    flushed (demo_instance_set_client_config env pf_cfg ss_cfgs (.FLUSH_REQ (sensorType s)) x).out =
        flushed x.out++(if s = .ACC then [(x.cfg .ACC).suid] else []) ∧
      (demo_instance_set_client_config env pf_cfg ss_cfgs (.FLUSH_REQ (sensorType s)) x).istate =
        x.istate := by
  obtain ⟨hf,hi⟩ := flush_req_flushed s (x.emit (.bus_power true)) hx
  have hp : ∀ (y : Inst) (on : Bool), flushed (y.emit (.bus_power on)).out = flushed y.out :=
    fun y on => (flushed_emit y _).trans (List.append_nil _)
  rw [hp] at hf
  exact ⟨(hp _ false).trans hf,hi⟩

/-- A ledger over a new instance starts with nothing due. -/
theorem init_answered (env : Env) (common : CommonState) (ss_cfgs : SensorIdx → SsCfg)
    (w : World σ) (store : σ) :
    let l : Ledger σ := ⟨w.setInst ⟨store,(demo_instance_init env w.hw_idx common ss_cfgs).2⟩,[]⟩
    Idle l ∧ Answered l := by
  have h := instance_init_frame env w.hw_idx common ss_cfgs
  exact ⟨⟨_,rfl,h.flushing,h.suid .ACC⟩,⟨_,rfl,silent_flushed (h.mono starts_silent),h.flushing⟩⟩

variable [RequestStore σ]

/-- What one request makes of the instance. -/
theorem step_inst (l : Ledger σ) (c : Flush) (i : Instance σ) (hi : l.world.inst = some i)
    (hx : i.body.istate.flushing_sensors = 0) :
    ∃ j, (step l c).world = l.world.setInst j ∧ j.body.istate = i.body.istate ∧
      flushed j.body.out = flushed i.body.out++
        (if c.sensor = .ACC then [(i.body.cfg .ACC).suid]
         else if c.sensor = .GYR then [] else [l.world.my_suid c.sensor]) := by
  have hs : (step l c).world = demo_handle_flush_request c.env c.sensor i l.world := by
    simp [step, demo_set_client_request, serve_request, c.flush, hi]
  have hconfig := set_config_flushed c.env l.world.common.pf_cfg
    (fun t => (l.world.states t).ss_cfg) c.sensor i.body hx
  rw [hs]
  cases hc : c.sensor with
  | ACC =>
    rw [hc] at hconfig
    exact ⟨_,rfl,hconfig.2,hconfig.1⟩
  | GYR =>
    rw [hc] at hconfig
    exact ⟨_,rfl,hconfig.2,hconfig.1⟩
  | MOTION => exact ⟨_,rfl,rfl,flushed_emit _ _⟩
  | TEMP => exact ⟨_,rfl,rfl,flushed_emit _ _⟩

theorem step_idle (l : Ledger σ) (c : Flush) (hl : Idle l) : Idle (step l c) := by
  obtain ⟨i,hi,hx,hsuid⟩ := hl
  obtain ⟨j,hw,hj,-⟩ := step_inst l c i hi hx
  refine ⟨j,by rw [hw]; rfl,by rw [hj, hx],?_⟩
  rw [Inst.cfg, hj, hw]
  exact hsuid

theorem step_answered (l : Ledger σ) (c : Flush) (hl : Idle l) (ha : Answered l) :
    Answered (step l c) ↔ c.sensor ≠ .GYR := by
  obtain ⟨k,hk,hx,hsuid⟩ := hl
  obtain ⟨i,hi,hf,-⟩ := ha
  obtain rfl : k = i := Option.some.inj (hk.symm.trans hi)
  obtain ⟨j,hw,hj,hjf⟩ := step_inst l c k hi hx
  have hdue : (step l c).due = l.due++[suids c.sensor l.world.hw_idx] := rfl
  have hiff : Answered (step l c) ↔ flushed j.body.out = (step l c).due := by
    rw [Answered, hw]
    constructor
    · rintro ⟨_,h,hf',-⟩
      rw [Option.some.inj h]
      exact hf'
    · intro h
      exact ⟨j,rfl,h,by rw [hj, hx]⟩
  rw [hiff, hdue, hjf, hf, hsuid]
  cases hc : c.sensor <;> simp [World.my_suid]

/-- Every request is answered once, under the id of its sensor, exactly when
no request was addressed to the gyroscope. -/
theorem flush_answered_once (l : Ledger σ) (cs : List Flush) (hl : Idle l) (ha : Answered l) :
    Always step Answered l cs ↔ ∀ c ∈ cs, c.sensor ≠ .GYR := by
  rw [← along_forall step (fun c : Flush => c.sensor ≠ .GYR) l cs]
  exact always_iff_along Idle Answered step_idle step_answered l cs hl ha

def exampleLedger : Ledger (List Request) where
  world := boot0.setInst exampleInstance
  due := []

def exampleFlush (s : SensorIdx) : Flush where
  env := workingEnv 0 0
  sensor := s
  exist_request := ⟨1,suids s chip0,.SENSOR_CONFIG,⟨true,none,some 100⟩⟩
  new_request := ⟨2,suids s chip0,.FLUSH_REQ,⟨true,none,none⟩⟩
  flush := rfl

theorem flush_answered_once_twice :
    Always step Answered exampleLedger [exampleFlush .ACC,exampleFlush .TEMP] :=
  have h := init_answered (workingEnv 0 0) bootCommon (fun _ => ⟨false,0,0,false⟩)
    boot0 ([] : List Request)
  (flush_answered_once exampleLedger [exampleFlush .ACC,exampleFlush .TEMP] h.1 h.2).mpr
    (by decide)

/-- A flush of the gyroscope is not answered. -/
theorem gyr_flush_unanswered : ¬ Always step Answered exampleLedger [exampleFlush .GYR] := by
  intro h
  have hidle : Idle exampleLedger := (init_answered (workingEnv 0 0) bootCommon
    (fun _ => ⟨false,0,0,false⟩) boot0 ([] : List Request)).1
  exact (step_answered _ _ hidle (h 0 (by decide))).mp (h 1 (Nat.le_refl _)) rfl

end BaseDrivers.FlushAnswers
