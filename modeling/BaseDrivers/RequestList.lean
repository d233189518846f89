import BaseDrivers.DemoSensor

/-!
# The request list after a client request

A new request is added before it is known to be handled. When it is not, the
caller puts the old request back and leaves the new one in. The list is
compared as a multiset, since its order belongs to the framework.
-/

set_option autoImplicit false

namespace BaseDrivers.RequestList
open BaseDrivers.DemoCommon BaseDrivers.DemoInstance BaseDrivers.DemoSensor

variable {σ : Type} [RequestStore σ]

def held (w : World σ) : List Request :=
  match w.inst with
  | some i => RequestStore.requests i.store
  | none => []

def handled : MsgId → Bool
  | .SENSOR_CONFIG => true
  | .FLUSH_REQ => true
  | .CAL_RESET => true
  | _ => false

def without (exist_request : Option Request) (l : List Request) : List Request :=
  match exist_request with
  | some r => l.erase r
  | none => l

/-- A configuration replaces the old request; a rejected request leaves the
list alone. -/
def Intact (exist_request : Option Request) (new_request : Request) (l : List Request)
    (r : Bool × World σ) : Prop :=
  (new_request.message_id = .SENSOR_CONFIG →
    (held r.2).Perm (new_request::without exist_request l)) ∧
  (handled new_request.message_id = false → r.1 = false → (held r.2).Perm l)

theorem removeRequest_perm (exist_request : Option Request) (store : σ) :
    (RequestStore.requests (removeRequest exist_request store)).Perm
      (without exist_request (RequestStore.requests store)) := by
  cases exist_request with
  | none => exact List.Perm.refl _
  | some r => exact RequestStore.remove_perm store r

theorem replace_perm (exist_request : Option Request) (new_request : Request) (store : σ) :
    (RequestStore.requests
      (RequestStore.add_client_request (removeRequest exist_request store) new_request)).Perm
      (new_request::without exist_request (RequestStore.requests store)) :=
  (RequestStore.add_perm _ _).trans ((removeRequest_perm exist_request store).cons _)

theorem addRequest_length (exist_request : Option Request) (store : σ) :
    (RequestStore.requests (addRequest exist_request store)).length =
      (RequestStore.requests store).length+exist_request.toList.length := by
  cases exist_request with
  | none => rfl
  | some r => exact (RequestStore.add_perm store r).length_eq

theorem without_length (exist_request : Option Request) (l : List Request) :
    l.length ≤ (without exist_request l).length+exist_request.toList.length := by
  cases exist_request with
  | none => simp [without]
  | some r =>
    by_cases hr : r ∈ l
    · have hp := List.length_pos_of_mem hr
      simp only [without, List.length_erase_of_mem hr, Option.toList_some, List.length_singleton]
      omega
    · simp [without, List.erase_of_not_mem hr]

theorem handle_new_inst (env : Env) (s : SensorIdx) (exist_request : Option Request)
    (new_request : Request) (i : Instance σ) (w : World σ) :
    ∃ j, (demo_handle_new_request env s exist_request new_request i w).2.inst = some j ∧
      j.store = RequestStore.add_client_request (removeRequest exist_request i.store)
        new_request := by
  simp only [demo_handle_new_request]
  split_ifs
  · exact ⟨_,reval_inst _ _ _ _,rfl⟩
  · exact ⟨_,rfl,rfl⟩

theorem handle_new_ok (env : Env) (s : SensorIdx) (exist_request : Option Request)
    (new_request : Request) (i : Instance σ) (w : World σ) :
    (demo_handle_new_request env s exist_request new_request i w).1 =
      (new_request.message_id == .SENSOR_CONFIG) := by
  simp only [demo_handle_new_request]
  split_ifs <;> rfl

theorem config_held (env : Env) (s : SensorIdx) (exist_request : Option Request)
    (new_request : Request) (i : Instance σ) (w : World σ)
    (hm : new_request.message_id = .SENSOR_CONFIG) :
    (held (serve_request env s exist_request new_request i w).2).Perm
      (new_request::without exist_request (RequestStore.requests i.store)) := by
  obtain ⟨j,hj,hstore⟩ := handle_new_inst env s exist_request new_request i w
  have hr := handle_new_ok env s exist_request new_request i w
  rw [hm] at hr
  simp only [serve_request, hm, hr, beq_self_eq_true, if_true, held, hj, hstore]
  exact replace_perm exist_request new_request i.store

theorem rejected_eq (env : Env) (s : SensorIdx) (exist_request : Option Request)
    (new_request : Request) (i : Instance σ) (w : World σ)
    (hm : handled new_request.message_id = false) :
    ∃ j, serve_request env s exist_request new_request i w =
        (false,(demo_handle_new_request env s exist_request new_request i w).2.setInst j) ∧
      j.store = addRequest exist_request
        (RequestStore.add_client_request (removeRequest exist_request i.store) new_request) := by
  obtain ⟨j,hj,hstore⟩ := handle_new_inst env s exist_request new_request i w
  have hr := handle_new_ok env s exist_request new_request i w
  refine ⟨{ j with store := addRequest exist_request j.store },?_,by rw [hstore]⟩
  cases hid : new_request.message_id <;> rw [hid] at hm hr <;>
    first | exact absurd hm (by decide) | simp [serve_request, hid, hr, hj]

/-- The old request comes back, but the rejected one stays. -/
theorem rejected_grows (env : Env) (s : SensorIdx) (exist_request : Option Request)
    (new_request : Request) (i : Instance σ) (w : World σ)
    (hm : handled new_request.message_id = false) :
    (serve_request env s exist_request new_request i w).1 = false ∧
      (RequestStore.requests i.store).length <
        (held (serve_request env s exist_request new_request i w).2).length := by
  obtain ⟨j,hs,hstore⟩ := rejected_eq env s exist_request new_request i w hm
  have hl := (replace_perm exist_request new_request i.store).length_eq
  have hw := without_length exist_request (RequestStore.requests i.store)
  rw [hs]
  constructor
  · rfl
  · simp only [held, World.setInst, hstore, addRequest_length, hl, List.length_cons]
    omega

/-- A call on an instance leaves the list as it should exactly when the new
request is one the library handles. -/
theorem intact_iff_handled (env : Env) (s : SensorIdx) (exist_request : Option Request)
    (new_request : Request) (i : Instance σ) (w : World σ) :
    Intact exist_request new_request (RequestStore.requests i.store)
        (demo_set_client_request env s exist_request (some new_request) false (w.setInst i)) ↔
      handled new_request.message_id = true := by
  have hserve : demo_set_client_request env s exist_request (some new_request) false (w.setInst i) =
      serve_request env s exist_request new_request i (w.setInst i) := by
    simp [demo_set_client_request, World.setInst]
  rw [hserve]
  cases hm : handled new_request.message_id with
  | false =>
    obtain ⟨hr,hl⟩ := rejected_grows env s exist_request new_request i (w.setInst i) hm
    simp only [Bool.false_eq_true, iff_false]
    intro h
    have hp := (h.2 hm hr).length_eq
    omega
  | true =>
    simp only [iff_true]
    constructor
    · exact config_held env s exist_request new_request i (w.setInst i)
    · intro h
      rw [hm] at h
      cases h

def exampleInstance : Instance (List Request) :=
  ⟨[],(demo_instance_init (workingEnv 0 0) chip0 bootCommon (fun _ => ⟨false,0,0,false⟩)).2⟩

def exampleTest : Request := ⟨1,suids .ACC chip0,.PHYSICAL_SENSOR_TEST_CONFIG,⟨true,none,none⟩⟩

/-- A self-test request is rejected and stays in the list. -/
theorem rejected_request_stays :
    ¬ Intact none exampleTest []
      (demo_set_client_request (workingEnv 0 0) .ACC none (some exampleTest) false
        (boot0.setInst exampleInstance)) := by
  intro h
  exact absurd (h.2 rfl rfl).length_eq (by decide)

end BaseDrivers.RequestList
