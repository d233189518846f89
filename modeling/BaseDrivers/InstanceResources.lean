import Mathlib.Data.List.Nodup
import BaseDrivers.PollingTimers
import BaseDrivers.SensorMonitor

/-!
# What a failed initialization holds

An instance creates its streams and registers its port, and asks for success
three times: at the clean-up for the port and two of the streams, and in the
code it returns for the last stream. The clean-up gives back what was
created, but closes a port that was not opened yet; where only the last stream
is missing there is no clean-up.
-/

set_option autoImplicit false

namespace BaseDrivers.InstanceResources
open BaseDrivers.DemoCommon BaseDrivers.DemoInstance BaseDrivers.PollingTimers
open BaseDrivers.SensorMonitor
open BaseDrivers.DemoSensor (workingEnv bootCommon)

/-- What was created has been removed and what was registered deregistered,
once each, and nothing was closed before it was opened. -/
structure HoldsNothing (out : List Effect) : Prop where
  streams : ∀ st, .create st ∈ out → out.count (.remove st) = 1
  port : ∀ c, .register_port c ∈ out → out.count .deregister_port = 1
  closed : ∀ before after, out = before++.close_port::after → .open_port ∈ before

/-- The streams in the order of their creation. -/
def streams : List Stream := SensorIdx.all.map .poll++[.irq,.ascp,.timer]

/-- The streams in the order of the clean-up. -/
def cleaned : List Stream := [.irq,.ascp,.timer]++SensorIdx.all.map .poll

theorem mem_cleaned (st : Stream) : st ∈ cleaned := by
  cases st with
  | poll s => exact List.mem_append_right _ (List.mem_map_of_mem s.mem_all)
  | irq => decide
  | ascp => decide
  | timer => decide

def holds (x : Inst) : Stream → Bool
  | .poll s => (x.cfg s).timer_stream
  | .irq => x.istate.irq_stream
  | .ascp => x.istate.ascp_stream
  | .timer => x.istate.timer_stream

section Clean

theorem removeStream_istate (st : Stream) (present : Bool) (x : Inst) :
    (removeStream st present x).istate = x.istate := by
  rw [removeStream]
  split_ifs <;> rfl

theorem removeStream_out (st : Stream) (present : Bool) (x : Inst) :
    (removeStream st present x).out = x.out++(if present then [.remove st] else []) := by
  rw [removeStream]
  split_ifs
  · rfl
  · exact (List.append_nil _).symm

theorem removePoll_out (s : SensorIdx) (x : Inst) : (removePoll s x).out =
    x.out++(if holds x (.poll s) then [.remove (.poll s)] else []) :=
  removeStream_out (.poll s) (x.cfg s).timer_stream x

theorem removePoll_holds {s t : SensorIdx} (h : t ≠ s) (x : Inst) :
    holds (removePoll s x) (.poll t) = holds x (.poll t) := by
  rw [holds, removePoll, cfg_setCfg_of_ne h, Inst.cfg, removeStream_istate]
  rfl

theorem remove_polls_out (ss : List SensorIdx) (hss : ss.Nodup) (x : Inst) :
    (ss.foldl (fun x s => removePoll s x) x).out =
      x.out++((ss.map Stream.poll).filter (holds x)).map .remove := by
  induction ss generalizing x with
  | nil => exact (List.append_nil _).symm
  | cons s ss ih =>
    obtain ⟨hs,hss⟩ := List.nodup_cons.mp hss
    have hrest : (ss.map Stream.poll).filter (holds (removePoll s x)) =
        (ss.map Stream.poll).filter (holds x) := by
      apply List.filter_congr
      intro st hst
      obtain ⟨t,ht,rfl⟩ := List.mem_map.mp hst
      have hts : t ≠ s := by
        rintro rfl
        exact hs ht
      exact removePoll_holds hts x
    rw [List.foldl_cons, ih hss, hrest, removePoll_out, List.map_cons, List.filter_cons]
    split_ifs <;> simp

/-- The clean-up removes every stream there is, and then closes and
deregisters the port in any case. -/
theorem instance_clean_out (x : Inst) : (demo_instance_clean x).out =
    x.out++(cleaned.filter (holds x)).map .remove++[.close_port,.deregister_port] := by
  let x1 := removeStream .timer x.istate.timer_stream
    (removeStream .ascp x.istate.ascp_stream (removeStream .irq x.istate.irq_stream x))
  let x2 : Inst :=
    ⟨{ x.istate with irq_stream := false, ascp_stream := false, timer_stream := false },x1.out⟩
  have hout : x1.out = x.out++([.irq,.ascp,.timer].filter (holds x)).map .remove := by
    simp only [x1, removeStream_out]
    cases hi : x.istate.irq_stream <;> cases ha : x.istate.ascp_stream <;>
      cases ht : x.istate.timer_stream <;> simp [holds, hi, ha, ht]
  have hholds : (SensorIdx.all.map Stream.poll).filter (holds x2) =
      (SensorIdx.all.map Stream.poll).filter (holds x) := by
    apply List.filter_congr
    intro st hst
    obtain ⟨s,-,rfl⟩ := List.mem_map.mp hst
    rfl
  have hclean : (demo_instance_clean x).out =
      (SensorIdx.all.foldl (fun x s => removePoll s x) x2).out++[.close_port]++
        [.deregister_port] := by
    simp only [demo_instance_clean, removeStream_istate]
    rfl
  rw [hclean, remove_polls_out SensorIdx.all (by decide) x2, hholds,
    show x2.out = x1.out from rfl, hout, cleaned, List.filter_append, List.map_append]
  simp

end Clean

section Init
variable (env : Env) (hw_idx : Fin 2) (common : CommonState) (ss_cfgs : SensorIdx → SsCfg)

theorem create_polls_out (ss : List SensorIdx) (x : Inst) :
    (ss.foldl (fun x s => createPoll env s x) x).out =
      x.out++((ss.map Stream.poll).filter env.stream_ok).map .create := by
  induction ss generalizing x with
  | nil => exact (List.append_nil _).symm
  | cons s ss ih =>
    have hs : (createPoll env s x).out =
        x.out++(if env.stream_ok (.poll s) then [.create (.poll s)] else []) := by
      rw [createPoll]
      split_ifs
      · rfl
      · exact (List.append_nil _).symm
    rw [List.foldl_cons, ih, hs, List.map_cons, List.filter_cons]
    split_ifs <;> simp

theorem create_polls_holds (ss : List SensorIdx) (x : Inst) (t : SensorIdx) :
    holds (ss.foldl (fun x s => createPoll env s x) x) (.poll t) =
      (holds x (.poll t) || decide (t ∈ ss) && env.stream_ok (.poll t)) := by
  induction ss generalizing x with
  | nil => simp
  | cons s ss ih =>
    have hs : holds (createPoll env s x) (.poll t) =
        (holds x (.poll t) || decide (t = s) && env.stream_ok (.poll t)) := by
      rw [holds, holds, createPoll]
      by_cases hts : t = s
      · subst hts
        cases hok : env.stream_ok (.poll t) with
        | true => simp [cfg_setCfg]
        | false => simp
      · split_ifs
        · rw [cfg_setCfg_of_ne hts]
          simp [hts, Inst.cfg, Inst.emit]
        · simp [hts]
    rw [List.foldl_cons, ih, hs]
    cases env.stream_ok (.poll t) <;> simp [Bool.or_assoc]

theorem createStream_out (st : Stream) (x : Inst) :
    (createStream env st x).out = x.out++(if env.stream_ok st then [.create st] else []) := by
  rw [createStream]
  split_ifs
  · rfl
  · exact (List.append_nil _).symm

/-- The instance once its streams were asked for. -/
def filled : Inst :=
  let x := createStream env .timer (createStream env .ascp (createStream env .irq
    (SensorIdx.all.foldl (fun x s => createPoll env s x) ⟨initialState hw_idx common ss_cfgs,[]⟩)))
  { x with
    istate.irq_stream := env.stream_ok .irq
    istate.ascp_stream := env.stream_ok .ascp
    istate.timer_stream := env.stream_ok .timer }

theorem filled_out : (filled env hw_idx common ss_cfgs).out =
    (streams.filter env.stream_ok).map .create := by
  simp only [filled, createStream_out, create_polls_out, streams]
  cases hi : env.stream_ok .irq <;> cases ha : env.stream_ok .ascp <;>
    cases ht : env.stream_ok .timer <;> simp [hi, ha, ht]

theorem filled_holds (st : Stream) :
    holds (filled env hw_idx common ss_cfgs) st = env.stream_ok st := by
  cases st with
  | poll s =>
    have hcreated := create_polls_holds env SensorIdx.all ⟨initialState hw_idx common ss_cfgs,[]⟩ s
    rw [decide_eq_true s.mem_all, Bool.true_and] at hcreated
    simp only [filled, holds, Inst.cfg, createStream_istate]
    exact hcreated
  | irq => rfl
  | ascp => rfl
  | timer => rfl

theorem filled_port : (filled env hw_idx common ss_cfgs).istate.com_port = common.com_port := by
  simp only [filled, createStream_istate, create_polls_port]
  rfl

/-- The instance once its port was registered, too. -/
def registered : Inst :=
  let x := filled env hw_idx common ss_cfgs
  if env.port_ok then
    { x.emit (.register_port common.com_port.com_config) with istate.com_port.port_handle := true }
  else x

theorem registered_out : (registered env hw_idx common ss_cfgs).out =
    (streams.filter env.stream_ok).map .create++
      (if env.port_ok then [.register_port common.com_port.com_config] else []) := by
  rw [registered, ← filled_out env hw_idx common ss_cfgs]
  split_ifs
  · rfl
  · exact (List.append_nil _).symm

theorem registered_holds (st : Stream) :
    holds (registered env hw_idx common ss_cfgs) st = env.stream_ok st := by
  rw [registered, ← filled_holds env hw_idx common ss_cfgs]
  split_ifs
  · cases st <;> rfl
  · rfl

/-- The look at the port and two of the streams finds them. -/
def connects : Bool :=
  (common.com_port.port_handle || env.port_ok) && env.stream_ok .ascp && env.stream_ok .irq

theorem creates_eq : creates env common = (connects env common && env.stream_ok .timer) := rfl

theorem instance_init_eq : demo_instance_init env hw_idx common ss_cfgs =
    if connects env common then
      (env.stream_ok .timer,demo_hal_reset_device ((((registered env hw_idx common ss_cfgs).emit
        .open_port).emit (.bus_power false)).emit (.ascp_request common.com_port.com_config)))
    else (false,demo_instance_clean (registered env hw_idx common ss_cfgs)) := by
  let y := registered env hw_idx common ss_cfgs
  have hport : y.istate.com_port.port_handle = (common.com_port.port_handle || env.port_ok) := by
    simp only [y, registered]
    split_ifs with hok
    · simp [hok]
    · simp [hok, filled_port]
  have hirq : y.istate.irq_stream = env.stream_ok .irq := registered_holds env hw_idx _ _ .irq
  have hascp : y.istate.ascp_stream = env.stream_ok .ascp := registered_holds env hw_idx _ _ .ascp
  have hinit : demo_instance_init env hw_idx common ss_cfgs =
      if !y.istate.com_port.port_handle || !y.istate.ascp_stream || !y.istate.irq_stream then
        (false,demo_instance_clean y)
      else (env.stream_ok .timer,demo_hal_reset_device (((y.emit .open_port).emit
        (.bus_power false)).emit (.ascp_request common.com_port.com_config))) := rfl
  rw [hinit, hport, hascp, hirq, ← Bool.not_and, ← Bool.not_and, ← connects]
  cases connects env common <;> rfl

end Init

section Failure
variable (env : Env) (hw_idx : Fin 2) (common : CommonState) (ss_cfgs : SensorIdx → SsCfg)

theorem cleaned_nodup : cleaned.Nodup := by decide

/-- The clean-up gives back each stream and the port once. -/
theorem clean_up_releases (h : connects env common = false) :
    let out := (demo_instance_init env hw_idx common ss_cfgs).2.out
    (∀ st, .create st ∈ out → out.count (.remove st) = 1) ∧ out.count .deregister_port = 1 := by
  have hheld : cleaned.filter (holds (registered env hw_idx common ss_cfgs)) =
      cleaned.filter env.stream_ok :=
    List.filter_congr (fun st _ => registered_holds env hw_idx common ss_cfgs st)
  have hinj : Function.Injective Effect.remove := fun _ _ he => Effect.remove.inj he
  rw [instance_init_eq, h, if_neg Bool.false_ne_true]
  simp only [instance_clean_out, registered_out, hheld]
  constructor
  · intro st hst
    have hok : env.stream_ok st = true := by
      simp only [List.mem_append, List.mem_map, List.mem_filter] at hst
      split_ifs at hst <;> simp_all
    have hmem : Effect.remove st ∈ (cleaned.filter env.stream_ok).map Effect.remove :=
      List.mem_map_of_mem (List.mem_filter.mpr ⟨mem_cleaned st,hok⟩)
    have hone := List.count_eq_one_of_mem ((cleaned_nodup.filter _).map hinj) hmem
    have hcreate : ((streams.filter env.stream_ok).map Effect.create).count (.remove st) = 0 :=
      List.count_eq_zero.mpr (by simp)
    simp only [List.count_append, hone, hcreate]
    split_ifs <;> simp
  · simp only [List.count_append]
    have hcreate : ((streams.filter env.stream_ok).map Effect.create).count .deregister_port = 0 :=
      List.count_eq_zero.mpr (by simp)
    have hremove : ((cleaned.filter env.stream_ok).map Effect.remove).count .deregister_port = 0 :=
      List.count_eq_zero.mpr (by simp)
    rw [hcreate, hremove]
    split_ifs <;> simp

/-- It closes a port that was never opened. -/
theorem clean_up_closes (h : connects env common = false) :
    ¬ HoldsNothing (demo_instance_init env hw_idx common ss_cfgs).2.out := by
  rw [instance_init_eq, h, if_neg Bool.false_ne_true, instance_clean_out, registered_out]
  intro hn
  have hopen := hn.closed _ [.deregister_port] rfl
  split_ifs at hopen <;> simp at hopen

/-- Past the look nothing is given back. -/
theorem connected_out (h : connects env common = true) : ∃ es,
    (demo_instance_init env hw_idx common ss_cfgs).2.out =
      (streams.filter env.stream_ok).map .create++es ∧ ∀ st, .remove st ∉ es := by
  have hreset : ∀ x : Inst, ∃ es, (demo_hal_reset_device x).out = x.out++es ∧
      ∀ st, .remove st ∉ es := by
    intro x
    rw [demo_hal_reset_device]
    split_ifs
    · exact ⟨[.write DEMO_CMD_ADDR [0xAF,0xDE]],rfl,by simp⟩
    · exact ⟨[],(List.append_nil _).symm,fun _ => List.not_mem_nil⟩
  let y := registered env hw_idx common ss_cfgs
  obtain ⟨es,hes,hno⟩ := hreset (((y.emit .open_port).emit (.bus_power false)).emit
    (.ascp_request common.com_port.com_config))
  rw [instance_init_eq, if_pos h]
  refine ⟨(if env.port_ok then [.register_port common.com_port.com_config] else [])++
    [.open_port,.bus_power false,.ascp_request common.com_port.com_config]++es,?_,?_⟩
  · apply hes.trans
    simp [Inst.emit, y, registered_out]
  · intro st
    split_ifs <;> simp [hno]

/-- Where only the last stream is missing, the others are kept. -/
theorem last_stream_missing (h : connects env common = true) :
    ¬ HoldsNothing (demo_instance_init env hw_idx common ss_cfgs).2.out := by
  obtain ⟨es,hes,hno⟩ := connected_out env hw_idx common ss_cfgs h
  have hascp : env.stream_ok .ascp = true := by
    simp only [connects, Bool.and_eq_true] at h
    exact h.1.2
  have hcreated : Effect.create .ascp ∈ (streams.filter env.stream_ok).map Effect.create :=
    List.mem_map_of_mem (List.mem_filter.mpr ⟨by decide,hascp⟩)
  have hzero : (demo_instance_init env hw_idx common ss_cfgs).2.out.count (.remove .ascp) = 0 := by
    rw [hes]
    exact List.count_eq_zero.mpr (by simp [hno])
  intro hn
  have hone := hn.streams .ascp (by rw [hes]; exact List.mem_append_left _ hcreated)
  rw [hzero] at hone
  cases hone

/-- A failed initialization holds nothing only in so far as the
initialization does not fail. -/
theorem failed_init_holds_nothing_iff :
    ((demo_instance_init env hw_idx common ss_cfgs).1 = false →
      HoldsNothing (demo_instance_init env hw_idx common ss_cfgs).2.out) ↔
    creates env common = true := by
  rw [instance_init_ok, creates_eq]
  constructor
  · intro h
    cases hc : connects env common with
    | false =>
      rw [hc] at h
      exact absurd (h rfl) (clean_up_closes env hw_idx common ss_cfgs hc)
    | true =>
      cases ht : env.stream_ok .timer with
      | true => rfl
      | false =>
        rw [hc, ht] at h
        exact absurd (h rfl) (last_stream_missing env hw_idx common ss_cfgs hc)
  · intro hok hfail
    rw [hok] at hfail
    cases hfail

/-- The streams are created, and the port cannot be registered. -/
theorem unopened_port_closed :
    let r := demo_instance_init { workingEnv 0 0 with port_ok := false } chip0 bootCommon
      (fun _ => ⟨false,0,0,false⟩)
    r.1 = false ∧ ¬ HoldsNothing r.2.out := by
  constructor
  · decide
  · intro h
    have hopen := h.closed (((streams.map .create)++cleaned.map .remove)) [.deregister_port]
      (by decide)
    exact absurd hopen (by decide)

end Failure

end BaseDrivers.InstanceResources
