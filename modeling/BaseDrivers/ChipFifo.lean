import Mathlib.Tactic.SplitIfs
import BaseDrivers.FifoInterrupt
import BaseDrivers.FifoMask

/-!
# The FIFO of the chip

The chip sees the writes and reads of the driver in order. A frame is stored
in the layout of the mask the chip has at that time; a flush empties the FIFO,
and a read of the data takes out as many words as the length said, while
frames measured in between stay. A configuration call leaves the FIFO as it
is, or flushes it before the mask is another one.
-/

set_option autoImplicit false

namespace BaseDrivers.ChipFifo
open BaseDrivers.Execution BaseDrivers.DemoCommon BaseDrivers.DemoInstance BaseDrivers.DemoFifo
open BaseDrivers.DemoEvents BaseDrivers.InstanceFrame BaseDrivers.FifoMask BaseDrivers.FifoInterrupt
open BaseDrivers.PollingTimers hiding exampleInst

/-- The high byte of the FIFO configuration, the words stored, and the length
that was read last. -/
structure Chip where
  high : UInt8
  words : List (BitVec 16)
  length : ℕ

def store (f : Frame) (c : Chip) : Chip :=
  { c with words := c.words++frameWords (chipMask c.high) f }

/-- What the chip makes of one access. The frames `late` are measured while
the driver, which knows the length, has not yet read the data. -/
def observe (late : List Frame) (c : Chip) : Effect → Chip
  | .write addr bytes =>
    if addr = DEMO_FIFO_CONF_ADDR then { c with high := bytes.getD 1 0 }
    else if addr = DEMO_FIFO_CTRL_ADDR ∧ bytes.headD 0 &&& 0x01 ≠ 0 then { c with words := [] }
    else c
  | .read addr =>
    if addr = DEMO_FIFO_LENGTH_ADDR then
      late.foldl (fun c f => store f c) { c with length := c.words.length }
    else if addr = DEMO_FIFO_DATA_ADDR then { c with words := c.words.drop c.length }
    else c
  | _ => c

/-- Accesses that are not to the FIFO. -/
def Aside : Effect → Prop
  | .write addr _ => addr ≠ DEMO_FIFO_CONF_ADDR ∧ addr ≠ DEMO_FIFO_CTRL_ADDR
  | .read addr => addr ≠ DEMO_FIFO_LENGTH_ADDR ∧ addr ≠ DEMO_FIFO_DATA_ADDR
  | _ => True

/-- A write that empties the FIFO. -/
def flushes : Effect → Bool
  | .write addr bytes => addr == DEMO_FIFO_CTRL_ADDR && bytes.headD 0 &&& 0x01 != 0
  | _ => false

/-- A read that takes words out of the FIFO. -/
def drains : Effect → Bool
  | .read addr => addr == DEMO_FIFO_DATA_ADDR
  | _ => false

theorem observe_aside {e : Effect} (he : Aside e) (late : List Frame) (c : Chip) :
    observe late c e = c := by
  cases e with
  | write addr bytes =>
    rw [observe, if_neg he.1, if_neg (fun h => he.2 h.1)]
  | read addr => rw [observe, if_neg he.1, if_neg he.2]
  | _ => rfl

theorem flushes_aside {e : Effect} (he : Aside e) : flushes e = false := by
  cases e with
  | write addr bytes => simp [flushes, he.2]
  | _ => rfl

theorem drains_aside {e : Effect} (he : Aside e) : drains e = false := by
  cases e with
  | read addr => simp [drains, he.2]
  | _ => rfl

theorem observes_aside {es : List Effect} (hes : ∀ e ∈ es, Aside e) (late : List Frame)
    (c : Chip) : es.foldl (observe late) c = c ∧ es.any flushes = false ∧
      es.any drains = false := by
  induction es with
  | nil => exact ⟨rfl,rfl,rfl⟩
  | cons e es ih =>
    obtain ⟨hc,hf,hd⟩ := ih (fun e he => hes e (List.mem_cons_of_mem _ he))
    have he := hes e List.mem_cons_self
    rw [List.foldl_cons, List.any_cons, List.any_cons, observe_aside he, flushes_aside he,
      drains_aside he]
    exact ⟨hc,hf,hd⟩

theorem stores_high (fs : List Frame) (c : Chip) :
    (fs.foldl (fun c f => store f c) c).high = c.high := by
  induction fs generalizing c with
  | nil => rfl
  | cons f fs ih => exact ih _

theorem stores_words (fs : List Frame) (c : Chip) :
    (fs.foldl (fun c f => store f c) c).words =
      c.words++fs.flatMap (frameWords (chipMask c.high)) ∧
    (fs.foldl (fun c f => store f c) c).length = c.length := by
  induction fs generalizing c with
  | nil => exact ⟨(List.append_nil _).symm,rfl⟩
  | cons f fs ih =>
    obtain ⟨hw,hl⟩ := ih (store f c)
    refine ⟨?_,hl⟩
    rw [List.foldl_cons, hw, List.flatMap_cons, ← List.append_assoc]
    rfl

/-- The chip has the mask that was written last. -/
theorem observe_high (late : List Frame) (c : Chip) (e : Effect) :
    (observe late c e).high = latch c.high e := by
  cases e with
  | write addr bytes =>
    simp only [observe, latch]
    split_ifs <;> rfl
  | read addr =>
    simp only [observe, latch]
    split_ifs
    · exact stores_high late _
    · rfl
    · rfl
  | _ => rfl

theorem observes_high (late : List Frame) (es : List Effect) (c : Chip) :
    (es.foldl (observe late) c).high = es.foldl latch c.high := by
  induction es generalizing c with
  | nil => rfl
  | cons e es ih => rw [List.foldl_cons, List.foldl_cons, ih, observe_high]

section Config

/-- A property of instances that the parts of a configuration call keep. -/
structure ConfigKeeps (I : Inst → Prop) : Prop where
  emit : ∀ y e, Aside e → I y → I (y.emit e)
  setCfg : ∀ y s c, c.suid = (y.cfg s).suid → I y → I (y.setCfg s c)
  enabled : ∀ (y : Inst) m, I y → I { y with istate.sensor_enabled := m }
  registered : ∀ y : Inst, I y → I { y with istate.irq_info.irq_registered := true }
  flushing : ∀ (y : Inst) m, I y → I { y with istate.flushing_sensors := m }
  fifo : ∀ y, I y → I (demo_config_fifo y)

variable {I : Inst → Prop} (hk : ConfigKeeps I) (env : Env) (pf_cfg : PfCfg) {x : Inst}
include hk

theorem polling_timer_keeps (s : SensorIdx) (h : I x) :
    I (demo_start_sensor_polling_timer env s x) := by
  simp only [demo_start_sensor_polling_timer]
  split_ifs
  · exact hk.setCfg _ _ _ rfl (hk.emit _ _ trivial h)
  · exact hk.setCfg _ _ _ rfl
      (hk.emit _ _ trivial (hk.setCfg _ _ _ rfl (hk.emit _ _ trivial h)))
  · exact h
  · exact hk.setCfg _ _ _ rfl (hk.emit _ _ trivial h)

theorem polling_config_keeps (s : SensorIdx) (h : I x) :
    I (demo_set_sensor_polling_config env s x) := by
  simp only [demo_set_sensor_polling_config]
  split_ifs
  · exact polling_timer_keeps hk env s (hk.setCfg _ _ _ rfl h)
  · exact h
  · exact hk.emit _ _ trivial (hk.setCfg _ _ _ rfl h)
  · exact hk.setCfg _ _ _ rfl h
  · exact h

theorem config_imu_keeps (s : SensorIdx) {addr : UInt8}
    (hw : Aside (.write addr [])) (hr : Aside (.read addr)) (h : I x) :
    I (config_imu env pf_cfg s addr x) := by
  simp only [config_imu]
  split_ifs
  · exact hk.emit _ _ hw (hk.fifo _ (hk.setCfg _ _ _ rfl (hk.emit _ _ hr h)))
  · exact polling_config_keeps hk env s
      (hk.emit _ _ hw (hk.setCfg _ _ _ rfl (hk.emit _ _ hr h)))

theorem config_temp_keeps (h : I x) : I (config_temp env pf_cfg x) := by
  simp only [config_temp]
  split_ifs
  · exact hk.setCfg _ _ _ rfl h
  · exact polling_config_keeps hk env .TEMP (hk.setCfg _ _ _ rfl h)

theorem stage_keeps (t : SensorIdx) (h : I x) : I (stage env pf_cfg t x) := by
  rw [stage]
  split_ifs
  · cases t with
    | ACC => exact config_imu_keeps hk env pf_cfg .ACC ⟨by decide,by decide⟩ ⟨by decide,by decide⟩ h
    | GYR => exact config_imu_keeps hk env pf_cfg .GYR ⟨by decide,by decide⟩ ⟨by decide,by decide⟩ h
    | MOTION => exact h
    | TEMP => exact config_temp_keeps hk env pf_cfg h
  · exact h

theorem register_interrupt_keeps (ss_cfg : SsCfg) (h : I x) :
    I (demo_hal_register_interrupt env ss_cfg x) := by
  simp only [demo_hal_register_interrupt]
  split_ifs
  · exact h
  · exact h
  · exact hk.registered _ (hk.emit _ _ trivial h)
  · exact h

theorem send_config_keeps (h : I x) : I (demo_send_config_event x) := by
  rw [demo_send_config_event]
  generalize SensorIdx.all = ss
  induction ss generalizing x with
  | nil => exact h
  | cons s ss ih =>
    apply ih
    simp only [send_config]
    split_ifs
    · exact hk.emit _ _ trivial h
    · exact h

theorem sensor_config_keeps (ss_cfg : SsCfg) (s : SensorIdx) (h : I x) :
    I (sensor_config env pf_cfg ss_cfg s x) := by
  have hs := send_config_keeps hk (register_interrupt_keeps hk env ss_cfg
    (hk.enabled _ (x.istate.sensor_enabled ||| sensorType s) h))
  rw [sensor_config, config_hw_stages]
  exact stage_keeps hk env pf_cfg .TEMP (stage_keeps hk env pf_cfg .GYR
    (stage_keeps hk env pf_cfg .ACC hs))

theorem flush_req_keeps (flush_sensor : SensorType) (h : I x) : I (flush_req flush_sensor x) := by
  simp only [flush_req, FlushAnswers.send_flush_done_eq]
  split_ifs
  · exact hk.flushing _ _ h
  · exact hk.flushing _ _ (hk.emit _ _ trivial (hk.flushing _ _ h))
  · exact hk.flushing _ _ (hk.flushing _ _ h)

theorem set_config_keeps (ss_cfgs : SensorIdx → SsCfg) (r : ConfigRequest) (h : I x) :
    I (demo_instance_set_client_config env pf_cfg ss_cfgs r x) := by
  have hon := hk.emit x (.bus_power true) trivial h
  apply hk.emit _ (.bus_power false) trivial
  cases r with
  | FLUSH_REQ m => exact flush_req_keeps hk m hon
  | SENSOR_CONFIG s => exact sensor_config_keeps hk env pf_cfg (ss_cfgs s) s hon
  | CAL_RESET => exact hon
  | PHYSICAL_SENSOR_TEST_CONFIG => exact hon
  | other id => exact hon

end Config

/-- What a configuration call has done to the FIFO so far: nothing, or it is
empty. -/
structure Settled (c : Chip) (x y : Inst) : Prop where
  suid : ∀ s, (y.cfg s).suid = (x.cfg s).suid
  out : ∃ es, y.out = x.out++es ∧ es.any drains = false ∧
    ((∀ e ∈ es, Aside e) ∨ es.any flushes = true ∧ (es.foldl (observe []) c).words = [])

theorem settled_refl (c : Chip) (x : Inst) : Settled c x x :=
  ⟨fun _ => rfl,[],(List.append_nil _).symm,rfl,.inl (fun _ he => by cases he)⟩

/-- The mask is taken away, the FIFO flushed, and the new mask set. -/
theorem config_fifo_out (y : Inst) : ∃ wtm conf, (demo_config_fifo y).out = y.out++
    [.write DEMO_FIFO_CONF_ADDR [0x00,0x00],.write DEMO_FIFO_CTRL_ADDR [0x01,0x00],
      .write DEMO_FIFO_WTM_ADDR wtm,.write DEMO_FIFO_CONF_ADDR conf] := by
  have hout (z : Inst) (e f g h : Effect) :
      ((((z.emit e).emit f).emit g).emit h).out = z.out++[e,f,g,h] := by
    simp [Inst.emit]
  simp only [demo_config_fifo]
  split_ifs <;> exact ⟨_,_,hout _ _ _ _ _⟩

theorem config_fifo_empties (c : Chip) (wtm conf : List UInt8) :
    ([Effect.write DEMO_FIFO_CONF_ADDR [0x00,0x00],.write DEMO_FIFO_CTRL_ADDR [0x01,0x00],
      .write DEMO_FIFO_WTM_ADDR wtm,.write DEMO_FIFO_CONF_ADDR conf].foldl (observe []) c).words =
        [] := by
  simp [observe, DEMO_FIFO_CONF_ADDR, DEMO_FIFO_CTRL_ADDR, DEMO_FIFO_WTM_ADDR]

theorem settled_config (c : Chip) (x : Inst) : ConfigKeeps (Settled c x) where
  emit y e he h := by
    obtain ⟨es,ho,hd,hes⟩ := h.out
    refine ⟨h.suid,es++[e],?_,?_,?_⟩
    · rw [Inst.emit, ho, List.append_assoc]
    · rw [List.any_append, hd, List.any_cons, drains_aside he]
      rfl
    · rcases hes with hes | ⟨hf,hw⟩
      · refine .inl (fun e' he' => ?_)
        rcases List.mem_append.mp he' with he' | he'
        · exact hes e' he'
        · exact List.mem_singleton.mp he' ▸ he
      · refine .inr ⟨by rw [List.any_append, hf, Bool.true_or],?_⟩
        rw [List.foldl_append, List.foldl_cons, observe_aside he]
        exact hw
  setCfg y s d hd h := by
    refine ⟨fun t => ?_,h.out⟩
    rw [← h.suid t]
    by_cases ht : t = s
    · subst ht
      simpa [Inst.cfg, Inst.setCfg] using hd
    · simp [Inst.cfg, Inst.setCfg, ht]
  enabled y m h := ⟨h.suid,h.out⟩
  registered y h := ⟨h.suid,h.out⟩
  flushing y m h := ⟨h.suid,h.out⟩
  fifo y h := by
    obtain ⟨es,ho,hd,-⟩ := h.out
    obtain ⟨wtm,conf,hout⟩ := config_fifo_out y
    refine ⟨fun s => ?_,_,by rw [hout, ho, List.append_assoc],?_,.inr ⟨?_,?_⟩⟩
    · rw [← h.suid s]
      exact (config_fifo_frame 0 (.refl _ y)).suid s
    · rw [List.any_append, hd]
      rfl
    · rw [List.any_append]
      exact Bool.or_true _
    · rw [List.foldl_append]
      exact config_fifo_empties _ wtm conf

theorem set_config_settles (env : Env) (pf_cfg : PfCfg) (ss_cfgs : SensorIdx → SsCfg)
    (r : ConfigRequest) (c : Chip) (x : Inst) :
    Settled c x (demo_instance_set_client_config env pf_cfg ss_cfgs r x) :=
  set_config_keeps (settled_config c x) env pf_cfg ss_cfgs r (settled_refl c x)

section Notify
variable (n : Notified) {u v w : Notice} {samples : List Sample}

/-- What the chip answers when the register of a sensor is read. -/
abbrev Answer := SensorIdx × BusRead

/-- The sensor whose measured value a read is of. -/
def measured : Effect → Option SensorIdx
  | .read addr =>
    if addr = DEMO_ACC_X_ADDR then some .ACC
    else if addr = DEMO_GYR_X_ADDR then some .GYR
    else if addr = DEMO_TEMP_ADDR then some .TEMP
    else none
  | _ => none

/-- Reports that bring a client a value. -/
def valued : Report → Bool
  | .irq_cleared => false
  | _ => true

/-- The value in an answer, as it is published. -/
def published (istate : DemoInstanceState) : Answer → Report
  | (.TEMP,data) =>
    let buffer := demo_com_read_wrapper istate.com_port data
    .temperature (istate.ss_cfgs .TEMP).suid
      (if buffer 0 = 0 ∧ buffer 1 = 0x80 then none else some (word (buffer 0) (buffer 1)))
  | (s,data) => .sample (registerSample istate s data)

def answered (s : SensorIdx) : TimerInput → List Answer
  | .SENSOR_EVENT _ data => [(s,data)]
  | _ => []

/-- The answers that the chip has for a notification, in the order in which
they are asked for. -/
def answers : List Answer :=
  [(.ACC,n.acc),(.GYR,n.gyr)]++[(.ACC,n.full)]++
    SensorIdx.all.flatMap fun s => (n.timer s).flatMap (answered s)

/-- A part of a notification that does not touch the FIFO. What it publishes
are the values in the registers it reads. -/
structure Aloof (istate : DemoInstanceState) (as : List Answer) (es : List Effect)
    (rs : List Report) : Prop where
  aside : ∀ e ∈ es, Aside e
  asked : es.filterMap measured = as.map Prod.fst
  values : rs.filter valued = as.map (published istate)

variable {istate : DemoInstanceState} {as bs : List Answer}

theorem Aloof.append {es es' : List Effect} {rs rs' : List Report} (h : Aloof istate as es rs)
    (h' : Aloof istate bs es' rs') : Aloof istate (as++bs) (es++es') (rs++rs') where
  aside e he := (List.mem_append.mp he).elim (h.aside e) (h'.aside e)
  asked := by rw [List.filterMap_append, List.map_append, h.asked, h'.asked]
  values := by rw [List.filter_append, List.map_append, h.values, h'.values]

theorem aloof_nil : Aloof istate [] [] [] where
  aside e he := by cases he
  asked := rfl
  values := rfl

theorem aloof_one {e : Effect} {rs : List Report} (he : Aside e)
    (ha : [e].filterMap measured = as.map Prod.fst)
    (hv : rs.filter valued = as.map (published istate)) : Aloof istate as [e] rs :=
  ⟨fun _ hm => List.mem_singleton.mp hm ▸ he,ha,hv⟩

theorem Aloof.when {es : List Effect} {rs : List Report} (c : Prop) [Decidable c]
    (h : Aloof istate as es rs) :
    Aloof istate (if c then as else []) (if c then es else []) (if c then rs else []) := by
  split_ifs
  · exact h
  · exact aloof_nil

/-- A part that does not touch the FIFO, with answers among the given ones. -/
def Unread (as : List Answer) (v w : Notice) : Prop :=
  ∃ as' es rs, as'.Sublist as ∧ Adds es rs v w ∧ Aloof v.inst.istate as' es rs

/-- A part in which the FIFO is read once and its samples are published. -/
def Taken (as : List Answer) (samples : List Sample) (v w : Notice) : Prop :=
  ∃ as₁ as₂ es es' rs rs', (as₁++as₂).Sublist as ∧
    Adds (es++[.read DEMO_FIFO_LENGTH_ADDR,.read DEMO_FIFO_DATA_ADDR]++es')
      (rs++samples.map .sample++rs') v w ∧
    Aloof v.inst.istate as₁ es rs ∧ Aloof v.inst.istate as₂ es' rs'

theorem unread_refl (as : List Answer) (v : Notice) : Unread as v v :=
  ⟨[],[],[],List.nil_sublist as,.refl v,aloof_nil⟩

theorem Unread.trans (huv : Unread as u v) (hvw : Unread bs v w) : Unread (as++bs) u w := by
  obtain ⟨as',es,rs,hsub,ha,hes⟩ := huv
  obtain ⟨bs',es',rs',hsub',ha',hes'⟩ := hvw
  rw [ha.istate] at hes'
  exact ⟨as'++bs',es++es',rs++rs',hsub.append hsub',ha.trans ha',hes.append hes'⟩

theorem Unread.taken (huv : Unread as u v) (hvw : Taken bs samples v w) :
    Taken (as++bs) samples u w := by
  obtain ⟨as',es,rs,hsub,ha,hes⟩ := huv
  obtain ⟨bs₁,bs₂,es₁,es₂,rs₁,rs₂,hsub',ha',hes₁,hes₂⟩ := hvw
  rw [ha.istate] at hes₁ hes₂
  refine ⟨as'++bs₁,bs₂,es++es₁,es₂,rs++rs₁,rs₂,?_,?_,hes.append hes₁,hes₂⟩
  · rw [List.append_assoc]
    exact hsub.append hsub'
  · have h := ha.trans ha'
    simpa only [List.append_assoc] using h

theorem Taken.unread (huv : Taken as samples u v) (hvw : Unread bs v w) :
    Taken (as++bs) samples u w := by
  obtain ⟨as₁,as₂,es₁,es₂,rs₁,rs₂,hsub',ha',hes₁,hes₂⟩ := huv
  obtain ⟨bs',es,rs,hsub,ha,hes⟩ := hvw
  rw [ha'.istate] at hes
  refine ⟨as₁,as₂++bs',es₁,es₂++es,rs₁,rs₂++rs,?_,?_,hes₁,hes₂.append hes⟩
  · rw [← List.append_assoc]
    exact hsub'.append hsub
  · have h := ha'.trans ha
    simpa only [List.append_assoc] using h

theorem Unread.when (c : Prop) [Decidable c] (h : Unread as v w) :
    Unread as v (if c then w else v) := by
  split_ifs
  · exact h
  · exact unread_refl as v

theorem Unread.before {c : Prop} [Decidable c] (huv : Unread as u v)
    (hvw : if c then Taken bs samples v w else Unread bs v w) :
    if c then Taken (as++bs) samples u w else Unread (as++bs) u w := by
  split_ifs at hvw ⊢
  · exact huv.taken hvw
  · exact huv.trans hvw

theorem Unread.after {c : Prop} [Decidable c] (hvw : Unread bs v w)
    (huv : if c then Taken as samples u v else Unread as u v) :
    if c then Taken (as++bs) samples u w else Unread (as++bs) u w := by
  split_ifs at huv ⊢
  · exact huv.unread hvw
  · exact huv.trans hvw

/-- One after another. -/
theorem unread_foldl {ι : Type} (f : Notice → ι → Notice) (g : ι → List Answer)
    (hf : ∀ v i, Unread (g i) v (f v i)) (is : List ι) (v : Notice) :
    Unread (is.flatMap g) v (is.foldl f v) := by
  induction is generalizing v with
  | nil => exact unread_refl [] v
  | cons i is ih => exact (hf v i).trans (ih _)

theorem timer_input_unread (s : SensorIdx) (v : Notice) (i : TimerInput) :
    Unread (answered s i) v (timer_input s v i) := by
  cases i with
  | SENSOR_EVENT decodes data =>
    apply Unread.when
    cases s with
    | ACC =>
      exact ⟨_,_,_,.refl _,readSample_adds .ACC _ data v,aloof_one ⟨by decide,by decide⟩ rfl rfl⟩
    | GYR =>
      exact ⟨_,_,_,.refl _,readSample_adds .GYR _ data v,aloof_one ⟨by decide,by decide⟩ rfl rfl⟩
    | MOTION => exact unread_refl _ v
    | TEMP =>
      exact ⟨_,[.read DEMO_TEMP_ADDR],_,.refl _,⟨rfl,rfl,rfl⟩,
        aloof_one ⟨by decide,by decide⟩ rfl rfl⟩
  | _ => exact unread_refl _ v

theorem timer_event_unread (v : Notice) :
    Unread (SensorIdx.all.flatMap fun s => (n.timer s).flatMap (answered s)) v
      (demo_instance_process_timer_event n v) :=
  unread_foldl _ _
    (fun v s => (unread_foldl _ _ (timer_input_unread s) (n.timer s) v).when _) _ v

theorem irq_input_unread (v : Notice) (i : IrqInput) :
    Unread [] v { v with inst := irq_input v.inst i } := by
  cases i with
  | REG_EVENT =>
    have hio : Aloof v.inst.istate [] [Effect.write DEMO_INT_IO_CTRL_ADDR [0x05,0x05]] [] :=
      aloof_one ⟨by decide,by decide⟩ rfl rfl
    have hmap : Aloof v.inst.istate [] [Effect.write DEMO_INT_MAP2_FEAT_ADDR [0x00,0x50]] [] :=
      aloof_one ⟨by decide,by decide⟩ rfl rfl
    exact ⟨_,_,_,.refl _,⟨rfl,List.append_assoc _ _ _,(List.append_nil _).symm⟩,hio.append hmap⟩
  | EVENT decodes => exact unread_refl [] v
  | other id => exact unread_refl [] v

theorem irq_inputs_unread (irq : List IrqInput) (v : Notice) :
    Unread [] v { v with inst := irq.foldl irq_input v.inst } := by
  induction irq generalizing v with
  | nil => exact unread_refl [] v
  | cons i irq ih => exact (irq_input_unread v i).trans (ih _)

theorem clear_unread (v : Notice) : Unread [] v (demo_clear_irq n v) := by
  rw [demo_clear_irq]
  split_ifs
  · exact unread_refl [] v
  · refine ⟨[],[],[.irq_cleared],.refl _,⟨rfl,(List.append_nil _).symm,rfl⟩,?_,rfl,rfl⟩
    intro e he
    cases he

/-- The watermark bit makes the handler read the FIFO. -/
theorem status_takes (fs : List Frame) (hw : WellFormed v.inst.istate n fs 0) :
    ∃ w, handle_status n v = some w ∧
      if statusByte v.inst.istate n &&& 0x40 ≠ 0 then
        Taken ([(.ACC,n.acc),(.GYR,n.gyr)]++[(.ACC,n.full)])
          (fs.flatMap (frameSamples v.inst.istate)) v w
      else Unread ([(.ACC,n.acc),(.GYR,n.gyr)]++[(.ACC,n.full)]) v w := by
  obtain ⟨w,hs,ha⟩ := handle_status_adds n v fs 0 hw
  refine ⟨w,hs,?_⟩
  generalize statusByte v.inst.istate n = b at ha ⊢
  have hstatus : Aloof v.inst.istate [] [Effect.read DEMO_INT_STATUS_1_ADDR] [] :=
    aloof_one ⟨by decide,by decide⟩ rfl rfl
  have hacc (data : BusRead) : Aloof v.inst.istate [(.ACC,data)] [Effect.read DEMO_ACC_X_ADDR]
      [.sample (registerSample v.inst.istate .ACC data)] :=
    aloof_one ⟨by decide,by decide⟩ rfl rfl
  have hgyr (data : BusRead) : Aloof v.inst.istate [(.GYR,data)] [Effect.read DEMO_GYR_X_ADDR]
      [.sample (registerSample v.inst.istate .GYR data)] :=
    aloof_one ⟨by decide,by decide⟩ rfl rfl
  have hbefore := (hstatus.append ((hacc n.acc).when (b &&& 0x20 ≠ 0))).append
    ((hgyr n.gyr).when (b &&& 0x10 ≠ 0))
  have hafter := (hacc n.full).when (b &&& 0x80 ≠ 0)
  -- a bit that is not set leaves an answer out
  have hpart (c : Prop) [Decidable c] (a : Answer) : (if c then [a] else []).Sublist [a] := by
    split_ifs
    · exact .refl _
    · exact List.nil_sublist _
  have hsub := ((((List.nil_sublist []).append (hpart (b &&& 0x20 ≠ 0) (.ACC,n.acc))).append
    (hpart (b &&& 0x10 ≠ 0) (.GYR,n.gyr))).append (hpart (b &&& 0x80 ≠ 0) (.ACC,n.full)))
  rw [statusEffects, statusReports] at ha
  by_cases hb : b &&& 0x40 ≠ 0
  · rw [if_pos hb]
    rw [if_pos hb, if_pos hb] at ha
    exact ⟨_,_,_,_,_,_,hsub,ha,hbefore,hafter⟩
  · rw [if_neg hb]
    rw [if_neg hb, if_neg hb, List.append_nil, List.append_nil] at ha
    exact ⟨_,_,_,hsub,ha,hbefore.append hafter⟩

/-- A notification reads the FIFO. -/
def Drained (n : Notified) (x : Inst) : Prop :=
  x.istate.irq_stream = true ∧ eventNum n.irq ≠ 0 ∧ (interrupts n.irq).getLast? = some true ∧
    statusByte x.istate n &&& 0x40 ≠ 0

instance (n : Notified) (x : Inst) : Decidable (Drained n x) :=
  inferInstanceAs (Decidable (_ ∧ _ ∧ _ ∧ _))

theorem handle_irq_takes (fs : List Frame) (hw : WellFormed v.inst.istate n fs 0) :
    ∃ w k, demo_handle_irq n v = some (w,k) ∧
      if Drained n v.inst then
        Taken ([(.ACC,n.acc),(.GYR,n.gyr)]++[(.ACC,n.full)])
          (fs.flatMap (frameSamples v.inst.istate)) v w
      else Unread ([(.ACC,n.acc),(.GYR,n.gyr)]++[(.ACC,n.full)]) v w := by
  by_cases hs : v.inst.istate.irq_stream = true
  · let u : Notice := { v with inst := n.irq.foldl irq_input v.inst }
    have hu : Unread [] v u := irq_inputs_unread n.irq v
    have hi : u.inst.istate = v.inst.istate := by
      obtain ⟨_,_,_,-,ha,-⟩ := hu
      exact ha.istate
    by_cases he : eventNum n.irq ≠ 0 ∧ (interrupts n.irq).getLast? = some true
    · obtain ⟨w,hst,ha⟩ := status_takes n fs (hi ▸ hw)
      refine ⟨w,eventNum n.irq,?_,?_⟩
      · simp only [demo_handle_irq, hs, Bool.not_true, Bool.false_eq_true, if_false]
        rw [if_pos he, show handle_status n _ = some w from hst]
        rfl
      · rw [hi] at ha
        have hd : Drained n v.inst ↔ statusByte v.inst.istate n &&& 0x40 ≠ 0 := by
          rw [Drained, and_iff_right hs, ← and_assoc, and_iff_right he]
        simp only [hd]
        exact hu.before ha
    · refine ⟨u,eventNum n.irq,?_,?_⟩
      · simp only [demo_handle_irq, hs, Bool.not_true, Bool.false_eq_true, if_false]
        rw [if_neg he]
      · rw [if_neg (fun hd : Drained n v.inst => he ⟨hd.2.1,hd.2.2.1⟩)]
        exact hu.trans (unread_refl _ u)
  · refine ⟨v,0,if_pos (by simpa using hs),?_⟩
    rw [if_neg (fun hd : Drained n v.inst => hs hd.1)]
    exact unread_refl _ v

/-- A notification comes to its end; in between it reads the FIFO or leaves
it. -/
theorem notify_takes (fs : List Frame) (x : Inst) (hw : WellFormed x.istate n fs 0) :
    ∃ u, demo_instance_notify_event n x = some u ∧
      if Drained n x then Taken (answers n) (fs.flatMap (frameSamples x.istate)) ⟨x,[]⟩ u
      else Unread (answers n) ⟨x,[]⟩ u := by
  have hpower (on : Bool) (v : Notice) : Unread [] v (v.emit (.bus_power on)) :=
    ⟨[],_,[],.refl _,emit_adds _ v,aloof_one trivial rfl rfl⟩
  obtain ⟨w,k,hr,ht⟩ := @handle_irq_takes n ⟨x.emit (.bus_power true),[]⟩ fs hw
  have hclear : Unread [] w (if k ≠ 0 then demo_clear_irq n w else w) := (clear_unread n w).when _
  have htimer := timer_event_unread n (if k ≠ 0 then demo_clear_irq n w else w)
  have hafter := hclear.trans (htimer.trans (hpower false _))
  rw [List.append_nil, List.nil_append] at hafter
  refine ⟨_,?_,hafter.after ((hpower true ⟨x,[]⟩).before ht)⟩
  rw [demo_instance_notify_event, demo_instance_process_irq_event, hr]
  rfl

end Notify

end BaseDrivers.ChipFifo
