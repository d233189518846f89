import BaseDrivers.ChipFifo

/-!
# What becomes of the frames

Frames are measured at any time, the driver is configured, flushed and
notified in any order. Every frame the chip stored is published by one
notification, in the order in which it was measured and as the sensors in
the FIFO had it, or thrown away by a configuration, or still in the FIFO. No
sample of a frame begins with the end mark or the dummy word of its sensor:
the driver takes these for marks.
-/

set_option autoImplicit false

namespace BaseDrivers.FifoLedger
open BaseDrivers.Execution BaseDrivers.DemoCommon BaseDrivers.DemoInstance BaseDrivers.DemoFifo
open BaseDrivers.DemoEvents BaseDrivers.FifoMask BaseDrivers.FifoInterrupt BaseDrivers.ChipFifo
open BaseDrivers.DemoSensor (workingEnv bootCommon withRates)
open BaseDrivers.PollingTimers hiding exampleInst

/-- A frame with the sensors that were in the FIFO when it was measured. -/
structure Stored where
  mask : SensorType
  frame : Frame

namespace Stored

def words (d : Stored) : List (BitVec 16) := frameWords d.mask d.frame

def samples (suid : SensorIdx → Suid) (d : Stored) : List Sample :=
  (members d.mask).flatMap (fun s => (d.frame s).samples (suid s))

end Stored

/-- What the chip keeps of frames; without a sensor in the FIFO, nothing. -/
def kept (mask : SensorType) (fs : List Frame) : List Stored :=
  if members mask = [] then [] else fs.map (Stored.mk mask)

/-- A notification, with what the chip had for its register reads, the state
it began in and what was taken out of the FIFO for it. -/
structure Told where
  answers : List Answer
  istate : DemoInstanceState
  taken : List Stored
  effects : List Effect
  reports : List Report

/-- The instance and the chip. For the statements: the frames stored, those
that left the FIFO, with whether they were published, those that are in it,
and the notifications. -/
structure Pipeline where
  inst : Inst
  chip : Chip
  measured : List Stored
  settled : List (Stored × Bool)
  waiting : List Stored
  told : List Told

inductive Event where
  | measure (f : Frame)
  | config (r : Requested)
  | flush (env : Env) (pf_cfg : PfCfg) (ss_cfgs : SensorIdx → SsCfg) (flush_sensor : SensorType)
  | notify (n : Notified) (late : List Frame)

/-- The effects of a call. -/
def since (x y : Inst) : List Effect := y.out.drop x.out.length

def settle (published : Bool) (late : List Stored) (p : Pipeline) : Pipeline :=
  { p with
    measured := p.measured++late
    settled := p.settled++p.waiting.map (·,published)
    waiting := late }

def measure (f : Frame) (p : Pipeline) : Pipeline :=
  let fs := kept (chipMask p.chip.high) [f]
  { p with
    chip := store f p.chip
    measured := p.measured++fs
    waiting := p.waiting++fs }

def configure (y : Inst) (p : Pipeline) : Pipeline :=
  let es := since p.inst y
  let p' := { p with inst := y, chip := es.foldl (observe []) p.chip }
  if es.any flushes then settle false [] p' else p'

def notify (n : Notified) (late : List Frame) (p : Pipeline) : Pipeline :=
  match demo_instance_notify_event n p.inst with
  | some u =>
    let es := since p.inst u.inst
    let chip := es.foldl (observe late) p.chip
    if es.any drains then
      settle true (kept (chipMask p.chip.high) late)
        { p with
          inst := u.inst
          chip := chip
          told := p.told++[⟨answers n,p.inst.istate,p.waiting,es,u.reports⟩] }
    else
      { p with
        inst := u.inst
        chip := chip
        told := p.told++[⟨answers n,p.inst.istate,[],es,u.reports⟩] }
  | none => p

def step (p : Pipeline) : Event → Pipeline
  | .measure f => measure f p
  | .config r => configure (request p.inst r) p
  | .flush env pf_cfg ss_cfgs flush_sensor =>
    configure (demo_instance_set_client_config env pf_cfg ss_cfgs (.FLUSH_REQ flush_sensor) p.inst) p
  | .notify n late => notify n late p

/-- The pipeline after a successful init; the FIFO of the chip is empty. -/
def boot (x : Inst) : Pipeline := ⟨x,x.out.foldl (observe []) ⟨0,[],0⟩,[],[],[],[]⟩

/-- In a notification the chip answers the reads of its FIFO with its words,
and the loop is given the turns for them. -/
structure Answers (n : Notified) (p : Pipeline) : Prop where
  total : p.chip.words.length < 32768
  length : (word (demo_com_read_wrapper p.inst.istate.com_port n.fifo_len 0)
    (demo_com_read_wrapper p.inst.istate.com_port n.fifo_len 1)).toNat = p.chip.words.length
  data : ∀ j (hj : j < (littleEndian p.chip.words).length),
    demo_com_read_wrapper p.inst.istate.com_port n.fifo_data j = (littleEndian p.chip.words)[j]
  turns : p.chip.words.length < n.turns

def Admitted (p : Pipeline) : Event → Prop
  | .notify n _ => Answers n p
  | _ => True

/-- A notification publishes what it took out of the FIFO, in one piece, and
beside it just the values in the registers it read, in the order of the
reading. -/
structure Tells (suid : SensorIdx → Suid) (d : Told) : Prop where
  ids : ∀ s, (d.istate.ss_cfgs s).suid = suid s
  tells : ∃ (before after : List Report) (as : List Answer),
    d.reports = before++(d.taken.flatMap (Stored.samples suid)).map .sample++after ∧
    as.Sublist d.answers ∧ d.effects.filterMap measured = as.map Prod.fst ∧
    (before++after).filter valued = as.map (published d.istate)

/-- Every frame is accounted for. -/
structure Accounted (suid : SensorIdx → Suid) (p : Pipeline) : Prop where
  places : p.measured = p.settled.map Prod.fst++p.waiting
  stored : p.chip.words = p.waiting.flatMap Stored.words
  published : p.told.flatMap Told.taken = (p.settled.filter Prod.snd).map Prod.fst
  tells : ∀ d ∈ p.told, Tells suid d

/-- The invariant. -/
structure Sound (suid : SensorIdx → Suid) (p : Pipeline) : Prop where
  accounted : Accounted suid p
  masked : Masked p.inst
  high : p.chip.high = confHigh p.inst.out
  layout : ∀ d ∈ p.waiting, members d.mask = members (chipMask p.chip.high)
  empty : members (chipMask p.chip.high) = [] → p.waiting = []
  suid : ∀ s, (p.inst.cfg s).suid = suid s

section Sound
variable {suid : SensorIdx → Suid} {p : Pipeline}

theorem masked_members {x : Inst} (h : Masked x) :
    members x.istate.fifo_enabled = members (chipMask (confHigh x.out)) := by
  apply List.filter_congr
  intro s hs
  rw [Bool.eq_iff_iff]
  rcases List.mem_pair.mp hs with rfl | rfl
  · exact h.acc.trans (chipMask_acc _).symm
  · exact h.gyr.trans (chipMask_gyr _).symm

theorem since_out {x y : Inst} {es : List Effect} (h : y.out = x.out++es) : since x y = es := by
  rw [since, h, List.drop_left]

theorem kept_words (mask : SensorType) (fs : List Frame) :
    (kept mask fs).flatMap Stored.words = fs.flatMap (frameWords mask) := by
  rw [kept]
  split_ifs with hm
  · have hframe : frameWords mask = fun _ => [] := by
      ext1 f
      rw [frameWords, hm]
      rfl
    rw [hframe]
    simp
  · rw [List.flatMap_map]
    rfl

theorem kept_layout {mask : SensorType} {fs : List Frame} {d : Stored} (hd : d ∈ kept mask fs) :
    d.mask = mask := by
  rw [kept] at hd
  split_ifs at hd
  · cases hd
  · obtain ⟨f,-,rfl⟩ := List.mem_map.mp hd
    rfl

theorem measure_sound (h : Sound suid p) (f : Frame) : Sound suid (measure f p) where
  accounted :=
    { places := by
        show p.measured++_ = _
        rw [h.accounted.places, List.append_assoc]
        rfl
      stored := by
        show p.chip.words++_ = (p.waiting++_).flatMap _
        rw [List.flatMap_append, ← h.accounted.stored, kept_words]
        simp
      published := h.accounted.published
      tells := h.accounted.tells }
  masked := h.masked
  high := h.high
  layout d hd := by
    rcases List.mem_append.mp hd with hd | hd
    · exact h.layout d hd
    · rw [kept_layout hd]
      rfl
  empty hm := by
    have hm' : members (chipMask p.chip.high) = [] := hm
    show p.waiting++_ = []
    rw [h.empty hm', kept, if_pos hm']
    rfl
  suid := h.suid

/-- The chip follows the configuration written last. -/
theorem high_since {x y : Inst} {c : Chip} {es : List Effect} (hc : c.high = confHigh x.out)
    (hy : y.out = x.out++es) (late : List Frame) :
    (es.foldl (observe late) c).high = confHigh y.out := by
  rw [observes_high, hc, hy, confHigh, confHigh, List.foldl_append]

theorem configure_sound {y : Inst} (h : Sound suid p) (hset : Settled p.chip p.inst y)
    (hm : Masked y) : Sound suid (configure y p) := by
  obtain ⟨es,ho,-,hes⟩ := hset.out
  have hhigh := high_since h.high ho []
  have hsuid (s : SensorIdx) : (y.cfg s).suid = suid s := (hset.suid s).trans (h.suid s)
  rw [configure, since_out ho]
  rcases hes with hes | ⟨hf,hw⟩
  · obtain ⟨hc,hf,-⟩ := observes_aside hes [] p.chip
    rw [hc] at hhigh
    simp only [hf, hc, Bool.false_eq_true, if_false]
    have ha := h.accounted
    exact ⟨⟨ha.places,ha.stored,ha.published,ha.tells⟩,hm,hhigh,h.layout,h.empty,hsuid⟩
  · simp only [hf, if_true]
    refine ⟨⟨?_,?_,?_,h.accounted.tells⟩,hm,hhigh,?_,fun _ => rfl,hsuid⟩
    · simp [settle, h.accounted.places, Function.comp_def]
    · simpa [settle] using hw
    · simp [settle, h.accounted.published]
    · intro d hd
      cases hd

/-- The samples of the waiting frames as the parser attributes them. -/
theorem waiting_samples (h : Sound suid p) :
    (p.waiting.map Stored.frame).flatMap (frameSamples p.inst.istate) =
      p.waiting.flatMap (Stored.samples suid) := by
  rw [List.flatMap_map]
  apply List.flatMap_congr
  intro d hd
  have hm : members d.mask = members p.inst.istate.fifo_enabled := by
    rw [h.layout d hd, h.high, masked_members h.masked]
  rw [Stored.samples, hm]
  apply List.flatMap_congr
  intro s _
  rw [← h.suid s]
  rfl

theorem waiting_words (h : Sound suid p) :
    fifoWords p.inst.istate.fifo_enabled (p.waiting.map Stored.frame) 0 = p.chip.words := by
  rw [fifoWords, List.flatMap_map, h.accounted.stored]
  simp only [List.replicate_zero, List.append_nil]
  apply List.flatMap_congr
  intro d hd
  rw [Stored.words, frameWords, frameWords, h.layout d hd, h.high, masked_members h.masked]

/-- A frame has words. -/
theorem words_length {ds : List Stored} (h : ∀ d ∈ ds, members d.mask ≠ []) :
    ds.length ≤ (ds.flatMap Stored.words).length := by
  induction ds with
  | nil => exact Nat.le_refl 0
  | cons d ds ih =>
    obtain ⟨w,ws,hw,-⟩ := frame_head d.mask d.frame (h d List.mem_cons_self)
    have hds := ih (fun e he => h e (List.mem_cons_of_mem d he))
    rw [List.flatMap_cons, List.length_append, Stored.words, hw, List.length_cons, List.length_cons]
    omega

theorem waiting_length (h : Sound suid p) : p.waiting.length ≤ p.chip.words.length := by
  by_cases hm : members (chipMask p.chip.high) = []
  · rw [h.empty hm]
    exact Nat.zero_le _
  · rw [h.accounted.stored]
    exact words_length (fun d hd => h.layout d hd ▸ hm)

theorem answers_wellFormed {n : Notified} (h : Sound suid p) (ha : Answers n p) :
    WellFormed p.inst.istate n (p.waiting.map Stored.frame) 0 := by
  have hw := waiting_words h
  refine ⟨by rw [hw]; exact ha.total,by rw [hw]; exact ha.length,by rw [hw]; exact ha.data,?_⟩
  rw [List.length_map]
  exact lt_of_le_of_lt (waiting_length h) ha.turns

/-- After the FIFO was read, the frames measured meanwhile are in it. -/
theorem drain_leaves {es es' : List Effect} (hes : ∀ e ∈ es, Aside e) (hes' : ∀ e ∈ es', Aside e)
    (late : List Frame) (c : Chip) :
    let os := es++[.read DEMO_FIFO_LENGTH_ADDR,.read DEMO_FIFO_DATA_ADDR]++es'
    (os.foldl (observe late) c).words = late.flatMap (frameWords (chipMask c.high)) ∧
      (os.foldl (observe late) c).high = c.high ∧ os.any drains = true := by
  let counted : Chip := { c with length := c.words.length }
  have hlen : observe late c (.read DEMO_FIFO_LENGTH_ADDR) =
      late.foldl (fun c f => store f c) counted := rfl
  have hdata (d : Chip) : observe late d (.read DEMO_FIFO_DATA_ADDR) =
      { d with words := d.words.drop d.length } := rfl
  obtain ⟨hw,hl⟩ := stores_words late counted
  intro os
  have hos : os.foldl (observe late) c =
      { late.foldl (fun c f => store f c) counted with
        words := late.flatMap (frameWords (chipMask c.high)) } := by
    rw [List.foldl_append, List.foldl_append, (observes_aside hes late c).1,
      (observes_aside hes' late _).1, List.foldl_cons, hlen, List.foldl_cons, List.foldl_nil, hdata,
      hw, hl]
    congr 1
    · exact List.drop_left
    · exact hl.symm
  rw [hos]
  refine ⟨rfl,stores_high late counted,?_⟩
  rw [List.any_append, List.any_append]
  simp [drains]

theorem published_all (ds : List Stored) :
    ((ds.map (·,true)).filter Prod.snd).map Prod.fst = ds := by
  induction ds with
  | nil => rfl
  | cons d ds ih => exact congrArg (d::·) ih

theorem notify_sound {n : Notified} {late : List Frame} (h : Sound suid p) (ha : Answers n p) :
    Sound suid (notify n late p) := by
  obtain ⟨u,hu,ht⟩ := notify_takes n _ p.inst (answers_wellFormed h ha)
  have hm := notify_event_masked n h.masked hu
  simp only [notify, hu]
  by_cases hd : Drained n p.inst
  · rw [if_pos hd, waiting_samples h] at ht
    obtain ⟨as,as',es,es',rs,rs',hsub,hadds,hes,hes'⟩ := ht
    have hhigh := high_since h.high hadds.out late
    obtain ⟨hwords,hsame,hdr⟩ := drain_leaves hes.aside hes'.aside late p.chip
    rw [since_out hadds.out]
    simp only [hdr, if_true]
    have hacc := h.accounted
    refine ⟨⟨?_,?_,?_,?_⟩,hm,hhigh,?_,?_,?_⟩
    · simp [settle, hacc.places, Function.comp_def]
    · rw [settle, kept_words]
      exact hwords
    · simp [settle, hacc.published, published_all]
    · intro d hd
      rcases List.mem_append.mp hd with hd | hd
      · exact hacc.tells d hd
      · obtain rfl := List.mem_singleton.mp hd
        refine ⟨h.suid,rs,rs',as++as',?_,hsub,?_,?_⟩
        · simpa using hadds.reports
        · have hfifo : [Effect.read DEMO_FIFO_LENGTH_ADDR,
              .read DEMO_FIFO_DATA_ADDR].filterMap measured = [] := by decide
          rw [List.filterMap_append, List.filterMap_append, hes.asked, hes'.asked, hfifo,
            List.append_nil, List.map_append]
        · rw [List.filter_append, hes.values, hes'.values, List.map_append]
    · intro d hd
      rw [kept_layout hd]
      exact congrArg (fun b => members (chipMask b)) hsame.symm
    · intro hm
      have hm' : members (chipMask p.chip.high) = [] := by
        rw [← hsame]
        exact hm
      exact if_pos hm'
    · intro s
      rw [← h.suid s]
      show (u.inst.istate.ss_cfgs s).suid = _
      rw [hadds.istate]
      rfl
  · rw [if_neg hd] at ht
    obtain ⟨as,es,rs,hsub,hadds,hes⟩ := ht
    obtain ⟨hc,-,hdr⟩ := observes_aside hes.aside late p.chip
    have hhigh := high_since h.high hadds.out late
    rw [hc] at hhigh
    rw [since_out hadds.out]
    simp only [hdr, hc, Bool.false_eq_true, if_false]
    have hacc := h.accounted
    refine ⟨⟨hacc.places,hacc.stored,?_,?_⟩,hm,hhigh,h.layout,h.empty,?_⟩
    · simp [hacc.published]
    · intro d hd
      rcases List.mem_append.mp hd with hd | hd
      · exact hacc.tells d hd
      · obtain rfl := List.mem_singleton.mp hd
        refine ⟨h.suid,rs,[],as,?_,hsub,hes.asked,?_⟩
        · simpa using hadds.reports
        · rw [List.append_nil]
          exact hes.values
    · intro s
      rw [← h.suid s, Inst.cfg, hadds.istate]
      rfl

theorem step_sound {e : Event} (h : Sound suid p) (ha : Admitted p e) : Sound suid (step p e) := by
  cases e with
  | measure f => exact measure_sound h f
  | config r =>
    have hrates : Settled p.chip p.inst
        (p.inst.setCfg r.sensor (withRates r.env r.chosen (p.inst.cfg r.sensor))) :=
      (settled_config p.chip p.inst).setCfg _ _ _ rfl (settled_refl _ _)
    exact configure_sound h (set_config_keeps (settled_config _ _) r.env r.pf_cfg r.ss_cfgs _ hrates)
      (set_config_masked r.env r.pf_cfg r.ss_cfgs _ (h.masked.setCfg _ _))
  | flush env pf_cfg ss_cfgs flush_sensor =>
    exact configure_sound h (set_config_settles env pf_cfg ss_cfgs _ _ _)
      (set_config_masked env pf_cfg ss_cfgs _ h.masked)
  | notify n late => exact notify_sound h ha

end Sound

/-- Nothing comes into the FIFO by an access. -/
theorem observes_empty (es : List Effect) (c : Chip) (hc : c.words = []) :
    (es.foldl (observe []) c).words = [] := by
  induction es generalizing c with
  | nil => exact hc
  | cons e es ih =>
    apply ih
    cases e with
    | write addr bytes =>
      simp only [observe]
      split_ifs
      · exact hc
      · rfl
      · exact hc
    | read addr =>
      simp only [observe, List.foldl_nil]
      split_ifs
      · exact hc
      · simp [hc]
      · exact hc
    | _ => exact hc

theorem boot_sound (env : Env) (hw_idx : Fin 2) (common : CommonState)
    (ss_cfgs : SensorIdx → SsCfg) {x : Inst}
    (hinit : demo_instance_init env hw_idx common ss_cfgs = (true,x)) :
    Sound (fun s => (x.cfg s).suid) (boot x) where
  accounted := ⟨rfl,observes_empty x.out _ rfl,rfl,fun d hd => by cases hd⟩
  masked := instance_init_masked env hw_idx common ss_cfgs hinit
  high := observes_high [] x.out _
  layout d hd := by cases hd
  empty _ := rfl
  suid _ := rfl

/-- A notification ends. -/
def Completes (p : Pipeline) : Event → Prop
  | .notify n _ => (demo_instance_notify_event n p.inst).isSome
  | _ => True

/-- In every order of frames, requests and notifications each notification
ends, each frame has one place, and what was published of the FIFO are its
frames in order. -/
theorem frames_accounted (env : Env) (hw_idx : Fin 2) (common : CommonState)
    (ss_cfgs : SensorIdx → SsCfg) (x : Inst)
    (hinit : demo_instance_init env hw_idx common ss_cfgs = (true,x)) (es : List Event)
    (hadm : Along step Admitted (boot x) es) :
    Along step Completes (boot x) es ∧
      Always step (Accounted fun s => (x.cfg s).suid) (boot x) es := by
  have hrun := always_of_step (Sound fun s => (x.cfg s).suid) (fun p e h ha => step_sound h ha)
    (boot x) es (boot_sound env hw_idx common ss_cfgs hinit) hadm
  refine ⟨along_of_always ?_ _ _ hrun hadm,always_mono (fun p h => h.accounted) hrun⟩
  intro p e h ha
  cases e with
  | notify n late =>
    obtain ⟨u,hu,-⟩ := notify_takes n _ p.inst (answers_wellFormed h ha)
    exact Option.isSome_iff_exists.mpr ⟨u,hu⟩
  | _ => trivial

/-- A watermark interrupt; the FIFO holds one sample of the gyroscope. -/
def exampleNotified : Notified where
  irq := [.EVENT true]
  timer _ := []
  status := ⟨true,fun _ => 0x40⟩
  acc := ⟨true,fun _ => 0⟩
  gyr := ⟨true,fun _ => 0⟩
  fifo_len := ⟨true,fun i => if i = 0 then 3 else 0⟩
  fifo_data := ⟨true,fun i => [1,0,2,0,3,0].getD i 0⟩
  past _ := 0
  turns := 4
  full := ⟨true,fun _ => 0⟩
  is_level_trig _ := false

def exampleFrame : Frame := fun s => .sample 1 2 3 ⟨by decide,by cases s <;> decide⟩

def exampleEvents : List Event :=
  [.measure exampleFrame,.config (exampleRequest .GYR),.measure exampleFrame,
    .notify exampleNotified [exampleFrame],.config (exampleRequest .GYR)]

theorem frames_accounted_gyr :
    Along step Completes (boot exampleInst) exampleEvents ∧
      Always step (Accounted fun s => (exampleInst.cfg s).suid) (boot exampleInst) exampleEvents :=
  frames_accounted (workingEnv 0 0) chip0 bootCommon (fun _ => ⟨true,0,0,false⟩) exampleInst rfl
    exampleEvents ⟨trivial,trivial,trivial,⟨by decide,by decide,by decide,by decide⟩,trivial,trivial⟩

end BaseDrivers.FifoLedger
