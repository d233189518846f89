import BaseDrivers.RegistryAnswers

/-!
# The shared count of registry requests

The four sensors count their requests in one byte of the common state, and the
byte decides when the stream of any of them goes. The requests that each has
out are tallied on the log. Every answer belongs to a request that is out, so
the byte is the sum over the sensors at every moment.
-/

set_option autoImplicit false

namespace BaseDrivers.RegistryCount
open BaseDrivers.Execution BaseDrivers.DemoCommon BaseDrivers.DemoInstance BaseDrivers.DemoSensor
open BaseDrivers.DemoRegistry BaseDrivers.SensorMonitor BaseDrivers.RegistryLedger
open BaseDrivers.RegistryAnswers

variable {σ ι : Type}

/-- The requests a sensor sent and the answers it parsed, whether the byte
wrapped around in either direction, and whether a stream was removed while
some sensor had a request out. -/
structure Tally where
  sent : SensorIdx → ℕ
  taken : SensorIdx → ℕ
  wrapped : Bool
  cut : Bool

def Tally.out (k : Tally) (s : SensorIdx) : ℕ := k.sent s-k.taken s

def Tally.total (k : Tally) : ℕ := k.out .ACC+k.out .GYR+k.out .MOTION+k.out .TEMP

def bump (s : SensorIdx) (f : SensorIdx → ℕ) (t : SensorIdx) : ℕ := if t = s then f t+1 else f t

def readTally (k : Tally) : Note → Tally
  | .registry_read s _ _ =>
    { k with sent := bump s k.sent, wrapped := k.wrapped || decide (255 ≤ k.total) }
  | .registry_parsed s _ =>
    { k with taken := bump s k.taken, wrapped := k.wrapped || decide (k.total = 0) }
  | .remove_registry_stream _ => { k with cut := k.cut || decide (k.total ≠ 0) }
  | _ => k

def tally (w : World σ) : Tally := monitor readTally ⟨fun _ => 0,fun _ => 0,false,false⟩ w

/-- The byte is what was sent by all sensors and not parsed. It never wrapped
around, and streams went only while nothing was out. -/
structure Exact (w : World σ) : Prop where
  parsed : ∀ s, (tally w).taken s ≤ (tally w).sent s
  count : w.common.registry_req_cnt.toNat = (tally w).total
  wrapped : (tally w).wrapped = false
  cut : (tally w).cut = false

inductive Event (ι : Type) where
  | suid (env : Env) (s : SensorIdx) (found : DataType → Option Suid)
  | registry (env : Env) (s : SensorIdx) (events : List (RegistryEvent ι))

def step (dec : Decoder ι) (w : World σ) : Event ι → World σ
  | .suid env s found => demo_sensor_process_suid_event env s found w
  | .registry env s events => demo_sensor_process_registry_event dec env s events w

/-- Every send succeeds, and what arrives are well-formed answers, each to a
request of the sensor that has not been answered before. -/
def Answering (dec : Decoder ι) (w : World σ) : Event ι → Prop
  | .suid env _ _ => env.encode_ok = true ∧ env.sensor_stream_ok = true ∧ env.send_ok = true
  | .registry _ s events => (∀ e ∈ events, WellFormed dec e) ∧
    (delivered events).Subperm ((facts w).waiting s)

section Monitors
variable {T : Type} (read : T → Note → T) (start : T)

/-- Of the branches of the parser the monitor sees nothing. -/
theorem branch_monitor (hattr : ∀ k s c, read k (.attributes s c) = k)
    (hport : ∀ k c, read k (.register_port c) = k) (hopen : ∀ k, read k .open_port = k)
    (hrails : ∀ k c, read k (.register_rails c) = k) (dec : Decoder ι) (env : Env)
    (s : SensorIdx) (b : Branch) (it : ι) (w : World σ) :
    monitor read start (parse_branch dec env s b it w) = monitor read start w := by
  cases b with
  | sensor_cfg =>
    simp only [parse_branch, parse_sensor_cfg]
    split_ifs
    · apply (monitor_note read start _ _).trans
      rw [hattr]
      rfl
    · rfl
  | platform_cfg =>
    simp only [parse_branch, parse_platform_cfg]
    split_ifs
    · exact register_monitor read start env _ hport hopen hrails
    · rfl
  | platform_cfg_md => rfl
  | placement => rfl
  | orient => rfl
  | fac_cal =>
    simp only [parse_branch, parse_fac_cal]
    split_ifs <;> rfl
  | spec =>
    simp only [parse_branch, parse_spec]
    split_ifs <;> rfl
  | unknown => rfl

/-- The reads of a sensor as the monitor sees them. -/
def reads (s : SensorIdx) (hw_idx : Fin 2) (accepted : Bool) (gs : List Group) (k : T) : T :=
  gs.foldl (fun k g => read k (.registry_read s (demo_registry_cfg hw_idx g) accepted)) k

theorem sends_monitor (env : Env) (henv : env.encode_ok = true) (s : SensorIdx) (gs : List Group)
    (w : World σ) : monitor read start (gs.foldl (send_registry_request env s) w) =
      reads read s w.hw_idx env.send_ok gs (monitor read start w) := by
  induction gs generalizing w with
  | nil => rfl
  | cons g gs ih =>
    have hg : monitor read start (send_registry_request env s w g) =
        read (monitor read start w) (.registry_read s (demo_registry_cfg w.hw_idx g) env.send_ok) := by
      rw [send_registry_request, if_pos henv]
      exact monitor_note read start _ w
    have hx : (send_registry_request env s w g).hw_idx = w.hw_idx := by
      rw [send_registry_request, if_pos henv]
      rfl
    rw [List.foldl_cons, ih, hg, hx]
    rfl

/-- The registry becomes known to a sensor that has no stream to it. -/
def asks (s : SensorIdx) (found : DataType → Option Suid) (w : World σ) : Bool :=
  let known := (w.states s).suid_lookup_data
  known.suid_stream && !known.complete && ((w.states s).suid .registry).isNone &&
    ((known.found .registry).orElse fun _ => found .registry).isSome &&
    !(w.states s).registry_stream

/-- A sensor with a stream does not ask again. -/
theorem send_monitor (hcreate : ∀ k s, read k (.create_registry_stream s) = k) (env : Env)
    (henv : env.encode_ok = true) (hstream : env.sensor_stream_ok = true) (s : SensorIdx)
    (w : World σ) : monitor read start (demo_sensor_send_registry_request env s w) =
      if (w.states s).registry_stream then monitor read start w
      else reads read s w.hw_idx env.send_ok (groups s) (monitor read start w) := by
  have hnote : monitor read start (w.note (.create_registry_stream s)) = monitor read start w :=
    (monitor_note read start _ w).trans (hcreate _ _)
  rw [demo_sensor_send_registry_request, if_pos hstream]
  split_ifs
  · rfl
  · apply (sends_monitor read start env henv s (groups s) _).trans
    rw [← hnote]
    rfl

/-- The other ids are looked up without a request. -/
theorem lookups_monitor (hdeinit : ∀ k s, read k (.lookup_deinit s) = k) (s : SensorIdx)
    (d : DemoState) (v : World σ) :
    let v' := v.setState s d
    monitor read start (if (v'.states s).suid_lookup_data.complete then
      (v'.note (.lookup_deinit s)).setState s
        { v'.states s with suid_lookup_data.suid_stream := false }
      else v') = monitor read start v := by
  intro v'
  split_ifs
  · exact (monitor_note read start (.lookup_deinit s) v').trans (hdeinit _ _)
  · rfl

theorem suid_monitor (hcreate : ∀ k s, read k (.create_registry_stream s) = k)
    (hdeinit : ∀ k s, read k (.lookup_deinit s) = k) (env : Env) (henv : env.encode_ok = true)
    (hstream : env.sensor_stream_ok = true) (s : SensorIdx) (found : DataType → Option Suid)
    (w : World σ) : monitor read start (demo_sensor_process_suid_event env s found w) =
      if asks s found w then reads read s w.hw_idx env.send_ok (groups s) (monitor read start w)
      else monitor read start w := by
  let known := (w.states s).suid_lookup_data
  let looked := (known.found .registry).orElse fun _ => found .registry
  have hasks : asks s found w = (known.suid_stream && !known.complete &&
    ((w.states s).suid .registry).isNone && looked.isSome && !(w.states s).registry_stream) := rfl
  let w1 := w.setState s { w.states s with suid_lookup_data := { known with
    found := fun t => (known.found t).orElse fun _ => found t } }
  let w2 := w1.setState s (lookup_get .registry (w1.states s))
  have h1 : w1.states s = { w.states s with suid_lookup_data := { known with
    found := fun t => (known.found t).orElse fun _ => found t } } := if_pos rfl
  have h2 : w2.states s = lookup_get .registry (w1.states s) := if_pos rfl
  rw [demo_sensor_process_suid_event, hasks]
  cases hopen : known.suid_stream && !known.complete with
  | false =>
    have hclosed : ∀ a b : Bool, (a && !b) = false → (!a || b) = true := by decide
    rw [if_pos (hclosed _ _ hopen), Bool.false_and, Bool.false_and, Bool.false_and,
      if_neg Bool.false_ne_true]
  | true =>
    have hrun : ∀ a b : Bool, (a && !b) = true → ¬ (!a || b) = true := by decide
    rw [if_neg (hrun _ _ hopen), Bool.true_and]
    apply (lookups_monitor read start hdeinit s _ _).trans
    show monitor read start (if !((w1.states s).suid .registry).isSome &&
      ((w2.states s).suid .registry).isSome then demo_sensor_send_registry_request env s w2
      else w2) = _
    cases ha : (w.states s).suid .registry with
    | some u =>
      rw [if_neg (by simp [h1, ha])]
      rfl
    | none =>
      have hfound : (w2.states s).suid .registry = looked := by
        rw [h2, h1]
        simp [lookup_get, ha, looked]
      have hst : (w2.states s).registry_stream = (w.states s).registry_stream := by
        rw [h2, h1]
        simp [lookup_get, ha]
      rw [hfound]
      cases hf : looked.isSome with
      | false =>
        rw [Bool.and_false, if_neg Bool.false_ne_true]
        rfl
      | true =>
        rw [if_pos (by simp [h1, ha]), send_monitor read start hcreate env henv hstream, hst]
        cases (w.states s).registry_stream <;> rfl

/-- A well-formed answer is noted as parsed. -/
theorem parse_monitor (hattr : ∀ k s c, read k (.attributes s c) = k)
    (hport : ∀ k c, read k (.register_port c) = k) (hopen : ∀ k, read k .open_port = k)
    (hrails : ∀ k c, read k (.register_rails c) = k) (dec : Decoder ι) (env : Env)
    (s : SensorIdx) (w : World σ) (e : RegistryEvent ι) (hread : e.is_read_event = true)
    (hname : e.name_ok = true) : monitor read start (demo_sensor_parse_registry dec env s w e) =
      read (monitor read start w) (.registry_parsed s e.group_name) := by
  have hbranch := branch_monitor read start hattr hport hopen hrails dec env s
    (dispatch w.hw_idx e.group_name) e.items w
  rw [demo_sensor_parse_registry, hread, hname, ← hbranch]
  exact monitor_note read start _ _

end Monitors

section Link

/-- What a sensor has out are the answers it waits for. -/
structure Linked (waiting : SensorIdx → List Name) (k : Tally) : Prop where
  out : ∀ s, (waiting s).length+k.taken s = k.sent s
  wrapped : k.wrapped = false
  cut : k.cut = false

theorem Linked.total {waiting : SensorIdx → List Name} {k : Tally} (h : Linked waiting k) :
    k.total = RegistryLedger.total waiting := by
  have hout : ∀ s, k.out s = (waiting s).length := by
    intro s
    have hs := h.out s
    rw [Tally.out]
    omega
  rw [Tally.total, RegistryLedger.total, hout, hout, hout, hout]

/-- The requests of a sensor, while there is room for them in the byte. -/
theorem Linked.reads {k : Ledger} {t : Tally} (h : Linked k.waiting t) (s : SensorIdx)
    (hw_idx : Fin 2) (accepted : Bool) (gs : List Group)
    (hroom : RegistryLedger.total k.waiting+gs.length ≤ 255) :
    Linked (RegistryCount.reads readLedger s hw_idx accepted gs k).waiting
      (RegistryCount.reads readTally s hw_idx accepted gs t) := by
  induction gs generalizing k t with
  | nil => exact h
  | cons g gs ih =>
    let n : Note := .registry_read s (demo_registry_cfg hw_idx g) accepted
    have hlen : RegistryLedger.total (readLedger k n).waiting =
        RegistryLedger.total k.waiting+1 := by
      have hupd := total_update k.waiting s (k.waiting s++[demo_registry_cfg hw_idx g])
      rw [List.length_append, List.length_singleton] at hupd
      show RegistryLedger.total (fun t => if t = s then _ else _) = _
      omega
    have hlink : Linked (readLedger k n).waiting (readTally t n) := by
      refine ⟨fun u => ?_,?_,h.cut⟩
      · have hu := h.out u
        by_cases hus : u = s
        · subst hus
          simp only [n, readLedger, readTally, bump, if_true, List.length_append,
            List.length_singleton]
          omega
        · simpa [n, readLedger, readTally, bump, hus] using hu
      · have htotal := h.total
        rw [List.length_cons] at hroom
        simp only [n, readTally, h.wrapped, Bool.false_or, decide_eq_false_iff_not]
        omega
    apply ih hlink
    rw [List.length_cons] at hroom
    omega

/-- An answer to a request that is out. -/
theorem Linked.parsed {k : Ledger} {t : Tally} (h : Linked k.waiting t) {s : SensorIdx} {n : Name}
    (hn : n ∈ k.waiting s) : Linked (readLedger k (.registry_parsed s n)).waiting
      (readTally t (.registry_parsed s n)) := by
  have hpos := List.length_pos_of_mem hn
  refine ⟨fun u => ?_,?_,h.cut⟩
  · have hu := h.out u
    by_cases hus : u = s
    · subst hus
      simp only [readLedger, readTally, bump, if_true, List.length_erase_of_mem hn]
      omega
    · simpa [readLedger, readTally, bump, hus] using hu
  · have hsum := total_update k.waiting s []
    have htotal := h.total
    rw [List.length_nil] at hsum
    simp only [readTally, h.wrapped, Bool.false_or, decide_eq_false_iff_not]
    omega

/-- A stream that goes while nothing is out. -/
theorem Linked.removed {k : Ledger} {t : Tally} (h : Linked k.waiting t) (s : SensorIdx)
    (h0 : RegistryLedger.total k.waiting = 0) :
    Linked (readLedger k (.remove_registry_stream s)).waiting
      (readTally t (.remove_registry_stream s)) := by
  refine ⟨h.out,h.wrapped,?_⟩
  have htotal := h.total.trans h0
  simp [readTally, h.cut, htotal]

end Link

section Run
variable (dec : Decoder ι)

/-- The facts are in order and the tally goes with them. -/
structure Tidy (w : World σ) : Prop where
  orderly : Orderly (facts w)
  linked : Linked (facts w).waiting (tally w)

theorem Tidy.exact {w : World σ} (h : Tidy w) : Exact w where
  parsed s := Nat.le_of_add_left_le (Nat.le_of_eq (h.linked.out s))
  count := h.orderly.count.trans h.linked.total.symm
  wrapped := h.linked.wrapped
  cut := h.linked.cut

theorem suid_tidy (env : Env) (s : SensorIdx) (found : DataType → Option Suid) (w : World σ)
    (h : Tidy w) (henv : env.encode_ok = true) (hstream : env.sensor_stream_ok = true) :
    Tidy (demo_sensor_process_suid_event env s found w) := by
  have hledger := suid_monitor readLedger ⟨fun _ => [],fun _ => false,false⟩ (fun _ _ => rfl)
    (fun _ _ => rfl) env henv hstream s found w
  have htally := suid_monitor readTally ⟨fun _ => 0,fun _ => 0,false,false⟩ (fun _ _ => rfl)
    (fun _ _ => rfl) env henv hstream s found w
  constructor
  · rcases facts_suid env s henv hstream found w h.orderly with hf | ⟨hno,hf⟩
    · rw [hf]
      exact h.orderly
    · rw [hf]
      exact ask_orderly h.orderly hno
  · have hroom : RegistryLedger.total (facts w).waiting+(groups s).length ≤ 255 := by
      have hle := total_le h.orderly s
      have hown : ((facts w).waiting s).length ≤ (groups s).length :=
        (names_length w.hw_idx s) ▸ (h.orderly.names s).length_le
      have hgroups : (groups s).length ≤ 6 := by cases s <;> decide
      omega
    have hreads := h.linked.reads s w.hw_idx env.send_ok (groups s) hroom
    show Linked (Ledger.waiting (monitor readLedger _ _)) (monitor readTally _ _)
    rw [hledger, htally]
    split_ifs
    · exact hreads
    · exact h.linked

theorem parse_tidy (env : Env) (s : SensorIdx) (events : List (RegistryEvent ι))
    (hwf : ∀ e ∈ events, WellFormed dec e) (w : World σ) (h : Tidy w)
    (hsub : (delivered events).Subperm ((facts w).waiting s)) :
    Tidy (events.foldl (demo_sensor_parse_registry dec env s) w) := by
  apply (parse_keeps dec env s (P := Tidy) _ events hwf w h hsub).1
  intro v e hv hread hname hn ht
  have htally : tally (demo_sensor_parse_registry dec env s v e) =
      readTally (tally v) (.registry_parsed s e.group_name) :=
    parse_monitor readTally _ (fun _ _ _ => rfl) (fun _ _ => rfl) (fun _ => rfl)
      (fun _ _ => rfl) dec env s v e hread hname
  constructor
  · exact took_orderly hv.orderly hn ht
  · have hlink := hv.linked.parsed hn
    rw [Facts.waiting, ht.ledger, htally]
    exact hlink

theorem registry_tidy (env : Env) (s : SensorIdx) (events : List (RegistryEvent ι))
    (hwf : ∀ e ∈ events, WellFormed dec e) (w : World σ) (h : Tidy w)
    (hsub : (delivered events).Subperm ((facts w).waiting s)) :
    Tidy (demo_sensor_process_registry_event dec env s events w) := by
  have hparsed := parse_tidy dec env s events hwf w h hsub
  simp only [demo_sensor_process_registry_event]
  split_ifs with hrun hzero
  · exact h
  · -- the byte is zero, so no sensor waits for anything
    have htotal : RegistryLedger.total (facts (events.foldl
        (demo_sensor_parse_registry dec env s) w)).waiting = 0 := by
      rw [← hparsed.orderly.count]
      exact congrArg UInt8.toNat hzero
    have hidle := idle_of_zero hparsed.orderly hzero s
    constructor
    · rw [facts_drop]
      split_ifs
      · exact drop_orderly hparsed.orderly hidle
      · exact hparsed.orderly
    · rw [World.removeRegistryStream]
      split_ifs
      · have hlink := hparsed.linked.removed s htotal
        show Linked (Ledger.waiting (monitor readLedger _ (World.note _ _)))
          (monitor readTally _ (World.note _ _))
        rw [monitor_note, monitor_note]
        exact hlink
      · exact hparsed.linked
  · exact hparsed

theorem step_tidy (w : World σ) (e : Event ι) (h : Tidy w) (he : Answering dec w e) :
    Tidy (step dec w e) := by
  cases e with
  | suid env s found => exact suid_tidy env s found w h he.1 he.2.1
  | registry env s events => exact registry_tidy dec env s events he.1 w h he.2

theorem boot_tidy (hw_idx : Fin 2) (scale_factor : SensorIdx → ℚ) :
    Tidy (boot σ hw_idx scale_factor) :=
  ⟨(boot_answered hw_idx scale_factor).1,⟨fun _ => rfl,rfl,rfl⟩⟩

/-- In every interleaving of looked-up ids and registry answers over the four
sensors of a library, with every request sent and answered once, the byte
counts the requests that are out, does not wrap around, and lets a stream go
only when no sensor has a request out. -/
theorem request_count_exact (hw_idx : Fin 2) (scale_factor : SensorIdx → ℚ) (es : List (Event ι))
    (hes : Along (step dec) (Answering dec) (boot σ hw_idx scale_factor) es) :
    Always (step dec) Exact (boot σ hw_idx scale_factor) es :=
  always_mono (fun _ h => h.exact) (always_of_step Tidy (step_tidy dec) _ es
    (boot_tidy hw_idx scale_factor) hes)

end Run

def exampleAnswers (s : SensorIdx) (gs : List Group) : Event Unit :=
  .registry (workingEnv 0 0) s (gs.map (fun g => ⟨true,true,demo_registry_cfg chip0 g,()⟩))

/-- Two sensors ask, and their answers arrive in turns. -/
def exampleEvents : List (Event Unit) :=
  [.suid (workingEnv 0 0) .ACC (fun _ => some [1]),.suid (workingEnv 0 0) .GYR (fun _ => some [1]),
   exampleAnswers .ACC [.REG_PLATFORM_CONFIG,.REG_CONFIG_ACCEL],
   exampleAnswers .GYR [.REG_PLATFORM_FAC_CAL_GYRO,.REG_CONFIG_GYRO],
   exampleAnswers .ACC [.REG_CONFIG_SPEC,.REG_PLATFORM_PLACEMENT,.REG_PLATFORM_ORIENT,
     .REG_PLATFORM_FAC_CAL_ACCEL]]

theorem request_count_exact_two :
    Always (step RegistryOrder.exampleDecoder) Exact boot0 exampleEvents :=
  request_count_exact RegistryOrder.exampleDecoder chip0 (fun _ => 1) exampleEvents
    ⟨⟨rfl,rfl,rfl⟩,⟨rfl,rfl,rfl⟩,⟨example_wellFormed _,by decide +kernel⟩,
      ⟨example_wellFormed _,by decide +kernel⟩,⟨example_wellFormed _,by decide +kernel⟩,trivial⟩

end BaseDrivers.RegistryCount
