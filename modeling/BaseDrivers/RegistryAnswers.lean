import BaseDrivers.Execution
import BaseDrivers.RegistryLedger
import BaseDrivers.RegistryOrder

/-!
# The answers of the registry and the timer of the detection

A sensor that was asked to parse everything it waits for removes its stream
with nothing outstanding. The timer of the hardware detection removes it as
well, and asks for no such thing: detection is due before every answer is in.
The notifications are followed on the facts of the ledger.
-/

set_option autoImplicit false

namespace BaseDrivers.RegistryAnswers
open BaseDrivers.Execution BaseDrivers.DemoCommon BaseDrivers.DemoInstance BaseDrivers.DemoSensor
open BaseDrivers.DemoRegistry BaseDrivers.SensorMonitor BaseDrivers.RegistryLedger

variable {σ ι : Type}

def received (c : CommonState) (d : DemoState) : Branch → Bool
  | .sensor_cfg => d.registry_ss_cfg_received
  | .platform_cfg => c.registry_pf_cfg_received
  | .platform_cfg_md => c.registry_md_cfg_received
  | .placement => c.registry_placement_received
  | .orient => c.registry_orient_received
  | .fac_cal => d.registry_fac_cal_received
  | .spec => true
  | .unknown => true

def facts (w : World σ) : Facts where
  hw_idx := w.hw_idx
  ledger := monitor readLedger ⟨fun _ => [],fun _ => false,false⟩ w
  count := w.common.registry_req_cnt
  asked s := ((w.states s).suid .registry).isSome
  stream s := (w.states s).registry_stream
  received s := received w.common (w.states s)
  pending s := (w.states s).pwrail_pending_state
  timer s := (w.states s).timer_stream
  present s := (w.states s).hw_is_present

section Views

/-- Of a sensor's state the facts see this much. -/
def seen (d : DemoState) : Bool × Bool × Bool × Bool × Pending × Bool × Bool :=
  ((d.suid .registry).isSome,d.registry_stream,d.registry_ss_cfg_received,
    d.registry_fac_cal_received,d.pwrail_pending_state,d.timer_stream,d.hw_is_present)

def flags (c : CommonState) : UInt8 × Bool × Bool × Bool × Bool :=
  (c.registry_req_cnt,c.registry_pf_cfg_received,c.registry_md_cfg_received,
    c.registry_placement_received,c.registry_orient_received)

theorem facts_eq {w v : World σ} (hidx : v.hw_idx = w.hw_idx)
    (hledger : (facts v).ledger = (facts w).ledger) (hflags : flags v.common = flags w.common)
    (hseen : ∀ t, seen (v.states t) = seen (w.states t)) : facts v = facts w := by
  simp only [flags, Prod.mk.injEq] at hflags
  simp only [seen, Prod.mk.injEq] at hseen
  obtain ⟨hc,hp,hm,hpl,ho⟩ := hflags
  have hr : ∀ t, received v.common (v.states t) = received w.common (w.states t) := by
    intro t
    obtain ⟨-,-,hss,hfac,-⟩ := hseen t
    ext1 b
    cases b <;> simp only [received, hp, hm, hpl, ho, hss, hfac]
  have hl : monitor readLedger ⟨fun _ => [],fun _ => false,false⟩ v =
    monitor readLedger ⟨fun _ => [],fun _ => false,false⟩ w := hledger
  simp only [facts, hidx, hl, hc, hr, (hseen _).1, (hseen _).2.1, (hseen _).2.2.2.2.1,
    (hseen _).2.2.2.2.2.1, (hseen _).2.2.2.2.2.2]

theorem facts_note (n : Note) (w : World σ) :
    facts (w.note n) = { facts w with ledger := readLedger (facts w).ledger n } := by
  rw [facts, monitor_note]
  rfl

theorem facts_silent {n : Note} (hn : ∀ k, readLedger k n = k) (w : World σ) :
    facts (w.note n) = facts w := by
  rw [facts_note, hn]

theorem facts_setState (s : SensorIdx) (d : DemoState) (w : World σ)
    (hd : seen d = seen (w.states s)) : facts (w.setState s d) = facts w := by
  refine facts_eq rfl rfl rfl ?_
  intro t
  by_cases ht : t = s
  · simpa [World.setState, ht] using hd
  · simp [World.setState, ht]

theorem update_same {α : Type} {f : SensorIdx → α} {s : SensorIdx} {a : α} (h : a = f s) :
    (fun t => if t = s then a else f t) = f := by
  ext1 t
  split_ifs with ht
  · rw [h, ht]
  · rfl

theorem facts_update (s : SensorIdx) (d : DemoState) (w : World σ) :
    facts (w.setState s d) =
      { facts w with
        asked := fun t => if t = s then (d.suid .registry).isSome else (facts w).asked t
        stream := fun t => if t = s then d.registry_stream else (facts w).stream t
        received := fun t => if t = s then received w.common d else (facts w).received t
        pending := fun t => if t = s then d.pwrail_pending_state else (facts w).pending t
        timer := fun t => if t = s then d.timer_stream else (facts w).timer t
        present := fun t => if t = s then d.hw_is_present else (facts w).present t } := by
  simp only [facts, World.setState]
  congr 1 <;> (ext1 t; by_cases ht : t = s <;> simp [ht])

theorem facts_common (c : CommonState) (w : World σ) (hc : flags c = flags w.common) :
    facts { w with common := c } = facts w := facts_eq rfl rfl hc (fun _ => rfl)

theorem facts_register (env : Env) (w : World σ) :
    facts (demo_sensor_register_pf_resource env w) = facts w := by
  obtain ⟨hs,-,hx⟩ := register_rest env w
  refine facts_eq hx ?_ (by rw [register_common]; rfl) (fun t => by rw [hs])
  exact register_monitor readLedger _ env w (fun _ _ => rfl) (fun _ => rfl) (fun _ _ => rfl)

end Views

section Suid
variable (env : Env) (s : SensorIdx)

theorem facts_read (henv : env.encode_ok = true) (g : Group) (w : World σ) :
    facts (send_registry_request env s w g) =
      { facts w with
        ledger.waiting := fun t => if t = s then
            (facts w).waiting s++[demo_registry_cfg w.hw_idx g]
          else (facts w).waiting t
        count := (facts w).count+1 } := by
  rw [send_registry_request, if_pos henv]
  have hn := facts_note (.registry_read s (demo_registry_cfg w.hw_idx g) env.send_ok) w
  exact congrArg (fun f : Facts => { f with count := (facts w).count+1 }) hn

theorem facts_reads (henv : env.encode_ok = true) (gs : List Group) (w : World σ) :
    facts (gs.foldl (send_registry_request env s) w) =
      { facts w with
        ledger.waiting := fun t => if t = s then
            (facts w).waiting s++gs.map (demo_registry_cfg w.hw_idx)
          else (facts w).waiting t
        count := (facts w).count+UInt8.ofNat gs.length } := by
  induction gs generalizing w with
  | nil =>
    have hw : (fun t => if t = s then (facts w).waiting s++[] else (facts w).waiting t) =
        (facts w).ledger.waiting := by
      ext1 t
      by_cases ht : t = s
      · simp [ht, Facts.waiting]
      · simp [ht, Facts.waiting]
    rw [List.map_nil, hw]
    simp
  | cons g gs ih =>
    have hx : (send_registry_request env s w g).hw_idx = w.hw_idx := by
      rw [send_registry_request, if_pos henv]
      rfl
    have hc : (facts w).count+1+UInt8.ofNat gs.length =
        (facts w).count+UInt8.ofNat (g::gs).length := by
      rw [List.length_cons, UInt8.ofNat_add, UInt8.add_assoc, UInt8.add_comm 1]
      rfl
    rw [List.foldl_cons, ih, facts_read env s henv, hx]
    simp only [hc, Facts.waiting]
    congr 2
    ext1 t
    by_cases ht : t = s
    · simp [ht]
    · simp [ht]

/-- The reads of a sensor that did not have a stream. -/
theorem facts_send (henv : env.encode_ok = true) (hstream : env.sensor_stream_ok = true)
    (w : World σ) (hs : (w.states s).registry_stream = false) :
    facts (demo_sensor_send_registry_request env s w) =
      { ask s (facts w) with asked := (facts w).asked } := by
  let v := (w.note (.create_registry_stream s)).setState s
    { w.states s with registry_stream := true }
  have hv : facts v = { facts w with
      stream := fun t => if t = s then true else (facts w).stream t } := by
    apply (facts_update s _ _).trans
    rw [facts_silent (fun _ => rfl)]
    exact Facts.ext rfl rfl rfl (update_same rfl) rfl (update_same rfl) (update_same rfl)
      (update_same rfl) (update_same rfl)
  have hsend : demo_sensor_send_registry_request env s w =
      (groups s).foldl (send_registry_request env s) v := by
    rw [demo_sensor_send_registry_request, if_neg (by simp [hs]), if_pos hstream]
  rw [hsend, facts_reads env s henv, hv]
  rfl

/-- The ids of the other services are looked up last. -/
theorem facts_lookups (w : World σ) :
    let d := lookup_get .async_com_port (lookup_get .interrupt (lookup_get .timer (w.states s)))
    let v := w.setState s d
    facts (if (v.states s).suid_lookup_data.complete then
      (v.note (.lookup_deinit s)).setState s
        { v.states s with suid_lookup_data.suid_stream := false }
      else v) = facts w := by
  have hget : ∀ (u : DataType) (d : DemoState), u ≠ .registry → seen (lookup_get u d) = seen d := by
    intro u d hu
    rw [lookup_get]
    split_ifs
    · simp [seen, hu.symm]
    · rfl
  have hv : facts (w.setState s (lookup_get .async_com_port
      (lookup_get .interrupt (lookup_get .timer (w.states s))))) = facts w := by
    apply facts_setState
    rw [hget _ _ (by decide), hget _ _ (by decide), hget _ _ (by decide)]
  intro d v
  split_ifs
  · exact (facts_setState s { v.states s with suid_lookup_data.suid_stream := false }
      (v.note (.lookup_deinit s)) rfl).trans ((facts_silent (fun _ => rfl) v).trans hv)
  · exact hv

/-- Looking up the registry changes nothing, or it is found for the first time. -/
theorem facts_lookup (w : World σ) :
    let d := lookup_get .registry (w.states s)
    ((d.suid .registry).isSome = ((w.states s).suid .registry).isSome ∧
        facts (w.setState s d) = facts w) ∨
      ((w.states s).suid .registry = none ∧ (d.suid .registry).isSome = true ∧
        d.registry_stream = (w.states s).registry_stream ∧
        facts (w.setState s d) =
          { facts w with asked := fun t => if t = s then true else (facts w).asked t }) := by
  let d := lookup_get .registry (w.states s)
  have hd : d = if ((w.states s).suid .registry).isNone then
      { w.states s with suid := fun u => if u = .registry then
          (w.states s).suid_lookup_data.found .registry else (w.states s).suid u }
    else w.states s := rfl
  show ((d.suid .registry).isSome = _ ∧ _) ∨ _
  cases ha : (w.states s).suid .registry with
  | some u =>
    rw [ha] at hd
    left
    constructor
    · rw [hd]
      exact congrArg Option.isSome ha
    · exact facts_setState s d w (by rw [hd]; rfl)
  | none =>
    rw [ha] at hd
    cases hf : (w.states s).suid_lookup_data.found .registry with
    | none =>
      have hn : d.suid .registry = none := by
        rw [hd, hf]
        rfl
      left
      constructor
      · rw [hn]
      · exact facts_setState s d w (by simp [hd, hf, seen, ha])
    | some u =>
      have hn : d.suid .registry = some u := by
        rw [hd, hf]
        rfl
      have hr : received w.common d = received w.common (w.states s) := by
        rw [hd]
        ext1 b
        cases b <;> rfl
      have hst : d.registry_stream = (w.states s).registry_stream := by
        rw [hd]
        rfl
      have hp : d.pwrail_pending_state = (w.states s).pwrail_pending_state := by
        rw [hd]
        rfl
      have ht : d.timer_stream = (w.states s).timer_stream := by
        rw [hd]
        rfl
      have hpr : d.hw_is_present = (w.states s).hw_is_present := by
        rw [hd]
        rfl
      have hup := facts_update s d w
      rw [hn] at hup
      right
      exact ⟨rfl,by rw [hn]; rfl,hst,hup.trans (Facts.ext rfl rfl rfl rfl (update_same hst)
        (update_same hr) (update_same hp) (update_same ht) (update_same hpr))⟩

/-- A look at the ids that arrived asks the registry at most once. -/
theorem facts_suid (henv : env.encode_ok = true) (hstream : env.sensor_stream_ok = true)
    (found : DataType → Option Suid) (w : World σ) (h : Orderly (facts w)) :
    facts (demo_sensor_process_suid_event env s found w) = facts w ∨
      (facts w).asked s = false ∧
        facts (demo_sensor_process_suid_event env s found w) = ask s (facts w) := by
  rw [demo_sensor_process_suid_event]
  split_ifs
  · exact .inl rfl
  · let known := (w.states s).suid_lookup_data
    let w1 := w.setState s { w.states s with suid_lookup_data := { known with
      found := fun t => (known.found t).orElse fun _ => found t } }
    let d := lookup_get .registry (w1.states s)
    let w2 := w1.setState s d
    let w3 := if !((w1.states s).suid .registry).isSome && ((w2.states s).suid .registry).isSome
      then demo_sensor_send_registry_request env s w2 else w2
    have h1 : facts w1 = facts w := facts_setState s _ _ rfl
    have hd : w2.states s = d := if_pos rfl
    have hlast := facts_lookups s w3
    suffices h3 : facts w3 = facts w ∨
        (facts w).asked s = false ∧ facts w3 = ask s (facts w) by
      rcases h3 with h3 | ⟨ha,h3⟩
      · exact .inl (hlast.trans h3)
      · exact .inr ⟨ha,hlast.trans h3⟩
    rcases facts_lookup s w1 with ⟨hsame,hw2⟩ | ⟨hno,hyes,hst,hw2⟩
    · have hsame2 : ((w2.states s).suid .registry).isSome =
          ((w1.states s).suid .registry).isSome := by
        rw [hd]
        exact hsame
      have hw3 : w3 = w2 := if_neg (by simp [hsame2])
      left
      rw [hw3]
      exact hw2.trans h1
    · have hw3 : w3 = demo_sensor_send_registry_request env s w2 :=
        if_pos (by rw [hno, hd]; exact hyes)
      have hasked : (facts w).asked s = false := by
        rw [← h1]
        exact congrArg Option.isSome hno
      have hidle : (w2.states s).registry_stream = false := by
        rw [hd]
        exact hst.trans ((congrArg (fun f : Facts => f.stream s) h1).trans
          (unasked_idle h hasked).1)
      have hfacts : facts w2 = { facts w with
          asked := fun t => if t = s then true else (facts w).asked t } := by
        rw [← h1]
        exact hw2
      right
      constructor
      · exact hasked
      · rw [hw3, facts_send env s henv hstream w2 hidle, hfacts]
        rfl

end Suid

section Parse
variable (dec : Decoder ι) (env : Env) (s : SensorIdx)

/-- A branch of the parser sets flags and does nothing else to the facts. -/
structure Branched (b : Branch) (f f' : Facts) : Prop where
  same : f' = { f with received := f'.received }
  received : ∀ t c, f.received t c = true → f'.received t c = true
  new : f'.received s b = true
  others : ∀ t, t ≠ s → f'.received t .sensor_cfg = f.received t .sensor_cfg

theorem state_branched (b : Branch) (d : DemoState) (w : World σ)
    (hsuid : d.suid = (w.states s).suid) (hstream : d.registry_stream = (w.states s).registry_stream)
    (hpend : d.pwrail_pending_state = (w.states s).pwrail_pending_state)
    (htimer : d.timer_stream = (w.states s).timer_stream)
    (hpresent : d.hw_is_present = (w.states s).hw_is_present)
    (hmono : ∀ c, received w.common (w.states s) c = true → received w.common d c = true)
    (hnew : received w.common d b = true) : Branched s b (facts w) (facts (w.setState s d)) := by
  have hup := facts_update s d w
  rw [hsuid, hstream, hpend, htimer, hpresent] at hup
  rw [hup]
  constructor
  · exact Facts.ext rfl rfl rfl (update_same rfl) (update_same rfl) rfl (update_same rfl)
      (update_same rfl) (update_same rfl)
  · intro t c hc
    by_cases ht : t = s
    · subst ht
      simpa using hmono c hc
    · simpa [ht] using hc
  · simpa using hnew
  · intro t ht
    simp [ht]

theorem common_branched (b : Branch) (c : CommonState) (w : World σ)
    (hcnt : c.registry_req_cnt = w.common.registry_req_cnt)
    (hmono : ∀ d e, received w.common d e = true → received c d e = true)
    (hnew : received c (w.states s) b = true) :
    Branched s b (facts w) (facts { w with common := c }) := by
  refine ⟨?_,fun t e => hmono (w.states t) e,hnew,fun _ _ => rfl⟩
  exact Facts.ext rfl rfl hcnt rfl rfl rfl rfl rfl rfl

/-- What was received stays received, flag by flag. -/
theorem received_mono {c c' : CommonState} {d d' : DemoState}
    (hss : d.registry_ss_cfg_received = true → d'.registry_ss_cfg_received = true)
    (hpf : c.registry_pf_cfg_received = true → c'.registry_pf_cfg_received = true)
    (hmd : c.registry_md_cfg_received = true → c'.registry_md_cfg_received = true)
    (hplacement : c.registry_placement_received = true → c'.registry_placement_received = true)
    (horient : c.registry_orient_received = true → c'.registry_orient_received = true)
    (hfac : d.registry_fac_cal_received = true → d'.registry_fac_cal_received = true)
    (b : Branch) : received c d b = true → received c' d' b = true := by
  cases b with
  | sensor_cfg => exact hss
  | platform_cfg => exact hpf
  | platform_cfg_md => exact hmd
  | placement => exact hplacement
  | orient => exact horient
  | fac_cal => exact hfac
  | spec => exact id
  | unknown => exact id

theorem parse_branched (b : Branch) (it : ι) (hok : dec.ok it = true) (w : World σ) :
    Branched s b (facts w) (facts (parse_branch dec env s b it w)) := by
  have hsame : ∀ v : World σ, facts v = facts w → received v.common (v.states s) b = true →
      Branched s b (facts w) (facts v) := by
    intro v hv hb
    have hnew : (facts v).received s b = true := hb
    rw [hv] at hnew ⊢
    exact ⟨rfl,fun _ _ h => h,hnew,fun _ _ => rfl⟩
  cases b with
  | sensor_cfg =>
    let c := dec.parse_phy_sensor_cfg it (w.states s).ss_cfg
    let w1 := w.setState s { w.states s with ss_cfg := c }
    have h1 : facts w1 = facts w := facts_setState s _ w rfl
    simp only [parse_branch, parse_sensor_cfg, if_pos hok]
    rw [facts_silent (fun _ => rfl), ← h1]
    exact state_branched s .sensor_cfg _ w1 rfl rfl rfl rfl rfl
      (received_mono (fun _ => rfl) id id id id id) rfl
  | platform_cfg =>
    let p := dec.parse_phy_sensor_pf_cfg it w.common.pf_cfg
    let w1 : World σ := { w with common.pf_cfg := p }
    have h1 : facts w1 = facts w := facts_common _ w rfl
    simp only [parse_branch, parse_platform_cfg, if_pos hok]
    rw [facts_register, ← h1]
    exact common_branched s .platform_cfg (withPlatform p w1.common) w1 rfl
      (fun _ => received_mono id (fun _ => rfl) id id id id) rfl
  | platform_cfg_md =>
    simp only [parse_branch, parse_platform_cfg_md, hok, Bool.true_or]
    exact common_branched s .platform_cfg_md _ w rfl
      (fun _ => received_mono id id (fun _ => rfl) id id id) rfl
  | placement =>
    simp only [parse_branch, parse_placement, hok, Bool.true_or]
    exact common_branched s .placement _ w rfl
      (fun _ => received_mono id id id (fun _ => rfl) id id) rfl
  | orient =>
    simp only [parse_branch, parse_orient, hok, Bool.true_or]
    exact common_branched s .orient _ w rfl
      (fun _ => received_mono id id id id (fun _ => rfl) id) rfl
  | fac_cal =>
    simp only [parse_branch, parse_fac_cal, if_pos hok]
    exact state_branched s .fac_cal _ w rfl rfl rfl rfl rfl
      (received_mono id id id id id (fun _ => rfl)) rfl
  | spec =>
    simp only [parse_branch, parse_spec, if_pos hok]
    exact hsame _ (facts_common _ w rfl) rfl
  | unknown => exact hsame w rfl rfl

/-- A well-formed answer is taken in. -/
theorem parse_took (w : World σ) (e : RegistryEvent ι) (hread : e.is_read_event = true)
    (hname : e.name_ok = true) (hok : dec.ok e.items = true) :
    Took s e.group_name (facts w) (facts (demo_sensor_parse_registry dec env s w e)) := by
  let v := parse_branch dec env s (dispatch w.hw_idx e.group_name) e.items w
  have hb : Branched s (dispatch w.hw_idx e.group_name) (facts w) (facts v) :=
    parse_branched dec env s _ e.items hok w
  have hparse : demo_sensor_parse_registry dec env s w e = parsed s e.group_name v := by
    rw [demo_sensor_parse_registry, hread, hname]
    rfl
  have hv : facts (parsed s e.group_name v) =
      { facts v with
        ledger := readLedger (facts v).ledger (.registry_parsed s e.group_name)
        count := (facts v).count-1 } := by
    have hn := facts_note (.registry_parsed s e.group_name) v
    exact congrArg (fun f : Facts => { f with count := (facts v).count-1 }) hn
  rw [hparse, hv]
  have hs := hb.same
  refine ⟨by rw [hs],by rw [hs],by rw [hs],by rw [hs],by rw [hs],by rw [hs],by rw [hs],by rw [hs],
    hb.received,?_,hb.others⟩
  · intro g hg
    have hd := dispatch_group w.hw_idx g
    have hx : (facts w).hw_idx = w.hw_idx := rfl
    rw [hx] at hg
    rw [← hg] at hd
    rw [← hd]
    exact hb.new

/-- The names of the answers among the events. -/
def delivered (events : List (RegistryEvent ι)) : List Name :=
  (events.filter (fun e => e.is_read_event)).map (fun e => e.group_name)

def WellFormed (e : RegistryEvent ι) : Prop :=
  e.is_read_event = true → e.name_ok = true ∧ dec.ok e.items = true

theorem subperm_erase {n : Name} {ns l : List Name} (h : (n::ns).Subperm l) :
    n ∈ l ∧ ns.Subperm (l.erase n) := by
  have hn : n ∈ l := h.subset List.mem_cons_self
  exact ⟨hn,(List.subperm_cons n).mp ((List.perm_cons_erase hn).subperm_left.mp h)⟩

/-- What each answer waited for keeps, the parsing of all that arrived keeps;
as many answers are taken in as arrived. -/
theorem parse_keeps {P : World σ → Prop}
    (hstep : ∀ w (e : RegistryEvent ι), P w → e.is_read_event = true → e.name_ok = true →
      e.group_name ∈ (facts w).waiting s →
      Took s e.group_name (facts w) (facts (demo_sensor_parse_registry dec env s w e)) →
      P (demo_sensor_parse_registry dec env s w e))
    (events : List (RegistryEvent ι)) (hwf : ∀ e ∈ events, WellFormed dec e)
    (w : World σ) (h : P w) (hsub : (delivered events).Subperm ((facts w).waiting s)) :
    let v := events.foldl (demo_sensor_parse_registry dec env s) w
    P v ∧ ((facts v).waiting s).length+(delivered events).length = ((facts w).waiting s).length := by
  induction events generalizing w with
  | nil => exact ⟨h,rfl⟩
  | cons e events ih =>
    have hrest := fun d hd => hwf d (List.mem_cons_of_mem e hd)
    rw [List.foldl_cons]
    cases hread : e.is_read_event with
    | false =>
      have hd : delivered (e::events) = delivered events := by simp [delivered, hread]
      have hparse : demo_sensor_parse_registry dec env s w e = w := by
        simp [demo_sensor_parse_registry, hread]
      rw [hd] at hsub ⊢
      rw [hparse]
      exact ih hrest w h hsub
    | true =>
      have hd : delivered (e::events) = e.group_name::delivered events := by
        simp [delivered, hread]
      obtain ⟨hname,hok⟩ := hwf e List.mem_cons_self hread
      have ht := parse_took dec env s w e hread hname hok
      rw [hd] at hsub ⊢
      obtain ⟨hn,hsub'⟩ := subperm_erase hsub
      have hwaiting : (facts (demo_sensor_parse_registry dec env s w e)).waiting s =
          ((facts w).waiting s).erase e.group_name := by
        rw [took_waiting ht]
        simp
      rw [← hwaiting] at hsub'
      obtain ⟨hP,hl⟩ := ih hrest _ (hstep w e h hread hname hn ht) hsub'
      have hlen := List.length_erase_of_mem hn
      have hpos := List.length_pos_of_mem hn
      rw [hwaiting] at hl
      rw [List.length_cons]
      exact ⟨hP,by omega⟩

theorem parse_events (events : List (RegistryEvent ι)) (hwf : ∀ e ∈ events, WellFormed dec e)
    (w : World σ) (h : Orderly (facts w)) (hsub : (delivered events).Subperm ((facts w).waiting s)) :
    let v := events.foldl (demo_sensor_parse_registry dec env s) w
    Orderly (facts v) ∧ Advanced (facts w) (facts v) ∧
      ((facts v).waiting s).length+(delivered events).length = ((facts w).waiting s).length := by
  obtain ⟨⟨ho,ha⟩,hl⟩ := parse_keeps dec env s
    (P := fun v => Orderly (facts v) ∧ Advanced (facts w) (facts v))
    (fun v e hv _ _ hn ht => ⟨took_orderly hv.1 hn ht,hv.2.trans (took_advanced ht)⟩)
    events hwf w ⟨h,Advanced.refl _⟩ hsub
  exact ⟨ho,ha,hl⟩

theorem facts_drop (w : World σ) : facts (w.removeRegistryStream s) =
    if (facts w).stream s then drop s (facts w) else facts w := by
  have hst : (facts w).stream s = (w.states s).registry_stream := rfl
  rw [World.removeRegistryStream, hst]
  split_ifs
  · have hup := facts_update s { w.states s with registry_stream := false }
      (w.note (.remove_registry_stream s))
    apply hup.trans
    rw [facts_note]
    exact Facts.ext rfl rfl rfl (update_same rfl) rfl (update_same rfl) (update_same rfl)
      (update_same rfl) (update_same rfl)
  · rfl

/-- Parsing what arrived loses nothing, and leaves nothing to wait for exactly
when everything arrived. -/
theorem registry_advanced (events : List (RegistryEvent ι)) (hwf : ∀ e ∈ events, WellFormed dec e)
    (w : World σ) (h : Orderly (facts w)) (hsub : (delivered events).Subperm ((facts w).waiting s)) :
    let v := demo_sensor_process_registry_event dec env s events w
    Orderly (facts v) ∧ Advanced (facts w) (facts v) ∧
      ((facts v).waiting s = [] ↔ (delivered events).Perm ((facts w).waiting s)) := by
  have hperm : ∀ l : List Name, l.length+(delivered events).length = ((facts w).waiting s).length →
      (l = [] ↔ (delivered events).Perm ((facts w).waiting s)) := by
    intro l hl
    constructor
    · intro h0
      rw [h0, List.length_nil] at hl
      exact hsub.perm_of_length_le (by omega)
    · intro hp
      have hlen := hp.length_eq
      exact List.length_eq_zero_iff.mp (by omega)
  simp only [demo_sensor_process_registry_event]
  split_ifs with hrun hzero
  · refine ⟨h,Advanced.refl _,?_⟩
    have hnone : delivered events = [] := by
      cases hst : (w.states s).registry_stream with
      | true =>
        have he : events = [] := by simpa [hst] using hrun
        rw [he]
        rfl
      | false =>
        have hw : (facts w).waiting s = [] := by
          by_contra hne
          exact Bool.false_ne_true (hst.symm.trans (h.stream s hne))
        rw [hw] at hsub
        exact List.subperm_nil.mp hsub
    exact hperm _ (by rw [hnone]; rfl)
  · obtain ⟨ho,ha,hl⟩ := parse_events dec env s events hwf w h hsub
    have hidle := idle_of_zero ho hzero s
    rw [facts_drop]
    split_ifs
    · exact ⟨drop_orderly ho hidle,ha.trans (drop_advanced hidle),hperm _ hl⟩
    · exact ⟨ho,ha,hperm _ hl⟩
  · obtain ⟨ho,ha,hl⟩ := parse_events dec env s events hwf w h hsub
    exact ⟨ho,ha,hperm _ hl⟩

end Parse

section Timer
variable (env : Env) (s : SensorIdx)

theorem facts_pending (p : Pending) (w : World σ) :
    facts (w.setPending s p) = pend s p (facts w) := by
  apply (facts_update s { w.states s with pwrail_pending_state := p } w).trans
  exact Facts.ext rfl rfl rfl (update_same rfl) (update_same rfl) (update_same rfl) rfl
    (update_same rfl) (update_same rfl)

theorem facts_timer_stream (b : Bool) (w : World σ) :
    facts (w.setState s { w.states s with timer_stream := b }) =
      { facts w with timer := fun t => if t = s then b else (facts w).timer t } := by
  apply (facts_update s { w.states s with timer_stream := b } w).trans
  exact Facts.ext rfl rfl rfl (update_same rfl) (update_same rfl) (update_same rfl)
    (update_same rfl) rfl (update_same rfl)

theorem facts_clean (w : World σ) :
    ∃ timer, facts (w.removeTimerStream s) = { facts w with timer := timer } := by
  rw [World.removeTimerStream]
  split_ifs
  · have hn : facts (w.note (.remove_timer_stream s)) = facts w := facts_silent (fun _ => rfl) w
    have hs := facts_timer_stream s false (w.note (.remove_timer_stream s))
    rw [hn] at hs
    exact ⟨_,hs⟩
  · exact ⟨_,rfl⟩

theorem facts_start (timeout : UInt64) (action : Pending) (w : World σ) :
    ∃ p timer, (p = action ∨ p = (facts w).pending s) ∧
      facts (demo_sensor_start_power_rail_timer env s timeout action w) =
        { pend s p (facts w) with timer := timer } := by
  have ho : ∃ timer, facts (opened env s w) = { facts w with timer := timer } := by
    rw [opened]
    split_ifs
    · exact ⟨_,rfl⟩
    · have hn : facts (w.note (.create_timer_stream s)) = facts w := facts_silent (fun _ => rfl) w
      have hs := facts_timer_stream s true (w.note (.create_timer_stream s))
      rw [hn] at hs
      exact ⟨_,hs⟩
  obtain ⟨timer,ho⟩ := ho
  rw [start_eq]
  split_ifs
  · refine ⟨action,timer,.inl rfl,?_⟩
    rw [facts_pending, facts_silent (fun _ => rfl), ho]
    rfl
  · refine ⟨(facts w).pending s,timer,.inr rfl,?_⟩
    rw [ho]
    exact Facts.ext rfl rfl rfl rfl rfl rfl (update_same rfl).symm rfl rfl

theorem facts_vote (v : RailState) (w : World σ) :
    facts (demo_sensor_update_power_rail_vote v w) = facts w :=
  (facts_common _ (w.note (.vote v)) rfl).trans (facts_silent (fun _ => rfl) w)

theorem facts_detect (w : World σ) :
    ∃ p timer present, (p = .INIT ∨ p = (facts w).pending s) ∧
      facts (demo_start_hw_detect env s w) =
        { pend s p (facts w) with timer := timer, present := present } := by
  let w1 := if w.common.com_port.port_handle then w else demo_sensor_register_pf_resource env w
  let w2 : World σ := { w1 with common.rail_cfg.rail_vote := w1.common.registry_rail_on_state }
  let w3 := demo_sensor_update_power_rail_vote w2.common.rail_cfg.rail_vote w2
  let w4 := demo_sensor_start_power_rail_timer env s (off2idle env) .INIT w3
  let w5 := demo_switch_bus w4
  let w6 := w5.note (.chip_read DEMO_CHIP_ID_ADDR)
  let chip_id := demo_com_read_wrapper w6.common.com_port (env.bus DEMO_CHIP_ID_ADDR) 0
  let present := chip_id == DEMO_CHIP_ID_0 || chip_id == DEMO_CHIP_ID_1
  let w7 := w6.setState s { w6.states s with hw_is_present := present }
  let closed : World σ := { (w7.note .close_port).note .deregister_port with
    common.com_port.port_handle := false }
  let w8 := if w7.common.com_port.port_handle then closed else w7
  let w9 := demo_sensor_update_power_rail_vote .SNS_RAIL_OFF w8
  have h1 : facts w1 = facts w := by
    show facts (if w.common.com_port.port_handle then w else _) = _
    split_ifs
    · rfl
    · exact facts_register env w
  have h3 : facts w3 = facts w := (facts_vote _ w2).trans ((facts_common _ w1 rfl).trans h1)
  have h5 : facts w5 = facts w4 := by
    show facts (demo_switch_bus w4) = _
    rw [demo_switch_bus]
    split_ifs
    · exact facts_silent (fun _ => rfl) w4
    · rfl
  have h6 : facts w6 = facts w4 := (facts_silent (fun _ => rfl) w5).trans h5
  have h7 : facts w7 = { facts w6 with
      present := fun t => if t = s then present else (facts w6).present t } := by
    apply (facts_update s { w6.states s with hw_is_present := present } w6).trans
    exact Facts.ext rfl rfl rfl (update_same rfl) (update_same rfl) (update_same rfl)
      (update_same rfl) (update_same rfl) rfl
  have h8 : facts w8 = facts w7 := by
    show facts (if w7.common.com_port.port_handle then closed else w7) = _
    split_ifs
    · apply (facts_common _ ((w7.note .close_port).note .deregister_port) rfl).trans
      rw [facts_silent (fun _ => rfl), facts_silent (fun _ => rfl)]
    · rfl
  have h9 : facts (demo_start_hw_detect env s w) = facts w8 :=
    (facts_setState s { w9.states s with hw_detection_finished := true } w9 rfl).trans
      (facts_vote _ w8)
  obtain ⟨p,timer,hp,h4⟩ := facts_start env s (off2idle env) .INIT w3
  rw [h3] at hp h4
  refine ⟨p,timer,fun t => if t = s then present else (facts w4).present t,hp,?_⟩
  rw [h9, h8, h7, h6]
  exact congrArg (fun f : Facts => { f with
    present := fun t => if t = s then present else (facts w4).present t }) h4

variable [RequestStore σ]

theorem handle_fire (w : World σ) (hp : (facts w).pending s = .INIT) :
    facts (handle_timer env s w).1 = fire s (facts w) := by
  have hn : facts (w.note (.timer_handled s)) = facts w := facts_silent (fun _ => rfl) w
  have hpresent : (w.states s).hw_is_present = (facts w).present s := rfl
  rw [handle_timer_init env s w hp, hpresent, fire]
  split_ifs with h1 h2
  · rw [facts_pending, facts_note, facts_drop, hn, if_pos h2]
    rfl
  · rw [facts_pending, facts_note, facts_drop, hn, if_neg h2]
    rfl
  · rw [facts_pending, hn]

theorem events_idle (events : List TimerEvent) (w : World σ × Bool)
    (hp : (facts w.1).pending s = .NONE) :
    facts (events.foldl (timer_input env s) w).1 = facts w.1 :=
  batch_idle env s (P := fun v => facts v = facts w.1)
    (fun v _ hv => (facts_silent (fun _ => rfl) v).trans hv) events w hp rfl

theorem events_fire (events : List TimerEvent) (w : World σ × Bool)
    (hp : (facts w.1).pending s = .INIT) :
    facts (events.foldl (timer_input env s) w).1 =
      if .fired ∈ events then fire s (facts w.1) else facts w.1 := by
  apply batch_handled env s (P := fun v => facts v =
    if .fired ∈ events then fire s (facts w.1) else facts w.1) _ events w
  · intro hfired
    rw [if_pos hfired]
    exact handle_fire env s w.1 hp
  · intro hnone
    rw [if_neg hnone]
  · exact fun v _ hv => (facts_silent (fun _ => rfl) v).trans hv

/-- A batch of timer events fires the timer of the detection at most once. -/
theorem facts_timer (events : List TimerEvent) (w : World σ) (h : Orderly (facts w)) :
    ∃ timer, facts (demo_sensor_process_timer_event env s events w).1 =
      { (if (facts w).timer s = true ∧ .fired ∈ events ∧ (facts w).pending s = .INIT then
          fire s (facts w) else facts w) with timer := timer } := by
  rcases timer_event_cases env s w events with ⟨hrun,hno⟩ | ⟨hstream,hrun⟩
  · rw [hrun, if_neg]
    · exact ⟨_,rfl⟩
    · exact fun hc => hno ⟨hc.1,hc.2.1⟩
  · have htimer : (facts w).timer s = true := hstream
    have hr : facts (events.foldl (timer_input env s) (w,true)).1 =
        if (facts w).timer s = true ∧ .fired ∈ events ∧ (facts w).pending s = .INIT then
          fire s (facts w) else facts w := by
      rcases h.pending s with hp | ⟨hp,-⟩
      · rw [events_idle env s events (w,true) hp, if_neg]
        rintro ⟨-,-,hi⟩
        rw [hp] at hi
        cases hi
      · rw [events_fire env s events (w,true) hp]
        simp only [htimer, hp, true_and, and_true]
    rw [hrun, ← hr]
    simp only
    split_ifs
    · exact facts_clean s _
    · exact ⟨_,rfl⟩

end Timer

section Run
variable (dec : Decoder ι)

/-- A notification of a sensor. The requests to the registry fit their buffers,
and the streams are created. -/
structure Notified (ι : Type) where
  sensor : SensorIdx
  arrived : Arrived ι
  encode : arrived.env.encode_ok = true
  stream : arrived.env.sensor_stream_ok = true

def step [RequestStore σ] (w : World σ) (c : Notified ι) : World σ :=
  (demo_sensor_notify_event dec c.sensor c.arrived w).1

/-- What arrives are well-formed answers, each to a request of the sensor that
has not been answered before. -/
def Admissible (w : World σ) (c : Notified ι) : Prop :=
  (∀ e ∈ c.arrived.registry, WellFormed dec e) ∧
    (delivered c.arrived.registry).Subperm ((facts w).waiting c.sensor)

/-- When the timer of the detection fires on a sensor that is present, the
answers the sensor waits for have arrived with it. -/
def InTime (w : World σ) (c : Notified ι) : Prop :=
  (w.states c.sensor).timer_stream = true ∧ .fired ∈ c.arrived.timer ∧
    (w.states c.sensor).pwrail_pending_state = .INIT ∧
    (w.states c.sensor).hw_is_present = true →
      (delivered c.arrived.registry).Perm ((facts w).waiting c.sensor)

theorem detect_orderly (env : Env) (s : SensorIdx) (w : World σ) (h : Orderly (facts w))
    (ha : Answered (facts w)) (hdue : detection_due s w = true) :
    Orderly (facts (demo_start_hw_detect env s w)) ∧
      Answered (facts (demo_start_hw_detect env s w)) := by
  obtain ⟨p,timer,present,hp,hf⟩ := facts_detect env s w
  have hasked : (facts w).asked s = true := by
    apply h.configured
    rw [detection_due] at hdue
    simp only [Bool.and_eq_true] at hdue
    exact hdue.1.1.1.1
  have hpend : p = .NONE ∨ p = .INIT ∧ (facts w).asked s = true := by
    rcases hp with hp | hp
    · exact .inr ⟨hp,hasked⟩
    · rw [hp]
      exact h.pending s
  have ho := pend_orderly h hpend
  rw [hf]
  exact ⟨⟨ho.count,ho.names,ho.stream,ho.asked,ho.received,ho.configured,ho.pending⟩,
    ha.lost,ha.taken⟩

theorem detect_lost (env : Env) (s : SensorIdx) (w : World σ) :
    (facts (demo_start_hw_detect env s w)).ledger.lost = (facts w).ledger.lost := by
  obtain ⟨p,timer,present,-,hf⟩ := facts_detect env s w
  rw [hf]
  rfl

/-- The world when the timers are looked at. -/
def heard (w : World σ) (c : Notified ι) : World σ :=
  demo_sensor_process_registry_event dec c.arrived.env c.sensor c.arrived.registry
    (demo_sensor_process_suid_event c.arrived.env c.sensor c.arrived.found w)

/-- The two looks before the timers leave their events as they were. -/
theorem heard_advanced (w : World σ) (c : Notified ι) (h : Orderly (facts w))
    (hadm : Admissible dec w c) :
    Orderly (facts (heard dec w c)) ∧ Advanced (facts w) (facts (heard dec w c)) ∧
      ((facts w).pending c.sensor = .INIT → ((facts (heard dec w c)).waiting c.sensor = [] ↔
        (delivered c.arrived.registry).Perm ((facts w).waiting c.sensor))) := by
  obtain ⟨hwf,hsub⟩ := hadm
  let u := demo_sensor_process_suid_event c.arrived.env c.sensor c.arrived.found w
  have hru := registry_advanced dec c.arrived.env c.sensor c.arrived.registry hwf u
  rcases facts_suid c.arrived.env c.sensor c.encode c.stream c.arrived.found w h with hu | ⟨ha,hu⟩
  · rw [show facts u = facts w from hu] at hru
    obtain ⟨ho,had,hw⟩ := hru h hsub
    exact ⟨ho,had,fun _ => hw⟩
  · have hnone : delivered c.arrived.registry = [] := by
      rw [(unasked_idle h ha).2] at hsub
      exact List.subperm_nil.mp hsub
    rw [show facts u = ask c.sensor (facts w) from hu] at hru
    obtain ⟨ho,had,-⟩ := hru (ask_orderly h ha) (by rw [hnone]; exact List.nil_subperm)
    refine ⟨ho,(ask_advanced c.sensor (facts w)).trans had,?_⟩
    intro hp
    rcases h.pending c.sensor with hn | ⟨-,hask⟩
    · rw [hp] at hn
      cases hn
    · rw [ha] at hask
      cases hask

/-- Whether the timer of the detection fires is known before the notification. -/
theorem heard_fires (w : World σ) (c : Notified ι) (had : Advanced (facts w) (facts (heard dec w c))) :
    ((facts (heard dec w c)).timer c.sensor = true ∧ .fired ∈ c.arrived.timer ∧
        (facts (heard dec w c)).pending c.sensor = .INIT) ↔
      ((w.states c.sensor).timer_stream = true ∧ .fired ∈ c.arrived.timer ∧
        (w.states c.sensor).pwrail_pending_state = .INIT) := by
  rw [had.timer, had.pending]
  rfl

variable [RequestStore σ]

/-- The world when the detection is considered. -/
def timed (w : World σ) (c : Notified ι) : World σ :=
  (demo_sensor_process_timer_event c.arrived.env c.sensor c.arrived.timer (heard dec w c)).1

theorem step_eq (w : World σ) (c : Notified ι) : step dec w c =
    if detection_due c.sensor (timed dec w c) then
      demo_start_hw_detect c.arrived.env c.sensor (timed dec w c)
    else timed dec w c := by
  exact apply_ite Prod.fst _ _ _

theorem step_keeps (w : World σ) (c : Notified ι) (h : Orderly (facts (timed dec w c)))
    (ha : Answered (facts (timed dec w c))) :
    Orderly (facts (step dec w c)) ∧ Answered (facts (step dec w c)) := by
  rw [step_eq]
  split_ifs with hdue
  · exact detect_orderly c.arrived.env c.sensor _ h ha hdue
  · exact ⟨h,ha⟩

/-- What the timers lose stays lost. -/
theorem step_lost (w : World σ) (c : Notified ι)
    (hl : (facts (timed dec w c)).ledger.lost = true) : ¬ Answered (facts (step dec w c)) := by
  intro hs
  have hsl := hs.lost
  rw [step_eq] at hsl
  split_ifs at hsl
  · rw [detect_lost, hl] at hsl
    cases hsl
  · rw [hl] at hsl
    cases hsl

/-- A notification loses an answer exactly when it is not in time. -/
theorem step_answered (w : World σ) (c : Notified ι) (h : Orderly (facts w))
    (ha : Answered (facts w)) (hadm : Admissible dec w c) :
    (InTime w c → Orderly (facts (step dec w c)) ∧ Answered (facts (step dec w c))) ∧
      (¬ InTime w c → ¬ Answered (facts (step dec w c))) := by
  obtain ⟨ho,had,hwait⟩ := heard_advanced dec w c h hadm
  have hans := had.answered ha
  have hfires := heard_fires dec w c had
  obtain ⟨timer,hr⟩ := facts_timer c.arrived.env c.sensor c.arrived.timer (heard dec w c) ho
  have ht : facts (timed dec w c) = _ := hr
  have hpresent : (facts (heard dec w c)).present c.sensor = (w.states c.sensor).hw_is_present := by
    rw [had.present]
    rfl
  by_cases hf : (facts (heard dec w c)).timer c.sensor = true ∧ .fired ∈ c.arrived.timer ∧
      (facts (heard dec w c)).pending c.sensor = .INIT
  · rw [if_pos hf] at ht
    obtain ⟨hts,hin,hp⟩ := hfires.mp hf
    have hw := hwait hp
    constructor
    · intro hit
      obtain ⟨hfo,hfa⟩ := fire_answered ho hans hf.2.2 (fun hpr =>
        hw.mpr (hit ⟨hts,hin,hp,hpresent ▸ hpr⟩))
      apply step_keeps
      · rw [ht]
        exact ⟨hfo.count,hfo.names,hfo.stream,hfo.asked,hfo.received,hfo.configured,hfo.pending⟩
      · rw [ht]
        exact ⟨hfa.lost,hfa.taken⟩
    · intro hit
      simp only [InTime, Classical.not_imp] at hit
      obtain ⟨⟨-,-,-,hpr⟩,hno⟩ := hit
      apply step_lost
      rw [ht]
      exact fire_lost ho (hpresent.trans hpr) (fun h0 => hno (hw.mp h0))
  · rw [if_neg hf] at ht
    constructor
    · intro _
      apply step_keeps
      · rw [ht]
        exact ⟨ho.count,ho.names,ho.stream,ho.asked,ho.received,ho.configured,ho.pending⟩
      · rw [ht]
        exact ⟨hans.lost,hans.taken⟩
    · intro hit
      exact absurd (fun hc => absurd (hfires.mpr ⟨hc.1,hc.2.1,hc.2.2.1⟩) hf) hit

/-- In every run of notifications in which the registry answers every request
once, no stream is removed before its answers are in and every available
sensor has its groups, exactly when the timer of the detection never fires
ahead of an answer. -/
theorem answers_taken_in (w : World σ) (cs : List (Notified ι)) (h : Orderly (facts w))
    (ha : Answered (facts w)) (hadm : Along (step dec) (Admissible dec) w cs) :
    Always (step dec) (fun v => Answered (facts v)) w cs ↔ Along (step dec) InTime w cs := by
  refine always_iff_along_of (fun v => Orderly (facts v)) (fun v => Answered (facts v)) ?_ ?_ w cs
    h ha hadm
  · intro v c ho hv hc hs
    obtain ⟨hin,hno⟩ := step_answered dec v c ho hv hc
    by_cases hit : InTime v c
    · exact (hin hit).1
    · exact absurd hs (hno hit)
  · intro v c ho hv hc
    obtain ⟨hin,hno⟩ := step_answered dec v c ho hv hc
    exact ⟨fun hs => by_contra (fun hit => hno hit hs),fun hit => (hin hit).2⟩

end Run

theorem boot_answered (hw_idx : Fin 2) (scale_factor : SensorIdx → ℚ) :
    Orderly (facts (boot σ hw_idx scale_factor)) ∧ Answered (facts (boot σ hw_idx scale_factor)) := by
  refine ⟨⟨rfl,fun _ => List.nil_subperm,fun _ h => absurd rfl h,fun _ h => ?_,fun _ h => ?_,
    fun _ h => ?_,fun _ => .inl rfl⟩,rfl,fun _ h => ?_⟩
  all_goals cases h

def exampleArrived (found : Option Suid) (gs : List Group) (timer : List TimerEvent) :
    Arrived Unit :=
  ⟨workingEnv 0 0,fun _ => found,gs.map (fun g => ⟨true,true,demo_registry_cfg chip0 g,()⟩),timer⟩

/-- The ids arrive, then half of the answers, then the timer. -/
def exampleRun : List (Notified Unit) :=
  [⟨.ACC,exampleArrived (some [1]) [] [],rfl,rfl⟩,
   ⟨.ACC,exampleArrived none
      [.REG_PLATFORM_CONFIG,.REG_PLATFORM_PLACEMENT,.REG_CONFIG_ACCEL] [],rfl,rfl⟩,
   ⟨.ACC,exampleArrived none [] [.fired],rfl,rfl⟩]

theorem example_wellFormed (gs : List Group) :
    ∀ e ∈ gs.map (fun g => (⟨true,true,demo_registry_cfg chip0 g,()⟩ : RegistryEvent Unit)),
      WellFormed RegistryOrder.exampleDecoder e := by
  intro e he _
  obtain ⟨g,-,rfl⟩ := List.mem_map.mp he
  exact ⟨rfl,rfl⟩

theorem exampleRun_admissible :
    Along (step RegistryOrder.exampleDecoder) (Admissible RegistryOrder.exampleDecoder)
      boot0 exampleRun := by
  exact ⟨⟨example_wellFormed _,by decide +kernel⟩,⟨example_wellFormed _,by decide +kernel⟩,
    ⟨example_wellFormed _,by decide +kernel⟩,trivial⟩

theorem answers_taken_in_half :
    Always (step RegistryOrder.exampleDecoder) (fun v => Answered (facts v))
      boot0 (exampleRun.take 2) :=
  (answers_taken_in RegistryOrder.exampleDecoder boot0
    (exampleRun.take 2) (boot_answered chip0 _).1 (boot_answered chip0 _).2
    ⟨exampleRun_admissible.1,exampleRun_admissible.2.1,trivial⟩).mpr
    ⟨fun h => absurd h.1 (by decide +kernel),fun h => absurd h.1 (by decide +kernel),trivial⟩

/-- The timer removes the stream while the calibration is still to come. -/
theorem calibration_lost :
    Along (step RegistryOrder.exampleDecoder) (Admissible RegistryOrder.exampleDecoder)
        boot0 exampleRun ∧
      ¬ Always (step RegistryOrder.exampleDecoder) (fun v => Answered (facts v))
        boot0 exampleRun := by
  constructor
  · exact exampleRun_admissible
  · intro h
    have hlost : (facts (run (step RegistryOrder.exampleDecoder)
        boot0 exampleRun)).ledger.lost = true := by decide +kernel
    exact absurd (hlost.symm.trans (always_last h).lost) (by decide)

end BaseDrivers.RegistryAnswers
