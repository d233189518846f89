import Mathlib.Data.List.Induction
import Mathlib.Tactic.SplitIfs
import BaseDrivers.Execution
import BaseDrivers.DemoRegistry

/-!
# Looking up the services

A sensor looks for four services. What it knows only grows, by whatever an
event brings, and everything else about the lookup is a function of it: the
ids it holds, whether the lookup still runs, whether it has a stream to the
registry, and what it has asked there.
-/

set_option autoImplicit false

namespace BaseDrivers.SuidLookup
open BaseDrivers.Execution BaseDrivers.DemoCommon BaseDrivers.DemoInstance BaseDrivers.DemoSensor
open BaseDrivers.DemoRegistry

abbrev Known := DataType → Option Suid

/-- What is known with the ids an event brings. -/
def learn (known found : Known) : Known := fun t => (known t).orElse fun _ => found t

/-- All four ids are known. -/
def full (known : Known) : Bool := Lookup.complete ⟨false,known⟩

/-- The lookup of a sensor that knows `known`. -/
structure Looking (known : Known) (d : DemoState) : Prop where
  suid : d.suid = known
  found : d.suid_lookup_data.found = known
  running : d.suid_lookup_data.suid_stream = !full known
  stream : d.registry_stream = (known .registry).isSome

theorem lookup_get_eq (t : DataType) (d : DemoState) : lookup_get t d =
    { d with suid := fun u => if u = t then
        (d.suid t).orElse fun _ => d.suid_lookup_data.found t
      else d.suid u } := by
  rw [lookup_get]
  cases hd : d.suid t with
  | none => rfl
  | some id =>
    have hsame : d.suid = fun u => if u = t then some id else d.suid u := by
      ext1 u
      split_ifs with hu
      · rw [hu, hd]
      · rfl
    rw [if_neg (by simp)]
    show d = { d with suid := fun u => if u = t then some id else d.suid u }
    rw [← hsame]

/-- The lookup is complete when all ids are known. -/
theorem Looking.complete {known : Known} {d : DemoState} (h : Looking known d) :
    d.suid_lookup_data.complete = full known := by
  rw [full, ← h.found]
  rfl

theorem Looking.runs {known : Known} {d : DemoState} (h : Looking known d)
    (hopen : full known = false) : d.suid_lookup_data.suid_stream = true := by
  rw [h.running, hopen]
  rfl

section Call
variable {σ : Type} (env : Env) (s : SensorIdx) (found : Known) (w : World σ)

/-- The answers are in. -/
def learned : World σ :=
  w.setState s { w.states s with suid_lookup_data :=
    { (w.states s).suid_lookup_data with
      found := learn (w.states s).suid_lookup_data.found found } }

theorem learned_state : (learned s found w).states s = { w.states s with suid_lookup_data :=
    { (w.states s).suid_lookup_data with
      found := learn (w.states s).suid_lookup_data.found found } } := if_pos rfl

/-- The id of the registry is taken over. -/
def looked : World σ :=
  (learned s found w).setState s (lookup_get .registry ((learned s found w).states s))

/-- The batch is sent when the registry was not known before. -/
def batched : World σ :=
  if !(((learned s found w).states s).suid .registry).isSome &&
      (((looked s found w).states s).suid .registry).isSome then
    demo_sensor_send_registry_request env s (looked s found w)
  else looked s found w

/-- The other ids are taken over, and a complete lookup is torn down. -/
def concluded : World σ :=
  let w := w.setState s
    (lookup_get .async_com_port (lookup_get .interrupt (lookup_get .timer (w.states s))))
  if (w.states s).suid_lookup_data.complete then
    (w.note (.lookup_deinit s)).setState s { w.states s with suid_lookup_data.suid_stream := false }
  else w

theorem process_open (hrun : (w.states s).suid_lookup_data.suid_stream = true)
    (hopen : (w.states s).suid_lookup_data.complete = false) :
    demo_sensor_process_suid_event env s found w = concluded s (batched env s found w) := by
  rw [demo_sensor_process_suid_event, hrun, hopen]
  rfl

theorem process_closed (hrun : (w.states s).suid_lookup_data.suid_stream = false) :
    demo_sensor_process_suid_event env s found w = w := by
  rw [demo_sensor_process_suid_event, hrun]
  rfl

/-- The requests of a batch. -/
def batchNotes (hw_idx : Fin 2) (gs : List Group) : List Note :=
  if env.encode_ok then
    gs.map (fun g => .registry_read s (demo_registry_cfg hw_idx g) env.send_ok)
  else []

theorem sends_spec (gs : List Group) :
    (gs.foldl (send_registry_request env s) w).hw_idx = w.hw_idx ∧
    (gs.foldl (send_registry_request env s) w).states = w.states ∧
    (gs.foldl (send_registry_request env s) w).log = w.log++batchNotes env s w.hw_idx gs := by
  induction gs generalizing w with
  | nil => exact ⟨rfl,rfl,by rw [batchNotes]; split_ifs <;> simp⟩
  | cons g gs ih =>
    obtain ⟨hx,hs,hl⟩ := ih (send_registry_request env s w g)
    rw [List.foldl_cons, hx, hs, hl]
    by_cases henc : env.encode_ok = true
    · simp [send_registry_request, batchNotes, henc, World.note]
    · simp [send_registry_request, batchNotes, henc]

/-- The first batch opens the stream to the registry. -/
theorem send_spec (hno : (w.states s).registry_stream = false)
    (hok : env.sensor_stream_ok = true) :
    (demo_sensor_send_registry_request env s w).hw_idx = w.hw_idx ∧
    (demo_sensor_send_registry_request env s w).states =
      (w.setState s { w.states s with registry_stream := true }).states ∧
    (demo_sensor_send_registry_request env s w).log =
      w.log++(.create_registry_stream s)::batchNotes env s w.hw_idx (groups s) := by
  have hsend : demo_sensor_send_registry_request env s w =
      (groups s).foldl (send_registry_request env s) ((w.note (.create_registry_stream s)).setState
        s { w.states s with registry_stream := true }) := by
    rw [demo_sensor_send_registry_request, if_neg (by simp [hno]), if_pos hok]
  obtain ⟨hx,hs,hl⟩ := sends_spec env s ((w.note (.create_registry_stream s)).setState s
    { w.states s with registry_stream := true }) (groups s)
  rw [hsend, hx, hs, hl]
  exact ⟨rfl,rfl,List.append_assoc _ _ _⟩

theorem learn_known (known found : Known) (t : DataType) :
    ((known t).orElse fun _ => learn known found t) = learn known found t := by
  rw [learn]
  cases known t <;> rfl

theorem learn_isSome (known found : Known) (t : DataType) (h : (known t).isSome = true) :
    (learn known found t).isSome = true := by
  rw [learn]
  cases hk : known t with
  | none =>
    rw [hk] at h
    cases h
  | some id => rfl

/-- The state of the sensor once the registry was looked up and asked. -/
def askedState (known' : Known) (d : DemoState) : DemoState :=
  { d with
    suid := fun t => if t = .registry then known' .registry else d.suid t
    suid_lookup_data := { d.suid_lookup_data with found := known' }
    registry_stream := (known' .registry).isSome }

/-- What the call notes before the other ids are taken over. -/
def asking (known known' : Known) : List Note :=
  if !(known .registry).isSome && (known' .registry).isSome then
    (.create_registry_stream s)::batchNotes env s w.hw_idx (groups s)
  else []

/-- What a running lookup notes in one call. -/
def added (known known' : Known) : List Note :=
  asking env s w known known'++if full known' then [.lookup_deinit s] else []

variable {known : Known}

theorem looked_state (h : Looking known (w.states s)) :
    (looked s found w).states s = { w.states s with
      suid := fun t => if t = .registry then learn known found .registry
        else (w.states s).suid t
      suid_lookup_data :=
        { (w.states s).suid_lookup_data with found := learn known found } } := by
  have hget : (looked s found w).states s = lookup_get .registry ((learned s found w).states s) :=
    if_pos rfl
  rw [hget, lookup_get_eq, learned_state, h.found]
  simp only [h.suid, learn_known]

theorem batched_spec (h : Looking known (w.states s)) (hok : env.sensor_stream_ok = true) :
    (batched env s found w).hw_idx = w.hw_idx ∧
    (batched env s found w).states =
      (w.setState s (askedState (learn known found) (w.states s))).states ∧
    (batched env s found w).log = w.log++asking env s w known (learn known found) := by
  have hlooked := looked_state s found w h
  have hothers : ∀ t, t ≠ s → (looked s found w).states t = w.states t :=
    fun t ht => (if_neg ht).trans (if_neg ht)
  have hknown : ((learned s found w).states s).suid .registry = known .registry := by
    rw [learned_state, ← h.suid]
  have hfound : ((looked s found w).states s).suid .registry = learn known found .registry := by
    rw [hlooked]
    rfl
  have hstream : ((looked s found w).states s).registry_stream = (known .registry).isSome := by
    rw [hlooked, ← h.stream]
  rw [batched, asking, hknown, hfound]
  cases hc : !(known .registry).isSome && (learn known found .registry).isSome with
  | true =>
    rw [Bool.and_eq_true, Bool.not_eq_true'] at hc
    obtain ⟨hx,hst,hl⟩ := send_spec env s (looked s found w) (hstream.trans hc.1) hok
    rw [if_pos rfl, if_pos rfl, hx, hst, hl]
    refine ⟨rfl,?_,rfl⟩
    ext1 t
    by_cases ht : t = s
    · rw [ht, World.setState, World.setState, hlooked]
      simp only [if_true, askedState, hc.2]
    · exact (if_neg ht).trans ((hothers t ht).trans (if_neg ht).symm)
  | false =>
    have hsame : (known .registry).isSome = (learn known found .registry).isSome := by
      cases hk : (known .registry).isSome with
      | true => exact (learn_isSome known found .registry hk).symm
      | false =>
        rw [hk] at hc
        exact hc.symm
    rw [if_neg Bool.false_ne_true, if_neg Bool.false_ne_true]
    refine ⟨rfl,?_,(List.append_nil _).symm⟩
    ext1 t
    by_cases ht : t = s
    · rw [ht, hlooked, World.setState]
      simp only [if_true, askedState, ← hsame, ← h.stream]
    · exact (hothers t ht).trans (if_neg ht).symm

/-- A call of a running lookup: what is known grows by what was found, the
batch is sent when the registry gets known, and the lookup is torn down when
nothing is missing. -/
theorem process_learns (h : Looking known (w.states s)) (hfull : full known = false)
    (hok : env.sensor_stream_ok = true) :
    (demo_sensor_process_suid_event env s found w).hw_idx = w.hw_idx ∧
    (∀ t, t ≠ s → (demo_sensor_process_suid_event env s found w).states t = w.states t) ∧
    Looking (learn known found) ((demo_sensor_process_suid_event env s found w).states s) ∧
    (demo_sensor_process_suid_event env s found w).log =
      w.log++added env s w known (learn known found) := by
  obtain ⟨hx,hst,hl⟩ := batched_spec env s found w h hok
  let v := batched env s found w
  let u := v.setState s
    (lookup_get .async_com_port (lookup_get .interrupt (lookup_get .timer (v.states s))))
  have hvs : v.states s = askedState (learn known found) (w.states s) :=
    (congrFun hst s).trans (if_pos rfl)
  have hus : u.states s = { askedState (learn known found) (w.states s) with
      suid := learn known found } := by
    have hget : u.states s = lookup_get .async_com_port (lookup_get .interrupt
      (lookup_get .timer (v.states s))) := if_pos rfl
    rw [hget, hvs]
    simp only [lookup_get_eq, askedState, h.suid]
    congr 1
    ext1 t
    cases t <;> first | rfl | exact learn_known known found _
  have hothers : ∀ t, t ≠ s → u.states t = w.states t := by
    intro t ht
    have hv : v.states t = w.states t := (congrFun hst t).trans (if_neg ht)
    exact (if_neg ht).trans hv
  have hcomplete : (u.states s).suid_lookup_data.complete = full (learn known found) := by
    rw [hus]
    rfl
  rw [process_open env s found w (h.runs hfull) (h.complete.trans hfull)]
  show (if (u.states s).suid_lookup_data.complete then _ else u : World σ).hw_idx = _ ∧
    (∀ t, t ≠ s → (if (u.states s).suid_lookup_data.complete then _ else u : World σ).states t =
      w.states t) ∧
    Looking (learn known found)
      ((if (u.states s).suid_lookup_data.complete then _ else u : World σ).states s) ∧
    (if (u.states s).suid_lookup_data.complete then _ else u : World σ).log = _
  rw [hcomplete, added, ← List.append_assoc, ← hl]
  cases hdone : full (learn known found) with
  | true =>
    rw [if_pos rfl, if_pos rfl]
    refine ⟨hx,fun t ht => (if_neg ht).trans (hothers t ht),?_,?_⟩
    · have hstate : ((u.note (.lookup_deinit s)).setState s
          { u.states s with suid_lookup_data.suid_stream := false }).states s =
          { u.states s with suid_lookup_data.suid_stream := false } := if_pos rfl
      rw [hstate, hus]
      exact ⟨rfl,rfl,by rw [hdone]; rfl,rfl⟩
    · rfl
  | false =>
    rw [if_neg Bool.false_ne_true, if_neg Bool.false_ne_true, List.append_nil]
    refine ⟨hx,hothers,?_,rfl⟩
    rw [hus]
    exact ⟨rfl,rfl,by rw [hdone]; exact h.runs hfull,rfl⟩

end Call

section Log
variable (s : SensorIdx)

def askedName : Note → Option (List UInt8)
  | .registry_read t g _ => if t = s then some g else none
  | _ => none

/-- The groups the sensor asked the registry for, in order. -/
def reads (log : List Note) : List (List UInt8) := log.filterMap (askedName s)

/-- How often its stream to the registry was opened. -/
def opened (log : List Note) : ℕ := log.count (.create_registry_stream s)

/-- How often its lookup was torn down. -/
def deinits (log : List Note) : ℕ := log.count (.lookup_deinit s)

/-- The groups a sensor asks for where its requests can be encoded. -/
def batch (env : Env) (hw_idx : Fin 2) : List (List UInt8) :=
  if env.encode_ok then (groups s).map (demo_registry_cfg hw_idx) else []

variable (env : Env) (hw_idx : Fin 2) (gs : List Group) (t : SensorIdx)

theorem batchNotes_reads : reads t (batchNotes env s hw_idx gs) =
    if t = s then (if env.encode_ok then gs.map (demo_registry_cfg hw_idx) else []) else [] := by
  by_cases henc : env.encode_ok = true
  · by_cases ht : t = s
    · simp [reads, batchNotes, askedName, henc, ht, List.filterMap_map, Function.comp_def]
    · simp [reads, batchNotes, askedName, henc, ht, Ne.symm ht, List.filterMap_map,
        Function.comp_def]
  · simp [reads, batchNotes, henc]

theorem batchNotes_count (n : Note) (hn : ∀ g accepted, n ≠ .registry_read s g accepted) :
    (batchNotes env s hw_idx gs).count n = 0 := by
  apply List.count_eq_zero.mpr
  intro hmem
  rw [batchNotes] at hmem
  split_ifs at hmem
  · obtain ⟨g,-,rfl⟩ := List.mem_map.mp hmem
    exact hn _ _ rfl
  · cases hmem

variable {σ : Type} (w : World σ) (known known' : Known)

theorem added_reads : reads s (added env s w known known') =
    if !(known .registry).isSome && (known' .registry).isSome then batch s env w.hw_idx
    else [] := by
  have hend : reads s (if full known' then [.lookup_deinit s] else []) = [] := by
    split_ifs <;> rfl
  rw [added, reads, List.filterMap_append, ← reads, ← reads, hend, List.append_nil, asking]
  split_ifs with h
  · have hread := batchNotes_reads s env w.hw_idx (groups s) s
    rw [if_pos rfl, ← batch] at hread
    exact hread
  · rfl

theorem added_opened : opened s (added env s w known known') =
    if !(known .registry).isSome && (known' .registry).isSome then 1 else 0 := by
  have hend : opened s (if full known' then [.lookup_deinit s] else []) = 0 := by
    split_ifs <;> simp [opened]
  rw [added, opened, List.count_append, ← opened, ← opened, hend, Nat.add_zero, asking]
  split_ifs with h
  · rw [opened, List.count_cons_self, batchNotes_count]
    exact fun _ _ h => Note.noConfusion h
  · rfl

theorem added_deinits : deinits s (added env s w known known') =
    if full known' then 1 else 0 := by
  have hasking : deinits s (asking env s w known known') = 0 := by
    rw [asking]
    split_ifs with h
    · rw [deinits, List.count_cons_of_ne (by simp), batchNotes_count]
      exact fun _ _ h => Note.noConfusion h
    · rfl
  rw [added, deinits, List.count_append, ← deinits, ← deinits, hasking, Nat.zero_add]
  split_ifs <;> simp [deinits]

/-- The notes of one sensor are not those of another. -/
theorem added_other (ht : t ≠ s) : reads t (added env s w known known') = [] ∧
    opened t (added env s w known known') = 0 ∧ deinits t (added env s w known known') = 0 := by
  have hmem : ∀ n ∈ added env s w known known', n = .create_registry_stream s ∨
      n = .lookup_deinit s ∨ ∃ g accepted, n = .registry_read s g accepted := by
    intro n hn
    rw [added, asking, batchNotes] at hn
    split_ifs at hn <;> simp at hn <;> grind
  refine ⟨List.filterMap_eq_nil_iff.mpr ?_,List.count_eq_zero.mpr ?_,List.count_eq_zero.mpr ?_⟩
  · intro n hn
    obtain rfl | rfl | ⟨g,accepted,rfl⟩ := hmem n hn
    · rfl
    · rfl
    · exact if_neg (Ne.symm ht)
  · intro hn
    have := hmem _ hn
    simp [ht] at this
  · intro hn
    have := hmem _ hn
    simp [ht] at this

end Log

/-- A call for one sensor: the surroundings and the ids which have become
known to it since the last one. -/
structure Call where
  env : Env
  sensor : SensorIdx
  found : Known

section Runs
variable {σ : Type}

def step (w : World σ) (c : Call) : World σ :=
  demo_sensor_process_suid_event c.env c.sensor c.found w

/-- What a sensor was told by its calls. -/
def knownBy (s : SensorIdx) (es : List Call) : Known :=
  es.foldl (fun known c => if c.sensor = s then learn known c.found else known) fun _ => none

/-- The call that brings a sensor the id of the registry. -/
def asker (s : SensorIdx) (es : List Call) : Option Call :=
  es.find? fun c => c.sensor = s && (c.found .registry).isSome

/-- The batch that call has to send. -/
def due (s : SensorIdx) (hw_idx : Fin 2) (es : List Call) : List (List UInt8) :=
  match asker s es with
  | some c => batch s c.env hw_idx
  | none => []

section Told
variable {s : SensorIdx} {es : List Call} {c : Call}

theorem knownBy_own (h : c.sensor = s) :
    knownBy s (es++[c]) = learn (knownBy s es) c.found := by
  rw [knownBy, List.foldl_append, ← knownBy]
  exact if_pos h

theorem knownBy_other (h : c.sensor ≠ s) : knownBy s (es++[c]) = knownBy s es := by
  rw [knownBy, List.foldl_append, ← knownBy]
  exact if_neg h

theorem asker_other (h : c.sensor ≠ s) : asker s (es++[c]) = asker s es := by
  simp [asker, List.find?_append, h]

theorem asker_late (h : (asker s es).isSome = true) : asker s (es++[c]) = asker s es := by
  rw [asker, List.find?_append, ← asker]
  exact Option.or_of_isSome h

theorem asker_own (h : (asker s es).isSome = false) (hs : c.sensor = s) :
    asker s (es++[c]) = if (c.found .registry).isSome then some c else none := by
  rw [asker, List.find?_append, ← asker, Option.isSome_eq_false_iff.mp h |> Option.isNone_iff_eq_none.mp]
  simp [List.find?_cons, hs]
  cases (c.found .registry).isSome <;> rfl

theorem learn_some (known found : Known) (t : DataType) :
    (learn known found t).isSome = ((known t).isSome || (found t).isSome) := by
  rw [learn]
  cases known t <;> rfl

/-- The registry is known as soon as a call has brought its id. -/
theorem knownBy_asker (s : SensorIdx) (es : List Call) :
    (knownBy s es .registry).isSome = (asker s es).isSome := by
  induction es using List.reverseRecOn with
  | nil => rfl
  | append_singleton es c ih =>
    by_cases hs : c.sensor = s
    · rw [knownBy_own hs, learn_some, ih]
      cases ha : (asker s es).isSome with
      | true => rw [asker_late ha, ha, Bool.true_or]
      | false =>
        rw [asker_own ha hs]
        cases (c.found .registry).isSome <;> rfl
    · rw [knownBy_other hs, asker_other hs, ih]

theorem full_iff (known : Known) : full known = true ↔ ∀ t, (known t).isSome = true := by
  rw [full, Lookup.complete]
  constructor
  · intro h t
    simp only [Bool.and_eq_true] at h
    cases t with
    | timer => exact h.1.1.1
    | interrupt => exact h.1.1.2
    | async_com_port => exact h.1.2
    | registry => exact h.2
  · intro h
    simp only [h, Bool.and_self]

/-- Where everything is known there is nothing to learn. -/
theorem learn_full {known : Known} (h : full known = true) (found : Known) :
    learn known found = known := by
  ext1 t
  obtain ⟨id,hid⟩ := Option.isSome_iff_exists.mp ((full_iff known).mp h t)
  rw [learn, hid]
  rfl

end Told

/-- Where a sensor stands after the calls `es`. -/
structure Served (es : List Call) (w : World σ) (s : SensorIdx) : Prop where
  looking : Looking (knownBy s es) (w.states s)
  torn : deinits s w.log = if full (knownBy s es) then 1 else 0
  asked : reads s w.log = due s w.hw_idx es
  opened : opened s w.log = if (asker s es).isSome then 1 else 0

theorem reads_append (s : SensorIdx) (l m : List Note) :
    reads s (l++m) = reads s l++reads s m := List.filterMap_append

theorem opened_append (s : SensorIdx) (l m : List Note) :
    opened s (l++m) = opened s l+opened s m := List.count_append

theorem deinits_append (s : SensorIdx) (l m : List Note) :
    deinits s (l++m) = deinits s l+deinits s m := List.count_append

/-- A call for a sensor whose lookup still runs. -/
theorem served_open {es : List Call} {w : World σ} {c : Call}
    (hok : c.env.sensor_stream_ok = true) (h : Served es w c.sensor)
    (hopen : full (knownBy c.sensor es) = false) : Served (es++[c]) (step w c) c.sensor := by
  obtain ⟨hx,-,hlooking,hlog⟩ := process_learns c.env c.sensor c.found w h.looking hopen hok
  have hknown : knownBy c.sensor (es++[c]) = learn (knownBy c.sensor es) c.found := knownBy_own rfl
  have htorn : deinits c.sensor w.log = 0 := by
    rw [h.torn, hopen]
    rfl
  have hnew : (learn (knownBy c.sensor es) c.found .registry).isSome =
      (asker c.sensor (es++[c])).isSome := by
    rw [← hknown]
    exact knownBy_asker c.sensor (es++[c])
  have hold := knownBy_asker c.sensor es
  constructor
  · rw [hknown]
    exact hlooking
  · rw [hknown, step, hlog, deinits_append, added_deinits, htorn, Nat.zero_add]
  · rw [step, hlog, hx, reads_append, added_reads, h.asked, hold, hnew, due, due]
    cases ha : (asker c.sensor es).isSome with
    | true => rw [asker_late ha, Bool.not_true, Bool.false_and, if_neg Bool.false_ne_true,
        List.append_nil]
    | false =>
      rw [Option.isNone_iff_eq_none.mp (Option.isSome_eq_false_iff.mp ha), asker_own ha rfl]
      cases (c.found .registry).isSome <;> rfl
  · rw [step, hlog, opened_append, added_opened, h.opened, hold, hnew]
    cases ha : (asker c.sensor es).isSome with
    | true => rw [asker_late ha, ha]; rfl
    | false => cases (asker c.sensor (es++[c])).isSome <;> rfl

/-- A call for another sensor. -/
theorem served_other {es : List Call} {w : World σ} {c : Call} {t : SensorIdx}
    (hok : c.env.sensor_stream_ok = true) (h : Served es w t) (ht : t ≠ c.sensor)
    (hlooking : Looking (knownBy c.sensor es) (w.states c.sensor))
    (hopen : full (knownBy c.sensor es) = false) : Served (es++[c]) (step w c) t := by
  obtain ⟨hx,hothers,-,hlog⟩ := process_learns c.env c.sensor c.found w hlooking hopen hok
  obtain ⟨hreads,hopened,hdeinits⟩ := added_other c.sensor c.env t w (knownBy c.sensor es)
    (learn (knownBy c.sensor es) c.found) ht
  have hknown : knownBy t (es++[c]) = knownBy t es := knownBy_other ht.symm
  have hasker : asker t (es++[c]) = asker t es := asker_other ht.symm
  constructor
  · rw [hknown, step, hothers t ht]
    exact h.looking
  · rw [hknown, step, hlog, deinits_append, hdeinits, Nat.add_zero, h.torn]
  · rw [due, hasker, step, hlog, reads_append, hreads, List.append_nil, hx, h.asked, due]
  · rw [hasker, step, hlog, opened_append, hopened, Nat.add_zero, h.opened]

/-- Where the lookup is over the call does nothing. -/
theorem step_closed {w : World σ} {c : Call} {known : Known}
    (h : Looking known (w.states c.sensor)) (hfull : full known = true) : step w c = w := by
  apply process_closed
  rw [h.running, hfull]
  rfl

/-- It brings nothing new either. -/
theorem served_closed {es : List Call} {w : World σ} {c : Call} (h : ∀ s, Served es w s)
    (hfull : full (knownBy c.sensor es) = true) (s : SensorIdx) : Served (es++[c]) w s := by
  have hknown : knownBy s (es++[c]) = knownBy s es := by
    by_cases hs : c.sensor = s
    · rw [knownBy_own hs, learn_full (hs ▸ hfull)]
    · exact knownBy_other hs
  have hasker : asker s (es++[c]) = asker s es := by
    by_cases hs : c.sensor = s
    · apply asker_late
      rw [← knownBy_asker]
      exact (full_iff _).mp (hs ▸ hfull) .registry
    · exact asker_other hs
  obtain ⟨hlooking,htorn,hasked,hopened⟩ := h s
  constructor
  · rwa [hknown]
  · rwa [hknown]
  · rwa [due, hasker, ← due]
  · rwa [hasker]

theorem served_step {es : List Call} {w : World σ} {c : Call} (h : ∀ s, Served es w s)
    (hok : c.env.sensor_stream_ok = true) : ∀ s, Served (es++[c]) (step w c) s := by
  intro s
  have hc := h c.sensor
  cases hfull : full (knownBy c.sensor es) with
  | true =>
    rw [step_closed hc.looking hfull]
    exact served_closed h hfull s
  | false =>
    by_cases hs : s = c.sensor
    · rw [hs]
      exact served_open hok hc hfull
    · exact served_other hok (h s) hs hc.looking hfull

theorem served_boot (hw_idx : Fin 2) (scale_factor : SensorIdx → ℚ) (s : SensorIdx) :
    Served [] (boot σ hw_idx scale_factor) s := ⟨⟨rfl,rfl,rfl,rfl⟩,rfl,rfl,rfl⟩

theorem run_served (hw_idx : Fin 2) (scale_factor : SensorIdx → ℚ) (es : List Call)
    (hok : ∀ c ∈ es, c.env.sensor_stream_ok = true) :
    ∀ s, Served es (run step (boot σ hw_idx scale_factor) es) s := by
  induction es using List.reverseRecOn with
  | nil => exact served_boot hw_idx scale_factor
  | append_singleton es c ih =>
    obtain ⟨hes,hc⟩ := List.forall_mem_append.mp hok
    rw [run_append]
    exact served_step (ih hes) (hc c List.mem_cons_self)

/-- A sensor holds the ids its calls have brought. It has sent its batch once,
by the call that brought the id of the registry, and nothing before; its lookup
is torn down once, with the last of the four ids, and from then on calls change
nothing. -/
structure Settled (es : List Call) (w : World σ) (s : SensorIdx) : Prop where
  suid : (w.states s).suid = knownBy s es
  asked : reads s w.log = due s w.hw_idx es
  opened : opened s w.log = if (asker s es).isSome then 1 else 0
  looked : (w.states s).suid_lookup_data.found = knownBy s es
  running : (∃ t, knownBy s es t = none) →
    (w.states s).suid_lookup_data.suid_stream = true ∧ deinits s w.log = 0
  complete : (∀ t, (knownBy s es t).isSome = true) →
    (w.states s).suid_lookup_data.suid_stream = false ∧ deinits s w.log = 1 ∧
    (∀ t, ((w.states s).suid t).isSome = true) ∧
    ∀ env found, demo_sensor_process_suid_event env s found w = w

theorem served_settled {es : List Call} {w : World σ} {s : SensorIdx} (h : Served es w s) :
    Settled es w s := by
  have hfull := full_iff (knownBy s es)
  refine ⟨h.looking.suid,h.asked,h.opened,h.looking.found,?_,fun hall => ?_⟩
  · rintro ⟨t,ht⟩
    have hopen : full (knownBy s es) = false := by
      by_contra hne
      have hsome := hfull.mp (Bool.not_eq_false _ ▸ hne) t
      rw [ht] at hsome
      cases hsome
    rw [h.torn, hopen]
    exact ⟨h.looking.runs hopen,rfl⟩
  · have hdone := hfull.mpr hall
    rw [h.looking.running, h.torn, h.looking.suid, hdone]
    exact ⟨rfl,rfl,hall,fun env found => step_closed (c := ⟨env,s,found⟩) h.looking hdone⟩

/-- A call that adds requests has sent them once the id of the registry was
taken over. -/
def AsksKnown (w : World σ) (c : Call) : Prop :=
  reads c.sensor (step w c).log ≠ reads c.sensor w.log →
    step w c = concluded c.sensor
      (demo_sensor_send_registry_request c.env c.sensor (looked c.sensor c.found w)) ∧
    (((looked c.sensor c.found w).states c.sensor).suid .registry).isSome = true

theorem served_asks {es : List Call} {w : World σ} {c : Call} (h : Served es w c.sensor)
    (hok : c.env.sensor_stream_ok = true) : AsksKnown w c := by
  intro hreads
  cases hfull : full (knownBy c.sensor es) with
  | true =>
    rw [step_closed h.looking hfull] at hreads
    exact (hreads rfl).elim
  | false =>
    obtain ⟨-,-,-,hlog⟩ := process_learns c.env c.sensor c.found w h.looking hfull hok
    have hlearned : ((learned c.sensor c.found w).states c.sensor).suid = knownBy c.sensor es := by
      rw [learned_state, ← h.looking.suid]
    have hlooked : ((looked c.sensor c.found w).states c.sensor).suid .registry =
        learn (knownBy c.sensor es) c.found .registry := by
      rw [looked_state c.sensor c.found w h.looking]
      rfl
    have hfresh : (!(knownBy c.sensor es .registry).isSome &&
        (learn (knownBy c.sensor es) c.found .registry).isSome) = true := by
      by_contra hno
      apply hreads
      rw [step, hlog, reads_append, added_reads, if_neg hno, List.append_nil]
    have hbatched : batched c.env c.sensor c.found w =
        demo_sensor_send_registry_request c.env c.sensor (looked c.sensor c.found w) := by
      rw [batched, hlearned, hlooked, if_pos hfresh]
    constructor
    · rw [step, process_open c.env c.sensor c.found w (h.looking.runs hfull)
        (h.looking.complete.trans hfull), hbatched]
    · rw [hlooked]
      exact (Bool.and_eq_true_iff.mp hfresh).2

/-- In whatever order and groups the ids become known, every sensor sends its
requests once, not before it knows the registry, and ends its lookup once. -/
theorem registry_asked_once (hw_idx : Fin 2) (scale_factor : SensorIdx → ℚ) (es : List Call)
    (hok : ∀ c ∈ es, c.env.sensor_stream_ok = true) :
    (∀ cs, cs <+: es → ∀ s, Settled cs (run step (boot σ hw_idx scale_factor) cs) s) ∧
    Along step AsksKnown (boot σ hw_idx scale_factor) es := by
  constructor
  · intro cs hcs s
    exact served_settled (run_served hw_idx scale_factor cs (fun c hc => hok c (hcs.subset hc)) s)
  · induction es using List.reverseRecOn with
    | nil => trivial
    | append_singleton es c ih =>
      obtain ⟨hes,hc⟩ := List.forall_mem_append.mp hok
      refine (along_append step _ _ es [c]).mpr ⟨ih hes,?_,trivial⟩
      exact served_asks (run_served hw_idx scale_factor es hes c.sensor) (hc c List.mem_cons_self)

end Runs

/-- One sensor knows the registry first and the rest afterwards, another one
knows everything at once, and both are called once more. -/
def exampleCalls : List Call :=
  [⟨workingEnv 0 0,.ACC,fun t => if t = .registry then some [1] else none⟩,
    ⟨workingEnv 0 0,.GYR,fun _ => some [2]⟩,⟨workingEnv 0 0,.ACC,fun _ => some [3]⟩,
    ⟨workingEnv 0 0,.ACC,fun _ => some [4]⟩,⟨workingEnv 0 0,.GYR,fun _ => none⟩]

theorem registry_asked_once_each :
    (∀ cs, cs <+: exampleCalls → ∀ s, Settled cs (run step boot0 cs) s) ∧
    Along step AsksKnown boot0 exampleCalls ∧
    reads .GYR (run step boot0 exampleCalls).log = batch .GYR (workingEnv 0 0) chip0 :=
  ⟨(registry_asked_once chip0 (fun _ => 1) exampleCalls (by decide)).1,
    (registry_asked_once chip0 (fun _ => 1) exampleCalls (by decide)).2,by decide⟩

end BaseDrivers.SuidLookup
