import Mathlib.Data.List.Perm.Subperm
import BaseDrivers.SensorMonitor
import BaseDrivers.DemoRegistry

/-!
# The ledger of the registry requests

What a sensor asked for and what it still waits for is read from the log.
Together with the flags of the states this is all that decides whether an
answer is lost. Asking, taking an answer in and dropping the stream are
described on these facts, with what they keep in order.
-/

set_option autoImplicit false

namespace BaseDrivers.RegistryLedger
open BaseDrivers.DemoCommon BaseDrivers.DemoInstance BaseDrivers.DemoSensor BaseDrivers.DemoRegistry
open BaseDrivers.SensorMonitor

abbrev Name := List UInt8

/-- The answers a sensor waits for, whether it is available, and whether its
stream was removed while it was waiting. -/
structure Ledger where
  waiting : SensorIdx → List Name
  available : SensorIdx → Bool
  lost : Bool

def readLedger (k : Ledger) : Note → Ledger
  | .registry_read s g _ => { k with waiting := fun t => if t = s then k.waiting s++[g] else k.waiting t }
  | .registry_parsed s g =>
    { k with waiting := fun t => if t = s then (k.waiting s).erase g else k.waiting t }
  | .remove_registry_stream s => { k with lost := k.lost || !(k.waiting s).isEmpty }
  | .available s => { k with available := fun t => t == s || k.available t }
  | _ => k

/-- What the answers decide about, and what decides about them. -/
@[ext] structure Facts where
  hw_idx : Fin 2
  ledger : Ledger
  count : UInt8
  asked : SensorIdx → Bool
  stream : SensorIdx → Bool
  received : SensorIdx → Branch → Bool
  pending : SensorIdx → Pending
  timer : SensorIdx → Bool
  present : SensorIdx → Bool

def Facts.waiting (f : Facts) : SensorIdx → List Name := f.ledger.waiting

def total (w : SensorIdx → List Name) : ℕ :=
  (w .ACC).length+(w .GYR).length+(w .MOTION).length+(w .TEMP).length

def names (hw_idx : Fin 2) (s : SensorIdx) : List Name :=
  (groups s).map (demo_registry_cfg hw_idx)

/-- Every answer a sensor waits for is one it asked for, on a stream that is
there; the counter counts them; what was asked for and is not waited for has
been taken in. -/
structure Orderly (f : Facts) : Prop where
  count : f.count.toNat = total f.waiting
  names : ∀ s, (f.waiting s).Subperm (names f.hw_idx s)
  stream : ∀ s, f.waiting s ≠ [] → f.stream s = true
  asked : ∀ s, f.stream s = true → f.asked s = true
  received : ∀ s, f.asked s = true → ∀ g ∈ groups s,
    demo_registry_cfg f.hw_idx g ∈ f.waiting s ∨ f.received s g.branch = true
  configured : ∀ s, f.received s .sensor_cfg = true → f.asked s = true
  pending : ∀ s, f.pending s = .NONE ∨ f.pending s = .INIT ∧ f.asked s = true

theorem names_length (hw_idx : Fin 2) (s : SensorIdx) : (names hw_idx s).length = (groups s).length :=
  List.length_map _

theorem total_update (w : SensorIdx → List Name) (s : SensorIdx) (l : List Name) :
    total (fun t => if t = s then l else w t)+(w s).length = total w+l.length := by
  cases s <;> simp only [total, if_true, if_false, reduceCtorEq] <;> omega

/-- The counter is far from wrapping around. -/
theorem total_le {f : Facts} (h : Orderly f) (s : SensorIdx) :
    total f.waiting+(groups s).length ≤ (f.waiting s).length+12 := by
  have hl : ∀ t, (f.waiting t).length ≤ (groups t).length := fun t =>
    (names_length f.hw_idx t) ▸ (h.names t).length_le
  have hacc := hl .ACC
  have hgyr := hl .GYR
  have hmotion := hl .MOTION
  have htemp := hl .TEMP
  cases s <;> simp only [total, groups, List.length_cons, List.length_nil] at * <;> omega

theorem idle_of_zero {f : Facts} (h : Orderly f) (h0 : f.count = 0) (s : SensorIdx) :
    f.waiting s = [] := by
  have ht : total f.waiting = 0 := by
    rw [← h.count, h0]
    rfl
  rw [← List.length_eq_zero_iff]
  cases s <;> simp only [total] at ht <;> omega

/-- The reads of one sensor go out. -/
def ask (s : SensorIdx) (f : Facts) : Facts :=
  { f with
    ledger.waiting := fun t => if t = s then f.waiting s++names f.hw_idx s else f.waiting t
    count := f.count+UInt8.ofNat (groups s).length
    asked := fun t => if t = s then true else f.asked t
    stream := fun t => if t = s then true else f.stream t }

theorem unasked_idle {f : Facts} (h : Orderly f) {s : SensorIdx} (ha : f.asked s = false) :
    f.stream s = false ∧ f.waiting s = [] := by
  have hs : f.stream s = false := by
    by_contra hs
    have ht := h.asked s (by simpa using hs)
    rw [ha] at ht
    cases ht
  constructor
  · exact hs
  · by_contra hw
    have ht := h.stream s hw
    rw [hs] at ht
    cases ht

theorem ask_waiting {f : Facts} {s : SensorIdx} (hw : f.waiting s = []) :
    (ask s f).waiting = fun t => if t = s then names f.hw_idx s else f.waiting t := by
  ext1 t
  show (if t = s then f.waiting s++names f.hw_idx s else f.waiting t) = _
  rw [hw, List.nil_append]

theorem ask_count {f : Facts} (h : Orderly f) {s : SensorIdx} (hw : f.waiting s = []) :
    (ask s f).count.toNat = total (ask s f).waiting := by
  have hle := total_le h s
  have hupd := total_update f.waiting s (names f.hw_idx s)
  rw [hw, List.length_nil] at hle hupd
  rw [names_length] at hupd
  have hg : (groups s).length ≤ 6 := by cases s <;> decide
  have hc := h.count
  rw [ask_waiting hw]
  show (f.count+UInt8.ofNat (groups s).length).toNat = _
  rw [UInt8.toNat_add, hc, UInt8.toNat_ofNat']
  omega

theorem ask_orderly {f : Facts} (h : Orderly f) {s : SensorIdx} (ha : f.asked s = false) :
    Orderly (ask s f) := by
  obtain ⟨hs,hw⟩ := unasked_idle h ha
  have hwaiting := ask_waiting hw
  have hother : ∀ t, t ≠ s → (ask s f).waiting t = f.waiting t ∧ (ask s f).asked t = f.asked t ∧
      (ask s f).stream t = f.stream t := by
    intro t ht
    rw [hwaiting]
    simp [ask, ht]
  have hown : (ask s f).waiting s = names f.hw_idx s ∧ (ask s f).asked s = true ∧
      (ask s f).stream s = true := by
    rw [hwaiting]
    simp [ask]
  have hasked : ∀ t, f.asked t = true → (ask s f).asked t = true := by
    intro t ht
    by_cases hts : t = s
    · rw [hts]
      exact hown.2.1
    · rw [(hother t hts).2.1]
      exact ht
  constructor
  · exact ask_count h hw
  · intro t
    by_cases hts : t = s
    · rw [hts, hown.1]
      exact List.Subperm.refl _
    · rw [(hother t hts).1]
      exact h.names t
  · intro t ht
    by_cases hts : t = s
    · rw [hts]
      exact hown.2.2
    · rw [(hother t hts).1] at ht
      rw [(hother t hts).2.2]
      exact h.stream t ht
  · intro t ht
    by_cases hts : t = s
    · rw [hts]
      exact hown.2.1
    · rw [(hother t hts).2.2] at ht
      exact hasked t (h.asked t ht)
  · intro t ht g hg
    by_cases hts : t = s
    · rw [hts] at hg ⊢
      rw [hown.1]
      exact .inl (List.mem_map_of_mem hg)
    · rw [(hother t hts).2.1] at ht
      rw [(hother t hts).1]
      exact h.received t ht g hg
  · exact fun t ht => hasked t (h.configured t ht)
  · exact fun t => (h.pending t).imp id (fun hp => ⟨hp.1,hasked t hp.2⟩)

/-- One answer was taken in. -/
structure Took (s : SensorIdx) (n : Name) (f f' : Facts) : Prop where
  hw_idx : f'.hw_idx = f.hw_idx
  ledger : f'.ledger = readLedger f.ledger (.registry_parsed s n)
  count : f'.count = f.count-1
  asked : f'.asked = f.asked
  stream : f'.stream = f.stream
  pending : f'.pending = f.pending
  timer : f'.timer = f.timer
  present : f'.present = f.present
  received : ∀ t b, f.received t b = true → f'.received t b = true
  new : ∀ g, n = demo_registry_cfg f.hw_idx g → f'.received s g.branch = true
  others : ∀ t, t ≠ s → f'.received t .sensor_cfg = f.received t .sensor_cfg

theorem took_waiting {s : SensorIdx} {n : Name} {f f' : Facts} (ht : Took s n f f') :
    f'.waiting = fun t => if t = s then (f.waiting s).erase n else f.waiting t :=
  congrArg Ledger.waiting ht.ledger

theorem took_count {s : SensorIdx} {n : Name} {f f' : Facts} (h : Orderly f)
    (hn : n ∈ f.waiting s) (ht : Took s n f f') : f'.count.toNat = total f'.waiting := by
  have hupd := total_update f.waiting s ((f.waiting s).erase n)
  have hlen := List.length_erase_of_mem hn
  have hpos := List.length_pos_of_mem hn
  have hle : (f.waiting s).length ≤ total f.waiting := by
    cases s <;> simp only [total] <;> omega
  have hc := h.count
  have h1 : (1 : UInt8) ≤ f.count := by
    rw [UInt8.le_iff_toNat_le, hc]
    show 1 ≤ _
    omega
  rw [ht.count, UInt8.toNat_sub_of_le _ _ h1, hc, took_waiting ht]
  show total f.waiting-1 = _
  omega

theorem took_orderly {s : SensorIdx} {n : Name} {f f' : Facts} (h : Orderly f)
    (hn : n ∈ f.waiting s) (ht : Took s n f f') : Orderly f' := by
  have hwaiting := took_waiting ht
  have hsub : ∀ t, (f'.waiting t).Sublist (f.waiting t) := by
    intro t
    rw [hwaiting]
    by_cases hts : t = s
    · subst hts
      simpa using List.erase_sublist
    · simp [hts]
  have hasked : f.asked s = true := h.asked s (h.stream s (List.ne_nil_of_mem hn))
  constructor
  · exact took_count h hn ht
  · intro t
    rw [ht.hw_idx]
    exact (hsub t).subperm.trans (h.names t)
  · intro t hne
    rw [ht.stream]
    apply h.stream t
    intro h0
    exact hne (List.sublist_nil.mp (h0 ▸ hsub t))
  · intro t hs
    rw [ht.stream] at hs
    rw [ht.asked]
    exact h.asked t hs
  · intro t ha g hg
    rw [ht.asked] at ha
    rw [ht.hw_idx]
    rcases h.received t ha g hg with hw | hr
    · by_cases hts : t = s
      · by_cases hgn : n = demo_registry_cfg f.hw_idx g
        · rw [hts]
          exact .inr (ht.new g hgn)
        · left
          rw [hwaiting, hts]
          rw [hts] at hw
          simpa using (List.mem_erase_of_ne (fun he => hgn he.symm)).mpr hw
      · left
        rw [hwaiting]
        simpa [hts] using hw
    · exact .inr (ht.received t _ hr)
  · intro t hc
    rw [ht.asked]
    by_cases hts : t = s
    · rw [hts]
      exact hasked
    · rw [ht.others t hts] at hc
      exact h.configured t hc
  · rw [ht.asked, ht.pending]
    exact h.pending

/-- The registry stream goes away. -/
def drop (s : SensorIdx) (f : Facts) : Facts :=
  { f with
    ledger.lost := f.ledger.lost || !(f.waiting s).isEmpty
    stream := fun t => if t = s then false else f.stream t }

theorem drop_orderly {f : Facts} (h : Orderly f) {s : SensorIdx} (hw : f.waiting s = []) :
    Orderly (drop s f) := by
  refine ⟨h.count,h.names,?_,?_,h.received,h.configured,h.pending⟩
  · intro t ht
    by_cases hts : t = s
    · rw [hts] at ht
      exact absurd hw ht
    · simpa [drop, hts] using h.stream t ht
  · intro t ht
    by_cases hts : t = s
    · simp [drop, hts] at ht
    · exact h.asked t (by simpa [drop, hts] using ht)

def publish (s : SensorIdx) (f : Facts) : Facts :=
  { f with ledger.available := fun t => t == s || f.ledger.available t }

theorem publish_orderly {f : Facts} (h : Orderly f) (s : SensorIdx) : Orderly (publish s f) :=
  ⟨h.count,h.names,h.stream,h.asked,h.received,h.configured,h.pending⟩

def pend (s : SensorIdx) (p : Pending) (f : Facts) : Facts :=
  { f with pending := fun t => if t = s then p else f.pending t }

theorem pend_orderly {f : Facts} (h : Orderly f) {s : SensorIdx} {p : Pending}
    (hp : p = .NONE ∨ p = .INIT ∧ f.asked s = true) : Orderly (pend s p f) := by
  refine ⟨h.count,h.names,h.stream,h.asked,h.received,h.configured,?_⟩
  intro t
  by_cases hts : t = s
  · simpa [pend, hts] using hp
  · simpa [pend, hts] using h.pending t

/-- No answer was lost and no sensor became available meanwhile. -/
structure Advanced (f f' : Facts) : Prop where
  available : f'.ledger.available = f.ledger.available
  lost : f'.ledger.lost = f.ledger.lost
  pending : f'.pending = f.pending
  timer : f'.timer = f.timer
  present : f'.present = f.present
  received : ∀ t b, f.received t b = true → f'.received t b = true

theorem Advanced.refl (f : Facts) : Advanced f f := ⟨rfl,rfl,rfl,rfl,rfl,fun _ _ h => h⟩

theorem Advanced.trans {f g h : Facts} (hfg : Advanced f g) (hgh : Advanced g h) : Advanced f h :=
  ⟨hgh.available.trans hfg.available,hgh.lost.trans hfg.lost,hgh.pending.trans hfg.pending,
    hgh.timer.trans hfg.timer,hgh.present.trans hfg.present,
    fun t b hb => hgh.received t b (hfg.received t b hb)⟩

theorem ask_advanced (s : SensorIdx) (f : Facts) : Advanced f (ask s f) :=
  ⟨rfl,rfl,rfl,rfl,rfl,fun _ _ h => h⟩

theorem took_advanced {s : SensorIdx} {n : Name} {f f' : Facts} (ht : Took s n f f') :
    Advanced f f' :=
  ⟨by rw [ht.ledger]; rfl,by rw [ht.ledger]; rfl,ht.pending,ht.timer,ht.present,ht.received⟩

theorem drop_advanced {f : Facts} {s : SensorIdx} (hw : f.waiting s = []) :
    Advanced f (drop s f) := by
  refine ⟨rfl,?_,rfl,rfl,rfl,fun _ _ h => h⟩
  show (f.ledger.lost || !(f.waiting s).isEmpty) = f.ledger.lost
  simp [hw]

/-- No stream was removed while answers were waited for, and the sensors that
are available have all their groups. -/
structure Answered (f : Facts) : Prop where
  lost : f.ledger.lost = false
  taken : ∀ s, f.ledger.available s = true → ∀ g ∈ groups s, f.received s g.branch = true

theorem Advanced.answered {f f' : Facts} (h : Advanced f f') (ha : Answered f) : Answered f' := by
  constructor
  · exact h.lost.trans ha.lost
  · intro s hs g hg
    rw [h.available] at hs
    exact h.received s _ (ha.taken s hs g hg)

/-- The timer of the detection fires. -/
def fire (s : SensorIdx) (f : Facts) : Facts :=
  if f.present s then pend s .NONE (publish s (if f.stream s then drop s f else f))
  else pend s .NONE f

theorem fire_answered {f : Facts} (h : Orderly f) (ha : Answered f) {s : SensorIdx}
    (hp : f.pending s = .INIT) (hw : f.present s = true → f.waiting s = []) :
    Orderly (fire s f) ∧ Answered (fire s f) := by
  have hasked : f.asked s = true := by
    rcases h.pending s with hn | hi
    · rw [hp] at hn
      cases hn
    · exact hi.2
  -- what is not waited for was taken in
  have htaken : f.waiting s = [] → ∀ t, (t == s || f.ledger.available t) = true →
      ∀ g ∈ groups t, f.received t g.branch = true := by
    intro hidle t ht g hg
    by_cases hts : t = s
    · rw [hts] at hg ⊢
      rcases h.received s hasked g hg with hn | hr
      · rw [hidle] at hn
        cases hn
      · exact hr
    · exact ha.taken t (by simpa [hts] using ht) g hg
  rw [fire]
  split_ifs with hpresent hstream
  · have hidle := hw hpresent
    have hd := drop_orderly h hidle
    exact ⟨pend_orderly (publish_orderly hd s) (.inl rfl),
      ((drop_advanced hidle).answered ha).lost,htaken hidle⟩
  · exact ⟨pend_orderly (publish_orderly h s) (.inl rfl),ha.lost,htaken (hw hpresent)⟩
  · exact ⟨pend_orderly h (.inl rfl),ha.lost,ha.taken⟩

theorem fire_lost {f : Facts} (h : Orderly f) {s : SensorIdx} (hpresent : f.present s = true)
    (hw : f.waiting s ≠ []) : (fire s f).ledger.lost = true := by
  rw [fire, if_pos hpresent, if_pos (h.stream s hw)]
  show (f.ledger.lost || !(f.waiting s).isEmpty) = true
  simp [hw]

end BaseDrivers.RegistryLedger
