import Mathlib.Logic.Function.Basic
import BaseDrivers.Execution
import BaseDrivers.LinkedRing

/-!
# The list of registered sensors

The operations of `list.h` that the list needs come first, for any addresses.
The sensors are linked through a field of their own into one doubly linked
list with a static head. A sensor is added before the head; taking it out
leaves it linked with itself.
-/

set_option autoImplicit false
set_option linter.style.nameCheck false

namespace BaseDrivers.KernelList
open BaseDrivers.Execution BaseDrivers.LinkedRing

section Header
variable {N : Type*} [DecidableEq N] {l : Links N}

def set_next (a b : N) (l : Links N) : Links N := { l with next := Function.update l.next a b }

def set_prev (a b : N) (l : Links N) : Links N := { l with prev := Function.update l.prev a b }

def INIT_LIST_HEAD (list : N) (l : Links N) : Links N := set_prev list list (set_next list list l)

def __list_add (new prev next : N) (l : Links N) : Links N :=
  let l := set_prev next new l
  let l := set_next new next l
  let l := set_prev new prev l
  set_next prev new l

def list_add_tail (new head : N) (l : Links N) : Links N := __list_add new (l.prev head) head l

def __list_del (prev next : N) (l : Links N) : Links N := set_next prev next (set_prev next prev l)

def list_del_init (entry : N) (l : Links N) : Links N :=
  INIT_LIST_HEAD entry (__list_del (l.prev entry) (l.next entry) l)

theorem add_next (new prev next a : N) : (__list_add new prev next l).next a =
    if a = prev then new else if a = new then next else l.next a := by
  simp [__list_add, set_next, set_prev, Function.update_apply]

theorem add_prev (new prev next b : N) : (__list_add new prev next l).prev b =
    if b = new then prev else if b = next then new else l.prev b := by
  simp [__list_add, set_next, set_prev, Function.update_apply]

theorem init_next (list a : N) : (INIT_LIST_HEAD list l).next a =
    if a = list then list else l.next a := by
  simp [INIT_LIST_HEAD, set_next, set_prev, Function.update_apply]

theorem init_prev (list b : N) : (INIT_LIST_HEAD list l).prev b =
    if b = list then list else l.prev b := by
  simp [INIT_LIST_HEAD, set_next, set_prev, Function.update_apply]

theorem del_next (prev next a : N) :
    (__list_del prev next l).next a = if a = prev then next else l.next a := by
  simp [__list_del, set_next, set_prev, Function.update_apply]

theorem del_prev (prev next b : N) :
    (__list_del prev next l).prev b = if b = next then prev else l.prev b := by
  simp [__list_del, set_next, set_prev, Function.update_apply]

end Header

/-- The address of a `struct list_head`: the static one or the field `node` of
a sensor. -/
inductive Node (S : Type*) where
  | sensor_dev_list
  | node (sensor : S)
  deriving DecidableEq

variable {S : Type*} [DecidableEq S]

def sensor_register (sensor : S) (l : Links (Node S)) : Links (Node S) :=
  list_add_tail (.node sensor) .sensor_dev_list l

def sensor_unregister (sensor : S) (l : Links (Node S)) : Links (Node S) :=
  list_del_init (.node sensor) l

omit [DecidableEq S] in
/-- One turn of `list_for_each_entry_safe`, with the cursor, the node kept for
the next turn, and the sensors printed. -/
def list_turn (l : Links (Node S)) :
    Node S × Node S × List S → (Node S × Node S × List S) ⊕ List S
  | (.sensor_dev_list,_,printed) => .inr printed
  | (.node sensor,n,printed) => .inl (n,l.next n,printed++[sensor])

/-- The sensors printed in at most `turns` turns. -/
def sensor_list (turns : ℕ) (l : Links (Node S)) : (Node S × Node S × List S) ⊕ List S :=
  loop (list_turn l) turns
    (l.next .sensor_dev_list,l.next (l.next .sensor_dev_list),[])

/-- The links. For the statements: the sensors registered, in the order of
their registration, and those that have ever been registered. -/
structure Sensors (S : Type*) where
  links : Links (Node S)
  registered : List S
  known : List S

/-- `LIST_HEAD(sensor_dev_list)`; the sensors' own nodes hold anything. -/
def boot (garbage : Links (Node S)) : Sensors S :=
  ⟨INIT_LIST_HEAD .sensor_dev_list garbage,[],[]⟩

inductive Event (S : Type*) where
  | register (sensor : S)
  | unregister (sensor : S)
  deriving DecidableEq

def step (d : Sensors S) : Event S → Sensors S
  | .register s => ⟨sensor_register s d.links,d.registered++[s],s::d.known⟩
  | .unregister s => ⟨sensor_unregister s d.links,d.registered.erase s,d.known⟩

/-- A sensor is registered once at a time, and only a sensor that has been
registered is unregistered. -/
def Admissible (d : Sensors S) : Event S → Prop
  | .register s => s ∉ d.registered
  | .unregister s => s ∈ d.known

instance (d : Sensors S) : (e : Event S) → Decidable (Admissible d e)
  | .register s => inferInstanceAs (Decidable (s ∉ d.registered))
  | .unregister s => inferInstanceAs (Decidable (s ∈ d.known))

/-- The list holds the registered sensors in order, its links undo each other,
and printing it comes to its end with each sensor printed once. -/
structure Listed (d : Sensors S) : Prop where
  ring : Ring d.links .sensor_dev_list (d.registered.map .node)
  inverse : ∀ a ∈ Node.sensor_dev_list::d.registered.map .node,
    d.links.prev (d.links.next a) = a ∧ d.links.next (d.links.prev a) = a
  printed : ∀ turns > d.registered.length, sensor_list turns d.links = .inr d.registered

/-- Unregistering a sensor that is not registered changes nothing. -/
def Harmless (d : Sensors S) (e : Event S) : Prop :=
  ∀ s, e = .unregister s → s ∉ d.registered → (step d e).links = d.links

/-- The invariant: sensors that have been taken out are linked with
themselves. -/
structure Kept (d : Sensors S) : Prop where
  ring : Ring d.links .sensor_dev_list (d.registered.map .node)
  out : ∀ s ∈ d.known, s ∉ d.registered → Alone d.links (.node s)

section Links
variable {l : Links (Node S)} {xs : List (Node S)} {s : S}

/-- What adding a new node changes. -/
theorem register_links (hr : Ring l .sensor_dev_list xs) (hs : .node s ∉ xs) :
    Linked (sensor_register s l) (l.prev .sensor_dev_list) (.node s) ∧
    Linked (sensor_register s l) (.node s) .sensor_dev_list ∧
    (∀ a, a ≠ l.prev .sensor_dev_list → a ≠ .node s →
      (sensor_register s l).next a = l.next a) ∧
    ∀ b, b ≠ .sensor_dev_list → b ≠ .node s → (sensor_register s l).prev b = l.prev b := by
  have hlast : Node.node s ≠ l.prev .sensor_dev_list := by
    rintro h
    rcases List.mem_cons.mp (h ▸ ring_last hr) with h | h
    · cases h
    · exact hs h
  have hnext := @add_next _ _ l (.node s) (l.prev .sensor_dev_list) .sensor_dev_list
  have hprev := @add_prev _ _ l (.node s) (l.prev .sensor_dev_list) .sensor_dev_list
  rw [sensor_register, list_add_tail]
  refine ⟨⟨?_,?_⟩,⟨?_,?_⟩,?_,?_⟩
  · rw [hnext, if_pos rfl]
  · rw [hprev, if_pos rfl]
  · rw [hnext, if_neg hlast, if_pos rfl]
  · rw [hprev, if_neg (by simp), if_pos rfl]
  · intro a ha has
    rw [hnext, if_neg ha, if_neg has]
  · intro b hb hbs
    rw [hprev, if_neg hbs, if_neg hb]

theorem unregister_next (a : Node S) : (sensor_unregister s l).next a =
    if a = .node s then .node s
    else if a = l.prev (.node s) then l.next (.node s) else l.next a := by
  rw [sensor_unregister, list_del_init, init_next, del_next]

theorem unregister_prev (b : Node S) : (sensor_unregister s l).prev b =
    if b = .node s then .node s
    else if b = l.next (.node s) then l.prev (.node s) else l.prev b := by
  rw [sensor_unregister, list_del_init, init_prev, del_prev]

theorem unregister_alone : Alone (sensor_unregister s l) (.node s) :=
  ⟨by rw [unregister_next, if_pos rfl],by rw [unregister_prev, if_pos rfl]⟩

/-- Taking out a node that is linked with itself. -/
theorem unregister_twice (h : Alone l (.node s)) : sensor_unregister s l = l := by
  have hnext : (sensor_unregister s l).next = l.next := by
    funext a
    rw [unregister_next, h.1, h.2]
    split_ifs with ha
    · rw [ha, h.1]
    · rfl
  have hprev : (sensor_unregister s l).prev = l.prev := by
    funext b
    rw [unregister_prev, h.1, h.2]
    split_ifs with hb
    · rw [hb, h.2]
    · rfl
  calc sensor_unregister s l
      = ⟨(sensor_unregister s l).next,(sensor_unregister s l).prev⟩ := rfl
    _ = l := by rw [hnext, hprev]

theorem unregister_ring {ys zs : List (Node S)}
    (hr : Ring l .sensor_dev_list (ys++.node s::zs)) :
    Ring (sensor_unregister s l) .sensor_dev_list (ys++zs) := by
  obtain ⟨hp,hn⟩ := ring_neighbours hr
  have hnodup := hr.nodup
  have hps : l.prev (.node s) ≠ .node s := by
    intro h
    rw [h] at hp
    grind
  have hns : l.next (.node s) ≠ .node s := by
    intro h
    rw [h] at hn
    grind
  apply ring_remove hr
  · constructor
    · rw [unregister_next, if_neg hps, if_pos rfl]
    · rw [unregister_prev, if_neg hns, if_pos rfl]
  · intro a ha has
    rw [unregister_next, if_neg has, if_neg ha]
  · intro b hb hbs
    rw [unregister_prev, if_neg hbs, if_neg hb]

/-- A sensor that is not in the list keeps its node. -/
theorem unregister_other {ys zs : List (Node S)} {t : S} (ht : t ≠ s)
    (hr : Ring l .sensor_dev_list (ys++.node s::zs)) (hout : .node t ∉ ys++.node s::zs)
    (h : Alone l (.node t)) : Alone (sensor_unregister s l) (.node t) := by
  obtain ⟨hp,hn⟩ := ring_neighbours hr
  have hts : Node.node t ≠ Node.node s := fun h => ht (Node.node.inj h)
  have hprev : Node.node t ≠ l.prev (.node s) := by
    intro h
    rw [← h] at hp
    grind
  have hnext : Node.node t ≠ l.next (.node s) := by
    intro h
    rw [← h] at hn
    grind
  constructor
  · rw [unregister_next, if_neg hts, if_neg hprev]
    exact h.1
  · rw [unregister_prev, if_neg hts, if_neg hnext]
    exact h.2

end Links

/-- What comes behind a node of the list, with the sensors still to come. -/
def behind (xs : List S) : List (Node S) := xs.map .node++[.sensor_dev_list]

omit [DecidableEq S] in
theorem behind_cons (s : S) (xs : List S) : behind (s::xs) = .node s::behind xs := rfl

omit [DecidableEq S] in
theorem behind_ne_nil (xs : List S) : behind xs ≠ [] :=
  List.append_ne_nil_of_right_ne_nil _ (List.cons_ne_nil _ _)

omit [DecidableEq S] in
/-- Printing goes through the nodes up to the head. -/
theorem list_walk {l : Links (Node S)} {rest : List S}
    (hc : List.IsChain (Linked l) (behind rest)) {pos : Node S}
    (hpos : (behind rest).head? = some pos) (printed : List S) :
    loop (list_turn l) (rest.length+1) (pos,l.next pos,printed) = .inr (printed++rest) := by
  induction rest generalizing pos printed with
  | nil =>
    obtain rfl : Node.sensor_dev_list = pos := Option.some.inj hpos
    rw [List.append_nil]
    exact loop_leave 0 rfl
  | cons s rest ih =>
    obtain rfl : Node.node s = pos := Option.some.inj hpos
    rw [behind_cons] at hc
    have hturn : list_turn l (.node s,l.next (.node s),printed) =
        .inl (l.next (.node s),l.next (l.next (.node s)),printed++[s]) := rfl
    have hrest := ih (List.isChain_cons.mp hc).2 (chain_head hc (behind_ne_nil rest))
      (printed++[s])
    rw [List.length_cons, loop_continue (rest.length+1) hturn, hrest, List.append_assoc]
    rfl

omit [DecidableEq S] in
theorem ring_printed {l : Links (Node S)} {xs : List S}
    (hr : Ring l .sensor_dev_list (xs.map .node)) (turns : ℕ) (h : turns > xs.length) :
    sensor_list turns l = .inr xs := by
  have hc : List.IsChain (Linked l) (.sensor_dev_list::behind xs) := hr.chain
  exact loop_mono (list_walk (List.isChain_cons.mp hc).2 (chain_head hc (behind_ne_nil xs)) []) h

omit [DecidableEq S] in
theorem node_map {xs : List S} {s : S} : Node.node s ∈ xs.map .node ↔ s ∈ xs := by
  simp

/-- The other nodes that are out stay out. -/
theorem register_kept {d : Sensors S} {s : S} (hd : Kept d) (hs : s ∉ d.registered) :
    Kept (step d (.register s)) := by
  obtain ⟨hin,hout,hnext,hprev⟩ := register_links hd.ring (s := s) (mt node_map.mp hs)
  constructor
  · show Ring _ _ ((d.registered++[s]).map _)
    rw [List.map_append]
    exact ring_insert hd.ring (by simpa using hs) hin hout hnext hprev
  · intro t ht hreg
    obtain ⟨hreg,hts⟩ : t ∉ d.registered ∧ t ≠ s := by simpa [step] using hreg
    have halone := hd.out t ((List.mem_cons.mp ht).resolve_left hts) hreg
    have hnt : Node.node t ≠ Node.node s := fun h => hts (Node.node.inj h)
    have hlast : Node.node t ≠ d.links.prev .sensor_dev_list := by
      intro h
      have hmem := h ▸ ring_last hd.ring
      simp [hreg] at hmem
    exact ⟨(hnext _ hlast hnt).trans halone.1,(hprev _ (by simp) hnt).trans halone.2⟩

theorem unregister_kept {d : Sensors S} {s : S} (hd : Kept d) (hs : s ∈ d.known) :
    Kept (step d (.unregister s)) := by
  by_cases hreg : s ∈ d.registered
  · obtain ⟨ys,zs,hys,heq,herase⟩ := List.exists_erase_eq hreg
    have hring := hd.ring
    rw [heq, List.map_append, List.map_cons] at hring
    constructor
    · show Ring _ _ ((d.registered.erase s).map _)
      rw [herase, List.map_append]
      exact unregister_ring hring
    · intro t ht hout
      by_cases hts : t = s
      · exact hts ▸ unregister_alone
      · have hreg : t ∉ d.registered := fun h => hout ((List.mem_erase_of_ne hts).mpr h)
        apply unregister_other hts hring _ (hd.out t ht hreg)
        rwa [← List.map_cons, ← List.map_append, ← heq, node_map]
  · have hlinks : (step d (.unregister s)).links = d.links :=
      unregister_twice (hd.out s hs hreg)
    have hregistered : (step d (.unregister s)).registered = d.registered :=
      List.erase_of_not_mem hreg
    constructor
    · rw [hlinks, hregistered]
      exact hd.ring
    · rw [hlinks, hregistered]
      exact hd.out

theorem step_kept (d : Sensors S) (e : Event S) (hd : Kept d) (he : Admissible d e) :
    Kept (step d e) := by
  cases e with
  | register s => exact register_kept hd he
  | unregister s => exact unregister_kept hd he

theorem boot_kept (garbage : Links (Node S)) : Kept (boot garbage) := by
  constructor
  · apply (ring_nil _).mpr
    exact ⟨(init_next _ _).trans (if_pos rfl),(init_prev _ _).trans (if_pos rfl)⟩
  · intro s hs
    cases hs

omit [DecidableEq S] in
theorem kept_listed {d : Sensors S} (hd : Kept d) : Listed d where
  ring := hd.ring
  inverse _ := ring_inverse hd.ring
  printed := ring_printed hd.ring

/-- In every run the list holds the registered sensors in the order of their
registration, and a sensor that is taken out twice changes nothing. -/
theorem sensors_listed (garbage : Links (Node S)) (es : List (Event S))
    (h : Along step Admissible (boot garbage) es) :
    Always step Listed (boot garbage) es ∧ Along step Harmless (boot garbage) es := by
  have hkept := always_of_step Kept step_kept (boot garbage) es (boot_kept garbage) h
  constructor
  · exact always_mono (fun d hd => kept_listed hd) hkept
  · apply along_of_always _ (boot garbage) es hkept h
    rintro d e hd he s rfl hs
    exact unregister_twice (hd.out s he hs)

/-- Three sensors, of which the middle one is taken out twice. -/
theorem sensors_listed_twice :
    Always step Listed (boot ⟨id,id⟩)
      [.register 1,.register 2,.register 3,.unregister 2,.unregister 2] :=
  (sensors_listed (S := ℕ) ⟨id,id⟩ _ (by decide)).1

end BaseDrivers.KernelList
