import Mathlib.Data.List.Nodup
import Mathlib.Logic.Function.Basic

/-!
# Lists by the places of their pointers

A slot is a place that holds a pointer to a node or nothing: a head, or the
pointer in a node. Each node of a list also knows the slot that points to it.
So a node comes in at a slot, or goes out of one, whether the slot is a head or
not.
-/

set_option autoImplicit false

namespace BaseDrivers.SlotList

structure Mem (N S : Type*) where
  slot : S → Option N
  holder : N → Option S

section Chains
variable {N S : Type*} (next : N → S)

/-- From a slot over these nodes to a slot with nothing. -/
def Chain (m : Mem N S) : S → List N → Prop
  | s, [] => m.slot s = none
  | s, x::xs => m.slot s = some x ∧ m.holder x = some s ∧ Chain m (next x) xs

/-- The slot behind some nodes of a chain. -/
def behind (s : S) : List N → S
  | [] => s
  | x::xs => behind (next x) xs

/-- The slots of a chain. -/
def slots (s : S) (xs : List N) : List S := s::xs.map next

variable {next} {m m' : Mem N S} {s t : S} {n x : N} {xs ys : List N}

theorem behind_mem (s : S) (xs : List N) : behind next s xs ∈ slots next s xs := by
  induction xs generalizing s with
  | nil => exact List.mem_cons_self
  | cons x xs ih => exact List.mem_cons_of_mem s (ih (next x))

theorem behind_last (s : S) (xs : List N) (x : N) : behind next s (xs++[x]) = next x := by
  induction xs generalizing s with
  | nil => rfl
  | cons y xs ih => exact ih (next y)

theorem slots_append (s : S) (xs ys : List N) :
    slots next s (xs++ys) = slots next s xs++ys.map next := by
  rw [slots, List.map_append]
  rfl

theorem chain_frame (hslot : ∀ u ∈ slots next s xs, m'.slot u = m.slot u)
    (hholder : ∀ x ∈ xs, m'.holder x = m.holder x) (h : Chain next m s xs) :
    Chain next m' s xs := by
  induction xs generalizing s with
  | nil => exact (hslot s List.mem_cons_self).trans h
  | cons x xs ih =>
    obtain ⟨hs,hx,hrest⟩ := h
    exact ⟨(hslot s List.mem_cons_self).trans hs,(hholder x List.mem_cons_self).trans hx,
      ih (fun u hu => hslot u (List.mem_cons_of_mem s hu))
        (fun y hy => hholder y (List.mem_cons_of_mem x hy)) hrest⟩

theorem chain_behind (h : Chain next m s (xs++ys)) : Chain next m (behind next s xs) ys := by
  induction xs generalizing s with
  | nil => exact h
  | cons x xs ih => exact ih h.2.2

/-- What the slot before the rest of a chain has. -/
theorem chain_slot (h : Chain next m s xs) : m.slot s = xs.head? := by
  cases xs with
  | nil => exact h
  | cons x xs => exact h.1

theorem chain_holder (h : Chain next m s (xs++n::ys)) : m.holder n = some (behind next s xs) :=
  (chain_behind h).2.1

/-- The rest of a chain at another slot. -/
theorem chain_moved (h : Chain next m s xs) (hslot : m'.slot t = m.slot s)
    (hnext : ∀ x ∈ xs, m'.slot (next x) = m.slot (next x))
    (hfirst : ∀ x ∈ xs.head?, m'.holder x = some t)
    (hholder : ∀ x ∈ xs.tail, m'.holder x = m.holder x) : Chain next m' t xs := by
  cases xs with
  | nil => exact hslot.trans h
  | cons x xs =>
    obtain ⟨hs,-,hrest⟩ := h
    refine ⟨hslot.trans hs,hfirst x rfl,chain_frame (fun u hu => ?_) hholder hrest⟩
    rcases List.mem_cons.mp hu with rfl | hu
    · exact hnext x List.mem_cons_self
    · obtain ⟨y,hy,rfl⟩ := List.mem_map.mp hu
      exact hnext y (List.mem_cons_of_mem x hy)

/-- A chain whose front is as before, with another rest. -/
theorem chain_front {zs : List N} (h : Chain next m s (xs++ys))
    (hslot : ∀ u ∈ slots next s xs, u ≠ behind next s xs → m'.slot u = m.slot u)
    (hnodup : (slots next s xs).Nodup) (hholder : ∀ x ∈ xs, m'.holder x = m.holder x)
    (hrest : Chain next m' (behind next s xs) zs) : Chain next m' s (xs++zs) := by
  induction xs generalizing s with
  | nil => exact hrest
  | cons x xs ih =>
    obtain ⟨hs,hx,htail⟩ := h
    obtain ⟨hfirst,hnodup⟩ := List.nodup_cons.mp hnodup
    have hne : s ≠ behind next (next x) xs := fun he => hfirst (he ▸ behind_mem (next x) xs)
    exact ⟨(hslot s List.mem_cons_self hne).trans hs,(hholder x List.mem_cons_self).trans hx,
      ih htail (fun u hu hu' => hslot u (List.mem_cons_of_mem s hu) hu') hnodup
        (fun y hy => hholder y (List.mem_cons_of_mem x hy)) hrest⟩

end Chains

section Changes
variable {N S : Type*} [DecidableEq N] [DecidableEq S] (next : N → S)

/-- The node of a slot, if there is one, is held by another slot. -/
def rehold (p : Option N) (t : S) (holder : N → Option S) : N → Option S :=
  match p with
  | some y => Function.update holder y (some t)
  | none => holder

/-- A node comes in at a slot. -/
def insert (n : N) (t : S) (m : Mem N S) : Mem N S where
  slot := Function.update (Function.update m.slot (next n) (m.slot t)) t (some n)
  holder := Function.update (rehold (m.slot t) (next n) m.holder) n (some t)

/-- The node of a slot goes out. -/
def remove (n : N) (t : S) (m : Mem N S) : Mem N S where
  slot := Function.update m.slot t (m.slot (next n))
  holder := rehold (m.slot (next n)) t m.holder

variable {next} {m : Mem N S} {s t : S} {n x : N} {xs ys : List N}

omit [DecidableEq S] in
theorem rehold_of_ne {p : Option N} {holder : N → Option S} (h : x ∉ p) :
    rehold p t holder x = holder x := by
  cases p with
  | none => rfl
  | some y => exact Function.update_of_ne (fun he => h (congrArg some he.symm)) _ _

omit [DecidableEq S] in
theorem rehold_self {p : Option N} {holder : N → Option S} (h : x ∈ p) :
    rehold p t holder x = some t := by
  obtain rfl : p = some x := h
  exact Function.update_self ..

omit [DecidableEq N] [DecidableEq S] in
theorem nodup_nodes (h : (slots next s xs).Nodup) : xs.Nodup :=
  (List.nodup_cons.mp h).2.of_map

omit [DecidableEq N] [DecidableEq S] in
/-- The slot behind some nodes is not one of the nodes after them. -/
theorem behind_ne (h : (slots next s (xs++ys)).Nodup) (hx : x ∈ ys) :
    next x ≠ behind next s xs := by
  rw [slots_append] at h
  intro he
  exact List.disjoint_of_nodup_append h (behind_mem s xs) (he ▸ List.mem_map_of_mem hx)

omit [DecidableEq N] [DecidableEq S] in
theorem tail_ne_head (h : xs.Nodup) (hx : x ∈ xs.tail) : x ∉ xs.head? := by
  cases xs with
  | nil => cases hx
  | cons y ys =>
    intro he
    obtain rfl : y = x := Option.some.inj he
    exact (List.nodup_cons.mp h).1 hx

omit [DecidableEq N] [DecidableEq S] in
theorem front_ne_head (h : (xs++ys).Nodup) (hx : x ∈ xs) : x ∉ ys.head? :=
  fun hy => List.disjoint_of_nodup_append h hx (List.mem_of_mem_head? hy)

theorem insert_chain (h : Chain next m s (xs++ys)) (hslots : (slots next s (xs++ys)).Nodup)
    (hn : n ∉ xs++ys) (hfree : next n ∉ slots next s (xs++ys)) :
    Chain next (insert next n (behind next s xs) m) s (xs++n::ys) := by
  have hrest := chain_behind h
  have hslot := chain_slot hrest
  have hnodup := nodup_nodes hslots
  have hfront : ∀ u ∈ slots next s xs, u ≠ next n := fun u hu he =>
    hfree (slots_append s xs ys ▸ List.mem_append_left _ (he ▸ hu))
  have hnext : ∀ x ∈ ys, next x ≠ next n := fun x hx he =>
    hfree (slots_append s xs ys ▸ List.mem_append_right _ (he ▸ List.mem_map_of_mem hx))
  have hkept {x : N} (hx : x ≠ n) (hy : x ∉ ys.head?) :
      (insert next n (behind next s xs) m).holder x = m.holder x :=
    (Function.update_of_ne hx _ _).trans (rehold_of_ne (hslot ▸ hy))
  refine chain_front h (fun u hu hne => ?_) ?_ (fun x hx => ?_) ⟨?_,?_,?_⟩
  · exact (Function.update_of_ne hne _ _).trans (Function.update_of_ne (hfront u hu) _ _)
  · rw [slots_append] at hslots
    exact hslots.of_append_left
  · exact hkept (ne_of_mem_of_not_mem (List.mem_append_left ys hx) hn) (front_ne_head hnodup hx)
  · exact Function.update_self ..
  · exact Function.update_self ..
  · refine chain_moved hrest ?_ (fun x hx => ?_) (fun x hx => ?_) (fun x hx => ?_)
    · exact (Function.update_of_ne (hfront _ (behind_mem s xs)).symm _ _).trans
        (Function.update_self ..)
    · exact (Function.update_of_ne (behind_ne hslots hx) _ _).trans
        (Function.update_of_ne (hnext x hx) _ _)
    · have hmem := List.mem_append_right xs (List.mem_of_mem_head? hx)
      exact (Function.update_of_ne (ne_of_mem_of_not_mem hmem hn) _ _).trans
        (rehold_self (hslot ▸ hx))
    · have hmem := List.mem_append_right xs (List.mem_of_mem_tail hx)
      exact hkept (ne_of_mem_of_not_mem hmem hn) (tail_ne_head hnodup.of_append_right hx)

theorem remove_chain (h : Chain next m s (xs++n::ys))
    (hslots : (slots next s (xs++n::ys)).Nodup) :
    Chain next (remove next n (behind next s xs) m) s (xs++ys) := by
  have hrest := (chain_behind h).2.2
  have hslot := chain_slot hrest
  have hnodup := nodup_nodes hslots
  have hys := (List.nodup_cons.mp hnodup.of_append_right).2
  have hxy : (xs++ys).Nodup := hnodup.sublist ((List.Sublist.refl xs).append (List.sublist_cons_self n ys))
  refine chain_front h (fun u hu hne => Function.update_of_ne hne _ _) ?_ (fun x hx => ?_) ?_
  · rw [slots_append] at hslots
    exact hslots.of_append_left
  · exact rehold_of_ne (hslot ▸ front_ne_head hxy hx)
  · refine chain_moved hrest (Function.update_self ..) (fun x hx => ?_) (fun x hx => ?_)
      (fun x hx => ?_)
    · exact Function.update_of_ne (behind_ne hslots (List.mem_cons_of_mem n hx)) _ _
    · exact rehold_self (hslot ▸ hx)
    · exact rehold_of_ne (hslot ▸ tail_ne_head hys hx)

/-- A chain that does not have the slot, nor the node, nor what the slot has. -/
theorem insert_elsewhere (h : Chain next m s xs) (ht : t ∉ slots next s xs) (hn : n ∉ xs)
    (hfree : next n ∉ slots next s xs) (hy : ∀ y ∈ m.slot t, y ∉ xs) :
    Chain next (insert next n t m) s xs := by
  refine chain_frame (fun u hu => ?_) (fun x hx => ?_) h
  · exact (Function.update_of_ne (ne_of_mem_of_not_mem hu ht) _ _).trans
      (Function.update_of_ne (ne_of_mem_of_not_mem hu hfree) _ _)
  · exact (Function.update_of_ne (ne_of_mem_of_not_mem hx hn) _ _).trans
      (rehold_of_ne fun he => hy x he hx)

theorem remove_elsewhere (h : Chain next m s xs) (ht : t ∉ slots next s xs)
    (hy : ∀ y ∈ m.slot (next n), y ∉ xs) : Chain next (remove next n t m) s xs :=
  chain_frame (fun _ hu => Function.update_of_ne (ne_of_mem_of_not_mem hu ht) _ _)
    (fun x hx => rehold_of_ne fun he => hy x he hx) h

end Changes

end BaseDrivers.SlotList
