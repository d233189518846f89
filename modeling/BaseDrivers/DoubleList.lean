import BaseDrivers.HeapList

/-!
# Doubly linked lists in a memory

A cell has a value and two pointers. A segment leads from a pointer over some
cells to another pointer, and back from its last cell to the cell before its
first one; a list is a segment between null pointers. Without the pointers
back a segment is a path. A pointer of a cell is set at the ends of a segment
or away from it.
-/

set_option autoImplicit false

namespace BaseDrivers.DoubleList
open BaseDrivers.HeapList

structure Cell (A V : Type*) where
  value : V
  next : Option A
  prev : Option A

abbrev Mem (A V : Type*) := A → Option (Cell A V)

variable {A V : Type*} {m : Mem A V}

/-- The cells from `p` to `q`, where the pointer back of the first one is `pre`
and `last` is the last one. -/
def Seg (m : Mem A V) : Option A → Option A → List (A × V) → Option A → Option A → Prop
  | pre, p, [], last, q => pre = last ∧ p = q
  | pre, p, x::xs, last, q =>
    p = some x.1 ∧ ∃ r, m x.1 = some ⟨x.2,r,pre⟩ ∧ Seg m (some x.1) r xs last q

theorem seg_append {pre p last q : Option A} {xs ys : List (A × V)} :
    Seg m pre p (xs++ys) last q ↔ ∃ s r, Seg m pre p xs s r ∧ Seg m s r ys last q := by
  induction xs generalizing pre p with
  | nil => simp [Seg]
  | cons x xs ih =>
    rw [List.cons_append, Seg]
    constructor
    · rintro ⟨hp,t,hx,hrest⟩
      obtain ⟨s,r,hxs,hys⟩ := ih.mp hrest
      exact ⟨s,r,⟨hp,t,hx,hxs⟩,hys⟩
    · rintro ⟨s,r,⟨hp,t,hx,hxs⟩,hys⟩
      exact ⟨hp,t,hx,ih.mpr ⟨s,r,hxs,hys⟩⟩

theorem seg_concat {pre p last q : Option A} {xs : List (A × V)} {x : A × V} :
    Seg m pre p (xs++[x]) last q ↔
      last = some x.1 ∧ ∃ s, Seg m pre p xs s (some x.1) ∧ m x.1 = some ⟨x.2,q,s⟩ := by
  rw [seg_append]
  constructor
  · rintro ⟨s,r,hxs,rfl,t,hx,rfl,rfl⟩
    exact ⟨rfl,s,hxs,hx⟩
  · rintro ⟨rfl,s,hxs,hx⟩
    exact ⟨s,_,hxs,rfl,q,hx,rfl,rfl⟩

/-- The memory without the pointers back. -/
def forward (m : Mem A V) : HeapList.Mem A V := fun a => (m a).map fun c => ⟨c.value,c.next⟩

theorem seg_path {pre p last q : Option A} {xs : List (A × V)} (h : Seg m pre p xs last q) :
    Path (forward m) p xs q := by
  induction xs generalizing pre p with
  | nil => exact h.2
  | cons x xs ih =>
    obtain ⟨hp,r,hx,hrest⟩ := h
    exact ⟨hp,r,by rw [forward, hx]; rfl,ih hrest⟩

theorem seg_nodup {pre p last : Option A} {xs : List (A × V)} (h : Seg m pre p xs last none) :
    (addresses xs).Nodup := path_nodup (seg_path h)

theorem seg_unique {pre pre' p last last' : Option A} {xs ys : List (A × V)}
    (hx : Seg m pre p xs last none) (hy : Seg m pre' p ys last' none) : xs = ys :=
  path_unique (seg_path hx) (seg_path hy)

theorem seg_allocated {pre p last q : Option A} {xs : List (A × V)} (h : Seg m pre p xs last q)
    {a : A} (ha : a ∈ addresses xs) : m a ≠ none := by
  intro hnone
  apply path_allocated (seg_path h) ha
  rw [forward, hnone]
  rfl

theorem seg_congr {m' : Mem A V} {pre p last q : Option A} {xs : List (A × V)}
    (h : ∀ a ∈ addresses xs, m' a = m a) : Seg m' pre p xs last q ↔ Seg m pre p xs last q := by
  induction xs generalizing pre p with
  | nil => exact Iff.rfl
  | cons x xs ih =>
    rw [Seg, Seg, h x.1 List.mem_cons_self]
    have hrest (r : Option A) : Seg m' (some x.1) r xs last q ↔ Seg m (some x.1) r xs last q :=
      ih (fun a ha => h a (List.mem_cons_of_mem _ ha))
    simp only [hrest]

section Sets
variable {m' : Mem A V} {pre p last q : Option A} {xs : List (A × V)} {x : A × V}

/-- The memory with another cell at one address. -/
structure Sets (m : Mem A V) (a : A) (c : Cell A V) (m' : Mem A V) : Prop where
  here : m' a = some c
  away : ∀ b, b ≠ a → m' b = m b

theorem sets_update [DecidableEq A] (m : Mem A V) (a : A) (c : Cell A V) :
    Sets m a c (Function.update m a (some c)) :=
  ⟨Function.update_self ..,fun _ hb => Function.update_of_ne hb ..⟩

theorem Sets.trans {m'' : Mem A V} {a : A} {c d : Cell A V} (h : Sets m a c m')
    (h' : Sets m' a d m'') : Sets m a d m'' :=
  ⟨h'.here,fun b hb => (h'.away b hb).trans (h.away b hb)⟩

theorem Sets.apart {a b : A} {c d : Cell A V} (h : Sets m a c m') (hab : b ≠ a)
    (hb : m b = some d) : m' b = some d := (h.away b hab).trans hb

theorem Sets.seg {a : A} {c : Cell A V} (h : Sets m a c m') (ha : a ∉ addresses xs) :
    Seg m' pre p xs last q ↔ Seg m pre p xs last q := by
  apply seg_congr
  intro b hb
  apply h.away
  rintro rfl
  exact ha hb

/-- The pointer back of the first cell is set. -/
theorem seg_set_pre {c : Cell A V} {s : Option A} (hm : Sets m x.1 { c with prev := s } m')
    (hc : m x.1 = some c) (hx : x.1 ∉ addresses xs) (h : Seg m pre p (x::xs) last q) :
    Seg m' s p (x::xs) last q := by
  obtain ⟨hp,r,hcell,hrest⟩ := h
  obtain rfl : c = ⟨x.2,r,pre⟩ := Option.some.inj (hc.symm.trans hcell)
  exact ⟨hp,r,hm.here,(hm.seg hx).mpr hrest⟩

/-- The pointer of the last cell is set. -/
theorem seg_set_end {c : Cell A V} {r : Option A} (hm : Sets m x.1 { c with next := r } m')
    (hc : m x.1 = some c) (hx : x.1 ∉ addresses xs) (h : Seg m pre p (xs++[x]) last q) :
    Seg m' pre p (xs++[x]) last r := by
  obtain ⟨hlast,s,hxs,hcell⟩ := seg_concat.mp h
  obtain rfl : c = ⟨x.2,q,s⟩ := Option.some.inj (hc.symm.trans hcell)
  exact seg_concat.mpr ⟨hlast,s,(hm.seg hx).mpr hxs,hm.here⟩

/-- The value of the first cell is set. -/
theorem seg_set_first {c : Cell A V} {v : V} (hm : Sets m x.1 { c with value := v } m')
    (hc : m x.1 = some c) (hx : x.1 ∉ addresses xs) (h : Seg m pre p (x::xs) last q) :
    Seg m' pre p ((x.1,v)::xs) last q := by
  obtain ⟨hp,r,hcell,hrest⟩ := h
  obtain rfl : c = ⟨x.2,r,pre⟩ := Option.some.inj (hc.symm.trans hcell)
  exact ⟨hp,r,hm.here,(hm.seg hx).mpr hrest⟩

end Sets

end BaseDrivers.DoubleList
