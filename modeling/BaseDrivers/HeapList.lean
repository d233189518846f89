import Mathlib.Data.List.Nodup
import Mathlib.Logic.Function.Basic
import BaseDrivers.Execution

/-!
# Linked lists in a memory

A cell has a value and a pointer to the next cell, and a memory has a cell or
nothing at an address. A path leads from a pointer over some cells to another
pointer; a path that leads to the null pointer is a list. Paths are put
together, keep what is changed elsewhere, and are given a new end or a new
cell in the middle.
-/

set_option autoImplicit false

namespace BaseDrivers.HeapList
open BaseDrivers.Execution

structure Cell (A V : Type*) where
  value : V
  next : Option A

abbrev Mem (A V : Type*) := A → Option (Cell A V)

section Paths
variable {A V : Type*} {m : Mem A V}

/-- The cells from `p` to `q`, each with its address and its value. -/
def Path (m : Mem A V) : Option A → List (A × V) → Option A → Prop
  | p, [], q => p = q
  | p, x::xs, q => p = some x.1 ∧ ∃ r, m x.1 = some ⟨x.2,r⟩ ∧ Path m r xs q

def addresses (xs : List (A × V)) : List A := xs.map Prod.fst

def values (xs : List (A × V)) : List V := xs.map Prod.snd

theorem addresses_concat (xs : List (A × V)) (x : A × V) :
    addresses (xs++[x]) = addresses xs++[x.1] := List.map_append

theorem values_concat (xs : List (A × V)) (x : A × V) : values (xs++[x]) = values xs++[x.2] :=
  List.map_append

theorem last_not_before {xs : List (A × V)} {x : A × V} (h : (addresses (xs++[x])).Nodup) :
    x.1 ∉ addresses xs := by
  rw [addresses_concat] at h
  exact fun hmem => (List.nodup_append.mp h).2.2 _ hmem _ List.mem_cons_self rfl

theorem path_append {p q : Option A} {xs ys : List (A × V)} :
    Path m p (xs++ys) q ↔ ∃ r, Path m p xs r ∧ Path m r ys q := by
  induction xs generalizing p with
  | nil => simp [Path]
  | cons x xs ih =>
    rw [List.cons_append, Path]
    constructor
    · rintro ⟨hp,r,hx,hrest⟩
      obtain ⟨t,ht,hys⟩ := ih.mp hrest
      exact ⟨t,⟨hp,r,hx,ht⟩,hys⟩
    · rintro ⟨t,⟨hp,r,hx,ht⟩,hys⟩
      exact ⟨hp,r,hx,ih.mpr ⟨t,ht,hys⟩⟩

/-- The last cell of a path has the pointer to its end. -/
theorem path_last {p q : Option A} {xs : List (A × V)} {x : A × V} :
    Path m p (xs++[x]) q ↔ Path m p xs (some x.1) ∧ m x.1 = some ⟨x.2,q⟩ := by
  rw [path_append]
  constructor
  · rintro ⟨r,hxs,rfl,t,hx,rfl⟩
    exact ⟨hxs,hx⟩
  · rintro ⟨hxs,hx⟩
    exact ⟨_,hxs,rfl,q,hx,rfl⟩

theorem path_cell {p q : Option A} (us : List (A × V)) {ws : List (A × V)} {w : A × V}
    (h : Path m p (us++w::ws) q) : ∃ r, m w.1 = some ⟨w.2,r⟩ := by
  obtain ⟨-,-,-,r,hw,-⟩ := path_append.mp h
  exact ⟨r,hw⟩

theorem path_allocated {p q : Option A} {xs : List (A × V)} (h : Path m p xs q) {a : A}
    (ha : a ∈ addresses xs) : m a ≠ none := by
  induction xs generalizing p with
  | nil => cases ha
  | cons x xs ih =>
    obtain ⟨-,r,hx,hrest⟩ := h
    rcases List.mem_cons.mp ha with rfl | ha
    · rw [hx]
      exact Option.some_ne_none _
    · exact ih hrest ha

/-- There is one list at a pointer. -/
theorem path_unique {p : Option A} {xs ys : List (A × V)} (hx : Path m p xs none)
    (hy : Path m p ys none) : xs = ys := by
  induction xs generalizing p ys with
  | nil =>
    obtain rfl : p = none := hx
    cases ys with
    | nil => rfl
    | cons y ys => cases hy.1
  | cons x xs ih =>
    obtain ⟨rfl,r,hcell,hrest⟩ := hx
    cases ys with
    | nil => cases hy
    | cons y ys =>
      obtain ⟨hxy,t,hcell',hrest'⟩ := hy
      have haddr : x.1 = y.1 := Option.some.inj hxy
      rw [← haddr, hcell] at hcell'
      obtain ⟨hvalue,rfl⟩ := Cell.mk.inj (Option.some.inj hcell')
      rw [Prod.ext haddr hvalue, ih hrest hrest']

/-- The rest of a list is what is left after the cells before it. -/
theorem path_rest {p q : Option A} {xs ys : List (A × V)} (hx : Path m p xs q)
    (hy : Path m p ys none) : ∃ zs, ys = xs++zs ∧ Path m q zs none := by
  induction xs generalizing p ys with
  | nil =>
    obtain rfl : p = q := hx
    exact ⟨ys,rfl,hy⟩
  | cons x xs ih =>
    obtain ⟨rfl,r,hcell,hrest⟩ := hx
    cases ys with
    | nil => cases hy
    | cons y ys =>
      obtain ⟨hxy,t,hcell',hrest'⟩ := hy
      have haddr : x.1 = y.1 := Option.some.inj hxy
      rw [← haddr, hcell] at hcell'
      obtain ⟨hvalue,rfl⟩ := Cell.mk.inj (Option.some.inj hcell')
      obtain ⟨zs,rfl,hzs⟩ := ih hrest hrest'
      exact ⟨zs,by rw [← Prod.ext haddr hvalue]; rfl,hzs⟩

/-- A list does not come to the same cell twice. -/
theorem path_nodup {p : Option A} {xs : List (A × V)} (h : Path m p xs none) :
    (addresses xs).Nodup := by
  induction xs generalizing p with
  | nil => exact List.nodup_nil
  | cons x xs ih =>
    obtain ⟨rfl,r,hcell,hrest⟩ := h
    apply List.nodup_cons.mpr ⟨_,ih hrest⟩
    intro hmem
    -- the list would begin again inside itself
    obtain ⟨y,hy,hyx⟩ := List.mem_map.mp hmem
    obtain ⟨us,vs,rfl⟩ := List.append_of_mem hy
    obtain ⟨t,hus,hvs⟩ := path_append.mp hrest
    have hstart : some y.1 = some x.1 := congrArg some hyx
    rw [hvs.1, hstart] at hvs
    have hwhole : Path m (some x.1) (x::(us++y::vs)) none := ⟨rfl,r,hcell,hrest⟩
    have hlength := congrArg List.length (path_unique hvs hwhole)
    simp at hlength
    omega

theorem path_congr {m' : Mem A V} {p q : Option A} {xs : List (A × V)}
    (h : ∀ a ∈ addresses xs, m' a = m a) : Path m' p xs q ↔ Path m p xs q := by
  induction xs generalizing p with
  | nil => exact Iff.rfl
  | cons x xs ih =>
    rw [Path, Path, h x.1 List.mem_cons_self]
    have hrest (r : Option A) := ih (p := r) (fun a ha => h a (List.mem_cons_of_mem _ ha))
    simp only [hrest]

/-- A path with one more cell at its end, to which the cell that was the last
has been changed. -/
theorem path_extend {m' : Mem A V} {p q r : Option A} {xs : List (A × V)} {x y : A × V}
    (h : Path m p (xs++[x]) q) (hnodup : (addresses (xs++[x])).Nodup)
    (hnew : y.1 ∉ addresses (xs++[x])) (hx : m' x.1 = some ⟨x.2,some y.1⟩)
    (hy : m' y.1 = some ⟨y.2,r⟩) (hother : ∀ a, a ≠ x.1 → a ≠ y.1 → m' a = m a) :
    Path m' p (xs++[x]++[y]) r := by
  rw [addresses_concat] at hnew
  refine path_last.mpr ⟨path_last.mpr ⟨(path_congr ?_).mpr (path_last.mp h).1,hx⟩,hy⟩
  intro a ha
  apply hother
  · rintro rfl
    exact last_not_before hnodup ha
  · rintro rfl
    exact hnew (List.mem_append_left _ ha)

/-- A loop that goes from cell to cell and adds up their values comes to the
end of a list. -/
theorem loop_sums {B R : Type*} {body : Option A × B → (Option A × B) ⊕ R} (f : B → V → B)
    (result : B → R)
    (hcell : ∀ a c b, m a = some c → body (some a,b) = .inl (c.next,f b c.value))
    (hend : ∀ b, body (none,b) = .inr (result b)) {p : Option A} {xs : List (A × V)}
    (h : Path m p xs none) (b : B) (turns : ℕ) (hturns : turns > xs.length) :
    loop body turns (p,b) = .inr (result ((values xs).foldl f b)) := by
  induction xs generalizing p b turns with
  | nil =>
    obtain ⟨k,rfl⟩ : ∃ k, turns = k+1 := ⟨turns-1,by omega⟩
    obtain rfl : p = none := h
    exact loop_leave k (hend b)
  | cons x xs ih =>
    obtain ⟨k,rfl⟩ : ∃ k, turns = k+1 := ⟨turns-1,by omega⟩
    obtain ⟨rfl,r,hx,hrest⟩ := h
    rw [loop_continue k (hcell x.1 _ b hx), ih hrest _ k (Nat.lt_of_succ_lt_succ hturns)]
    rfl

/-- A loop that goes from cell to cell and leaves at the first one it looks for
finds out whether a list has one. -/
theorem loop_finds {R : Type*} {body : Option A → Option A ⊕ R} (found : V → Prop)
    [DecidablePred found] (yes no : R)
    (hcell : ∀ a c, m a = some c →
      body (some a) = if found c.value then .inr yes else .inl c.next)
    (hend : body none = .inr no) {p : Option A} {xs : List (A × V)} (h : Path m p xs none)
    (turns : ℕ) (hturns : turns > xs.length) :
    loop body turns p = .inr (if ∃ v ∈ values xs, found v then yes else no) := by
  induction xs generalizing p turns with
  | nil =>
    obtain ⟨k,rfl⟩ : ∃ k, turns = k+1 := ⟨turns-1,by omega⟩
    obtain rfl : p = none := h
    rw [loop_leave k hend, if_neg (by simp [values])]
  | cons x xs ih =>
    obtain ⟨k,rfl⟩ : ∃ k, turns = k+1 := ⟨turns-1,by omega⟩
    obtain ⟨rfl,r,hx,hrest⟩ := h
    have hturn := hcell x.1 _ hx
    by_cases hfound : found x.2
    · rw [if_pos hfound] at hturn
      rw [loop_leave k hturn, if_pos ⟨x.2,List.mem_cons_self,hfound⟩]
    · rw [if_neg hfound] at hturn
      have hmore : (∃ v ∈ values (x::xs), found v) ↔ ∃ v ∈ values xs, found v := by
        simp only [values, List.map_cons, List.mem_cons, exists_eq_or_imp, hfound, false_or]
      rw [loop_continue k hturn, ih hrest k (Nat.lt_of_succ_lt_succ hturns)]
      exact congrArg Sum.inr (if_congr hmore.symm rfl rfl)

/-- A loop that goes from cell to cell with the one before comes to the last
two cells of a list. -/
theorem loop_last_two {R : Type*} {body : A × A → (A × A) ⊕ R} (result : A × A → R)
    (hcell : ∀ p a q v, m a = some ⟨v,some q⟩ → body (p,a) = .inl (a,q))
    (hend : ∀ p a v, m a = some ⟨v,none⟩ → body (p,a) = .inr (result (p,a)))
    {y z w u : A × V} {zs us : List (A × V)} (h : Path m (some z.1) (z::zs) none)
    (hsplit : y::z::zs = us++[w,u]) (turns : ℕ) (hturns : turns > zs.length) :
    loop body turns (y.1,z.1) = .inr (result (w.1,u.1)) := by
  induction zs generalizing y z us turns with
  | nil =>
    obtain ⟨k,rfl⟩ : ∃ k, turns = k+1 := ⟨turns-1,by omega⟩
    obtain ⟨-,r,hz,rfl⟩ := h
    have hlast : [y,z] = [w,u] := (List.append_inj' (show []++[y,z] = us++[w,u] from hsplit) rfl).2
    obtain ⟨rfl,hone⟩ := List.cons.inj hlast
    obtain ⟨rfl,-⟩ := List.cons.inj hone
    exact loop_leave k (hend _ _ _ hz)
  | cons x xs ih =>
    obtain ⟨k,rfl⟩ : ∃ k, turns = k+1 := ⟨turns-1,by omega⟩
    obtain ⟨-,r,hz,rfl,hrest⟩ := h
    rw [loop_continue k (hcell _ _ _ _ hz)]
    cases us with
    | nil => simp at hsplit
    | cons v us =>
      exact ih ⟨rfl,hrest⟩ (List.cons.inj hsplit).2 k (Nat.lt_of_succ_lt_succ hturns)

/-- Cells from a part of the memory that was not in use are the start of a
list exactly when the pointer in the last of them already led to one. -/
theorem path_ends_iff {m' : Mem A V} {p r : Option A} {cs : List (A × V)} (h : Path m' p cs r)
    (hframe : ∀ a ∉ addresses cs, m' a = m a) (hunused : ∀ a ∈ addresses cs, m a = none) :
    (∃ ys, Path m' p ys none) ↔ ∃ xs, Path m r xs none := by
  constructor
  · rintro ⟨ys,hys⟩
    obtain ⟨xs,rfl,hxs⟩ := path_rest h hys
    have hnodup := path_nodup hys
    rw [addresses, List.map_append] at hnodup
    refine ⟨xs,(path_congr ?_).mp hxs⟩
    intro a ha
    exact hframe a (fun hcs => (List.nodup_append.mp hnodup).2.2 a hcs a ha rfl)
  · rintro ⟨xs,hxs⟩
    refine ⟨cs++xs,path_append.mpr ⟨r,h,(path_congr ?_).mpr hxs⟩⟩
    intro a ha
    exact hframe a (fun hcs => path_allocated hxs ha (hunused a hcs))

section Update
variable [DecidableEq A]

theorem path_update {p q : Option A} {xs : List (A × V)} {a : A} (c : Option (Cell A V))
    (ha : a ∉ addresses xs) : Path (Function.update m a c) p xs q ↔ Path m p xs q := by
  apply path_congr
  rintro b hb
  apply Function.update_of_ne
  rintro rfl
  exact ha hb

/-- A new value for the first cell. -/
theorem path_set_first {p r : Option A} {x : A × V} {xs : List (A × V)}
    (h : Path m p (x::xs) none) (hx : m x.1 = some ⟨x.2,r⟩) (v : V) :
    Path (Function.update m x.1 (some ⟨v,r⟩)) p ((x.1,v)::xs) none := by
  have hnot : x.1 ∉ addresses xs := (List.nodup_cons.mp (path_nodup h)).1
  obtain ⟨hp,r',hx',hrest⟩ := h
  obtain rfl : r = r' := (Cell.mk.inj (Option.some.inj (hx.symm.trans hx'))).2
  exact ⟨hp,r,Function.update_self ..,(path_update _ hnot).mpr hrest⟩

/-- A new cell before the first one. -/
theorem path_cons {p q : Option A} {x : A × V} {xs : List (A × V)} (h : Path m p xs q)
    (hx : x.1 ∉ addresses xs) :
    Path (Function.update m x.1 (some ⟨x.2,p⟩)) (some x.1) (x::xs) q :=
  ⟨rfl,p,Function.update_self ..,(path_update _ hx).mpr h⟩

/-- A new end for a path. -/
theorem path_set_end {p q : Option A} {xs : List (A × V)} {x : A × V}
    (h : Path m p (xs++[x]) q) (hx : x.1 ∉ addresses xs) (r : Option A) :
    Path (Function.update m x.1 (some ⟨x.2,r⟩)) p (xs++[x]) r := by
  rw [path_last] at h ⊢
  exact ⟨(path_update _ hx).mpr h.1,Function.update_self ..⟩

/-- The last cell goes out, and the one before it still points there. -/
theorem path_free {p : Option A} {xs : List (A × V)} {x : A × V} (h : Path m p (xs++[x]) none) :
    Path (Function.update m x.1 none) p xs (some x.1) :=
  (path_update none (last_not_before (path_nodup h))).mpr (path_last.mp h).1

/-- A new cell after one of a path. -/
theorem path_insert {p q : Option A} {us vs : List (A × V)} {z y : A × V} {r : Option A}
    (h : Path m p (us++z::vs) q) (hnodup : (addresses (us++z::vs)).Nodup)
    (hy : y.1 ∉ addresses (us++z::vs)) (hr : m z.1 = some ⟨z.2,r⟩) :
    Path (Function.update (Function.update m z.1 (some ⟨z.2,some y.1⟩)) y.1 (some ⟨y.2,r⟩))
      p (us++z::y::vs) q := by
  obtain ⟨t,hus,ht,r',hcell,hvs⟩ := path_append.mp h
  obtain rfl : r = r' := by
    rw [hcell] at hr
    exact (Cell.mk.inj (Option.some.inj hr)).2.symm
  rw [addresses, List.map_append, List.map_cons] at hnodup hy
  have hzus : z.1 ∉ addresses us := fun hmem =>
    (List.nodup_append.mp hnodup).2.2 z.1 hmem z.1 List.mem_cons_self rfl
  have hzvs : z.1 ∉ addresses vs := (List.nodup_cons.mp (List.nodup_append.mp hnodup).2.1).1
  obtain ⟨hyus,hyz,hyvs⟩ : y.1 ∉ addresses us ∧ y.1 ≠ z.1 ∧ y.1 ∉ addresses vs := by
    simpa [addresses] using hy
  apply path_append.mpr
  refine ⟨t,?_,ht,some y.1,?_,rfl,r,Function.update_self ..,?_⟩
  · rw [path_update _ hyus, path_update _ hzus]
    exact hus
  · rw [Function.update_of_ne hyz.symm, Function.update_self]
  · rw [path_update _ hyvs, path_update _ hzvs]
    exact hvs

end Update

end Paths

end BaseDrivers.HeapList
