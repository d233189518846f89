import Mathlib.Data.Int.Init
import Mathlib.Order.Lattice
import Mathlib.Tactic.SplitIfs

/-!
# Arrays with checked places and counting loops

A place outside an array has no value and cannot be written, so a program on
arrays has a result only if all its places are inside. Loops count up to a
bound or down to one. What a part of an array may become while the rest stays
is a relation between the array before and after; compositions of swaps keep
it.
-/

set_option autoImplicit false

namespace BaseDrivers.BoundedArray

section Loops
variable {σ : Type*}

/-- `for (; j < hi; j++)` -/
def for_up (hi : ℤ) (f : ℤ → σ → Option σ) (j : ℤ) (s : σ) : Option σ :=
  if j < hi then (f j s).bind (for_up hi f (j+1)) else some s
termination_by (hi-j).toNat

/-- `for (; j >= lo; j--)` -/
def for_down (lo : ℤ) (f : ℤ → σ → Option σ) (j : ℤ) (s : σ) : Option σ :=
  if lo ≤ j then (f j s).bind (for_down lo f (j-1)) else some s
termination_by (j-lo+1).toNat

/-- Every turn has a result and keeps the invariant. -/
theorem for_up_rule (lo hi : ℤ) (s : σ) {f : ℤ → σ → Option σ} (I : ℤ → σ → Prop)
    (hstep : ∀ j s, lo ≤ j → j < hi → I j s → ∃ s', f j s = some s' ∧ I (j+1) s')
    (hle : lo ≤ hi) (hs : I lo s) : ∃ s', for_up hi f lo s = some s' ∧ I hi s' := by
  obtain ⟨n,hn⟩ : ∃ n : ℕ, hi = lo+n := ⟨(hi-lo).toNat,by omega⟩
  induction n generalizing lo s with
  | zero =>
    obtain rfl : hi = lo := by omega
    exact ⟨s,by rw [for_up, if_neg (Int.lt_irrefl _)],hs⟩
  | succ n ih =>
    obtain ⟨s',hf,hs'⟩ := hstep lo s (Int.le_refl _) (by omega) hs
    obtain ⟨t,ht,hi'⟩ := ih (lo+1) s' (fun j u hj => hstep j u (by omega)) (by omega) hs'
      (by omega)
    refine ⟨t,?_,hi'⟩
    rw [for_up, if_pos (by omega), hf]
    exact ht

theorem for_down_rule (lo hi : ℤ) (s : σ) {f : ℤ → σ → Option σ} (I : ℤ → σ → Prop)
    (hstep : ∀ j s, lo ≤ j → j ≤ hi → I j s → ∃ s', f j s = some s' ∧ I (j-1) s')
    (hle : lo-1 ≤ hi) (hs : I hi s) :
    ∃ s', for_down lo f hi s = some s' ∧ I (lo-1) s' := by
  obtain ⟨n,hn⟩ : ∃ n : ℕ, hi = lo-1+n := ⟨(hi-(lo-1)).toNat,by omega⟩
  induction n generalizing hi s with
  | zero =>
    obtain rfl : hi = lo-1 := by omega
    exact ⟨s,by rw [for_down, if_neg (by omega)],hs⟩
  | succ n ih =>
    obtain ⟨s',hf,hs'⟩ := hstep hi s (by omega) (Int.le_refl _) hs
    obtain ⟨t,ht,hi'⟩ := ih (hi-1) s' (fun j u hj hj' => hstep j u hj (by omega)) (by omega)
      hs' (by omega)
    refine ⟨t,?_,hi'⟩
    rw [for_down, if_pos (by omega), hf]
    exact ht

/-- A loop with nothing to count leaves its state alone. -/
theorem for_up_empty {hi j : ℤ} (f : ℤ → σ → Option σ) (s : σ) (h : hi ≤ j) :
    for_up hi f j s = some s := by
  rw [for_up, if_neg (by omega)]

end Loops

section Arrays
variable {α : Type*}

def get (a : List α) (i : ℤ) : Option α := if 0 ≤ i then a[i.toNat]? else none

def set (a : List α) (i : ℤ) (x : α) : Option (List α) :=
  if 0 ≤ i ∧ i < a.length then some (a.set i.toNat x) else none

/-- `tmp = a[i]; a[i] = a[j]; a[j] = tmp;` -/
def swap (a : List α) (i j : ℤ) : Option (List α) :=
  (get a i).bind fun tmp =>
  (get a j).bind fun x =>
  (set a i x).bind fun a => set a j tmp

def InRange (a : List α) (i : ℤ) : Prop := 0 ≤ i ∧ i < a.length

theorem inRange_nat {a : List α} {i : ℤ} (h : InRange a i) : i.toNat < a.length := by
  obtain ⟨h0,h⟩ := h
  omega

theorem set_inRange {a : List α} {i : ℤ} (h : InRange a i) (x : α) :
    set a i x = some (a.set i.toNat x) := if_pos h

variable [Inhabited α]

/-- The value at a place, whatever it is outside. -/
def val (a : List α) (i : ℤ) : α := (get a i).getD default

theorem get_val {a : List α} {i : ℤ} (h : InRange a i) : get a i = some (val a i) := by
  have hi := inRange_nat h
  rw [val, get, if_pos h.1, List.getElem?_eq_getElem hi]
  rfl

theorem val_nat {a : List α} {i : ℕ} (h : i < a.length) : val a i = a[i] := by
  rw [val, get, if_pos (Int.natCast_nonneg i), Int.toNat_natCast, List.getElem?_eq_getElem h]
  rfl

theorem val_set {a : List α} {i : ℤ} (h : InRange a i) (x : α) (k : ℤ) :
    val (a.set i.toNat x) k = if k = i then x else val a k := by
  have hi := inRange_nat h
  have h0 := h.1
  rw [val, val, get, get]
  by_cases hk : 0 ≤ k
  · rw [if_pos hk, if_pos hk, List.getElem?_set]
    by_cases hki : k = i
    · rw [if_pos (by omega), if_pos hi, if_pos hki]
      rfl
    · rw [if_neg (by omega), if_neg hki]
  · rw [if_neg hk, if_neg hk, if_neg (by omega)]

/-- What is left of an array when two places have changed their values. -/
structure Swapped (i j : ℤ) (a a' : List α) : Prop where
  length : a'.length = a.length
  perm : a'.Perm a
  values : ∀ k, val a' k = if k = j then val a i else if k = i then val a j else val a k

theorem swap_spec {a : List α} {i j : ℤ} (hi : InRange a i) (hj : InRange a j) :
    ∃ a', swap a i j = some a' ∧ Swapped i j a a' := by
  have hin := inRange_nat hi
  have hjn := inRange_nat hj
  have hj' : InRange (a.set i.toNat (val a j)) j := by rwa [InRange, List.length_set]
  have hvi : val a i = a[i.toNat] := by rw [← val_nat hin, Int.toNat_of_nonneg hi.1]
  have hvj : val a j = a[j.toNat] := by rw [← val_nat hjn, Int.toNat_of_nonneg hj.1]
  refine ⟨(a.set i.toNat (val a j)).set j.toNat (val a i),?_,?_,?_,?_⟩
  · rw [swap, get_val hi, get_val hj]
    show (set a i (val a j)).bind _ = _
    rw [set_inRange hi]
    exact set_inRange hj' _
  · rw [List.length_set, List.length_set]
  · rw [hvi, hvj]
    exact List.set_set_perm hin hjn
  · intro k
    rw [val_set hj', val_set hi]

theorem Swapped.symm {i j : ℤ} {a a' : List α} (h : Swapped i j a a') : Swapped j i a a' := by
  refine ⟨h.length,h.perm,fun k => ?_⟩
  rw [h.values k]
  split_ifs with hj hi <;> simp_all

/-- The values of the places from `lo` to `hi` have been moved among these
places, and no others have changed. -/
structure Shuffled (lo hi : ℤ) (a a' : List α) : Prop where
  length : a'.length = a.length
  perm : a'.Perm a
  outside : ∀ k, k < lo ∨ hi < k → val a' k = val a k
  inside : ∀ k, lo ≤ k → k ≤ hi → ∃ l, lo ≤ l ∧ l ≤ hi ∧ val a' k = val a l

namespace Shuffled
variable {lo hi : ℤ} {a b c : List α}

theorem refl (lo hi : ℤ) (a : List α) : Shuffled lo hi a a :=
  ⟨rfl,.refl a,fun _ _ => rfl,fun k hlo hhi => ⟨k,hlo,hhi,rfl⟩⟩

theorem trans (hab : Shuffled lo hi a b) (hbc : Shuffled lo hi b c) : Shuffled lo hi a c := by
  constructor
  · exact hbc.length.trans hab.length
  · exact hbc.perm.trans hab.perm
  · exact fun k hk => (hbc.outside k hk).trans (hab.outside k hk)
  · intro k hlo hhi
    obtain ⟨l,hl,hl',hv⟩ := hbc.inside k hlo hhi
    obtain ⟨m,hm,hm',hw⟩ := hab.inside l hl hl'
    exact ⟨m,hm,hm',hv.trans hw⟩

/-- A shuffle of a part is a shuffle of more. -/
theorem mono {lo' hi' : ℤ} (h : Shuffled lo hi a b) (hlo : lo' ≤ lo) (hhi : hi ≤ hi') :
    Shuffled lo' hi' a b := by
  constructor
  · exact h.length
  · exact h.perm
  · exact fun k hk => h.outside k (by omega)
  · intro k hk hk'
    by_cases hin : lo ≤ k ∧ k ≤ hi
    · obtain ⟨l,hl,hl',hv⟩ := h.inside k hin.1 hin.2
      exact ⟨l,by omega,by omega,hv⟩
    · exact ⟨k,hk,hk',h.outside k (by omega)⟩

theorem of_swapped {i j : ℤ} (h : Swapped i j a b) (hi' : lo ≤ i ∧ i ≤ hi)
    (hj' : lo ≤ j ∧ j ≤ hi) : Shuffled lo hi a b := by
  constructor
  · exact h.length
  · exact h.perm
  · intro k hk
    rw [h.values, if_neg (by omega), if_neg (by omega)]
  · intro k hk hk'
    rw [h.values]
    split_ifs
    · exact ⟨i,hi'.1,hi'.2,rfl⟩
    · exact ⟨j,hj'.1,hj'.2,rfl⟩
    · exact ⟨k,hk,hk',rfl⟩

end Shuffled

end Arrays

section Order
variable {α : Type*} [LinearOrder α] [Inhabited α]

/-- The places below `l` have their final values, and so have those above
`r`. -/
def Settled (l r : ℤ) (a : List α) : Prop :=
  ∀ p q : ℤ, 0 ≤ p → p < q → q < a.length → (p < l ∨ r < q) → val a p ≤ val a q

theorem settled_start (a : List α) : Settled 0 (a.length-1) a := by
  intro p q hp hpq hq h
  omega

/-- Settled places stay so whatever becomes of those between them. -/
theorem settled_shuffled {l r : ℤ} {a b : List α} (h : Settled l r a) (hs : Shuffled l r a b)
    (hl : 0 ≤ l) (hr : r < a.length) : Settled l r b := by
  have hfrom : ∀ k : ℤ, 0 ≤ k → ∃ k', 0 ≤ k' ∧ val b k = val a k' ∧
      (k < l ∨ r < k → k' = k) ∧ (l ≤ k → k ≤ r → l ≤ k' ∧ k' ≤ r) := by
    intro k hk
    by_cases hin : l ≤ k ∧ k ≤ r
    · obtain ⟨k',hlo,hhi,hv⟩ := hs.inside k hin.1 hin.2
      exact ⟨k',by omega,hv,fun h => by omega,fun _ _ => ⟨hlo,hhi⟩⟩
    · exact ⟨k,hk,hs.outside k (by omega),fun _ => rfl,fun h h' => by omega⟩
  intro p q hp hpq hq hpart
  rw [hs.length] at hq
  obtain ⟨p',hp0,hp',hpout,hpin⟩ := hfrom p hp
  obtain ⟨q',hq0,hq',hqout,hqin⟩ := hfrom q (by omega)
  rw [hp', hq']
  by_cases hpl : p < l ∨ r < p
  · rw [hpout hpl]
    by_cases hql : q < l ∨ r < q
    · rw [hqout hql]
      exact h p q hp hpq hq hpart
    · have hin := hqin (by omega) (by omega)
      exact h p q' hp (by omega) (by omega) (by omega)
  · have hin := hpin (by omega) (by omega)
    rw [hqout (by omega)]
    exact h p' q hp0 (by omega) hq (by omega)

/-- The greatest of the values between settled places, at their end. -/
theorem settled_max {l r : ℤ} {a : List α} (h : Settled l r a)
    (hmax : ∀ k, l ≤ k → k ≤ r → val a k ≤ val a r) : Settled l (r-1) a := by
  intro p q hp hpq hq hpart
  by_cases hside : p < l ∨ r < q
  · exact h p q hp hpq hq hside
  · obtain rfl : q = r := by omega
    exact hmax p (by omega) (by omega)

theorem settled_min {l r : ℤ} {a : List α} (h : Settled l r a)
    (hmin : ∀ k, l ≤ k → k ≤ r → val a l ≤ val a k) : Settled (l+1) r a := by
  intro p q hp hpq hq hpart
  by_cases hside : p < l ∨ r < q
  · exact h p q hp hpq hq hside
  · obtain rfl : p = l := by omega
    exact hmin q (by omega) (by omega)

/-- With no two places between the settled ones the array is sorted. -/
theorem settled_sorted {l r : ℤ} {a : List α} (h : Settled l r a) (hlr : r ≤ l) :
    a.Pairwise (· ≤ ·) := by
  rw [List.pairwise_iff_getElem]
  intro i j hi hj hij
  rw [← val_nat hi, ← val_nat hj]
  exact h i j (by omega) (by omega) (by omega) (by omega)

/-- Two neighbours that have been put in order. -/
structure Exchanged (j : ℤ) (a b : List α) : Prop where
  shuffled : Shuffled j (j+1) a b
  lower : val b j ≤ val a (j+1)
  upper : val a j ≤ val b (j+1)
  sorted : val b j ≤ val b (j+1)

theorem exchanged_swapped {j : ℤ} {a b : List α} (hs : Swapped j (j+1) a b)
    (h : val a (j+1) < val a j) : Exchanged j a b := by
  have hj : val b j = val a (j+1) := by rw [hs.values, if_neg (by omega), if_pos rfl]
  have hj' : val b (j+1) = val a j := by rw [hs.values, if_pos rfl]
  constructor
  · exact .of_swapped hs (by omega) (by omega)
  · exact le_of_eq hj
  · exact le_of_eq hj'.symm
  · rw [hj, hj']
    exact le_of_lt h

theorem exchanged_kept {j : ℤ} {a : List α} (h : ¬ val a (j+1) < val a j) : Exchanged j a a :=
  ⟨.refl j (j+1) a,not_lt.mp h,not_lt.mp h,not_lt.mp h⟩

/-- Swapping neighbours that are out of order, and only these, orders them,
whichever of the two is named first. -/
theorem exchanged_result {j : ℤ} {a : List α} {r : Option (List α)} (hj : InRange a j)
    (hj' : InRange a (j+1))
    (hswap : val a (j+1) < val a j → r = swap a j (j+1) ∨ r = swap a (j+1) j)
    (hkeep : ¬ val a (j+1) < val a j → r = some a) : ∃ b, r = some b ∧ Exchanged j a b := by
  by_cases h : val a (j+1) < val a j
  · rcases hswap h with rfl | rfl
    · obtain ⟨b,hb,hs⟩ := swap_spec hj hj'
      exact ⟨b,hb,exchanged_swapped hs h⟩
    · obtain ⟨b,hb,hs⟩ := swap_spec hj' hj
      exact ⟨b,hb,exchanged_swapped hs.symm h⟩
  · exact ⟨a,hkeep h,exchanged_kept h⟩

/-- A turn that puts the neighbours at its place in order. -/
def Exchanges (f : ℤ → List α → Option (List α)) : Prop :=
  ∀ j a, InRange a j → InRange a (j+1) → ∃ b, f j a = some b ∧ Exchanged j a b

/-- A pass upwards takes the greatest value to the end. -/
theorem pass_up {f : ℤ → List α → Option (List α)} (hf : Exchanges f) {lo hi : ℤ} {a : List α}
    (h0 : 0 ≤ lo) (hle : lo ≤ hi) (hhi : hi < a.length) :
    ∃ b, for_up hi f lo a = some b ∧ Shuffled lo hi a b ∧
      ∀ k, lo ≤ k → k ≤ hi → val b k ≤ val b hi := by
  apply for_up_rule lo hi a
    (fun j b => Shuffled lo hi a b ∧ ∀ k, lo ≤ k → k ≤ j → val b k ≤ val b j)
    _ hle ⟨.refl lo hi a,fun k hk hk' => le_of_eq (congrArg _ (by omega))⟩
  rintro j b hlo hj ⟨hs,hmax⟩
  have hlen := hs.length
  obtain ⟨c,hc,hex⟩ := hf j b ⟨by omega,by omega⟩ ⟨by omega,by omega⟩
  refine ⟨c,hc,hs.trans (hex.shuffled.mono (by omega) (by omega)),?_⟩
  intro k hk hk'
  rcases (by omega : k < j ∨ k = j ∨ k = j+1) with h | rfl | rfl
  · rw [hex.shuffled.outside k (.inl h)]
    exact le_trans (hmax k hk (by omega)) hex.upper
  · exact hex.sorted
  · exact le_refl _

/-- A pass downwards takes the least value to the start. -/
theorem pass_down {f : ℤ → List α → Option (List α)} (hf : Exchanges f) {lo hi : ℤ} {a : List α}
    (h0 : 0 ≤ lo) (hle : lo ≤ hi+1) (hhi : hi+1 < a.length) :
    ∃ b, for_down lo f hi a = some b ∧ Shuffled lo (hi+1) a b ∧
      ∀ k, lo ≤ k → k ≤ hi+1 → val b lo ≤ val b k := by
  obtain ⟨b,hb,hs,hmin⟩ := for_down_rule lo hi a (f := f)
    (fun j b => Shuffled lo (hi+1) a b ∧ ∀ k, j+1 ≤ k → k ≤ hi+1 → val b (j+1) ≤ val b k)
    (by
      rintro j b hlo hj ⟨hs,hmin⟩
      have hlen := hs.length
      obtain ⟨c,hc,hex⟩ := hf j b ⟨by omega,by omega⟩ ⟨by omega,by omega⟩
      refine ⟨c,hc,hs.trans (hex.shuffled.mono (by omega) (by omega)),?_⟩
      intro k hk hk'
      rw [Int.sub_add_cancel] at hk ⊢
      rcases (by omega : k = j ∨ k = j+1 ∨ j+1 < k) with rfl | rfl | h
      · exact le_refl _
      · exact hex.sorted
      · rw [hex.shuffled.outside k (.inr h)]
        exact le_trans hex.lower (hmin k (by omega) hk'))
    (by omega) ⟨.refl lo (hi+1) a,fun k hk hk' => le_of_eq (congrArg _ (by omega))⟩
  refine ⟨b,hb,hs,?_⟩
  rwa [Int.sub_add_cancel] at hmin

end Order

end BaseDrivers.BoundedArray
