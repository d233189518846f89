import Mathlib.Data.Int.Init
import Mathlib.Tactic.SplitIfs
import BaseDrivers.ListOperation

/-!
# Creation of the list of nodes

The head node, the first element and the others are requested one after the
other. Each is linked with the one before it as soon as it is there, and only
at the end is the last one linked with nothing. A request that fails leaves
the list as it is.
-/

set_option autoImplicit false

namespace BaseDrivers.ListCreation
open BaseDrivers.Execution BaseDrivers.HeapList BaseDrivers.ListOperation

variable {A : Type*} [DecidableEq A]

/-- One turn of the loop, with `i` and the last node linked so far. It leaves
with that node, or with nothing after a request that failed. -/
def create_turn (n : BitVec 32) :
    BitVec 32 × A × State A → (BitVec 32 × A × State A) ⊕ Option (Option A × State A)
  | (i,p,s) =>
    if i.toInt < (n-1).toInt then
      match malloc s with
      | (none,s) => .inr (some (none,s))
      | (some q,s) =>
        match (scanf_a (some q) s).bind (set_next (some p) (some q)) with
        | none => .inr none
        | some s => .inl (i+1,q,s)
    else
      .inr (some (some p,s))

def create_list (turns : ℕ) (n : BitVec 32) (s : State A) : Option (Option A × State A) :=
  let (head,s) := malloc s
  let s := { s with head := head }
  match head with
  | none => some (none,s)
  | some _ =>
    match malloc s with
    | (none,s) => some (none,s)
    | (some p,s) => do
      let s ← scanf_a (some p) s
      let s ← set_next s.head (some p) s
      match ← ended (loop (create_turn n) turns (0,p,s)) with
      | (none,s) => some (none,s)
      | (some p,s) => do
        let s ← set_next (some p) none s
        some (s.head,s)

/-- The head is null or holds a list that can be traversed, and when it is
returned the list has the elements asked for, in the order of their entry. -/
def Created (turns : ℕ) (n : BitVec 32) (s : State A) : Prop :=
  ∃ r s', create_list turns n s = some (r,s') ∧
    (s'.head = none ∨ ∃ h xs, Holds s' h xs ∧ Traversed s' xs) ∧
    ∀ h, r = some h → ∃ xs, Holds s' h xs ∧ xs.length = n.toInt ∧
      values xs = (List.range xs.length).map s.input

omit [DecidableEq A] in
/-- The pointer left in the last of the nodes, by whoever had its memory
before. -/
def dangling (r : Option A) : List (A × Cell A (BitVec 32)) → Option A
  | [] => r
  | x::taken => dangling x.2.next taken

omit [DecidableEq A] in
/-- The nodes with the numbers entered for them. -/
def entries : List (A × Cell A (BitVec 32)) → (ℕ → BitVec 32) → List (A × BitVec 32)
  | [], _ => []
  | x::taken, input => (x.1,input 0)::entries taken (fun i => input (i+1))

/-- The invariant: the nodes linked so far come from memory that was not in
use, and the last of them has the pointer it came with. -/
structure Made (s₀ s : State A) (cs : List (A × BitVec 32)) (r : Option A) : Prop where
  path : Path s.mem s.head cs r
  nodup : (addresses cs).Nodup
  fresh : Fresh s
  frame : ∀ a ∉ addresses cs, s.mem a = s₀.mem a
  unused : ∀ a ∈ addresses cs, s₀.mem a = none

section Lists
omit [DecidableEq A]

theorem entries_length (taken : List (A × Cell A (BitVec 32))) (input : ℕ → BitVec 32) :
    (entries taken input).length = taken.length := by
  induction taken generalizing input with
  | nil => rfl
  | cons x taken ih => exact congrArg (·+1) (ih _)

theorem entries_values (taken : List (A × Cell A (BitVec 32))) (input : ℕ → BitVec 32) :
    values (entries taken input) = (List.range taken.length).map input := by
  induction taken generalizing input with
  | nil => rfl
  | cons x taken ih =>
    rw [List.length_cons, List.range_succ_eq_map, List.map_cons, List.map_map]
    exact congrArg _ (ih _)

theorem next_index {i j : BitVec 32} (h : i.toInt < j.toInt) : (i+1).toInt = i.toInt+1 := by
  have hj := j.toInt_lt
  have hi := i.le_toInt
  rw [BitVec.toInt_add]
  apply Int.bmod_eq_of_le <;> simp <;> omega

/-- The loop and the node before it are for the number asked for. -/
theorem requested (n : BitVec 32) :
    (((n-1).toInt.toNat+1 : ℕ) : ℤ) = n.toInt ↔ 1 ≤ n.toInt := by
  constructor
  · omega
  · intro hn
    have hpos := n.toInt_lt
    have hsub : (n-1).toInt = n.toInt-1 := by
      rw [BitVec.toInt_sub]
      apply Int.bmod_eq_of_le <;> simp <;> omega
    omega

end Lists

section Making
variable {s₀ s : State A} {us : List (A × BitVec 32)} {p q : A} {v : BitVec 32} {r : Option A}
  {c : Cell A (BitVec 32)} {rest : List (A × Cell A (BitVec 32))}

omit [DecidableEq A] in
theorem rest_fresh (h : Fresh s) (hfree : s.free = (q,c)::rest) :
    q ∉ rest.map Prod.fst ∧ (rest.map Prod.fst).Nodup ∧ ∀ x ∈ rest, s.mem x.1 = none := by
  have hnodup := h.nodup
  rw [hfree, List.map_cons] at hnodup
  obtain ⟨hq,hrest⟩ := List.nodup_cons.mp hnodup
  refine ⟨hq,hrest,?_⟩
  intro x hx
  exact h.unused x (hfree ▸ List.mem_cons_of_mem _ hx)

omit [DecidableEq A] in
/-- The invariant after a change of the node linked last and of a new one. -/
theorem Made.extended (h : Made s₀ s (us++[(p,v)]) r) (hfree : s.free = (q,c)::rest)
    {s' : State A} {a : BitVec 32} {r' : Option A} (hhead : s'.head = s.head)
    (hfree' : s'.free = rest) (hp : s'.mem p = some ⟨v,some q⟩) (hq : s'.mem q = some ⟨a,r'⟩)
    (hother : ∀ b, b ≠ p → b ≠ q → s'.mem b = s.mem b) :
    Made s₀ s' (us++[(p,v)]++[(q,a)]) r' := by
  have hp' := (path_last.mp h.path).2
  have hnew := new_address h.fresh hfree h.path
  have hnone : s.mem q = none := h.fresh.unused (q,c) (hfree ▸ List.mem_cons_self)
  obtain ⟨hqrest,hrest,hunused⟩ := rest_fresh h.fresh hfree
  have hadded (b : A) : b ∈ addresses (us++[(p,v)]++[(q,a)]) ↔
      b ∈ addresses (us++[(p,v)]) ∨ b = q := by
    rw [addresses_concat _ (q,a), List.mem_append, List.mem_singleton]
  constructor
  · rw [hhead]
    exact path_extend h.path h.nodup hnew hp hq hother
  · rw [addresses_concat]
    exact List.concat_eq_append ▸ h.nodup.concat hnew
  · constructor
    · rw [hfree']
      exact hrest
    · intro x hx
      rw [hfree'] at hx
      rw [hother, hunused x hx]
      · rintro heq
        have hx' := hunused x hx
        rw [heq, hp'] at hx'
        cases hx'
      · rintro heq
        exact hqrest (heq ▸ List.mem_map_of_mem hx)
  · intro b hb
    rw [hadded, not_or] at hb
    rw [hother b _ hb.2, h.frame b hb.1]
    rintro rfl
    apply hb.1
    rw [addresses_concat]
    exact List.mem_append_right _ List.mem_cons_self
  · intro b hb
    rcases (hadded b).mp hb with hb | rfl
    · exact h.unused b hb
    · rw [← h.frame b hnew]
      exact hnone

/-- A new node is entered and linked with the one before it. -/
theorem Made.linked (h : Made s₀ s (us++[(p,v)]) r) (hfree : s.free = (q,c)::rest) :
    ∃ s1 s2 s3, malloc s = (some q,s1) ∧ scanf_a (some q) s1 = some s2 ∧ s2.head = s.head ∧
      set_next (some p) (some q) s2 = some s3 ∧ s3.head = s.head ∧ s3.free = rest ∧
      s3.input = (fun i => s.input (i+1)) ∧
      Made s₀ s3 (us++[(p,v)]++[(q,s.input 0)]) c.next := by
  have hp := (path_last.mp h.path).2
  have hne : p ≠ q := by
    rintro rfl
    exact new_address h.fresh hfree h.path (by simp [addresses])
  obtain ⟨s2,hs2⟩ : ∃ s2, s2 = store q ⟨s.input 0,c.next⟩
      { store q c { s with free := rest } with input := fun i => s.input (i+1) } := ⟨_,rfl⟩
  have hp2 : s2.mem p = some ⟨v,r⟩ := by
    rw [hs2, store_other hne]
    exact (store_other hne).trans hp
  refine ⟨_,s2,store p ⟨v,some q⟩ s2,malloc_gives hfree,?_,?_,set_next_sets hp2 (some q),?_,?_,
    ?_,?_⟩
  · rw [scanf_a_sets (store_self q), hs2]
    rfl
  · rw [hs2]; rfl
  · rw [hs2]; rfl
  · rw [hs2]; rfl
  · rw [hs2]; rfl
  · apply h.extended hfree
    · rw [hs2]; rfl
    · rw [hs2]; rfl
    · exact store_self p
    · rw [store_other hne.symm, hs2, store_self]
    · intro b hbp hbq
      rw [store_other hbp, hs2, store_other hbq]
      exact store_other hbq

/-- The loop takes nodes for as many turns as are left, or as many as there
are. -/
theorem loop_creates (n : BitVec 32) (m turns : ℕ) (i : BitVec 32)
    (hm : m = ((n-1).toInt-i.toInt).toNat) (hturns : turns > m) (h : Made s₀ s (us++[(p,v)]) r) :
    ∃ s' us' z, loop (create_turn n) turns (i,p,s) =
        .inr (some (if m ≤ s.free.length then some z.1 else none,s')) ∧
      us'++[z] = us++(p,v)::entries (s.free.take m) s.input ∧ s'.head = s.head ∧
      Made s₀ s' (us'++[z]) (dangling r (s.free.take m)) := by
  induction m generalizing turns i p v r us s with
  | zero =>
    obtain ⟨k,rfl⟩ : ∃ k, turns = k+1 := ⟨turns-1,by omega⟩
    have hturn : create_turn n (i,p,s) = .inr (some (some p,s)) := by
      rw [create_turn, if_neg (by omega)]
    refine ⟨s,us,(p,v),?_,rfl,rfl,h⟩
    rw [loop_leave k hturn, if_pos (Nat.zero_le _)]
  | succ m ih =>
    obtain ⟨k,rfl⟩ : ∃ k, turns = k+1 := ⟨turns-1,by omega⟩
    have hi : i.toInt < (n-1).toInt := by omega
    cases hfree : s.free with
    | nil =>
      have hturn : create_turn n (i,p,s) = .inr (some (none,s)) := by
        rw [create_turn, if_pos hi, malloc_fails hfree]
      refine ⟨s,us,(p,v),?_,rfl,rfl,h⟩
      rw [loop_leave k hturn]
      rfl
    | cons x rest =>
      obtain ⟨s1,s2,s3,hmalloc,hscanf,-,hset,hhead,hfree',hinput,hmade⟩ := h.linked hfree
      have hturn : create_turn n (i,p,s) = .inl (i+1,x.1,s3) := by
        simp only [create_turn, if_pos hi, hmalloc, hscanf, Option.bind_some, hset]
      have hnext := next_index hi
      obtain ⟨s',us',z,hloop,hsplit,hhead',hmade'⟩ := ih k (i+1) (by omega) (by omega) hmade
      rw [hfree', hinput] at hsplit
      rw [hfree'] at hloop hmade'
      refine ⟨s',us',z,?_,?_,hhead'.trans hhead,hmade'⟩
      · rw [loop_continue k hturn, hloop]
        simp only [List.length_cons, Nat.add_le_add_iff_right]
      · rw [hsplit, List.append_assoc]
        rfl

/-- The head node alone. -/
theorem begun (hs : Fresh s) (hfree : s.free = (p,c)::rest) :
    Made s { store p c { s with free := rest } with head := some p } ([]++[(p,c.value)])
      c.next := by
  obtain ⟨hp,hrest,hunused⟩ := rest_fresh hs hfree
  have hnone : s.mem p = none := hs.unused (p,c) (hfree ▸ List.mem_cons_self)
  constructor
  · exact ⟨rfl,c.next,store_self p,rfl⟩
  · exact List.nodup_singleton p
  · constructor
    · exact hrest
    · intro x hx
      have hne : x.1 ≠ p := fun heq => hp (heq ▸ List.mem_map_of_mem hx)
      exact (store_other hne).trans (hunused x hx)
  · intro b hb
    exact store_other (fun heq => hb (heq ▸ List.mem_cons_self))
  · intro b hb
    rw [List.mem_singleton.mp hb]
    exact hnone

/-- What `create_list` comes to when `malloc` gives the head node and the
first element: the list is ended when all the others are there, too. -/
theorem create_outcome (hs : Fresh s) {x y : A × Cell A (BitVec 32)} (hfree : s.free = x::y::rest)
    (n : BitVec 32) {turns : ℕ} (hturns : turns > (n-1).toInt.toNat) :
    ∃ s' us z, s'.head = some x.1 ∧
      us++[z] = (x.1,x.2.value)::entries ((y::rest).take ((n-1).toInt.toNat+1)) s.input ∧
      Made s s' (us++[z]) (dangling none ((y::rest).take ((n-1).toInt.toNat+1))) ∧
      create_list turns n s = if (n-1).toInt.toNat ≤ rest.length then
        some (some x.1,store z.1 ⟨z.2,none⟩ s') else some (none,s') := by
  obtain ⟨s1,s2,s3,hmalloc,hscanf,hhead2,hset,hhead,hfree',hinput,hmade⟩ :=
    (begun hs hfree).linked (q := y.1) (c := y.2) (r := x.2.next) rfl
  obtain ⟨s',us,z,hloop,hsplit,hhead',hmade'⟩ :=
    loop_creates n ((n-1).toInt.toNat) turns 0 (by simp) hturns hmade
  rw [hfree', hinput] at hsplit
  rw [hfree'] at hloop hmade'
  refine ⟨s',us,z,hhead'.trans hhead,hsplit,hmade',?_⟩
  have hfirst : malloc s = (some x.1,store x.1 x.2 { s with free := y::rest }) :=
    malloc_gives hfree
  have hend := set_next_sets (path_last.mp hmade'.path).2 none
  simp only [create_list, hfirst, hmalloc, hscanf, hhead2, hset, hloop, ended,
    Option.bind_eq_bind, Option.bind_some]
  split_ifs
  · simp only [hend, Option.bind_some, store_head, hhead'.trans hhead]
  · rfl

omit [DecidableEq A] in
/-- What was made is the start of a list that can be traversed exactly when
the pointer in its last node already led to one. -/
theorem Made.sound_iff {cs : List (A × BitVec 32)} (h : Made s₀ s cs r) (hhead : s.head = some p) :
    (s.head = none ∨ ∃ h xs, Holds s h xs ∧ Traversed s xs) ↔ ∃ xs, Path s₀.mem r xs none := by
  rw [← path_ends_iff h.path h.frame h.unused, hhead]
  constructor
  · rintro (hnone | ⟨a,xs,⟨ha,g,hpath⟩,-⟩)
    · cases hnone
    · rw [← ha, hhead] at hpath
      exact ⟨_,hpath⟩
  · rintro ⟨ys,hys⟩
    cases ys with
    | nil => cases hys
    | cons y ys =>
      have hy : p = y.1 := Option.some.inj hys.1
      have hholds : Holds s p ys := ⟨hhead,y.2,by rw [hy] at hys ⊢; exact hys⟩
      exact .inr ⟨p,ys,hholds,holds_traversed hholds⟩

theorem created_none (hfree : s.free = []) (n : BitVec 32) (turns : ℕ) : Created turns n s := by
  refine ⟨none,{ s with head := none },?_,.inl rfl,?_⟩
  · simp only [create_list, malloc_fails hfree]
  · rintro h hnone
    cases hnone

theorem create_short (hs : Fresh s) (hne : s.free ≠ []) (n : BitVec 32) {turns : ℕ}
    (hturns : turns > (n-1).toInt.toNat) (hshort : s.free.length ≤ (n-1).toInt.toNat+1) :
    ∃ s' h cs, create_list turns n s = some (none,s') ∧ s'.head = some h ∧
      Made s s' cs (dangling none s.free) := by
  obtain ⟨x,rest,hfree⟩ := List.exists_cons_of_ne_nil hne
  cases rest with
  | nil =>
    have hfirst : malloc s = (some x.1,store x.1 x.2 { s with free := [] }) :=
      malloc_gives hfree
    rw [hfree]
    refine ⟨{ store x.1 x.2 { s with free := [] } with head := some x.1 },x.1,_,?_,rfl,
      begun (p := x.1) (c := x.2) hs hfree⟩
    simp only [create_list, hfirst]
    rw [malloc_fails rfl]
  | cons y rest =>
    rw [hfree, List.length_cons, List.length_cons] at hshort
    obtain ⟨s',us,z,hhead,-,hmade,hcreate⟩ := create_outcome hs hfree n hturns
    rw [if_neg (by omega)] at hcreate
    rw [List.take_of_length_le (by rw [List.length_cons]; omega)] at hmade
    rw [hfree]
    exact ⟨s',x.1,_,hcreate,hhead,hmade⟩

theorem create_long (hs : Fresh s) (n : BitVec 32) {turns : ℕ}
    (hturns : turns > (n-1).toInt.toNat) (hlong : (n-1).toInt.toNat+2 ≤ s.free.length) :
    ∃ s' h, create_list turns n s = some (some h,s') ∧
      Holds s' h (entries ((s.free.drop 1).take ((n-1).toInt.toNat+1)) s.input) := by
  obtain ⟨x,y,rest,hfree⟩ : ∃ x y rest, s.free = x::y::rest := by
    match s.free, hlong with
    | x::y::rest, _ => exact ⟨x,y,rest,rfl⟩
  obtain ⟨s',us,z,hhead,hsplit,hmade,hcreate⟩ := create_outcome hs hfree n hturns
  rw [hfree, List.length_cons, List.length_cons] at hlong
  rw [if_pos (by omega)] at hcreate
  refine ⟨_,x.1,hcreate,hhead,x.2.value,?_⟩
  rw [hfree, List.drop_one, List.tail_cons, ← hsplit, ← hhead]
  apply path_set_end hmade.path
  have hnodup := hmade.nodup
  rw [addresses, List.map_append, List.nodup_append] at hnodup
  exact fun hz => hnodup.2.2 z.1 hz z.1 List.mem_cons_self rfl

theorem created_short_iff (hs : Fresh s) (hne : s.free ≠ []) (n : BitVec 32) {turns : ℕ}
    (hturns : turns > (n-1).toInt.toNat) (hshort : s.free.length ≤ (n-1).toInt.toNat+1) :
    Created turns n s ↔ ∃ xs, Path s.mem (dangling none s.free) xs none := by
  obtain ⟨s',h,cs,hcreate,hhead,hmade⟩ := create_short hs hne n hturns hshort
  rw [← hmade.sound_iff hhead]
  constructor
  · rintro ⟨r,t,hr,hsound,-⟩
    obtain ⟨rfl,rfl⟩ := Prod.mk.inj (Option.some.inj (hcreate.symm.trans hr))
    exact hsound
  · intro hsound
    refine ⟨none,s',hcreate,hsound,?_⟩
    rintro a ha
    cases ha

theorem created_long_iff (hs : Fresh s) (n : BitVec 32) {turns : ℕ}
    (hturns : turns > (n-1).toInt.toNat) (hlong : (n-1).toInt.toNat+2 ≤ s.free.length) :
    Created turns n s ↔ 1 ≤ n.toInt := by
  obtain ⟨s',h,hcreate,hholds⟩ := create_long hs n hturns hlong
  have hlength : ((s.free.drop 1).take ((n-1).toInt.toNat+1)).length =
      (n-1).toInt.toNat+1 := by
    rw [List.length_take, List.length_drop]
    omega
  rw [← requested n]
  constructor
  · rintro ⟨r,t,hr,-,hcomplete⟩
    obtain ⟨rfl,rfl⟩ := Prod.mk.inj (Option.some.inj (hcreate.symm.trans hr))
    obtain ⟨xs,hxs,hn,-⟩ := hcomplete h rfl
    rw [← hn, holds_unique hxs hholds, entries_length, hlength]
  · intro hn
    refine ⟨some h,s',hcreate,.inr ⟨h,_,hholds,holds_traversed hholds⟩,?_⟩
    rintro a ha
    obtain rfl := Option.some.inj ha
    refine ⟨_,hholds,?_,?_⟩
    · rw [entries_length, hlength, hn]
    · rw [entries_values, entries_length]

end Making

/-- When the head node and the first element can be had, the list has to be
asked for with a positive number and to be given all its nodes; otherwise it
goes on with what was left in the last node given. -/
theorem created_iff {s : State A} (hs : Fresh s) (n : BitVec 32) (turns : ℕ)
    (hturns : turns > (n-1).toInt.toNat) :
    Created turns n s ↔ s.free = [] ∨ (1 ≤ n.toInt ∧ n.toInt+1 ≤ s.free.length) ∨
      (s.free.length ≤ (n-1).toInt.toNat+1 ∧
        ∃ xs, Path s.mem (dangling none s.free) xs none) := by
  have hrequested := requested n
  by_cases hfree : s.free = []
  · simp [hfree, created_none hfree n turns]
  by_cases hshort : s.free.length ≤ (n-1).toInt.toNat+1
  · rw [created_short_iff hs hfree n hturns hshort]
    have hfew : ¬ (1 ≤ n.toInt ∧ n.toInt+1 ≤ s.free.length) := by omega
    rw [or_iff_right hfree, or_iff_right hfew, and_iff_right hshort]
  · rw [created_long_iff hs n hturns (by omega)]
    have hmany : 1 ≤ n.toInt ↔ 1 ≤ n.toInt ∧ n.toInt+1 ≤ s.free.length := by omega
    rw [or_iff_right hfree, ← hmany, or_iff_left (fun h => hshort h.1)]

/-- Memory with a pointer left in each part of it. -/
def used (free : List (ℕ × Cell ℕ (BitVec 32))) : State ℕ where
  mem _ := none
  head := none
  free := free
  input i := BitVec.ofNat 32 (i+5)

theorem created_iff_pair : Created 2 2 (used [(1,⟨0,some 7⟩),(2,⟨0,some 7⟩),(3,⟨0,some 8⟩)]) :=
  (created_iff ⟨by decide,fun _ _ => rfl⟩ 2 2 (by decide)).mpr
    (.inr (.inl ⟨by decide,by decide⟩))

/-- The first element cannot be had, and the head node is left with a pointer
to nowhere. -/
theorem head_left_dangling : Fresh (used [(1,⟨0,some 7⟩)]) ∧
    ¬ Created 1 1 (used [(1,⟨0,some 7⟩)]) := by
  constructor
  · exact ⟨List.nodup_singleton 1,fun _ _ => rfl⟩
  · rintro ⟨r,s',hcreate,hsound,-⟩
    obtain ⟨rfl,rfl⟩ := Prod.mk.inj (Option.some.inj hcreate)
    rcases hsound with hnone | ⟨h,xs,⟨hhead,g,hpath⟩,-⟩
    · cases hnone
    · obtain rfl := Option.some.inj hhead
      obtain ⟨-,q,hcell,hrest⟩ := hpath
      obtain ⟨-,rfl⟩ := Cell.mk.inj (Option.some.inj hcell)
      cases xs with
      | nil => cases hrest
      | cons y xs =>
        obtain ⟨hy,t,hcell,-⟩ := hrest
        rw [← Option.some.inj hy] at hcell
        cases hcell

end BaseDrivers.ListCreation
