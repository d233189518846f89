import Mathlib.Data.Int.Init
import BaseDrivers.Execution
import BaseDrivers.HeapList

/-!
# Insertion into the list of nodes

The list has a head node without an element and ends with a null pointer. A
new node is put first, after a node asked for, or last; the place is looked
for by following the pointers and counting.
-/

set_option autoImplicit false

namespace BaseDrivers.ListOperation
open BaseDrivers.Execution BaseDrivers.HeapList

variable {A : Type*}

/-- The memory and the global `head`, the memory that `malloc` will give with
what is in it, and the numbers that will be entered. A null pointer is `none`. -/
structure State (A : Type*) where
  mem : Mem A (BitVec 32)
  head : Option A
  free : List (A × Cell A (BitVec 32))
  input : ℕ → BitVec 32

def scanf (s : State A) : BitVec 32 × State A :=
  (s.input 0,{ s with input := fun i => s.input (i+1) })

/-- `p->next`. An access through a pointer to no node has no result. -/
def next (p : Option A) (s : State A) : Option (Option A) :=
  (p.bind s.mem).map Cell.next

/-- The result of a loop. One that made an access to no node, or is still
going after its turns, has none. -/
def ended {σ ρ : Type*} : σ ⊕ Option ρ → Option ρ
  | .inl _ => none
  | .inr r => r

def print_turn (s : State A) :
    Option A × List (BitVec 32) → (Option A × List (BitVec 32)) ⊕ Option (List (BitVec 32))
  | (none,printed) => .inr (some printed)
  | (some p,printed) =>
    match s.mem p with
    | none => .inr none
    | some c => .inl (c.next,printed++[c.value])

/-- The numbers printed. -/
def print_list (turns : ℕ) (head : Option A) (s : State A) : Option (List (BitVec 32)) :=
  (next head s).bind fun p => ended (loop (print_turn s) turns (p,[]))

def size_turn (s : State A) : Option A × BitVec 32 → (Option A × BitVec 32) ⊕ Option (BitVec 32)
  | (none,count) => .inr (some count)
  | (some p,count) =>
    match s.mem p with
    | none => .inr none
    | some c => .inl (c.next,count+1)

def list_size (turns : ℕ) (s : State A) : Option (BitVec 32) :=
  (next s.head s).bind fun p => ended (loop (size_turn s) turns (p,0))

def mid_turn (n : BitVec 32) (s : State A) :
    Option A × BitVec 32 → (Option A × BitVec 32) ⊕ Option (Option A × BitVec 32)
  | (tmp1,count) =>
    match next tmp1 s with
    | none => .inr none
    | some none => .inr (some (tmp1,count))
    | some (some q) => if n = count then .inr (some (tmp1,count)) else .inl (some q,count+1)

def tail_turn (s : State A) (tmp : Option A) : Option A ⊕ Option (Option A) :=
  match next tmp s with
  | none => .inr none
  | some none => .inr (some tmp)
  | some (some q) => .inl (some q)

/-- The global head leads from its own node, whose number is never used, over
the elements to a null pointer. -/
def Holds (s : State A) (h : A) (xs : List (A × BitVec 32)) : Prop :=
  s.head = some h ∧ ∃ g, Path s.mem (some h) ((h,g)::xs) none

/-- The list is traversed in full, and counted. -/
def Traversed (s : State A) (xs : List (A × BitVec 32)) : Prop :=
  ∀ turns > xs.length, print_list turns s.head s = some (values xs) ∧
    list_size turns s = some (BitVec.ofNat 32 xs.length)

/-- A new element after the first `k`. -/
def Inserted (s' : State A) (h : A) (xs : List (A × BitVec 32)) (k : ℕ) (x : A × BitVec 32) :
    Prop :=
  Holds s' h (xs.take k++x::xs.drop k) ∧ Traversed s' (xs.take k++x::xs.drop k)

/-- What `malloc` gives is not in use. -/
structure Fresh (s : State A) : Prop where
  nodup : (s.free.map Prod.fst).Nodup
  unused : ∀ x ∈ s.free, s.mem x.1 = none

section Reading
variable {s : State A}

theorem count_succ (count : BitVec 32) (k : ℕ) :
    count+1+BitVec.ofNat 32 k = count+BitVec.ofNat 32 (k+1) := by
  rw [BitVec.add_assoc, Nat.add_comm k, BitVec.ofNat_add]
  rfl

theorem next_some {a : A} {c : Cell A (BitVec 32)} (h : s.mem a = some c) :
    next (some a) s = some c.next := by
  simp [next, h]

theorem print_ends {p : Option A} {xs : List (A × BitVec 32)} (h : Path s.mem p xs none)
    (turns : ℕ) (hturns : turns > xs.length) :
    loop (print_turn s) turns (p,[]) = .inr (some (values xs)) := by
  have hcell (a : A) (c : Cell A (BitVec 32)) (printed : List (BitVec 32))
      (ha : s.mem a = some c) :
      print_turn s (some a,printed) = .inl (c.next,printed++[c.value]) := by
    simp [print_turn, ha]
  rw [loop_sums (fun printed v => printed++[v]) some hcell (fun _ => rfl) h [] turns hturns,
    List.foldl_append_eq_append, List.nil_append, ← List.flatMap_def, List.flatMap_singleton']

theorem size_ends {p : Option A} {xs : List (A × BitVec 32)} (h : Path s.mem p xs none)
    (turns : ℕ) (hturns : turns > xs.length) :
    loop (size_turn s) turns (p,0) = .inr (some (BitVec.ofNat 32 xs.length)) := by
  have hcell (a : A) (c : Cell A (BitVec 32)) (count : BitVec 32) (ha : s.mem a = some c) :
      size_turn s (some a,count) = .inl (c.next,count+1) := by
    simp [size_turn, ha]
  have hcount (vs : List (BitVec 32)) (count : BitVec 32) :
      vs.foldl (fun count _ => count+1) count = count+BitVec.ofNat 32 vs.length := by
    induction vs generalizing count with
    | nil => simp
    | cons v vs ih => rw [List.foldl_cons, ih, count_succ, List.length_cons]
  rw [loop_sums (fun count _ => count+1) some hcell (fun _ => rfl) h 0 turns hturns, hcount]
  simp [values]

/-- Printing and counting go over the list that the head holds. -/
theorem holds_traversed {h : A} {xs : List (A × BitVec 32)} (hs : Holds s h xs) :
    Traversed s xs := by
  obtain ⟨hhead,g,-,r,hcell,hxs⟩ := hs
  intro turns hturns
  rw [print_list, list_size, hhead, next_some hcell]
  simp only [Option.bind_some]
  rw [print_ends hxs turns hturns, size_ends hxs turns hturns]
  exact ⟨rfl,rfl⟩

theorem holds_unique {h : A} {xs ys : List (A × BitVec 32)} (hx : Holds s h xs)
    (hy : Holds s h ys) : xs = ys := by
  obtain ⟨-,g,hx⟩ := hx
  obtain ⟨-,g',hy⟩ := hy
  exact (List.cons.inj (path_unique hx hy)).2

/-- The loop of `add_to_mid` stops at the last element, or at the first one
whose number is asked for. -/
theorem mid_stops (n : BitVec 32) {z : A × BitVec 32} {vs : List (A × BitVec 32)}
    (h : Path s.mem (some z.1) (z::vs) none) (count : BitVec 32) (turns : ℕ)
    (hturns : turns > vs.length) :
    ∃ us w ws, z::vs = us++w::ws ∧ loop (mid_turn n s) turns (some z.1,count) =
        .inr (some (some w.1,count+BitVec.ofNat 32 us.length)) ∧
      (ws = [] ∨ n = count+BitVec.ofNat 32 us.length) ∧
      ∀ j < us.length, n ≠ count+BitVec.ofNat 32 j := by
  induction vs generalizing z count turns with
  | nil =>
    obtain ⟨k,rfl⟩ : ∃ k, turns = k+1 := ⟨turns-1,by omega⟩
    obtain ⟨-,r,hz,rfl⟩ := h
    have hturn : mid_turn n s (some z.1,count) = .inr (some (some z.1,count)) := by
      simp [mid_turn, next_some hz]
    exact ⟨[],z,[],rfl,by simp [loop_leave k hturn],.inl rfl,by simp⟩
  | cons y vs ih =>
    obtain ⟨k,rfl⟩ : ∃ k, turns = k+1 := ⟨turns-1,by omega⟩
    obtain ⟨-,r,hz,rfl,hrest⟩ := h
    by_cases hn : n = count
    · have hturn : mid_turn n s (some z.1,count) = .inr (some (some z.1,count)) := by
        simp [mid_turn, next_some hz, hn]
      exact ⟨[],z,y::vs,rfl,by simp [loop_leave k hturn],.inr (by simp [hn]),by simp⟩
    · have hturn : mid_turn n s (some z.1,count) = .inl (some y.1,count+1) := by
        simp [mid_turn, next_some hz, hn]
      obtain ⟨us,w,ws,hsplit,hloop,hstop,hbefore⟩ := ih ⟨rfl,hrest⟩ (count+1) k
        (Nat.lt_of_succ_lt_succ hturns)
      simp only [count_succ] at hloop hstop hbefore
      refine ⟨z::us,w,ws,by rw [hsplit]; rfl,?_,hstop,?_⟩
      · rw [loop_continue k hturn, hloop]
        rfl
      · rintro (-|j) hj
        · simpa using hn
        · exact hbefore j (Nat.lt_of_succ_lt_succ hj)

theorem tail_stops {z : A × BitVec 32} {vs : List (A × BitVec 32)}
    (h : Path s.mem (some z.1) (z::vs) none) (turns : ℕ) (hturns : turns > vs.length) :
    ∃ us w, z::vs = us++[w] ∧ loop (tail_turn s) turns (some z.1) = .inr (some (some w.1)) := by
  induction vs generalizing z turns with
  | nil =>
    obtain ⟨k,rfl⟩ : ∃ k, turns = k+1 := ⟨turns-1,by omega⟩
    obtain ⟨-,r,hz,rfl⟩ := h
    have hturn : tail_turn s (some z.1) = .inr (some (some z.1)) := by
      simp [tail_turn, next_some hz]
    exact ⟨[],z,rfl,loop_leave k hturn⟩
  | cons y vs ih =>
    obtain ⟨k,rfl⟩ : ∃ k, turns = k+1 := ⟨turns-1,by omega⟩
    obtain ⟨-,r,hz,rfl,hrest⟩ := h
    have hturn : tail_turn s (some z.1) = .inl (some y.1) := by
      simp [tail_turn, next_some hz]
    obtain ⟨us,w,hsplit,hloop⟩ := ih ⟨rfl,hrest⟩ k (Nat.lt_of_succ_lt_succ hturns)
    refine ⟨z::us,w,by rw [hsplit]; rfl,?_⟩
    rw [loop_continue k hturn, hloop]

/-- Counting from one, the loop of `add_to_mid` has come to the element asked
for, or to the last. -/
theorem stopped_at {n : BitVec 32} (hn : 1 ≤ n.toInt) {k m : ℕ}
    (hstop : m = 0 ∨ n = 1+BitVec.ofNat 32 k) (hbefore : ∀ j < k, n ≠ 1+BitVec.ofNat 32 j) :
    min n.toInt.toNat (k+1+m) = k+1 := by
  have hnat : n.toInt.toNat = n.toNat := by
    rw [BitVec.toInt_eq_toNat_cond] at hn ⊢
    split at hn <;> omega
  have hone (j : ℕ) : (1+BitVec.ofNat 32 j).toNat = (1+j) % 2^32 := by
    simp [BitVec.toNat_add]
  have hpos : 1 ≤ n.toNat := by omega
  have hpassed : k < n.toNat := by
    by_contra hlt
    apply hbefore (n.toNat-1) (by omega)
    apply BitVec.eq_of_toNat_eq
    rw [hone, Nat.mod_eq_of_lt (by omega)]
    omega
  rcases hstop with rfl | hstop
  · omega
  · have hle : n.toNat ≤ 1+k := by
      rw [hstop, hone]
      exact Nat.mod_le ..
    omega

/-- The walk of `add_to_mid`, in the memory with the new node. -/
theorem mid_walks {h : A} {g : BitVec 32} {xs : List (A × BitVec 32)} (n : BitVec 32)
    (hhead : s.head = some h) (hpath : Path s.mem (some h) ((h,g)::xs) none) (hxs : xs ≠ [])
    {turns : ℕ} (hturns : turns > xs.length) :
    ∃ us w ws tmp1, xs = us++w::ws ∧ next s.head s = some tmp1 ∧
      loop (mid_turn n s) turns (tmp1,1) =
        .inr (some (some w.1,1+BitVec.ofNat 32 us.length)) ∧
      (1 ≤ n.toInt → min n.toInt.toNat xs.length = us.length+1) := by
  obtain ⟨z,vs,rfl⟩ := List.exists_cons_of_ne_nil hxs
  obtain ⟨-,r,hcell,rfl,hrest⟩ := hpath
  obtain ⟨us,w,ws,hsplit,hloop,hstop,hbefore⟩ :=
    mid_stops n ⟨rfl,hrest⟩ 1 turns (Nat.lt_of_succ_lt hturns)
  refine ⟨us,w,ws,some z.1,hsplit,by rw [hhead, next_some hcell],hloop,?_⟩
  intro hn
  have hlength : (z::vs).length = us.length+1+ws.length := by
    rw [hsplit, List.length_append, List.length_cons]
    omega
  rw [hlength]
  exact stopped_at hn (hstop.imp_left (congrArg List.length)) hbefore

theorem scanned (s : State A) : ∃ s', scanf s = (s.input 0,s') ∧ s'.mem = s.mem ∧
    s'.head = s.head ∧ s'.input 0 = s.input 1 :=
  ⟨_,rfl,rfl,rfl,rfl⟩

theorem insert_split {b z : A × BitVec 32} {xs us vs : List (A × BitVec 32)}
    (x : A × BitVec 32) (hsplit : b::xs = us++z::vs) :
    us++z::x::vs = b::(xs.take us.length++x::xs.drop us.length) := by
  cases us with
  | nil =>
    obtain ⟨rfl,rfl⟩ := List.cons.inj hsplit
    rfl
  | cons u us =>
    obtain ⟨rfl,rfl⟩ := List.cons.inj hsplit
    simp [List.take_append, List.take_of_length_le]

/-- What has been taken from the supply is not in the list. -/
theorem new_address {p : A} {c : Cell A (BitVec 32)} {rest : List (A × Cell A (BitVec 32))}
    (hfresh : Fresh s) (hfree : s.free = (p,c)::rest) {ys : List (A × BitVec 32)}
    {q r : Option A} (hpath : Path s.mem q ys r) : p ∉ addresses ys := by
  intro hmem
  apply path_allocated hpath hmem
  exact hfresh.unused (p,c) (hfree ▸ List.mem_cons_self)

end Reading

variable [DecidableEq A]

def store (a : A) (c : Cell A (BitVec 32)) (s : State A) : State A :=
  { s with mem := Function.update s.mem a (some c) }

/-- From the end of the supply on, every request fails. -/
def malloc (s : State A) : Option A × State A :=
  match s.free with
  | [] => (none,s)
  | (p,c)::rest => (some p,store p c { s with free := rest })

def set (p : Option A) (f : Cell A (BitVec 32) → Cell A (BitVec 32)) (s : State A) :
    Option (State A) := do
  let a ← p
  let c ← s.mem a
  some (store a (f c) s)

/-- `p->next = q` -/
def set_next (p q : Option A) (s : State A) : Option (State A) :=
  set p (fun c => { c with next := q }) s

/-- `scanf("%d", &p->a)` -/
def scanf_a (p : Option A) (s : State A) : Option (State A) :=
  let (a,s) := scanf s
  set p (fun c => { c with value := a }) s

def add_to_head (s : State A) : Option (Option A × State A) :=
  match malloc s with
  | (none,s) => some (none,s)
  | (some p,s) => do
    let s ← scanf_a (some p) s
    let tmp ← next s.head s
    let s ← set_next s.head (some p) s
    let s ← set_next (some p) tmp s
    some (s.head,s)

/-- The number asked for is looked at after the loop. -/
def add_to_mid (turns : ℕ) (s : State A) : Option (Option A × State A) :=
  match malloc s with
  | (none,s) => some (none,s)
  | (some p,s) => do
    let (n,s) := scanf s
    let tmp1 ← next s.head s
    let (tmp1,_) ← ended (loop (mid_turn n s) turns (tmp1,1))
    if n.toInt ≤ 0 then
      some (none,s)
    else do
      let s ← scanf_a (some p) s
      let tmp2 ← next tmp1 s
      let s ← set_next tmp1 (some p) s
      let s ← set_next (some p) tmp2 s
      some (s.head,s)

def add_to_tail (turns : ℕ) (s : State A) : Option (Option A × State A) :=
  match malloc s with
  | (none,s) => some (none,s)
  | (some p,s) => do
    let s ← scanf_a (some p) s
    let tmp ← next s.head s
    let tmp ← ended (loop (tail_turn s) turns tmp)
    let s ← set_next tmp (some p) s
    let s ← set_next (some p) none s
    some (s.head,s)

section Writing
variable {s : State A} {h p : A} {c : Cell A (BitVec 32)} {rest : List (A × Cell A (BitVec 32))}
  {xs : List (A × BitVec 32)}

@[simp] theorem store_head (a : A) : (store a c s).head = s.head := rfl

@[simp] theorem store_self (a : A) : (store a c s).mem a = some c :=
  Function.update_self ..

theorem store_other {a b : A} (h : b ≠ a) : (store a c s).mem b = s.mem b :=
  Function.update_of_ne h ..

theorem malloc_gives (hfree : s.free = (p,c)::rest) :
    malloc s = (some p,store p c { s with free := rest }) := by
  simp [malloc, hfree]

theorem malloc_fails (hfree : s.free = []) : malloc s = (none,s) := by
  simp [malloc, hfree]

theorem set_next_sets (hp : s.mem p = some c) (q : Option A) :
    set_next (some p) q s = some (store p ⟨c.value,q⟩ s) := by
  simp [set_next, set, hp]

theorem scanf_a_sets (hp : s.mem p = some c) : scanf_a (some p) s =
    some (store p ⟨s.input 0,c.next⟩ { s with input := fun i => s.input (i+1) }) := by
  simp [scanf_a, scanf, set, hp]

/-- The two assignments which put a new node after one of the list. -/
theorem link_inserts {g : BitVec 32} (us : List (A × BitVec 32)) {vs : List (A × BitVec 32)}
    {z x : A × BitVec 32} {q r : Option A} (hhead : s.head = some h)
    (hsplit : (h,g)::xs = us++z::vs) (hpath : Path s.mem (some h) ((h,g)::xs) none)
    (hz : s.mem z.1 = some ⟨z.2,r⟩) (hx : s.mem x.1 = some ⟨x.2,q⟩)
    (hnew : x.1 ∉ addresses ((h,g)::xs)) :
    ∃ s1 s2, set_next (some z.1) (some x.1) s = some s1 ∧ set_next (some x.1) r s1 = some s2 ∧
      s2.head = some h ∧ Inserted s2 h xs us.length x := by
  rw [hsplit] at hpath hnew
  have hne : x.1 ≠ z.1 := by
    intro heq
    apply hnew
    simp [addresses, heq]
  have hinsert := path_insert hpath (path_nodup hpath) hnew hz
  rw [insert_split x hsplit] at hinsert
  have hx' : (store z.1 ⟨z.2,some x.1⟩ s).mem x.1 = some ⟨x.2,q⟩ := (store_other hne).trans hx
  have hset' := set_next_sets hx' r
  have hholds : Holds (store x.1 ⟨x.2,r⟩ (store z.1 ⟨z.2,some x.1⟩ s)) h
      (xs.take us.length++x::xs.drop us.length) := ⟨hhead,g,hinsert⟩
  exact ⟨_,_,set_next_sets hz _,hset',hhead,hholds,holds_traversed hholds⟩

theorem store_path {a : A} {q r : Option A} {ys : List (A × BitVec 32)}
    (ha : a ∉ addresses ys) : Path (store a c s).mem q ys r ↔ Path s.mem q ys r :=
  path_update _ ha

theorem given {ys : List (A × BitVec 32)} {q r : Option A} (hfree : s.free = (p,c)::rest)
    (hpath : Path s.mem q ys r) (hnew : p ∉ addresses ys) :
    ∃ s', malloc s = (some p,s') ∧ s'.head = s.head ∧ s'.input = s.input ∧
      s'.mem p = some c ∧ Path s'.mem q ys r :=
  ⟨_,malloc_gives hfree,rfl,rfl,store_self p,(store_path hnew).mpr hpath⟩

theorem entered {ys : List (A × BitVec 32)} {q r : Option A} (hp : s.mem p = some c)
    (hpath : Path s.mem q ys r) (hnew : p ∉ addresses ys) :
    ∃ s', scanf_a (some p) s = some s' ∧ s'.head = s.head ∧
      s'.mem p = some ⟨s.input 0,c.next⟩ ∧ Path s'.mem q ys r :=
  ⟨_,scanf_a_sets hp,rfl,store_self p,(store_path hnew).mpr hpath⟩

theorem head_inserts (hs : Holds s h xs) (hfresh : Fresh s) (hfree : s.free = (p,c)::rest) :
    ∃ s', add_to_head s = some (some h,s') ∧ Inserted s' h xs 0 (p,s.input 0) := by
  obtain ⟨hhead,g,hpath⟩ := hs
  have hnew := new_address hfresh hfree hpath
  obtain ⟨s1,hmalloc,hhead1,hinput1,hp1,hpath1⟩ := given hfree hpath hnew
  obtain ⟨s2,hscanf,hhead2,hp2,hpath2⟩ := entered hp1 hpath1 hnew
  rw [hhead1, hhead] at hhead2
  rw [hinput1] at hp2
  obtain ⟨r,hcell⟩ := path_cell [] hpath2
  obtain ⟨s3,s4,hset,hset',hhead4,hinserted⟩ :=
    link_inserts (x := (p,s.input 0)) [] hhead2 rfl hpath2 hcell hp2 hnew
  refine ⟨s4,?_,hinserted⟩
  simp only [add_to_head, hmalloc, hscanf, Option.bind_eq_bind, Option.bind_some, hhead2,
    next_some hcell, hset, hset', hhead4]

theorem tail_inserts (hs : Holds s h xs) (hxs : xs ≠ []) (hfresh : Fresh s)
    (hfree : s.free = (p,c)::rest) {turns : ℕ} (hturns : turns > xs.length) :
    ∃ s', add_to_tail turns s = some (some h,s') ∧
      Inserted s' h xs xs.length (p,s.input 0) := by
  obtain ⟨hhead,g,hpath⟩ := hs
  have hnew := new_address hfresh hfree hpath
  obtain ⟨s1,hmalloc,hhead1,hinput1,hp1,hpath1⟩ := given hfree hpath hnew
  obtain ⟨s2,hscanf,hhead2,hp2,hpath2⟩ := entered hp1 hpath1 hnew
  rw [hhead1, hhead] at hhead2
  rw [hinput1] at hp2
  -- the head node's pointer is to the first element
  obtain ⟨z,vs,rfl⟩ := List.exists_cons_of_ne_nil hxs
  obtain ⟨-,r,hcell,rfl,hrest⟩ := id hpath2
  obtain ⟨us,w,hsplit,hloop⟩ := tail_stops (s := s2) ⟨rfl,hrest⟩ turns
    (Nat.lt_of_succ_lt hturns)
  have hlast := hpath2
  rw [hsplit, ← List.cons_append, path_last] at hlast
  obtain ⟨s3,s4,hset,hset',hhead4,hinserted⟩ :=
    link_inserts (x := (p,s.input 0)) ((h,g)::us) hhead2 (by rw [hsplit]; rfl) hpath2 hlast.2
      hp2 hnew
  have hlength : ((h,g)::us).length = (z::vs).length := by simp [hsplit]
  rw [hlength] at hinserted
  refine ⟨s4,?_,hinserted⟩
  simp only [add_to_tail, hmalloc, hscanf, Option.bind_eq_bind, Option.bind_some, hhead2,
    next_some hcell, hloop, ended, hset, hset', hhead4]

theorem mid_inserts (hs : Holds s h xs) (hxs : xs ≠ []) (hfresh : Fresh s)
    (hfree : s.free = (p,c)::rest) {turns : ℕ} (hturns : turns > xs.length)
    (hn : 1 ≤ (s.input 0).toInt) :
    ∃ s', add_to_mid turns s = some (some h,s') ∧
      Inserted s' h xs (min (s.input 0).toInt.toNat xs.length) (p,s.input 1) := by
  obtain ⟨hhead,g,hpath⟩ := hs
  have hnew := new_address hfresh hfree hpath
  obtain ⟨s1,hmalloc,hhead1,hinput1,hp1,hpath1⟩ := given hfree hpath hnew
  obtain ⟨s2,hscanf,hmem2,hhead2,hinput2⟩ := scanned s1
  rw [hinput1] at hscanf hinput2
  rw [← hmem2] at hp1 hpath1
  rw [hhead1, hhead] at hhead2
  obtain ⟨us,w,ws,tmp1,hsplit,htmp1,hloop,hk⟩ :=
    mid_walks (s.input 0) hhead2 hpath1 hxs hturns
  obtain ⟨s3,hvalue,hhead3,hp3,hpath3⟩ := entered hp1 hpath1 hnew
  rw [hhead2] at hhead3
  rw [hinput2] at hp3
  have hwhole : (h,g)::xs = ((h,g)::us)++w::ws := by
    rw [hsplit]
    rfl
  obtain ⟨r,hcell⟩ := path_cell _ (hwhole ▸ hpath3)
  obtain ⟨s4,s5,hset,hset',hhead5,hinserted⟩ :=
    link_inserts (x := (p,s.input 1)) ((h,g)::us) hhead3 hwhole hpath3 hcell hp3 hnew
  rw [List.length_cons, ← hk hn] at hinserted
  refine ⟨s5,?_,hinserted⟩
  simp only [add_to_mid, hmalloc, hscanf, Option.bind_eq_bind, Option.bind_some, htmp1, hloop,
    ended, if_neg (show ¬ (s.input 0).toInt ≤ 0 by omega), hvalue, next_some hcell, hset, hset',
    hhead5]

/-- The new node of a refused number stays out of the list. -/
theorem mid_refuses (hs : Holds s h xs) (hxs : xs ≠ []) (hfresh : Fresh s)
    (hfree : s.free = (p,c)::rest) {turns : ℕ} (hturns : turns > xs.length)
    (hn : (s.input 0).toInt ≤ 0) :
    ∃ s', add_to_mid turns s = some (none,s') ∧ Holds s' h xs := by
  obtain ⟨hhead,g,hpath⟩ := hs
  have hnew := new_address hfresh hfree hpath
  obtain ⟨s1,hmalloc,hhead1,hinput1,-,hpath1⟩ := given hfree hpath hnew
  obtain ⟨s2,hscanf,hmem2,hhead2,-⟩ := scanned s1
  rw [hinput1] at hscanf
  rw [← hmem2] at hpath1
  rw [hhead1, hhead] at hhead2
  obtain ⟨us,w,ws,tmp1,-,htmp1,hloop,-⟩ := mid_walks (s.input 0) hhead2 hpath1 hxs hturns
  refine ⟨s2,?_,hhead2,g,hpath1⟩
  simp only [add_to_mid, hmalloc, hscanf, Option.bind_eq_bind, Option.bind_some, htmp1, hloop,
    ended, if_pos hn]

theorem exhausted (hfree : s.free = []) (turns : ℕ) :
    add_to_head s = some (none,s) ∧ add_to_mid turns s = some (none,s) ∧
      add_to_tail turns s = some (none,s) := by
  have hmalloc := malloc_fails hfree
  exact ⟨by simp only [add_to_head, hmalloc],by simp only [add_to_mid, hmalloc],
    by simp only [add_to_tail, hmalloc]⟩

end Writing

/-- In a list with an element, the new one is put first, last, or after the
one asked for or the last; a number that is not positive is refused. The list
can be traversed and counted before and after. -/
theorem insertions_exact {s : State A} {h : A} {xs : List (A × BitVec 32)} (hs : Holds s h xs)
    (hxs : xs ≠ []) (hfresh : Fresh s) (turns : ℕ) (hturns : turns > xs.length) :
    Traversed s xs ∧
    (s.free = [] → add_to_head s = some (none,s) ∧ add_to_mid turns s = some (none,s) ∧
      add_to_tail turns s = some (none,s)) ∧
    ∀ p c rest, s.free = (p,c)::rest →
      (∃ s', add_to_head s = some (some h,s') ∧ Inserted s' h xs 0 (p,s.input 0)) ∧
      (∃ s', add_to_tail turns s = some (some h,s') ∧
        Inserted s' h xs xs.length (p,s.input 0)) ∧
      (1 ≤ (s.input 0).toInt → ∃ s', add_to_mid turns s = some (some h,s') ∧
        Inserted s' h xs (min (s.input 0).toInt.toNat xs.length) (p,s.input 1)) ∧
      ((s.input 0).toInt ≤ 0 → ∃ s', add_to_mid turns s = some (none,s') ∧ Holds s' h xs ∧
        Traversed s' xs) := by
  refine ⟨holds_traversed hs,fun hfree => exhausted hfree turns,?_⟩
  rintro p c rest hfree
  refine ⟨head_inserts hs hfresh hfree,tail_inserts hs hxs hfresh hfree hturns,
    mid_inserts hs hxs hfresh hfree hturns,?_⟩
  intro hn
  obtain ⟨s',hmid,hs'⟩ := mid_refuses hs hxs hfresh hfree hturns hn
  exact ⟨s',hmid,hs',holds_traversed hs'⟩

def pair : State ℕ where
  mem a := if a = 0 then some ⟨0,some 1⟩ else if a = 1 then some ⟨10,some 2⟩ else
    if a = 2 then some ⟨20,none⟩ else none
  head := some 0
  free := [(3,⟨0,some 7⟩)]
  input i := if i = 0 then 1 else 30

theorem pair_holds : Holds pair 0 [(1,10),(2,20)] :=
  ⟨rfl,0,rfl,some 1,rfl,rfl,some 2,rfl,rfl,none,rfl,rfl⟩

theorem insertions_exact_pair : ∃ s', add_to_mid 3 pair = some (some 0,s') ∧
    Inserted s' 0 [(1,10),(2,20)] 1 (3,30) :=
  ((insertions_exact pair_holds (List.cons_ne_nil _ _) ⟨List.nodup_singleton 3,by simp [pair]⟩ 3
    (by decide)).2.2 3 _ [] rfl).2.2.1 (by decide)

end BaseDrivers.ListOperation
