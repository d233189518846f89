import Mathlib.Data.Fintype.Basic
import Mathlib.Logic.Equiv.Basic
import Mathlib.Logic.Function.Basic
import Mathlib.Tactic.SplitIfs
import BaseDrivers.Execution
import BaseDrivers.SlotList

/-!
# Lists with one pointer for a head

A `struct hlist_node` has the next node and, in `pprev`, the address of the
pointer to itself, which is the `first` of a head or the `next` of a node. Every
operation does to the lists what it is for, as long as it is called on heads and
nodes that are what it takes them for.
-/

set_option autoImplicit false
set_option linter.style.nameCheck false

namespace BaseDrivers.HashList
open BaseDrivers.Execution BaseDrivers.SlotList

/-- The addresses that `pprev` can have. -/
inductive Slot (H N : Type*) where
  | first (h : H)
  | next (n : N)
  deriving DecidableEq

/-- `slot` is what the pointers hold, `holder` is `pprev`. -/
abbrev Nodes (H N : Type*) := Mem N (Slot H N)

section Header
variable {H N : Type*} [DecidableEq H] [DecidableEq N]

def set (s : Slot H N) (p : Option N) (m : Nodes H N) : Nodes H N :=
  { m with slot := Function.update m.slot s p }

def set_pprev (n : N) (s : Option (Slot H N)) (m : Nodes H N) : Nodes H N :=
  { m with holder := Function.update m.holder n s }

/-- `if (next) next->pprev = pprev;` -/
def set_pprev_of (p : Option N) (s : Slot H N) (m : Nodes H N) : Nodes H N :=
  match p with
  | some n => set_pprev n (some s) m
  | none => m

def INIT_HLIST_HEAD (h : H) (m : Nodes H N) : Nodes H N := set (.first h) none m

def INIT_HLIST_NODE (n : N) (m : Nodes H N) : Nodes H N :=
  set_pprev n none (set (.next n) none m)

def hlist_unhashed (n : N) (m : Nodes H N) : Bool := (m.holder n).isNone

def hlist_empty (h : H) (m : Nodes H N) : Bool := (m.slot (.first h)).isNone

/-- There is no result where `*pprev` is an access through the null pointer. -/
def __hlist_del (n : N) (m : Nodes H N) : Option (Nodes H N) :=
  match m.holder n with
  | none => none
  | some pprev =>
    let next := m.slot (.next n)
    some (set_pprev_of next pprev (set pprev next m))

/-- `LIST_POISON1` and `LIST_POISON2` are addresses that hold nothing. -/
def hlist_del (poison1 : N) (poison2 : Slot H N) (n : N) (m : Nodes H N) : Option (Nodes H N) :=
  (__hlist_del n m).map fun m => set_pprev n (some poison2) (set (.next n) (some poison1) m)

def hlist_del_init (n : N) (m : Nodes H N) : Option (Nodes H N) :=
  if !hlist_unhashed n m then (__hlist_del n m).map (INIT_HLIST_NODE n) else some m

def hlist_add_head (n : N) (h : H) (m : Nodes H N) : Nodes H N :=
  let first := m.slot (.first h)
  let m := set (.next n) first m
  let m := set_pprev_of first (.next n) m
  let m := set (.first h) (some n) m
  set_pprev n (some (.first h)) m

def hlist_add_before (n next : N) (m : Nodes H N) : Option (Nodes H N) :=
  let m := set_pprev n (m.holder next) m
  let m := set (.next n) (some next) m
  let m := set_pprev next (some (.next n)) m
  match m.holder n with
  | none => none
  | some pprev => some (set pprev (some n) m)

def hlist_add_behind (n prev : N) (m : Nodes H N) : Nodes H N :=
  let m := set (.next n) (m.slot (.next prev)) m
  let m := set (.next prev) (some n) m
  let m := set_pprev n (some (.next prev)) m
  set_pprev_of (m.slot (.next n)) (.next n) m

def hlist_add_fake (n : N) (m : Nodes H N) : Nodes H N := set_pprev n (some (.next n)) m

def hlist_fake (n : N) (m : Nodes H N) : Bool := m.holder n = some (.next n)

def hlist_move_list (old new : H) (m : Nodes H N) : Nodes H N :=
  let m := set (.first new) (m.slot (.first old)) m
  let m := set_pprev_of (m.slot (.first new)) (.first new) m
  set (.first old) none m

/-- One turn of the loop, with the cursor and the nodes seen. -/
def for_each_turn (m : Nodes H N) : Option N × List N → (Option N × List N) ⊕ List N
  | (none,seen) => .inr seen
  | (some pos,seen) => .inl (m.slot (.next pos),seen++[pos])

def hlist_for_each (h : H) (turns : ℕ) (m : Nodes H N) : (Option N × List N) ⊕ List N :=
  loop (for_each_turn m) turns (m.slot (.first h),[])

inductive Op (H N : Type*) where
  | INIT_HLIST_HEAD (h : H)
  | INIT_HLIST_NODE (n : N)
  | hlist_del (n : N)
  | hlist_del_init (n : N)
  | hlist_add_head (n : N) (h : H)
  | hlist_add_before (n next : N)
  | hlist_add_behind (n prev : N)
  | hlist_add_fake (n : N)
  | hlist_move_list (old new : H)
  deriving DecidableEq

def exec (poison1 : N) (poison2 : Slot H N) (m : Nodes H N) : Op H N → Option (Nodes H N)
  | .INIT_HLIST_HEAD h => some (INIT_HLIST_HEAD h m)
  | .INIT_HLIST_NODE n => some (INIT_HLIST_NODE n m)
  | .hlist_del n => hlist_del poison1 poison2 n m
  | .hlist_del_init n => hlist_del_init n m
  | .hlist_add_head n h => some (hlist_add_head n h m)
  | .hlist_add_before n next => hlist_add_before n next m
  | .hlist_add_behind n prev => some (hlist_add_behind n prev m)
  | .hlist_add_fake n => some (hlist_add_fake n m)
  | .hlist_move_list old new => some (hlist_move_list old new m)

end Header

/-- What is known of a node that is on no list. -/
inductive Kind where
  | unknown | unhashed | fake
  deriving DecidableEq, Repr

/-- The heads that were initialised, each with its nodes, and the nodes on no
list that can be asked and deleted all the same. -/
structure Listing (H N : Type*) where
  lists : H → Option (List N)
  kind : N → Kind

section Meaning
variable {H N : Type*}

def nodes (a : Listing H N) (h : H) : List N := (a.lists h).getD []

def Free (a : Listing H N) (n : N) : Prop := ∀ h, n ∉ nodes a h

def Entry (a : Listing H N) (n : N) : Prop := ∃ h, n ∈ nodes a h

def change (f : List N → List N) (a : Listing H N) : Listing H N :=
  { a with lists := fun h => (a.lists h).map f }

variable [DecidableEq H] [DecidableEq N]

def put (h : H) (xs : List N) (a : Listing H N) : Listing H N :=
  { a with lists := Function.update a.lists h (some xs) }

def mark (n : N) (k : Kind) (a : Listing H N) : Listing H N :=
  { a with kind := Function.update a.kind n k }

def before (n next : N) : List N → List N
  | [] => []
  | x::xs => if x = next then n::x::xs else x::before n next xs

def after (n prev : N) : List N → List N
  | [] => []
  | x::xs => if x = prev then x::n::xs else x::after n prev xs

/-- What the operations are for. -/
def meant (a : Listing H N) : Op H N → Listing H N
  | .INIT_HLIST_HEAD h => put h [] a
  | .INIT_HLIST_NODE n => mark n .unhashed a
  | .hlist_del n => mark n .unknown (change (·.erase n) a)
  | .hlist_del_init n => mark n .unhashed (change (·.erase n) a)
  | .hlist_add_head n h => mark n .unknown (put h (n::nodes a h) a)
  | .hlist_add_before n next => mark n .unknown (change (before n next) a)
  | .hlist_add_behind n prev => mark n .unknown (change (after n prev) a)
  | .hlist_add_fake n => mark n .fake a
  | .hlist_move_list old new => put old [] (put new (nodes a old) a)

/-- What an operation takes its heads and nodes for. -/
def Ok (a : Listing H N) : Op H N → Prop
  | .INIT_HLIST_HEAD _ => True
  | .INIT_HLIST_NODE n => Free a n
  | .hlist_del n => Entry a n ∨ a.kind n = .fake
  | .hlist_del_init n => Entry a n ∨ a.kind n ≠ .unknown
  | .hlist_add_head n h => Free a n ∧ (a.lists h).isSome
  | .hlist_add_before n next => Free a n ∧ Entry a next
  | .hlist_add_behind n prev => Free a n ∧ Entry a prev
  | .hlist_add_fake n => a.kind n = .unhashed
  | .hlist_move_list old new => (a.lists old).isSome ∧ old ≠ new

/-- The memory has the lists, no two of them share a node, and the nodes on no
list are what they are known as. -/
structure Represents (m : Nodes H N) (a : Listing H N) : Prop where
  chain : ∀ h xs, a.lists h = some xs → Chain Slot.next m (.first h) xs
  nodup : ∀ h xs, a.lists h = some xs → xs.Nodup
  apart : ∀ h k xs ys, a.lists h = some xs → a.lists k = some ys → h ≠ k → List.Disjoint xs ys
  free : ∀ n, a.kind n ≠ .unknown → Free a n
  ends : ∀ n, a.kind n ≠ .unknown → m.slot (.next n) = none
  unhashed : ∀ n, a.kind n = .unhashed → m.holder n = none
  fake : ∀ n, a.kind n = .fake → m.holder n = some (.next n)

end Meaning

section Refinement
variable {H N : Type*} {m m' : Nodes H N} {a : Listing H N} {h k : H} {n : N} {xs ys : List N}

theorem nodes_some (hm : a.lists h = some xs) : nodes a h = xs := by
  rw [nodes, hm, Option.getD_some]

theorem free_not_mem (hn : Free a n) (hm : a.lists h = some xs) : n ∉ xs := nodes_some hm ▸ hn h

theorem entry_split (hn : Entry a n) : ∃ h us vs, a.lists h = some (us++n::vs) := by
  obtain ⟨h,hmem⟩ := hn
  cases hm : a.lists h with
  | none => simp [nodes, hm] at hmem
  | some xs =>
    rw [nodes_some hm] at hmem
    obtain ⟨us,vs,rfl⟩ := List.append_of_mem hmem
    exact ⟨h,us,vs,hm⟩

theorem next_injective : Function.Injective (Slot.next : N → Slot H N) := fun _ _ h =>
  Slot.next.inj h

theorem next_ne_first (x : N) (h : H) : (Slot.next x : Slot H N) ≠ .first h := by
  intro he
  cases he

theorem mem_slots {u : Slot H N} (hu : u ∈ slots Slot.next (.first h) xs) :
    u = .first h ∨ ∃ x ∈ xs, u = .next x := by
  rcases List.mem_cons.mp hu with hu | hu
  · exact .inl hu
  · obtain ⟨x,hx,he⟩ := List.mem_map.mp hu
    exact .inr ⟨x,hx,he.symm⟩

theorem next_slots : Slot.next n ∈ slots Slot.next (.first h) xs ↔ n ∈ xs := by
  constructor
  · intro hu
    rcases mem_slots hu with hu | ⟨x,hx,hu⟩
    · cases hu
    · exact Slot.next.inj hu ▸ hx
  · exact fun hn => List.mem_cons_of_mem _ (List.mem_map_of_mem hn)

theorem slots_nodup (hx : xs.Nodup) : (slots Slot.next (Slot.first h : Slot H N) xs).Nodup := by
  refine List.nodup_cons.mpr ⟨fun hu => ?_,hx.map next_injective⟩
  obtain ⟨x,-,he⟩ := List.mem_map.mp hu
  cases he

theorem slots_apart {u : Slot H N} (hhk : h ≠ k) (hxy : List.Disjoint xs ys)
    (hu : u ∈ slots Slot.next (.first h) xs) : u ∉ slots Slot.next (.first k) ys := by
  intro hv
  rcases mem_slots hu with rfl | ⟨x,hx,rfl⟩
  · rcases mem_slots hv with hv | ⟨y,-,hv⟩
    · exact hhk (Slot.first.inj hv)
    · cases hv
  · exact hxy hx (next_slots.mp hv)

theorem kept_slots (hm : a.lists h = some xs) {z : N} (hz : Free a z) {u : Slot H N}
    (hu : u ∈ slots Slot.next (.first h) xs) : Slot.next z ≠ u := by
  rintro rfl
  exact free_not_mem hz hm (next_slots.mp hu)

variable [DecidableEq H] [DecidableEq N]

omit [DecidableEq N] in
theorem lists_put {zs : List N} (hk : (put h xs a).lists k = some zs) :
    k = h ∧ zs = xs ∨ k ≠ h ∧ a.lists k = some zs := by
  by_cases he : k = h
  · subst he
    exact .inl ⟨rfl,by simpa [put] using hk.symm⟩
  · exact .inr ⟨he,by simpa [put, he] using hk⟩

omit [DecidableEq N] in
/-- A list is changed to another one of its own nodes and new ones. -/
theorem put_represents (r : Represents m a) (hm : a.lists h = some xs)
    (hchain : Chain Slot.next m' (.first h) ys) (hy : ys.Nodup)
    (hnew : ∀ x ∈ ys, x ∈ xs ∨ Free a x ∧ a.kind x = .unknown)
    (hothers : ∀ k zs, k ≠ h → a.lists k = some zs → Chain Slot.next m' (.first k) zs)
    (hfree : ∀ z, Free a z → a.kind z ≠ .unknown → m'.holder z = m.holder z ∧
      m'.slot (.next z) = m.slot (.next z)) : Represents m' (put h ys a) := by
  have hdisjoint {k : H} {zs : List N} (hk : a.lists k = some zs) (hkh : k ≠ h) :
      List.Disjoint ys zs := by
    intro x hx hz
    rcases hnew x hx with hx | ⟨hx,-⟩
    · exact r.apart h k xs zs hm hk hkh.symm hx hz
    · exact free_not_mem hx hk hz
  constructor
  · intro k zs hk
    rcases lists_put hk with ⟨rfl,rfl⟩ | ⟨hkh,hk⟩
    · exact hchain
    · exact hothers k zs hkh hk
  · intro k zs hk
    rcases lists_put hk with ⟨rfl,rfl⟩ | ⟨hkh,hk⟩
    · exact hy
    · exact r.nodup k zs hk
  · intro i k us zs hi hk hik
    rcases lists_put hi with ⟨rfl,rfl⟩ | ⟨hih,hia⟩
    · rcases lists_put hk with ⟨rfl,-⟩ | ⟨hkh,hka⟩
      · exact absurd rfl hik
      · exact hdisjoint hka hkh
    · rcases lists_put hk with ⟨rfl,rfl⟩ | ⟨hkh,hka⟩
      · exact List.disjoint_symm (hdisjoint hia hih)
      · exact r.apart i k us zs hia hka hik
  · intro z hz k hmem
    have hfreez := r.free z hz
    by_cases hkh : k = h
    · subst hkh
      have hzy : z ∈ ys := by simpa [nodes, put] using hmem
      rcases hnew z hzy with hx | ⟨-,hu⟩
      · exact free_not_mem hfreez hm hx
      · exact hz hu
    · exact hfreez k (by simpa [nodes, put, hkh] using hmem)
  · intro z (hz : a.kind z ≠ .unknown)
    rw [(hfree z (r.free z hz) hz).2]
    exact r.ends z hz
  · intro z (hz : a.kind z = .unhashed)
    have hne : a.kind z ≠ .unknown := hz ▸ by decide
    rw [(hfree z (r.free z hne) hne).1]
    exact r.unhashed z hz
  · intro z (hz : a.kind z = .fake)
    have hne : a.kind z ≠ .unknown := hz ▸ by decide
    rw [(hfree z (r.free z hne) hne).1]
    exact r.fake z hz

omit [DecidableEq H] in
/-- The pointers of a node on no list can be anything that fits its kind. -/
theorem mark_represents (r : Represents m a) (hn : Free a n)
    (hslot : ∀ u, u ≠ .next n → m'.slot u = m.slot u)
    (hholder : ∀ x, x ≠ n → m'.holder x = m.holder x) (k : Kind)
    (hends : k ≠ .unknown → m'.slot (.next n) = none)
    (hunhashed : k = .unhashed → m'.holder n = none)
    (hfake : k = .fake → m'.holder n = some (.next n)) : Represents m' (mark n k a) := by
  refine ⟨fun h xs hm => ?_,r.nodup,r.apart,fun z hz => ?_,fun z hz => ?_,fun z hz => ?_,
    fun z hz => ?_⟩
  · refine chain_frame (fun u hu => hslot u (kept_slots hm hn hu).symm) (fun x hx => ?_)
      (r.chain h xs hm)
    exact hholder x (ne_of_mem_of_not_mem hx (free_not_mem hn hm))
  all_goals by_cases he : z = n
  · exact he ▸ hn
  · exact r.free z (by simpa [mark, he] using hz)
  · subst he
    exact hends (by simpa [mark] using hz)
  · rw [hslot _ fun h => he (Slot.next.inj h)]
    exact r.ends z (by simpa [mark, he] using hz)
  · subst he
    exact hunhashed (by simpa [mark] using hz)
  · rw [hholder z he]
    exact r.unhashed z (by simpa [mark, he] using hz)
  · subst he
    exact hfake (by simpa [mark] using hz)
  · rw [hholder z he]
    exact r.fake z (by simpa [mark, he] using hz)

theorem insert_represents (r : Represents m a) (hm : a.lists h = some (xs++ys)) (hn : Free a n) :
    Represents (insert Slot.next n (behind Slot.next (.first h) xs) m)
      (mark n .unknown (put h (xs++n::ys) a)) := by
  have hmarked : Represents m (mark n .unknown a) :=
    mark_represents r hn (fun _ _ => rfl) (fun _ _ => rfl) .unknown (fun h => absurd rfl h)
      (fun h => by cases h) (fun h => by cases h)
  have hmem := free_not_mem hn hm
  have hchain := r.chain h _ hm
  have hnodup := r.nodup h _ hm
  have hbehind : behind Slot.next (.first h) xs ∈ slots Slot.next (.first h) (xs++ys) := by
    rw [slots_append]
    exact List.mem_append_left _ (behind_mem _ xs)
  have hslot : m.slot (behind Slot.next (.first h) xs) = ys.head? := chain_slot (chain_behind hchain)
  have hhead {z : N} (hz : z ∈ m.slot (behind Slot.next (.first h) xs)) : z ∈ xs++ys :=
    List.mem_append_right xs (List.mem_of_mem_head? (hslot ▸ hz))
  refine put_represents hmarked hm ?_ ?_ (fun x hx => ?_) (fun k zs hkh hk => ?_)
    (fun z hz hkind => ⟨?_,?_⟩)
  · exact insert_chain hchain (slots_nodup hnodup) hmem fun hu => hmem (next_slots.mp hu)
  · exact List.nodup_middle.mpr (List.nodup_cons.mpr ⟨hmem,hnodup⟩)
  · rcases List.mem_cons.mp (List.perm_middle.mem_iff.mp hx) with rfl | hx
    · exact .inr ⟨hn,by simp [mark]⟩
    · exact .inl hx
  · have hapart := r.apart h k _ zs hm hk hkh.symm
    exact insert_elsewhere (r.chain k zs hk) (slots_apart hkh.symm hapart hbehind)
      (free_not_mem hn hk) (fun hu => free_not_mem hn hk (next_slots.mp hu))
      fun y hy => hapart (hhead hy)
  · have hzn : z ≠ n := by
      rintro rfl
      simp [mark] at hkind
    refine (Function.update_of_ne hzn _ _).trans (rehold_of_ne fun hy => ?_)
    exact free_not_mem hz hm (hhead hy)
  · have hzn : z ≠ n := by
      rintro rfl
      simp [mark] at hkind
    exact (Function.update_of_ne (kept_slots hm hz hbehind) _ _).trans
      (Function.update_of_ne (fun he => hzn (Slot.next.inj he)) _ _)

/-- The node that goes out is on no list any more. -/
theorem remove_represents (r : Represents m a) (hm : a.lists h = some (xs++n::ys)) :
    Represents (remove Slot.next n (behind Slot.next (.first h) xs) m) (put h (xs++ys) a) ∧
      Free (put h (xs++ys) a) n := by
  have hchain := r.chain h _ hm
  have hnodup := r.nodup h _ hm
  obtain ⟨hmem,hrest⟩ := List.nodup_cons.mp (List.nodup_middle.mp hnodup)
  have hbehind : behind Slot.next (.first h) xs ∈ slots Slot.next (.first h) (xs++n::ys) := by
    rw [slots_append]
    exact List.mem_append_left _ (behind_mem _ xs)
  have hslot : m.slot (.next n) = ys.head? := chain_slot (chain_behind hchain).2.2
  have hhead {z : N} (hz : z ∈ m.slot (.next n)) : z ∈ xs++n::ys :=
    List.mem_append_right xs (List.mem_cons_of_mem n (List.mem_of_mem_head? (hslot ▸ hz)))
  constructor
  · refine put_represents r hm (remove_chain hchain (slots_nodup hnodup)) hrest (fun x hx => ?_)
      (fun k zs hkh hk => ?_) (fun z hz _ => ⟨?_,?_⟩)
    · exact .inl (List.perm_middle.mem_iff.mpr (List.mem_cons_of_mem n hx))
    · have hapart := r.apart h k _ zs hm hk hkh.symm
      exact remove_elsewhere (r.chain k zs hk) (slots_apart hkh.symm hapart hbehind)
        fun y hy => hapart (hhead hy)
    · exact rehold_of_ne fun hy => free_not_mem hz hm (hhead hy)
    · exact Function.update_of_ne (kept_slots hm hz hbehind) _ _
  · intro k hk
    by_cases hkh : k = h
    · subst hkh
      exact hmem (by simpa [nodes, put] using hk)
    · have hka : n ∈ nodes a k := by simpa [nodes, put, hkh] using hk
      cases hlist : a.lists k with
      | none => simp [nodes, hlist] at hka
      | some zs =>
        rw [nodes_some hlist] at hka
        exact r.apart h k _ zs hm hlist (Ne.symm hkh)
          (List.mem_append_right xs List.mem_cons_self) hka

omit [DecidableEq H] in
theorem set_pprev_of_holder (p : Option N) (t : Slot H N) :
    (set_pprev_of p t m).holder = rehold p t m.holder ∧ (set_pprev_of p t m).slot = m.slot := by
  cases p <;> exact ⟨rfl,rfl⟩

omit [DecidableEq H] [DecidableEq N] in
theorem mem_ext {m m' : Nodes H N} (hs : m.slot = m'.slot) (hh : m.holder = m'.holder) : m = m' := by
  cases m
  cases m'
  cases hs
  cases hh
  rfl

theorem __hlist_del_remove {t : Slot H N} (ht : m.holder n = some t) :
    __hlist_del n m = some (remove Slot.next n t m) := by
  rw [__hlist_del, ht]
  obtain ⟨hh,hs⟩ := @set_pprev_of_holder H N (set t (m.slot (.next n)) m) _ (m.slot (.next n)) t
  exact congrArg some (mem_ext hs hh)

theorem hlist_add_head_insert (n : N) (h : H) :
    hlist_add_head n h m = insert Slot.next n (.first h) m := by
  unfold hlist_add_head set_pprev_of SlotList.insert rehold
  cases m.slot (.first h) <;> rfl

theorem hlist_add_behind_insert {prev : N} (hne : n ≠ prev) (hslot : n ∉ m.slot (.next prev)) :
    hlist_add_behind n prev m = insert Slot.next n (.next prev) m := by
  have hread : Function.update (Function.update m.slot (.next n) (m.slot (.next prev)))
      (.next prev) (some n) (Slot.next n) = m.slot (.next prev) := by
    rw [Function.update_of_ne fun he => hne (Slot.next.inj he), Function.update_self]
  unfold hlist_add_behind
  dsimp only [set_pprev, set]
  rw [hread, SlotList.insert]
  unfold set_pprev_of rehold
  cases hy : m.slot (.next prev) with
  | none => rfl
  | some y =>
    have hyn : n ≠ y := fun he => hslot (he ▸ hy)
    exact mem_ext rfl (Function.update_comm hyn _ _ _)

theorem hlist_add_before_insert {next : N} {t : Slot H N} (hne : n ≠ next)
    (ht : m.holder next = some t) (hslot : m.slot t = some next) :
    hlist_add_before n next m = some (insert Slot.next n t m) := by
  have hread : Function.update (Function.update m.holder n (m.holder next)) next
      (some (.next n)) n = some t := by
    rw [Function.update_of_ne hne, Function.update_self, ht]
  have hbefore : hlist_add_before n next m = some ⟨Function.update
      (Function.update m.slot (.next n) (some next)) t (some n),
      Function.update (Function.update m.holder n (some t)) next (some (.next n))⟩ := by
    unfold hlist_add_before
    dsimp only [set_pprev, set]
    rw [hread, ht]
  rw [hbefore, SlotList.insert, hslot, rehold, Function.update_comm hne]

end Refinement

section Run
variable {H N : Type*} [DecidableEq H] [DecidableEq N]
variable {m m' : Nodes H N} {a b : Listing H N} {h old new : H} {n x prev next : N}
variable {xs us vs : List N} {f : List N → List N}

theorem before_absent (hx : x ∉ xs) : before n x xs = xs := by
  induction xs with
  | nil => rfl
  | cons y ys ih =>
    obtain ⟨hne,hys⟩ := not_or.mp (mt List.mem_cons.mpr hx)
    rw [before, if_neg (Ne.symm hne), ih hys]

theorem before_found (hx : x ∉ us) : before n x (us++x::vs) = us++n::x::vs := by
  induction us with
  | nil => exact if_pos rfl
  | cons y us ih =>
    obtain ⟨hne,hus⟩ := not_or.mp (mt List.mem_cons.mpr hx)
    rw [List.cons_append, before, if_neg (Ne.symm hne), ih hus]
    rfl

theorem after_absent (hx : x ∉ xs) : after n x xs = xs := by
  induction xs with
  | nil => rfl
  | cons y ys ih =>
    obtain ⟨hne,hys⟩ := not_or.mp (mt List.mem_cons.mpr hx)
    rw [after, if_neg (Ne.symm hne), ih hys]

theorem after_found (hx : x ∉ us) : after n x (us++x::vs) = us++x::n::vs := by
  induction us with
  | nil => exact if_pos rfl
  | cons y us ih =>
    obtain ⟨hne,hus⟩ := not_or.mp (mt List.mem_cons.mpr hx)
    rw [List.cons_append, after, if_neg (Ne.symm hne), ih hus]
    rfl

omit [DecidableEq N] in
/-- A change that is only about the list of one node. -/
theorem change_entry (r : Represents m a) (hm : a.lists h = some xs) (hx : x ∈ xs)
    (hf : ∀ ys, x ∉ ys → f ys = ys) : change f a = put h (f xs) a := by
  refine congrArg₂ Listing.mk (funext fun k => ?_) rfl
  by_cases hk : k = h
  · subst hk
    rw [hm, Function.update_self]
    rfl
  · rw [Function.update_of_ne hk]
    cases hlist : a.lists k with
    | none => rfl
    | some ys =>
      exact congrArg some (hf ys fun hy => r.apart h k xs ys hm hlist (Ne.symm hk) hx hy)

omit [DecidableEq H] [DecidableEq N] in
theorem change_free (hx : Free a x) (hf : ∀ ys, x ∉ ys → f ys = ys) : change f a = a := by
  refine congrArg₂ Listing.mk (funext fun k => ?_) rfl
  cases hlist : a.lists k with
  | none => rfl
  | some ys => exact congrArg some (hf ys (free_not_mem hx hlist))

theorem erase_middle (hx : n ∉ us) : (us++n::vs).erase n = us++vs := by
  rw [List.erase_append_right _ hx, List.erase_cons_head]

omit [DecidableEq H] [DecidableEq N] in
/-- Each list, if it is not empty, was one before. -/
theorem regroup_represents (r : Represents m a) (hkind : b.kind = a.kind) {source : H → H}
    (hinjective : Function.Injective source)
    (hsource : ∀ k zs, b.lists k = some zs → zs = [] ∨ a.lists (source k) = some zs)
    (hchain : ∀ k zs, b.lists k = some zs → Chain Slot.next m' (.first k) zs)
    (hslot : ∀ z, m'.slot (.next z) = m.slot (.next z))
    (hholder : ∀ z, Free a z → m'.holder z = m.holder z) : Represents m' b := by
  refine ⟨hchain,fun k zs hk => ?_,fun i k us vs hi hk hik => ?_,fun z hz k => ?_,fun z hz => ?_,
    fun z hz => ?_,fun z hz => ?_⟩
  · rcases hsource k zs hk with rfl | hk
    · exact List.nodup_nil
    · exact r.nodup _ zs hk
  · rcases hsource i us hi with rfl | hi
    · exact List.disjoint_nil_left vs
    · rcases hsource k vs hk with rfl | hk
      · exact List.disjoint_nil_right us
      · exact r.apart _ _ us vs hi hk (hinjective.ne hik)
  · cases hk : b.lists k with
    | none => simp [nodes, hk]
    | some zs =>
      rw [nodes_some hk]
      rcases hsource k zs hk with rfl | hk
      · exact List.not_mem_nil
      · exact free_not_mem (r.free z (hkind ▸ hz)) hk
  · exact (hslot z).trans (r.ends z (hkind ▸ hz))
  · have hz' : a.kind z = .unhashed := hkind ▸ hz
    exact (hholder z (r.free z (hz' ▸ by decide))).trans (r.unhashed z hz')
  · have hz' : a.kind z = .fake := hkind ▸ hz
    exact (hholder z (r.free z (hz' ▸ by decide))).trans (r.fake z hz')

theorem INIT_HLIST_HEAD_represents (r : Represents m a) :
    Represents (INIT_HLIST_HEAD h m) (put h [] a) := by
  have hslot (z : N) : (INIT_HLIST_HEAD h m).slot (.next z) = m.slot (.next z) :=
    @Function.update_of_ne _ _ _ _ _ (next_ne_first z h) none m.slot
  refine regroup_represents r rfl Function.injective_id (fun k zs hk => ?_) (fun k zs hk => ?_)
    hslot (fun _ _ => rfl)
  · rcases lists_put hk with ⟨-,rfl⟩ | ⟨-,hk⟩
    · exact .inl rfl
    · exact .inr hk
  · rcases lists_put hk with ⟨rfl,rfl⟩ | ⟨hkh,hk⟩
    · exact Function.update_self ..
    · refine chain_frame (fun u hu => Function.update_of_ne ?_ _ _) (fun _ _ => rfl) (r.chain k zs hk)
      rintro rfl
      rcases mem_slots hu with hu | ⟨x,-,hu⟩
      · exact hkh (Slot.first.inj hu).symm
      · cases hu

theorem INIT_HLIST_NODE_represents (r : Represents m a) (hn : Free a n) :
    Represents (INIT_HLIST_NODE n m) (mark n .unhashed a) := by
  refine mark_represents r hn (fun u hu => Function.update_of_ne hu _ _)
    (fun x hx => Function.update_of_ne hx _ _) .unhashed (fun _ => ?_) (fun _ => ?_)
    (fun h => by cases h)
  · exact Function.update_self ..
  · exact Function.update_self ..

/-- A node of a list goes out of it, and one that only appears to be on a list
is where it was. -/
theorem __hlist_del_represents (r : Represents m a) (hn : Entry a n ∨ a.kind n = .fake) :
    ∃ m', __hlist_del n m = some m' ∧ Represents m' (change (·.erase n) a) ∧
      Free (change (·.erase n) a) n := by
  have herase (ys : List N) (hy : n ∉ ys) : ys.erase n = ys := List.erase_of_not_mem hy
  rcases hn with hn | hn
  · obtain ⟨h,us,vs,hm⟩ := entry_split hn
    have hnodup := (List.nodup_cons.mp (List.nodup_middle.mp (r.nodup h _ hm))).1
    have hmem : n ∈ us++n::vs := List.mem_append_right us List.mem_cons_self
    obtain ⟨hr,hfree⟩ := remove_represents r hm
    rw [change_entry r hm hmem herase,
      erase_middle fun hu => hnodup (List.mem_append_left vs hu)]
    exact ⟨_,__hlist_del_remove (chain_holder (r.chain h _ hm)),hr,hfree⟩
  · have hfree := r.free n (hn ▸ by decide)
    have hnone := r.ends n (hn ▸ by decide)
    have hsame : remove Slot.next n (.next n) m = m := by
      refine mem_ext (Function.update_eq_self _ _) ?_
      rw [remove, hnone]
      rfl
    rw [change_free hfree herase]
    exact ⟨_,__hlist_del_remove (r.fake n hn),hsame.symm ▸ r,hfree⟩

theorem hlist_del_represents (r : Represents m a) (poison1 : N) (poison2 : Slot H N)
    (hn : Entry a n ∨ a.kind n = .fake) : ∃ m', hlist_del poison1 poison2 n m = some m' ∧
      Represents m' (mark n .unknown (change (·.erase n) a)) := by
  obtain ⟨m',hdel,hr,hfree⟩ := __hlist_del_represents r hn
  rw [hlist_del, hdel]
  refine ⟨_,rfl,mark_represents hr hfree (fun u hu => Function.update_of_ne hu _ _)
    (fun x hx => Function.update_of_ne hx _ _) .unknown (fun h => absurd rfl h)
    (fun h => by cases h) (fun h => by cases h)⟩

omit [DecidableEq H] [DecidableEq N] in
/-- A node of a list is held by the slot before it. -/
theorem entry_hashed (r : Represents m a) (hn : Entry a n) : hlist_unhashed n m = false := by
  obtain ⟨h,us,vs,hm⟩ := entry_split hn
  rw [hlist_unhashed, chain_holder (r.chain h _ hm)]
  rfl

theorem hlist_del_init_represents (r : Represents m a) (hn : Entry a n ∨ a.kind n ≠ .unknown) :
    ∃ m', hlist_del_init n m = some m' ∧
      Represents m' (mark n .unhashed (change (·.erase n) a)) := by
  by_cases hu : a.kind n = .unhashed
  · have hfree := r.free n (hu ▸ by decide)
    have hnone := r.unhashed n hu
    rw [hlist_del_init, hlist_unhashed, hnone, change_free hfree fun ys => List.erase_of_not_mem]
    exact ⟨m,rfl,mark_represents r hfree (fun _ _ => rfl) (fun _ _ => rfl) .unhashed
      (fun _ => r.ends n (hu ▸ by decide)) (fun _ => hnone) (fun h => by cases h)⟩
  · have hdel : Entry a n ∨ a.kind n = .fake := hn.imp id fun h => by
      cases hk : a.kind n with
      | unknown => exact absurd hk h
      | unhashed => exact absurd hk hu
      | fake => rfl
    have hhashed : hlist_unhashed n m = false := by
      rcases hdel with hn | hn
      · exact entry_hashed r hn
      · rw [hlist_unhashed, r.fake n hn]
        rfl
    obtain ⟨m',hdel,hr,hfree⟩ := __hlist_del_represents r hdel
    rw [hlist_del_init, hhashed, hdel]
    exact ⟨_,rfl,INIT_HLIST_NODE_represents hr hfree⟩

theorem hlist_add_head_represents (r : Represents m a) (hn : Free a n) (hh : (a.lists h).isSome) :
    Represents (hlist_add_head n h m) (mark n .unknown (put h (n::nodes a h) a)) := by
  obtain ⟨xs,hm⟩ := Option.isSome_iff_exists.mp hh
  rw [hlist_add_head_insert, nodes_some hm]
  exact @insert_represents H N m a h n [] xs _ _ r hm hn

theorem hlist_add_before_represents (r : Represents m a) (hn : Free a n) (hx : Entry a next) :
    ∃ m', hlist_add_before n next m = some m' ∧
      Represents m' (mark n .unknown (change (before n next) a)) := by
  obtain ⟨h,us,vs,hm⟩ := entry_split hx
  have hchain := r.chain h _ hm
  have hmem : next ∈ us++next::vs := List.mem_append_right us List.mem_cons_self
  have hnodup := (List.nodup_cons.mp (List.nodup_middle.mp (r.nodup h _ hm))).1
  have hne : n ≠ next := fun he => free_not_mem hn hm (he ▸ hmem)
  have hadd := hlist_add_before_insert hne (chain_holder hchain) (chain_slot (chain_behind hchain))
  refine ⟨_,hadd,?_⟩
  rw [change_entry r hm hmem fun ys hy => before_absent hy,
    before_found fun hu => hnodup (List.mem_append_left vs hu)]
  exact insert_represents r hm hn

theorem hlist_add_behind_represents (r : Represents m a) (hn : Free a n) (hp : Entry a prev) :
    Represents (hlist_add_behind n prev m) (mark n .unknown (change (after n prev) a)) := by
  obtain ⟨h,us,vs,hm⟩ := entry_split hp
  have hmem : prev ∈ us++prev::vs := List.mem_append_right us List.mem_cons_self
  have hnodup := (List.nodup_cons.mp (List.nodup_middle.mp (r.nodup h _ hm))).1
  have hne : n ≠ prev := fun he => free_not_mem hn hm (he ▸ hmem)
  have hslot : m.slot (.next prev) = vs.head? := chain_slot (chain_behind (r.chain h _ hm)).2.2
  have habsent : n ∉ m.slot (.next prev) := fun hv =>
    free_not_mem hn hm (List.mem_append_right us
      (List.mem_cons_of_mem prev (List.mem_of_mem_head? (hslot ▸ hv))))
  have hbehind : behind Slot.next (Slot.first h : Slot H N) (us++[prev]) = .next prev :=
    behind_last ..
  rw [hlist_add_behind_insert hne habsent, change_entry r hm hmem fun ys hy => after_absent hy,
    after_found fun hu => hnodup (List.mem_append_left vs hu)]
  have hr := @insert_represents H N m a h n (us++[prev]) vs _ _ r (by simpa using hm) hn
  rwa [hbehind, List.append_assoc] at hr

omit [DecidableEq H] in
theorem hlist_add_fake_represents (r : Represents m a) (hn : a.kind n = .unhashed) :
    Represents (hlist_add_fake n m) (mark n .fake a) := by
  have hslot : (hlist_add_fake n m).slot = m.slot := rfl
  refine mark_represents r (r.free n (hn ▸ by decide)) (fun u _ => congrFun hslot u)
    (fun x hx => Function.update_of_ne hx _ _) .fake (fun _ => ?_) (fun h => by cases h)
    (fun _ => ?_)
  · exact r.ends n (hn ▸ by decide)
  · exact Function.update_self ..

theorem hlist_move_list_memory (old new : H) : hlist_move_list old new m =
    ⟨Function.update (Function.update m.slot (.first new) (m.slot (.first old))) (.first old) none,
      rehold (m.slot (.first old)) (.first new) m.holder⟩ := by
  unfold hlist_move_list set_pprev_of rehold
  dsimp only [set_pprev, set]
  rw [Function.update_self]
  cases m.slot (.first old) <;> rfl

omit [DecidableEq N] in
/-- A list after a move is the one without nodes, the one moved or as it was. -/
theorem moved_lists {k : H} {zs : List N} (hk : (put old [] (put new xs a)).lists k = some zs) :
    k = old ∧ zs = [] ∨ k = new ∧ zs = xs ∨ k ≠ old ∧ k ≠ new ∧ a.lists k = some zs := by
  rcases lists_put hk with h | ⟨hko,hk⟩
  · exact .inl h
  · rcases lists_put hk with h | ⟨hkn,hk⟩
    · exact .inr (.inl h)
    · exact .inr (.inr ⟨hko,hkn,hk⟩)

theorem hlist_move_list_represents (r : Represents m a) (ho : (a.lists old).isSome)
    (hne : old ≠ new) :
    Represents (hlist_move_list old new m) (put old [] (put new (nodes a old) a)) := by
  obtain ⟨xs,hm⟩ := Option.isSome_iff_exists.mp ho
  rw [nodes_some hm, hlist_move_list_memory]
  have hchain := r.chain old xs hm
  have hfirst : m.slot (.first old) = xs.head? := chain_slot hchain
  have hslot {u : Slot H N} (ho : u ≠ .first old) (hn : u ≠ .first new) :
      Function.update (Function.update m.slot (.first new) (m.slot (.first old))) (.first old) none u =
        m.slot u :=
    (Function.update_of_ne ho _ _).trans (Function.update_of_ne hn _ _)
  have hnext (x : N) := hslot (next_ne_first x old) (next_ne_first x new)
  refine regroup_represents r rfl (Equiv.swap old new).injective (fun k zs hk => ?_)
    (fun k zs hk => ?_) hnext (fun z hz => ?_)
  · rcases moved_lists hk with ⟨-,rfl⟩ | ⟨rfl,rfl⟩ | ⟨hko,hkn,hk⟩
    · exact .inl rfl
    · rw [Equiv.swap_apply_right]
      exact .inr hm
    · rw [Equiv.swap_apply_of_ne_of_ne hko hkn]
      exact .inr hk
  · rcases moved_lists hk with ⟨rfl,rfl⟩ | ⟨rfl,rfl⟩ | ⟨hko,hkn,hk⟩
    · exact Function.update_self ..
    · have hback : (Slot.first k : Slot H N) ≠ .first old := fun he => hne (Slot.first.inj he).symm
      refine chain_moved hchain ?_ (fun x _ => hnext x) (fun x hx => ?_) (fun x hx => ?_)
      · exact (Function.update_of_ne hback _ _).trans (Function.update_self ..)
      · exact rehold_self (hfirst ▸ hx)
      · exact rehold_of_ne (hfirst ▸ tail_ne_head (r.nodup old zs hm) hx)
    · refine chain_frame (fun u hu => ?_) (fun x hx => ?_) (r.chain k zs hk)
      · rcases mem_slots hu with rfl | ⟨x,-,rfl⟩
        · exact hslot (fun he => hko (Slot.first.inj he)) fun he => hkn (Slot.first.inj he)
        · exact hnext x
      · refine rehold_of_ne fun hy => ?_
        exact r.apart k old zs xs hk hm hko hx (List.mem_of_mem_head? (hfirst ▸ hy))
  · refine rehold_of_ne fun hy => ?_
    exact free_not_mem hz hm (List.mem_of_mem_head? (hfirst ▸ hy))

/-- An operation on the pointers does to the lists what it is for, and never
goes through the null pointer. -/
theorem exec_represents (r : Represents m a) (poison1 : N) (poison2 : Slot H N) (op : Op H N)
    (ok : Ok a op) : ∃ m', exec poison1 poison2 m op = some m' ∧ Represents m' (meant a op) := by
  cases op with
  | INIT_HLIST_HEAD h => exact ⟨_,rfl,INIT_HLIST_HEAD_represents r⟩
  | INIT_HLIST_NODE n => exact ⟨_,rfl,INIT_HLIST_NODE_represents r ok⟩
  | hlist_del n => exact hlist_del_represents r poison1 poison2 ok
  | hlist_del_init n => exact hlist_del_init_represents r ok
  | hlist_add_head n h => exact ⟨_,rfl,hlist_add_head_represents r ok.1 ok.2⟩
  | hlist_add_before n next => exact hlist_add_before_represents r ok.1 ok.2
  | hlist_add_behind n prev => exact ⟨_,rfl,hlist_add_behind_represents r ok.1 ok.2⟩
  | hlist_add_fake n => exact ⟨_,rfl,hlist_add_fake_represents r ok⟩
  | hlist_move_list old new => exact ⟨_,rfl,hlist_move_list_represents r ok.1 ok.2⟩

omit [DecidableEq H] [DecidableEq N] in
/-- The loop from a slot of a chain sees the rest of it. -/
theorem for_each_rest {s : Slot H N} {seen : List N} {turns : ℕ} (hc : Chain Slot.next m s xs)
    (ht : xs.length < turns) : loop (for_each_turn m) turns (m.slot s,seen) = .inr (seen++xs) := by
  induction xs generalizing s seen turns with
  | nil =>
    obtain ⟨turns,rfl⟩ : ∃ k, turns = k+1 := ⟨turns-1,by simp at ht; omega⟩
    rw [chain_slot hc, List.append_nil]
    exact loop_leave turns rfl
  | cons x xs ih =>
    rw [List.length_cons] at ht
    obtain ⟨turns,rfl⟩ : ∃ k, turns = k+1 := ⟨turns-1,by omega⟩
    have hturn : for_each_turn m (m.slot s,seen) = .inl (m.slot (.next x),seen++[x]) := by
      rw [hc.1]
      rfl
    rw [loop_continue turns hturn, ih hc.2.2 (by omega), List.append_assoc]
    rfl

/-- What a caller sees of the lists and the nodes. -/
structure Seen (m : Nodes H N) (a : Listing H N) : Prop where
  each : ∀ h xs, a.lists h = some xs → ∀ turns > xs.length, hlist_for_each h turns m = .inr xs
  empty : ∀ h xs, a.lists h = some xs → hlist_empty h m = xs.isEmpty
  nodup : ∀ h xs, a.lists h = some xs → xs.Nodup
  apart : ∀ h k xs ys, a.lists h = some xs → a.lists k = some ys → h ≠ k → List.Disjoint xs ys
  listed : ∀ n, Entry a n → hlist_unhashed n m = false ∧ hlist_fake n m = false
  unhashed : ∀ n, a.kind n = .unhashed → hlist_unhashed n m = true
  fake : ∀ n, a.kind n = .fake → hlist_unhashed n m = false ∧ hlist_fake n m = true

omit [DecidableEq H] [DecidableEq N] in
/-- A node of a list is not held by itself. -/
theorem behind_ne_next {xs ys : List N} (hx : (xs++n::ys).Nodup) :
    behind Slot.next (.first h) xs ≠ Slot.next n := by
  intro he
  have hmem : Slot.next n ∈ slots Slot.next (.first h) xs := he ▸ behind_mem _ xs
  exact (List.nodup_cons.mp (List.nodup_middle.mp hx)).1
    (List.mem_append_left ys (next_slots.mp hmem))

theorem represents_seen (r : Represents m a) : Seen m a where
  each h xs hm turns ht := for_each_rest (r.chain h xs hm) ht
  empty h xs hm := by
    rw [hlist_empty, chain_slot (r.chain h xs hm)]
    cases xs <;> rfl
  nodup := r.nodup
  apart := r.apart
  listed n hn := by
    refine ⟨entry_hashed r hn,?_⟩
    obtain ⟨h,us,vs,hm⟩ := entry_split hn
    rw [hlist_fake, chain_holder (r.chain h _ hm)]
    exact decide_eq_false fun he => behind_ne_next (r.nodup h _ hm) (Option.some.inj he)
  unhashed n hn := by
    rw [hlist_unhashed, r.unhashed n hn]
    rfl
  fake n hn := by
    rw [hlist_unhashed, hlist_fake, r.fake n hn]
    exact ⟨rfl,decide_eq_true rfl⟩

/-- The pointers, as long as none was taken through the null pointer, and what
the caller did to its lists. -/
structure Held (H N : Type*) where
  pointers : Option (Nodes H N)
  listing : Listing H N

/-- Before the first initialisation the pointers hold anything. -/
def boot (garbage : Nodes H N) : Held H N := ⟨some garbage,fun _ => none,fun _ => .unknown⟩

def step (poison1 : N) (poison2 : Slot H N) (s : Held H N) (op : Op H N) : Held H N :=
  ⟨s.pointers.bind fun m => exec poison1 poison2 m op,meant s.listing op⟩

def Shown (s : Held H N) : Prop := ∃ m, s.pointers = some m ∧ Seen m s.listing

theorem step_represents {poison1 : N} {poison2 : Slot H N} {s : Held H N} {op : Op H N}
    (hs : ∃ m, s.pointers = some m ∧ Represents m s.listing) (ok : Ok s.listing op) :
    ∃ m, (step poison1 poison2 s op).pointers = some m ∧
      Represents m (step poison1 poison2 s op).listing := by
  obtain ⟨m,hm,hr⟩ := hs
  obtain ⟨m',he,hr⟩ := exec_represents hr poison1 poison2 op ok
  exact ⟨m',by rw [step, hm]; exact he,hr⟩

omit [DecidableEq H] [DecidableEq N] in
theorem boot_represents (garbage : Nodes H N) : Represents garbage (boot garbage).listing where
  chain _ _ hm := by cases hm
  nodup _ _ hm := by cases hm
  apart _ _ _ _ hm := by cases hm
  free _ hn := absurd rfl hn
  ends _ hn := absurd rfl hn
  unhashed _ hn := by cases hn
  fake _ hn := by cases hn

/-- Whatever order the operations come in, on however many heads. -/
theorem hlists_shown (poison1 : N) (poison2 : Slot H N) (garbage : Nodes H N) (ops : List (Op H N))
    (hok : Along (step poison1 poison2) (fun s op => Ok s.listing op) (boot garbage) ops) :
    Always (step poison1 poison2) Shown (boot garbage) ops := by
  refine always_mono ?_ (always_of_step
    (fun s : Held H N => ∃ m, s.pointers = some m ∧ Represents m s.listing)
    (fun _ _ hs hop => step_represents hs hop) (boot garbage) ops
    ⟨garbage,rfl,boot_represents garbage⟩ hok)
  rintro s ⟨m,hm,hr⟩
  exact ⟨m,hm,represents_seen hr⟩

section Check
variable [Fintype H]

instance (a : Listing H N) (n : N) : Decidable (Free a n) :=
  inferInstanceAs (Decidable (∀ h, n ∉ nodes a h))

instance (a : Listing H N) (n : N) : Decidable (Entry a n) :=
  inferInstanceAs (Decidable (∃ h, n ∈ nodes a h))

instance (a : Listing H N) : (op : Op H N) → Decidable (Ok a op)
  | .INIT_HLIST_HEAD _ => inferInstanceAs (Decidable True)
  | .INIT_HLIST_NODE n => inferInstanceAs (Decidable (Free a n))
  | .hlist_del n => inferInstanceAs (Decidable (Entry a n ∨ a.kind n = .fake))
  | .hlist_del_init n => inferInstanceAs (Decidable (Entry a n ∨ a.kind n ≠ .unknown))
  | .hlist_add_head n h => inferInstanceAs (Decidable (Free a n ∧ (a.lists h).isSome))
  | .hlist_add_before n next => inferInstanceAs (Decidable (Free a n ∧ Entry a next))
  | .hlist_add_behind n prev => inferInstanceAs (Decidable (Free a n ∧ Entry a prev))
  | .hlist_add_fake n => inferInstanceAs (Decidable (a.kind n = .unhashed))
  | .hlist_move_list old new => inferInstanceAs (Decidable ((a.lists old).isSome ∧ old ≠ new))

end Check

/-- A list of three nodes is moved, and loses all of them; one of them appears to
be on a list until it is deleted once more. -/
theorem hlists_shown_move :
    let ops : List (Op (Fin 2) (Fin 6)) :=
      [.INIT_HLIST_HEAD 0,.INIT_HLIST_NODE 1,.hlist_add_head 1 0,.hlist_add_before 2 1,
        .hlist_add_behind 3 1,.hlist_move_list 0 1,.hlist_del 1,.hlist_del_init 2,
        .hlist_del_init 2,.hlist_del_init 3,.hlist_add_fake 2,.hlist_del 2]
    Always (step 5 (.next 5)) Shown (boot ⟨fun _ => some 4,fun _ => none⟩) ops :=
  hlists_shown 5 (.next 5) ⟨fun _ => some 4,fun _ => none⟩ _ (by decide)

end Run

end BaseDrivers.HashList
