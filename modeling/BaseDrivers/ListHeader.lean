import Mathlib.Data.Fintype.Basic
import Mathlib.Logic.Function.Basic
import BaseDrivers.KernelList

/-!
# The operations of `list.h`

Addresses of `struct list_head` are linked in two directions. A caller sees
heads, each with the entries behind it in order, and an address that was
initialised is the head of an empty list. Every operation on the links does
to the heads and entries what its comment says, as long as it is called on
addresses that are what the operation takes them for. The operations which the
list of sensors needs are those of `KernelList`.
-/

set_option autoImplicit false
set_option linter.style.nameCheck false

namespace BaseDrivers.ListHeader
open BaseDrivers.Execution BaseDrivers.LinkedRing
open BaseDrivers.KernelList (set_next set_prev INIT_LIST_HEAD __list_add list_add_tail __list_del
  list_del_init add_next add_prev init_next init_prev del_next del_prev)

section Header
variable {N : Type*} [DecidableEq N]

def list_add (new head : N) (l : Links N) : Links N := __list_add new head (l.next head) l

/-- `LIST_POISON1` and `LIST_POISON2` are two addresses that hold nothing. -/
def list_del (poison1 poison2 entry : N) (l : Links N) : Links N :=
  set_prev entry poison2 (set_next entry poison1 (__list_del (l.prev entry) (l.next entry) l))

def list_replace (old new : N) (l : Links N) : Links N :=
  let l := set_next new (l.next old) l
  let l := set_prev (l.next new) new l
  let l := set_prev new (l.prev old) l
  set_next (l.prev new) new l

def list_replace_init (old new : N) (l : Links N) : Links N :=
  INIT_LIST_HEAD old (list_replace old new l)

def list_move (list head : N) (l : Links N) : Links N :=
  list_add list head (__list_del (l.prev list) (l.next list) l)

def list_move_tail (list head : N) (l : Links N) : Links N :=
  list_add_tail list head (__list_del (l.prev list) (l.next list) l)

def list_is_last (list head : N) (l : Links N) : Bool := l.next list == head

def list_empty (head : N) (l : Links N) : Bool := l.next head == head

def list_empty_careful (head : N) (l : Links N) : Bool :=
  let next := l.next head
  next == head && next == l.prev head

def __list_splice (list head : N) (l : Links N) : Links N :=
  let first := l.next list
  let last := l.prev list
  let at_ := l.next head
  let l := set_prev first head l
  let l := set_next head first l
  let l := set_next last at_ l
  set_prev at_ last l

def list_splice (list head : N) (l : Links N) : Links N :=
  if !list_empty list l then __list_splice list head l else l

def list_splice_init (list head : N) (l : Links N) : Links N :=
  if !list_empty list l then INIT_LIST_HEAD list (__list_splice list head l) else l

/-- One turn of a loop over a list, with the cursor and the entries seen. -/
def for_each_turn (go : N → N) (head : N) : N × List N → (N × List N) ⊕ List N
  | (pos,seen) => if pos = head then .inr seen else .inl (go pos,seen++[pos])

def for_each (go : N → N) (head : N) (turns : ℕ) : (N × List N) ⊕ List N :=
  loop (for_each_turn go head) turns (go head,[])

def list_for_each (head : N) (turns : ℕ) (l : Links N) : (N × List N) ⊕ List N :=
  for_each l.next head turns

def list_for_each_prev (head : N) (turns : ℕ) (l : Links N) : (N × List N) ⊕ List N :=
  for_each l.prev head turns

inductive Op (N : Type*) where
  | INIT_LIST_HEAD (list : N)
  | list_add (new head : N)
  | list_add_tail (new head : N)
  | list_del (entry : N)
  | list_del_init (entry : N)
  | list_replace (old new : N)
  | list_replace_init (old new : N)
  | list_move (list head : N)
  | list_move_tail (list head : N)
  | list_splice (list head : N)
  | list_splice_init (list head : N)
  deriving DecidableEq

def exec (poison1 poison2 : N) (l : Links N) : Op N → Links N
  | .INIT_LIST_HEAD list => INIT_LIST_HEAD list l
  | .list_add new head => list_add new head l
  | .list_add_tail new head => list_add_tail new head l
  | .list_del entry => list_del poison1 poison2 entry l
  | .list_del_init entry => list_del_init entry l
  | .list_replace old new => list_replace old new l
  | .list_replace_init old new => list_replace_init old new l
  | .list_move list head => list_move list head l
  | .list_move_tail list head => list_move_tail list head l
  | .list_splice list head => list_splice list head l
  | .list_splice_init list head => list_splice_init list head l

end Header

/-- The heads a caller knows, each with its entries. -/
abbrev Listing (N : Type*) := N → Option (List N)

section Lists
variable {N : Type*} [DecidableEq N]

omit [DecidableEq N] in
def entries (m : Listing N) (h : N) : List N := (m h).getD []

def put (h : N) (xs : List N) (m : Listing N) : Listing N := Function.update m h (some xs)

def forget (a : N) (m : Listing N) : Listing N := Function.update m a none

omit [DecidableEq N] in
def change (f : List N → List N) (m : Listing N) : Listing N := fun h => (m h).map f

/-- An entry is taken out of the list it is in. -/
def drop (e : N) (m : Listing N) : Listing N := change (·.erase e) m

def replace (old new : N) (m : Listing N) : Listing N :=
  match m old with
  | some xs => put new xs (forget old (forget new m))
  | none => change (·.map fun a => if a = old then new else a) (forget new m)

/-- What the comments of the header say. -/
def meant (m : Listing N) : Op N → Listing N
  | .INIT_LIST_HEAD list => put list [] m
  | .list_add new head => put head (new::entries m head) (forget new m)
  | .list_add_tail new head => put head (entries m head++[new]) (forget new m)
  | .list_del entry => drop entry m
  | .list_del_init entry => put entry [] (drop entry m)
  | .list_replace old new => replace old new m
  | .list_replace_init old new => put old [] (replace old new m)
  | .list_move list head => put head (list::entries (drop list m) head) (drop list m)
  | .list_move_tail list head => put head (entries (drop list m) head++[list]) (drop list m)
  | .list_splice list head =>
    if entries m list = [] then m
    else put head (entries m list++entries m head) (forget list m)
  | .list_splice_init list head =>
    if entries m list = [] then m
    else put list [] (put head (entries m list++entries m head) (forget list m))

/-- An address in no list, and with no entries if it is a head. -/
def Free (m : Listing N) (a : N) : Prop := (∀ h, a ∉ entries m h) ∧ entries m a = []

def Entry (m : Listing N) (a : N) : Prop := ∃ h, a ∈ entries m h

/-- What an operation takes its addresses for. -/
def Ok (m : Listing N) : Op N → Prop
  | .INIT_LIST_HEAD list => Free m list
  | .list_add new head => Free m new ∧ (m head).isSome ∧ new ≠ head
  | .list_add_tail new head => Free m new ∧ (m head).isSome ∧ new ≠ head
  | .list_del entry => Entry m entry
  | .list_del_init entry => Entry m entry ∨ m entry = some []
  | .list_replace old new => (Entry m old ∨ (m old).isSome) ∧ Free m new ∧ new ≠ old
  | .list_replace_init old new => (Entry m old ∨ (m old).isSome) ∧ Free m new ∧ new ≠ old
  | .list_move list head => Entry m list ∧ (m head).isSome
  | .list_move_tail list head => Entry m list ∧ (m head).isSome
  | .list_splice list head => (m list).isSome ∧ (m head).isSome ∧ list ≠ head
  | .list_splice_init list head => (m list).isSome ∧ (m head).isSome ∧ list ≠ head

/-- No list has the address, neither as its head nor as an entry. -/
def Fresh (m : Listing N) (a : N) : Prop := ∀ h xs, m h = some xs → a ∉ h::xs

/-- The links hold the lists, and no two of them share an address. -/
structure Represents (l : Links N) (m : Listing N) : Prop where
  ring : ∀ h xs, m h = some xs → Ring l h xs
  apart : ∀ h k xs ys, m h = some xs → m k = some ys → h ≠ k → ∀ a ∈ h::xs, a ∉ k::ys

omit [DecidableEq N] in
theorem entries_some {m : Listing N} {h : N} {xs : List N} (hm : m h = some xs) :
    entries m h = xs := by
  rw [entries, hm, Option.getD_some]

omit [DecidableEq N] in
theorem entry_some {m : Listing N} {a : N} (ha : Entry m a) : ∃ h xs, m h = some xs ∧ a ∈ xs := by
  obtain ⟨h,hmem⟩ := ha
  cases hm : m h with
  | none => simp [entries, hm] at hmem
  | some xs => exact ⟨h,xs,hm,entries_some hm ▸ hmem⟩

omit [DecidableEq N] in
theorem free_notMem {m : Listing N} {a h : N} {xs : List N} (ha : Free m a) (hm : m h = some xs) :
    a ∉ xs := entries_some hm ▸ ha.1 h

section Keeping
variable {l l' : Links N} {m : Listing N}

omit [DecidableEq N] in
/-- An entry has one list, and is no head. -/
theorem entry_apart (hr : Represents l m) {h k a : N} {xs ys : List N} (hm : m h = some xs)
    (ha : a ∈ xs) (hk : m k = some ys) (hkh : k ≠ h) : a ∉ k::ys :=
  hr.apart h k xs ys hm hk (Ne.symm hkh) a (List.mem_cons_of_mem h ha)

omit [DecidableEq N] in
theorem entry_no_head (hr : Represents l m) {h a : N} {xs : List N} (hm : m h = some xs)
    (ha : a ∈ xs) : m a = none := by
  cases hk : m a with
  | none => rfl
  | some ys =>
    have hne : a ≠ h := by
      rintro rfl
      exact (List.nodup_cons.mp (hr.ring a xs hm).nodup).1 ha
    exact absurd List.mem_cons_self (entry_apart hr hm ha hk hne)

theorem forget_some {a k : N} {ys : List N} (h : forget a m k = some ys) : m k = some ys ∧ k ≠ a := by
  by_cases hk : k = a
  · subst hk
    rw [forget, Function.update_self] at h
    cases h
  · rw [forget, Function.update_of_ne hk] at h
    exact ⟨h,hk⟩

theorem forget_of_ne {a k : N} (hk : k ≠ a) : forget a m k = m k := Function.update_of_ne hk _ _

theorem forget_represents (hr : Represents l m) (a : N) : Represents l (forget a m) := by
  constructor
  · intro h xs hm
    exact hr.ring h xs (forget_some hm).1
  · intro h k xs ys hm hk
    exact hr.apart h k xs ys (forget_some hm).1 (forget_some hk).1

theorem forget_fresh {a : N} (ha : Free m a) : Fresh (forget a m) a := by
  intro h xs hm
  obtain ⟨hm,hne⟩ := forget_some hm
  rw [List.mem_cons, not_or]
  exact ⟨Ne.symm hne,free_notMem ha hm⟩

/-- A list is set, by a change that the other lists do not notice. -/
theorem put_represents (hr : Represents l m) {h : N} {zs : List N} (hring : Ring l' h zs)
    (hapart : ∀ k ys, m k = some ys → k ≠ h → ∀ a ∈ k::ys,
      a ∉ h::zs ∧ l'.next a = l.next a ∧ l'.prev a = l.prev a) : Represents l' (put h zs m) := by
  have hput (k : N) (ys : List N) (hk : put h zs m k = some ys) :
      k = h ∧ ys = zs ∨ k ≠ h ∧ m k = some ys := by
    by_cases hkh : k = h
    · subst hkh
      rw [put, Function.update_self] at hk
      exact .inl ⟨rfl,(Option.some.inj hk).symm⟩
    · rw [put, Function.update_of_ne hkh] at hk
      exact .inr ⟨hkh,hk⟩
  constructor
  · intro k ys hk
    rcases hput k ys hk with ⟨rfl,rfl⟩ | ⟨hkh,hk⟩
    · exact hring
    · exact ring_kept (hr.ring k ys hk) (fun a ha => (hapart k ys hk hkh a ha).2)
  · intro j k xs ys hj hk hjk a ha
    rcases hput j xs hj with ⟨rfl,rfl⟩ | ⟨hjh,hmj⟩
    · rcases hput k ys hk with ⟨rfl,rfl⟩ | ⟨hkh,hmk⟩
      · exact absurd rfl hjk
      · exact fun hak => (hapart k ys hmk hkh a hak).1 ha
    · rcases hput k ys hk with ⟨rfl,rfl⟩ | ⟨hkh,hmk⟩
      · exact (hapart j xs hmj hjh a ha).1
      · exact hr.apart j k xs ys hmj hmk hjk a ha

omit [DecidableEq N] in
/-- Links of addresses in no list do not matter. -/
theorem fresh_represents (hr : Represents l m)
    (hk : ∀ a, ¬ Fresh m a → l'.next a = l.next a ∧ l'.prev a = l.prev a) : Represents l' m := by
  refine ⟨fun h xs hm => ring_kept (hr.ring h xs hm) (fun a ha => hk a ?_),hr.apart⟩
  intro hf
  exact hf h xs hm ha

theorem init_represents (hr : Represents l m) {a : N} (ha : Free m a) :
    Represents (INIT_LIST_HEAD a l) (put a [] m) := by
  apply put_represents hr
  · apply (ring_nil a).mpr
    exact ⟨(init_next a a).trans (if_pos rfl),(init_prev a a).trans (if_pos rfl)⟩
  · intro k ys hk hka b hb
    have hba : b ≠ a := by
      rintro rfl
      rcases List.mem_cons.mp hb with rfl | hb
      · exact hka rfl
      · exact free_notMem ha hk hb
    simp [init_next, init_prev, hba]

end Keeping

section Adding
variable {l : Links N} {m : Listing N} {new head : N}

/-- Of the links of a list that does not have the address, only those on the
two sides of the place change. -/
theorem add_other {prev next a : N} (hn : a ≠ new) (hp : a ≠ prev) (hx : a ≠ next) :
    (__list_add new prev next l).next a = l.next a ∧
      (__list_add new prev next l).prev a = l.prev a := by
  rw [add_next, add_prev, if_neg hp, if_neg hn, if_neg hn, if_neg hx]
  exact ⟨rfl,rfl⟩

/-- What an addition makes of a list is right for the others. -/
theorem add_put {xs zs : List N} {prev next : N} (hr : Represents l m) (hf : Fresh m new)
    (hm : m head = some xs) (hp : prev ∈ head::xs) (hx : next ∈ head::xs)
    (hz : ∀ a ∈ zs, a = new ∨ a ∈ xs) (hring : Ring (__list_add new prev next l) head zs) :
    Represents (__list_add new prev next l) (put head zs m) := by
  apply put_represents hr hring
  intro k ys hk hkh a ha
  have hah : a ∉ head::xs := hr.apart k head ys xs hk hm hkh a ha
  have han : a ≠ new := by
    rintro rfl
    exact hf k ys hk ha
  constructor
  · rw [List.mem_cons, not_or] at hah ⊢
    exact ⟨hah.1,fun hmem => (hz a hmem).elim han hah.2⟩
  · exact add_other han (fun h => hah (h ▸ hp)) (fun h => hah (h ▸ hx))

theorem list_add_fresh (hr : Represents l m) (hf : Fresh m new) (hh : (m head).isSome) :
    Represents (list_add new head l) (put head (new::entries m head) m) := by
  obtain ⟨xs,hm⟩ := Option.isSome_iff_exists.mp hh
  have hring := hr.ring head xs hm
  have hnew := hf head xs hm
  have hnext := (ring_mem hring (List.mem_cons_self (a := head) (l := xs))).1
  rw [entries_some hm]
  apply add_put hr hf hm List.mem_cons_self hnext (fun a ha => List.mem_cons.mp ha)
  have hne : new ≠ head := fun h => hnew (h ▸ List.mem_cons_self)
  have hnn : l.next head ≠ new := fun h => hnew (h ▸ hnext)
  apply ring_insert_first hring hnew
  · exact ⟨by rw [add_next, if_pos rfl],by rw [add_prev, if_pos rfl]⟩
  · exact ⟨by rw [add_next, if_neg hne, if_pos rfl],by rw [add_prev, if_neg hnn, if_pos rfl]⟩
  · intro a ha han
    rw [add_next, if_neg ha, if_neg han]
  · intro b hb hbn
    rw [add_prev, if_neg hbn, if_neg hb]

theorem list_add_tail_fresh (hr : Represents l m) (hf : Fresh m new) (hh : (m head).isSome) :
    Represents (list_add_tail new head l) (put head (entries m head++[new]) m) := by
  obtain ⟨xs,hm⟩ := Option.isSome_iff_exists.mp hh
  have hring := hr.ring head xs hm
  have hnew := hf head xs hm
  have hprev := (ring_mem hring (List.mem_cons_self (a := head) (l := xs))).2
  rw [entries_some hm]
  apply add_put hr hf hm hprev List.mem_cons_self
  · intro a ha
    rw [List.mem_append, List.mem_singleton] at ha
    exact ha.symm
  · have hne : new ≠ l.prev head := fun h => hnew (h ▸ hprev)
    have hnn : head ≠ new := fun h => hnew (h ▸ List.mem_cons_self)
    apply ring_insert hring hnew
    · exact ⟨by rw [add_next, if_pos rfl],by rw [add_prev, if_pos rfl]⟩
    · exact ⟨by rw [add_next, if_neg hne, if_pos rfl],by rw [add_prev, if_neg hnn, if_pos rfl]⟩
    · intro a ha han
      rw [add_next, if_neg ha, if_neg han]
    · intro b hb hbn
      rw [add_prev, if_neg hbn, if_neg hb]

end Adding

section Deleting
variable {l : Links N} {m : Listing N} {e : N}

/-- Only the list of an entry has something to drop. -/
theorem drop_put (hr : Represents l m) {h : N} {xs : List N} (hm : m h = some xs) (he : e ∈ xs) :
    drop e m = put h (xs.erase e) m := by
  funext k
  by_cases hkh : k = h
  · subst hkh
    rw [put, Function.update_self, drop, change, hm, Option.map_some]
  · rw [put, Function.update_of_ne hkh, drop, change]
    cases hk : m k with
    | none => rfl
    | some ys =>
      have hout := entry_apart hr hm he hk hkh
      rw [Option.map_some, List.erase_of_not_mem (fun h => hout (List.mem_cons_of_mem k h))]

omit [DecidableEq N] in
theorem fresh_free (hf : Fresh m e) : Free m e := by
  constructor
  · intro h
    cases hm : m h with
    | none => simp [entries, hm]
    | some xs =>
      rw [entries_some hm]
      exact fun he => hf h xs hm (List.mem_cons_of_mem h he)
  · cases hm : m e with
    | none => simp [entries, hm]
    | some xs => exact absurd List.mem_cons_self (hf e xs hm)

/-- An entry is taken out of its list, and then is in no list. -/
theorem del_represents (hr : Represents l m) (he : Entry m e) :
    Represents (__list_del (l.prev e) (l.next e) l) (drop e m) ∧ Fresh (drop e m) e := by
  obtain ⟨h,xs,hm,he⟩ := entry_some he
  obtain ⟨ys,zs,-,hxs,herase⟩ := List.exists_erase_eq he
  have hring := hr.ring h xs hm
  have hmem := ring_mem hring (List.mem_cons_of_mem h he)
  have hnodup := hring.nodup
  rw [drop_put hr hm he]
  constructor
  · apply put_represents hr
    · rw [herase]
      rw [hxs] at hring
      apply ring_remove hring
      · exact ⟨by rw [del_next, if_pos rfl],by rw [del_prev, if_pos rfl]⟩
      · intro a ha _
        rw [del_next, if_neg ha]
      · intro b hb _
        rw [del_prev, if_neg hb]
    · intro k ys' hk hkh a ha
      have hah : a ∉ h::xs := hr.apart k h ys' xs hk hm hkh a ha
      have hap : a ≠ l.prev e := fun heq => hah (heq ▸ hmem.2)
      have han : a ≠ l.next e := fun heq => hah (heq ▸ hmem.1)
      rw [del_next, del_prev, if_neg hap, if_neg han]
      refine ⟨fun hmem => hah ?_,rfl,rfl⟩
      rcases List.mem_cons.mp hmem with rfl | hmem
      · exact List.mem_cons_self
      · exact List.mem_cons_of_mem h (List.mem_of_mem_erase hmem)
  · intro k ys' hk
    by_cases hkh : k = h
    · subst hkh
      rw [put, Function.update_self] at hk
      obtain rfl := Option.some.inj hk
      obtain ⟨hhead,hnd⟩ := List.nodup_cons.mp hnodup
      rw [List.mem_cons, not_or]
      refine ⟨?_,hnd.not_mem_erase⟩
      rintro rfl
      exact hhead he
    · rw [put, Function.update_of_ne hkh] at hk
      exact entry_apart hr hm he hk hkh

theorem list_del_represents (hr : Represents l m) (he : Entry m e) (poison1 poison2 : N) :
    Represents (list_del poison1 poison2 e l) (drop e m) := by
  obtain ⟨hd,hf⟩ := del_represents hr he
  apply fresh_represents hd
  intro a ha
  have hae : a ≠ e := fun h => ha (h ▸ hf)
  simp [list_del, set_next, set_prev, hae]

omit [DecidableEq N] in
theorem alone_free (hr : Represents l m) (he : m e = some []) : Free m e := by
  constructor
  · intro k hmem
    cases hk : m k with
    | none => simp [entries, hk] at hmem
    | some ys =>
      rw [entries_some hk] at hmem
      have hke : e ≠ k := by
        rintro rfl
        rw [he] at hk
        cases hk
        cases hmem
      exact hr.apart e k [] ys he hk hke e List.mem_cons_self (List.mem_cons_of_mem k hmem)
  · exact entries_some he

theorem list_del_init_represents (hr : Represents l m) (he : Entry m e ∨ m e = some []) :
    Represents (list_del_init e l) (put e [] (drop e m)) := by
  rcases he with he | he
  · obtain ⟨hd,hf⟩ := del_represents hr he
    exact init_represents hd (fresh_free hf)
  · -- an address that is linked with itself
    obtain ⟨hn,hp⟩ := (ring_nil e).mp (hr.ring e [] he)
    have hfree := alone_free hr he
    have hdrop : drop e m = m := by
      funext k
      rw [drop, change]
      cases hk : m k with
      | none => rfl
      | some ys => rw [Option.map_some, List.erase_of_not_mem (free_notMem hfree hk)]
    rw [hdrop]
    apply init_represents _ hfree
    apply fresh_represents hr
    intro a _
    rw [del_next, del_prev, hn, hp]
    constructor
    · split_ifs with ha
      · rw [ha, hn]
      · rfl
    · split_ifs with ha
      · rw [ha, hp]
      · rfl

omit [DecidableEq N] in
theorem change_isSome {f : List N → List N} {h : N} (hh : (m h).isSome) :
    (change f m h).isSome := by
  rw [change, Option.isSome_map]
  exact hh

end Deleting

section Replacing
variable {l : Links N} {m : Listing N} {old new : N}

theorem replace_next (h : l.next old ≠ old) (a : N) : (list_replace old new l).next a =
    if a = l.prev old then new else if a = new then l.next old else l.next a := by
  simp [list_replace, set_next, set_prev, Function.update_apply, h.symm]

theorem replace_prev (h : l.next old ≠ old) (b : N) : (list_replace old new l).prev b =
    if b = new then l.prev old else if b = l.next old then new else l.prev b := by
  simp [list_replace, set_next, set_prev, Function.update_apply, h.symm]

theorem replace_links (h : l.next old ≠ old) (hp : new ≠ l.prev old) (hx : new ≠ l.next old) :
    Linked (list_replace old new l) (l.prev old) new ∧
      Linked (list_replace old new l) new (l.next old) := by
  refine ⟨⟨?_,?_⟩,⟨?_,?_⟩⟩
  · rw [replace_next h, if_pos rfl]
  · rw [replace_prev h, if_pos rfl]
  · rw [replace_next h, if_neg hp, if_pos rfl]
  · rw [replace_prev h, if_neg hx.symm, if_pos rfl]

/-- Links of an address that is on no side of the place stay. -/
theorem replace_other (h : l.next old ≠ old) {a : N} (ha : a ≠ new) :
    (a ≠ l.prev old → (list_replace old new l).next a = l.next a) ∧
      (a ≠ l.next old → (list_replace old new l).prev a = l.prev a) := by
  constructor
  · intro hp
    rw [replace_next h, if_neg hp, if_neg ha]
  · intro hx
    rw [replace_prev h, if_neg ha, if_neg hx]

omit [DecidableEq N] in
theorem next_ne {h a : N} {xs : List N} (hr : Ring l h xs) (ha : a ∈ h::xs) (hx : xs ≠ []) :
    l.next a ≠ a := by
  rcases List.mem_cons.mp ha with rfl | hmem
  · rw [ring_next hr hx]
    intro h
    exact (List.nodup_cons.mp hr.nodup).1 (h ▸ List.head_mem hx)
  · obtain ⟨ys,zs,rfl⟩ := List.append_of_mem hmem
    have hn := (ring_neighbours hr).2
    have hnodup := hr.nodup
    intro h
    rw [h] at hn
    grind

theorem map_without {ws : List N} (h : old ∉ ws) :
    ws.map (fun a => if a = old then new else a) = ws := by
  refine (List.map_congr_left fun a ha => ?_).trans (List.map_id ws)
  apply if_neg
  rintro rfl
  exact h ha

/-- The new entry stands where the old one stood. -/
theorem map_replaced {ys zs : List N} (hn : (ys++old::zs).Nodup) :
    (ys++old::zs).map (fun a => if a = old then new else a) = ys++new::zs := by
  have hys : old ∉ ys := fun h => (List.nodup_append.mp hn).2.2 old h old List.mem_cons_self rfl
  have hzs : old ∉ zs := (List.nodup_cons.mp (List.nodup_append.mp hn).2.1).1
  rw [List.map_append, List.map_cons, if_pos rfl, map_without hys, map_without hzs]

/-- Only the list of the old entry has something to replace. -/
theorem replace_put (hr : Represents l m) {h : N} {ys zs : List N}
    (hm : m h = some (ys++old::zs)) (hnew : h ≠ new) :
    replace old new m = put h (ys++new::zs) (forget new m) := by
  have hmem : old ∈ ys++old::zs := List.mem_append_right ys List.mem_cons_self
  have hold := entry_no_head hr hm hmem
  funext k
  rw [replace, hold]
  by_cases hkh : k = h
  · subst hkh
    have hnodup := (List.nodup_cons.mp (hr.ring k _ hm).nodup).2
    rw [put, Function.update_self]
    simp only [change, forget_of_ne hnew, hm, Option.map_some, map_replaced hnodup]
  · rw [put, Function.update_of_ne hkh]
    cases hk : forget new m k with
    | none => simp only [change, hk, Option.map_none]
    | some ws =>
      have hout := entry_apart hr hm hmem (forget_some hk).1 hkh
      have hws : old ∉ ws := fun ha => hout (List.mem_cons_of_mem k ha)
      simp only [change, hk, Option.map_some, map_without hws]

theorem replace_entry (hr : Represents l m) (he : Entry m old) (hf : Free m new) :
    Represents (list_replace old new l) (replace old new m) ∧ Fresh (replace old new m) old := by
  obtain ⟨h,xs,hm,he⟩ := entry_some he
  have hring := hr.ring h xs hm
  have hne := next_ne hring (List.mem_cons_of_mem h he) (List.ne_nil_of_mem he)
  obtain ⟨hx,hp⟩ := ring_mem hring (List.mem_cons_of_mem h he)
  have hhnew : h ≠ new := by
    rintro rfl
    exact List.not_mem_nil (hf.2 ▸ (entries_some hm).symm ▸ he)
  have hnew : new ∉ h::xs := by
    rw [List.mem_cons, not_or]
    exact ⟨hhnew.symm,free_notMem hf hm⟩
  have hnp : new ≠ l.prev old := fun heq => hnew (heq ▸ hp)
  have hnx : new ≠ l.next old := fun heq => hnew (heq ▸ hx)
  have hin := replace_links hne hnp hnx
  obtain ⟨ys,zs,rfl⟩ := List.append_of_mem he
  have hsub (a : N) (ha : a ∈ h::(ys++zs)) : a ≠ new := by
    rintro rfl
    apply hnew
    simp only [List.mem_cons, List.mem_append] at ha ⊢
    tauto
  have hnodup := hring.nodup
  rw [replace_put hr hm hhnew]
  constructor
  · apply put_represents (forget_represents hr new)
    · exact ring_replace hring hnew hin.1 hin.2 (fun a ha => (replace_other hne (hsub a ha)).1)
        (fun b hb => (replace_other hne (hsub b hb)).2)
    · intro k ws hk hkh a ha
      have hah := hr.apart k h ws _ (forget_some hk).1 hm hkh a ha
      have han : a ≠ new := by
        rintro rfl
        exact forget_fresh hf k ws hk ha
      refine ⟨?_,(replace_other hne han).1 (fun h => hah (h ▸ hp)),
        (replace_other hne han).2 (fun h => hah (h ▸ hx))⟩
      simp only [List.mem_cons, List.mem_append] at hah ⊢
      tauto
  · intro k ws hk
    by_cases hkh : k = h
    · subst hkh
      rw [put, Function.update_self] at hk
      obtain rfl := Option.some.inj hk
      have hon : old ≠ new := fun h => hnew (h ▸ List.mem_cons_of_mem k he)
      grind
    · rw [put, Function.update_of_ne hkh] at hk
      exact entry_apart hr hm he (forget_some hk).1 hkh

theorem replace_alone (h : Alone l old) :
    Alone (list_replace old new l) new ∧ ∀ a, a ≠ old → a ≠ new →
      (list_replace old new l).next a = l.next a ∧
        (list_replace old new l).prev a = l.prev a := by
  obtain ⟨hn,hp⟩ := h
  constructor
  · simp [Alone, list_replace, set_next, set_prev, hn]
  · intro a ha han
    simp [list_replace, set_next, set_prev, hn, ha, han]

theorem replace_head (hr : Represents l m) (ho : (m old).isSome) (hf : Free m new)
    (hno : new ≠ old) :
    Represents (list_replace old new l) (replace old new m) ∧ Fresh (replace old new m) old := by
  obtain ⟨xs,hm⟩ := Option.isSome_iff_exists.mp ho
  have hring := hr.ring old xs hm
  have hnew : new ∉ xs := free_notMem hf hm
  have hrep : replace old new m = put new xs (forget old (forget new m)) := by
    rw [replace, hm]
  have hrest := forget_represents (forget_represents hr new) old
  have hout (k : N) (ys : List N) (hk : forget old (forget new m) k = some ys) (a : N)
      (ha : a ∈ k::ys) : a ≠ new ∧ a ∉ old::xs := by
    obtain ⟨hk,hko⟩ := forget_some hk
    constructor
    · rintro rfl
      exact forget_fresh hf k ys hk ha
    · exact hr.apart k old ys xs (forget_some hk).1 hm hko a ha
  rw [hrep]
  constructor
  · apply put_represents hrest
    · by_cases hx : xs = []
      · subst hx
        exact (ring_nil new).mpr (replace_alone ((ring_nil old).mp hring)).1
      · have hne := next_ne hring List.mem_cons_self hx
        have hp : new ≠ l.prev old := by
          rw [ring_prev hring hx]
          exact fun h => hnew (h ▸ List.getLast_mem hx)
        have hn : new ≠ l.next old := by
          rw [ring_next hring hx]
          exact fun h => hnew (h ▸ List.head_mem hx)
        obtain ⟨hin,hout⟩ := replace_links hne hp hn
        have hsub (a : N) (ha : a ∈ xs) : a ≠ new := fun h => hnew (h ▸ ha)
        exact ring_rehead hx hring hnew hin hout (fun a ha => (replace_other hne (hsub a ha)).1)
          (fun b hb => (replace_other hne (hsub b hb)).2)
    · intro k ys hk hkn a ha
      obtain ⟨han,hao⟩ := hout k ys hk a ha
      refine ⟨?_,?_⟩
      · rw [List.mem_cons, not_or] at hao ⊢
        exact ⟨han,hao.2⟩
      by_cases hx : xs = []
      · subst hx
        refine (replace_alone ((ring_nil old).mp hring)).2 a ?_ han
        exact fun h => hao (h ▸ List.mem_cons_self)
      · have hne := next_ne hring List.mem_cons_self hx
        obtain ⟨hxm,hpm⟩ := ring_mem hring (List.mem_cons_self (a := old) (l := xs))
        exact ⟨(replace_other hne han).1 (fun h => hao (h ▸ hpm)),
          (replace_other hne han).2 (fun h => hao (h ▸ hxm))⟩
  · intro k ys hk
    by_cases hkn : k = new
    · subst hkn
      rw [put, Function.update_self] at hk
      obtain rfl := Option.some.inj hk
      rw [List.mem_cons, not_or]
      exact ⟨hno.symm,(List.nodup_cons.mp hring.nodup).1⟩
    · rw [put, Function.update_of_ne hkn] at hk
      exact fun h => (hout k ys hk old h).2 List.mem_cons_self

theorem list_replace_represents (hr : Represents l m) (ho : Entry m old ∨ (m old).isSome)
    (hf : Free m new) (hno : new ≠ old) :
    Represents (list_replace old new l) (replace old new m) ∧ Fresh (replace old new m) old :=
  ho.elim (fun he => replace_entry hr he hf) (fun hh => replace_head hr hh hf hno)

end Replacing

section Splicing
variable {l : Links N} {m : Listing N} {list head : N}

theorem splice_next (b : N) : (__list_splice list head l).next b =
    if b = l.prev list then l.next head else if b = head then l.next list else l.next b := by
  simp [__list_splice, set_next, set_prev, Function.update_apply]

theorem splice_prev (b : N) : (__list_splice list head l).prev b =
    if b = l.next head then l.prev list else if b = l.next list then head else l.prev b := by
  simp [__list_splice, set_next, set_prev, Function.update_apply]

theorem splice_represents (hr : Represents l m) {xs ys : List N} (hx : xs ≠ [])
    (hm : m list = some xs) (hh : m head = some ys) (hne : list ≠ head) :
    Represents (__list_splice list head l) (put head (xs++ys) (forget list m)) := by
  have hxs := hr.ring list xs hm
  have hys := hr.ring head ys hh
  have hd (a : N) (ha : a ∈ list::xs) : a ∉ head::ys := hr.apart list head xs ys hm hh hne a ha
  obtain ⟨hlx,hfx⟩ : l.prev list ∈ xs ∧ l.next list ∈ xs := by
    rw [ring_prev hxs hx, ring_next hxs hx]
    exact ⟨List.getLast_mem hx,List.head_mem hx⟩
  have hat := (ring_mem hys (List.mem_cons_self (a := head) (l := ys))).1
  have hlh : l.prev list ≠ head := fun heq =>
    hd _ (List.mem_cons_of_mem list hlx) (heq ▸ List.mem_cons_self)
  have hfat : l.next list ≠ l.next head := fun heq =>
    hd _ (List.mem_cons_of_mem list hfx) (heq ▸ hat)
  apply put_represents (forget_represents hr list)
  · apply ring_splice hx hxs hys
    · exact fun a ha => hd a (List.mem_cons_of_mem list ha)
    · exact ⟨by rw [splice_next, if_neg hlh.symm, if_pos rfl],
        by rw [splice_prev, if_neg hfat, if_pos rfl]⟩
    · exact ⟨by rw [splice_next, if_pos rfl],by rw [splice_prev, if_pos rfl]⟩
    · intro b hb hbl
      have hbh : b ≠ head := by
        rintro rfl
        rcases List.mem_append.mp hb with hb | hb
        · exact hd b (List.mem_cons_of_mem list hb) List.mem_cons_self
        · exact (List.nodup_cons.mp hys.nodup).1 hb
      rw [splice_next, if_neg hbl, if_neg hbh]
    · intro b _ hbf hbat
      rw [splice_prev, if_neg hbat, if_neg hbf]
  · intro k zs hk hkh a ha
    obtain ⟨hk,hkl⟩ := forget_some hk
    have hah := hr.apart k head zs ys hk hh hkh a ha
    have hal := hr.apart k list zs xs hk hm hkl a ha
    have hax : a ∉ xs := fun hmem => hal (List.mem_cons_of_mem list hmem)
    refine ⟨?_,?_,?_⟩
    · simp only [List.mem_cons, List.mem_append] at hah ⊢
      tauto
    · rw [splice_next, if_neg (ne_of_mem_of_not_mem hlx hax).symm,
        if_neg (ne_of_mem_of_not_mem List.mem_cons_self hah).symm]
    · rw [splice_prev, if_neg (ne_of_mem_of_not_mem hat hah).symm,
        if_neg (ne_of_mem_of_not_mem hfx hax).symm]

/-- The head that was spliced away is in no list any more. -/
theorem splice_fresh (hr : Represents l m) {xs ys : List N} (hm : m list = some xs)
    (hh : m head = some ys) (hne : list ≠ head) :
    Fresh (put head (xs++ys) (forget list m)) list := by
  intro k zs hk
  by_cases hkh : k = head
  · subst hkh
    rw [put, Function.update_self] at hk
    obtain rfl := Option.some.inj hk
    have hnodup := (List.nodup_cons.mp (hr.ring list xs hm).nodup).1
    have hout := hr.apart list k xs ys hm hh hne list List.mem_cons_self
    simp only [List.mem_cons, List.mem_append] at hout ⊢
    tauto
  · rw [put, Function.update_of_ne hkh] at hk
    obtain ⟨hk,hkl⟩ := forget_some hk
    exact hr.apart list k xs zs hm hk hkl.symm list List.mem_cons_self

omit [DecidableEq N] in
theorem ring_empty {h : N} {xs : List N} (hr : Ring l h xs) : l.next h = h ↔ xs = [] := by
  constructor
  · intro hn
    by_contra hx
    exact next_ne hr List.mem_cons_self hx hn
  · rintro rfl
    exact ((ring_nil h).mp hr).1

theorem list_empty_iff {h : N} {xs : List N} (hr : Ring l h xs) :
    list_empty h l = xs.isEmpty := by
  rw [Bool.eq_iff_iff, list_empty, beq_iff_eq, List.isEmpty_iff]
  exact ring_empty hr

end Splicing

section Run
variable {l : Links N} {m : Listing N}

/-- An operation on the links does to the lists what it says. -/
theorem exec_represents (hr : Represents l m) (poison1 poison2 : N) (op : Op N) (hok : Ok m op) :
    Represents (exec poison1 poison2 l op) (meant m op) := by
  cases op with
  | INIT_LIST_HEAD list => exact init_represents hr hok
  | list_add new head =>
    obtain ⟨hf,hh,hne⟩ := hok
    have hforget := forget_of_ne (m := m) hne.symm
    have h := list_add_fresh (forget_represents hr new) (forget_fresh hf) (hforget ▸ hh)
    rwa [entries, hforget] at h
  | list_add_tail new head =>
    obtain ⟨hf,hh,hne⟩ := hok
    have hforget := forget_of_ne (m := m) hne.symm
    have h := list_add_tail_fresh (forget_represents hr new) (forget_fresh hf) (hforget ▸ hh)
    rwa [entries, hforget] at h
  | list_del entry => exact list_del_represents hr hok poison1 poison2
  | list_del_init entry => exact list_del_init_represents hr hok
  | list_replace old new => exact (list_replace_represents hr hok.1 hok.2.1 hok.2.2).1
  | list_replace_init old new =>
    obtain ⟨h,hf⟩ := list_replace_represents hr hok.1 hok.2.1 hok.2.2
    exact init_represents h (fresh_free hf)
  | list_move list head =>
    obtain ⟨h,hf⟩ := del_represents hr hok.1
    exact list_add_fresh h hf (change_isSome hok.2)
  | list_move_tail list head =>
    obtain ⟨h,hf⟩ := del_represents hr hok.1
    exact list_add_tail_fresh h hf (change_isSome hok.2)
  | list_splice list head =>
    obtain ⟨hl,hh,hne⟩ := hok
    obtain ⟨xs,hm⟩ := Option.isSome_iff_exists.mp hl
    obtain ⟨ys,hh⟩ := Option.isSome_iff_exists.mp hh
    have he := list_empty_iff (hr.ring list xs hm)
    rw [exec, list_splice, meant, he, entries_some hm, entries_some hh]
    by_cases hx : xs = []
    · simpa [hx] using hr
    · simpa [hx] using splice_represents hr hx hm hh hne
  | list_splice_init list head =>
    obtain ⟨hl,hh,hne⟩ := hok
    obtain ⟨xs,hm⟩ := Option.isSome_iff_exists.mp hl
    obtain ⟨ys,hh⟩ := Option.isSome_iff_exists.mp hh
    have he := list_empty_iff (hr.ring list xs hm)
    rw [exec, list_splice_init, meant, he, entries_some hm, entries_some hh]
    by_cases hx : xs = []
    · simpa [hx] using hr
    · have h := init_represents (splice_represents hr hx hm hh hne)
        (fresh_free (splice_fresh hr hm hh hne))
      simpa [hx] using h

/-- A loop from a node of a chain sees the rest of the chain. -/
theorem for_each_rest {go : N → N} {h : N} {w : List N} {seen : List N} {a : N}
    (hc : List.IsChain (fun a b => go a = b) (a::w++[h])) (ha : h ∉ a::w) (turns : ℕ)
    (ht : w.length+1 < turns) :
    loop (for_each_turn go h) turns (a,seen) = .inr (seen++a::w) := by
  obtain ⟨turns,rfl⟩ : ∃ k, turns = k+1 := ⟨turns-1,by omega⟩
  rw [List.mem_cons, not_or] at ha
  obtain ⟨hah,hw⟩ := ha
  have hturn : for_each_turn go h (a,seen) = .inl (go a,seen++[a]) := if_neg (Ne.symm hah)
  rw [loop_continue turns hturn]
  induction w generalizing a seen turns with
  | nil =>
    obtain ⟨turns,rfl⟩ : ∃ k, turns = k+1 := ⟨turns-1,by simp at ht; omega⟩
    have hg : go a = h := by simpa using hc
    rw [hg]
    exact loop_leave turns (if_pos rfl)
  | cons b w ih =>
    rw [List.length_cons] at ht
    obtain ⟨turns,rfl⟩ : ∃ k, turns = k+1 := ⟨turns-1,by omega⟩
    obtain ⟨hab,hc⟩ := List.isChain_cons_cons.mp hc
    rw [List.mem_cons, not_or] at hw
    have hturn : for_each_turn go h (b,seen++[a]) = .inl (go b,seen++[a]++[b]) :=
      if_neg (Ne.symm hw.1)
    rw [hab, loop_continue turns hturn, ih hc turns (by omega) hw.1 hw.2 hturn]
    simp

/-- A loop over a list sees its entries, and comes to its end. -/
theorem for_each_sees {go : N → N} {h : N} {xs : List N}
    (hc : List.IsChain (fun a b => go a = b) (h::xs++[h])) (hh : h ∉ xs) (turns : ℕ)
    (ht : xs.length < turns) : for_each go h turns = .inr xs := by
  cases xs with
  | nil =>
    obtain ⟨turns,rfl⟩ : ∃ k, turns = k+1 := ⟨turns-1,by simp at ht; omega⟩
    have hg : go h = h := by simpa using hc
    rw [for_each, hg]
    exact loop_leave turns (if_pos rfl)
  | cons x xs =>
    obtain ⟨hx,hc⟩ := List.isChain_cons_cons.mp hc
    rw [for_each, hx]
    exact for_each_rest hc hh turns (by simpa using ht)

theorem list_empty_careful_iff {h : N} {xs : List N} (hr : Ring l h xs) :
    list_empty_careful h l = xs.isEmpty := by
  rw [Bool.eq_iff_iff, list_empty_careful, Bool.and_eq_true, beq_iff_eq, beq_iff_eq,
    List.isEmpty_iff]
  constructor
  · exact fun h => (ring_empty hr).mp h.1
  · rintro rfl
    obtain ⟨hn,hp⟩ := (ring_nil h).mp hr
    exact ⟨hn,hn.trans hp.symm⟩

theorem list_is_last_iff {h a : N} {xs : List N} (hr : Ring l h xs) (ha : a ∈ xs) :
    list_is_last a h l = decide (xs.getLast? = some a) := by
  have hx : xs ≠ [] := List.ne_nil_of_mem ha
  rw [Bool.eq_iff_iff, list_is_last, beq_iff_eq, decide_eq_true_iff,
    List.getLast?_eq_some_getLast hx, ← ring_prev hr hx, Option.some.injEq]
  constructor
  · intro hn
    rw [← hn]
    exact (ring_inverse hr (List.mem_cons_of_mem h ha)).1
  · rintro rfl
    exact (ring_inverse hr List.mem_cons_self).2

/-- What a caller sees of a list. -/
structure Seen (l : Links N) (h : N) (xs : List N) : Prop where
  forward : ∀ turns > xs.length, list_for_each h turns l = .inr xs
  backward : ∀ turns > xs.length, list_for_each_prev h turns l = .inr xs.reverse
  empty : list_empty h l = xs.isEmpty
  careful : list_empty_careful h l = xs.isEmpty
  last : ∀ a ∈ xs, list_is_last a h l = decide (xs.getLast? = some a)

theorem ring_seen {h : N} {xs : List N} (hr : Ring l h xs) : Seen l h xs := by
  have hh := (List.nodup_cons.mp hr.nodup).1
  refine ⟨?_,?_,list_empty_iff hr,list_empty_careful_iff hr,fun a ha => list_is_last_iff hr ha⟩
  · exact for_each_sees (hr.chain.imp fun _ _ hab => hab.1) hh
  · -- backwards the ring is a chain of the other links
    have hback := List.isChain_reverse.mpr (hr.chain.imp fun _ _ hab => hab.2)
    intro turns ht
    apply for_each_sees
    · simpa [flip] using hback
    · simpa using hh
    · simpa using ht

/-- The links, and what the caller did to its lists. -/
structure Held (N : Type*) where
  links : Links N
  lists : Listing N

/-- Before the first `INIT_LIST_HEAD` the links hold anything. -/
def boot (garbage : Links N) : Held N := ⟨garbage,fun _ => none⟩

def step (poison1 poison2 : N) (s : Held N) (op : Op N) : Held N :=
  ⟨exec poison1 poison2 s.links op,meant s.lists op⟩

/-- Every list is seen with its entries, and an address is in one place. -/
structure Shown (s : Held N) : Prop where
  seen : ∀ h xs, s.lists h = some xs → Seen s.links h xs
  nodup : ∀ h xs, s.lists h = some xs → (h::xs).Nodup
  apart : ∀ h k xs ys, s.lists h = some xs → s.lists k = some ys → h ≠ k →
    List.Disjoint (h::xs) (k::ys)

theorem represents_shown {s : Held N} (hr : Represents s.links s.lists) : Shown s where
  seen h xs hm := ring_seen (hr.ring h xs hm)
  nodup h xs hm := (hr.ring h xs hm).nodup
  apart := hr.apart

omit [DecidableEq N] in
theorem boot_represents (garbage : Links N) :
    Represents (boot garbage).links (boot garbage).lists := by
  constructor
  · intro h xs hm
    cases hm
  · intro h k xs ys hm
    cases hm

theorem run_represents {poison1 poison2 : N} {s : Held N} {ops : List (Op N)}
    (hs : Represents s.links s.lists)
    (hok : Along (step poison1 poison2) (fun s op => Ok s.lists op) s ops) :
    Always (step poison1 poison2) (fun s => Represents s.links s.lists) s ops :=
  always_of_step _ (fun _ op hr hop => exec_represents hr poison1 poison2 op hop) s ops hs hok

/-- Whatever order the operations come in. -/
theorem lists_shown (poison1 poison2 : N) (garbage : Links N) (ops : List (Op N))
    (hok : Along (step poison1 poison2) (fun s op => Ok s.lists op) (boot garbage) ops) :
    Always (step poison1 poison2) Shown (boot garbage) ops :=
  always_mono (fun _ hr => represents_shown hr) (run_represents (boot_represents garbage) hok)

section Check
variable [Fintype N]

instance (m : Listing N) (a : N) : Decidable (Free m a) :=
  inferInstanceAs (Decidable ((∀ h, a ∉ entries m h) ∧ entries m a = []))

instance (m : Listing N) (a : N) : Decidable (Entry m a) :=
  inferInstanceAs (Decidable (∃ h, a ∈ entries m h))

instance (m : Listing N) : (op : Op N) → Decidable (Ok m op)
  | .INIT_LIST_HEAD list => inferInstanceAs (Decidable (Free m list))
  | .list_add new head | .list_add_tail new head =>
    inferInstanceAs (Decidable (Free m new ∧ (m head).isSome ∧ new ≠ head))
  | .list_del entry => inferInstanceAs (Decidable (Entry m entry))
  | .list_del_init entry => inferInstanceAs (Decidable (Entry m entry ∨ m entry = some []))
  | .list_replace old new | .list_replace_init old new =>
    inferInstanceAs (Decidable ((Entry m old ∨ (m old).isSome) ∧ Free m new ∧ new ≠ old))
  | .list_move list head | .list_move_tail list head =>
    inferInstanceAs (Decidable (Entry m list ∧ (m head).isSome))
  | .list_splice list head | .list_splice_init list head =>
    inferInstanceAs (Decidable ((m list).isSome ∧ (m head).isSome ∧ list ≠ head))

end Check

/-- Two lists, the second spliced into the first, an entry moved back, one
replaced and two deleted. -/
theorem lists_shown_splice :
    let ops : List (Op (Fin 8)) :=
      [.INIT_LIST_HEAD 0,.INIT_LIST_HEAD 1,.list_add_tail 2 0,.list_add 3 0,.list_add_tail 4 1,
        .list_splice_init 1 0,.list_move_tail 3 1,.list_replace_init 4 5,.list_del 2,
        .list_del_init 5]
    Always (step 6 7) Shown (boot ⟨id,id⟩) ops :=
  lists_shown 6 7 ⟨id,id⟩ _ (by decide)

end Run

end Lists

end BaseDrivers.ListHeader
