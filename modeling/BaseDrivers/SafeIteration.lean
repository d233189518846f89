import BaseDrivers.ListHeader

/-!
# A list that is changed while it is walked

`list_for_each_entry_safe` knows the entry after the current one before its
body runs. The body may take the current entry out, replace it or move it to
another list: each entry the list had is seen once, in order, and what the
bodies left is the list.
-/

set_option autoImplicit false
set_option linter.style.nameCheck false

namespace BaseDrivers.SafeIteration
open BaseDrivers.Execution BaseDrivers.LinkedRing BaseDrivers.ListHeader

variable {N : Type*} [DecidableEq N]

/-- What a body does to the entry it is at. -/
inductive Body (N : Type*) where
  | keep
  | del
  | del_init
  | replace_init (new : N)
  | move (head : N)
  | move_tail (head : N)
  deriving DecidableEq

/-- `main` of `list_test.c` deletes the entry it has replaced. -/
def ops (pos : N) : Body N → List (Op N)
  | .keep => []
  | .del => [.list_del pos]
  | .del_init => [.list_del_init pos]
  | .replace_init new => [.list_replace_init pos new,.list_del_init pos]
  | .move head => [.list_move pos head]
  | .move_tail head => [.list_move_tail pos head]

/-- What stands in the list where the entry stood. -/
def left (pos : N) : Body N → List N
  | .keep => [pos]
  | .replace_init new => [new]
  | .del | .del_init | .move _ | .move_tail _ => []

/-- The cursor, the entry kept for the next turn, the entries seen and the
links. -/
structure Walk (N : Type*) where
  pos : N
  n : N
  seen : List N
  links : Links N

def list_for_each_safe_turn (poison1 poison2 : N) (body : N → Body N) (head : N) (w : Walk N) :
    Walk N ⊕ List N × Links N :=
  if w.pos = head then .inr (w.seen,w.links)
  else
    let l := run (exec poison1 poison2) w.links (ops w.pos (body w.pos))
    .inl ⟨w.n,l.next w.n,w.seen++[w.pos],l⟩

def list_for_each_safe (poison1 poison2 : N) (body : N → Body N) (head : N) (turns : ℕ)
    (l : Links N) : Walk N ⊕ List N × Links N :=
  loop (list_for_each_safe_turn poison1 poison2 body head) turns
    ⟨l.next head,l.next (l.next head),[],l⟩

/-- No entry is moved back into the list that is walked. -/
def Elsewhere (head : N) : Body N → Prop
  | .move k | .move_tail k => k ≠ head
  | _ => True

instance (head : N) : (b : Body N) → Decidable (Elsewhere head b)
  | .move k | .move_tail k => inferInstanceAs (Decidable (k ≠ head))
  | .keep | .del | .del_init | .replace_init _ => .isTrue trivial

section Body
variable {l : Links N} {m : Listing N} {poison1 poison2 head pos : N}

/-- The operations on the links and on the lists go along. -/
theorem ops_represents (hr : Represents l m) (os : List (Op N)) (hok : Along meant Ok m os) :
    Represents (run (exec poison1 poison2) l os) (run meant m os) := by
  induction os generalizing l m with
  | nil => exact hr
  | cons op os ih => exact ih (exec_represents hr poison1 poison2 op hok.1) hok.2

theorem put_of_ne {h k : N} (hk : k ≠ h) (xs : List N) : put h xs m k = m k :=
  Function.update_of_ne hk _ _

theorem drop_at {h e : N} {xs : List N} (hm : m h = some xs) :
    drop e m h = some (xs.erase e) := by
  rw [drop, change, hm, Option.map_some]

/-- What a body leaves of the list. -/
theorem body_leaves (hr : Represents l m) {ys zs : List N} (hm : m head = some (ys++pos::zs))
    (b : Body N) (hok : Along meant Ok m (ops pos b)) (hb : Elsewhere head b) :
    run meant m (ops pos b) head = some (ys++left pos b++zs) := by
  have hnodup := (hr.ring head _ hm).nodup
  have hhead : head ≠ pos := by grind
  have hdrop : drop pos m head = some (ys++[]++zs) := by
    have hpos : pos ∉ ys := by grind
    rw [drop_at hm, List.erase_append_right _ hpos, List.erase_cons_head, List.append_nil]
  cases b with
  | keep => simpa [left, ops, run] using hm
  | del => exact hdrop
  | del_init => exact (put_of_ne hhead []).trans hdrop
  | move k => exact (put_of_ne (Ne.symm hb) _).trans hdrop
  | move_tail k => exact (put_of_ne (Ne.symm hb) _).trans hdrop
  | replace_init new =>
    obtain ⟨⟨-,hf,hne⟩,-⟩ := hok
    have hnew : head ≠ new := by
      rintro rfl
      have he := entries_some hm ▸ hf.2
      simp at he
    have hrep : meant m (.list_replace_init pos new) head = some (ys++new::zs) := by
      rw [meant, put_of_ne hhead, replace_put hr hm hnew, put, Function.update_self]
    -- the entry is not in the list any more, so there is nothing to delete
    have hgone : pos ∉ ys++new::zs := by grind
    have hdel : drop pos (meant m (.list_replace_init pos new)) head = some (ys++new::zs) := by
      rw [drop_at hrep, List.erase_of_not_mem hgone]
    have hleft : ys++left pos (.replace_init new)++zs = ys++new::zs := by simp [left]
    rw [hleft]
    exact (put_of_ne hhead []).trans hdel

/-- The node after the last of the rest is the head. -/
def cursor (head : N) (zs : List N) : N := (zs++[head]).head (by simp)

omit [DecidableEq N] in
/-- The node after an entry is the next one to be seen. -/
theorem next_entry {ys zs : List N} (hr : Represents l m) (hm : m head = some (ys++pos::zs)) :
    l.next pos = cursor head zs := by
  have hrot := ring_rotate (hr.ring head _ hm)
  rw [ring_next hrot (by simp)]
  cases zs <;> rfl

omit [DecidableEq N] in
theorem first_entry {xs : List N} (hr : Ring l head xs) : l.next head = cursor head xs := by
  cases xs with
  | nil => exact ((ring_nil head).mp hr).1
  | cons x xs => exact ring_next hr (List.cons_ne_nil x xs)

theorem walk_rest {body : N → Body N} (ys zs : List N) (seen : List N) (l : Links N)
    (m : Listing N) (hr : Represents l m) (hm : m head = some (ys++zs))
    (hok : Along meant Ok m (zs.flatMap fun pos => ops pos (body pos)))
    (hb : ∀ pos ∈ zs, Elsewhere head (body pos)) (turns : ℕ) (ht : zs.length < turns) :
    loop (list_for_each_safe_turn poison1 poison2 body head) turns
        ⟨cursor head zs,l.next (cursor head zs),seen,l⟩ =
      .inr (seen++zs,run (exec poison1 poison2) l (zs.flatMap fun pos => ops pos (body pos))) ∧
    run meant m (zs.flatMap fun pos => ops pos (body pos)) head =
      some (ys++zs.flatMap fun pos => left pos (body pos)) := by
  induction zs generalizing ys seen l m turns with
  | nil =>
    obtain ⟨turns,rfl⟩ : ∃ k, turns = k+1 := ⟨turns-1,by omega⟩
    refine ⟨?_,by simpa [run] using hm⟩
    rw [List.append_nil]
    exact loop_leave turns (if_pos rfl)
  | cons pos zs ih =>
    rw [List.length_cons] at ht
    obtain ⟨turns,rfl⟩ : ∃ k, turns = k+1 := ⟨turns-1,by omega⟩
    rw [List.flatMap_cons] at hok ⊢
    obtain ⟨hpos,hok⟩ := (along_append ..).mp hok
    have hhead : pos ≠ head := by
      have hnodup := (hr.ring head _ hm).nodup
      grind
    let l' := run (exec poison1 poison2) l (ops pos (body pos))
    have hr' : Represents l' (run meant m (ops pos (body pos))) := ops_represents hr _ hpos
    have hm' := body_leaves hr hm (body pos) hpos (hb pos List.mem_cons_self)
    have hturn : list_for_each_safe_turn poison1 poison2 body head
        ⟨cursor head (pos::zs),l.next (cursor head (pos::zs)),seen,l⟩ =
        .inl ⟨cursor head zs,l'.next (cursor head zs),seen++[pos],l'⟩ := by
      rw [← next_entry hr hm]
      exact if_neg hhead
    obtain ⟨hloop,hmap⟩ := ih (ys++left pos (body pos)) (seen++[pos]) l' _ hr' hm' hok
      (fun b hbz => hb b (List.mem_cons_of_mem pos hbz)) turns (by omega)
    rw [loop_continue turns hturn, hloop, run_append, run_append, hmap]
    simp [l']

end Body

theorem run_links (poison1 poison2 : N) (s : Held N) (os : List (Op N)) :
    (run (step poison1 poison2) s os).links = run (exec poison1 poison2) s.links os :=
  run_simulates (fun s l => s.links = l) (fun _ _ op h => congrArg (exec poison1 poison2 · op) h)
    s s.links os rfl

theorem run_lists (poison1 poison2 : N) (s : Held N) (os : List (Op N)) :
    (run (step poison1 poison2) s os).lists = run meant s.lists os :=
  run_simulates (fun s m => s.lists = m) (fun _ _ op h => congrArg (meant · op) h) s s.lists os rfl

/-- Whatever was done to the lists before, each entry is seen once, in order,
and what the bodies leave is the list. -/
theorem list_for_each_safe_visits (poison1 poison2 head : N) (body : N → Body N)
    (garbage : Links N) (before : List (Op N)) (xs : List N)
    (hx : (run (step poison1 poison2) (boot garbage) before).lists head = some xs)
    (hb : ∀ pos ∈ xs, Elsewhere head (body pos))
    (hok : Along (step poison1 poison2) (fun s op => Ok s.lists op) (boot garbage)
      (before++xs.flatMap fun pos => ops pos (body pos))) (turns : ℕ) (ht : xs.length < turns) :
    let s := run (step poison1 poison2) (boot garbage) before
    let after := run (step poison1 poison2) s (xs.flatMap fun pos => ops pos (body pos))
    list_for_each_safe poison1 poison2 body head turns s.links = .inr (xs,after.links) ∧
      after.lists head = some (xs.flatMap fun pos => left pos (body pos)) ∧ Shown after := by
  intro s after
  obtain ⟨hbefore,hok⟩ := (along_append ..).mp hok
  have hs : Represents s.links s.lists :=
    always_last (run_represents (boot_represents garbage) hbefore)
  have hafter : Represents after.links after.lists := always_last (run_represents hs hok)
  have hlists (s : Held N) (op : Op N) :
      (step poison1 poison2 s op).lists = meant s.lists op := rfl
  have hmeant := (along_image Held.lists hlists Ok s _).mp hok
  obtain ⟨hloop,hleft⟩ := @walk_rest N _ poison1 poison2 head body [] xs [] s.links s.lists hs hx
    hmeant hb turns ht
  have hfirst := first_entry (hs.ring head xs hx)
  refine ⟨?_,?_,represents_shown hafter⟩
  · rw [list_for_each_safe, hfirst, hloop, ← run_links]
    rfl
  · rw [run_lists, hleft]
    rfl

/-- The third student of five is replaced, the fourth deleted. -/
theorem list_for_each_safe_visits_class :
    let before : List (Op (Fin 9)) := .INIT_LIST_HEAD 0::[1,2,3,4,5].map (.list_add_tail · 0)
    let body : Fin 9 → Body (Fin 9) := fun pos =>
      if pos = 3 then .replace_init 6 else if pos = 4 then .del_init else .keep
    let s := run (step 7 8) (boot ⟨id,id⟩) before
    let after := run (step 7 8) s ([1,2,3,4,5].flatMap fun pos => ops pos (body pos))
    list_for_each_safe 7 8 body 0 6 s.links = .inr ([1,2,3,4,5],after.links) ∧
      after.lists 0 = some [1,2,6,5] ∧ Shown after :=
  list_for_each_safe_visits 7 8 0 _ ⟨id,id⟩ _ [1,2,3,4,5] (by decide) (by decide) (by decide) 6
    (by decide)

end BaseDrivers.SafeIteration
