import Mathlib.Data.Int.Init
import Mathlib.Tactic.SplitIfs
import BaseDrivers.CursesSnake

/-!
# What the functions of the snake do to its nodes

Moves and meals set pointers one after another. After each of them the nodes
between the ones that move are still linked, and the others are followed one
by one. New nodes come from memory that was not in use.
-/

set_option autoImplicit false

namespace BaseDrivers.SnakeNodes
open BaseDrivers.Execution BaseDrivers.DoubleList BaseDrivers.CursesSnake
open BaseDrivers.HeapList (addresses values Path)

variable {A : Type} {g : Game A}

theorem walk_result {σ ρ : Type} {body : σ → σ ⊕ Except Halt ρ} {s : σ} {r : Except Halt ρ}
    (h : loop body (g.given+1) s = .inr r) : walk body g s = r := by
  rw [walk, h]

section Moves
variable [DecidableEq A]

theorem assign_sets {m : Mem A Pos} {a : A} {c : Cell A Pos} (f : Cell A Pos → Cell A Pos)
    (h : m a = some c) :
    ∃ m', assign (some a) f { g with mem := m } = .ok { g with mem := m' } ∧
      Sets m a (f c) m' := by
  refine ⟨_,?_,sets_update m a (f c)⟩
  simp only [assign, deref, h]
  rfl

/-- The last node goes before the first one. -/
theorem recycle_spec {u v : A × Pos} {us : List (A × Pos)} {t : A}
    (h : Seg g.mem none g.pSnakeHead (u::us++[v]) g.pSnakeTail none)
    (ht : g.pSnakeTrace = some t) (htrace : g.mem t ≠ none) (hout : t ∉ addresses (u::us++[v])) :
    ∃ m s, recycle g = .ok { g with mem := m, pSnakeHead := g.pSnakeTail, pSnakeTail := s } ∧
      Seg m none g.pSnakeTail (v::u::us) s none ∧ m t ≠ none ∧
      ∀ a, a ≠ t → a ∉ addresses (u::us++[v]) → m a = g.mem a := by
  obtain ⟨ct,hct⟩ := Option.ne_none_iff_exists'.mp htrace
  have hnodup := seg_nodup h
  obtain ⟨htail,s,hseg,hv⟩ := seg_concat.mp h
  have hvys := HeapList.last_not_before hnodup
  rw [HeapList.addresses_concat] at hnodup hout
  obtain ⟨htys,htv⟩ : t ∉ addresses (u::us) ∧ t ≠ v.1 := by simpa using hout
  have hys := (List.nodup_append.mp hnodup).1
  obtain ⟨ws,w,hw⟩ : ∃ ws w, u::us = ws++[w] :=
    ⟨_,_,(List.dropLast_append_getLast (List.cons_ne_nil u us)).symm⟩
  have hwmem : w.1 ∈ addresses (u::us) := by
    rw [hw, HeapList.addresses_concat]
    exact List.mem_append_right _ List.mem_cons_self
  have hwv : w.1 ≠ v.1 := fun h => hvys (h ▸ hwmem)
  have huv : u.1 ≠ v.1 := fun h => hvys (h ▸ List.mem_cons_self)
  -- the trace gets the place of the last node
  obtain ⟨m1,e1,h1⟩ := assign_sets (g := g) (fun c => { c with value := v.2 }) hct
  have hv1 := h1.apart htv.symm hv
  have hseg1 := (h1.seg htys).mpr hseg
  obtain ⟨hs,_,-,hw1⟩ := seg_concat.mp (hw ▸ hseg1)
  -- the list ends before the last node
  obtain ⟨m2,e2,h2⟩ := assign_sets (g := g) (fun c => { c with next := none }) hw1
  have hv2 := h2.apart hwv.symm hv1
  have hseg2 := seg_set_end h2 hw1 (HeapList.last_not_before (hw ▸ hys)) (hw ▸ hseg1)
  rw [← hw] at hseg2
  -- the node goes before the first one
  obtain ⟨m3,e3,h3⟩ := assign_sets (g := g) (fun c => { c with prev := none }) hv2
  have hseg3 := (h3.seg hvys).mpr hseg2
  obtain ⟨m4,e4,h4⟩ := assign_sets (g := g) (fun c => { c with next := g.pSnakeHead }) h3.here
  have hseg4 := (h4.seg hvys).mpr hseg3
  obtain ⟨hhead,_,hu4,-⟩ := id hseg4
  obtain ⟨m5,e5,h5⟩ := assign_sets (g := g) (fun c => { c with prev := some v.1 }) hu4
  have hseg5 := seg_set_pre h5 hu4 (List.nodup_cons.mp hys).1 hseg4
  have hlate (a : A) (ha : a ∉ addresses (u::us)) (hav : a ≠ v.1) : m5 a = m1 a := by
    have haw : a ≠ w.1 := fun h => ha (h ▸ hwmem)
    have hau : a ≠ u.1 := fun h => ha (h ▸ List.mem_cons_self)
    rw [h5.away a hau, h4.away a hav, h3.away a hav, h2.away a haw]
  refine ⟨m5,s,?_,?_,?_,?_⟩
  · have hd : deref g.pSnakeTail g = .ok (v.1,⟨v.2,none,s⟩) := by simp only [deref, htail, hv]
    have hd1 : deref g.pSnakeTail { g with mem := m1 } = .ok (v.1,⟨v.2,none,s⟩) := by
      simp only [deref, htail, hv1]
    rw [← ht] at e1
    rw [← hs] at e2
    rw [← htail] at e3 e4 e5
    rw [← hhead] at e5
    simp only [recycle, bind, Except.bind, hd, e1, hd1, e2, e3, e4, e5]
  · rw [htail]
    exact ⟨rfl,_,h5.apart huv.symm h4.here,hseg5⟩
  · rw [hlate t htys htv, h1.here]
    exact Option.some_ne_none _
  · intro a hat ha
    obtain ⟨hays,hav⟩ : a ∉ addresses (u::us) ∧ a ≠ v.1 := by
      rw [HeapList.addresses_concat] at ha
      simpa using ha
    rw [hlate a hays hav, h1.away a hat]

theorem advance_spec {u v : A × Pos} {us : List (A × Pos)} {t : A}
    (h : Seg g.mem none g.pSnakeHead (u::us++[v]) g.pSnakeTail none)
    (ht : g.pSnakeTrace = some t) (htrace : g.mem t ≠ none) (hout : t ∉ addresses (u::us++[v])) :
    ∃ m s, advance g = .ok { g with mem := m, pSnakeHead := g.pSnakeTail, pSnakeTail := s } ∧
      Seg m none g.pSnakeTail ((v.1,beside g.move_dir u.2)::u::us) s none ∧ m t ≠ none ∧
      ∀ a, a ≠ t → a ∉ addresses (u::us++[v]) → m a = g.mem a := by
  obtain ⟨m,s,hrecycle,hseg,htm,hother⟩ := recycle_spec h ht htrace hout
  have hvus := (List.nodup_cons.mp (seg_nodup hseg)).1
  obtain ⟨htail,r,hv,hnext,r',hu,-⟩ := id hseg
  obtain ⟨m',e,hm⟩ := assign_sets (g := { g with pSnakeHead := g.pSnakeTail, pSnakeTail := s })
    (fun c => { c with value := beside g.move_dir u.2 }) hv
  have hvmem : v.1 ∈ addresses (u::us++[v]) := by
    rw [HeapList.addresses_concat]
    exact List.mem_append_right _ List.mem_cons_self
  refine ⟨m',s,?_,seg_set_first hm hv hvus hseg,?_,?_⟩
  · have hdv : deref g.pSnakeTail { g with mem := m, pSnakeHead := g.pSnakeTail, pSnakeTail := s } =
        .ok (v.1,⟨v.2,r,none⟩) := by simp only [deref, htail, hv]
    have hdu : deref r { g with mem := m, pSnakeHead := g.pSnakeTail, pSnakeTail := s } =
        .ok (u.1,⟨u.2,r',some v.1⟩) := by simp only [deref, hnext, hu]
    rw [← htail] at e
    simp only [advance, bind, Except.bind, hrecycle, hdv, hdu, e]
  · rw [hm.away t (fun h => hout (h ▸ hvmem))]
    exact htm
  · intro a hat ha
    rw [hm.away a (fun h => ha (h ▸ hvmem)), hother a hat ha]

/-- The node of the food comes before the first one, which goes to the end. -/
theorem eat_food_spec {x y : A × Pos} {ys : List (A × Pos)} {f : A} {food : Pos} {n : Option A}
    (h : Seg g.mem none g.pSnakeHead (x::y::ys) g.pSnakeTail none)
    (hf : g.pSnakeFood = some f) (hfood : g.mem f = some ⟨food,n,none⟩)
    (hout : f ∉ addresses (x::y::ys)) :
    ∃ m, eat_food g = .ok { g with mem := m, pSnakeTail := g.pSnakeHead,
                                   pSnakeHead := g.pSnakeFood } ∧
      Seg m none g.pSnakeFood ((f,food)::(y::ys++[x])) g.pSnakeHead none ∧
      ∀ a, a ≠ f → a ∉ addresses (x::y::ys) → m a = g.mem a := by
  have hnodup := seg_nodup h
  obtain ⟨hxys,hys⟩ := List.nodup_cons.mp hnodup
  obtain ⟨hfx,hfys⟩ : f ≠ x.1 ∧ f ∉ addresses (y::ys) := by simpa [addresses] using hout
  obtain ⟨zs,z,hz⟩ : ∃ zs z, y::ys = zs++[z] :=
    ⟨_,_,(List.dropLast_append_getLast (List.cons_ne_nil y ys)).symm⟩
  have hzmem : z.1 ∈ addresses (y::ys) := by
    rw [hz, HeapList.addresses_concat]
    exact List.mem_append_right _ List.mem_cons_self
  have hxy : x.1 ≠ y.1 := fun h => hxys (h ▸ List.mem_cons_self)
  have hxz : x.1 ≠ z.1 := fun h => hxys (h ▸ hzmem)
  have hfy : f ≠ y.1 := fun h => hfys (h ▸ List.mem_cons_self)
  have hfz : f ≠ z.1 := fun h => hfys (h ▸ hzmem)
  obtain ⟨hhead,r,hx,hseg⟩ := id h
  -- the food is linked with the second node
  obtain ⟨m1,e1,h1⟩ := assign_sets (g := g) (fun c => { c with next := r }) hfood
  have hx1 := h1.apart hfx.symm hx
  have hseg1 := (h1.seg hfys).mpr hseg
  obtain ⟨hr,_,hy1,-⟩ := id hseg1
  obtain ⟨m2,e2,h2⟩ := assign_sets (g := g) (fun c => { c with prev := g.pSnakeFood }) hy1
  have hf2 := h2.apart hfy h1.here
  have hx2 := h2.apart hxy hx1
  have hseg2 := seg_set_pre h2 hy1 (List.nodup_cons.mp hys).1 hseg1
  -- the first node goes to the end
  obtain ⟨m3,e3,h3⟩ := assign_sets (g := g) (fun c => { c with next := none }) hx2
  have hf3 := h3.apart hfx hf2
  have hseg3 := (h3.seg hxys).mpr hseg2
  rw [hz] at hseg3
  obtain ⟨htail,_,-,hz3⟩ := seg_concat.mp hseg3
  obtain ⟨m4,e4,h4⟩ := assign_sets (g := g) (fun c => { c with next := g.pSnakeHead }) hz3
  have hf4 := h4.apart hfz hf3
  have hx4 := h4.apart hxz h3.here
  have hseg4 := seg_set_end h4 hz3 (HeapList.last_not_before (hz ▸ hys)) hseg3
  rw [← hz] at hseg4
  obtain ⟨m5,e5,h5⟩ := assign_sets (g := g) (fun c => { c with prev := g.pSnakeTail }) hx4
  have hf5 := h5.apart hfx hf4
  have hseg5 := (h5.seg hxys).mpr hseg4
  refine ⟨m5,?_,?_,?_⟩
  · have hd : deref g.pSnakeHead g = .ok (x.1,⟨x.2,r,none⟩) := by simp only [deref, hhead, hx]
    have hd1 : deref g.pSnakeHead { g with mem := m1 } = .ok (x.1,⟨x.2,r,none⟩) := by
      simp only [deref, hhead, hx1]
    rw [← hf] at e1
    rw [← hr] at e2
    rw [← hhead] at e3 e5
    rw [← htail] at e4
    simp only [eat_food, bind, Except.bind, hd, e1, hd1, e2, e3, e4, e5]
  · rw [hf, hhead] at hseg5
    rw [hf]
    exact ⟨rfl,r,hf5,seg_concat.mpr ⟨hhead,g.pSnakeTail,hseg5,h5.here⟩⟩
  · intro a haf ha
    obtain ⟨hax,hays⟩ : a ≠ x.1 ∧ a ∉ addresses (y::ys) := by simpa [addresses] using ha
    have hay : a ≠ y.1 := fun h => hays (h ▸ List.mem_cons_self)
    have haz : a ≠ z.1 := fun h => hays (h ▸ hzmem)
    rw [h5.away a hax, h4.away a haz, h3.away a hax, h2.away a hay, h1.away a haf]

end Moves

section Walks
variable {pre p last : Option A} {xs : List (A × Pos)}

theorem forward_some {a : A} {c : HeapList.Cell A Pos} (h : forward g.mem a = some c) :
    ∃ d, g.mem a = some d ∧ d.value = c.value ∧ d.next = c.next := by
  obtain ⟨d,hd,rfl⟩ := Option.map_eq_some_iff.mp h
  exact ⟨d,hd,rfl,rfl⟩

theorem pos_eq_iff {p q : Pos} : p = q ↔ p.pos_x = q.pos_x ∧ p.pos_y = q.pos_y := by
  cases p
  cases q
  exact Iff.of_eq (Pos.mk.injEq ..)

/-- The loop finds out whether a node is where the head is. -/
theorem walk_dead (h : Seg g.mem pre p xs last none) (hlen : xs.length ≤ g.given) (head : Pos) :
    walk (dead_turn g head) g p = .ok (decide (head ∈ values xs)) := by
  apply walk_result
  rw [HeapList.loop_finds (m := forward g.mem)
    (fun v : Pos => head.pos_x = v.pos_x ∧ head.pos_y = v.pos_y) (Except.ok true)
    (Except.ok false) _ rfl (seg_path h) _ (Nat.lt_succ_of_le hlen)]
  · simp only [← pos_eq_iff]
    by_cases hmeet : head ∈ values xs
    · rw [if_pos ⟨head,hmeet,rfl⟩, decide_eq_true hmeet]
    · rw [if_neg (by rwa [exists_eq_right']), decide_eq_false hmeet]
  · intro a c hc
    obtain ⟨d,hd,hvalue,hnext⟩ := forward_some hc
    simp only [dead_turn, hd, hvalue, hnext]

/-- The places where the snake dies of the wall. -/
def Wall (g : Game A) (p : Pos) : Prop :=
  p.pos_x = 3 ∨ p.pos_x = g.LINES ∨ p.pos_y = 0 ∨ p.pos_y = g.COLS

instance (g : Game A) (p : Pos) : Decidable (Wall g p) := inferInstanceAs (Decidable (_ ∨ _))

theorem is_snake_dead_spec {x : A × Pos} (h : Seg g.mem none g.pSnakeHead (x::xs) last none)
    (hlen : xs.length ≤ g.given) : is_snake_dead g =
      .ok (if x.2 ∈ values xs then 2 else if Wall g x.2 then 1 else 0) := by
  obtain ⟨hhead,r,hx,hrest⟩ := h
  have hd : deref g.pSnakeHead g = .ok (x.1,⟨x.2,r,none⟩) := by simp only [deref, hhead, hx]
  simp only [is_snake_dead, bind, Except.bind, hd, walk_dead hrest hlen, decide_eq_true_iff]
  by_cases hmeet : x.2 ∈ values xs
  · rw [if_pos hmeet, if_pos hmeet]
  · rw [if_neg hmeet, if_neg hmeet]
    by_cases hwall : Wall g x.2
    · rw [if_pos hwall]
      exact if_pos hwall
    · rw [if_neg hwall]
      exact if_neg hwall

def count (food : Pos) (flag : ℕ) (p : Pos) : ℕ :=
  if p.pos_x = food.pos_x ∧ p.pos_y = food.pos_y then flag+1 else flag

theorem count_zero_iff (food : Pos) (ps : List Pos) (flag : ℕ) :
    ps.foldl (count food) flag = 0 ↔ flag = 0 ∧ food ∉ ps := by
  induction ps generalizing flag with
  | nil => simp
  | cons p ps ih =>
    rw [List.foldl_cons, ih, count, List.mem_cons]
    by_cases hp : p = food
    · rw [if_pos (pos_eq_iff.mp hp)]
      simp [hp]
    · rw [if_neg (fun h => hp (pos_eq_iff.mpr h))]
      simp [Ne.symm hp]

/-- The loop counts the nodes at a place. -/
theorem walk_place (h : Seg g.mem pre p xs last none) (hlen : xs.length ≤ g.given)
    (food : Pos) :
    walk (place_turn g food) g (p,0) = .ok ((values xs).foldl (count food) 0) := by
  apply walk_result
  apply HeapList.loop_sums (m := forward g.mem) (count food) Except.ok _ (fun _ => rfl)
    (seg_path h) 0 _ (Nat.lt_succ_of_le hlen)
  intro a c flag hc
  obtain ⟨d,hd,hvalue,hnext⟩ := forward_some hc
  simp only [place_turn, hd, hvalue, hnext, count]

theorem find_place_spec (h : Seg g.mem none g.pSnakeHead xs last none)
    (hlen : xs.length ≤ g.given) (rand : List ℕ) : Stopped (find_place g rand) ∨
      ∃ food rest, find_place g rand = .ok (food,rest) ∧ food ∉ values xs := by
  fun_induction find_place g rand with
  | case1 => exact .inl ⟨_,rfl,rfl⟩
  | case2 rx ry rand hroom food ih =>
    simp only [bind, Except.bind, walk_place h hlen food, count_zero_iff, true_and]
    by_cases hfree : food ∉ values xs
    · rw [if_pos hfree]
      exact .inr ⟨_,_,rfl,hfree⟩
    · rw [if_neg hfree]
      exact ih
  | case3 => exact .inl ⟨_,rfl,rfl⟩

end Walks

section Making
variable [DecidableEq A]

theorem malloc_spec (g : Game A) : Stopped (malloc g) ∨ ∃ a c m supply,
    malloc g = .ok (a,{ g with mem := m, supply := supply, given := g.given+1 }) ∧
      g.mem a = none ∧ Sets g.mem a c m := by
  rw [malloc]
  cases g.supply with
  | nil => exact .inl ⟨_,rfl,rfl⟩
  | cons ac supply =>
    obtain ⟨a,c⟩ := ac
    cases ha : g.mem a with
    | some d => exact .inl ⟨.memory,by simp only [ha],rfl⟩
    | none =>
      refine .inr ⟨a,c,_,supply,?_,ha,sets_update g.mem a c⟩
      simp only [ha]

theorem put_food_spec {xs : List (A × Pos)} {last : Option A}
    (h : Seg g.mem none g.pSnakeHead xs last none) (hlen : xs.length ≤ g.given) :
    Stopped (put_food g) ∨ ∃ f food m rand supply,
      put_food g = .ok { g with mem := m, pSnakeFood := some f, rand := rand, supply := supply,
                                given := g.given+1 } ∧
        g.mem f = none ∧ Sets g.mem f ⟨food,none,none⟩ m ∧ food ∉ values xs := by
  rcases find_place_spec h hlen g.rand with hlook | ⟨food,rest,hfind,hfood⟩
  · exact .inl (stopped_bind hlook _)
  · rcases malloc_spec { g with rand := rest } with hnone | ⟨f,c,m,supply,hmalloc,hf,hm⟩
    · left
      rw [put_food, hfind]
      exact stopped_bind hnone _
    · right
      obtain ⟨m',e,hm'⟩ := assign_sets
        (g := { g with rand := rest, pSnakeFood := some f, supply := supply, given := g.given+1 })
        (fun c => { c with value := food, prev := none, next := none }) hm.here
      refine ⟨f,food,m',rest,supply,?_,hf,hm.trans hm',hfood⟩
      simp only [put_food, bind, Except.bind, hfind, hmalloc, e]

/-- The places of the nodes that the turns of the loop make. -/
def init_cells : ℕ → List Pos
  | 0 => []
  | n+1 => ⟨INIT_POS_X,INIT_POS_Y+INIT_SNAKE_LENGTH-(INIT_SNAKE_LENGTH-(n+1) : ℕ)⟩::init_cells n

/-- After its first turn the loop puts a node at the end of the list in every
turn. -/
theorem init_turns_spec (n : ℕ) {last q : Option A} {xs : List (A × Pos)} {x : A × Pos}
    (h : Seg g.mem none g.pSnakeHead (xs++[x]) last q) (hnodup : (addresses (xs++[x])).Nodup) :
    Stopped (init_turns n (1,some x.1) g) ∨ ∃ m supply ys z r,
      init_turns n (1,some x.1) g =
          .ok (some z.1,{ g with mem := m, supply := supply, given := g.given+n }) ∧
        Seg m none g.pSnakeHead (ys++[z]) (some z.1) r ∧ (q = none ∨ 0 < n → r = none) ∧
        values (ys++[z]) = values (xs++[x])++init_cells n ∧
        ∀ a, g.mem a ≠ none → a ∉ addresses (xs++[x]) →
          m a = g.mem a ∧ a ∉ addresses (ys++[z]) := by
  induction n generalizing g xs x last q with
  | zero =>
    obtain ⟨rfl,hrest⟩ := seg_concat.mp h
    refine .inr ⟨g.mem,g.supply,xs,x,q,rfl,h,?_,(List.append_nil _).symm,fun a _ ha => ⟨rfl,ha⟩⟩
    exact fun hq => hq.resolve_right (Nat.lt_irrefl 0)
  | succ n ih =>
    obtain ⟨rfl,s,-,hx⟩ := seg_concat.mp h
    have hxs := HeapList.last_not_before hnodup
    rcases malloc_spec g with hnone | ⟨a,c,m,supply,hmalloc,ha,hm⟩
    · exact .inl (stopped_bind hnone _)
    · have hout : a ∉ addresses (xs++[x]) := fun hmem => seg_allocated h hmem ha
      have hax : x.1 ≠ a := by
        rintro rfl
        rw [HeapList.addresses_concat] at hout
        exact hout (List.mem_append_right _ List.mem_cons_self)
      have hseg := (hm.seg hout).mpr h
      let g' : Game A := { g with supply := supply, given := g.given+1 }
      let p : Pos := ⟨INIT_POS_X,INIT_POS_Y+INIT_SNAKE_LENGTH-(INIT_SNAKE_LENGTH-(n+1) : ℕ)⟩
      obtain ⟨m1,e1,h1⟩ := assign_sets (g := g') (fun c => { c with value := p }) hm.here
      have hseg1 := (h1.seg hout).mpr hseg
      have hx1 := h1.apart hax (hm.apart hax hx)
      obtain ⟨m2,e2,h2⟩ := assign_sets (g := g') (fun c => { c with next := some a }) hx1
      have hseg2 := seg_set_end h2 hx1 hxs hseg1
      have ha2 := h2.apart hax.symm h1.here
      obtain ⟨m3,e3,h3⟩ := assign_sets (g := g') (fun c => { c with prev := some x.1 }) ha2
      obtain ⟨m4,e4,h4⟩ := assign_sets (g := g') (fun c => { c with next := none }) h3.here
      have hseg4 := (h4.seg hout).mpr ((h3.seg hout).mpr hseg2)
      have hall : Seg m4 none g.pSnakeHead (xs++[x]++[(a,p)]) (some a) none :=
        seg_concat.mpr ⟨rfl,some x.1,hseg4,h4.here⟩
      have hturn : init_turns (n+1) (1,some x.1) g =
          init_turns n (1,some a) { g' with mem := m4 } := by
        simp only [init_turns, bind, Except.bind, hmalloc]
        rw [e1]
        simp only [Nat.one_ne_zero, if_false]
        rw [e2]
        simp only
        rw [e3]
        simp only
        rw [e4]
      have hother (b : A) (hb : g.mem b ≠ none) (hbout : b ∉ addresses (xs++[x])) :
          m4 b = g.mem b ∧ b ≠ a := by
        have hba : b ≠ a := by
          rintro rfl
          exact hb ha
        have hbx : b ≠ x.1 := by
          rintro rfl
          rw [HeapList.addresses_concat] at hbout
          exact hbout (List.mem_append_right _ List.mem_cons_self)
        refine ⟨?_,hba⟩
        rw [h4.away b hba, h3.away b hba, h2.away b hbx, h1.away b hba, hm.away b hba]
      rw [hturn]
      rcases ih (g := { g' with mem := m4 }) hall (seg_nodup hall) with hnone | hmade
      · exact .inl hnone
      · obtain ⟨m5,supply',ys,z,r,hmake,hseg5,hr,hvalues,hkept⟩ := hmade
        refine .inr ⟨m5,supply',ys,z,r,?_,hseg5,fun _ => hr (.inl rfl),?_,?_⟩
        · have hgiven : g.given+1+n = g.given+(n+1) := by omega
          rw [hmake, ← hgiven]
        · rw [hvalues, values, List.map_append, List.append_assoc]
          rfl
        · intro b hb hbout
          obtain ⟨hbm,hba⟩ := hother b hb hbout
          have hball : b ∉ addresses (xs++[x]++[(a,p)]) := by
            rw [HeapList.addresses_concat]
            simpa using ⟨hbout,hba⟩
          obtain ⟨hm5,hbys⟩ := hkept b (fun h => hb (hbm ▸ h)) hball
          exact ⟨hm5.trans hbm,hbys⟩

theorem init_all_spec {n : ℕ} (hn : 0 < n) (g : Game A) :
    Stopped (init_turns (n+1) (0,none) g) ∨ ∃ m head supply ys z,
      init_turns (n+1) (0,none) g = .ok (some z.1,
          { g with mem := m, pSnakeHead := head, supply := supply, given := g.given+(n+1) }) ∧
        Seg m none head (ys++[z]) (some z.1) none ∧ values (ys++[z]) = init_cells (n+1) ∧
        ∀ a, g.mem a ≠ none → m a = g.mem a ∧ a ∉ addresses (ys++[z]) := by
  rcases malloc_spec g with hnone | ⟨a,c,m,supply,hmalloc,ha,hm⟩
  · exact .inl (stopped_bind hnone _)
  let g' : Game A := { g with supply := supply, given := g.given+1 }
  let p : Pos := ⟨INIT_POS_X,INIT_POS_Y+INIT_SNAKE_LENGTH-(INIT_SNAKE_LENGTH-(n+1) : ℕ)⟩
  obtain ⟨m1,e1,h1⟩ := assign_sets (g := g') (fun c => { c with value := p }) hm.here
  obtain ⟨m2,e2,h2⟩ := assign_sets (g := { g' with pSnakeHead := some a })
    (fun c => { c with prev := none }) h1.here
  have hturn : init_turns (n+1) (0,none) g =
      init_turns n (1,some a) { g' with mem := m2, pSnakeHead := some a } := by
    simp only [init_turns, bind, Except.bind, hmalloc]
    rw [e1]
    simp only [if_true]
    rw [e2]
  have hfirst : Seg m2 none (some a) ([]++[(a,p)]) (some a) c.next := ⟨rfl,_,h2.here,rfl,rfl⟩
  have hother (b : A) (hb : g.mem b ≠ none) : m2 b = g.mem b ∧ b ≠ a := by
    have hba : b ≠ a := by
      rintro rfl
      exact hb ha
    refine ⟨?_,hba⟩
    rw [h2.away b hba, h1.away b hba, hm.away b hba]
  rw [hturn]
  rcases init_turns_spec n (g := { g' with mem := m2, pSnakeHead := some a }) hfirst
    (List.nodup_singleton a) with hnone | hmade
  · exact .inl hnone
  · obtain ⟨m3,supply',ys,z,r,hmake,hseg,hr,hvalues,hkept⟩ := hmade
    obtain rfl := hr (.inr hn)
    refine .inr ⟨m3,some a,supply',ys,z,?_,hseg,hvalues,?_⟩
    · have hgiven : g.given+1+n = g.given+(n+1) := by omega
      rw [hmake, ← hgiven]
    · intro b hb
      obtain ⟨hbm,hba⟩ := hother b hb
      obtain ⟨hm3,hbys⟩ := hkept b (fun h => hb (hbm ▸ h)) (by simpa [addresses] using hba)
      exact ⟨hm3.trans hbm,hbys⟩

/-- A new snake, in memory that was not in use. -/
theorem init_snake_spec (g : Game A) : Stopped (init_snake g) ∨
    ∃ m head tail t supply xs, init_snake g = .ok { g with
        mem := m
        pSnakeHead := head
        pSnakeTail := tail
        pSnakeTrace := some t
        move_dir := .right
        supply := supply
        given := g.given+6 } ∧
      Seg m none head xs tail none ∧ values xs = init_cells INIT_SNAKE_LENGTH ∧
        m t ≠ none ∧ t ∉ addresses xs := by
  rcases malloc_spec g with hnone | ⟨t,c,m,supply,hmalloc,-,hm⟩
  · exact .inl (stopped_bind hnone _)
  let g' : Game A := { g with pSnakeTrace := some t, supply := supply, given := g.given+1 }
  obtain ⟨m1,e1,h1⟩ := assign_sets (g := g') (fun c => { c with value := ⟨0,0⟩ }) hm.here
  have ht : m1 t ≠ none := by
    rw [h1.here]
    exact Option.some_ne_none _
  rcases init_all_spec (n := 4) (by decide) { g' with mem := m1 } with hnone | hmade
  · left
    simp only [init_snake, bind, Except.bind, hmalloc]
    rw [e1]
    exact stopped_bind hnone _
  · obtain ⟨m2,head,supply',ys,z,hmake,hseg,hvalues,hkept⟩ := hmade
    obtain ⟨hmt,hout⟩ := hkept t ht
    refine .inr ⟨m2,head,some z.1,t,supply',ys++[z],?_,hseg,hvalues,hmt ▸ ht,hout⟩
    simp only [init_snake, bind, Except.bind, hmalloc]
    rw [e1]
    simp only [INIT_SNAKE_LENGTH]
    rw [hmake]

/-- The loop reads the pointer of a node that it has given back. -/
theorem delete_snake_fails {x : A × Pos} {xs : List (A × Pos)} {last : Option A}
    (h : Seg g.mem none g.pSnakeHead (x::xs) last none) : delete_snake g = .error .null := by
  obtain ⟨hhead,r,hx,-⟩ := h
  have hfree : free (some x.1) g = .ok { g with mem := Function.update g.mem x.1 none } := by
    simp only [free, deref, hx]
    rfl
  have hread : deref (some x.1) { g with mem := Function.update g.mem x.1 none } =
      .error .null := by
    simp only [deref, Function.update_self]
  have hturn : delete_turn (g,some x.1) = .inr (.error .null) := by
    simp only [delete_turn, hfree, hread]
  rw [delete_snake, hhead, walk_result (loop_leave g.given hturn)]
  rfl

end Making

end BaseDrivers.SnakeNodes
