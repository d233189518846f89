import Mathlib.Data.Int.Init
import Mathlib.Tactic.SplitIfs
import BaseDrivers.SnakeNodes

/-!
# The ticks of the snake

On a tick the snake dies, or it only moves, or it eats, or its meal is the
last of the level. A death and a new level delete the nodes, and do not come to
a new snake: a pointer is read from a node that was given back.
-/

set_option autoImplicit false

namespace BaseDrivers.SnakeTicks
open BaseDrivers.Execution BaseDrivers.DoubleList BaseDrivers.CursesSnake BaseDrivers.SnakeNodes
open BaseDrivers.HeapList (addresses values)

variable {A : Type} {g : Game A}

section Making
variable [DecidableEq A]

/-- The list in the memory, with the trace and the food away from it. -/
structure Placed (g : Game A) (xs : List (A × Pos)) (food : Pos) : Prop where
  list : Seg g.mem none g.pSnakeHead xs g.pSnakeTail none
  given : xs.length < g.given
  trace : ∃ t, g.pSnakeTrace = some t ∧ g.mem t ≠ none ∧ t ∉ addresses xs ∧
    g.pSnakeFood ≠ some t
  node : ∃ f, g.pSnakeFood = some f ∧ g.mem f = some ⟨food,none,none⟩ ∧ f ∉ addresses xs

/-- The variables which the functions for the list leave as they are. -/
structure Alike (g g' : Game A) : Prop where
  score : g'.current_score = g.current_score
  level : g'.level = g.level

theorem put_food_placed {g : Game A} {xs : List (A × Pos)} {t : A}
    (h : Seg g.mem none g.pSnakeHead xs g.pSnakeTail none) (hlen : xs.length ≤ g.given)
    (ht : g.pSnakeTrace = some t) (htrace : g.mem t ≠ none) (hout : t ∉ addresses xs) :
    Stopped (put_food g) ∨
      ∃ g' food, put_food g = .ok g' ∧ Placed g' xs food ∧ food ∉ values xs ∧ Alike g g' := by
  rcases put_food_spec h hlen with hstop | hput
  · exact .inl hstop
  · obtain ⟨f,food,m,rand,supply,hput,hf,hm,hfood⟩ := hput
    have hfout : f ∉ addresses xs := fun hmem => seg_allocated h hmem hf
    have hft : t ≠ f := by
      rintro rfl
      exact htrace hf
    refine .inr ⟨_,food,hput,⟨(hm.seg hfout).mpr h,Nat.lt_succ_of_le hlen,?_,?_⟩,hfood,rfl,rfl⟩
    · exact ⟨t,ht,fun h => htrace ((hm.away t hft).symm.trans h),hout,
        fun h => hft (Option.some.inj h).symm⟩
    · exact ⟨f,rfl,hm.here,hfout⟩

def head_place (g : Game A) : Option Pos := (g.pSnakeHead.bind g.mem).map Cell.value

def food_place (g : Game A) : Option Pos := (g.pSnakeFood.bind g.mem).map Cell.value

/-- The next move brings the head to the food. -/
def Meets (g : Game A) : Prop := (head_place g).map (beside g.move_dir) = food_place g

instance (g : Game A) : Decidable (Meets g) :=
  inferInstanceAs (Decidable (Option.map _ _ = food_place g))

/-- What holds after every tick that comes to its end. -/
structure Sound (g : Game A) (xs : List (A × Pos)) (food : Pos) : Prop
    extends Placed g xs food where
  long : 1 < xs.length
  away : food ∉ values xs
  score : g.current_score < levelup_score g.level
  body : (values xs).dropLast.Nodup

/-- The result of making a new snake and its food. -/
def Fresh (w : Except Halt (Game A)) : Prop :=
  Stopped w ∨ ∃ g xs food, w = .ok g ∧ Sound g xs food

theorem levelup_positive (level : Fin 5) : 0 < levelup_score level := by
  revert level
  decide

theorem made_fresh {g : Game A} (hscore : g.current_score = 0) :
    Fresh ((init_snake g).bind put_food) := by
  rcases init_snake_spec g with hstop | hmade
  · exact .inl (stopped_bind hstop _)
  obtain ⟨m,head,tail,t,supply,xs,hmake,hseg,hvalues,ht,hout⟩ := hmade
  have hlength : xs.length = 5 := by
    have h := congrArg List.length hvalues
    rwa [values, List.length_map] at h
  rw [hmake, Except.bind]
  let g' : Game A :=
    { g with
      mem := m
      pSnakeHead := head
      pSnakeTail := tail
      pSnakeTrace := some t
      move_dir := .right
      supply := supply
      given := g.given+6 }
  have hlen : xs.length ≤ g'.given := by
    rw [hlength]
    exact Nat.le_add_left_of_le (by decide)
  rcases put_food_placed (g := g') hseg hlen rfl ht hout with hstop | hput
  · exact .inl hstop
  · obtain ⟨g'',food,hput,hplaced,haway,halike⟩ := hput
    refine .inr ⟨g'',xs,food,hput,hplaced,?_,haway,?_,?_⟩
    · rw [hlength]
      decide
    · rw [halike.score]
      change g.current_score < _
      rw [hscore]
      exact levelup_positive _
    · rw [hvalues]
      decide

theorem reset_fails {x : A × Pos} {xs : List (A × Pos)} {last : Option A}
    (h : Seg g.mem none g.pSnakeHead (x::xs) last none) : reset_game g = .error .null := by
  have hdelete := delete_snake_fails (g := { g with current_score := 0 }) h
  simp only [reset_game, bind, Except.bind, hdelete]

theorem over_fails {x : A × Pos} {xs : List (A × Pos)} {last : Option A}
    (h : Seg g.mem none g.pSnakeHead (x::xs) last none) : «over» g = .error .null := by
  rw [«over»]
  split_ifs
  · exact reset_fails (g := { g with life := 3, level := ⟨0,by decide⟩ }) h
  · exact reset_fails (g := { g with life := g.life-1 }) h

theorem levelup_fails {x : A × Pos} {xs : List (A × Pos)} {last : Option A}
    (h : Seg g.mem none g.pSnakeHead (x::xs) last none) : levelup g = .error .null := by
  rw [levelup]
  split_ifs
  · exact reset_fails (g := { g with level := ⟨0,by decide⟩, life := 3 }) h
  · exact reset_fails (g := { g with level := ⟨g.level.val+1,by omega⟩ }) h

end Making

section Ticks
variable [DecidableEq A] {food : Pos}

theorem advance_placed {u v : A × Pos} {us : List (A × Pos)} (h : Placed g (u::us++[v]) food) :
    ∃ g', advance g = .ok g' ∧ Placed g' ((v.1,beside g.move_dir u.2)::u::us) food ∧
      Alike g g' ∧ ∀ p, Wall g' p ↔ Wall g p := by
  obtain ⟨t,ht,htm,htout,hft⟩ := h.trace
  obtain ⟨f,hf,hfm,hfout⟩ := h.node
  obtain ⟨m,s,hadvance,hseg,hmt,hother⟩ := advance_spec h.list ht htm htout
  have hmem (a : A) : a ∈ addresses ((v.1,beside g.move_dir u.2)::u::us) ↔
      a ∈ addresses (u::us++[v]) := by
    rw [HeapList.addresses_concat, List.mem_append, List.mem_singleton, or_comm]
    exact List.mem_cons
  refine ⟨_,hadvance,⟨hseg,?_,?_,?_⟩,⟨rfl,rfl⟩,fun _ => Iff.rfl⟩
  · have hgiven := h.given
    rwa [List.length_append] at hgiven
  · exact ⟨t,ht,hmt,fun h => htout ((hmem t).mp h),hft⟩
  · refine ⟨f,hf,?_,fun h => hfout ((hmem f).mp h)⟩
    rw [← hfm]
    exact hother f (fun h => hft (h ▸ hf)) hfout

theorem eat_food_traced {x y : A × Pos} {ys : List (A × Pos)} (h : Placed g (x::y::ys) food) :
    ∃ g' f t, eat_food g = .ok g' ∧
      Seg g'.mem none g'.pSnakeHead ((f,food)::(y::ys++[x])) g'.pSnakeTail none ∧
      Alike g g' ∧ g'.given = g.given ∧ g'.pSnakeTrace = some t ∧ g'.mem t ≠ none ∧
      t ∉ addresses ((f,food)::(y::ys++[x])) := by
  obtain ⟨t,ht,htm,htout,hft⟩ := h.trace
  obtain ⟨f,hf,hfm,hfout⟩ := h.node
  obtain ⟨m,heat,hseg,hother⟩ := eat_food_spec h.list hf hfm hfout
  have htf : t ≠ f := fun h => hft (h ▸ hf)
  refine ⟨_,f,t,heat,hseg,⟨rfl,rfl⟩,rfl,ht,?_,?_⟩
  · exact fun h => htm ((hother t htf htout).symm.trans h)
  · have hmem : t ∈ addresses ((f,food)::(y::ys++[x])) ↔ t = f ∨ t ∈ addresses (x::y::ys) := by
      simp [addresses, or_comm, or_left_comm]
    rw [hmem, not_or]
    exact ⟨htf,htout⟩

theorem feed_idle {x : A × Pos} {xs : List (A × Pos)} (h : Placed g (x::xs) food)
    (haway : x.2 ≠ food) (hscore : g.current_score ≠ levelup_score g.level) :
    feed g = .ok g := by
  obtain ⟨hhead,r,hx,-⟩ := h.list
  obtain ⟨f,hf,hfm,-⟩ := h.node
  have hdh : deref g.pSnakeHead g = .ok (x.1,⟨x.2,r,none⟩) := by simp only [deref, hhead, hx]
  have hdf : deref g.pSnakeFood g = .ok (f,⟨food,none,none⟩) := by simp only [deref, hf, hfm]
  simp only [feed, bind, Except.bind, hdh, hdf, ← pos_eq_iff, if_neg haway, if_neg hscore]

/-- A meal, up to the score. -/
theorem feed_eats {x y : A × Pos} {ys : List (A × Pos)} (h : Placed g (x::y::ys) food)
    (hat : x.2 = food) : Stopped (feed g) ∨
      ∃ g' f food', Placed g' ((f,food)::(y::ys++[x])) food' ∧
        food' ∉ values ((f,food)::(y::ys++[x])) ∧
        g'.current_score = g.current_score+1 ∧ g'.level = g.level ∧
        feed g = if g.current_score+1 = levelup_score g.level then levelup g' else .ok g' := by
  obtain ⟨hhead,r,hx,-⟩ := h.list
  obtain ⟨f,hf,hfm,-⟩ := h.node
  have hdh : deref g.pSnakeHead g = .ok (x.1,⟨x.2,r,none⟩) := by simp only [deref, hhead, hx]
  have hdf : deref g.pSnakeFood g = .ok (f,⟨food,none,none⟩) := by simp only [deref, hf, hfm]
  obtain ⟨g₁,f',t,heat,hseg,halike,hgiven,ht,htm,htout⟩ := eat_food_traced h
  have hlen : ((f',food)::(y::ys++[x])).length ≤ g₁.given := by
    have hlength := h.given
    rw [hgiven, List.length_cons, List.length_append]
    exact Nat.succ_le_of_lt hlength
  have hfeed : feed g = (put_food g₁).bind fun g₂ =>
      if g₂.current_score+1 = levelup_score g₂.level
      then levelup { g₂ with current_score := g₂.current_score+1 }
      else .ok { g₂ with current_score := g₂.current_score+1 } := by
    simp only [feed, bind, Except.bind, hdh, hdf, ← pos_eq_iff, if_pos hat, heat]
  rw [hfeed]
  rcases put_food_placed hseg hlen ht htm htout with hstop | hput
  · exact .inl (stopped_bind hstop _)
  · obtain ⟨g₂,food',hput,hplaced,hfood,halike'⟩ := hput
    have hscore : g₂.current_score = g.current_score := halike'.score.trans halike.score
    have hlevel : g₂.level = g.level := halike'.level.trans halike.level
    refine .inr ⟨{ g₂ with current_score := g₂.current_score+1 },f',food',
      ⟨hplaced.list,hplaced.given,hplaced.trace,hplaced.node⟩,hfood,
      congrArg (·+1) hscore,hlevel,?_⟩
    rw [hput, Except.bind, hscore, hlevel]

omit [DecidableEq A] in
theorem dead_advanced {c : Pos} {u v : A × Pos} {us : List (A × Pos)}
    (h : Placed g ((v.1,c)::u::us) food) : is_snake_dead g =
      .ok (if c ∈ values (u::us) then 2 else if Wall g c then 1 else 0) := by
  apply is_snake_dead_spec h.list
  exact Nat.le_of_lt (Nat.lt_of_succ_lt h.given)

omit [DecidableEq A] in
theorem alive_iff {c : Pos} {u v : A × Pos} {us : List (A × Pos)}
    (h : Placed g ((v.1,c)::u::us) food) :
    is_snake_dead g = .ok 0 ↔ c ∉ values (u::us) ∧ ¬ Wall g c := by
  rw [dead_advanced h]
  split_ifs with hbody hwall
  · simp [hbody]
  · simp [hwall]
  · simp [hbody, hwall]

omit [DecidableEq A] in
theorem placed_food {xs : List (A × Pos)} (h : Placed g xs food) : food_place g = some food := by
  obtain ⟨f,hf,hfm,-⟩ := h.node
  rw [food_place, hf, Option.bind_some, hfm]
  rfl

omit [DecidableEq A] in
theorem meets_iff {x : A × Pos} {xs : List (A × Pos)} (h : Placed g (x::xs) food) :
    Meets g ↔ beside g.move_dir x.2 = food := by
  obtain ⟨hhead,r,hx,-⟩ := h.list
  have hplace : head_place g = some x.2 := by
    rw [head_place, hhead, Option.bind_some, hx]
    rfl
  rw [Meets, hplace, placed_food h, Option.map_some, Option.some.injEq]

omit [DecidableEq A] in
theorem set_over_placed (dead : ℕ) {xs : List (A × Pos)} (h : Placed g xs food) :
    Placed { g with is_game_over := dead } xs food := ⟨h.list,h.given,h.trace,h.node⟩

theorem alive_move {u v : A × Pos} {us : List (A × Pos)} (h : Placed g (u::us++[v]) food)
    (hbody : beside g.move_dir u.2 ∉ values (u::us)) (hwall : ¬ Wall g (beside g.move_dir u.2)) :
    ∃ g', Placed g' ((v.1,beside g.move_dir u.2)::u::us) food ∧
      g'.current_score = g.current_score ∧ g'.level = g.level ∧ snake_move g = feed g' := by
  obtain ⟨g₁,hadvance,hplaced,halike,hwalls⟩ := advance_placed h
  have hdead := dead_advanced hplaced
  rw [if_neg hbody, if_neg (fun hw => hwall ((hwalls _).mp hw))] at hdead
  refine ⟨_,set_over_placed 0 hplaced,halike.score,halike.level,?_⟩
  simp only [snake_move, bind, Except.bind, hadvance, hdead]
  rfl

omit [DecidableEq A] in
/-- With a cell that is on no node but the last, all cells but the last are
distinct after the move as before. -/
theorem body_moved {c : Pos} {u v : A × Pos} {us : List (A × Pos)}
    (h : (values (u::us++[v])).dropLast.Nodup) (hc : c ∉ values (u::us)) :
    (c::values (u::us)).Nodup := by
  rw [HeapList.values_concat, List.dropLast_concat] at h
  exact List.nodup_cons.mpr ⟨hc,h⟩

theorem tick_moves {u v : A × Pos} {us : List (A × Pos)} (h : Sound g (u::us++[v]) food)
    (hbody : beside g.move_dir u.2 ∉ values (u::us)) (hwall : ¬ Wall g (beside g.move_dir u.2))
    (hfood : beside g.move_dir u.2 ≠ food) :
    ∃ g', snake_move g = .ok g' ∧ Sound g' ((v.1,beside g.move_dir u.2)::u::us) food := by
  obtain ⟨g',hplaced,hscore,hlevel,hmove⟩ := alive_move h.toPlaced hbody hwall
  have hgoes : g'.current_score < levelup_score g'.level := by
    rw [hscore, hlevel]
    exact h.score
  have haway := h.away
  rw [HeapList.values_concat, List.mem_append, not_or] at haway
  refine ⟨g',?_,hplaced,?_,?_,hgoes,?_⟩
  · rw [hmove]
    exact feed_idle hplaced hfood (Nat.ne_of_lt hgoes)
  · exact Nat.succ_lt_succ (Nat.succ_pos _)
  · exact fun hmem => (List.mem_cons.mp hmem).elim hfood.symm haway.1
  · exact (body_moved h.body hbody).sublist (List.dropLast_sublist _)

theorem tick_dies {u v : A × Pos} {us : List (A × Pos)} (h : Placed g (u::us++[v]) food)
    (hdead : beside g.move_dir u.2 ∈ values (u::us) ∨ Wall g (beside g.move_dir u.2)) :
    snake_move g = .error .null := by
  obtain ⟨g₁,hadvance,hplaced,halike,hwalls⟩ := advance_placed h
  obtain ⟨dead,hne,his⟩ : ∃ dead, dead ≠ 0 ∧ is_snake_dead g₁ = .ok dead := by
    rw [dead_advanced hplaced]
    by_cases hbody : beside g.move_dir u.2 ∈ values (u::us)
    · exact ⟨2,by decide,by rw [if_pos hbody]⟩
    · have hwall := (hwalls _).mpr (hdead.resolve_left hbody)
      exact ⟨1,by decide,by rw [if_neg hbody, if_pos hwall]⟩
  have hover := over_fails (set_over_placed dead hplaced).list
  simp only [snake_move, bind, Except.bind, hadvance, his, if_pos hne, hover]

theorem tick_eats {u v : A × Pos} {us : List (A × Pos)} (h : Sound g (u::us++[v]) food)
    (hbody : beside g.move_dir u.2 ∉ values (u::us)) (hwall : ¬ Wall g (beside g.move_dir u.2))
    (hfood : beside g.move_dir u.2 = food) (hlevel : g.current_score+1 ≠ levelup_score g.level) :
    Stopped (snake_move g) ∨ ∃ g' f food',
      snake_move g = .ok g' ∧ Sound g' ((f,food)::(u::us++[(v.1,food)])) food' := by
  obtain ⟨g₁,hplaced,hscore,hlevel₁,hmove⟩ := alive_move h.toPlaced hbody hwall
  rcases feed_eats hplaced hfood with hstop | heat
  · exact .inl (hmove ▸ hstop)
  · obtain ⟨g',f,food',hplaced',haway,hscore',hlevel',hfeed⟩ := heat
    rw [hscore, hlevel₁, if_neg hlevel] at hfeed
    rw [hfood] at hplaced' haway hbody
    refine .inr ⟨g',f,food',hmove.trans hfeed,hplaced',?_,haway,?_,?_⟩
    · exact Nat.succ_lt_succ (Nat.succ_pos _)
    · rw [hscore', hscore, hlevel', hlevel₁]
      exact Nat.lt_of_le_of_ne h.score hlevel
    · have hcells : (values ((f,food)::(u::us++[(v.1,food)]))).dropLast =
          food::values (u::us) := by
        rw [← List.cons_append, HeapList.values_concat, List.dropLast_concat]
        rfl
      rw [hcells]
      exact body_moved h.body hbody

theorem tick_levels {u v : A × Pos} {us : List (A × Pos)} (h : Sound g (u::us++[v]) food)
    (hbody : beside g.move_dir u.2 ∉ values (u::us)) (hwall : ¬ Wall g (beside g.move_dir u.2))
    (hfood : beside g.move_dir u.2 = food) (hlevel : g.current_score+1 = levelup_score g.level) :
    Stopped (snake_move g) ∨ snake_move g = .error .null := by
  obtain ⟨g₁,hplaced,hscore,hlevel₁,hmove⟩ := alive_move h.toPlaced hbody hwall
  rw [hmove]
  rcases feed_eats hplaced hfood with hstop | heat
  · exact .inl hstop
  · obtain ⟨g',f,food',hplaced',-,-,-,hfeed⟩ := heat
    rw [hscore, hlevel₁, if_pos hlevel] at hfeed
    exact .inr (hfeed.trans (levelup_fails hplaced'.list))

/-- The ways in which a tick can go, and what each of them leaves. -/
inductive Ticked (g : Game A) (u v : A × Pos) (us : List (A × Pos)) (food : Pos)
    (w : Except Halt (Game A)) : Prop where
  | dies (h : beside g.move_dir u.2 ∈ values (u::us) ∨ Wall g (beside g.move_dir u.2))
      (left : w = .error .null)
  | moves (h : ¬ (beside g.move_dir u.2 ∈ values (u::us) ∨ Wall g (beside g.move_dir u.2)))
      (hfood : beside g.move_dir u.2 ≠ food)
      (left : ∃ g', w = .ok g' ∧ Sound g' ((v.1,beside g.move_dir u.2)::u::us) food)
  | eats (h : ¬ (beside g.move_dir u.2 ∈ values (u::us) ∨ Wall g (beside g.move_dir u.2)))
      (hfood : beside g.move_dir u.2 = food)
      (hlevel : g.current_score+1 ≠ levelup_score g.level)
      (left : Stopped w ∨ ∃ g' f food',
        w = .ok g' ∧ Sound g' ((f,food)::(u::us++[(v.1,food)])) food')
  | levels (h : ¬ (beside g.move_dir u.2 ∈ values (u::us) ∨ Wall g (beside g.move_dir u.2)))
      (hfood : beside g.move_dir u.2 = food)
      (hlevel : g.current_score+1 = levelup_score g.level)
      (left : Stopped w ∨ w = .error .null)

theorem tick_cases {u v : A × Pos} {us : List (A × Pos)} (h : Sound g (u::us++[v]) food) :
    Ticked g u v us food (snake_move g) := by
  by_cases hdead : beside g.move_dir u.2 ∈ values (u::us) ∨ Wall g (beside g.move_dir u.2)
  · exact .dies hdead (tick_dies h.toPlaced hdead)
  obtain ⟨hbody,hwall⟩ := not_or.mp hdead
  by_cases hfood : beside g.move_dir u.2 = food
  · by_cases hlevel : g.current_score+1 = levelup_score g.level
    · exact .levels hdead hfood hlevel (tick_levels h hbody hwall hfood hlevel)
    · exact .eats hdead hfood hlevel (tick_eats h hbody hwall hfood hlevel)
  · exact .moves hdead hfood (tick_moves h hbody hwall hfood)

end Ticks

end BaseDrivers.SnakeTicks
