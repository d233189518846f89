import BaseDrivers.SnakeTicks

/-!
# The snake as a list

Whatever is ordered and eaten, the snake is a proper doubly linked list and
every tick moves it by one cell, for as long as it does not die and no meal is
the last of its level.
-/

set_option autoImplicit false

namespace BaseDrivers.SnakeLinks
open BaseDrivers.Execution BaseDrivers.DoubleList BaseDrivers.CursesSnake BaseDrivers.SnakeNodes
open BaseDrivers.SnakeTicks
open BaseDrivers.HeapList (addresses values)

variable {A : Type} {g : Game A}

/-- From `pSnakeHead` on, `pNext` comes to every node once and at last to
`pSnakeTail`, and `pPre` goes back. -/
structure Proper (g : Game A) (xs : List (A × Pos)) : Prop where
  linked : Seg g.mem none g.pSnakeHead xs g.pSnakeTail none
  once : (addresses xs).Nodup

/-- A proper snake on these cells. -/
def Body (g : Game A) (cs : List Pos) : Prop := ∃ xs, Proper g xs ∧ values xs = cs

theorem body_of_seg {xs : List (A × Pos)}
    (h : Seg g.mem none g.pSnakeHead xs g.pSnakeTail none) : Body g (values xs) :=
  ⟨xs,⟨h,seg_nodup h⟩,rfl⟩

/-- A state has a proper snake, and no access has gone wrong. -/
def Linked : Except Halt (Game A) → Prop
  | .ok g => ∃ c cs, Body g (c::cs)
  | .error r => r ≠ .null ∧ r ≠ .endless

section Runs
variable [DecidableEq A]

/-- A tick moves the snake by one cell. Where the snake is alive then, it has
eaten and has one node more, or it has not. -/
def Shifts (w : Except Halt (Game A)) (e : Event A) : Prop :=
  match w, e with
  | .ok g, .alarm t => ∀ c cs, Body g (c::cs) →
    ∃ g₁, advance (bring t g) = .ok g₁ ∧
      Body g₁ (beside g.move_dir c::(c::cs).dropLast) ∧
      (is_snake_dead g₁ = .ok 0 →
        (food_place g ≠ some (beside g.move_dir c) → ∃ g', step (.ok g) (.alarm t) = .ok g' ∧
          Body g' (beside g.move_dir c::(c::cs).dropLast)) ∧
        (food_place g = some (beside g.move_dir c) →
          (∃ g₂, eat_food { g₁ with is_game_over := 0 } = .ok g₂ ∧
            Body g₂ (beside g.move_dir c::(c::cs).dropLast++[beside g.move_dir c])) ∧
          (Stopped (step (.ok g) (.alarm t)) ∨ ∃ g', step (.ok g) (.alarm t) = .ok g' ∧
            Body g' (beside g.move_dir c::(c::cs).dropLast++[beside g.move_dir c]))))
  | _, _ => True

/-- The snake does not die on the tick. -/
def Alive (w : Except Halt (Game A)) (e : Event A) : Prop :=
  match w, e with
  | .ok g, .alarm t => (advance (bring t g)).bind is_snake_dead = .ok 0
  | _, _ => True

/-- No meal on the tick is the last one of the level. -/
def Unleveled (w : Except Halt (Game A)) (e : Event A) : Prop :=
  match w, e with
  | .ok g, .alarm _ => Meets g → g.current_score+1 ≠ levelup_score g.level
  | _, _ => True

def Safe : Except Halt (Game A) → Prop
  | .ok g => ∃ xs food, Sound g xs food
  | .error _ => True

omit [DecidableEq A] in
theorem bring_sound {xs : List (A × Pos)} {food : Pos} (t : Tick A) (h : Sound g xs food) :
    Sound (bring t g) xs food :=
  ⟨⟨h.list,h.given,h.trace,h.node⟩,h.long,h.away,h.score,h.body⟩

omit [DecidableEq A] in
theorem order_sound {xs : List (A × Pos)} {food : Pos} (d : Dir) (h : Sound g xs food) :
    Sound { g with move_dir := d } xs food :=
  ⟨⟨h.list,h.given,h.trace,h.node⟩,h.long,h.away,h.score,h.body⟩

omit [DecidableEq A] in
/-- A snake of at least two nodes has a first and a last one. -/
theorem ends_of_long {xs : List (A × Pos)} (h : 1 < xs.length) :
    ∃ u us v, xs = u::us++[v] := by
  cases xs with
  | nil => exact absurd h (Nat.not_lt_zero 1)
  | cons u ys =>
    have hys : ys ≠ [] := by
      rintro rfl
      exact Nat.lt_irrefl 1 h
    exact ⟨u,ys.dropLast,_,congrArg (u::·) (List.dropLast_append_getLast hys).symm⟩

omit [DecidableEq A] in
/-- An order sets the way, or is the end of the program. -/
theorem order_cases (c : Char) (g : Game A) :
    getOrder c g = .error .quit ∨ ∃ d, getOrder c g = .ok { g with move_dir := d } := by
  unfold getOrder
  split
  · exact .inr ⟨.left,rfl⟩
  · exact .inr ⟨.right,rfl⟩
  · exact .inr ⟨.up,rfl⟩
  · exact .inr ⟨.down,rfl⟩
  · exact .inl rfl
  · exact .inr ⟨g.move_dir,rfl⟩

omit [DecidableEq A] in
theorem stopped_safe {w : Except Halt (Game A)} (h : Stopped w) : Safe w ∧ Linked w := by
  obtain ⟨r,rfl,hr⟩ := h
  refine ⟨trivial,?_,?_⟩
  · rintro rfl
    cases hr
  · rintro rfl
    cases hr

omit [DecidableEq A] in
theorem sound_linked {xs : List (A × Pos)} {food : Pos} (h : Sound g xs food) :
    Safe (.ok g) ∧ Linked (.ok g) := by
  refine ⟨⟨xs,food,h⟩,?_⟩
  obtain ⟨u,us,v,rfl⟩ := ends_of_long h.long
  exact ⟨u.2,values (us++[v]),body_of_seg h.list⟩

omit [DecidableEq A] in
theorem fresh_safe {w : Except Halt (Game A)} (h : Fresh w) : Safe w ∧ Linked w := by
  rcases h with hstop | ⟨g,xs,food,rfl,hsound⟩
  · exact stopped_safe hstop
  · exact sound_linked hsound

theorem alive_tick_iff {t : Tick A} {u v : A × Pos} {us : List (A × Pos)} {food : Pos}
    (h : Sound (bring t g) (u::us++[v]) food) : Alive (.ok g) (.alarm t) ↔
      ¬ (beside g.move_dir u.2 ∈ values (u::us) ∨ Wall (bring t g) (beside g.move_dir u.2)) := by
  obtain ⟨g₁,hadvance,hplaced,-,hwalls⟩ := advance_placed h.toPlaced
  rw [Alive, hadvance, not_or, ← hwalls]
  exact alive_iff hplaced

/-- A tick without death comes to its end or was stopped, but for the last meal
of a level. -/
theorem step_cases (w : Except Halt (Game A)) (e : Event A) (h : Safe w) :
    Safe (step w e) ∧ (Alive w e → Linked w →
      (Unleveled w e → Linked (step w e)) ∧
      (Unleveled w e ∨ Stopped (step w e) ∨ step w e = .error .null)) := by
  cases w with
  | error r => exact ⟨trivial,fun _ hlinked => ⟨fun _ => hlinked,.inl trivial⟩⟩
  | ok g =>
    obtain ⟨xs,food,hsound⟩ := h
    cases e with
    | order c =>
      change Safe (getOrder c g) ∧ (_ → _ → (_ → Linked (getOrder c g)) ∧ _)
      rcases order_cases c g with hquit | ⟨d,hd⟩
      · rw [hquit]
        exact ⟨trivial,fun _ _ => ⟨fun _ => ⟨by decide,by decide⟩,.inl trivial⟩⟩
      · rw [hd]
        obtain ⟨hsafe,hlinked⟩ := sound_linked (order_sound d hsound)
        exact ⟨hsafe,fun _ _ => ⟨fun _ => hlinked,.inl trivial⟩⟩
    | alarm t =>
      obtain ⟨u,us,v,rfl⟩ := ends_of_long hsound.long
      have hbrought := bring_sound t hsound
      have hmeets : Meets g ↔ beside g.move_dir u.2 = food := meets_iff hsound.toPlaced
      rw [alive_tick_iff hbrought]
      change Safe (snake_move (bring t g)) ∧ (_ → _ → (_ → Linked (snake_move (bring t g))) ∧
        (_ ∨ Stopped (snake_move (bring t g)) ∨ snake_move (bring t g) = _))
      cases tick_cases hbrought with
      | dies hdead hleft =>
        rw [hleft]
        exact ⟨trivial,fun halive => absurd hdead halive⟩
      | moves _ hfood hleft =>
        obtain ⟨g',hmove,hsound'⟩ := hleft
        obtain ⟨hsafe,hlinked⟩ := sound_linked hsound'
        rw [hmove]
        exact ⟨hsafe,fun _ _ => ⟨fun _ => hlinked,.inl fun h => absurd (hmeets.mp h) hfood⟩⟩
      | eats _ _ hlevel hleft =>
        rcases hleft with hstop | ⟨g',f,food',hmove,hsound'⟩
        · obtain ⟨hsafe,hlinked⟩ := stopped_safe hstop
          exact ⟨hsafe,fun _ _ => ⟨fun _ => hlinked,.inr (.inl hstop)⟩⟩
        · obtain ⟨hsafe,hlinked⟩ := sound_linked hsound'
          rw [hmove]
          exact ⟨hsafe,fun _ _ => ⟨fun _ => hlinked,.inl fun _ => hlevel⟩⟩
      | levels _ hfood hlevel hleft =>
        have hlast (h : Unleveled (.ok g) (.alarm t)) : False := h (hmeets.mpr hfood) hlevel
        rcases hleft with hstop | hnull
        · exact ⟨(stopped_safe hstop).1,
            fun _ _ => ⟨fun h => absurd h hlast,.inr (.inl hstop)⟩⟩
        · rw [hnull]
          exact ⟨trivial,fun _ _ => ⟨fun h => absurd h hlast,.inr (.inr rfl)⟩⟩

theorem step_shifts (w : Except Halt (Game A)) (e : Event A) (h : Safe w)
    (hunleveled : Unleveled w e) : Shifts w e := by
  cases w with
  | error r => trivial
  | ok g =>
    cases e with
    | order c => trivial
    | alarm t =>
      obtain ⟨xs,food,hsound⟩ := h
      rintro c cs ⟨ys,hys,hvalues⟩
      obtain rfl := seg_unique hys.linked hsound.list
      obtain ⟨u,us,v,rfl⟩ := ends_of_long hsound.long
      have hmeets : Meets g ↔ beside g.move_dir u.2 = food := meets_iff hsound.toPlaced
      have hplace : food_place g = some food := placed_food hsound.toPlaced
      have hsound := bring_sound t hsound
      rw [HeapList.values_concat] at hvalues
      obtain ⟨hc,-⟩ := List.cons.inj hvalues
      have hdrop : (c::cs).dropLast = values (u::us) := by rw [← hvalues, List.dropLast_concat]
      change u.2 = c at hc
      rw [hdrop, ← hc]
      obtain ⟨g₁,hadvance,hplaced,-,hwalls⟩ := advance_placed hsound.toPlaced
      refine ⟨g₁,hadvance,body_of_seg hplaced.list,?_⟩
      intro halive
      obtain ⟨hbody,hwall'⟩ := (alive_iff hplaced).mp halive
      have hwall : ¬ Wall (bring t g) (beside g.move_dir u.2) := fun h => hwall' ((hwalls _).mpr h)
      rw [hplace]
      constructor
      · intro hne
        obtain ⟨g',hmove,hsound'⟩ := tick_moves hsound hbody hwall
          (fun h => hne (congrArg some h.symm))
        exact ⟨g',hmove,body_of_seg hsound'.list⟩
      · intro heq
        obtain rfl := Option.some.inj heq
        have hcells (f : A) :
            values ((f,beside g.move_dir u.2)::(u::us++[(v.1,beside g.move_dir u.2)])) =
              beside g.move_dir u.2::values (u::us)++[beside g.move_dir u.2] :=
          congrArg (_::·) (HeapList.values_concat (u::us) (v.1,beside g.move_dir u.2))
        constructor
        · obtain ⟨g₂,f,-,heat,hseg,-⟩ := eat_food_traced (set_over_placed 0 hplaced)
          exact ⟨g₂,heat,hcells f ▸ body_of_seg hseg⟩
        · have hlevel := hunleveled (hmeets.mpr rfl)
          rcases tick_eats hsound hbody hwall rfl hlevel with hstop | heat
          · exact .inl hstop
          · obtain ⟨g',f,food',hmove,hsound'⟩ := heat
            exact .inr ⟨g',hmove,hcells f ▸ body_of_seg hsound'.list⟩

theorem run_error (r : Halt) (es : List (Event A)) : run step (.error r) es = .error r := by
  induction es with
  | nil => rfl
  | cons e es ih => exact ih

theorem run_goes {w : Except Halt (Game A)} {es : List (Event A)}
    (h : ¬ Stopped (run step w es)) : Along step (fun w e => ¬ Stopped (step w e)) w es := by
  induction es generalizing w with
  | nil => trivial
  | cons e es ih =>
    refine ⟨?_,ih h⟩
    rintro ⟨r,hr,hlacks⟩
    apply h
    rw [run, hr, run_error]
    exact ⟨r,rfl,hlacks⟩

theorem begin_safe (t : Tick A) : Safe (begin t) ∧ Linked (begin t) :=
  fresh_safe (made_fresh (g := bring t boot) rfl)

/-- In a run without deaths the snake is a proper doubly linked list which every
tick moves by a cell, as long as no meal is the last of its level. At such a
meal, in a run that the world does not stop, it is not. -/
theorem body_linked_iff (t : Tick A) (es : List (Event A))
    (halive : Along step Alive (begin t) es) :
    (Along step Unleveled (begin t) es →
      Always step Linked (begin t) es ∧ Along step Shifts (begin t) es) ∧
    (¬ Stopped (run step (begin t) es) → Always step Linked (begin t) es →
      Along step Unleveled (begin t) es) := by
  obtain ⟨hsafe,hlinked⟩ := begin_safe t
  constructor
  · intro hunleveled
    have hadm := (along_and step Alive Unleveled (begin t) es).mpr ⟨halive,hunleveled⟩
    have hkept := always_of_step (fun w => Safe w ∧ Linked w) (fun w e h hadm => by
      obtain ⟨hsafe',htick⟩ := step_cases w e h.1
      exact ⟨hsafe',(htick hadm.1 h.2).1 hadm.2⟩) (begin t) es ⟨hsafe,hlinked⟩ hadm
    exact ⟨always_mono (fun w h => h.2) hkept,
      along_of_always (fun w e h => step_shifts w e h.1) (begin t) es hkept hunleveled⟩
  · intro hgoes hall
    have hadm := (along_and step Alive _ (begin t) es).mpr ⟨halive,run_goes hgoes⟩
    refine (always_iff_along_of Safe Linked (fun w e h _ _ _ => (step_cases w e h).1) ?_
      (begin t) es hsafe hlinked hadm).mp hall
    intro w e h hw hadm
    obtain ⟨hkeeps,hends⟩ := (step_cases w e h).2 hadm.1 hw
    refine ⟨fun hnext => ?_,hkeeps⟩
    rcases hends with hunleveled | hstop | hnull
    · exact hunleveled
    · exact absurd hstop hadm.2
    · rw [hnull] at hnext
      exact absurd rfl hnext.1

end Runs

instance [DecidableEq A] (w : Except Halt (Game A)) (e : Event A) : Decidable (Alive w e) :=
  match w, e with
  | .ok g, .alarm t =>
    inferInstanceAs (Decidable ((advance (bring t g)).bind is_snake_dead = .ok 0))
  | .ok _, .order _ => .isTrue trivial
  | .error _, _ => .isTrue trivial

instance [DecidableEq A] (w : Except Halt (Game A)) (e : Event A) : Decidable (Unleveled w e) :=
  match w, e with
  | .ok _, .alarm _ => inferInstanceAs (Decidable (_ → _ ≠ _))
  | .ok _, .order _ => .isTrue trivial
  | .error _, _ => .isTrue trivial

/-- Memory at the numbers from `k` on. -/
def block (k n : ℕ) : List (ℕ × Cell ℕ Pos) :=
  (List.range n).map fun i => (k+i,⟨⟨0,0⟩,none,none⟩)

theorem body_linked_meals :
    (Always step Linked (begin ⟨24,80,[8,45],block 0 7⟩)
        [.alarm ⟨24,80,[3,3],block 7 1⟩, .order 'w', .alarm ⟨24,80,[],[]⟩] ∧
      Along step Shifts (begin ⟨24,80,[8,45],block 0 7⟩)
        [.alarm ⟨24,80,[3,3],block 7 1⟩, .order 'w', .alarm ⟨24,80,[],[]⟩]) :=
  (body_linked_iff ⟨24,80,[8,45],block 0 7⟩
    [.alarm ⟨24,80,[3,3],block 7 1⟩, .order 'w', .alarm ⟨24,80,[],[]⟩] (by decide)).1 (by decide)

/-- Five meals in five ticks, each a cell to the right of the last one. -/
def five_meals : List (Event ℕ) :=
  [46,47,48,49,3].mapIdx fun i y => .alarm ⟨24,80,[8,y],block (7+i) 1⟩

theorem last_meal_unlinks : Along step Alive (begin ⟨24,80,[8,45],block 0 7⟩) five_meals ∧
    run step (begin ⟨24,80,[8,45],block 0 7⟩) five_meals = .error .null ∧
    ¬ Always step Linked (begin ⟨24,80,[8,45],block 0 7⟩) five_meals := by
  have hnull : run step (begin ⟨24,80,[8,45],block 0 7⟩) five_meals = .error .null := by
    decide +kernel
  refine ⟨by decide +kernel,hnull,fun h => ?_⟩
  have hlast := always_last h
  rw [hnull] at hlast
  exact hlast.1 rfl

end BaseDrivers.SnakeLinks
