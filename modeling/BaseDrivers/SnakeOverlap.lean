import BaseDrivers.SnakeLinks

/-!
# The cells of the snake

After a move without death all nodes are on different cells. After a meal the
node that was the first one is the last one, and still on the cell of the food,
where the first one is now; the next tick takes it away from there. Where the
meal is the last of the level, the snake is deleted, and read after that.
-/

set_option autoImplicit false

namespace BaseDrivers.SnakeOverlap
open BaseDrivers.Execution BaseDrivers.DoubleList BaseDrivers.CursesSnake BaseDrivers.SnakeTicks
open BaseDrivers.SnakeNodes BaseDrivers.SnakeLinks
open BaseDrivers.HeapList (addresses values)

variable {A : Type} {g : Game A}

section Runs
variable [DecidableEq A]

/-- On a tick on which the snake is alive nothing is read from nodes that were
given back, and at its end no two nodes are on a cell. -/
def Apart (w : Except Halt (Game A)) (e : Event A) : Prop :=
  match w, e with
  | .ok g, .alarm t => Alive (.ok g) (.alarm t) → step (.ok g) (.alarm t) ≠ .error .null ∧
      ∀ g', step (.ok g) (.alarm t) = .ok g' → ∃ cs, Body g' cs ∧ cs.Nodup
  | _, _ => True

/-- A tick without death does not bring the head to the food. -/
def Clean (w : Except Halt (Game A)) (e : Event A) : Prop :=
  match w, e with
  | .ok g, .alarm t => Alive (.ok g) (.alarm t) → ¬ Meets g
  | _, _ => True

omit [DecidableEq A] in
theorem cells_unique {cs ds : List Pos} (hcs : Body g cs) (hds : Body g ds) : cs = ds := by
  obtain ⟨xs,hxs,rfl⟩ := hcs
  obtain ⟨ys,hys,rfl⟩ := hds
  rw [seg_unique hxs.linked hys.linked]

theorem step_apart_iff (w : Except Halt (Game A)) (e : Event A) (hw : Safe w)
    (hgoes : ¬ Stopped (step w e)) : Apart w e ↔ Clean w e := by
  cases w with
  | error r => exact Iff.rfl
  | ok g =>
    cases e with
    | order c => exact Iff.rfl
    | alarm t =>
      obtain ⟨xs,food,hsound⟩ := hw
      obtain ⟨u,us,v,rfl⟩ := ends_of_long hsound.long
      have hmeets : Meets g ↔ beside g.move_dir u.2 = food := meets_iff hsound.toPlaced
      have hsound := bring_sound t hsound
      change ¬ Stopped (snake_move (bring t g)) at hgoes
      change (_ → snake_move (bring t g) ≠ _ ∧ ∀ g', snake_move (bring t g) = .ok g' → _) ↔
        (_ → ¬ Meets g)
      rw [alive_tick_iff hsound, hmeets]
      apply imp_congr_right
      intro halive
      cases tick_cases hsound with
      | dies hdead => exact absurd hdead halive
      | moves _ hfood hleft =>
        obtain ⟨g',hmove,hsound'⟩ := hleft
        rw [hmove]
        refine iff_of_true ⟨nofun,fun g₁ hg => ?_⟩ hfood
        obtain rfl := Except.ok.inj hg
        exact ⟨_,body_of_seg hsound'.list,body_moved hsound.body (not_or.mp halive).1⟩
      | eats _ hfood _ hleft =>
        obtain ⟨g',f,food',hmove,hsound'⟩ := hleft.resolve_left hgoes
        refine iff_of_false (fun h => ?_) (not_not_intro hfood)
        obtain ⟨cs,hbody,hcs⟩ := h.2 g' hmove
        rw [cells_unique hbody (body_of_seg hsound'.list)] at hcs
        -- the first and the last node are where the food was
        apply (List.nodup_cons.mp hcs).1
        rw [← HeapList.values, HeapList.values_concat]
        exact List.mem_append_right _ List.mem_cons_self
      | levels _ hfood _ hleft =>
        have hnull := hleft.resolve_left hgoes
        exact iff_of_false (fun h => h.1 hnull) (not_not_intro hfood)

/-- In a run that the world does not stop, the nodes are on different cells
after every tick without death exactly when no such tick has a meal. -/
theorem cells_apart_iff (t : Tick A) (es : List (Event A))
    (h : ¬ Stopped (run step (begin t) es)) :
    Along step Apart (begin t) es ↔ Along step Clean (begin t) es := by
  have hsafe := always_of_step Safe (fun w e h _ => (step_cases w e h).1) (begin t) es
    (begin_safe t).1 (along_true step (begin t) es)
  have hgoes := run_goes h
  constructor
  · intro hapart
    refine along_of_always (fun w e hw hadm => ?_) (begin t) es hsafe
      ((along_and step _ Apart (begin t) es).mpr ⟨hgoes,hapart⟩)
    exact (step_apart_iff w e hw hadm.1).mp hadm.2
  · intro hclean
    refine along_of_always (fun w e hw hadm => ?_) (begin t) es hsafe
      ((along_and step _ Clean (begin t) es).mpr ⟨hgoes,hclean⟩)
    exact (step_apart_iff w e hw hadm.1).mpr hadm.2

end Runs

instance [DecidableEq A] (w : Except Halt (Game A)) (e : Event A) : Decidable (Clean w e) :=
  match w, e with
  | .ok g, .alarm t => inferInstanceAs (Decidable (Alive (.ok g) (.alarm t) → ¬ Meets g))
  | .ok _, .order _ => .isTrue trivial
  | .error _, _ => .isTrue trivial

theorem cells_apart_turn : Along step Apart (begin ⟨24,80,[3,3],block 0 7⟩)
    [.order 'w', .alarm ⟨24,80,[],[]⟩, .order 'd', .alarm ⟨24,80,[],[]⟩] :=
  (cells_apart_iff ⟨24,80,[3,3],block 0 7⟩
    [.order 'w', .alarm ⟨24,80,[],[]⟩, .order 'd', .alarm ⟨24,80,[],[]⟩] (by decide)).mpr
    (by decide)

theorem meal_overlaps : (run step (begin ⟨24,80,[8,45],block 0 7⟩)
      [.alarm ⟨24,80,[3,3],block 7 1⟩]).isOk = true ∧
    ¬ Along step Apart (begin ⟨24,80,[8,45],block 0 7⟩) [.alarm ⟨24,80,[3,3],block 7 1⟩] := by
  refine ⟨by decide,fun h => ?_⟩
  have hclean : ¬ Clean (begin ⟨24,80,[8,45],block 0 7⟩) (.alarm ⟨24,80,[3,3],block 7 1⟩) := by
    decide
  exact hclean ((step_apart_iff _ _ (begin_safe ⟨24,80,[8,45],block 0 7⟩).1 (by decide)).mp h.1)

end BaseDrivers.SnakeOverlap
