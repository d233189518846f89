import Mathlib.Data.Finset.Prod
import Mathlib.Logic.Function.Basic
import Mathlib.Tactic.SplitIfs
import BaseDrivers.CellTrail
import BaseDrivers.Execution

/-!
# The snake in an array

One thread reads the keys, another one moves the snake at the sixth frame and
then at every fifth. The segments are shifted in the array, and a meal makes
the snake longer by what the array holds behind the last one. The array is not
cleared between games. A frame runs to its end before the next key is answered.
-/

set_option autoImplicit false

namespace BaseDrivers.ArraySnake
open BaseDrivers.Execution BaseDrivers.CellTrail

/-- `HEAD_LEFT` and the other ways. -/
inductive Head where
  | HEAD_LEFT | HEAD_DOWN | HEAD_UP | HEAD_RIGHT
  deriving DecidableEq, Repr

structure CurPoint where
  x : ℤ
  y : ℤ
  deriving DecidableEq, Repr

/-- The segments stand in `body` from place 1 on. -/
structure MainSnack where
  body : ℕ → CurPoint
  len : ℕ
  arrowHead : Head
  dead : Bool

/-- What `msgDeal` is in: the menu, the window about the program, a game, or
nothing any more. -/
inductive Status where
  | DMENU | about | DGAME | returned
  deriving DecidableEq, Repr

/-- `MENU_START`, `MENU_EXIT` and `MENU_ABOUT`. -/
inductive Menu where
  | START | EXIT | ABOUT
  deriving DecidableEq, Repr

/-- The variables of the two threads. The last field counts the games. -/
structure Game where
  Ms : MainSnack
  cnt : ℕ
  food : CurPoint
  MenuChosed : Menu
  status : Status
  games : ℕ

inductive Key where
  | KEY_UP | KEY_DOWN | KEY_LEFT | KEY_RIGHT | newline | other
  deriving DecidableEq, Repr

variable (COLS LINES : ℕ)

/-- `curPoint body[10000]`; a place outside has no value. -/
def get (body : ℕ → CurPoint) (i : ℕ) : Option CurPoint :=
  if i < 10000 then some (body i) else none

def put (body : ℕ → CurPoint) (i : ℕ) (p : CurPoint) : Option (ℕ → CurPoint) :=
  if i < 10000 then some (Function.update body i p) else none

/-- `for(i=Ms.len-1; i>=1; i--)` -/
def shift : ℕ → (ℕ → CurPoint) → Option (ℕ → CurPoint)
  | 0, body => some body
  | i+1, body => do
    let p ← get body (i+1)
    let body ← put body (i+2) p
    shift i body

def go : Head → CurPoint → CurPoint
  | .HEAD_RIGHT, p => ⟨p.x+1,p.y⟩
  | .HEAD_LEFT, p => ⟨p.x-1,p.y⟩
  | .HEAD_UP, p => ⟨p.x,p.y-1⟩
  | .HEAD_DOWN, p => ⟨p.x,p.y+1⟩

def advance (m : MainSnack) : Option MainSnack := do
  let body ← shift (m.len-1) m.body
  let p ← get body 1
  let body ← put body 1 (go m.arrowHead p)
  some { m with body := body }

def border (p : CurPoint) : Bool :=
  p.x = 0 ∨ p.x = COLS-1 ∨ p.y = 0 ∨ p.y = LINES-1

/-- `for(j=i+1; j<=Ms.len; j++)` -/
def same (body : ℕ → CurPoint) (i : ℕ) : ℕ → ℕ → Option Bool
  | _, 0 => some false
  | j, n+1 => do
    let p ← get body i
    let q ← get body j
    if p = q then some true else same body i (j+1) n

/-- `for(i=1; i<=Ms.len; i++)`; two segments at one place end both loops. -/
def pairs (m : MainSnack) : ℕ → ℕ → Option Bool
  | _, 0 => some false
  | i, n+1 => do
    let found ← same m.body i (i+1) (m.len-i)
    if found then some true else pairs m (i+1) n

/-- The two places that set `Ms.dead`. -/
def crash (m : MainSnack) : Option MainSnack := do
  let p ← get m.body 1
  let twice ← pairs m 1 m.len
  some { m with dead := m.dead || border COLS LINES p || twice }

/-- The snake when it moves, and the food. -/
def move (m : MainSnack) (food : CurPoint) : Option (MainSnack × CurPoint) := do
  let m ← advance m
  let p ← get m.body 1
  if p = food then do
    let m ← crash COLS LINES { m with len := m.len+1 }
    some (m,{ food with y := 0 })
  else do
    let m ← crash COLS LINES m
    some (m,food)

/-- `if(food.y == 0)` -/
def put_food (ry rx : ℕ) (food : CurPoint) : CurPoint :=
  if food.y = 0 then ⟨rx % (COLS-1)+1,ry % (LINES-1)+1⟩ else food

/-- A turn of `GameProcess`; the numbers are what `rand` gives for new food. -/
def frame (ry rx : ℕ) (g : Game) : Option Game :=
  if g.status = .DGAME ∧ g.Ms.dead = false then
    if g.cnt = 5 then do
      let (m,food) ← move COLS LINES g.Ms (put_food COLS LINES ry rx g.food)
      some { g with Ms := m, food := food, cnt := 1 }
    else some { g with food := put_food COLS LINES ry rx g.food, cnt := g.cnt+1 }
  else some g

def initGame (m : MainSnack) : MainSnack where
  body := (List.range 4).foldl
    (fun body i => Function.update body (i+1) ⟨(COLS/2 : ℕ)-i,(LINES/2 : ℕ)⟩) m.body
  len := 4
  arrowHead := .HEAD_RIGHT
  dead := false

/-- A new game has a new thread. -/
def start (g : Game) : Game :=
  { g with
    Ms := initGame COLS LINES g.Ms
    cnt := 0
    food := ⟨0,0⟩
    status := .DGAME
    games := g.games+1 }

def turn (key : Key) (m : MainSnack) : MainSnack :=
  match key with
  | .KEY_UP => if m.arrowHead ≠ .HEAD_DOWN then { m with arrowHead := .HEAD_UP } else m
  | .KEY_DOWN => if m.arrowHead ≠ .HEAD_UP then { m with arrowHead := .HEAD_DOWN } else m
  | .KEY_LEFT => if m.arrowHead ≠ .HEAD_RIGHT then { m with arrowHead := .HEAD_LEFT } else m
  | .KEY_RIGHT => if m.arrowHead ≠ .HEAD_LEFT then { m with arrowHead := .HEAD_RIGHT } else m
  | _ => m

/-- The chosen line of the menu stays between the first and the last one. -/
def choose (key : Key) (g : Game) : Game :=
  match key, g.MenuChosed with
  | .KEY_UP, .EXIT => { g with MenuChosed := .START }
  | .KEY_UP, .ABOUT => { g with MenuChosed := .EXIT }
  | .KEY_DOWN, .START => { g with MenuChosed := .EXIT }
  | .KEY_DOWN, .EXIT => { g with MenuChosed := .ABOUT }
  | .newline, .EXIT => { g with status := .returned }
  | .newline, .ABOUT => { g with status := .about }
  | .newline, .START => start COLS LINES g
  | _, _ => g

/-- `msgDeal`. The death of the snake is noticed with the next key. -/
def msgDeal (key : Key) (g : Game) : Game :=
  match g.status with
  | .DMENU => choose COLS LINES key g
  | .about => { g with status := .DMENU }
  | .DGAME =>
    if g.Ms.dead then { g with status := .DMENU } else { g with Ms := turn key g.Ms }
  | .returned => g

inductive Event where
  | frame (ry rx : ℕ)
  | key (key : Key)

def step (g : Game) : Event → Option Game
  | .frame ry rx => frame COLS LINES ry rx g
  | .key key => some (msgDeal COLS LINES key g)

def boot : Game := ⟨⟨fun _ => ⟨0,0⟩,0,.HEAD_LEFT,false⟩,0,⟨0,0⟩,.START,.DMENU,0⟩

section Segments

/-- The segments from the head on. -/
def segments (m : MainSnack) : List CurPoint := (List.range m.len).map fun i => m.body (i+1)

theorem get_some (body : ℕ → CurPoint) {i : ℕ} (h : i < 10000) : get body i = some (body i) :=
  if_pos h

theorem put_some (body : ℕ → CurPoint) {i : ℕ} (h : i < 10000) (p : CurPoint) :
    put body i p = some (Function.update body i p) := if_pos h

theorem shift_some {n : ℕ} (h : n+1 < 10000) (body : ℕ → CurPoint) :
    ∃ body', shift n body = some body' ∧
      ∀ j, body' j = if 2 ≤ j ∧ j ≤ n+1 then body (j-1) else body j := by
  induction n generalizing body with
  | zero => exact ⟨body,rfl,fun j => (if_neg (by omega)).symm⟩
  | succ n ih =>
    obtain ⟨body',hshift,hbody⟩ := ih (by omega) (Function.update body (n+2) (body (n+1)))
    refine ⟨body',?_,fun j => ?_⟩
    · rw [shift, get_some body (by omega)]
      dsimp only [bind, Option.bind]
      rw [put_some body h]
      exact hshift
    · rw [hbody]
      by_cases hj : j = n+2
      · subst hj
        rw [if_neg (by omega), if_pos (by omega), Function.update_self]
        rfl
      · by_cases hle : 2 ≤ j ∧ j ≤ n+1
        · rw [if_pos hle, if_pos (by omega), Function.update_of_ne (by omega)]
        · rw [if_neg hle, if_neg (by omega), Function.update_of_ne hj]

theorem segments_cons {m : MainSnack} {n : ℕ} (hn : m.len = n+1) :
    segments m = m.body 1::(List.range n).map fun i => m.body (i+2) := by
  rw [segments, hn, List.range_succ_eq_map, List.map_cons, List.map_map]
  rfl

theorem segments_grown (m : MainSnack) :
    segments { m with len := m.len+1 } = segments m++[m.body (m.len+1)] := by
  rw [segments, List.range_succ, List.map_append]
  rfl

/-- What the array is after a move: the segments have moved up behind the new
head, and what stood behind them stands there still. -/
structure Advanced (m : MainSnack) (body : ℕ → CurPoint) : Prop where
  head : body 1 = go m.arrowHead (m.body 1)
  segments : segments { m with body := body } =
    go m.arrowHead (m.body 1)::(segments m).dropLast
  beyond : ∀ i > m.len, body i = m.body i

theorem advance_some {m : MainSnack} (h : 0 < m.len) (hlen : m.len < 10000) :
    ∃ body, advance m = some { m with body := body } ∧ Advanced m body := by
  obtain ⟨n,hn⟩ : ∃ n, m.len = n+1 := ⟨m.len-1,by omega⟩
  obtain ⟨shifted,hshift,hbody⟩ := @shift_some n (by omega) m.body
  have hfirst : shifted 1 = m.body 1 := by
    rw [hbody, if_neg (by omega)]
  let moved := Function.update shifted 1 (go m.arrowHead (shifted 1))
  have hhead : moved 1 = go m.arrowHead (m.body 1) :=
    (Function.update_self 1 _ shifted).trans (congrArg _ hfirst)
  have hother {i : ℕ} (hi : i ≠ 1) : moved i = shifted i := Function.update_of_ne hi _ shifted
  refine ⟨moved,?_,hhead,?_,fun i hi => ?_⟩
  · rw [advance, hn, Nat.add_sub_cancel, hshift]
    dsimp only [bind, Option.bind]
    rw [get_some shifted (by decide)]
    dsimp only
    rw [put_some shifted (by decide)]
  · have hlast : segments m = (List.range n).map (fun i => m.body (i+1))++[m.body (n+1)] := by
      rw [segments, hn, List.range_succ, List.map_append]
      rfl
    rw [segments_cons (m := { m with body := moved }) hn, hlast, List.dropLast_concat]
    refine congrArg₂ List.cons hhead (List.map_congr_left fun i hi => ?_)
    have hi := List.mem_range.mp hi
    dsimp only
    rw [hother (by omega), hbody, if_pos (by omega)]
    rfl
  · rw [hother (by omega), hbody, if_neg (by omega)]

theorem same_some (body : ℕ → CurPoint) {i j n : ℕ} (hi : i < 10000) (hj : j+n ≤ 10000) :
    same body i j n = some ((List.range' j n).any fun k => body i = body k) := by
  induction n generalizing j with
  | zero => rfl
  | succ n ih =>
    rw [same, get_some body hi, get_some body (by omega)]
    dsimp only [bind, Option.bind]
    rw [List.range'_succ, List.any_cons]
    split_ifs with h
    · rw [decide_eq_true h, Bool.true_or]
    · rw [decide_eq_false h, Bool.false_or, ih (by omega)]

theorem pairs_some {m : MainSnack} (hlen : m.len < 10000) {i n : ℕ} (hi : i+n = m.len+1) :
    pairs m i n = some ((List.range' i n).any fun i =>
      (List.range' (i+1) (m.len-i)).any fun j => m.body i = m.body j) := by
  induction n generalizing i with
  | zero => rfl
  | succ n ih =>
    rw [pairs, same_some m.body (by omega) (by omega), List.range'_succ, List.any_cons]
    dsimp only [bind, Option.bind]
    split_ifs with h
    · rw [h, Bool.true_or]
    · rw [Bool.not_eq_true] at h
      rw [h, Bool.false_or, ih (by omega)]

/-- The loops find whether two segments are at one place. -/
theorem pairs_found {m : MainSnack} (hlen : m.len < 10000) :
    ∃ twice, pairs m 1 m.len = some twice ∧ (twice = true ↔ ¬ (segments m).Nodup) := by
  refine ⟨_,pairs_some hlen (Nat.add_comm 1 m.len),?_⟩
  rw [segments, List.nodup_map_iff_inj_on List.nodup_range]
  simp only [List.any_eq_true, List.mem_range'_1, decide_eq_true_eq, List.mem_range]
  constructor
  · rintro ⟨i,⟨hi,hlen⟩,j,⟨hij,hj⟩,heq⟩ h
    have hsame := h (i-1) (by omega) (j-1) (by omega)
    rw [Nat.sub_add_cancel hi, Nat.sub_add_cancel (by omega)] at hsame
    exact absurd (hsame heq) (by omega)
  · intro h
    push Not at h
    obtain ⟨i,hi,j,hj,heq,hne⟩ := h
    rcases Nat.lt_or_gt_of_ne hne with hlt | hlt
    · exact ⟨i+1,by omega,j+1,by omega,heq⟩
    · exact ⟨j+1,by omega,i+1,by omega,heq.symm⟩

end Segments

section Snake

/-- Away from the border. -/
def Inside (p : CurPoint) : Prop := (0 < p.x ∧ p.x < COLS-1) ∧ 0 < p.y ∧ p.y < LINES-1

def near (p q : CurPoint) : Prop := ∃ a, p = go a q

structure Snake (ps : List CurPoint) : Prop where
  trail : Trail near ps
  inside : ∀ p ∈ ps, Inside COLS LINES p
  length : 4 ≤ ps.length

/-- How it stands with the snake: it has all its segments, or the last one is
what the array held there; it is dead with its head on the border or on
another segment, or because the last segment is not where it should be. In the
first game a last segment that is not shifted yet is in the corner. -/
inductive Told (first : Prop) : List CurPoint → Bool → Prop
  | whole {ps : List CurPoint} (h : Snake COLS LINES ps) : Told first ps false
  | fed {ps : List CurPoint} {last : CurPoint} (h : Snake COLS LINES ps) (hlast : last ∉ ps)
      (hfirst : first → last = ⟨0,0⟩) : Told first (ps++[last]) false
  | hit {p : CurPoint} {ps held : List CurPoint} (h : Snake COLS LINES ps)
      (hheld : held <+: ps) (hp : border COLS LINES p = true ∨ p ∈ held) (last : List CurPoint)
      (hlast : last.length ≤ 1) : Told first (p::held++last) true
  | stale {ps : List CurPoint} {last : CurPoint} (h : Snake COLS LINES ps) (hlast : last ∈ ps)
      (hfirst : ¬ first) : Told first (ps++[last]) true

variable {COLS LINES}

theorem go_inside {a : Head} {p : CurPoint} (h : Inside COLS LINES p)
    (hb : border COLS LINES (go a p) = false) : Inside COLS LINES (go a p) := by
  obtain ⟨hx,hy⟩ := h
  simp only [border, decide_eq_false_iff_not, not_or] at hb
  cases a <;> dsimp only [go, Inside] at hb ⊢ <;> omega

theorem snake_goes {a : Head} {p : CurPoint} {ps ds : List CurPoint}
    (h : Snake COLS LINES (p::ps)) (hpart : ds <+: p::ps) (hlong : 3 ≤ ds.length)
    (hb : border COLS LINES (go a p) = false) (hnew : go a p ∉ ds) :
    Snake COLS LINES (go a p::ds) := by
  cases ds with
  | nil => exact absurd hlong (by decide)
  | cons d ds =>
    obtain ⟨rfl,-⟩ := List.cons_prefix_cons.mp hpart
    refine ⟨trail_cons (trail_part h.trail hpart) ⟨a,rfl⟩ hnew,?_,Nat.succ_le_succ hlong⟩
    exact List.forall_mem_cons.mpr ⟨go_inside (h.inside d List.mem_cons_self) hb,
      fun q hq => h.inside q (hpart.subset hq)⟩

theorem told_head {first : Prop} {m : MainSnack} (h : Told COLS LINES first (segments m) false) :
    ∃ p ps ds, Snake COLS LINES (p::ps) ∧ ds <+: p::ps ∧ 3 ≤ ds.length ∧ m.body 1 = p ∧
      0 < m.len ∧ (segments m).dropLast = ds := by
  have hhead {p : CurPoint} {ps : List CurPoint} (hs : segments m = p::ps) :
      m.body 1 = p ∧ 0 < m.len := by
    have hlen : m.len = ps.length+1 := by simpa [segments] using congrArg List.length hs
    rw [segments_cons hlen] at hs
    exact ⟨(List.cons.inj hs).1,by omega⟩
  generalize hs : segments m = xs at h
  cases h with
  | @whole ps h =>
    obtain ⟨p,qs,rfl⟩ := List.exists_cons_of_length_pos (Nat.lt_of_lt_of_le (by decide) h.length)
    obtain ⟨hp,hlen⟩ := hhead hs
    have hlong := h.length
    refine ⟨p,qs,_,h,List.dropLast_prefix _,?_,hp,hlen,rfl⟩
    rw [List.length_dropLast]
    omega
  | @fed ps last h hlast hfirst =>
    obtain ⟨p,qs,rfl⟩ := List.exists_cons_of_length_pos (Nat.lt_of_lt_of_le (by decide) h.length)
    obtain ⟨hp,hlen⟩ := hhead hs
    have hlong := h.length
    refine ⟨p,qs,_,h,List.prefix_refl _,?_,hp,hlen,List.dropLast_concat⟩
    omega

theorem corner_outside : ¬ Inside COLS LINES ⟨0,0⟩ := fun h => absurd h.1.1 (lt_irrefl _)

/-- What a move makes of the snake. Only a meal makes it longer, by what the
array holds behind it. -/
structure Moved (COLS LINES : ℕ) (m : MainSnack) (food : CurPoint) (m' : MainSnack) : Prop where
  segments : segments m' = go m.arrowHead (m.body 1)::(segments m).dropLast++
    if go m.arrowHead (m.body 1) = food then [m.body (m.len+1)] else []
  dead : m'.dead = true ↔
    border COLS LINES (go m.arrowHead (m.body 1)) = true ∨ ¬ (ArraySnake.segments m').Nodup
  beyond : ∀ i > m'.len, m'.body i = m.body i

theorem crash_some {m : MainSnack} {p : CurPoint} (hp : m.body 1 = p) (hlen : m.len < 10000)
    (hdead : m.dead = false) : ∃ dead, crash COLS LINES m = some { m with dead := dead } ∧
      (dead = true ↔ border COLS LINES p = true ∨ ¬ (segments m).Nodup) := by
  obtain ⟨twice,hpairs,htwice⟩ := pairs_found hlen
  refine ⟨border COLS LINES p || twice,?_,?_⟩
  · rw [crash, hpairs, get_some m.body (by decide), hp, hdead]
    rfl
  · rw [Bool.or_eq_true, htwice]

theorem move_some {m : MainSnack} (food : CurPoint) (h : 0 < m.len) (hlen : m.len+1 < 10000)
    (hdead : m.dead = false) :
    ∃ m' food', move COLS LINES m food = some (m',food') ∧ Moved COLS LINES m food m' := by
  obtain ⟨body,hadvance,hhead,hsegments,hbeyond⟩ := advance_some h (Nat.lt_of_succ_lt hlen)
  rw [move, hadvance]
  dsimp only [bind, Option.bind]
  rw [get_some body (by decide)]
  dsimp only
  split_ifs with hate
  · obtain ⟨dead,hcrash,hiff⟩ := @crash_some COLS LINES { m with body := body, len := m.len+1 }
      _ hhead hlen hdead
    rw [hcrash]
    rw [hhead] at hate
    refine ⟨_,_,rfl,?_,hiff,fun i hi => hbeyond i (Nat.lt_of_succ_lt hi)⟩
    rw [if_pos hate, ← hsegments, ← hbeyond (m.len+1) (Nat.lt_succ_self _)]
    exact segments_grown { m with body := body }
  · obtain ⟨dead,hcrash,hiff⟩ := @crash_some COLS LINES { m with body := body } _ hhead
      (Nat.lt_of_succ_lt hlen) hdead
    rw [hcrash]
    rw [hhead] at hate
    refine ⟨_,_,rfl,?_,hiff,hbeyond⟩
    rw [if_neg hate, List.append_nil]
    exact hsegments

/-- Two segments are at one place with the new head on another one, or with the
last one where the snake is. -/
theorem moved_told {first : Prop} {dead : Bool} {a : Head} {p : CurPoint}
    {ps ds last : List CurPoint} (hsnake : Snake COLS LINES (p::ps)) (hpart : ds <+: p::ps)
    (hlong : 3 ≤ ds.length) (hlen : last.length ≤ 1) (hfirst : first → ∀ q ∈ last, q = ⟨0,0⟩)
    (hdead : dead = true ↔ border COLS LINES (go a p) = true ∨ ¬ (go a p::ds++last).Nodup) :
    Told COLS LINES first (go a p::ds++last) dead := by
  by_cases hhit : border COLS LINES (go a p) = true ∨ go a p ∈ ds
  · have htrue : dead = true := hdead.mpr (hhit.imp_right fun hmem hn =>
      (List.nodup_cons.mp hn).1 (List.mem_append_left last hmem))
    rw [htrue]
    exact .hit hsnake hpart hhit last hlen
  · obtain ⟨hb,hnew⟩ := not_or.mp hhit
    have hgoes := snake_goes hsnake hpart hlong (Bool.eq_false_iff.mpr hb) hnew
    have hfalse (hn : (go a p::ds++last).Nodup) : dead = false :=
      Bool.eq_false_iff.mpr fun h => (hdead.mp h).elim hb fun hnot => hnot hn
    match last, hlen with
    | [], _ =>
      rw [List.append_nil] at hfalse ⊢
      rw [hfalse hgoes.trail.distinct]
      exact .whole hgoes
    | [q], _ =>
      have hperm : (go a p::ds++[q]).Nodup ↔ (q::go a p::ds).Nodup :=
        (List.perm_append_singleton q (go a p::ds)).nodup_iff
      by_cases hq : q ∈ go a p::ds
      · have htrue : dead = true :=
          hdead.mpr (.inr fun hn => (List.nodup_cons.mp (hperm.mp hn)).1 hq)
        rw [htrue]
        refine .stale hgoes hq fun hf => ?_
        rw [hfirst hf q List.mem_cons_self] at hq
        exact corner_outside (hgoes.inside _ hq)
      · rw [hfalse (hperm.mpr (List.nodup_cons.mpr ⟨hq,hgoes.trail.distinct⟩))]
        exact .fed hgoes hq fun hf => hfirst hf q List.mem_cons_self

/-- After a move without a meal the snake is whole or dead. -/
theorem move_told {first : Prop} {m m' : MainSnack} {food : CurPoint}
    (h : Told COLS LINES first (segments m) false) (hbeyond : first → m.body (m.len+1) = ⟨0,0⟩)
    (hm : Moved COLS LINES m food m') : Told COLS LINES first (segments m') m'.dead ∧
      (m'.dead = false → go m.arrowHead (m.body 1) ≠ food → Snake COLS LINES (segments m')) := by
  obtain ⟨p,ps,ds,hsnake,hpart,hlong,hp,-,hds⟩ := told_head h
  obtain ⟨hsegments,hdead,-⟩ := hm
  rw [hds, hp] at hsegments
  rw [hp, hsegments] at hdead
  rw [hp, hsegments]
  split_ifs at hdead ⊢ with hate
  · exact ⟨moved_told hsnake hpart hlong (le_refl 1)
      (fun hf q hq => List.mem_singleton.mp hq ▸ hbeyond hf) hdead,fun _ hne => absurd hate hne⟩
  · refine ⟨moved_told hsnake hpart hlong (Nat.zero_le 1)
      (fun _ q hq => absurd hq List.not_mem_nil) hdead,fun hlive _ => ?_⟩
    rw [hlive] at hdead
    obtain ⟨hb,hn⟩ := not_or.mp fun h => Bool.false_ne_true (hdead.mpr h)
    rw [List.append_nil, not_not] at hn
    rw [List.append_nil]
    exact snake_goes hsnake hpart hlong (Bool.eq_false_iff.mpr hb) (List.nodup_cons.mp hn).1

/-- The cells away from the border. -/
def inner (COLS LINES : ℕ) : Finset CurPoint :=
  (Finset.range (COLS-2) ×ˢ Finset.range (LINES-2)).image fun c => ⟨c.1+1,c.2+1⟩

theorem inside_mem {p : CurPoint} (h : Inside COLS LINES p) : p ∈ inner COLS LINES := by
  obtain ⟨hx,hy⟩ := h
  obtain ⟨i,hi⟩ := Int.eq_ofNat_of_zero_le (Int.sub_nonneg_of_le hx.1)
  obtain ⟨j,hj⟩ := Int.eq_ofNat_of_zero_le (Int.sub_nonneg_of_le hy.1)
  refine Finset.mem_image.mpr ⟨(i,j),Finset.mem_product.mpr ⟨?_,?_⟩,?_⟩
  · exact Finset.mem_range.mpr (by dsimp only; omega)
  · exact Finset.mem_range.mpr (by dsimp only; omega)
  · exact congrArg₂ CurPoint.mk (by dsimp only; omega) (by dsimp only; omega)

theorem inner_card : (inner COLS LINES).card ≤ (COLS-2)*(LINES-2) := by
  refine Finset.card_image_le.trans (le_of_eq ?_)
  rw [Finset.card_product, Finset.card_range, Finset.card_range]

theorem snake_length {ps : List CurPoint} (h : Snake COLS LINES ps) :
    ps.length ≤ (COLS-2)*(LINES-2) :=
  (trail_length h.trail fun p hp => inside_mem (h.inside p hp)).trans inner_card

theorem told_length {first : Prop} {ps : List CurPoint} {b : Bool}
    (h : Told COLS LINES first ps b) : ps.length ≤ (COLS-2)*(LINES-2)+2 := by
  cases h with
  | whole h => exact (snake_length h).trans (Nat.le_add_right _ 2)
  | fed h _ _ | stale h _ _ =>
    rw [List.length_append, List.length_singleton]
    exact Nat.add_le_add (snake_length h) (Nat.le_succ 1)
  | hit h hheld _ last hlast =>
    have hle := hheld.length_le.trans (snake_length h)
    rw [List.length_append, List.length_cons]
    omega

theorem told_live_length {first : Prop} {ps : List CurPoint}
    (h : Told COLS LINES first ps false) : ps.length ≤ (COLS-2)*(LINES-2)+1 := by
  generalize hb : false = b at h
  cases h with
  | whole h => exact (snake_length h).trans (Nat.le_succ _)
  | fed h _ _ =>
    rw [List.length_append, List.length_singleton]
    exact Nat.succ_le_succ (snake_length h)
  | hit | stale => cases hb

theorem segments_length (m : MainSnack) : (segments m).length = m.len := by
  rw [segments, List.length_map, List.length_range]

end Snake

section Games

structure Sound (g : Game) : Prop where
  told : g.status = .DGAME → Told COLS LINES (g.games = 1) (segments g.Ms) g.Ms.dead
  fresh : g.games = 0 → g.status ≠ .DGAME ∧ ∀ i, g.Ms.body i = ⟨0,0⟩
  beyond : g.games = 1 → ∀ i > g.Ms.len, g.Ms.body i = ⟨0,0⟩

variable {COLS LINES}

/-- What a step can do to the snake: the frame in which it moves, a new game, or
nothing. -/
inductive Goes (COLS LINES : ℕ) (g : Game) : Event → Game → Prop
  | move {ry rx : ℕ} {g' : Game} (hgame : g.status = .DGAME) (hlive : g.Ms.dead = false)
      (hcnt : g.cnt = 5) (h : Moved COLS LINES g.Ms (put_food COLS LINES ry rx g.food) g'.Ms)
      (hwhole : g'.Ms.dead = false →
        go g.Ms.arrowHead (g.Ms.body 1) ≠ put_food COLS LINES ry rx g.food →
        Snake COLS LINES (segments g'.Ms))
      (hgames : g'.games = g.games) : Goes COLS LINES g (.frame ry rx) g'
  | start {key : Key} {g' : Game} (hmenu : g.status = .DMENU)
      (hsnake : Snake COLS LINES (segments g'.Ms)) (hlen : g'.Ms.len = 4)
      (hlive : g'.Ms.dead = false) (hgames : g'.games = g.games+1) :
      Goes COLS LINES g (.key key) g'
  | rest {e : Event} {g' : Game} (hcnt : ∀ ry rx, e = .frame ry rx → g.status = .DGAME →
        g.Ms.dead = false → g.cnt ≠ 5)
      (hsegments : segments g'.Ms = segments g.Ms) (hdead : g'.Ms.dead = g.Ms.dead)
      (hgames : g'.games = g.games) : Goes COLS LINES g e g'

theorem frame_sound (hfits : (COLS-2)*(LINES-2) < 9998) (ry rx : ℕ) {g : Game}
    (h : Sound COLS LINES g) : ∃ g', frame COLS LINES ry rx g = some g' ∧ Sound COLS LINES g' ∧
      Goes COLS LINES g (.frame ry rx) g' := by
  unfold frame
  split_ifs with hlive hcnt
  · obtain ⟨hgame,hdead⟩ := hlive
    have htold : Told COLS LINES (g.games = 1) (segments g.Ms) false := hdead ▸ h.told hgame
    obtain ⟨-,-,-,-,-,-,-,hlen,-⟩ := told_head htold
    have hshort := told_live_length htold
    rw [segments_length] at hshort
    obtain ⟨m',food',hmove,hmoved⟩ := @move_some COLS LINES g.Ms
      (put_food COLS LINES ry rx g.food) hlen (by omega) hdead
    obtain ⟨htold',hwhole⟩ := move_told htold (fun hg => h.beyond hg _ (Nat.lt_succ_self _)) hmoved
    have hle : g.Ms.len ≤ m'.len := by
      have hlength := congrArg List.length hmoved.segments
      rw [segments_length, List.length_append, List.length_cons, List.length_dropLast,
        segments_length] at hlength
      omega
    rw [hmove]
    refine ⟨_,rfl,⟨fun _ => htold',fun hg => absurd hgame (h.fresh hg).1,fun hg i hi => ?_⟩,
      .move hgame hdead hcnt hmoved hwhole rfl⟩
    exact (hmoved.beyond i hi).trans (h.beyond hg i (hle.trans_lt hi))
  · exact ⟨_,rfl,⟨h.told,h.fresh,h.beyond⟩,.rest (fun _ _ _ _ _ => hcnt) rfl rfl rfl⟩
  · exact ⟨g,rfl,h,.rest (fun _ _ _ hgame hdead => absurd ⟨hgame,hdead⟩ hlive) rfl rfl rfl⟩

theorem turn_frame (key : Key) (m : MainSnack) : (turn key m).body = m.body ∧
    (turn key m).len = m.len ∧ (turn key m).dead = m.dead := by
  unfold turn
  split
  all_goals first
    | exact ⟨rfl,rfl,rfl⟩
    | split_ifs <;> exact ⟨rfl,rfl,rfl⟩

theorem initGame_segments (m : MainSnack) : segments (initGame COLS LINES m) =
    [⟨(COLS/2 : ℕ),(LINES/2 : ℕ)⟩,⟨(COLS/2 : ℕ)-1,(LINES/2 : ℕ)⟩,⟨(COLS/2 : ℕ)-2,(LINES/2 : ℕ)⟩,
      ⟨(COLS/2 : ℕ)-3,(LINES/2 : ℕ)⟩] := by
  simp [segments, initGame, List.range_succ, Function.update_apply]

theorem initGame_beyond (m : MainSnack) {i : ℕ} (hi : 4 < i) :
    (initGame COLS LINES m).body i = m.body i := by
  simp only [initGame, List.range_succ, List.range_zero, List.nil_append, List.cons_append,
    List.foldl_cons, List.foldl_nil]
  repeat rw [Function.update_of_ne (by omega)]

theorem near_right {p q : CurPoint} (hx : p.x = q.x+1) (hy : p.y = q.y) : near p q :=
  ⟨.HEAD_RIGHT,by rw [go, ← hx, ← hy]⟩

theorem initGame_snake (hC : 8 ≤ COLS) (hL : 3 ≤ LINES) (m : MainSnack) :
    Snake COLS LINES (segments (initGame COLS LINES m)) := by
  rw [initGame_segments]
  refine ⟨⟨?_,?_⟩,?_,le_refl 4⟩
  · exact .cons_cons (near_right (by dsimp only; omega) rfl) (.cons_cons
      (near_right (by dsimp only; omega) rfl) (.cons_cons
      (near_right (by dsimp only; omega) rfl) (.singleton _)))
  · simp only [List.nodup_cons, List.mem_cons, List.not_mem_nil, or_false, List.nodup_nil,
      CurPoint.mk.injEq, not_or, not_false_eq_true, and_true]
    omega
  · simp only [List.forall_mem_cons, Inside]
    refine ⟨?_,?_,?_,?_,fun p hp => absurd hp List.not_mem_nil⟩ <;> omega

theorem start_sound (hC : 8 ≤ COLS) (hL : 3 ≤ LINES) {g : Game} (h : Sound COLS LINES g) :
    Sound COLS LINES (start COLS LINES g) := by
  refine ⟨fun _ => .whole (initGame_snake hC hL g.Ms),fun hg => (nomatch hg),fun hg i hi => ?_⟩
  have hzero : g.games = 0 := Nat.succ.inj hg
  exact (initGame_beyond g.Ms hi).trans ((h.fresh hzero).2 i)

theorem msgDeal_sound (hC : 8 ≤ COLS) (hL : 3 ≤ LINES) (key : Key) {g : Game}
    (h : Sound COLS LINES g) : Sound COLS LINES (msgDeal COLS LINES key g) ∧
      Goes COLS LINES g (.key key) (msgDeal COLS LINES key g) := by
  have hrest {g' : Game} (hs : segments g'.Ms = segments g.Ms) (hd : g'.Ms.dead = g.Ms.dead)
      (hg : g'.games = g.games) : Goes COLS LINES g (.key key) g' :=
    .rest (fun _ _ he => (nomatch he)) hs hd hg
  have hleave (s : Status) (hs : s ≠ .DGAME) : Sound COLS LINES { g with status := s } ∧
      Goes COLS LINES g (.key key) { g with status := s } :=
    ⟨⟨fun hg => absurd hg hs,fun hg => ⟨hs,(h.fresh hg).2⟩,h.beyond⟩,hrest rfl rfl rfl⟩
  unfold msgDeal
  split
  · rename_i hmenu
    have hchose (c : Menu) : Sound COLS LINES { g with MenuChosed := c } ∧
        Goes COLS LINES g (.key key) { g with MenuChosed := c } :=
      ⟨⟨h.told,h.fresh,h.beyond⟩,hrest rfl rfl rfl⟩
    unfold choose
    split
    · exact hchose .START
    · exact hchose .EXIT
    · exact hchose .EXIT
    · exact hchose .ABOUT
    · exact hleave .returned (by decide)
    · exact hleave .about (by decide)
    · exact ⟨start_sound hC hL h,.start hmenu (initGame_snake hC hL g.Ms) rfl rfl rfl⟩
    · exact ⟨h,hrest rfl rfl rfl⟩
  · exact hleave .DMENU (by decide)
  · rename_i hgame
    split_ifs with hdead
    · exact hleave .DMENU (by decide)
    · obtain ⟨hbody,hlen,hkeep⟩ := turn_frame key g.Ms
      have hsegments : segments (turn key g.Ms) = segments g.Ms := by
        rw [segments, hbody, hlen]
        rfl
      refine ⟨⟨fun hg => ?_,fun hg => absurd hgame (h.fresh hg).1,fun hg i hi => ?_⟩,
        hrest hsegments hkeep rfl⟩
      · dsimp only
        rw [hsegments, hkeep]
        exact h.told hg
      · dsimp only at hi ⊢
        rw [hlen] at hi
        rw [hbody]
        exact h.beyond hg i hi
  · exact ⟨h,hrest rfl rfl rfl⟩

theorem step_sound (hC : 8 ≤ COLS) (hL : 3 ≤ LINES) (hfits : (COLS-2)*(LINES-2) < 9998)
    {g : Game} (e : Event) (h : Sound COLS LINES g) :
    ∃ g', step COLS LINES g e = some g' ∧ Sound COLS LINES g' ∧ Goes COLS LINES g e g' := by
  cases e with
  | frame ry rx => exact frame_sound hfits ry rx h
  | key key => exact ⟨_,rfl,msgDeal_sound hC hL key h⟩

/-- In a game it is known how it stands with the snake, and its segments are
not more than the cells of the screen. -/
structure Fair (COLS LINES : ℕ) (g : Game) : Prop where
  told : g.status = .DGAME → Told COLS LINES (g.games = 1) (segments g.Ms) g.Ms.dead
  fits : g.status = .DGAME → g.Ms.len ≤ (COLS-2)*(LINES-2)+2

/-- Over any number of games and any order of frames and keys, on a screen that
has no more cells than the array: a step moves the snake or leaves it as it is,
a snake in the first game dies with its head on the border or on itself, and in
a later one also of a meal, when a segment of an earlier game lies under it. -/
theorem deaths_told (hC : 8 ≤ COLS) (hL : 3 ≤ LINES) (hfits : (COLS-2)*(LINES-2) < 9998)
    (es : List Event) : ∃ g, es.foldlM (step COLS LINES) boot = some g ∧ Fair COLS LINES g ∧
      ∀ e, ∃ g', step COLS LINES g e = some g' ∧ Goes COLS LINES g e g' := by
  have hboot : Sound COLS LINES boot :=
    ⟨fun hg => (nomatch hg),fun _ => ⟨by decide,fun _ => rfl⟩,fun hg => (nomatch hg)⟩
  obtain ⟨g,hg,hsound⟩ := foldlM_runs (Sound COLS LINES) (fun g e hg _ => by
    obtain ⟨g',hg',hsound,-⟩ := step_sound hC hL hfits e hg
    exact ⟨g',hg',hsound⟩) hboot fun e (_ : e ∈ es) => trivial
  refine ⟨g,hg,⟨hsound.told,fun hgame => ?_⟩,fun e => ?_⟩
  · exact segments_length g.Ms ▸ told_length (hsound.told hgame)
  · obtain ⟨g',hg',-,hgoes⟩ := step_sound hC hL hfits e hsound
    exact ⟨g',hg',hgoes⟩

/-- A first game with one meal that ends on the border, and a second one whose
first meal ends it. -/
def exampleEvents : List Event :=
  .key .newline::List.replicate 6 (.frame 4 5)++List.replicate 15 (.frame 0 0)++
    .key .other::.key .newline::List.replicate 6 (.frame 4 5)

theorem deaths_told_stale : (exampleEvents.foldlM (step 10 10) boot).map
      (fun g => (segments g.Ms,g.Ms.dead)) =
      some ([⟨6,5⟩,⟨5,5⟩,⟨4,5⟩,⟨3,5⟩,⟨5,5⟩],true) ∧
    ∃ g, exampleEvents.foldlM (step 10 10) boot = some g ∧ Fair 10 10 g ∧
      ∀ e, ∃ g', step 10 10 g e = some g' ∧ Goes 10 10 g e g' :=
  ⟨by decide +kernel,deaths_told (by decide) (by decide) (by decide) exampleEvents⟩

end Games

end BaseDrivers.ArraySnake
