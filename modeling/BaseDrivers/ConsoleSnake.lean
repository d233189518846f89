import Mathlib.Data.Finset.Prod
import Mathlib.Tactic.SplitIfs
import BaseDrivers.CellTrail
import BaseDrivers.Execution

/-!
# The snake on the console

One key is answered in a turn, then the head goes one cell on. A move that
begins on the wall ends the game, and so does one that ends on the snake. The
pace decides what a meal is worth.
-/

set_option autoImplicit false

namespace BaseDrivers.ConsoleSnake
open BaseDrivers.Execution BaseDrivers.CellTrail

/-- `U`, `D`, `L` and `R`. -/
inductive Status where
  | U | D | L | R
  deriving DecidableEq, Repr

/-- `struct SNAKE` without its pointer. -/
structure Node where
  x : ℤ
  y : ℤ
  deriving DecidableEq, Repr

/-- The keys that are asked for, in the order of the questions. -/
inductive Key where
  | UP | DOWN | LEFT | RIGHT | SPACE | ESCAPE | F1 | F2
  deriving DecidableEq, Repr

/-- The static variables; `body` are the nodes from `head` on. -/
structure Game where
  body : List Node
  food : Node
  status : Status
  score : ℤ
  add : ℤ
  sleeptime : ℤ
  endGamestatus : ℤ
  deriving DecidableEq, Repr

/-- What the world brings in a turn: the keys that are down, what the memory
for the food holds, and the numbers that `rand` gives. -/
structure Turn where
  down : Key → Bool
  garbage : ℤ
  rand : List ℕ

/-- Four nodes come one after the other before the tail. -/
def initSnake : List Node :=
  (List.range 4).foldl (fun tail i => ⟨24+2*(i+1),5⟩::tail) [⟨24,5⟩]

def biteSelf : List Node → Bool
  | [] => false
  | head::self => self.any (· = head)

/-- `while ((food_1->x % 2) != 0)`, from the number that is in the memory. -/
def food_x : ℤ → List ℕ → Option (ℤ × List ℕ)
  | x, rand =>
    if x % 2 = 0 then some (x,rand)
    else match rand with
      | [] => none
      | r::rand => food_x (r % 52+2) rand

/-- The loop over the nodes has no turn unless `head` is the only one; then it
goes on from the null pointer. -/
def createFood (body : List Node) (garbage : ℤ) (rand : List ℕ) : Option Node := do
  let (x,rand) ← food_x garbage rand
  let r ← rand.head?
  if body.length = 1 then none else some ⟨x,r % 24+1⟩

def cantCrossWall (head : Node) : Bool :=
  head.x = 0 ∨ head.x = 56 ∨ head.y = 0 ∨ head.y = 26

/-- `nexthead` -/
def nexthead : Status → Node → Node
  | .U, head => ⟨head.x,head.y-1⟩
  | .D, head => ⟨head.x,head.y+1⟩
  | .L, head => ⟨head.x-2,head.y⟩
  | .R, head => ⟨head.x+2,head.y⟩

/-- `if (biteSelf() == 1)` -/
def bitten (g : Game) : Game := if biteSelf g.body then { g with endGamestatus := 2 } else g

/-- Without food the last node is freed. -/
def snakeMove (garbage : ℤ) (rand : List ℕ) (g : Game) : Option Game :=
  match g.body with
  | [] => none
  | head::self =>
    if cantCrossWall head then some { g with endGamestatus := 1 }
    else
      let body := nexthead g.status head::head::self
      if nexthead g.status head = g.food then do
        let food ← createFood body garbage rand
        some (bitten { g with body := body, score := g.score+g.add, food := food })
      else some (bitten { g with body := body.dropLast })

def faster (g : Game) : Game :=
  if 50 ≤ g.sleeptime then
    let sleeptime := g.sleeptime-30
    { g with sleeptime := sleeptime, add := if sleeptime = 320 then 2 else g.add+2 }
  else g

def slower (g : Game) : Game :=
  if g.sleeptime < 350 then
    let sleeptime := g.sleeptime+30
    { g with sleeptime := sleeptime, add := if sleeptime = 350 then 1 else g.add-2 }
  else g

/-- The first key that is down and means something is answered. A pause lasts
until `SPACE` is down again. -/
def answer (down : Key → Bool) (g : Game) : Game :=
  if down .UP ∧ g.status ≠ .D then { g with status := .U }
  else if down .DOWN ∧ g.status ≠ .U then { g with status := .D }
  else if down .LEFT ∧ g.status ≠ .R then { g with status := .L }
  else if down .RIGHT ∧ g.status ≠ .L then { g with status := .R }
  else if down .SPACE then g
  else if down .ESCAPE then { g with endGamestatus := 3 }
  else if down .F1 then faster g
  else if down .F2 then slower g
  else g

/-- A turn of `runGame`. `endGame` does not return. -/
def turn (g : Game) (t : Turn) : Option Game :=
  if g.endGamestatus ≠ 0 then some g
  else
    let g := answer t.down g
    if g.endGamestatus ≠ 0 then some g else snakeMove t.garbage t.rand g

def gameStart (garbage : ℤ) (rand : List ℕ) : Option Game := do
  let food ← createFood initSnake garbage rand
  some ⟨initSnake,food,.R,0,10,200,0⟩

def play (garbage : ℤ) (rand : List ℕ) (ts : List Turn) : Option Game := do
  let g ← gameStart garbage rand
  ts.foldlM turn g

section Pace

/-- What a meal is worth at a pace. -/
def worth (sleeptime : ℤ) : ℤ := max 1 ((350-sleeptime)/15)

structure Paced (g : Game) : Prop where
  lower : 20 ≤ g.sleeptime
  upper : g.sleeptime ≤ 350
  ladder : (g.sleeptime-20) % 30 = 0
  add : g.add = worth g.sleeptime

theorem paced_frame {g g' : Game} (h : Paced g) (hs : g'.sleeptime = g.sleeptime)
    (ha : g'.add = g.add) : Paced g' :=
  ⟨hs ▸ h.lower,hs ▸ h.upper,hs ▸ h.ladder,by rw [ha, hs, h.add]⟩

theorem worth_faster {t : ℤ} (hupper : t ≤ 350) (hladder : (t-20) % 30 = 0) :
    (if t-30 = 320 then 2 else worth t+2) = worth (t-30) := by
  unfold worth
  split_ifs <;> omega

theorem worth_slower {t : ℤ} (hupper : t < 350) (hladder : (t-20) % 30 = 0) :
    (if t+30 = 350 then 1 else worth t-2) = worth (t+30) := by
  unfold worth
  split_ifs <;> omega

theorem faster_paced {g : Game} (h : Paced g) : Paced (faster g) := by
  obtain ⟨hlower,hupper,hladder,hadd⟩ := h
  unfold faster
  split_ifs with hs
  · exact ⟨by dsimp only; omega,by dsimp only; omega,by dsimp only; omega,
      hadd ▸ worth_faster hupper hladder⟩
  · exact ⟨hlower,hupper,hladder,hadd⟩

theorem slower_paced {g : Game} (h : Paced g) : Paced (slower g) := by
  obtain ⟨hlower,hupper,hladder,hadd⟩ := h
  unfold slower
  split_ifs with hs
  · exact ⟨by dsimp only; omega,by dsimp only; omega,by dsimp only; omega,
      hadd ▸ worth_slower hs hladder⟩
  · exact ⟨hlower,hupper,hladder,hadd⟩

end Pace

section Body

def back : Status → Status
  | .U => .D
  | .D => .U
  | .L => .R
  | .R => .L

def arrow : Status → Key
  | .U => .UP
  | .D => .DOWN
  | .L => .LEFT
  | .R => .RIGHT

/-- The way is that of an arrow that is down and does not turn the snake back;
it stays as it is when there is none. -/
def Steered (down : Key → Bool) (way s : Status) : Prop :=
  s ≠ back way ∧ (down (arrow s) = true ∨ s = way ∧ ∀ w, down (arrow w) = true → w = back way)

/-- The pace changes by one step, with its key. -/
def Paces (down : Key → Bool) (t t' : ℤ) : Prop :=
  t' = t ∨ down .F1 = true ∧ t' = t-30 ∨ down .F2 = true ∧ t' = t+30

/-- What the answer to the keys can be. -/
inductive Answer (down : Key → Bool) (g : Game) : Game → Prop
  | turn (s : Status) (h : s ≠ back g.status) : Answer down g { g with status := s }
  | pace (sleeptime add : ℤ) (h : Paced g → Paced { g with sleeptime := sleeptime, add := add }) :
    Answer down g { g with sleeptime := sleeptime, add := add }
  | quit (h : down .ESCAPE = true) : Answer down g { g with endGamestatus := 3 }
  | none : Answer down g g

theorem back_ne {s t : Status} (h : t ≠ back s) : s ≠ back t := by
  cases s <;> cases t <;> first | decide | exact absurd rfl h

theorem answers (down : Key → Bool) (g : Game) : Answer down g (answer down g) := by
  unfold answer
  split_ifs with h h h h _ h
  · exact .turn .U (back_ne h.2)
  · exact .turn .D (back_ne h.2)
  · exact .turn .L (back_ne h.2)
  · exact .turn .R (back_ne h.2)
  · exact .none
  · exact .quit h
  · have hpaced := @faster_paced g
    unfold faster at hpaced ⊢
    split_ifs at hpaced ⊢
    · exact .pace _ _ hpaced
    · exact .none
  · have hpaced := @slower_paced g
    unfold slower at hpaced ⊢
    split_ifs at hpaced ⊢
    · exact .pace _ _ hpaced
    · exact .none
  · exact .none

/-- No key moves the snake or the food. -/
theorem answer_same (down : Key → Bool) (g : Game) : (answer down g).body = g.body ∧
    (answer down g).food = g.food ∧ (answer down g).score = g.score := by
  have ha := answers down g
  generalize answer down g = g₁ at ha ⊢
  cases ha <;> exact ⟨rfl,rfl,rfl⟩

theorem answer_steered (down : Key → Bool) (g : Game) :
    Steered down g.status (answer down g).status := by
  have hself : g.status ≠ back g.status := by cases g.status <;> decide
  have hfaster : (faster g).status = g.status := by unfold faster; split_ifs <;> rfl
  have hslower : (slower g).status = g.status := by unfold slower; split_ifs <;> rfl
  -- no arrow is down but the one that would turn the snake back
  have hkeep {s : Status} (hU : ¬ (down .UP = true ∧ g.status ≠ .D))
      (hD : ¬ (down .DOWN = true ∧ g.status ≠ .U)) (hL : ¬ (down .LEFT = true ∧ g.status ≠ .R))
      (hR : ¬ (down .RIGHT = true ∧ g.status ≠ .L)) (hs : s = g.status) :
      Steered down g.status s := by
    subst hs
    refine ⟨hself,.inr ⟨rfl,fun w hw => ?_⟩⟩
    by_contra hne
    cases w
    · exact hU ⟨hw,back_ne hne⟩
    · exact hD ⟨hw,back_ne hne⟩
    · exact hL ⟨hw,back_ne hne⟩
    · exact hR ⟨hw,back_ne hne⟩
  unfold answer
  split_ifs with hU hD hL hR
  · exact ⟨back_ne hU.2,.inl hU.1⟩
  · exact ⟨back_ne hD.2,.inl hD.1⟩
  · exact ⟨back_ne hL.2,.inl hL.1⟩
  · exact ⟨back_ne hR.2,.inl hR.1⟩
  · exact hkeep hU hD hL hR rfl
  · exact hkeep hU hD hL hR rfl
  · exact hkeep hU hD hL hR hfaster
  · exact hkeep hU hD hL hR hslower
  · exact hkeep hU hD hL hR rfl

theorem answer_paces (down : Key → Bool) (g : Game) :
    Paces down g.sleeptime (answer down g).sleeptime := by
  unfold answer
  split_ifs with _ _ _ _ _ _ h1 h2
  any_goals exact .inl rfl
  · unfold faster
    split_ifs
    · exact .inr (.inl ⟨h1,rfl⟩)
    · exact .inl rfl
  · unfold slower
    split_ifs
    · exact .inr (.inr ⟨h2,rfl⟩)
    · exact .inl rfl

/-- A cell is near the one it is reached from. -/
def near (b c : Node) : Prop := ∃ s, b = nexthead s c

def OnBoard (c : Node) : Prop := c.x % 2 = 0 ∧ (0 ≤ c.x ∧ c.x ≤ 56) ∧ 0 ≤ c.y ∧ c.y ≤ 26

theorem nexthead_onBoard (s : Status) {c : Node} (h : OnBoard c)
    (hwall : cantCrossWall c = false) : OnBoard (nexthead s c) := by
  obtain ⟨heven,hx,hy⟩ := h
  simp only [cantCrossWall, decide_eq_false_iff_not, not_or] at hwall
  cases s <;> refine ⟨?_,?_,?_⟩ <;> dsimp only [nexthead] <;> omega

theorem nexthead_turned {s t : Status} (h : s ≠ back t) (c : Node) :
    nexthead s (nexthead t c) ≠ c := by
  intro hc
  have hx := congrArg Node.x hc
  have hy := congrArg Node.y hc
  cases s <;> cases t <;> simp [nexthead] at hx hy <;> first | omega | exact h rfl

theorem biteSelf_iff (head : Node) (self : List Node) :
    biteSelf (head::self) = true ↔ head ∈ self := by
  simp [biteSelf]

/-- A snake whose head has come from the neck on that way. It is on the board,
only the head can be on the wall, and the head is not where the neck came from. -/
structure Placed (way : Status) (head neck : Node) (rest : List Node) : Prop where
  trail : Trail near (neck::rest)
  moved : head = nexthead way neck
  onBoard : ∀ c ∈ head::neck::rest, OnBoard c
  inside : ∀ c ∈ neck::rest, cantCrossWall c = false
  turned : rest.head? ≠ some head

theorem placed_moves {way s : Status} {head neck : Node} {rest ds : List Node}
    (h : Placed way head neck rest) (hfree : head ∉ neck::rest)
    (hwall : cantCrossWall head = false) (hs : s ≠ back way) (hpart : ds <+: neck::rest) :
    Placed s (nexthead s head) head ds := by
  have htrail := trail_cons h.trail ⟨way,h.moved⟩ hfree
  refine ⟨trail_part htrail (List.cons_prefix_cons.mpr ⟨rfl,hpart⟩),rfl,?_,?_,?_⟩
  · refine List.forall_mem_cons.mpr ⟨?_,List.forall_mem_cons.mpr ⟨?_,fun c hc => ?_⟩⟩
    · exact nexthead_onBoard s (h.onBoard head List.mem_cons_self) hwall
    · exact h.onBoard head List.mem_cons_self
    · exact h.onBoard c (List.mem_cons_of_mem head (hpart.subset hc))
  · exact List.forall_mem_cons.mpr ⟨hwall,fun c hc => h.inside c (hpart.subset hc)⟩
  · intro hhead
    obtain ⟨es,rfl⟩ := List.head?_eq_some_iff.mp hhead
    obtain ⟨hneck,-⟩ := List.cons_prefix_cons.mp hpart
    rw [h.moved] at hneck
    exact nexthead_turned hs neck hneck

/-- The reason given for the end is the one there is. -/
inductive Told (head : Node) (self : List Node) : ℤ → Prop
  | playing (h : head ∉ self) : Told head self 0
  | wall (h : head ∉ self) (hwall : cantCrossWall head = true) : Told head self 1
  | bite (h : head ∈ self) : Told head self 2
  | quit (h : head ∉ self) : Told head self 3

/-- The score is what one to twenty-two points for each meal make. -/
structure Scored (g : Game) : Prop where
  length : 5 ≤ g.body.length
  lower : (g.body.length : ℤ)-5 ≤ g.score
  upper : g.score ≤ 22*((g.body.length : ℤ)-5)

theorem scored_frame {g g' : Game} (h : Scored g) (hb : g'.body = g.body)
    (hs : g'.score = g.score) : Scored g' :=
  ⟨hb ▸ h.length,by rw [hb, hs]; exact h.lower,by rw [hb, hs]; exact h.upper⟩

structure Kept (g : Game) : Prop where
  body : ∃ way head neck rest, g.body = head::neck::rest ∧ Placed way head neck rest ∧
    Told head (neck::rest) g.endGamestatus ∧ (g.endGamestatus = 0 → g.status = way)
  paced : Paced g
  scored : Scored g

/-- A meal adds a node and the score, any other move adds none. -/
inductive Moved (g : Game) (head : Node) (self : List Node) : Game → Prop
  | wall (h : cantCrossWall head = true) : Moved g head self { g with endGamestatus := 1 }
  | meal (h : cantCrossWall head = false) (hfood : nexthead g.status head = g.food)
    (food : Node) : Moved g head self
      (bitten { g with
        body := nexthead g.status head::head::self
        score := g.score+g.add
        food := food })
  | plain (h : cantCrossWall head = false) (hfood : nexthead g.status head ≠ g.food) :
    Moved g head self
      (bitten { g with body := (nexthead g.status head::head::self).dropLast })

theorem snakeMove_moved {garbage : ℤ} {rand : List ℕ} {g g' : Game} {head : Node}
    {self : List Node} (hbody : g.body = head::self) (h : snakeMove garbage rand g = some g') :
    Moved g head self g' := by
  obtain ⟨body,food,status,score,add,sleeptime,endGamestatus⟩ := g
  obtain rfl : body = head::self := hbody
  dsimp only [snakeMove] at h
  split_ifs at h with hwall hfood
  · rw [← Option.some.inj h]
    exact .wall hwall
  · obtain ⟨food,-,h⟩ := Option.bind_eq_some_iff.mp h
    rw [← Option.some.inj h]
    exact .meal (Bool.eq_false_iff.mpr hwall) hfood food
  · rw [← Option.some.inj h]
    exact .plain (Bool.eq_false_iff.mpr hwall) hfood

theorem bitten_told {g : Game} {head : Node} {self : List Node} (hbody : g.body = head::self)
    (hlive : g.endGamestatus = 0) : (bitten g).body = g.body ∧ (bitten g).status = g.status ∧
      Told head self (bitten g).endGamestatus := by
  unfold bitten
  split_ifs with h
  · exact ⟨rfl,rfl,.bite ((biteSelf_iff head self).mp (hbody ▸ h))⟩
  · refine ⟨rfl,rfl,hlive ▸ .playing fun hmem => h ?_⟩
    rw [hbody]
    exact (biteSelf_iff head self).mpr hmem

theorem bitten_paced {g : Game} (h : Paced g) : Paced (bitten g) := by
  unfold bitten
  split_ifs
  · exact paced_frame h rfl rfl
  · exact h

theorem bitten_scored {g : Game} (h : Scored g) : Scored (bitten g) := by
  unfold bitten
  split_ifs
  · exact scored_frame h rfl rfl
  · exact h

/-- What is left of the snake behind the new head is on from the old one. -/
theorem bitten_kept {g : Game} {way : Status} {head neck : Node} {rest ds : List Node}
    (hplaced : Placed way head neck rest) (hfree : head ∉ neck::rest)
    (hwall : cantCrossWall head = false) (hs : g.status ≠ back way) (hlive : g.endGamestatus = 0)
    (hpart : ds <+: neck::rest) (hbody : g.body = nexthead g.status head::head::ds)
    (hpaced : Paced g) (hscored : Scored g) : Kept (bitten g) := by
  obtain ⟨hb,hst,htold⟩ := bitten_told hbody hlive
  have hmoves := placed_moves hplaced hfree hwall hs hpart
  exact ⟨⟨g.status,nexthead g.status head,head,ds,hb.trans hbody,hmoves,htold,fun _ => hst⟩,
    bitten_paced hpaced,bitten_scored hscored⟩

theorem snakeMove_kept {garbage : ℤ} {rand : List ℕ} {g g' : Game} {way : Status}
    {head neck : Node} {rest : List Node} (hbody : g.body = head::neck::rest)
    (hplaced : Placed way head neck rest) (hfree : head ∉ neck::rest)
    (hs : g.status ≠ back way) (hlive : g.endGamestatus = 0) (hpaced : Paced g)
    (hscored : Scored g) (h : snakeMove garbage rand g = some g') : Kept g' := by
  have hlength : g.body.length = rest.length+2 := congrArg List.length hbody
  have hadd := hpaced.add
  have hworth : 1 ≤ worth g.sleeptime ∧ worth g.sleeptime ≤ 22 := by
    have hlower := hpaced.lower
    unfold worth
    omega
  cases snakeMove_moved hbody h with
  | wall hwall =>
    exact ⟨⟨way,head,neck,rest,hbody,hplaced,.wall hfree hwall,fun h => (nomatch h)⟩,
      paced_frame hpaced rfl rfl,scored_frame hscored rfl rfl⟩
  | meal hwall _ food =>
    obtain ⟨hlong,hlower,hupper⟩ := hscored
    refine bitten_kept hplaced hfree hwall hs hlive (List.prefix_refl _) rfl
      (paced_frame hpaced rfl rfl) ⟨?_,?_,?_⟩ <;> simp only [List.length_cons] <;> omega
  | plain hwall _ =>
    obtain ⟨hlong,hlower,hupper⟩ := hscored
    refine bitten_kept hplaced hfree hwall hs hlive (List.dropLast_prefix _) rfl
      (paced_frame hpaced rfl rfl) ⟨?_,?_,?_⟩ <;>
      simp only [List.length_dropLast, List.length_cons] <;> omega

theorem turn_kept {g g' : Game} {t : Turn} (hg : Kept g) (h : turn g t = some g') : Kept g' := by
  have hkept := hg
  obtain ⟨⟨way,head,neck,rest,hbody,hplaced,htold,hway⟩,hpaced,hscored⟩ := hg
  by_cases hlive : g.endGamestatus = 0
  · have hfree : head ∉ neck::rest := by
      rw [hlive] at htold
      cases htold
      assumption
    have hself : g.status ≠ back way := hway hlive ▸ by cases g.status <;> decide
    rw [turn, if_neg (not_not.mpr hlive)] at h
    have ha := answers t.down g
    generalize answer t.down g = g₁ at ha h
    cases ha with
    | turn s hs =>
      rw [if_neg (not_not.mpr hlive)] at h
      exact snakeMove_kept (g := { g with status := s }) hbody hplaced hfree (hway hlive ▸ hs) hlive
        (paced_frame hpaced rfl rfl) (scored_frame hscored rfl rfl) h
    | pace sleeptime add hp =>
      rw [if_neg (not_not.mpr hlive)] at h
      exact snakeMove_kept (g := { g with sleeptime := sleeptime, add := add }) hbody hplaced hfree
        hself hlive (hp hpaced) (scored_frame hscored rfl rfl) h
    | quit _ =>
      rw [← Option.some.inj h]
      exact ⟨⟨way,head,neck,rest,hbody,hplaced,.quit hfree,fun h => (nomatch h)⟩,
        paced_frame hpaced rfl rfl,scored_frame hscored rfl rfl⟩
    | none =>
      rw [if_neg (not_not.mpr hlive)] at h
      exact snakeMove_kept hbody hplaced hfree hself hlive hpaced hscored h
  · rw [turn, if_pos hlive] at h
    exact Option.some.inj h ▸ hkept

theorem initSnake_placed : ∃ rest, initSnake = ⟨32,5⟩::⟨30,5⟩::rest ∧
    Placed .R ⟨32,5⟩ ⟨30,5⟩ rest ∧ (⟨32,5⟩ : Node) ∉ (⟨30,5⟩ : Node)::rest := by
  refine ⟨[⟨28,5⟩,⟨26,5⟩,⟨24,5⟩],rfl,⟨⟨?_,by decide⟩,rfl,?_,by decide,by decide⟩,by decide⟩
  · refine .cons_cons ⟨.R,rfl⟩ (.cons_cons ⟨.R,rfl⟩ (.cons_cons ⟨.R,rfl⟩ (.singleton _)))
  · simp [OnBoard]

theorem gameStart_kept {garbage : ℤ} {rand : List ℕ} {g : Game}
    (h : gameStart garbage rand = some g) : Kept g := by
  obtain ⟨food,-,h⟩ := Option.bind_eq_some_iff.mp h
  obtain ⟨rest,hbody,hplaced,hfree⟩ := initSnake_placed
  let start : Game := ⟨initSnake,⟨0,0⟩,.R,0,10,200,0⟩
  have hpaced : Paced start := ⟨by decide,by decide,by decide,by decide⟩
  have hscored : Scored start := ⟨by decide,by decide,by decide⟩
  rw [← Option.some.inj h]
  exact ⟨⟨.R,⟨32,5⟩,⟨30,5⟩,rest,hbody,hplaced,.playing hfree,fun _ => rfl⟩,
    paced_frame hpaced rfl rfl,scored_frame hscored rfl rfl⟩

/-- Two columns of the screen are one of the board. -/
def board : Finset Node :=
  (Finset.range 29 ×ˢ Finset.range 27).image fun c => ⟨2*c.1,c.2⟩

theorem onBoard_mem {c : Node} (h : OnBoard c) : c ∈ board := by
  obtain ⟨heven,hx,hy⟩ := h
  obtain ⟨i,hi⟩ := Int.eq_ofNat_of_zero_le hx.1
  obtain ⟨j,hj⟩ := Int.eq_ofNat_of_zero_le hy.1
  refine Finset.mem_image.mpr ⟨(i/2,j),Finset.mem_product.mpr ⟨?_,?_⟩,?_⟩
  · exact Finset.mem_range.mpr (by dsimp only; omega)
  · exact Finset.mem_range.mpr (by dsimp only; omega)
  · exact congrArg₂ Node.mk (by dsimp only; omega) hj.symm

theorem board_card : board.card ≤ 783 := by
  refine Finset.card_image_le.trans (le_of_eq ?_)
  rw [Finset.card_product, Finset.card_range, Finset.card_range]

/-- All nodes but the head are on different cells. -/
theorem kept_bound {g : Game} (h : Kept g) : g.body.length ≤ 784 := by
  obtain ⟨way,head,neck,rest,hbody,hplaced,-,-⟩ := h.body
  have hrest := trail_length hplaced.trail fun c hc =>
    onBoard_mem (hplaced.onBoard c (List.mem_cons_of_mem head hc))
  rw [hbody, List.length_cons]
  exact Nat.succ_le_succ (hrest.trans board_card)

/-- The numbers bring a place for the food: an even column at some time, and a
row after it. -/
def Fed (garbage : ℤ) (rand : List ℕ) : Prop :=
  garbage % 2 = 0 ∧ rand ≠ [] ∨ ∃ before r y after, rand = before++r::y::after ∧ r % 2 = 0

theorem food_x_found {x : ℤ} {rand : List ℕ} (h : Fed x rand) :
    ∃ x' r rest, food_x x rand = some (x',r::rest) := by
  induction rand generalizing x with
  | nil =>
    rcases h with ⟨-,hrand⟩ | ⟨before,r,y,after,hrand,-⟩
    · exact absurd rfl hrand
    · cases before <;> cases hrand
  | cons r₀ rand ih =>
    rw [food_x]
    split_ifs with hx
    · exact ⟨x,r₀,rand,rfl⟩
    · apply ih
      rcases h with ⟨hx',-⟩ | ⟨before,r,y,after,hrand,hr⟩
      · exact absurd hx' hx
      · cases before with
        | nil =>
          obtain ⟨rfl,rfl⟩ := List.cons.inj hrand
          exact .inl ⟨by omega,List.cons_ne_nil y after⟩
        | cons b before =>
          obtain ⟨-,rfl⟩ := List.cons.inj hrand
          exact .inr ⟨before,r,y,after,rfl,hr⟩

theorem createFood_found (body : List Node) {garbage : ℤ} {rand : List ℕ} (h : Fed garbage rand)
    (hbody : body.length ≠ 1) : ∃ food, createFood body garbage rand = some food := by
  obtain ⟨x,r,rest,hx⟩ := food_x_found h
  refine ⟨⟨x,r % 24+1⟩,?_⟩
  simp only [createFood, hx, bind, Option.bind, List.head?_cons, if_neg hbody]

theorem turn_plays {g : Game} {t : Turn} (hg : Kept g) (ht : Fed t.garbage t.rand) :
    ∃ g', turn g t = some g' := by
  obtain ⟨way,head,neck,rest,hbody,-⟩ := hg.body
  obtain ⟨ha,-,-⟩ := answer_same t.down g
  unfold turn
  split_ifs with hover
  · exact ⟨g,rfl⟩
  · dsimp only
    split_ifs
    · exact ⟨_,rfl⟩
    · rw [snakeMove, ha, hbody]
      dsimp only
      split_ifs
      · exact ⟨_,rfl⟩
      · obtain ⟨food,hfood⟩ :=
          createFood_found (nexthead (answer t.down g).status head::head::neck::rest) ht (by simp)
        exact ⟨_,by rw [hfood]; rfl⟩
      · exact ⟨_,rfl⟩

/-- What a turn does to the snake and the score. Without `ESC` and the wall the
snake goes one cell on its way, and it grows with a meal, which counts what a
meal is worth in that turn. -/
structure Advances (g : Game) (t : Turn) (g' : Game) : Prop where
  ended : g.endGamestatus ≠ 0 → g' = g
  steered : g.endGamestatus = 0 → Steered t.down g.status g'.status
  paces : g.endGamestatus = 0 → Paces t.down g.sleeptime g'.sleeptime
  quit : g'.endGamestatus = 3 → g.endGamestatus = 3 ∨ t.down .ESCAPE = true
  wall : g.endGamestatus = 0 → (∃ head ∈ g.body.head?, cantCrossWall head = true) →
    g'.endGamestatus ≠ 0
  still : g.endGamestatus = 0 → g'.endGamestatus = 1 ∨ g'.endGamestatus = 3 →
    g'.body = g.body ∧ g'.score = g.score
  moved : g.endGamestatus = 0 → g'.endGamestatus = 0 ∨ g'.endGamestatus = 2 →
    ∀ head ∈ g.body.head?,
      g'.body = nexthead g'.status head::
        (if nexthead g'.status head = g.food then g.body else g.body.dropLast) ∧
      g'.score = g.score+if nexthead g'.status head = g.food then g'.add else 0

theorem bitten_rest (g : Game) : (bitten g).body = g.body ∧ (bitten g).score = g.score ∧
    (bitten g).status = g.status ∧ (bitten g).add = g.add ∧ (bitten g).sleeptime = g.sleeptime ∧
    ((bitten g).endGamestatus = g.endGamestatus ∨ (bitten g).endGamestatus = 2) := by
  unfold bitten
  split_ifs
  · exact ⟨rfl,rfl,rfl,rfl,rfl,.inr rfl⟩
  · exact ⟨rfl,rfl,rfl,rfl,rfl,.inl rfl⟩

theorem snakeMove_advances {g g₁ g' : Game} {t : Turn} {head : Node} {self : List Node}
    (hbody : g.body = head::self) (hsame : g₁.body = g.body ∧ g₁.food = g.food ∧ g₁.score = g.score)
    (hway : Steered t.down g.status g₁.status)
    (hpace : Paces t.down g.sleeptime g₁.sleeptime) (hlive : g.endGamestatus = 0)
    (hlive₁ : g₁.endGamestatus = 0) (h : snakeMove t.garbage t.rand g₁ = some g') :
    Advances g t g' := by
  obtain ⟨hb,hf,hs⟩ := hsame
  have hhead {c : Node} (hc : c ∈ g.body.head?) : c = head := by
    rw [hbody] at hc
    exact (Option.some.inj hc).symm
  -- a move that begins off the wall
  have hmoved {g₂ : Game} (hwall : cantCrossWall head = false) (hlive₂ : g₂.endGamestatus = 0)
      (ht₂ : g₂.status = g₁.status) (hp₂ : g₂.sleeptime = g₁.sleeptime)
      (hb₂ : g₂.body = nexthead g₂.status head::
        (if nexthead g₂.status head = g.food then g.body else g.body.dropLast))
      (hs₂ : g₂.score = g.score+if nexthead g₂.status head = g.food then g₂.add else 0) :
      Advances g t (bitten g₂) := by
    obtain ⟨rb,rs,rt,ra,rp,re⟩ := bitten_rest g₂
    rw [hlive₂] at re
    refine ⟨fun h => absurd hlive h,fun _ => ?_,fun _ => ?_,fun h => ?_,fun _ h => ?_,
      fun _ h => ?_,fun _ _ c hc => ?_⟩
    · rw [rt, ht₂]
      exact hway
    · rw [rp, hp₂]
      exact hpace
    · rcases re with re | re <;> cases re.symm.trans h
    · obtain ⟨c,hc,hcross⟩ := h
      rw [hhead hc, hwall] at hcross
      cases hcross
    · rcases re with re | re <;> rw [re] at h <;> rcases h with h | h <;> cases h
    · rw [hhead hc, rb, rs, rt, ra]
      exact ⟨hb₂,hs₂⟩
  cases snakeMove_moved (hb.trans hbody) h with
  | wall _ =>
    refine ⟨fun h => absurd hlive h,fun _ => hway,fun _ => hpace,fun h => (nomatch h),
      fun _ _ h => (nomatch h),fun _ _ => ⟨hb,hs⟩,fun _ h => ?_⟩
    rcases h with h | h <;> cases h
  | meal hwall hfood food =>
    rw [hf] at hfood
    refine hmoved hwall hlive₁ rfl rfl ?_ ?_
    · rw [if_pos hfood, hbody]
    · rw [if_pos hfood, hs]
  | plain hwall hfood =>
    rw [hf] at hfood
    refine hmoved hwall hlive₁ rfl rfl ?_ ?_
    · rw [if_neg hfood, hbody]
      rfl
    · rw [if_neg hfood, hs, Int.add_zero]

theorem turn_advances {g g' : Game} {t : Turn} (hg : Kept g) (h : turn g t = some g') :
    Advances g t g' := by
  obtain ⟨way,head,neck,rest,hbody,-⟩ := hg.body
  by_cases hlive : g.endGamestatus = 0
  · rw [turn, if_neg (not_not.mpr hlive)] at h
    have hsame := answer_same t.down g
    have hway := answer_steered t.down g
    have hpace := answer_paces t.down g
    have ha := answers t.down g
    generalize answer t.down g = g₁ at ha hsame hway hpace h
    cases ha with
    | quit hdown =>
      rw [← Option.some.inj h]
      refine ⟨fun h => absurd hlive h,fun _ => hway,fun _ => hpace,fun _ => .inr hdown,
        fun _ _ h => (nomatch h),fun _ _ => ⟨rfl,rfl⟩,fun _ h => ?_⟩
      rcases h with h | h <;> cases h
    | _ =>
      rw [if_neg (not_not.mpr hlive)] at h
      exact snakeMove_advances hbody hsame hway hpace hlive hlive h
  · rw [turn, if_pos hlive] at h
    rw [← Option.some.inj h]
    exact ⟨fun _ => rfl,fun h => absurd h hlive,fun h => absurd h hlive,.inl,
      fun h => absurd h hlive,fun h => absurd h hlive,fun h => absurd h hlive⟩

/-- Whatever keys are down and wherever the food comes, the snake is a trail of
cells on the board that does not turn back on its neck, the game goes on until
the head is on the wall or on the snake or the player quits, the pace is what a
meal is worth, and every further turn moves the snake on and counts its meal. -/
theorem snake_kept (garbage : ℤ) (rand : List ℕ) (hfed : Fed garbage rand) (ts : List Turn)
    (hts : ∀ t ∈ ts, Fed t.garbage t.rand) : ∃ g, play garbage rand ts = some g ∧ Kept g ∧
      g.score ≤ 22*779 ∧
      ∀ t, Fed t.garbage t.rand → ∃ g', turn g t = some g' ∧ Advances g t g' := by
  obtain ⟨food,hfood⟩ := createFood_found initSnake hfed (by decide)
  have hstart : gameStart garbage rand = some ⟨initSnake,food,.R,0,10,200,0⟩ := by
    rw [gameStart, hfood]
    rfl
  obtain ⟨g,hg,hkept⟩ := foldlM_runs Kept (fun g t hg ht => by
    obtain ⟨g',hg'⟩ := turn_plays hg ht
    exact ⟨g',hg',turn_kept hg hg'⟩) (gameStart_kept hstart) hts
  have hbound := kept_bound hkept
  have hupper := hkept.scored.upper
  refine ⟨g,by rw [play, hstart]; exact hg,hkept,by omega,fun t ht => ?_⟩
  obtain ⟨g',hg'⟩ := turn_plays hkept ht
  exact ⟨g',hg',turn_advances hkept hg'⟩

/-- A meal at a quicker pace, and then once round. -/
def exampleTurns : List Turn :=
  [.F1,.UP,.LEFT,.DOWN].map fun k => ⟨(· = k),1,[7,4,9]⟩

theorem snake_kept_bite : (play 34 [4] exampleTurns).map (fun g => (g.endGamestatus,g.score)) =
      some (2,12) ∧ ∃ g, play 34 [4] exampleTurns = some g ∧ Kept g ∧ g.score ≤ 22*779 ∧
      ∀ t, Fed t.garbage t.rand → ∃ g', turn g t = some g' ∧ Advances g t g' := by
  refine ⟨by decide,snake_kept 34 [4] (.inl ⟨by decide,by decide⟩) exampleTurns fun t ht => ?_⟩
  obtain ⟨k,-,rfl⟩ := List.mem_map.mp ht
  exact .inr ⟨[7],4,9,[],rfl,by decide⟩

end Body

end BaseDrivers.ConsoleSnake
