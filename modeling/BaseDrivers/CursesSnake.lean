import Mathlib.Data.Int.Init
import Mathlib.Tactic.SplitIfs
import BaseDrivers.Execution
import BaseDrivers.DoubleList

/-!
# The snake on the terminal

The snake is a doubly linked list of nodes. On every tick its last node
becomes the first one and gets a new place. Where the food is, the node of the
food comes before the first one, and the first one goes to the end. A death or
a level that is done deletes the nodes, to make a new snake.
-/

set_option autoImplicit false

namespace BaseDrivers.CursesSnake
open BaseDrivers.Execution BaseDrivers.DoubleList
open BaseDrivers.HeapList (addresses values)

def INIT_POS_X : ℤ := 12
def INIT_POS_Y : ℤ := 40
def INIT_SNAKE_LENGTH : ℕ := 5

/-- `MOVE_LEFT` and the other ways. -/
inductive Dir where
  | left | right | up | down
  deriving DecidableEq, Repr

/-- The place in a `struct Snake`, whose pointers `pNext` and `pPre` are the
pointers of a cell. -/
structure Pos where
  pos_x : ℤ
  pos_y : ℤ
  deriving DecidableEq, Repr

/-- Why there is no state: an access through a pointer to no node or to one that
was given back, a walk that does not come to its end, a free place for the food
not found yet, a terminal without room for it, no memory, or the end of the
program. -/
inductive Halt where
  | null
  | endless
  | looking
  | division
  | memory
  | quit
  deriving DecidableEq, Repr

/-- Where the terminal, the numbers or the memory are the reason. -/
def Halt.lacks : Halt → Bool
  | .looking | .division | .memory => true
  | .null | .endless | .quit => false

/-- The variables of the program and of the terminal, and the memory. `rand`
and `supply` are what `rand` and `malloc` give next, memory with what is in it;
`given` counts the nodes that were given. -/
structure Game (A : Type) where
  mem : Mem A Pos
  pSnakeHead : Option A
  pSnakeTail : Option A
  pSnakeTrace : Option A
  pSnakeFood : Option A
  move_dir : Dir
  is_game_over : ℕ
  current_score : ℕ
  level : Fin 5
  life : ℤ
  LINES : ℤ
  COLS : ℤ
  rand : List ℕ
  supply : List (A × Cell A Pos)
  given : ℕ

def levelup_score (level : Fin 5) : ℕ := List.get [5,10,15,20,25] level

/-- The run was stopped by what the world did not give. -/
def Stopped {ρ : Type} (w : Except Halt ρ) : Prop := ∃ r, w = .error r ∧ r.lacks = true

instance {ρ : Type} (w : Except Halt ρ) : Decidable (Stopped w) :=
  match w with
  | .ok _ => .isFalse fun ⟨_,h,_⟩ => by cases h
  | .error r => decidable_of_iff (r.lacks = true)
      ⟨fun h => ⟨r,rfl,h⟩,fun ⟨_,h,hr⟩ => Except.error.inj h ▸ hr⟩

instance {ρ : Type} (w : Except Halt ρ) (r : Halt) : Decidable (w = .error r) :=
  match w with
  | .ok _ => .isFalse nofun
  | .error s => decidable_of_iff (s = r) ⟨congrArg _,Except.error.inj⟩

theorem stopped_bind {ρ τ : Type} {w : Except Halt ρ} (h : Stopped w) (f : ρ → Except Halt τ) :
    Stopped (w.bind f) := by
  obtain ⟨r,rfl,hr⟩ := h
  exact ⟨r,rfl,hr⟩

variable {A : Type}

def deref (p : Option A) (g : Game A) : Except Halt (A × Cell A Pos) :=
  match p with
  | none => .error .null
  | some a =>
    match g.mem a with
    | none => .error .null
    | some c => .ok (a,c)

/-- The result of a walk. One that takes more turns than there are nodes goes
in a circle. -/
def walk {σ ρ : Type} (body : σ → σ ⊕ Except Halt ρ) (g : Game A) (s : σ) : Except Halt ρ :=
  match loop body (g.given+1) s with
  | .inl _ => .error .endless
  | .inr r => r

/-- One turn of the loop in `is_snake_dead`. -/
def dead_turn (g : Game A) (head : Pos) (pSnakeBody : Option A) :
    Option A ⊕ Except Halt Bool :=
  match pSnakeBody with
  | none => .inr (.ok false)
  | some a =>
    match g.mem a with
    | none => .inr (.error .null)
    | some c =>
      if head.pos_x = c.value.pos_x ∧ head.pos_y = c.value.pos_y then .inr (.ok true)
      else .inl c.next

def is_snake_dead (g : Game A) : Except Halt ℕ := do
  let (_,h) ← deref g.pSnakeHead g
  if ← walk (dead_turn g h.value) g h.next then .ok 2
  else if h.value.pos_x = 3 ∨ h.value.pos_x = g.LINES ∨ h.value.pos_y = 0 ∨
      h.value.pos_y = g.COLS then .ok 1
  else .ok 0

/-- One turn of the inner loop in `put_food`, with `pTemp` and `flag`. -/
def place_turn (g : Game A) (food : Pos) : Option A × ℕ → (Option A × ℕ) ⊕ Except Halt ℕ
  | (none,flag) => .inr (.ok flag)
  | (some a,flag) =>
    match g.mem a with
    | none => .inr (.error .null)
    | some c => .inl (c.next,
        if c.value.pos_x = food.pos_x ∧ c.value.pos_y = food.pos_y then flag+1 else flag)

/-- The outer loop in `put_food`: the place, and the numbers left. -/
def find_place (g : Game A) : List ℕ → Except Halt (Pos × List ℕ)
  | rx::ry::rand =>
    if g.LINES-4 = 0 ∨ g.COLS-1 = 0 then .error .division
    else do
      let food : Pos := ⟨(rx : ℤ).tmod (g.LINES-4)+4,(ry : ℤ).tmod (g.COLS-1)+1⟩
      let flag ← walk (place_turn g food) g (g.pSnakeHead,0)
      if flag = 0 then .ok (food,rand) else find_place g rand
  | _ => .error .looking

def beside : Dir → Pos → Pos
  | .left, p => ⟨p.pos_x,p.pos_y-1⟩
  | .right, p => ⟨p.pos_x,p.pos_y+1⟩
  | .up, p => ⟨p.pos_x-1,p.pos_y⟩
  | .down, p => ⟨p.pos_x+1,p.pos_y⟩

section Heap
variable [DecidableEq A]

/-- An assignment through a pointer. -/
def assign (p : Option A) (f : Cell A Pos → Cell A Pos) (g : Game A) :
    Except Halt (Game A) := do
  let (a,c) ← deref p g
  .ok { g with mem := Function.update g.mem a (some (f c)) }

/-- Memory that is in use is not given. -/
def malloc (g : Game A) : Except Halt (A × Game A) :=
  match g.supply with
  | [] => .error .memory
  | (a,c)::supply =>
    match g.mem a with
    | some _ => .error .memory
    | none => .ok (a,{ g with mem := Function.update g.mem a (some c), supply := supply,
                              given := g.given+1 })

def free (p : Option A) (g : Game A) : Except Halt (Game A) := do
  let (a,_) ← deref p g
  .ok { g with mem := Function.update g.mem a none }

/-- The turns of the loop in `init_snake` that are left, with `flag` and
`pSnakePre`. -/
def init_turns : ℕ → ℕ × Option A → Game A → Except Halt (Option A × Game A)
  | 0, (_,pSnakePre), g => .ok (pSnakePre,g)
  | n+1, (flag,pSnakePre), g => do
    let i := INIT_SNAKE_LENGTH-(n+1)
    let (pSnakeBody,g) ← malloc g
    let g ← assign (some pSnakeBody)
      (fun c => { c with value := ⟨INIT_POS_X,INIT_POS_Y+INIT_SNAKE_LENGTH-i⟩ }) g
    if flag = 0 then
      let g := { g with pSnakeHead := some pSnakeBody }
      let g ← assign (some pSnakeBody) (fun c => { c with prev := none }) g
      init_turns n (flag+1,some pSnakeBody) g
    else
      let g ← assign pSnakePre (fun c => { c with next := some pSnakeBody }) g
      let g ← assign (some pSnakeBody) (fun c => { c with prev := pSnakePre }) g
      let g ← assign (some pSnakeBody) (fun c => { c with next := none }) g
      init_turns n (flag,some pSnakeBody) g

def init_snake (g : Game A) : Except Halt (Game A) := do
  let (trace,g) ← malloc g
  let g := { g with pSnakeTrace := some trace }
  let g ← assign g.pSnakeTrace (fun c => { c with value := ⟨0,0⟩ }) g
  let (pSnakePre,g) ← init_turns INIT_SNAKE_LENGTH (0,none) g
  .ok { g with pSnakeTail := pSnakePre, move_dir := .right }

def put_food (g : Game A) : Except Halt (Game A) := do
  let (food,rand) ← find_place g g.rand
  let (pPutFood,g) ← malloc { g with rand := rand }
  let g := { g with pSnakeFood := some pPutFood }
  assign g.pSnakeFood (fun c => { c with value := food, prev := none, next := none }) g

def eat_food (g : Game A) : Except Halt (Game A) := do
  let (_,h) ← deref g.pSnakeHead g
  let g ← assign g.pSnakeFood (fun c => { c with next := h.next }) g
  let (_,h) ← deref g.pSnakeHead g
  let g ← assign h.next (fun c => { c with prev := g.pSnakeFood }) g
  let g ← assign g.pSnakeHead (fun c => { c with next := none }) g
  let g ← assign g.pSnakeTail (fun c => { c with next := g.pSnakeHead }) g
  let g ← assign g.pSnakeHead (fun c => { c with prev := g.pSnakeTail }) g
  .ok { g with pSnakeTail := g.pSnakeHead, pSnakeHead := g.pSnakeFood }

/-- One turn of the loop in `delete_snake`. The pointer is read from the node
after it is given back. -/
def delete_turn : Game A × Option A → (Game A × Option A) ⊕ Except Halt (Game A)
  | (g,none) => .inr (.ok g)
  | (g,some a) =>
    match free (some a) g with
    | .error r => .inr (.error r)
    | .ok g =>
      match deref (some a) g with
      | .error r => .inr (.error r)
      | .ok (_,c) => .inl (g,c.next)

def delete_snake (g : Game A) : Except Halt (Game A) := do
  let g ← walk delete_turn g (g,g.pSnakeHead)
  free g.pSnakeFood g

def reset_game (g : Game A) : Except Halt (Game A) := do
  let g := { g with current_score := 0 }
  let g ← delete_snake g
  let g ← init_snake g
  put_food g

def levelup (g : Game A) : Except Halt (Game A) :=
  if h : g.level.val = 4 then reset_game { g with level := ⟨0,by decide⟩, life := 3 }
  else reset_game { g with level := ⟨g.level.val+1,by omega⟩ }

def «over» (g : Game A) : Except Halt (Game A) :=
  let g := { g with life := g.life-1 }
  if g.life = 0 then reset_game { g with life := 3, level := ⟨0,by decide⟩ }
  else reset_game g

/-- The first part of `snake_move`: the last node becomes the first one. -/
def recycle (g : Game A) : Except Halt (Game A) := do
  let (_,t) ← deref g.pSnakeTail g
  let g ← assign g.pSnakeTrace (fun c => { c with value := t.value }) g
  let (_,t) ← deref g.pSnakeTail g
  let ptemp := t.prev
  let g ← assign t.prev (fun c => { c with next := none }) g
  let g ← assign g.pSnakeTail (fun c => { c with prev := none }) g
  let g ← assign g.pSnakeTail (fun c => { c with next := g.pSnakeHead }) g
  let g ← assign g.pSnakeHead (fun c => { c with prev := g.pSnakeTail }) g
  .ok { g with pSnakeHead := g.pSnakeTail, pSnakeTail := ptemp }

/-- The second part, where it gets its place. -/
def advance (g : Game A) : Except Halt (Game A) := do
  let g ← recycle g
  let (_,h) ← deref g.pSnakeHead g
  let (_,n) ← deref h.next g
  assign g.pSnakeHead (fun c => { c with value := beside g.move_dir n.value }) g

/-- The last part, after the test for death. -/
def feed (g : Game A) : Except Halt (Game A) := do
  let (_,h) ← deref g.pSnakeHead g
  let (_,f) ← deref g.pSnakeFood g
  let g ← if h.value.pos_x = f.value.pos_x ∧ h.value.pos_y = f.value.pos_y then do
      let g ← eat_food g
      let g ← put_food g
      .ok { g with current_score := g.current_score+1 }
    else .ok g
  if g.current_score = levelup_score g.level then levelup g else .ok g

def snake_move (g : Game A) : Except Halt (Game A) := do
  let g ← advance g
  let dead ← is_snake_dead g
  let g := { g with is_game_over := dead }
  let g ← if g.is_game_over ≠ 0 then «over» g else .ok g
  feed g

end Heap

/-- What the world brings on a tick: the size of the terminal, numbers and
memory. -/
structure Tick (A : Type) where
  LINES : ℤ
  COLS : ℤ
  rand : List ℕ
  supply : List (A × Cell A Pos)

inductive Event (A : Type) where
  | order (c : Char)
  | alarm (t : Tick A)

def bring (t : Tick A) (g : Game A) : Game A :=
  { g with LINES := t.LINES, COLS := t.COLS, rand := t.rand, supply := t.supply }

def getOrder (c : Char) (g : Game A) : Except Halt (Game A) :=
  match c with
  | 'a' => .ok { g with move_dir := .left }
  | 'd' => .ok { g with move_dir := .right }
  | 'w' => .ok { g with move_dir := .up }
  | 's' => .ok { g with move_dir := .down }
  | 'q' => .error .quit
  | _ => .ok g

/-- The variables before `main`. -/
def boot : Game A where
  mem := fun _ => none
  pSnakeHead := none
  pSnakeTail := none
  pSnakeTrace := none
  pSnakeFood := none
  move_dir := .right
  is_game_over := 0
  current_score := 0
  level := ⟨0,by decide⟩
  life := 3
  LINES := 0
  COLS := 0
  rand := []
  supply := []
  given := 0

section Game
variable [DecidableEq A]

def begin (t : Tick A) : Except Halt (Game A) := do
  let g ← init_snake (bring t boot)
  put_food g

def step (w : Except Halt (Game A)) (e : Event A) : Except Halt (Game A) := do
  let g ← w
  match e with
  | .order c => getOrder c g
  | .alarm t => snake_move (bring t g)

end Game

end BaseDrivers.CursesSnake
