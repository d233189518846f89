import Mathlib.Data.Int.Init
import Mathlib.Data.List.Chain
import Mathlib.Data.List.Nodup
import Mathlib.Tactic.SplitIfs
import BaseDrivers.Execution
import BaseDrivers.HeapList

/-!
# The snake on the framebuffer

Every turn puts a new segment before the head and takes the last one away,
unless the head has come to the food; then the game is over when the head is
on another segment or off the board.
-/

set_option autoImplicit false

namespace BaseDrivers.BoardSnake
open BaseDrivers.Execution BaseDrivers.HeapList

/-- `#define H 20` and `#define L 20` -/
def H : ℤ := 20
def L : ℤ := 20

def UP : BitVec 32 := 0x415b1b
def DOWN : BitVec 32 := 0x425b1b
def LEFT : BitVec 32 := 0x445b1b
def RIGHT : BitVec 32 := 0x435b1b
def ESC : BitVec 32 := 0x1b

/-- The values 0, 1, 2, 3 of `now`. -/
inductive Way where
  | up | down | left | right
  deriving DecidableEq, Repr

def addx : Way → ℤ
  | .up => -1
  | .down => 1
  | .left => 0
  | .right => 0

def addy : Way → ℤ
  | .up => 0
  | .down => 0
  | .left => -1
  | .right => 1

/-- `struct snake` without its pointer. -/
structure Segment where
  x : ℤ
  y : ℤ
  now : Way
  deriving DecidableEq, Repr

structure Food where
  x : ℤ
  y : ℤ
  deriving DecidableEq, Repr

/-- Why there is no state after a turn: an access through a pointer to no
segment, a walk that does not come to its end, or a free place for the food
not found yet. -/
inductive Halt where
  | null
  | endless
  | looking
  deriving DecidableEq, Repr

variable {A : Type} [DecidableEq A]

/-- The static variables and the memory. The last field counts the segments
that `malloc` has given. -/
structure Game (A : Type) where
  mem : Mem A Segment
  head : Option A
  food : Food
  jump : Bool
  n : ℤ
  given : ℕ

def deref (p : Option A) (g : Game A) : Except Halt (A × Cell A Segment) :=
  match p with
  | none => .error .null
  | some a =>
    match g.mem a with
    | none => .error .null
    | some c => .ok (a,c)

def store (a : A) (c : Cell A Segment) (g : Game A) : Game A :=
  { g with mem := Function.update g.mem a (some c) }

def free (a : A) (g : Game A) : Game A := { g with mem := Function.update g.mem a none }

/-- The result of a walk. One that takes more turns than there are segments
goes in a circle. -/
def walk {σ ρ : Type} (body : σ → σ ⊕ Except Halt ρ) (g : Game A) (s : σ) : Except Halt ρ :=
  match loop body (g.given+1) s with
  | .inl _ => .error .endless
  | .inr r => r

/-- One turn of the loops that look for a segment at a place. -/
def meet_turn (g : Game A) (x y : ℤ) (tmp : Option A) : Option A ⊕ Except Halt Bool :=
  match tmp with
  | none => .inr (.ok false)
  | some a =>
    match g.mem a with
    | none => .inr (.error .null)
    | some c => if c.value.x = x ∧ c.value.y = y then .inr (.ok true) else .inl c.next

/-- The first segment, at a place of the board. -/
def creat_snake (memory : A) (rx ry : ℕ) : Game A where
  mem := Function.update (fun _ => none) memory (some ⟨⟨rx % L,ry % H,.right⟩,none⟩)
  head := some memory
  food := ⟨0,0⟩
  jump := true
  n := 0
  given := 1

/-- The numbers are those that `rand` gives; at their end it is still asked
for more. -/
def creat_food : List ℕ → Game A → Except Halt (Game A)
  | rx::ry::rand, g => do
    let g := { g with food := ⟨rx % L,ry % H⟩ }
    if ← walk (meet_turn g g.food.x g.food.y) g g.head then creat_food rand g else .ok g
  | _, _ => .error .looking

def move_add (memory : A) (g : Game A) : Except Halt (Game A) := do
  let (_,c) ← deref g.head g
  let tmp : Segment := ⟨c.value.x+addx c.value.now,c.value.y+addy c.value.now,c.value.now⟩
  .ok { store memory ⟨tmp,g.head⟩ g with head := some memory, given := g.given+1 }

/-- One turn of the loop in `move_del`, with `tmpp` and `tmp`. -/
def last_turn (g : Game A) : A × A → (A × A) ⊕ Except Halt (A × A)
  | (tmpp,tmp) =>
    match g.mem tmp with
    | none => .inr (.error .null)
    | some c =>
      match c.next with
      | none => .inr (.ok (tmpp,tmp))
      | some q => .inl (tmp,q)

def move_del (g : Game A) : Except Halt (Game A) := do
  let (h,_) ← deref g.head g
  let (tmpp,tmp) ← walk (last_turn g) g (h,h)
  let g := free tmp g
  let (a,c) ← deref (some tmpp) g
  .ok (store a ⟨c.value,none⟩ g)

/-- `if(head->now != back) head->now = way;` -/
def look (way back : Way) (g : Game A) : Except Halt (Game A) := do
  let (h,c) ← deref g.head g
  if c.value.now ≠ back then .ok (store h ⟨{ c.value with now := way },c.next⟩ g) else .ok g

/-- The key that was read before the time was up, if there was one. -/
def click (key : Option (BitVec 32)) (g : Game A) : Except Halt (Game A) :=
  match key with
  | none => .ok g
  | some key =>
    if key = UP then look .up .down g
    else if key = DOWN then look .down .up g
    else if key = LEFT then look .left .right g
    else if key = RIGHT then look .right .left g
    else if key = ESC then .ok { g with jump := false }
    else .ok g

def check_over (g : Game A) : Except Halt (Game A) := do
  let (_,c) ← deref g.head g
  if ← walk (meet_turn g c.value.x c.value.y) g c.next then .ok { g with jump := false }
  else if c.value.x < 0 ∨ c.value.x > L ∨ c.value.y < 0 ∨ c.value.y > H then
    .ok { g with jump := false }
  else .ok g

/-- What the world brings in a turn: a key, the memory for a segment, and the
numbers for the food. -/
structure Turn (A : Type) where
  key : Option (BitVec 32)
  memory : A
  rand : List ℕ

/-- The loop of `main`. -/
def turn (e : Turn A) (g : Game A) : Except Halt (Game A) :=
  if g.jump then do
    let g ← click e.key g
    let g ← move_add e.memory g
    let (_,c) ← deref g.head g
    let g ← if g.food.x ≠ c.value.x ∨ g.food.y ≠ c.value.y then move_del g
      else do
        let g ← creat_food e.rand g
        .ok { g with n := g.n+1 }
    check_over g
  else .ok g

def begin (memory : A) (rx ry : ℕ) (rand : List ℕ) : Except Halt (Game A) :=
  creat_food rand (creat_snake memory rx ry)

def step (w : Except Halt (Game A)) (e : Turn A) : Except Halt (Game A) := w.bind (turn e)

/-- `malloc` gives memory that is not in use. -/
def Admissible (w : Except Halt (Game A)) (e : Turn A) : Prop :=
  ∀ g, w = .ok g → g.mem e.memory = none

/-- A place of the board. -/
def On (c : ℤ × ℤ) : Prop := (0 ≤ c.1 ∧ c.1 < L) ∧ 0 ≤ c.2 ∧ c.2 < H

theorem rand_on (rx ry : ℕ) : On (rx % L,ry % H) :=
  ⟨⟨Int.emod_nonneg _ (by decide),Int.emod_lt_of_pos _ (by decide)⟩,
    Int.emod_nonneg _ (by decide),Int.emod_lt_of_pos _ (by decide)⟩

def Near (b c : ℤ × ℤ) : Prop := (b.1-c.1).natAbs+(b.2-c.2).natAbs = 1

/-- A snake on the board, given by its cells. -/
structure Snake (cs : List (ℤ × ℤ)) : Prop where
  inside : ∀ c ∈ cs, On c
  near : cs.IsChain Near
  distinct : cs.Nodup

/-- A snake goes to a near cell with some of the cells it had, from the first
one on. -/
theorem Snake.goes {b c : ℤ × ℤ} {cs ds : List (ℤ × ℤ)} (h : Snake (c::cs)) (hb : On b)
    (hnear : Near b c) (hpart : ds <+: c::cs) (hnew : b ∉ ds) : Snake (b::ds) where
  inside := by
    intro d hd
    rcases List.mem_cons.mp hd with rfl | hd
    · exact hb
    · exact h.inside d (hpart.subset hd)
  near := by
    cases ds with
    | nil => exact .singleton b
    | cons d ds =>
      obtain ⟨es,hes⟩ := hpart
      obtain ⟨rfl,-⟩ := List.cons.inj hes
      exact .cons_cons hnear (hes ▸ h.near).left_of_append
  distinct := List.nodup_cons.mpr ⟨hnew,h.distinct.sublist hpart.sublist⟩

def place (s : Segment) : ℤ × ℤ := (s.x,s.y)

def cells (xs : List (A × Segment)) : List (ℤ × ℤ) := (values xs).map place

/-- The way of the head after a key. -/
def toward (way back now : Way) : Way := if now ≠ back then way else now

def faced (key : Option (BitVec 32)) (now : Way) : Way :=
  match key with
  | none => now
  | some key =>
    if key = UP then toward .up .down now
    else if key = DOWN then toward .down .up now
    else if key = LEFT then toward .left .right now
    else if key = RIGHT then toward .right .left now
    else now

section Parts
variable {g : Game A} {x : A × Segment} {xs : List (A × Segment)}

omit [DecidableEq A] in
theorem walk_result {σ ρ : Type} {body : σ → σ ⊕ Except Halt ρ} {s : σ} {r : Except Halt ρ}
    (h : loop body (g.given+1) s = .inr r) : walk body g s = r := by
  rw [walk, h]

omit [DecidableEq A] in
theorem deref_first (h : Path g.mem g.head (x::xs) none) :
    ∃ r, deref g.head g = .ok (x.1,⟨x.2,r⟩) ∧ g.mem x.1 = some ⟨x.2,r⟩ ∧
      Path g.mem r xs none := by
  obtain ⟨hp,r,hx,hrest⟩ := h
  exact ⟨r,by simp only [deref, hp, hx],hx,hrest⟩

omit [DecidableEq A] in
/-- The loops over the segments find out whether one is at a place. -/
theorem walk_meets {p : Option A} (h : Path g.mem p xs none) (hlen : xs.length ≤ g.given)
    (a b : ℤ) :
    walk (meet_turn g a b) g p = .ok (decide (∃ s ∈ values xs, s.x = a ∧ s.y = b)) := by
  apply walk_result
  rw [loop_finds (fun s : Segment => s.x = a ∧ s.y = b) (Except.ok true) (Except.ok false)
    _ rfl h _ (Nat.lt_succ_of_le hlen)]
  · by_cases hmeet : ∃ s ∈ values xs, s.x = a ∧ s.y = b
    · rw [if_pos hmeet, decide_eq_true hmeet]
    · rw [if_neg hmeet, decide_eq_false hmeet]
  · intro q c hc
    simp only [meet_turn, hc]

omit [DecidableEq A] in
/-- The food is put on the board where no segment is. -/
theorem creat_food_spec (h : Path g.mem g.head xs none) (hlen : xs.length ≤ g.given)
    (rand : List ℕ) : creat_food rand g = .error .looking ∨
      ∃ f : Food, creat_food rand g = .ok { g with food := f } ∧ On (f.x,f.y) := by
  fun_induction creat_food rand g with
  | case1 rx ry rand g f ih =>
    rw [walk_meets (g := f) h hlen]
    by_cases hmeet : ∃ s ∈ values xs, s.x = f.food.x ∧ s.y = f.food.y
    · rw [decide_eq_true hmeet]
      exact ih h hlen
    · rw [decide_eq_false hmeet]
      exact .inr ⟨f.food,rfl,rand_on rx ry⟩
  | case2 => exact .inl rfl

/-- The segment that comes before the head. -/
def ahead (s : Segment) : Segment := ⟨s.x+addx s.now,s.y+addy s.now,s.now⟩

theorem move_add_spec (h : Path g.mem g.head (x::xs) none) {a : A} (ha : g.mem a = none) :
    ∃ m, move_add a g = .ok { g with mem := m, head := some a, given := g.given+1 } ∧
      Path m (some a) ((a,ahead x.2)::x::xs) none := by
  obtain ⟨r,hx,-,-⟩ := deref_first h
  refine ⟨_,?_,path_cons (x := (a,ahead x.2)) h (fun hmem => path_allocated h hmem ha)⟩
  rw [move_add, hx]
  rfl

theorem move_del_spec {us : List (A × Segment)} {w v : A × Segment}
    (h : Path g.mem g.head (us++[w]++[v]) none) (hlen : us.length+2 ≤ g.given) :
    ∃ m, move_del g = .ok { g with mem := m } ∧ Path m g.head (us++[w]) none := by
  have hfree := path_free h
  have hnodup := path_nodup h
  rw [addresses_concat] at hnodup
  refine ⟨_,?_,path_set_end hfree (last_not_before (List.nodup_append.mp hnodup).1) none⟩
  obtain ⟨z,zs,hz⟩ : ∃ z zs, us++[w]++[v] = z::zs :=
    List.exists_cons_of_ne_nil (List.append_ne_nil_of_right_ne_nil _ (List.cons_ne_nil v []))
  have hzs : zs.length < g.given+1 := by
    have hlength := congrArg List.length hz
    simp at hlength
    omega
  rw [hz] at h
  obtain ⟨r,hfirst,-,-⟩ := deref_first h
  have hsplit : z::z::zs = z::us++[w,v] := by
    rw [List.cons_append, ← hz, List.append_assoc]
    rfl
  have hwalk : walk (last_turn g) g (z.1,z.1) = .ok (w.1,v.1) := by
    apply walk_result
    apply loop_last_two (m := g.mem) Except.ok _ _ (h.1 ▸ h) hsplit _ hzs
    · intro p a q s ha
      simp only [last_turn, ha]
    · intro p a s ha
      simp only [last_turn, ha]
  rw [move_del, hfirst]
  simp only [bind, Except.bind, hwalk, free, deref, (path_last.mp hfree).2]
  rfl

theorem look_spec (h : Path g.mem g.head (x::xs) none) (way back : Way) :
    ∃ m, look way back g = .ok { g with mem := m } ∧
      Path m g.head ((x.1,{ x.2 with now := toward way back x.2.now })::xs) none ∧
      ∀ a, g.mem a = none → m a = none := by
  obtain ⟨r,hx,hcell,-⟩ := deref_first h
  rw [look, hx]
  by_cases hback : x.2.now = back
  · refine ⟨g.mem,?_,?_,fun a ha => ha⟩
    · exact if_neg (not_not_intro hback)
    · rw [toward, if_neg (not_not_intro hback)]
      exact h
  · refine ⟨_,?_,path_set_first h hcell _,?_⟩
    · rw [toward, if_pos hback]
      exact if_pos hback
    · intro a ha
      rwa [Function.update_of_ne]
      rintro rfl
      exact Option.some_ne_none _ (hcell.symm.trans ha)

theorem click_spec (h : Path g.mem g.head (x::xs) none) (key : Option (BitVec 32)) :
    ∃ m, click key g = .ok { g with mem := m, jump := g.jump && decide (key ≠ some ESC) } ∧
      Path m g.head ((x.1,{ x.2 with now := faced key x.2.now })::xs) none ∧
      ∀ a, g.mem a = none → m a = none := by
  have hon {k : Option (BitVec 32)} (hk : k ≠ some ESC) :
      (g.jump && decide (k ≠ some ESC)) = g.jump := by rw [decide_eq_true hk, Bool.and_true]
  cases key with
  | none =>
    rw [hon (by decide)]
    exact ⟨g.mem,rfl,h,fun a ha => ha⟩
  | some key =>
    rw [click, faced]
    split_ifs with hup hdown hleft hright hesc
    · rw [hon (by rw [hup]; decide)]
      exact look_spec h .up .down
    · rw [hon (by rw [hdown]; decide)]
      exact look_spec h .down .up
    · rw [hon (by rw [hleft]; decide)]
      exact look_spec h .left .right
    · rw [hon (by rw [hright]; decide)]
      exact look_spec h .right .left
    · exact ⟨g.mem,by rw [hesc, decide_eq_false (by decide), Bool.and_false],h,fun a ha => ha⟩
    · rw [hon (fun hkey => hesc (Option.some.inj hkey))]
      exact ⟨g.mem,rfl,h,fun a ha => ha⟩

/-- The head is on another segment or off the board, as the code has it. -/
def Over (s : Segment) (others : List Segment) : Prop :=
  (∃ v ∈ others, v.x = s.x ∧ v.y = s.y) ∨ s.x < 0 ∨ s.x > L ∨ s.y < 0 ∨ s.y > H

instance (s : Segment) (others : List Segment) : Decidable (Over s others) :=
  inferInstanceAs (Decidable (_ ∨ _))

omit [DecidableEq A] in
theorem check_over_spec (h : Path g.mem g.head (x::xs) none) (hlen : xs.length ≤ g.given) :
    check_over g = .ok { g with jump := g.jump && decide (¬ Over x.2 (values xs)) } := by
  obtain ⟨r,hx,-,hrest⟩ := deref_first h
  rw [check_over, hx]
  simp only [bind, Except.bind, walk_meets hrest hlen]
  by_cases hmeet : ∃ s ∈ values xs, s.x = x.2.x ∧ s.y = x.2.y
  · have hover : Over x.2 (values xs) := .inl hmeet
    rw [if_pos (decide_eq_true hmeet), decide_eq_false (not_not_intro hover), Bool.and_false]
  · have hover : Over x.2 (values xs) ↔ x.2.x < 0 ∨ x.2.x > L ∨ x.2.y < 0 ∨ x.2.y > H :=
      or_iff_right hmeet
    rw [if_neg (by simpa using hmeet)]
    split_ifs with hedge
    · rw [decide_eq_false (not_not_intro (hover.mpr hedge)), Bool.and_false]
    · have hnot : ¬ Over x.2 (values xs) := fun h => hedge (hover.mp h)
      rw [decide_eq_true hnot, Bool.and_true]

/-- The game after `click` and `move_add`, in a memory. -/
def moved (e : Turn A) (m : Mem A Segment) (g : Game A) : Game A :=
  { g with mem := m, head := some e.memory, jump := decide (e.key ≠ some ESC),
           given := g.given+1 }

def looked (e : Turn A) (s : Segment) : Segment := { s with now := faced e.key s.now }

theorem turn_moves {e : Turn A} (hjump : g.jump = true) (h : Path g.mem g.head (x::xs) none)
    (he : g.mem e.memory = none) :
    ∃ m, Path m (some e.memory)
        ((e.memory,ahead (looked e x.2))::(x.1,looked e x.2)::xs) none ∧
      turn e g = (if g.food.x ≠ (ahead (looked e x.2)).x ∨ g.food.y ≠ (ahead (looked e x.2)).y
        then move_del (moved e m g)
        else (creat_food e.rand (moved e m g)).bind fun g => .ok { g with n := g.n+1 }).bind
          check_over := by
  obtain ⟨m,hclick,hm,hkept⟩ := click_spec h e.key
  rw [hjump, Bool.true_and] at hclick
  obtain ⟨m',hadd,hm'⟩ := move_add_spec
    (g := { g with mem := m, jump := decide (e.key ≠ some ESC) }) hm (hkept _ he)
  have hmoved : move_add e.memory { g with mem := m, jump := decide (e.key ≠ some ESC) } =
      .ok (moved e m' g) := hadd
  obtain ⟨r,hfirst,-,-⟩ := deref_first (g := moved e m' g) hm'
  refine ⟨m',hm',?_⟩
  rw [turn, if_pos hjump, hclick]
  simp only [bind, Except.bind, hmoved, hfirst]
  by_cases hfood : g.food.x ≠ (ahead (looked e x.2)).x ∨ g.food.y ≠ (ahead (looked e x.2)).y
  · rw [if_pos hfood]
    exact if_pos hfood
  · rw [if_neg hfood]
    refine (if_neg hfood).trans ?_
    cases creat_food e.rand (moved e m' g) with
    | error => rfl
    | ok => rfl

/-- What a turn that eats leaves. -/
theorem turn_eats {e : Turn A} (hjump : g.jump = true) (h : Path g.mem g.head (x::xs) none)
    (hlen : (x::xs).length ≤ g.given) (he : g.mem e.memory = none)
    (hfood : g.food.x = (ahead (looked e x.2)).x ∧ g.food.y = (ahead (looked e x.2)).y) :
    turn e g = .error .looking ∨ ∃ (m : Mem A Segment) (f : Food), turn e g =
      .ok { moved e m g with
        food := f
        n := g.n+1
        jump := decide (e.key ≠ some ESC) &&
          decide (¬ Over (ahead (looked e x.2)) (looked e x.2::values xs)) } ∧
      On (f.x,f.y) ∧
      Path m (some e.memory) ((e.memory,ahead (looked e x.2))::(x.1,looked e x.2)::xs) none := by
  obtain ⟨m,hm,hturn⟩ := turn_moves hjump h he
  rw [hturn, if_neg (by rw [hfood.1, hfood.2]; simp)]
  rcases creat_food_spec (g := moved e m g) hm (Nat.succ_le_succ hlen) e.rand with hlook | hput
  · left
    rw [hlook]
    rfl
  · right
    obtain ⟨f,hf,hplace⟩ := hput
    refine ⟨m,f,?_,hplace,hm⟩
    rw [hf]
    exact check_over_spec (g := { moved e m g with food := f, n := g.n+1 }) hm
      (Nat.le_succ_of_le hlen)

/-- What a turn that does not eat leaves. -/
theorem turn_goes {e : Turn A} (hjump : g.jump = true) (h : Path g.mem g.head (x::xs) none)
    (hlen : (x::xs).length ≤ g.given) (he : g.mem e.memory = none)
    (hfood : ¬ (g.food.x = (ahead (looked e x.2)).x ∧ g.food.y = (ahead (looked e x.2)).y)) :
    ∃ m, turn e g = .ok { moved e m g with
        jump := decide (e.key ≠ some ESC) &&
          decide (¬ Over (ahead (looked e x.2)) (values ((x.1,looked e x.2)::xs).dropLast)) } ∧
      Path m (some e.memory)
        ((e.memory,ahead (looked e x.2))::((x.1,looked e x.2)::xs).dropLast) none := by
  obtain ⟨m,hm,hturn⟩ := turn_moves hjump h he
  have hlast : (x.1,looked e x.2)::xs = ((x.1,looked e x.2)::xs).dropLast++[_] :=
    (List.dropLast_append_getLast (List.cons_ne_nil _ _)).symm
  generalize hys : ((x.1,looked e x.2)::xs).dropLast = ys at hlast ⊢
  obtain ⟨us,w,hus⟩ : ∃ us w, (e.memory,ahead (looked e x.2))::ys = us++[w] :=
    ⟨_,_,(List.dropLast_append_getLast (List.cons_ne_nil _ _)).symm⟩
  have hshort : us.length = ys.length ∧ ys.length = xs.length := by
    have hlength := congrArg List.length hlast
    have hlength' := congrArg List.length hus
    simp at hlength hlength'
    omega
  rw [hlast, ← List.cons_append, hus] at hm
  obtain ⟨m',hdel,hm'⟩ := move_del_spec (g := moved e m g) hm (by
    rw [hshort.1, hshort.2]
    exact Nat.succ_le_succ hlen)
  rw [← hus] at hm'
  refine ⟨m',?_,hm'⟩
  rw [hturn, if_pos (Decidable.not_and_iff_or_not.mp hfood), hdel]
  exact check_over_spec (g := moved e m' g) hm' (by
    rw [hshort.2]
    exact Nat.le_of_succ_le (Nat.le_succ_of_le hlen))

/-- What a turn leaves that comes to its end. -/
structure Turned (e : Turn A) (g : Game A) (x : A × Segment) (xs ys : List (A × Segment))
    (g' : Game A) : Prop where
  path : Path g'.mem g'.head ((e.memory,ahead (looked e x.2))::ys) none
  part : ys <+: (x.1,looked e x.2)::xs
  jump : g'.jump = (decide (e.key ≠ some ESC) &&
    decide (¬ Over (ahead (looked e x.2)) (values ys)))
  count : (ys.length : ℤ) = xs.length+(g'.n-g.n)
  given : g'.given = g.given+1
  food : On (g.food.x,g.food.y) → On (g'.food.x,g'.food.y)

theorem turn_turned {e : Turn A} (hjump : g.jump = true) (h : Path g.mem g.head (x::xs) none)
    (hlen : (x::xs).length ≤ g.given) (he : g.mem e.memory = none) :
    (turn e g = .error .looking ∧ (g.food.x,g.food.y) = place (ahead (looked e x.2))) ∨
      ∃ g' ys, turn e g = .ok g' ∧ Turned e g x xs ys g' := by
  by_cases hfood : g.food.x = (ahead (looked e x.2)).x ∧ g.food.y = (ahead (looked e x.2)).y
  · rcases turn_eats hjump h hlen he hfood with hlook | heats
    · exact .inl ⟨hlook,Prod.ext hfood.1 hfood.2⟩
    · obtain ⟨m,f,hg,hf,hm⟩ := heats
      have heaten : (((x.1,looked e x.2)::xs).length : ℤ) = xs.length+(g.n+1-g.n) := by
        rw [List.length_cons]
        omega
      exact .inr ⟨_,_,hg,hm,List.prefix_rfl,rfl,heaten,rfl,fun _ => hf⟩
  · obtain ⟨m,hg,hm⟩ := turn_goes hjump h hlen he hfood
    exact .inr ⟨_,_,hg,hm, List.dropLast_prefix _,rfl,by simp [moved],rfl,id⟩

/-- The state of a game that goes on. -/
structure Good (g : Game A) (xs : List (A × Segment)) : Prop where
  path : Path g.mem g.head xs none
  snake : Snake (cells xs)
  count : (xs.length : ℤ) = g.n+1

theorem ahead_near (s : Segment) : Near (place (ahead s)) (place s) := by
  rw [Near, place, place, ahead]
  cases s.now with
  | _ =>
    simp only [addx, addy]
    omega

/-- The head does not leave the board by its sides of large coordinates. -/
def Stays (e : Turn A) (s : Segment) : Prop :=
  ¬ (s.x = L-1 ∧ faced e.key s.now = .down) ∧ ¬ (s.y = H-1 ∧ faced e.key s.now = .right)

theorem on_iff (c : ℤ × ℤ) : On c ↔ (0 ≤ c.1 ∧ c.1 < 20) ∧ 0 ≤ c.2 ∧ c.2 < 20 := Iff.rfl

omit [DecidableEq A] in
theorem ahead_stays {e : Turn A} {s : Segment} (h : On (place s)) :
    Stays e s ↔ (ahead (looked e s)).x ≠ L ∧ (ahead (looked e s)).y ≠ H := by
  obtain ⟨hx,hy⟩ := (on_iff _).mp h
  simp only [place] at hx hy
  rw [Stays, ahead, looked, L, H]
  cases faced e.key s.now with
  | _ =>
    simp only [addx, addy]
    grind

omit [DecidableEq A] in
theorem stays_of_on {e : Turn A} {s : Segment} (h : On (place s))
    (hahead : On (place (ahead (looked e s)))) : Stays e s :=
  (ahead_stays h).mpr ⟨Int.ne_of_lt hahead.1.2,Int.ne_of_lt hahead.2.2⟩

omit [DecidableEq A] in
/-- The test for the end takes the cells behind these sides for cells of the
board. -/
theorem ahead_leaves {e : Turn A} {s : Segment} (h : On (place s)) (hstays : ¬ Stays e s) :
    ¬ ((ahead (looked e s)).x < 0 ∨ (ahead (looked e s)).x > L ∨
      (ahead (looked e s)).y < 0 ∨ (ahead (looked e s)).y > H) := by
  obtain ⟨hx,hy⟩ := (on_iff _).mp h
  simp only [place] at hx hy
  rw [Stays] at hstays
  rw [ahead, looked, L, H] at *
  cases hway : faced e.key s.now with
  | _ =>
    simp only [addx, addy]
    grind

theorem over_iff {t : Segment} {vs : List Segment} (hx : t.x ≠ L) (hy : t.y ≠ H) :
    ¬ Over t vs ↔ On (place t) ∧ place t ∉ vs.map place := by
  have hmeet : (∃ v ∈ vs, v.x = t.x ∧ v.y = t.y) ↔ place t ∈ vs.map place := by
    simp only [List.mem_map, place, Prod.mk.injEq]
  rw [Over, hmeet, on_iff, not_or, And.comm]
  apply and_congr_left
  intro _
  clear hmeet
  rw [L] at hx
  rw [H] at hy
  simp only [place, L, H]
  omega

end Parts

/-- What the state has to be while the game goes on; a search for a free place
that has not come to its end is no state. -/
def Kept : Except Halt (Game A) → Prop
  | .ok g => g.jump = true → ∃ xs, Good g xs
  | .error e => e = .looking

/-- No turn in which the game goes on takes the head off the board by its
sides of large coordinates. -/
def Clear (w : Except Halt (Game A)) (e : Turn A) : Prop :=
  ∀ g, w = .ok g → g.jump = true → e.key ≠ some ESC →
    ∀ a c, g.head = some a → g.mem a = some c → Stays e c.value

/-- What is kept of a game that goes on, on the board or not. -/
def Fit : Except Halt (Game A) → Prop
  | .ok g => g.jump = true → On (g.food.x,g.food.y) ∧
      ∃ x xs, Path g.mem g.head (x::xs) none ∧ (x::xs).length ≤ g.given
  | .error _ => True

theorem step_fit {w : Except Halt (Game A)} {e : Turn A} (hw : Fit w) (he : Admissible w e) :
    Fit (step w e) := by
  cases w with
  | error => trivial
  | ok g =>
    change Fit (turn e g)
    cases hjump : g.jump with
    | false =>
      rw [turn, if_neg (by rw [hjump]; decide)]
      exact hw
    | true =>
      obtain ⟨hfood,x,xs,hpath,hlen⟩ := hw hjump
      rcases turn_turned hjump hpath hlen (he g rfl) with ⟨hlook,-⟩ | ⟨g',ys,hg',ht⟩
      · rw [hlook]
        trivial
      · rw [hg']
        refine fun _ => ⟨ht.food hfood,_,_,ht.path,?_⟩
        rw [ht.given, List.length_cons]
        exact Nat.succ_le_succ (Nat.le_trans ht.part.length_le hlen)

omit [DecidableEq A] in
/-- While the head does not leave the board by the two sides, a turn that does
not end the game is a move of the snake on the board. -/
theorem turn_kept {e : Turn A} {g g' : Game A} {x : A × Segment} {xs ys : List (A × Segment)}
    (h : Good g (x::xs)) (ht : Turned e g x xs ys g') (hstays : e.key ≠ some ESC → Stays e x.2)
    (hjump : g'.jump = true) : Good g' ((e.memory,ahead (looked e x.2))::ys) := by
  rw [ht.jump, Bool.and_eq_true, decide_eq_true_iff, decide_eq_true_iff] at hjump
  have hon : On (place x.2) := h.snake.inside _ List.mem_cons_self
  obtain ⟨hx,hy⟩ := (ahead_stays hon).mp (hstays hjump.1)
  obtain ⟨hahead,hnew⟩ := (over_iff hx hy).mp hjump.2
  have hpart : cells ys <+: place x.2::cells xs := (ht.part.map Prod.snd).map place
  constructor
  · exact ht.path
  · exact h.snake.goes hahead (ahead_near (looked e x.2)) hpart hnew
  · have hcount := ht.count
    have hbefore := h.count
    rw [List.length_cons] at hbefore ⊢
    omega

omit [DecidableEq A] in
/-- A head off the board by these sides does not end the game. -/
theorem turn_lost {e : Turn A} {g g' : Game A} {x : A × Segment} {xs ys : List (A × Segment)}
    (h : Good g (x::xs)) (ht : Turned e g x xs ys g') (hkey : e.key ≠ some ESC)
    (hstays : ¬ Stays e x.2) : g'.jump = true ∧ ∀ zs, ¬ Good g' zs := by
  have hon : On (place x.2) := h.snake.inside _ List.mem_cons_self
  have hleft : ¬ On (place (ahead (looked e x.2))) := fun hahead =>
    hstays (stays_of_on hon hahead)
  have hpart : cells ys <+: place x.2::cells xs := (ht.part.map Prod.snd).map place
  constructor
  · rw [ht.jump, Bool.and_eq_true, decide_eq_true_iff, decide_eq_true_iff]
    refine ⟨hkey,not_or.mpr ⟨?_,ahead_leaves hon hstays⟩⟩
    rintro ⟨v,hv,hvx,hvy⟩
    have hcell : place v ∈ cells ys := List.mem_map_of_mem hv
    rw [place, hvx, hvy] at hcell
    exact hleft (h.snake.inside _ (hpart.subset hcell))
  · intro zs hz
    obtain rfl := path_unique ht.path hz.path
    exact hleft (hz.snake.inside _ List.mem_cons_self)

omit [DecidableEq A] in
theorem clear_iff {e : Turn A} {g : Game A} {x : A × Segment} {xs : List (A × Segment)}
    (hjump : g.jump = true) (h : Path g.mem g.head (x::xs) none) :
    Clear (.ok g) e ↔ (e.key ≠ some ESC → Stays e x.2) := by
  obtain ⟨hp,r,hx,-⟩ := h
  constructor
  · exact fun hclear hkey => hclear g rfl hjump hkey x.1 ⟨x.2,r⟩ hp hx
  · intro hstays g' hg _ hkey a c ha hc
    obtain rfl := Except.ok.inj hg
    obtain rfl := Option.some.inj (hp.symm.trans ha)
    obtain rfl := Option.some.inj (hx.symm.trans hc)
    exact hstays hkey

theorem step_kept_iff {w : Except Halt (Game A)} {e : Turn A} (hw : Fit w) (hk : Kept w)
    (he : Admissible w e) : Kept (step w e) ↔ Clear w e := by
  cases w with
  | error r =>
    exact iff_of_true hk (fun g hg => nomatch hg)
  | ok g =>
    change Kept (turn e g) ↔ _
    cases hjump : g.jump with
    | false =>
      rw [turn, if_neg (by rw [hjump]; decide)]
      refine iff_of_true hk ?_
      rintro g' hg hjump'
      obtain rfl := Except.ok.inj hg
      rw [hjump] at hjump'
      cases hjump'
    | true =>
      obtain ⟨hfood,x,xs,hpath,hlen⟩ := hw hjump
      obtain ⟨zs,hgood⟩ := hk hjump
      obtain rfl := path_unique hgood.path hpath
      rw [clear_iff hjump hpath]
      rcases turn_turned hjump hpath hlen (he g rfl) with ⟨hlook,hat⟩ | ⟨g',ys,hg',ht⟩
      · rw [hlook]
        refine iff_of_true rfl (fun _ => ?_)
        exact stays_of_on (hgood.snake.inside _ List.mem_cons_self) (hat ▸ hfood)
      · rw [hg']
        constructor
        · intro hkept hkey
          by_contra hstays
          obtain ⟨hgo,hlost⟩ := turn_lost hgood ht hkey hstays
          obtain ⟨zs,hz⟩ := hkept hgo
          exact hlost zs hz
        · exact fun hstays hgo => ⟨_,turn_kept hgood ht hstays hgo⟩

theorem first_path (memory : A) (rx ry : ℕ) :
    Path (creat_snake memory rx ry).mem (creat_snake memory rx ry).head
      [(memory,⟨rx % L,ry % H,.right⟩)] none :=
  ⟨rfl,none,Function.update_self (f := fun _ => none) memory _,rfl⟩

theorem begin_cases (memory : A) (rx ry : ℕ) (rand : List ℕ) :
    begin memory rx ry rand = .error .looking ∨ ∃ f : Food,
      begin memory rx ry rand = .ok { creat_snake memory rx ry with food := f } ∧
        On (f.x,f.y) :=
  creat_food_spec (first_path memory rx ry) (Nat.le_refl 1) rand

theorem begin_kept (memory : A) (rx ry : ℕ) (rand : List ℕ) :
    Fit (begin memory rx ry rand) ∧ Kept (begin memory rx ry rand) := by
  rcases begin_cases memory rx ry rand with hlook | ⟨f,hf,hon⟩
  · rw [hlook]
    exact ⟨trivial,rfl⟩
  · rw [hf]
    have hpath := first_path memory rx ry
    refine ⟨fun _ => ⟨hon,_,_,hpath,Nat.le_refl 1⟩,fun _ => ⟨_,hpath,?_,rfl⟩⟩
    constructor
    · rintro c hc
      obtain rfl := List.mem_singleton.mp hc
      exact rand_on rx ry
    · exact .singleton _
    · exact List.nodup_singleton _

/-- As long as the game goes on the segments are apart and near one after
another on the board, one more than the score, exactly while no turn takes the
head from the last row down or from the last column to the right. -/
theorem stays_on_board_iff (memory : A) (rx ry : ℕ) (rand : List ℕ) (es : List (Turn A))
    (hadm : Along step Admissible (begin memory rx ry rand) es) :
    Always step Kept (begin memory rx ry rand) es ↔
      Along step Clear (begin memory rx ry rand) es := by
  obtain ⟨hfit,hkept⟩ := begin_kept memory rx ry rand
  exact always_iff_along_of Fit Kept (fun w e hw _ he _ => step_fit hw he)
    (fun w e hw hk he => step_kept_iff hw hk he) _ es hfit hkept hadm

instance (w : Except Halt (Game A)) (e : Turn A) : Decidable (Admissible w e) :=
  match w with
  | .error _ => .isTrue (fun _ hg => nomatch hg)
  | .ok g => decidable_of_iff (g.mem e.memory = none)
      ⟨fun h _ hg => Except.ok.inj hg ▸ h,fun h => h g rfl⟩

instance (e : Turn A) (s : Segment) : Decidable (Stays e s) := inferInstanceAs (Decidable (_ ∧ _))

instance (w : Except Halt (Game A)) (e : Turn A) : Decidable (Clear w e) :=
  match w with
  | .error _ => .isTrue (fun _ hg => nomatch hg)
  | .ok g => decidable_of_iff
      (g.jump = true → e.key ≠ some ESC → ∀ c ∈ g.head.bind g.mem, Stays e c.value) (by
        constructor
        · intro h g' hg hjump hkey a c ha hc
          obtain rfl := Except.ok.inj hg
          exact h hjump hkey c (by rw [ha]; exact hc)
        · intro h hjump hkey c hc
          obtain ⟨a,ha,hac⟩ := Option.bind_eq_some_iff.mp hc
          exact h g rfl hjump hkey a c ha hac)

theorem stays_on_board_two : Always step Kept (begin (0 : ℕ) 18 19 [19,18])
    [⟨some DOWN,1,[]⟩,⟨some LEFT,2,[3,3]⟩] :=
  (stays_on_board_iff 0 18 19 [19,18] [⟨some DOWN,1,[]⟩,⟨some LEFT,2,[3,3]⟩] (by decide)).mpr
    (by decide)

theorem last_column_left : Along step Admissible (begin (0 : ℕ) 0 19 [5,5]) [⟨none,1,[]⟩] ∧
    ¬ Always step Kept (begin (0 : ℕ) 0 19 [5,5]) [⟨none,1,[]⟩] := by
  obtain ⟨hfit,hkept⟩ := begin_kept (0 : ℕ) 0 19 [5,5]
  have hadm : Along step Admissible (begin (0 : ℕ) 0 19 [5,5]) [⟨none,1,[]⟩] := by decide
  refine ⟨hadm,fun h => ?_⟩
  have hclear : ¬ Clear (begin (0 : ℕ) 0 19 [5,5]) ⟨none,1,[]⟩ := by decide
  exact hclear ((step_kept_iff hfit hkept hadm.1).mp (h 1 (Nat.le_refl 1)))

end BaseDrivers.BoardSnake
