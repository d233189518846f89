import Mathlib.Algebra.Ring.Nat
import BaseDrivers.BlockWrites
import BaseDrivers.Execution

/-!
# The RAM disk

The request function takes the requests of its queue one segment after
another and copies between the segment's buffer and the memory of the disk.
The disk behind it is the sequence of the writes completed so far.
-/

set_option autoImplicit false

namespace BaseDrivers.RamBlock
open BaseDrivers.Execution BaseDrivers.CircularBuffer BaseDrivers.BlockWrites

def RAMBLOCK_SIZE : ℕ := 1024*1024

/-- In sectors, as given to `set_capacity`. -/
def capacity : ℕ := RAMBLOCK_SIZE/512

inductive Dir where
  | READ
  | WRITE
  deriving DecidableEq, Repr

/-- A number of sectors, and the buffer the block layer has for them. -/
structure Segment where
  nr_sectors : UInt32
  buffer : List UInt8
  room : buffer.length = 512*nr_sectors.toNat

def sectors (segs : List Segment) : ℕ := (segs.map (fun seg => seg.nr_sectors.toNat)).sum

/-- A request stands at its current segment. The block layer lets no request
through that leaves the capacity. -/
structure Request where
  dir : Dir
  sector : UInt32
  current : Segment
  rest : List Segment
  inside : sector.toNat+sectors (current::rest) ≤ capacity

/-- The memory of the disk and the static counters of the request function. -/
structure Ramblock where
  ramblock_buf : List UInt8
  r_cnt : ℕ
  w_cnt : ℕ

/-- `kzalloc` gives zeroed memory. -/
def ramblock_init : Ramblock := ⟨List.replicate RAMBLOCK_SIZE 0,0,0⟩

/-- What `end_request` tells the block layer about a segment. -/
structure Completion where
  dir : Dir
  sector : ℕ
  buffer : List UInt8
  uptodate : ℤ
  deriving DecidableEq, Repr

theorem next_sector (req : Request) :
    (req.sector+req.current.nr_sectors).toNat =
      req.sector.toNat+req.current.nr_sectors.toNat := by
  have h := req.inside
  have hcap : capacity = 2048 := rfl
  simp only [sectors, List.map_cons, List.sum_cons] at h
  rw [UInt32.toNat_add]
  omega

/-- The request moves on to its next segment. Without one it leaves the queue. -/
def end_request (req : Request) (q : List Request) : List Request :=
  match h : req.rest with
  | [] => q
  | seg::rest =>
    { dir := req.dir
      sector := req.sector+req.current.nr_sectors
      current := seg
      rest := rest
      inside := by
        have hin := req.inside
        rw [h, sectors, List.map_cons, List.sum_cons] at hin
        rw [next_sector, Nat.add_assoc]
        exact hin } :: q

/-- One segment: the buffer and the disk after the copy. -/
def transfer (req : Request) (s : Ramblock) : Option (List UInt8 × Ramblock) :=
  let offset := req.sector <<< 9
  let len := req.current.nr_sectors <<< 9
  match req.dir with
  | .READ =>
    (memcpy req.current.buffer 0 s.ramblock_buf offset.toNat len.toNat).map
      fun b => (b,{ s with r_cnt := s.r_cnt+1 })
  | .WRITE =>
    (memcpy s.ramblock_buf offset.toNat req.current.buffer 0 len.toNat).map
      fun b => (req.current.buffer,{ s with ramblock_buf := b, w_cnt := s.w_cnt+1 })

/-- The requests left, the disk, and the segments completed. -/
structure Pass where
  queue : List Request
  disk : Ramblock
  done : List Completion

/-- A copy that leaves its buffer ends the loop without a result. -/
def turn (p : Pass) : Pass ⊕ Option Pass :=
  match p.queue with
  | [] => .inr (some p)
  | req::q =>
    match transfer req p.disk with
    | none => .inr none
    | some r =>
      .inl ⟨end_request req q,r.2,p.done++[⟨req.dir,req.sector.toNat,r.1,1⟩]⟩

/-- The segments of a queue. -/
def pending (q : List Request) : ℕ := (q.map (fun req => req.rest.length+1)).sum

/-- The last turn finds the queue empty. -/
def do_ramblock_request (q : List Request) (s : Ramblock) : Option Pass :=
  (loop turn (pending q+1) ⟨q,s,[]⟩).elim (fun _ => none) id

/-- The function called for one queue after another. -/
def calls : Ramblock → List (List Request) → Option (Ramblock × List Completion)
  | s, [] => some (s,[])
  | s, q::qs =>
    (do_ramblock_request q s).bind fun p => (calls p.disk qs).map fun r => (r.1,p.done++r.2)

/-- A segment as the disk sees it. -/
structure Access where
  dir : Dir
  sector : ℕ
  buffer : List UInt8
  deriving DecidableEq, Repr

def segment_accesses (dir : Dir) : ℕ → List Segment → List Access
  | _, [] => []
  | sector, seg::segs =>
    ⟨dir,sector,seg.buffer⟩ :: segment_accesses dir (sector+seg.nr_sectors.toNat) segs

def accesses (req : Request) : List Access :=
  segment_accesses req.dir req.sector.toNat (req.current::req.rest)

def writes (as : List Access) : List (Block UInt8) :=
  as.filterMap (fun a => match a.dir with
    | .READ => none
    | .WRITE => some ⟨512*a.sector,a.buffer⟩)

/-- What is due to a segment: for a read the last values written before it,
0 where there is none, and success for all. -/
def answer (earlier : List Access) (a : Access) : Completion where
  dir := a.dir
  sector := a.sector
  buffer := match a.dir with
    | .READ => (List.range a.buffer.length).map
        (fun i => (lastWrite (writes earlier) (512*a.sector+i)).getD 0)
    | .WRITE => a.buffer
  uptodate := 1

def answers : List Access → List Access → List Completion
  | _, [] => []
  | earlier, a::as => answer earlier a :: answers (earlier++[a]) as

/-- The memory is the writes completed so far. -/
def Stores (s : Ramblock) (earlier : List Access) : Prop :=
  Holds s.ramblock_buf RAMBLOCK_SIZE 0 (writes earlier)

/-- The current segment writes the byte. -/
def Changes (req : Request) (i : ℕ) : Prop :=
  req.dir = .WRITE ∧ 512*req.sector.toNat ≤ i ∧
    i < 512*(req.sector.toNat+req.current.nr_sectors.toNat)

def current_access (req : Request) : Access := ⟨req.dir,req.sector.toNat,req.current.buffer⟩

theorem shift_toNat (x : UInt32) (h : x.toNat ≤ capacity) : (x <<< 9).toNat = 512*x.toNat := by
  have hcap : capacity = 2048 := rfl
  rw [UInt32.toNat_shiftLeft, Nat.shiftLeft_eq, show (9 : UInt32).toNat%32 = 9 from rfl]
  omega

theorem current_inside (req : Request) :
    512*req.sector.toNat+512*req.current.nr_sectors.toNat ≤ RAMBLOCK_SIZE := by
  have h := req.inside
  have hcap : capacity*512 = RAMBLOCK_SIZE := rfl
  simp only [sectors, List.map_cons, List.sum_cons] at h
  omega

theorem offset_toNat (req : Request) : (req.sector <<< 9).toNat = 512*req.sector.toNat := by
  have h := current_inside req
  have hcap : capacity*512 = RAMBLOCK_SIZE := rfl
  exact shift_toNat req.sector (by omega)

theorem len_toNat (req : Request) :
    (req.current.nr_sectors <<< 9).toNat = 512*req.current.nr_sectors.toNat := by
  have h := current_inside req
  have hcap : capacity*512 = RAMBLOCK_SIZE := rfl
  exact shift_toNat req.current.nr_sectors (by omega)

theorem writes_concat_read (earlier : List Access) (sector : ℕ) (buffer : List UInt8) :
    writes (earlier++[⟨.READ,sector,buffer⟩]) = writes earlier := by
  simp [writes]

theorem writes_concat_write (earlier : List Access) (sector : ℕ) (buffer : List UInt8) :
    writes (earlier++[⟨.WRITE,sector,buffer⟩]) = writes earlier++[⟨512*sector,buffer⟩] := by
  simp [writes]

theorem transfer_read (req : Request) (s : Ramblock) (hdir : req.dir = .READ)
    (hlen : s.ramblock_buf.length = RAMBLOCK_SIZE) : transfer req s =
      some (CircularBuffer.segment s.ramblock_buf (512*req.sector.toNat) req.current.buffer.length,
        { s with r_cnt := s.r_cnt+1 }) := by
  have hin := current_inside req
  have hroom := req.current.room
  simp only [transfer, hdir, offset_toNat, len_toNat]
  rw [memcpy_eq _ _ _ _ _ (by omega) (by omega), Option.map_some, ← hroom, overwrite,
    length_segment _ _ _ (by omega)]
  simp

theorem transfer_write (req : Request) (s : Ramblock) (hdir : req.dir = .WRITE)
    (hlen : s.ramblock_buf.length = RAMBLOCK_SIZE) : transfer req s =
      some (req.current.buffer,
        { s with
          ramblock_buf := overwrite s.ramblock_buf (512*req.sector.toNat) req.current.buffer
          w_cnt := s.w_cnt+1 }) := by
  have hin := current_inside req
  have hroom := req.current.room
  have hwhole : CircularBuffer.segment req.current.buffer 0 (512*req.current.nr_sectors.toNat) =
      req.current.buffer := by
    rw [← hroom, CircularBuffer.segment, List.drop_zero, List.take_length]
  simp only [transfer, hdir, offset_toNat, len_toNat]
  rw [memcpy_eq _ _ _ _ _ (by omega) (by omega), Option.map_some, hwhole]

/-- The copies stay inside their buffers, a read finds the last writes and
a write becomes the last one. -/
theorem transfer_stores (req : Request) {s : Ramblock} {earlier : List Access}
    (h : Stores s earlier) : ∃ s', transfer req s =
      some ((answer earlier (current_access req)).buffer,s') ∧
        Stores s' (earlier++[current_access req]) := by
  have hin := current_inside req
  have hroom := req.current.room
  cases hdir : req.dir with
  | READ =>
    refine ⟨{ s with r_cnt := s.r_cnt+1 },?_,?_⟩
    · rw [transfer_read req s hdir h.length, segment_holds h _ _ (by omega)]
      simp only [answer, current_access, hdir]
    · rw [Stores, current_access, hdir, writes_concat_read]
      exact h
  | WRITE =>
    refine ⟨{ s with
      ramblock_buf := overwrite s.ramblock_buf (512*req.sector.toNat) req.current.buffer
      w_cnt := s.w_cnt+1 },?_,?_⟩
    · rw [transfer_write req s hdir h.length]
      simp only [answer, current_access, hdir]
    · rw [Stores, current_access, hdir, writes_concat_write]
      exact holds_overwrite h ⟨512*req.sector.toNat,req.current.buffer⟩ (by dsimp only; omega)

/-- No byte outside the extent of a write changes. -/
theorem transfer_frame (req : Request) {s s' : Ramblock} {b : List UInt8}
    (hlen : s.ramblock_buf.length = RAMBLOCK_SIZE) (h : transfer req s = some (b,s')) (i : ℕ)
    (hi : ¬ Changes req i) : s'.ramblock_buf[i]? = s.ramblock_buf[i]? := by
  have hin := current_inside req
  have hroom := req.current.room
  cases hdir : req.dir with
  | READ =>
    rw [transfer_read req s hdir hlen] at h
    cases h
    rfl
  | WRITE =>
    rw [transfer_write req s hdir hlen] at h
    cases h
    rw [getElem?_overwrite _ _ _ _ (by omega), if_neg]
    intro hc
    exact hi ⟨hdir,hc.1,by omega⟩

/-- A request leaves the queue after its last segment, else its next one is
current. -/
theorem end_request_cases (req : Request) (q : List Request) :
    req.rest = [] ∧ end_request req q = q ∨
      ∃ next : Request, end_request req q = next::q ∧ req.rest = next.current::next.rest ∧
        next.dir = req.dir ∧
        next.sector.toNat = req.sector.toNat+req.current.nr_sectors.toNat := by
  rw [end_request]
  split
  · next h => exact .inl ⟨h,rfl⟩
  · next seg rest h => exact .inr ⟨_,rfl,h,rfl,next_sector req⟩

theorem end_request_accesses (req : Request) (q : List Request) :
    (req::q).flatMap accesses = current_access req :: (end_request req q).flatMap accesses := by
  rw [List.flatMap_cons, accesses, segment_accesses, List.cons_append, current_access]
  congr 1
  rcases end_request_cases req q with ⟨hrest,hq⟩ | ⟨next,hq,hrest,hdir,hsector⟩
  · rw [hq, hrest]
    rfl
  · rw [hq, hrest, List.flatMap_cons, accesses, hdir, hsector]

theorem end_request_pending (req : Request) (q : List Request) :
    pending (req::q) = pending (end_request req q)+1 := by
  rw [pending, List.map_cons, List.sum_cons]
  rcases end_request_cases req q with ⟨hrest,hq⟩ | ⟨next,hq,hrest,-,-⟩
  · rw [hq, hrest, pending, List.length_nil]
    omega
  · rw [hq, hrest, pending, List.map_cons, List.sum_cons, List.length_cons]
    omega

/-- One turn answers one segment. -/
theorem turn_answers (req : Request) (q : List Request) {s : Ramblock} {earlier : List Access}
    (done : List Completion) (h : Stores s earlier) : ∃ s', turn ⟨req::q,s,done⟩ =
      .inl ⟨end_request req q,s',done++[answer earlier (current_access req)]⟩ ∧
        Stores s' (earlier++[current_access req]) := by
  obtain ⟨s',hcopy,hs'⟩ := transfer_stores req h
  refine ⟨s',?_,hs'⟩
  simp only [turn, hcopy]
  rfl

/-- The loop answers every segment of the queue and comes to its end. -/
theorem loop_answers (n : ℕ) (q : List Request) (s : Ramblock) (done : List Completion)
    (earlier : List Access) (hn : pending q = n) (h : Stores s earlier) :
    ∃ s', loop turn (n+1) ⟨q,s,done⟩ =
      .inr (some ⟨[],s',done++answers earlier (q.flatMap accesses)⟩) ∧
        Stores s' (earlier++q.flatMap accesses) := by
  induction n generalizing q s done earlier with
  | zero =>
    cases q with
    | nil =>
      refine ⟨s,?_,?_⟩
      · rw [List.flatMap_nil, answers, List.append_nil]
        rfl
      · rwa [List.flatMap_nil, List.append_nil]
    | cons req q => simp [pending] at hn
  | succ n ih =>
    cases q with
    | nil => simp [pending] at hn
    | cons req q =>
      rw [end_request_pending] at hn
      obtain ⟨s₁,hturn,hs₁⟩ := turn_answers req q done h
      obtain ⟨s',hloop,hs'⟩ := ih (end_request req q) s₁
        (done++[answer earlier (current_access req)]) _ (Nat.succ.inj hn) hs₁
      rw [loop_continue _ hturn, hloop, end_request_accesses, answers]
      refine ⟨s',?_,?_⟩
      · rw [List.append_assoc, List.singleton_append]
      · rwa [List.append_assoc, List.singleton_append] at hs'

theorem request_answers (q : List Request) {s : Ramblock} {earlier : List Access}
    (h : Stores s earlier) : ∃ s', do_ramblock_request q s =
      some ⟨[],s',answers earlier (q.flatMap accesses)⟩ ∧
        Stores s' (earlier++q.flatMap accesses) := by
  obtain ⟨s',hloop,hs'⟩ := loop_answers (pending q) q s [] earlier rfl h
  exact ⟨s',by rw [do_ramblock_request, hloop]; rfl,hs'⟩

theorem answers_append (earlier as bs : List Access) :
    answers earlier (as++bs) = answers earlier as++answers (earlier++as) bs := by
  induction as generalizing earlier with
  | nil => rw [List.append_nil]; rfl
  | cons a as ih =>
    rw [List.cons_append, answers, answers, ih, List.append_assoc]
    rfl

theorem calls_answer (qs : List (List Request)) {s : Ramblock} {earlier : List Access}
    (h : Stores s earlier) : ∃ s', calls s qs =
      some (s',answers earlier (qs.flatten.flatMap accesses)) ∧
        Stores s' (earlier++qs.flatten.flatMap accesses) := by
  induction qs generalizing s earlier with
  | nil => exact ⟨s,rfl,by rwa [List.flatten_nil, List.flatMap_nil, List.append_nil]⟩
  | cons q qs ih =>
    obtain ⟨s₁,hq,hs₁⟩ := request_answers q h
    obtain ⟨s',hqs,hs'⟩ := ih hs₁
    rw [List.flatten_cons, List.flatMap_append, answers_append, ← List.append_assoc]
    refine ⟨s',?_,hs'⟩
    rw [calls, hq, Option.bind_some, hqs]
    rfl

theorem init_stores : Stores ramblock_init [] := holds_replicate RAMBLOCK_SIZE 0

/-- Over every sequence of calls the segments are completed with success and
in order, each read with the last values written before it; the memory is
left with the last writes, and the next segment changes its own extent only. -/
theorem ramblock_stores (qs : List (List Request)) :
    ∃ s, calls ramblock_init qs = some (s,answers [] (qs.flatten.flatMap accesses)) ∧
      (∀ i < RAMBLOCK_SIZE, s.ramblock_buf[i]? =
        some ((lastWrite (writes (qs.flatten.flatMap accesses)) i).getD 0)) ∧
      ∀ req, ∃ b s', transfer req s = some (b,s') ∧
        s'.ramblock_buf.length = RAMBLOCK_SIZE ∧
        ∀ i, ¬ Changes req i → s'.ramblock_buf[i]? = s.ramblock_buf[i]? := by
  obtain ⟨s,hcalls,hs⟩ := calls_answer qs init_stores
  rw [List.nil_append] at hs
  refine ⟨s,hcalls,hs.value,?_⟩
  intro req
  obtain ⟨s',hcopy,hs'⟩ := transfer_stores req hs
  exact ⟨_,s',hcopy,hs'.length,transfer_frame req hs.length hcopy⟩

end BaseDrivers.RamBlock
