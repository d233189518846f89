import BaseDrivers.Execution

/-!
# A timer that every event starts again

A one-shot timer runs off a fixed time after it was started, and every start
puts the end off. It runs off once for each burst of starts, that time after
the last start of the burst.
-/

set_option autoImplicit false

namespace BaseDrivers.Retrigger
open BaseDrivers.Execution

/-- The clock, when the timer runs off, when it was started and when it ran
off. -/
structure Timer where
  now : ℕ
  due : Option ℕ
  starts : List ℕ
  fired : List ℕ
  deriving DecidableEq, Repr

def start (d : ℕ) (s : Timer) : Timer :=
  { s with due := some (s.now+d), starts := s.starts++[s.now] }

def expire (s : Timer) : Timer :=
  match s.due with
  | some e => if e ≤ s.now then { s with due := none, fired := s.fired++[s.now] } else s
  | none => s

def tick (s : Timer) : Timer := expire { s with now := s.now+1 }

/-- The ends of the bursts that are over: a start whose next one, if there is
one, does not come before the timer has run off. -/
def settled (d now : ℕ) : List ℕ → List ℕ
  | [] => []
  | [t] => if t+d ≤ now then [t+d] else []
  | t::u::ts => (if t+d ≤ u then [t+d] else [])++settled d now (u::ts)

/-- The end of the burst that is not over. -/
def awaited (d now : ℕ) (starts : List ℕ) : Option ℕ :=
  (starts.getLast?.map (·+d)).filter (now < ·)

variable {d : ℕ}

/-- One more start decides whether the burst before it is over. -/
theorem settled_start (hd : 0 < d) (now : ℕ) (ts : List ℕ) :
    settled d now (ts++[now]) = settled d now ts := by
  induction ts with
  | nil => exact if_neg (by omega)
  | cons t ts ih =>
    cases ts with
    | nil =>
      have hlast : (if now+d ≤ now then [now+d] else []) = [] := if_neg (by omega)
      show (if t+d ≤ now then [t+d] else [])++(if now+d ≤ now then [now+d] else []) = _
      rw [hlast, List.append_nil]
      rfl
    | cons u ts => exact congrArg ((if t+d ≤ u then [t+d] else [])++·) ih

theorem awaited_start (hd : 0 < d) (now : ℕ) (ts : List ℕ) :
    awaited d now (ts++[now]) = some (now+d) := by
  rw [awaited, List.getLast?_concat]
  exact Option.filter_some_pos (by simpa using hd)

/-- One more tick ends the last burst or none. -/
theorem settled_tick (now : ℕ) (ts : List ℕ) :
    settled d (now+1) ts =
      settled d now ts++if ts.getLast?.map (·+d) = some (now+1) then [now+1] else [] := by
  induction ts with
  | nil => rfl
  | cons t ts ih =>
    cases ts with
    | nil =>
      simp only [settled, List.getLast?_singleton, Option.map_some, Option.some.injEq]
      split_ifs <;> first | omega | simp_all
    | cons u ts =>
      rw [settled, settled, ih, List.append_assoc, List.getLast?_cons_cons]

/-- What the timer has done and is to do. -/
structure Retriggered (d : ℕ) (s : Timer) : Prop where
  fired : s.fired = settled d s.now s.starts
  due : s.due = awaited d s.now s.starts

theorem start_retriggered (hd : 0 < d) {s : Timer} (h : Retriggered d s) :
    Retriggered d (start d s) where
  fired := h.fired.trans (settled_start hd s.now s.starts).symm
  due := (awaited_start hd s.now s.starts).symm

theorem tick_idle {s : Timer} (h : s.due = none) : tick s = { s with now := s.now+1 } := by
  simp [tick, expire, h]

theorem tick_due {s : Timer} {e : ℕ} (h : s.due = some e) : tick s =
    if e ≤ s.now+1 then { s with now := s.now+1, due := none, fired := s.fired++[s.now+1] }
    else { s with now := s.now+1 } := by
  simp [tick, expire, h]

theorem tick_retriggered {s : Timer} (h : Retriggered d s) : Retriggered d (tick s) := by
  obtain ⟨hfired,hdue⟩ := h
  have hsettled := settled_tick (d := d) s.now s.starts
  cases hlast : s.starts.getLast? with
  | none =>
    rw [hlast] at hsettled
    have hnone : s.due = none := by rw [hdue, awaited, hlast]; rfl
    rw [tick_idle hnone]
    exact ⟨by rw [hfired, hsettled]; exact (List.append_nil _).symm,
      by rw [hnone, awaited, hlast]; rfl⟩
  | some t =>
    have hawaited (now : ℕ) : awaited d now s.starts = if now < t+d then some (t+d) else none := by
      rw [awaited, hlast]
      exact Option.filter_some.trans (by simp)
    rw [hlast] at hsettled
    simp only [Option.map_some, Option.some.injEq] at hsettled
    rw [hawaited] at hdue
    by_cases hnow : s.now < t+d
    · rw [if_pos hnow] at hdue
      rw [tick_due hdue]
      split_ifs with he
      · rw [if_pos (by omega)] at hsettled
        exact ⟨by rw [hfired, hsettled],((hawaited (s.now+1)).trans (if_neg (by omega))).symm⟩
      · rw [if_neg (by omega), List.append_nil] at hsettled
        exact ⟨by rw [hfired, hsettled],
          hdue.trans ((hawaited (s.now+1)).trans (if_pos (by omega))).symm⟩
    · rw [if_neg hnow] at hdue
      rw [if_neg (by omega), List.append_nil] at hsettled
      rw [tick_idle hdue]
      exact ⟨by rw [hfired, hsettled],
        hdue.trans ((hawaited (s.now+1)).trans (if_neg (by omega))).symm⟩

theorem new_retriggered (d now : ℕ) : Retriggered d ⟨now,none,[],[]⟩ := ⟨rfl,rfl⟩

end BaseDrivers.Retrigger
