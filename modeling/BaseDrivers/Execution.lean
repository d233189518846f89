import Mathlib.Data.List.Perm.Basic

/-!
# Bounded loops and runs of a transition function

A source loop is a body which either continues with a new state or leaves
with a result. The turn bound is supplied by the caller: a loop that is
still going when the turns are used up says so and produces no result.
A run applies one transition per input. Invariants, values kept by every
turn and simulations are stated once here and used by name.
-/

set_option autoImplicit false

namespace BaseDrivers.Execution

section Loop
variable {σ ρ α : Type*}

/-- At most `n` turns of a loop. The left summand is a state in which the
turns ran out, the right one the result of a loop that ended. -/
def loop (body : σ → σ ⊕ ρ) : ℕ → σ → σ ⊕ ρ
  | 0, s => .inl s
  | n+1, s =>
    match body s with
    | .inl s' => loop body n s'
    | .inr r => .inr r

theorem loop_continue {body : σ → σ ⊕ ρ} {s s' : σ} (n : ℕ) (h : body s = .inl s') :
    loop body (n+1) s = loop body n s' := by
  simp [loop, h]

theorem loop_leave {body : σ → σ ⊕ ρ} {s : σ} {r : ρ} (n : ℕ) (h : body s = .inr r) :
    loop body (n+1) s = .inr r := by
  simp [loop, h]

/-- A result is not changed by further turns. -/
theorem loop_mono {body : σ → σ ⊕ ρ} {n m : ℕ} {s : σ} {r : ρ}
    (h : loop body n s = .inr r) (hnm : n ≤ m) : loop body m s = .inr r := by
  induction n generalizing s m with
  | zero => simp [loop] at h
  | succ n ih =>
    obtain ⟨k,rfl⟩ : ∃ k, m = k+1 := ⟨m-1,by omega⟩
    cases hb : body s with
    | inl s' =>
      rw [loop_continue n hb] at h
      rw [loop_continue k hb]
      exact ih h (by omega)
    | inr r' =>
      rw [loop_leave n hb] at h
      rw [loop_leave k hb, h]

/-- The rule of total correctness. A state stands in relation to the value
still owed and to a bound on the turns; every turn keeps the value and
lowers the bound, and the result pays it. -/
theorem loop_owes {body : σ → σ ⊕ ρ} (R : σ → α → ℕ → Prop) (W : ρ → α)
    (hstep : ∀ s s' v k, R s v k → body s = .inl s' → ∃ k' < k, R s' v k')
    (hleave : ∀ s r v k, R s v k → body s = .inr r → W r = v)
    (n k : ℕ) (s : σ) (v : α) (hs : R s v k) (hn : k < n) :
    ∃ r, loop body n s = .inr r ∧ W r = v := by
  induction n generalizing s k with
  | zero => omega
  | succ n ih =>
    cases hb : body s with
    | inl s' =>
      obtain ⟨k',hk,hr⟩ := hstep s s' v k hs hb
      obtain ⟨r,hl,hw⟩ := ih k' s' hr (by omega)
      exact ⟨r,by rw [loop_continue n hb, hl],hw⟩
    | inr r => exact ⟨r,loop_leave n hb,hleave s r v k hs hb⟩

/-- What every turn keeps holds however the loop comes to its end. -/
theorem loop_keeps {body : σ → σ ⊕ ρ} (I : σ → Prop) (J : ρ → Prop)
    (hstep : ∀ s s', I s → body s = .inl s' → I s')
    (hleave : ∀ s r, I s → body s = .inr r → J r) (n : ℕ) (s : σ) (hs : I s) :
    (loop body n s).elim I J := by
  induction n generalizing s with
  | zero => exact hs
  | succ n ih =>
    cases hb : body s with
    | inl s' =>
      rw [loop_continue n hb]
      exact ih s' (hstep s s' hs hb)
    | inr r =>
      rw [loop_leave n hb]
      exact hleave s r hs hb

/-- A loop whose turns lower a measure comes to its end. -/
theorem loop_ends {body : σ → σ ⊕ ρ} (μ : σ → ℕ)
    (hstep : ∀ s s', body s = .inl s' → μ s' < μ s) (s : σ) :
    ∃ r, loop body (μ s+1) s = .inr r := by
  obtain ⟨r,hr,-⟩ := loop_owes (fun s (_ : Unit) k => μ s = k) (fun _ => ())
    (fun s s' _ _ hk hb => ⟨μ s',hk ▸ hstep s s' hb,rfl⟩) (fun _ _ _ _ _ _ => rfl)
    (μ s+1) (μ s) s () rfl (Nat.lt_succ_self _)
  exact ⟨r,hr⟩

/-- What holds after any number of turns, taken apart at the first one. -/
theorem loop_always {body : σ → σ ⊕ ρ} (I : σ → Prop) (J : ρ → Prop) (s : σ) :
    (∀ n, (loop body n s).elim I J) ↔
      I s ∧ (body s).elim (fun s' => ∀ n, (loop body n s').elim I J) J := by
  constructor
  · intro h
    constructor
    · exact h 0
    · cases hb : body s with
      | inl s' =>
        intro n
        have hn := h (n+1)
        rwa [loop_continue n hb] at hn
      | inr r =>
        have h1 := h 1
        rwa [loop_leave 0 hb] at h1
  · rintro ⟨hs,hb⟩ n
    cases n with
    | zero => exact hs
    | succ n =>
      cases hs' : body s with
      | inl s' =>
        rw [hs'] at hb
        rw [loop_continue n hs']
        exact hb n
      | inr r =>
        rw [hs'] at hb
        rw [loop_leave n hs']
        exact hb

/-- The turns of a loop taken apart. -/
theorem loop_add (body : σ → σ ⊕ ρ) (m n : ℕ) (s : σ) :
    loop body (m+n) s = (loop body m s).elim (loop body n) .inr := by
  induction m generalizing s with
  | zero => rw [Nat.zero_add]; rfl
  | succ m ih =>
    rw [Nat.add_right_comm]
    cases hb : body s with
    | inl s' => rw [loop_continue _ hb, loop_continue _ hb, ih]
    | inr r => rw [loop_leave _ hb, loop_leave _ hb]; rfl

theorem loop_one (body : σ → σ ⊕ ρ) (s : σ) : loop body 1 s = body s := by
  cases hb : body s with
  | inl s' => exact loop_continue 0 hb
  | inr r => exact loop_leave 0 hb

/-- Whether a loop leaves with a result is known at every state on its way. -/
theorem loop_leaves_iff {body : σ → σ ⊕ ρ} {m : ℕ} {s s' : σ} (h : loop body m s = .inl s')
    (r : ρ) : (∃ n, loop body n s = .inr r) ↔ ∃ n, loop body n s' = .inr r := by
  constructor
  · rintro ⟨n,hn⟩
    have hm := loop_mono hn (Nat.le_add_left n m)
    rw [loop_add, h] at hm
    exact ⟨n,hm⟩
  · rintro ⟨n,hn⟩
    refine ⟨m+n,?_⟩
    rw [loop_add, h]
    exact hn

theorem loop_result_unique {body : σ → σ ⊕ ρ} {m n : ℕ} {s : σ} {r r' : ρ}
    (h : loop body m s = .inr r) (h' : loop body n s = .inr r') : r = r' := by
  have hm := loop_mono h (Nat.le_max_left m n)
  rw [loop_mono h' (Nat.le_max_right m n)] at hm
  exact (Sum.inr.inj hm).symm

/-- The last turn only notices that the loop is over. -/
theorem loop_last {body : σ → σ ⊕ ρ} {n : ℕ} {s : σ} {r : ρ}
    (h : loop body (n+1) s = .inr r) :
    loop body n s = .inr r ∨ ∃ s', loop body n s = .inl s' ∧ body s' = .inr r := by
  rw [loop_add] at h
  cases hn : loop body n s with
  | inl s' =>
    rw [hn] at h
    exact .inr ⟨s',rfl,(loop_one body s').symm.trans h⟩
  | inr r' =>
    rw [hn] at h
    exact .inl h

end Loop

section Run
variable {σ τ ι : Type*}

def run (step : σ → ι → σ) : σ → List ι → σ
  | s, [] => s
  | s, a::as => run step (step s a) as

theorem run_append (step : σ → ι → σ) (s : σ) (as bs : List ι) :
    run step s (as++bs) = run step (run step s as) bs := by
  induction as generalizing s with
  | nil => rfl
  | cons a as ih => exact ih _

/-- Every step of the run meets a condition on its input and on the state
before it. -/
def Along (step : σ → ι → σ) (ok : σ → ι → Prop) : σ → List ι → Prop
  | _, [] => True
  | s, a::as => ok s a ∧ Along step ok (step s a) as

instance decidableAlong (step : σ → ι → σ) (ok : σ → ι → Prop) [∀ s a, Decidable (ok s a)] :
    (s : σ) → (as : List ι) → Decidable (Along step ok s as)
  | _, [] => .isTrue trivial
  | s, a::as =>
    have := decidableAlong step ok (step s a) as
    inferInstanceAs (Decidable (ok s a ∧ Along step ok (step s a) as))

/-- A property of every state the run reaches, the first one included. -/
def Always (step : σ → ι → σ) (P : σ → Prop) (s : σ) (as : List ι) : Prop :=
  ∀ k ≤ as.length, P (run step s (as.take k))

theorem always_nil (step : σ → ι → σ) (P : σ → Prop) (s : σ) :
    Always step P s [] ↔ P s := by
  simp [Always, run]

theorem always_cons (step : σ → ι → σ) (P : σ → Prop) (s : σ) (a : ι) (as : List ι) :
    Always step P s (a::as) ↔ P s ∧ Always step P (step s a) as := by
  constructor
  · intro h
    refine ⟨h 0 (by omega),fun k hk => ?_⟩
    exact h (k+1) (by simpa using hk)
  · rintro ⟨hs,h⟩ k hk
    cases k with
    | zero => exact hs
    | succ k => exact h k (by simpa using hk)

theorem along_true (step : σ → ι → σ) (s : σ) (as : List ι) :
    Along step (fun _ _ => True) s as := by
  induction as generalizing s with
  | nil => trivial
  | cons a as ih => exact ⟨trivial,ih _⟩

theorem along_append (step : σ → ι → σ) (ok : σ → ι → Prop) (s : σ) (as bs : List ι) :
    Along step ok s (as++bs) ↔ Along step ok s as ∧ Along step ok (run step s as) bs := by
  induction as generalizing s with
  | nil => simp [Along, run]
  | cons a as ih => simp [Along, run, ih, and_assoc]

theorem along_and (step : σ → ι → σ) (P Q : σ → ι → Prop) (s : σ) (as : List ι) :
    Along step (fun s a => P s a ∧ Q s a) s as ↔ Along step P s as ∧ Along step Q s as := by
  induction as generalizing s with
  | nil => simp [Along]
  | cons a as ih => simp only [Along, ih, and_and_and_comm]

theorem along_congr {step : σ → ι → σ} {P Q : σ → ι → Prop} (h : ∀ s a, P s a ↔ Q s a) (s : σ)
    (as : List ι) : Along step P s as ↔ Along step Q s as := by
  induction as generalizing s with
  | nil => exact Iff.rfl
  | cons a as ih => exact and_congr (h s a) (ih _)

theorem always_last {step : σ → ι → σ} {P : σ → Prop} {s : σ} {as : List ι}
    (h : Always step P s as) : P (run step s as) := by
  simpa using h as.length (Nat.le_refl _)

theorem along_forall (step : σ → ι → σ) (p : ι → Prop) (s : σ) (as : List ι) :
    Along step (fun _ a => p a) s as ↔ ∀ a ∈ as, p a := by
  induction as generalizing s with
  | nil => simp [Along]
  | cons a as ih => simp [Along, ih]

/-- An invariant of the admitted steps holds along every admitted run. -/
theorem always_of_step {step : σ → ι → σ} {adm : σ → ι → Prop} (I : σ → Prop)
    (hstep : ∀ s a, I s → adm s a → I (step s a)) (s : σ) (as : List ι) (hi : I s)
    (hadm : Along step adm s as) : Always step I s as := by
  induction as generalizing s with
  | nil => exact (always_nil step I s).mpr hi
  | cons a as ih => exact (always_cons step I s a as).mpr ⟨hi,ih _ (hstep s a hi hadm.1) hadm.2⟩

theorem always_mono {step : σ → ι → σ} {P Q : σ → Prop} (hpq : ∀ s, P s → Q s) {s : σ}
    {as : List ι} (h : Always step P s as) : Always step Q s as :=
  fun k hk => hpq _ (h k hk)

/-- What an admitted step does from the states of the invariant. -/
theorem along_of_always {step : σ → ι → σ} {adm Q : σ → ι → Prop} {I : σ → Prop}
    (hstep : ∀ s a, I s → adm s a → Q s a) (s : σ) (as : List ι)
    (h : Always step I s as) (hadm : Along step adm s as) : Along step Q s as := by
  induction as generalizing s with
  | nil => trivial
  | cons a as ih =>
    obtain ⟨hs,h⟩ := (always_cons step I s a as).mp h
    exact ⟨hstep s a hs hadm.1,ih _ h hadm.2⟩

/-- Let every step be admitted. Where the property after a step brings the
invariant with it, and holds exactly under the condition, it holds along the
run exactly when every step meets the condition. -/
theorem always_iff_along_of {step : σ → ι → σ} {adm ok : σ → ι → Prop} (I P : σ → Prop)
    (hkeep : ∀ s a, I s → P s → adm s a → P (step s a) → I (step s a))
    (hstep : ∀ s a, I s → P s → adm s a → (P (step s a) ↔ ok s a)) (s : σ) (as : List ι)
    (hi : I s) (hs : P s) (hadm : Along step adm s as) :
    Always step P s as ↔ Along step ok s as := by
  induction as generalizing s with
  | nil => simpa [always_nil, Along] using hs
  | cons a as ih =>
    rw [always_cons]
    constructor
    · rintro ⟨_,h⟩
      have hp : P (step s a) := by simpa [run] using h 0 (by omega)
      exact ⟨(hstep s a hi hs hadm.1).mp hp,
        (ih _ (hkeep s a hi hs hadm.1 hp) hp hadm.2).mp h⟩
    · rintro ⟨ha,h⟩
      have hp := (hstep s a hi hs hadm.1).mpr ha
      exact ⟨hs,(ih _ (hkeep s a hi hs hadm.1 hp) hp hadm.2).mpr h⟩

/-- The same under an invariant of every step. -/
theorem always_iff_along {step : σ → ι → σ} {ok : σ → ι → Prop} (I P : σ → Prop)
    (hkeep : ∀ s a, I s → I (step s a))
    (hstep : ∀ s a, I s → P s → (P (step s a) ↔ ok s a)) (s : σ) (as : List ι)
    (hi : I s) (hs : P s) : Always step P s as ↔ Along step ok s as :=
  always_iff_along_of I P (fun s a h _ _ _ => hkeep s a h) (fun s a h hp _ => hstep s a h hp) s as
    hi hs (along_true step s as)

/-- A relation kept by steps on the same input is kept by runs on the same
inputs. -/
theorem run_simulates {step : σ → ι → σ} {step' : τ → ι → τ} (R : σ → τ → Prop)
    (hstep : ∀ s t a, R s t → R (step s a) (step' t a)) (s : σ) (t : τ) (as : List ι)
    (h : R s t) : R (run step s as) (run step' t as) := by
  induction as generalizing s t with
  | nil => exact h
  | cons a as ih => exact ih _ _ (hstep s t a h)

/-- A property of the image of a state under a map that steps go along with
is a property of the run of the images. -/
theorem always_image {step : σ → ι → σ} {step' : τ → ι → τ} (f : σ → τ)
    (hstep : ∀ s a, f (step s a) = step' (f s) a) (P : τ → Prop) (s : σ) (as : List ι) :
    Always step (fun s => P (f s)) s as ↔ Always step' P (f s) as := by
  apply forall_congr'
  intro k
  have h := run_simulates (fun s t => f s = t) (fun s t a hst => hst ▸ hstep s a) s (f s)
    (as.take k) rfl
  rw [← h]

/-- The same for a property of every step. -/
theorem along_image {step : σ → ι → σ} {step' : τ → ι → τ} (f : σ → τ)
    (hstep : ∀ s a, f (step s a) = step' (f s) a) (Q : τ → ι → Prop) (s : σ) (as : List ι) :
    Along step (fun s a => Q (f s) a) s as ↔ Along step' Q (f s) as := by
  induction as generalizing s with
  | nil => exact Iff.rfl
  | cons a as ih =>
    rw [Along, Along, ← hstep]
    exact and_congr Iff.rfl (ih _)

/-- Where a step may have no result, an invariant of the steps that have one
holds at the end of every run that has one. -/
theorem foldlM_keeps {step : σ → ι → Option σ} (I : σ → Prop)
    (hstep : ∀ s a s', I s → step s a = some s' → I s') {s s' : σ} {as : List ι} (hi : I s)
    (h : as.foldlM step s = some s') : I s' := by
  induction as generalizing s with
  | nil => exact Option.some.inj h ▸ hi
  | cons a as ih =>
    rw [List.foldlM_cons] at h
    obtain ⟨u,hu,h⟩ := Option.bind_eq_some_iff.mp h
    exact ih (hstep s a u hi hu) h

/-- Where the admitted steps from the states of an invariant have a result, so
have the runs of admitted inputs. -/
theorem foldlM_runs {step : σ → ι → Option σ} {adm : ι → Prop} (I : σ → Prop)
    (hstep : ∀ s a, I s → adm a → ∃ s', step s a = some s' ∧ I s') {s : σ} {as : List ι}
    (hi : I s) (hadm : ∀ a ∈ as, adm a) : ∃ s', as.foldlM step s = some s' ∧ I s' := by
  induction as generalizing s with
  | nil => exact ⟨s,rfl,hi⟩
  | cons a as ih =>
    obtain ⟨ha,hadm⟩ := List.forall_mem_cons.mp hadm
    obtain ⟨u,hu,hiu⟩ := hstep s a hi ha
    obtain ⟨s',hs',his'⟩ := ih hiu hadm
    refine ⟨s',?_,his'⟩
    rw [List.foldlM_cons, hu]
    exact hs'

/-- Inputs that commute in pairs can be given in any order. -/
theorem run_perm {step : σ → ι → σ} {as bs : List ι} (h : as.Perm bs)
    (hcomm : ∀ a ∈ as, ∀ b ∈ as, ∀ s, step (step s a) b = step (step s b) a) (s : σ) :
    run step s as = run step s bs := by
  have hfold : ∀ (cs : List ι) (s : σ), run step s cs = cs.foldl step s := by
    intro cs
    induction cs with
    | nil => exact fun _ => rfl
    | cons c cs ih => exact fun s => ih _
  rw [hfold, hfold]
  exact h.foldl_eq' hcomm s

theorem run_late {step : σ → ι → σ} {a : ι} {bs : List ι}
    (hcomm : ∀ b ∈ bs, ∀ s, step (step s a) b = step (step s b) a) (s : σ) :
    run step (step s a) bs = step (run step s bs) a := by
  induction bs generalizing s with
  | nil => rfl
  | cons b bs ih =>
    rw [run, hcomm b List.mem_cons_self, ih (fun c hc => hcomm c (List.mem_cons_of_mem b hc))]
    rfl

/-- Inputs that commute with all the others can be given last. -/
theorem run_partition {step : σ → ι → σ} (p : ι → Bool) (as : List ι)
    (hcomm : ∀ a ∈ as, ∀ b ∈ as, p a = false → p b = true →
      ∀ s, step (step s a) b = step (step s b) a) (s : σ) :
    run step s as = run step (run step s (as.filter p)) (as.filter (fun a => !p a)) := by
  induction as generalizing s with
  | nil => rfl
  | cons a as ih =>
    have ih := fun s => ih (fun b hb c hc =>
      hcomm b (List.mem_cons_of_mem a hb) c (List.mem_cons_of_mem a hc)) s
    cases hp : p a with
    | true => simpa [hp, run] using ih (step s a)
    | false =>
      have hlate := run_late  (fun b hb => hcomm a List.mem_cons_self b
        (List.mem_cons_of_mem a (List.mem_filter.mp hb).1) hp (List.mem_filter.mp hb).2) s
      simp only [List.filter_cons, hp, Bool.not_false, if_true, Bool.false_eq_true, if_false, run]
      rw [ih, hlate]

end Run

end BaseDrivers.Execution
