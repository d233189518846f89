import BaseDrivers.ButtonsAtomic

/-!
# The interrupt lines of the process that has the buttons

A close gives the counter back before it frees the lines, and an open does
not look at what its requests return. So the lines of an open can be taken by
the close before it.
-/

set_option autoImplicit false

namespace BaseDrivers.ButtonsLines
open BaseDrivers.Execution BaseDrivers.ButtonsAtomic

/-- A line requested by an open whose close has not begun. -/
def Requested (c : Proc) (irq : Irq) : Prop :=
  0 < c.held ∨ ∃ left, c.pc = .opening left ∧ irq ∉ left

theorem mem_irqs (irq : Irq) : irq ∈ irqs := by
  cases irq <;> decide

/-- Only a close takes a line away. -/
theorem act_registered {a : Action} {c c' : Proc} {s s' : Shared} {irq : Irq}
    (h : act a c s = some (c',s')) (hr : s.registered irq = true)
    (hfree : ¬ (a = .free_irq ∧ ∃ left, c.pc = .closing (irq::left))) :
    s'.registered irq = true := by
  cases act_acts h with
  | @request held irq' left =>
    by_cases hirq : irq = irq'
    · rw [hirq]
      exact Function.update_self irq' true s.registered
    · exact (Function.update_of_ne hirq true s.registered).trans hr
  | @free held irq' left =>
    have hirq : irq ≠ irq' := by
      rintro rfl
      exact hfree ⟨rfl,left,rfl⟩
    exact (Function.update_of_ne hirq false s.registered).trans hr
  | _ => exact hr

/-- Only an open that has the device and has yet to request the line gives
it back. -/
theorem act_unregistered {a : Action} {c c' : Proc} {s s' : Shared} {irq : Irq}
    (h : act a c s = some (c',s')) (hr : s.registered irq = false)
    (hreq : ∀ left, c.pc ≠ .opening (irq::left)) : s'.registered irq = false := by
  cases act_acts h with
  | @request held irq' left =>
    have hirq : irq ≠ irq' := by
      rintro rfl
      exact hreq left rfl
    exact (Function.update_of_ne hirq true s.registered).trans hr
  | @free held irq' left =>
    by_cases hirq : irq = irq'
    · rw [hirq]
      exact Function.update_self irq' false s.registered
    · exact (Function.update_of_ne hirq false s.registered).trans hr
  | _ => exact hr

instance (c : Proc) (irq : Irq) : Decidable (Requested c irq) :=
  match h : c.pc with
  | .opening left => decidable_of_iff (0 < c.held ∨ irq ∉ left) (by simp [Requested, h])
  | .user | .busy | .closing _ => decidable_of_iff (0 < c.held) (by simp [Requested, h])

/-- A line which is requested has been before, or the step has registered it. -/
theorem act_requested {a : Action} {c c' : Proc} {s s' : Shared} {irq : Irq}
    (h : act a c s = some (c',s')) (hreq : Requested c' irq) :
    s'.registered irq = true ∨ Requested c irq ∧ (0 < c'.held → 0 < c.held ∨ a = .opened) := by
  cases act_acts h with
  | @admitted held =>
    rcases hreq with hheld | ⟨left,hleft,hirq⟩
    · exact .inr ⟨.inl hheld,.inl⟩
    · cases hleft
      exact absurd (mem_irqs irq) hirq
  | @request held irq' left =>
    rcases hreq with hheld | ⟨_,⟨⟩,hirq⟩
    · exact .inr ⟨.inl hheld,.inl⟩
    · by_cases hne : irq = irq'
      · left
        rw [hne]
        exact Function.update_self irq' true s.registered
      · exact .inr ⟨.inr ⟨irq'::left,rfl,by simp [hne, hirq]⟩,.inl⟩
  | opened => exact .inr ⟨.inr ⟨[],rfl,List.not_mem_nil⟩,fun _ => .inr rfl⟩
  | inc => exact .inr ⟨.inl (Nat.succ_pos _),fun _ => .inl (Nat.succ_pos _)⟩
  | _ =>
    rcases hreq with hheld | ⟨left,hleft,-⟩
    · exact .inr ⟨.inl hheld,.inl⟩
    · cases hleft

/-- An open goes on through its lines until it returns. -/
theorem act_opening {a : Action} {c c' : Proc} {s s' : Shared} {irq : Irq} {left : List Irq}
    (h : act a c s = some (c',s')) (hc : c.pc = .opening left) (hirq : irq ∉ left)
    (ha : a ≠ .opened) : ∃ left', c'.pc = .opening left' ∧ irq ∉ left' := by
  cases act_acts h with
  | request =>
    cases hc
    exact ⟨_,rfl,fun hmem => hirq (List.mem_cons_of_mem _ hmem)⟩
  | opened => exact absurd rfl ha
  | _ => cases hc

section Processes
variable {P : Type*} [DecidableEq P]

/-- Every process whose open has returned 0 has the four lines. -/
def HoldersServed (d : Device P) : Prop :=
  ∀ p irq, 0 < (d.procs p).held → d.shared.registered irq = true

/-- A step of a close that frees the line. -/
def Frees (d : Device P) (e : P × Action) (irq : Irq) : Prop :=
  e.2 = .free_irq ∧ ∃ left, (d.procs e.1).pc = .closing (irq::left)

/-- The open of a process has returned 0, or does so in what follows. -/
def Succeeds (d : Device P) (p : P) (as : List (P × Action)) : Prop :=
  0 < (d.procs p).held ∨ (p,.opened) ∈ as

/-- No close frees a line after an open that succeeds has requested it. -/
def LinesKept : Device P → List (P × Action) → Prop
  | _, [] => True
  | d, e::as =>
    (∀ p irq, Frees d e irq → Requested (d.procs p) irq → ¬ Succeeds d p (e::as)) ∧
      LinesKept (step d e) as

instance (d : Device P) (e : P × Action) (irq : Irq) : Decidable (Frees d e irq) :=
  match h : (d.procs e.1).pc with
  | .closing (irq'::_) =>
    decidable_of_iff (e.2 = .free_irq ∧ irq' = irq) (by simp [Frees, h])
  | .closing [] | .user | .busy | .opening _ => .isFalse (by simp [Frees, h])

instance (d : Device P) (p : P) (as : List (P × Action)) : Decidable (Succeeds d p as) :=
  inferInstanceAs (Decidable (0 < (d.procs p).held ∨ (p,.opened) ∈ as))

instance decidableKept [Fintype P] :
    (d : Device P) → (as : List (P × Action)) → Decidable (LinesKept d as)
  | _, [] => .isTrue trivial
  | d, e::as =>
    have := decidableKept (step d e) as
    decidable_of_iff ((∀ p, ∀ irq ∈ irqs,
        Frees d e irq → Requested (d.procs p) irq → ¬ Succeeds d p (e::as)) ∧
      LinesKept (step d e) as) (by simp [LinesKept, mem_irqs])

/-- A line a holder will need has the handler, in a run that keeps its lines. -/
def Secure (d : Device P) (as : List (P × Action)) : Prop :=
  ∀ p irq, Requested (d.procs p) irq → Succeeds d p as → d.shared.registered irq = true

theorem step_registered {d : Device P} {e : P × Action} {irq : Irq}
    (hr : d.shared.registered irq = true) (hfree : ¬ Frees d e irq) :
    (step d e).shared.registered irq = true := by
  rcases step_cases d e with h | ⟨c,hact,-⟩
  · rwa [h]
  · exact act_registered hact hr hfree

theorem step_requested {d : Device P} {e : P × Action} {p : P} {irq : Irq}
    {as : List (P × Action)} (hreq : Requested ((step d e).procs p) irq)
    (hsucc : Succeeds (step d e) p as) : (step d e).shared.registered irq = true ∨
      Requested (d.procs p) irq ∧ Succeeds d p (e::as) := by
  have hlater (h : 0 < ((step d e).procs p).held → 0 < (d.procs p).held ∨ (p,.opened) = e) :
      Succeeds d p (e::as) := by
    rcases hsucc with hheld | hmem
    · rcases h hheld with h | h
      · exact .inl h
      · exact .inr (h ▸ List.mem_cons_self)
    · exact .inr (List.mem_cons_of_mem e hmem)
  rcases step_cases d e with h | ⟨c,hact,hprocs⟩
  · rw [h] at hreq hlater
    exact .inr ⟨hreq,hlater .inl⟩
  · by_cases hp : p = e.1
    · subst hp
      rw [hprocs, Function.update_self] at hreq hlater
      refine (act_requested hact hreq).imp_right (fun h => ⟨h.1,hlater (fun hc => ?_)⟩)
      exact (h.2 hc).imp_right (fun ha => by rw [← ha])
    · rw [hprocs, Function.update_of_ne hp] at hreq hlater
      exact .inr ⟨hreq,hlater .inl⟩

theorem step_secure {d : Device P} {e : P × Action} {as : List (P × Action)}
    (hd : Secure d (e::as))
    (hkept : ∀ p irq, Frees d e irq → Requested (d.procs p) irq → ¬ Succeeds d p (e::as)) :
    Secure (step d e) as := by
  intro p irq hreq hsucc
  rcases step_requested hreq hsucc with h | ⟨hreq,hsucc⟩
  · exact h
  · exact step_registered (hd p irq hreq hsucc) (fun hfree => hkept p irq hfree hreq hsucc)

omit [DecidableEq P] in
theorem secure_served {d : Device P} {as : List (P × Action)} (h : Secure d as) :
    HoldersServed d :=
  fun p irq hheld => h p irq (.inl hheld) (.inl hheld)

theorem kept_served (d : Device P) (as : List (P × Action)) (hd : Secure d as)
    (hkept : LinesKept d as) : Always step HoldersServed d as := by
  induction as generalizing d with
  | nil => exact (always_nil step _ d).mpr (secure_served hd)
  | cons e as ih =>
    rw [always_cons]
    exact ⟨secure_served hd,ih _ (step_secure hd hkept.1) hkept.2⟩

/-- An open that has requested the line, without having it. -/
def Lost (d : Device P) (p : P) (irq : Irq) : Prop :=
  d.shared.registered irq = false ∧ ∃ left, (d.procs p).pc = .opening left ∧ irq ∉ left

/-- Nobody else requests a line while an open has the device. -/
theorem step_lost {d : Device P} {e : P × Action} {p : P} {irq : Irq} (hd : Owned d)
    (hlost : Lost d p irq) (he : e ≠ (p,.opened)) : Lost (step d e) p irq := by
  obtain ⟨hr,left,hp,hirq⟩ := hlost
  have hholds {q : P} {left : List Irq} (hq : (d.procs q).pc = .opening left) : Holds d q := by
    rw [Holds, holdings, hq]
    exact Nat.succ_pos _
  rcases step_cases d e with h | ⟨c,hact,hprocs⟩
  · rw [h]
    exact ⟨hr,left,hp,hirq⟩
  · constructor
    · apply act_unregistered hact hr
      intro left' hleft
      have hpe := hd.one e.1 p (hholds hleft) (hholds hp)
      rw [hpe, hp] at hleft
      cases hleft
      exact hirq List.mem_cons_self
    · by_cases hpe : p = e.1
      · rw [hprocs, hpe, Function.update_self]
        rw [hpe] at hp
        exact act_opening hact hp hirq (fun ha => he (by rw [hpe, ← ha]))
      · rw [hprocs, Function.update_of_ne hpe]
        exact ⟨left,hp,hirq⟩

theorem step_opened {d : Device P} {p : P} (h : Enabled d (p,.opened)) :
    0 < ((step d (p,.opened)).procs p).held ∧ (step d (p,.opened)).shared = d.shared := by
  obtain ⟨⟨c,s⟩,hact⟩ := Option.isSome_iff_exists.mp h
  have hprocs : (step d (p,.opened)).procs p = c := by
    rw [step, hact]
    exact Function.update_self p c d.procs
  have hshared : (step d (p,.opened)).shared = s := by rw [step, hact]
  rw [hprocs, hshared]
  generalize d.procs p = c₀ at hact
  cases act_acts hact with
  | opened => exact ⟨Nat.succ_pos _,rfl⟩

/-- Such an open does not return in a run that serves its holders. -/
theorem lost_not_opened (p : P) (irq : Irq) (d : Device P) (as : List (P × Action))
    (hd : Owned d) (hlost : Lost d p irq) (hadm : Along step Enabled d as)
    (hserved : Always step HoldersServed d as) : (p,.opened) ∉ as := by
  induction as generalizing d with
  | nil => exact List.not_mem_nil
  | cons e as ih =>
    have hserved := ((always_cons step _ d e as).mp hserved).2
    by_cases he : e = (p,.opened)
    · subst he
      obtain ⟨hheld,hshared⟩ := step_opened hadm.1
      have hr : (step d (p,.opened)).shared.registered irq = true :=
        hserved 0 (Nat.zero_le _) p irq hheld
      rw [hshared, hlost.1] at hr
      cases hr
    · have h := ih _ (step_owned d e hd) (step_lost hd hlost he) hadm.2 hserved
      rw [List.mem_cons, not_or]
      exact ⟨fun h => he h.symm,h⟩

/-- The line is gone, and no other process has moved. -/
theorem step_frees {d : Device P} {e : P × Action} {irq : Irq} (h : Frees d e irq) :
    (step d e).shared.registered irq = false ∧
      (∀ p, ((step d e).procs p).held = (d.procs p).held) ∧
      ∀ p left, (d.procs p).pc = .opening left → ((step d e).procs p).pc = .opening left := by
  obtain ⟨p₀,a⟩ := e
  obtain ⟨rfl : a = .free_irq,left₀,hleft₀ : (d.procs p₀).pc = .closing (irq::left₀)⟩ := h
  have hstep : step d (p₀,.free_irq) =
      ⟨{ d.shared with registered := free_irq irq d.shared.registered },
        Function.update d.procs p₀ ⟨(d.procs p₀).held,.closing left₀⟩⟩ := by
    have hc : d.procs p₀ = ⟨(d.procs p₀).held,.closing (irq::left₀)⟩ := by rw [← hleft₀]
    rw [step]
    dsimp only
    rw [hc]
    rfl
  have hr : free_irq irq d.shared.registered irq = false := by
    rw [free_irq, Function.update_self]
  rw [hstep]
  refine ⟨hr,fun p => ?_,fun p left hp => ?_⟩
  · by_cases h : p = p₀
    · subst h
      dsimp only
      rw [Function.update_self]
    · dsimp only
      rw [Function.update_of_ne h]
  · by_cases h : p = p₀
    · rw [h, hleft₀] at hp
      cases hp
    · dsimp only
      rw [Function.update_of_ne h]
      exact hp

/-- A run that serves its holders does not begin with a close that takes the
line from one of them. -/
theorem served_frees {d : Device P} {e : P × Action} {as : List (P × Action)} (hd : Owned d)
    (hadm : Along step Enabled d (e::as)) (hserved : Always step HoldersServed (step d e) as)
    (p : P) (irq : Irq) (hfree : Frees d e irq) (hreq : Requested (d.procs p) irq) :
    ¬ Succeeds d p (e::as) := by
  intro hsucc
  obtain ⟨hr,hheld,hpc⟩ := step_frees hfree
  have hnot : ¬ 0 < (d.procs p).held := by
    intro h
    rw [← hheld p] at h
    have hr' : (step d e).shared.registered irq = true := hserved 0 (Nat.zero_le _) p irq h
    rw [hr] at hr'
    cases hr'
  obtain ⟨left,hp,hirq⟩ := hreq.resolve_left hnot
  rcases List.mem_cons.mp (hsucc.resolve_left hnot) with he | hmem
  · have ha := hfree.1
    rw [← he] at ha
    cases ha
  · exact lost_not_opened p irq (step d e) as (step_owned d e hd) ⟨hr,left,hpc p left hp,hirq⟩
      hadm.2 hserved hmem

theorem served_kept (d : Device P) (as : List (P × Action)) (hd : Owned d)
    (hadm : Along step Enabled d as) (hserved : Always step HoldersServed d as) :
    LinesKept d as := by
  induction as generalizing d with
  | nil => trivial
  | cons e as ih =>
    have hserved := ((always_cons step _ d e as).mp hserved).2
    constructor
    · exact served_frees hd hadm hserved
    · exact ih _ (step_owned d e hd) hadm.2 hserved

/-- In every interleaving the holders have their lines in every state reached
exactly when no close frees a line after an open that succeeds has requested
it. -/
theorem holders_served_iff (as : List (P × Action)) (hadm : Along step Enabled boot as) :
    Always step HoldersServed boot as ↔ LinesKept boot as := by
  constructor
  · exact served_kept boot as boot_owned hadm
  · apply kept_served
    rintro p irq (h | ⟨left,h,-⟩)
    · exact absurd h (Nat.lt_irrefl 0)
    · cases h

end Processes

/-- The first process closes, and then the second opens. -/
def inTurn : List (Bool × Action) :=
  button_open false++(false,.inc)::irqs.map (fun _ => (false,.free_irq))++[(false,.closed)]++
    button_open true

theorem holders_served_in_turn : Always step HoldersServed boot inTurn :=
  (holders_served_iff inTurn (by decide)).mpr (by decide +kernel)

/-- The first process closes, the second opens before the lines are freed. -/
def handover : List (Bool × Action) :=
  button_open false++[(false,.inc)]++button_open true++[(false,.free_irq)]

theorem holder_loses_line :
    Along step Enabled boot handover ∧ ¬ Always step HoldersServed boot handover := by
  constructor
  · decide
  · intro h
    exact absurd (always_last h true .IRQ_EINT0) (by decide)

end BaseDrivers.ButtonsLines
