import Mathlib.Data.Finset.Card
import Mathlib.Data.List.Chain
import Mathlib.Data.List.Infix

/-!
# Trails of cells

A trail is a list of cells, each one near the next and no one twice. It goes to
a new cell with what it keeps of its own, from the first one on.
-/

set_option autoImplicit false

namespace BaseDrivers.CellTrail

structure Trail {C : Type*} (near : C → C → Prop) (cs : List C) : Prop where
  near : cs.IsChain near
  distinct : cs.Nodup

variable {C : Type*} {near : C → C → Prop} {b c : C} {cs ds : List C}

theorem trail_part (h : Trail near cs) (hpart : ds <+: cs) : Trail near ds := by
  obtain ⟨es,rfl⟩ := hpart
  exact ⟨h.near.left_of_append,h.distinct.of_append_left⟩

theorem trail_cons (h : Trail near (c::cs)) (hnear : near b c) (hnew : b ∉ c::cs) :
    Trail near (b::c::cs) :=
  ⟨.cons_cons hnear h.near,List.nodup_cons.mpr ⟨hnew,h.distinct⟩⟩

theorem trail_length [DecidableEq C] (h : Trail near cs) {S : Finset C} (hS : ∀ c ∈ cs, c ∈ S) :
    cs.length ≤ S.card := by
  rw [← List.toFinset_card_of_nodup h.distinct]
  exact Finset.card_le_card fun c hc => hS c (List.mem_toFinset.mp hc)

end BaseDrivers.CellTrail
