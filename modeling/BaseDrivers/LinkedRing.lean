import Mathlib.Data.List.Chain
import Mathlib.Data.List.Nodup

/-!
# Rings of doubly linked nodes

Every node has a next and a previous one. A ring is a head with the nodes
that follow it until the head comes again, each linked with the one after it
in both directions. A node comes in before the head, or goes out, with two
links changed on each side of it; which other links a change may touch does
not matter as long as they are not links of the ring.
-/

set_option autoImplicit false

namespace BaseDrivers.LinkedRing

structure Links (N : Type*) where
  next : N → N
  prev : N → N

variable {N : Type*} {l l' : Links N}

/-- `b` comes after `a`. -/
def Linked (l : Links N) (a b : N) : Prop := l.next a = b ∧ l.prev b = a

structure Ring (l : Links N) (h : N) (xs : List N) : Prop where
  nodup : (h::xs).Nodup
  chain : List.IsChain (Linked l) (h::xs++[h])

/-- A node that is linked with itself only. -/
def Alone (l : Links N) (a : N) : Prop := l.next a = a ∧ l.prev a = a

theorem ring_nil (h : N) : Ring l h [] ↔ Alone l h := by
  constructor
  · rintro ⟨-,hc⟩
    simpa [Linked, Alone] using hc
  · rintro ⟨hn,hp⟩
    exact ⟨List.nodup_singleton h,by simpa [Linked] using ⟨hn,hp⟩⟩

/-- A chain uses the next node of all its nodes but the last, and the previous
one of all but the first. -/
theorem chain_kept {w : List N} (hw : List.IsChain (Linked l) w)
    (hnext : ∀ a ∈ w.dropLast, l'.next a = l.next a)
    (hprev : ∀ b ∈ w.tail, l'.prev b = l.prev b) : List.IsChain (Linked l') w := by
  induction w with
  | nil => exact .nil
  | cons a w ih =>
    cases w with
    | nil => exact .singleton a
    | cons b w =>
      obtain ⟨⟨hn,hp⟩,hw⟩ := List.isChain_cons_cons.mp hw
      rw [List.dropLast_cons_cons] at hnext
      rw [List.tail_cons] at hprev
      apply List.isChain_cons_cons.mpr
      constructor
      · exact ⟨(hnext a List.mem_cons_self).trans hn,(hprev b List.mem_cons_self).trans hp⟩
      · exact ih hw (fun c hc => hnext c (List.mem_cons_of_mem a hc))
          (fun c hc => hprev c (List.mem_cons_of_mem b hc))

/-- The node after `a` in a chain is its next one. -/
theorem chain_head {a : N} {w : List N} (hw : List.IsChain (Linked l) (a::w)) (hne : w ≠ []) :
    w.head? = some (l.next a) := by
  obtain ⟨b,w,rfl⟩ := List.exists_cons_of_ne_nil hne
  rw [List.head?_cons, (List.isChain_cons_cons.mp hw).1.1]

theorem chain_next {R : N → N → Prop} {w : List N} (hw : List.IsChain R w) {a : N}
    (ha : a ∈ w.dropLast) : ∃ b ∈ w.tail, R a b := by
  induction w with
  | nil => cases ha
  | cons c w ih =>
    cases w with
    | nil => cases ha
    | cons d w =>
      obtain ⟨hcd,hw⟩ := List.isChain_cons_cons.mp hw
      rw [List.dropLast_cons_cons] at ha
      rcases List.mem_cons.mp ha with rfl | ha
      · exact ⟨d,List.mem_cons_self,hcd⟩
      · obtain ⟨b,hb,hab⟩ := ih hw ha
        exact ⟨b,List.mem_cons_of_mem d hb,hab⟩

theorem chain_prev {R : N → N → Prop} {w : List N} (hw : List.IsChain R w) {b : N}
    (hb : b ∈ w.tail) : ∃ a ∈ w.dropLast, R a b := by
  induction w with
  | nil => cases hb
  | cons c w ih =>
    cases w with
    | nil => cases hb
    | cons d w =>
      obtain ⟨hcd,hw⟩ := List.isChain_cons_cons.mp hw
      rw [List.dropLast_cons_cons]
      rcases List.mem_cons.mp hb with rfl | hb
      · exact ⟨c,List.mem_cons_self,hcd⟩
      · obtain ⟨a,ha,hab⟩ := ih hw hb
        exact ⟨a,List.mem_cons_of_mem c ha,hab⟩

/-- On a ring next and previous undo each other. -/
theorem ring_inverse {h : N} {xs : List N} (hr : Ring l h xs) {a : N} (ha : a ∈ h::xs) :
    l.prev (l.next a) = a ∧ l.next (l.prev a) = a := by
  constructor
  · have hmem : a ∈ (h::xs++[h]).dropLast := by rwa [List.dropLast_concat]
    obtain ⟨b,-,hn,hp⟩ := chain_next hr.chain hmem
    rw [hn, hp]
  · have hmem : a ∈ (h::xs++[h]).tail := by
      rw [List.cons_append, List.tail_cons, List.mem_append, List.mem_singleton]
      exact (List.mem_cons.mp ha).symm
    obtain ⟨b,-,hn,hp⟩ := chain_prev hr.chain hmem
    rw [hp, hn]

theorem split_last (h : N) (xs : List N) : ∃ us p, h::xs = us++[p] :=
  ⟨(h::xs).dropLast,(h::xs).getLast (List.cons_ne_nil h xs),
    (List.dropLast_append_getLast (List.cons_ne_nil h xs)).symm⟩

/-- A node comes in between the last one and the head. -/
theorem ring_insert {h s : N} {xs : List N} (hr : Ring l h xs) (hs : s ∉ h::xs)
    (hin : Linked l' (l.prev h) s) (hout : Linked l' s h)
    (hnext : ∀ a, a ≠ l.prev h → a ≠ s → l'.next a = l.next a)
    (hprev : ∀ b, b ≠ h → b ≠ s → l'.prev b = l.prev b) : Ring l' h (xs++[s]) := by
  obtain ⟨us,p,hsplit⟩ := split_last h xs
  have hnodup := hr.nodup
  have hchain : List.IsChain (Linked l) (us++p::[h]) := by
    rw [List.append_cons, ← hsplit]
    exact hr.chain
  obtain ⟨hold,hlast,-⟩ := List.isChain_append_cons_cons.mp hchain
  rw [hlast.2] at hin hnext
  have htail : (us++[p]).tail = xs := by rw [← hsplit, List.tail_cons]
  constructor
  · rw [← List.cons_append]
    exact hnodup.append (List.nodup_singleton s) (by simpa using hs)
  · rw [← List.cons_append, hsplit, List.append_assoc, List.append_assoc]
    apply List.isChain_append_cons_cons.mpr
    refine ⟨chain_kept hold ?_ ?_,hin,List.isChain_cons_cons.mpr ⟨hout,.singleton h⟩⟩
    · intro a ha
      rw [List.dropLast_concat] at ha
      rw [hsplit] at hnodup hs
      apply hnext
      · rintro rfl
        exact (List.nodup_append.mp hnodup).2.2 a ha a (List.mem_singleton_self a) rfl
      · rintro rfl
        exact hs (List.mem_append_left _ ha)
    · intro b hb
      rw [htail] at hb
      apply hprev
      · rintro rfl
        exact (List.nodup_cons.mp hnodup).1 hb
      · rintro rfl
        exact hs (List.mem_cons_of_mem _ hb)

/-- A ring taken apart at one of its nodes. -/
theorem ring_split {h s : N} {ys zs : List N} (hr : Ring l h (ys++s::zs)) :
    ∃ us p q vs, h::ys = us++[p] ∧ zs++[h] = q::vs ∧ List.IsChain (Linked l) (us++[p]) ∧
      Linked l p s ∧ Linked l s q ∧ List.IsChain (Linked l) (q::vs) := by
  obtain ⟨us,p,hup⟩ := split_last h ys
  obtain ⟨q,vs,hqv⟩ : ∃ q vs, zs++[h] = q::vs := List.exists_cons_of_ne_nil (by simp)
  have hchain := hr.chain
  have hword : h::(ys++s::zs)++[h] = us++p::s::q::vs := by
    rw [← hqv, ← List.cons_append, hup]
    simp
  rw [hword] at hchain
  obtain ⟨hold,hps,hrest⟩ := List.isChain_append_cons_cons.mp hchain
  obtain ⟨hsq,hnew⟩ := List.isChain_cons_cons.mp hrest
  exact ⟨us,p,q,vs,hup,hqv,hold,hps,hsq,hnew⟩

theorem ring_neighbours {h s : N} {ys zs : List N} (hr : Ring l h (ys++s::zs)) :
    l.prev s ∈ h::ys ∧ l.next s ∈ zs++[h] := by
  obtain ⟨us,p,q,vs,hup,hqv,-,hps,hsq,-⟩ := ring_split hr
  rw [hps.2, hsq.1, hup, hqv]
  exact ⟨List.mem_append_right us (List.mem_singleton_self p),List.mem_cons_self⟩

theorem ring_last {h : N} {xs : List N} (hr : Ring l h xs) : l.prev h ∈ h::xs := by
  obtain ⟨us,p,hsplit⟩ := split_last h xs
  have hchain : List.IsChain (Linked l) (us++p::[h]) := by
    rw [List.append_cons, ← hsplit]
    exact hr.chain
  rw [(List.isChain_append_cons_cons.mp hchain).2.1.2, hsplit]
  exact List.mem_append_right us (List.mem_singleton_self p)

/-- A node goes out from between its neighbours. -/
theorem ring_remove {h s : N} {ys zs : List N} (hr : Ring l h (ys++s::zs))
    (hlink : Linked l' (l.prev s) (l.next s))
    (hnext : ∀ a, a ≠ l.prev s → a ≠ s → l'.next a = l.next a)
    (hprev : ∀ b, b ≠ l.next s → b ≠ s → l'.prev b = l.prev b) : Ring l' h (ys++zs) := by
  obtain ⟨us,p,q,vs,hup,hqv,hold,hps,hsq,hnew⟩ := ring_split hr
  have hnodup := hr.nodup
  rw [hps.2, hsq.1] at hlink
  rw [hps.2] at hnext
  rw [hsq.1] at hprev
  -- the head and its nodes, with the node that goes out apart
  have hall : (s::(h::ys++zs)).Nodup := by
    have hperm : (h::(ys++s::zs)).Perm (s::(h::ys++zs)) := by
      rw [← List.cons_append]
      exact List.perm_middle
    exact hperm.nodup_iff.mp hnodup
  obtain ⟨hs,hring⟩ := List.nodup_cons.mp hall
  constructor
  · exact hring
  · have hword' : h::(ys++zs)++[h] = us++p::q::vs := by
      rw [← hqv, ← List.cons_append, hup]
      simp
    rw [hword']
    have hq : q ∈ zs++[h] := hqv ▸ List.mem_cons_self
    have hpmem : p ∈ h::ys := hup ▸ List.mem_append_right us (List.mem_singleton_self p)
    have hus : (us++[p]).Nodup := hup ▸ (List.nodup_append.mp hring).1
    have hvs : (q::vs).Nodup := by
      rw [← hqv]
      grind
    apply List.isChain_append_cons_cons.mpr
    refine ⟨chain_kept hold ?_ ?_,hlink,chain_kept hnew ?_ ?_⟩
    · intro a ha
      rw [List.dropLast_concat] at ha
      have hmem : a ∈ h::ys := hup ▸ List.mem_append_left _ ha
      exact hnext a (by grind) (by grind)
    · intro b hb
      rw [← hup, List.tail_cons] at hb
      exact hprev b (by grind) (by grind)
    · intro a ha
      rw [← hqv, List.dropLast_concat] at ha
      exact hnext a (by grind) (by grind)
    · intro b hb
      rw [List.tail_cons] at hb
      have hmem : b ∈ zs++[h] := hqv ▸ List.mem_cons_of_mem q hb
      exact hprev b (by grind) (by grind)

theorem ring_mem {h a : N} {xs : List N} (hr : Ring l h xs) (ha : a ∈ h::xs) :
    l.next a ∈ h::xs ∧ l.prev a ∈ h::xs := by
  constructor
  · have hmem : a ∈ (h::xs++[h]).dropLast := by rwa [List.dropLast_concat]
    obtain ⟨b,hb,hab⟩ := chain_next hr.chain hmem
    rw [List.cons_append, List.tail_cons, List.mem_append, List.mem_singleton] at hb
    rw [hab.1]
    exact List.mem_cons.mpr hb.symm
  · have hmem : a ∈ (h::xs++[h]).tail := by
      rw [List.cons_append, List.tail_cons, List.mem_append, List.mem_singleton]
      exact (List.mem_cons.mp ha).symm
    obtain ⟨b,hb,hba⟩ := chain_prev hr.chain hmem
    rw [List.dropLast_concat] at hb
    rwa [hba.2]

/-- A ring keeps its nodes when none of their links is changed. -/
theorem ring_kept {h : N} {xs : List N} (hr : Ring l h xs)
    (hk : ∀ a ∈ h::xs, l'.next a = l.next a ∧ l'.prev a = l.prev a) : Ring l' h xs := by
  refine ⟨hr.nodup,chain_kept hr.chain ?_ ?_⟩
  · intro a ha
    rw [List.dropLast_concat] at ha
    exact (hk a ha).1
  · intro b hb
    rw [List.cons_append, List.tail_cons, List.mem_append, List.mem_singleton] at hb
    exact (hk b (List.mem_cons.mpr hb.symm)).2

/-- A ring is a ring from each of its nodes. -/
theorem ring_rotate {h s : N} {ys zs : List N} (hr : Ring l h (ys++s::zs)) :
    Ring l s (zs++h::ys) := by
  constructor
  · have hperm : (h::(ys++s::zs)).Perm (s::(zs++h::ys)) := by
      rw [← List.cons_append, ← List.cons_append]
      exact List.perm_append_comm
    exact hperm.nodup_iff.mp hr.nodup
  · have hchain : List.IsChain (Linked l) ((h::ys)++s::(zs++[h])) := by
      simpa using hr.chain
    obtain ⟨hys,hzs⟩ := List.isChain_split.mp hchain
    have hword : s::(zs++h::ys)++[s] = (s::zs)++h::(ys++[s]) := by simp
    rw [hword]
    exact List.isChain_split.mpr ⟨by simpa using hzs,by simpa using hys⟩

/-- A ring with nodes is a chain of them, closed by the head. -/
theorem ring_closed {h : N} {xs : List N} (hx : xs ≠ []) :
    Ring l h xs ↔ (h::xs).Nodup ∧ List.IsChain (Linked l) xs ∧
      Linked l h (xs.head hx) ∧ Linked l (xs.getLast hx) h := by
  obtain ⟨x,xs,rfl⟩ := List.exists_cons_of_ne_nil hx
  constructor
  · rintro ⟨hn,hc⟩
    have hword : h::(x::xs)++[h] = h::x::(xs++[h]) := rfl
    rw [hword] at hc
    obtain ⟨hfirst,hc⟩ := List.isChain_cons_cons.mp hc
    rw [← List.cons_append] at hc
    obtain ⟨hxs,-,hlast⟩ := List.isChain_append.mp hc
    exact ⟨hn,hxs,hfirst,hlast _ (List.getLast?_eq_some_getLast hx) h rfl⟩
  · rintro ⟨hn,hxs,hfirst,hlast⟩
    refine ⟨hn,List.isChain_cons_cons.mpr ⟨hfirst,List.isChain_append.mpr ⟨hxs,.singleton h,?_⟩⟩⟩
    intro a ha b hb
    rw [List.getLast?_eq_some_getLast hx] at ha
    obtain rfl := Option.some.inj ha
    obtain rfl := Option.some.inj hb
    exact hlast

theorem ring_next {h : N} {xs : List N} (hr : Ring l h xs) (hx : xs ≠ []) :
    l.next h = xs.head hx := ((ring_closed hx).mp hr).2.2.1.1

theorem ring_prev {h : N} {xs : List N} (hr : Ring l h xs) (hx : xs ≠ []) :
    l.prev h = xs.getLast hx := ((ring_closed hx).mp hr).2.2.2.2

/-- A node comes in between the head and the first one. -/
theorem ring_insert_first {h s : N} {xs : List N} (hr : Ring l h xs) (hs : s ∉ h::xs)
    (hin : Linked l' h s) (hout : Linked l' s (l.next h))
    (hnext : ∀ a, a ≠ h → a ≠ s → l'.next a = l.next a)
    (hprev : ∀ b, b ≠ l.next h → b ≠ s → l'.prev b = l.prev b) : Ring l' h (s::xs) := by
  cases xs with
  | nil =>
    obtain ⟨hn,hp⟩ := (ring_nil h).mp hr
    rw [hn] at hout hprev
    exact ring_insert hr hs (by rw [hp]; exact hin) hout (by rw [hp]; exact hnext) hprev
  | cons x xs =>
    -- seen from the first node, the new one comes in at the end
    have hwhole : Ring l h ([]++x::xs) := hr
    have hrot : Ring l x (xs++[h]) := ring_rotate hwhole
    have hnx : l.next h = x := ring_next hr (List.cons_ne_nil x xs)
    have hpx : l.prev x = h := by
      rw [← hnx]
      exact (ring_inverse hr List.mem_cons_self).1
    rw [hnx] at hout hprev
    have hs' : s ∉ x::(xs++[h]) := by
      intro hmem
      apply hs
      simp only [List.mem_cons, List.mem_append, List.not_mem_nil, or_false] at hmem ⊢
      tauto
    have hend := ring_insert hrot hs' (by rw [hpx]; exact hin) hout (by rw [hpx]; exact hnext) hprev
    rw [List.append_assoc] at hend
    exact ring_rotate hend

/-- Another node takes the place of the head. -/
theorem ring_rehead {s t : N} {xs : List N} (hx : xs ≠ []) (hr : Ring l s xs) (ht : t ∉ xs)
    (hin : Linked l' (l.prev s) t) (hout : Linked l' t (l.next s))
    (hnext : ∀ a ∈ xs, a ≠ l.prev s → l'.next a = l.next a)
    (hprev : ∀ b ∈ xs, b ≠ l.next s → l'.prev b = l.prev b) : Ring l' t xs := by
  have hfirst := ring_next hr hx
  have hlast := ring_prev hr hx
  obtain ⟨hn,hc,-,-⟩ := (ring_closed hx).mp hr
  obtain ⟨-,hn⟩ := List.nodup_cons.mp hn
  rw [hlast] at hin hnext
  rw [hfirst] at hout hprev
  refine (ring_closed hx).mpr ⟨List.nodup_cons.mpr ⟨ht,hn⟩,chain_kept hc ?_ ?_,hout,hin⟩
  · intro a ha
    apply hnext a (List.dropLast_subset _ ha)
    rintro rfl
    rw [← List.dropLast_append_getLast hx] at hn
    exact (List.nodup_append.mp hn).2.2 _ ha _ (List.mem_singleton_self _) rfl
  · intro b hb
    apply hprev b (List.mem_of_mem_tail hb)
    rintro rfl
    rw [← List.cons_head_tail hx] at hn
    exact (List.nodup_cons.mp hn).1 hb

/-- Another node takes the place of one behind the head. -/
theorem ring_replace {h s t : N} {ys zs : List N} (hr : Ring l h (ys++s::zs))
    (ht : t ∉ h::(ys++s::zs)) (hin : Linked l' (l.prev s) t) (hout : Linked l' t (l.next s))
    (hnext : ∀ a ∈ h::(ys++zs), a ≠ l.prev s → l'.next a = l.next a)
    (hprev : ∀ b ∈ h::(ys++zs), b ≠ l.next s → l'.prev b = l.prev b) :
    Ring l' h (ys++t::zs) := by
  have hmem (a : N) (ha : a ∈ zs++h::ys) : a ∈ h::(ys++zs) := by
    simp only [List.mem_append, List.mem_cons] at ha ⊢
    tauto
  have ht' : t ∉ zs++h::ys := by
    intro hm
    apply ht
    simp only [List.mem_append, List.mem_cons] at hm ⊢
    tauto
  exact ring_rotate (ring_rehead (by simp) (ring_rotate hr) ht' hin hout
    (fun a ha => hnext a (hmem a ha)) (fun b hb => hprev b (hmem b hb)))

/-- The nodes of another ring come in between the head and the first one. -/
theorem ring_splice {a h : N} {xs ys : List N} (hx : xs ≠ []) (hxs : Ring l a xs)
    (hys : Ring l h ys) (hd : List.Disjoint xs (h::ys)) (hin : Linked l' h (l.next a))
    (hout : Linked l' (l.prev a) (l.next h))
    (hnext : ∀ b ∈ xs++ys, b ≠ l.prev a → l'.next b = l.next b)
    (hprev : ∀ b ∈ xs++h::ys, b ≠ l.next a → b ≠ l.next h → l'.prev b = l.prev b) :
    Ring l' h (xs++ys) := by
  have hfirst := ring_next hxs hx
  have hlast := ring_prev hxs hx
  obtain ⟨hn,hc,-,-⟩ := (ring_closed hx).mp hxs
  obtain ⟨-,hn⟩ := List.nodup_cons.mp hn
  obtain ⟨hh,hny⟩ := List.nodup_cons.mp hys.nodup
  obtain ⟨hhx,hdy⟩ := List.disjoint_cons_right.mp hd
  rw [hfirst] at hin hprev
  rw [hlast] at hout hnext
  have hlx : xs.getLast hx ∈ xs := List.getLast_mem hx
  have hfx : xs.head hx ∈ xs := List.head_mem hx
  -- what is kept of the chain of `xs`
  have hcx : List.IsChain (Linked l') xs := by
    apply chain_kept hc
    · intro b hb
      apply hnext b (List.mem_append_left _ (List.dropLast_subset _ hb))
      rintro rfl
      rw [← List.dropLast_append_getLast hx] at hn
      exact (List.nodup_append.mp hn).2.2 _ hb _ (List.mem_singleton_self _) rfl
    · intro b hb
      have hbx := List.mem_of_mem_tail hb
      apply hprev b (List.mem_append_left _ hbx)
      · rintro rfl
        rw [← List.cons_head_tail hx] at hn
        exact (List.nodup_cons.mp hn).1 hb
      · rintro rfl
        cases ys with
        | nil => exact hhx (((ring_nil h).mp hys).1 ▸ hbx)
        | cons y ys =>
          rw [ring_next hys (List.cons_ne_nil y ys)] at hbx
          exact hdy hbx List.mem_cons_self
  have hnodup : (h::(xs++ys)).Nodup := by
    refine List.nodup_cons.mpr ⟨?_,hn.append hny hdy⟩
    rw [List.mem_append]
    exact not_or.mpr ⟨hhx,hh⟩
  have hne : xs++ys ≠ [] := List.append_ne_nil_of_left_ne_nil hx ys
  refine (ring_closed hne).mpr ⟨hnodup,?_,by rwa [List.head_append_of_ne_nil hx],?_⟩
  · cases ys with
    | nil => rwa [List.append_nil]
    | cons y ys =>
      obtain ⟨hny,hcy,hfy,-⟩ := (ring_closed (List.cons_ne_nil y ys)).mp hys
      refine List.isChain_append.mpr ⟨hcx,chain_kept hcy ?_ ?_,?_⟩
      · intro b hb
        have hby := List.dropLast_subset _ hb
        apply hnext b (List.mem_append_right _ hby)
        rintro rfl
        exact hdy hlx hby
      · intro b hb
        have hby := List.mem_of_mem_tail hb
        apply hprev b (List.mem_append_right _ (List.mem_cons_of_mem h hby))
        · rintro rfl
          exact hdy hfx hby
        · rintro rfl
          rw [hfy.1] at hb
          exact (List.nodup_cons.mp (List.nodup_cons.mp hny).2).1 hb
      · intro b hb c hc
        rw [List.getLast?_eq_some_getLast hx] at hb
        obtain rfl := Option.some.inj hb
        obtain rfl := Option.some.inj hc
        rwa [hfy.1] at hout
  · cases ys with
    | nil =>
      rw [((ring_nil h).mp hys).1] at hout
      simpa using hout
    | cons y ys =>
      obtain ⟨-,-,hfy,hly⟩ := (ring_closed (List.cons_ne_nil y ys)).mp hys
      rw [List.getLast_append_of_ne_nil _ (List.cons_ne_nil y ys)]
      have hmem := List.getLast_mem (List.cons_ne_nil y ys)
      constructor
      · rw [← hly.1]
        apply hnext _ (List.mem_append_right _ hmem)
        intro he
        exact hdy hlx (he ▸ hmem)
      · rw [← hly.2]
        apply hprev _ (List.mem_append_right _ List.mem_cons_self)
        · rintro rfl
          exact hhx hfx
        · intro he
          rw [hfy.1] at he
          exact hh (he ▸ List.mem_cons_self)

end BaseDrivers.LinkedRing
