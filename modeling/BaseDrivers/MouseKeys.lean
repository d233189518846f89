import Mathlib.Data.Int.Init
import Mathlib.Data.List.Induction
import BaseDrivers.Execution

/-!
# A USB mouse as three keys

Every report of the mouse is compared with the byte kept from the report
before it. A key is reported when its bit has changed; the value reported is
taken from bit 0 for all three keys.
-/

set_option autoImplicit false

namespace BaseDrivers.MouseKeys
open BaseDrivers.Execution

inductive Key where
  | KEY_L | KEY_S | KEY_ENTER
  deriving DecidableEq, Repr

/-- What the completion handler calls. -/
inductive Call where
  | input_event (code : Key) (value : ℤ)
  | input_sync
  | usb_submit_urb
  deriving DecidableEq, Repr

/-- The bytes a report leaves in `usb_buf`. -/
abbrev Report := ℕ → UInt8

/-- The static `pre_val`, and the calls so far. -/
structure Mouse where
  pre_val : UInt8
  calls : List Call

def boot : Mouse := ⟨0,[]⟩

/-- `(1 << i)` -/
def shifted (i : UInt8) : UInt8 := 1 <<< i

/-- One of the three tests of the handler. -/
def report_key (code : Key) (mask : UInt8) (usb_buf : Report) (s : Mouse) : Mouse :=
  if s.pre_val &&& mask ≠ usb_buf 0 &&& mask then
    { s with calls := s.calls++[.input_event code (if usb_buf 0 &&& shifted 0 ≠ 0 then 1 else 0),
      .input_sync] }
  else s

def usbmouse_as_key_irq (s : Mouse) (usb_buf : Report) : Mouse :=
  let s := report_key .KEY_L (shifted 0) usb_buf s
  let s := report_key .KEY_S (shifted 1) usb_buf s
  let s := report_key .KEY_ENTER (shifted 2) usb_buf s
  { pre_val := usb_buf 0, calls := s.calls++[.usb_submit_urb] }

/-- The button of the mouse a key stands for, as a bit of the first byte. -/
def mask : Key → UInt8
  | .KEY_L => shifted 0
  | .KEY_S => shifted 1
  | .KEY_ENTER => shifted 2

def bit (key : Key) (b : UInt8) : ℤ := if b &&& mask key ≠ 0 then 1 else 0

/-- The values emitted for a key. -/
def values (key : Key) (cs : List Call) : List ℤ :=
  cs.filterMap (fun c => match c with
    | .input_event code v => if code = key then some v else none
    | .input_sync => none
    | .usb_submit_urb => none)

/-- The first byte of the last report; all buttons are released before. -/
def previous (rs : List Report) : UInt8 := (rs.getLast?.map (fun r => r 0)).getD 0

def after (rs : List Report) : Mouse := run usbmouse_as_key_irq boot rs

/-- What the next report has emitted for a key. -/
def emitted (key : Key) (rs : List Report) (r : Report) : List ℤ :=
  values key ((after (rs++[r])).calls.drop (after rs).calls.length)

/-- The next report leaves every key at its bit, and emits for a key when
the bit is another one than before. -/
def Follows (rs : List Report) (r : Report) : Prop :=
  ∀ key, (values key (after (rs++[r])).calls).getLastD 0 = bit key (r 0) ∧
    (emitted key rs r ≠ [] ↔ bit key (previous rs) ≠ bit key (r 0))

/-- A bit that changes changes to what bit 0 is. -/
def ChangesWithLeft (rs : List Report) (r : Report) : Prop :=
  ∀ key, bit key (previous rs) ≠ bit key (r 0) → bit key (r 0) = bit .KEY_L (r 0)

theorem mask_values (key : Key) (b : UInt8) : b &&& mask key = 0 ∨ b &&& mask key = mask key := by
  have hbits : ∀ b : BitVec 8, (b &&& 1 = 0 ∨ b &&& 1 = 1) ∧ (b &&& 2 = 0 ∨ b &&& 2 = 2) ∧
      (b &&& 4 = 0 ∨ b &&& 4 = 4) := by decide +kernel
  have h := hbits b.toBitVec
  cases key with
  | KEY_L => exact h.1.imp (UInt8.toBitVec_inj.mp) (UInt8.toBitVec_inj.mp)
  | KEY_S => exact h.2.1.imp (UInt8.toBitVec_inj.mp) (UInt8.toBitVec_inj.mp)
  | KEY_ENTER => exact h.2.2.imp (UInt8.toBitVec_inj.mp) (UInt8.toBitVec_inj.mp)

theorem changed_iff (key : Key) (b c : UInt8) :
    b &&& mask key ≠ c &&& mask key ↔ bit key b ≠ bit key c := by
  have hne : mask key ≠ 0 := by cases key <;> decide
  rcases mask_values key b with hb | hb <;> rcases mask_values key c with hc | hc <;>
    simp [bit, hb, hc, hne, hne.symm]

/-- What the handler emits for a key. -/
def news (key : Key) (b c : UInt8) : List ℤ :=
  if bit key b ≠ bit key c then [bit .KEY_L c] else []

theorem values_append (key : Key) (cs ds : List Call) :
    values key (cs++ds) = values key cs++values key ds := List.filterMap_append

theorem report_key_pre_val (code : Key) (m : UInt8) (r : Report) (s : Mouse) :
    (report_key code m r s).pre_val = s.pre_val := by
  rw [report_key]
  split <;> rfl

theorem report_key_extends (code : Key) (m : UInt8) (r : Report) (s : Mouse) :
    s.calls <+: (report_key code m r s).calls := by
  rw [report_key]
  split
  · exact List.prefix_append _ _
  · exact List.prefix_refl _

theorem report_key_values (key code : Key) (r : Report) (s : Mouse) :
    values key (report_key code (mask code) r s).calls =
      values key s.calls++if code = key then news key s.pre_val (r 0) else [] := by
  rw [report_key]
  by_cases hb : bit code s.pre_val = bit code (r 0)
  · rw [if_neg ((not_congr (changed_iff code s.pre_val (r 0))).mpr (not_not.mpr hb))]
    split
    · next h => rw [← h, news, if_neg (not_not.mpr hb), List.append_nil]
    · exact (List.append_nil _).symm
  · rw [if_pos ((changed_iff code s.pre_val (r 0)).mpr hb), values_append]
    by_cases h : code = key
    · subst h
      simp only [values, List.filterMap_cons, List.filterMap_nil, if_true, news, if_pos hb]
      rfl
    · simp [values, h]

theorem irq_values (key : Key) (s : Mouse) (r : Report) :
    values key (usbmouse_as_key_irq s r).calls =
      values key s.calls++news key s.pre_val (r 0) := by
  rw [usbmouse_as_key_irq, values_append]
  have h (code : Key) (t : Mouse) := report_key_values key code r t
  have hL := h .KEY_L s
  have hS := h .KEY_S (report_key .KEY_L (shifted 0) r s)
  have hE := h .KEY_ENTER (report_key .KEY_S (shifted 1) r (report_key .KEY_L (shifted 0) r s))
  simp only [mask] at hL hS hE
  rw [hE, hS, hL]
  cases key <;> simp [values, report_key_pre_val]

theorem irq_extends (s : Mouse) (r : Report) :
    s.calls <+: (usbmouse_as_key_irq s r).calls := by
  apply List.IsPrefix.trans _ (List.prefix_append _ _)
  apply List.IsPrefix.trans _ (report_key_extends _ _ _ _)
  apply List.IsPrefix.trans _ (report_key_extends _ _ _ _)
  exact report_key_extends _ _ _ _

theorem after_append (rs : List Report) (r : Report) :
    after (rs++[r]) = usbmouse_as_key_irq (after rs) r := by
  rw [after, run_append]
  rfl

theorem previous_append (rs : List Report) (r : Report) : previous (rs++[r]) = r 0 := by
  simp [previous]

theorem after_pre_val (rs : List Report) : (after rs).pre_val = previous rs := by
  cases rs using List.reverseRecOn with
  | nil => rfl
  | append_singleton rs r =>
    rw [after_append, previous_append]
    rfl

theorem after_values (key : Key) (rs : List Report) (r : Report) :
    values key (after (rs++[r])).calls =
      values key (after rs).calls++news key (previous rs) (r 0) := by
  rw [after_append, irq_values, after_pre_val]

theorem emitted_news (key : Key) (rs : List Report) (r : Report) :
    emitted key rs r = news key (previous rs) (r 0) := by
  obtain ⟨cs,hcs⟩ := irq_extends (after rs) r
  have h := after_values key rs r
  rw [after_append, ← hcs, values_append] at h
  rw [emitted, after_append, ← hcs, List.drop_left]
  exact List.append_cancel_left h

/-- The value last emitted for a key is its bit of the last report. -/
def Mapped (rs : List Report) : Prop :=
  ∀ key, (values key (after rs).calls).getLastD 0 = bit key (previous rs)

theorem boot_mapped : Mapped [] := by
  intro key
  cases key <;> rfl

theorem emits_iff (key : Key) (rs : List Report) (r : Report) :
    emitted key rs r ≠ [] ↔ bit key (previous rs) ≠ bit key (r 0) := by
  rw [emitted_news, news]
  split <;> simp [*]

theorem follows_mapped (rs : List Report) (r : Report) : Follows rs r ↔ Mapped (rs++[r]) := by
  constructor
  · intro h key
    rw [previous_append]
    exact (h key).1
  · intro h key
    have hkey := h key
    rw [previous_append] at hkey
    exact ⟨hkey,emits_iff key rs r⟩

theorem mapped_step (rs : List Report) (r : Report) (h : Mapped rs) :
    Mapped (rs++[r]) ↔ ChangesWithLeft rs r := by
  apply forall_congr'
  intro key
  rw [after_values, previous_append, news]
  split
  · next hb => simp [hb, eq_comm]
  · next hb => rw [List.append_nil, h key, not_not.mp hb]; simp

theorem follows_last {rs : List Report} (h : ∀ as r, as++[r] <+: rs → Follows as r) :
    Mapped rs := by
  cases rs using List.reverseRecOn with
  | nil => exact boot_mapped
  | append_singleton rs r => exact (follows_mapped rs r).mp (h rs r (List.prefix_refl _))

theorem prefixes_append (P : List Report → Report → Prop) (rs : List Report) (r : Report) :
    (∀ as a, as++[a] <+: rs++[r] → P as a) ↔ (∀ as a, as++[a] <+: rs → P as a) ∧ P rs r := by
  constructor
  · intro h
    exact ⟨fun as a ha => h as a (ha.trans (List.prefix_append _ _)),h rs r (List.prefix_refl _)⟩
  · rintro ⟨h,hr⟩ as a ha
    rcases List.prefix_concat_iff.mp ha with heq | ha
    · obtain ⟨rfl,hlast⟩ := List.append_inj' heq rfl
      exact List.head_eq_of_cons_eq hlast ▸ hr
    · exact h as a ha

/-- Along every sequence of reports the keys follow the buttons exactly while
every bit that changes changes to what the bit of the left button is. -/
theorem keys_follow_iff (rs : List Report) :
    (∀ as r, as++[r] <+: rs → Follows as r) ↔ ∀ as r, as++[r] <+: rs → ChangesWithLeft as r := by
  induction rs using List.reverseRecOn with
  | nil => simp
  | append_singleton rs r ih =>
    rw [prefixes_append, prefixes_append, ← ih]
    apply and_congr_right
    intro h
    rw [follows_mapped]
    exact mapped_step rs r (follows_last h)

/-- The right button alone: bit 1 changes while bit 0 is 0. -/
theorem right_button_lost : ¬ ∀ rs : List Report, ∀ as r, as++[r] <+: rs → Follows as r := by
  intro h
  have hf := (h [fun _ => 2] [] (fun _ => 2) (List.prefix_refl _) .KEY_S).1
  revert hf
  decide

end BaseDrivers.MouseKeys
