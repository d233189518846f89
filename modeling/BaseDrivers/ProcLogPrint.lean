import BaseDrivers.ProcLog

/-!
# Printing into the log

A text is formatted into a scratch buffer and put into the log from there.
The copying loop reads the byte behind the text at every turn, and the
formatting is not told how long the buffer is.
-/

set_option autoImplicit false

namespace BaseDrivers.ProcLogPrint
open BaseDrivers.Execution BaseDrivers.ProcLog

def INT_MAX : ℕ := 0x7fffffff

/-- The log, and the memory from `tmp_buf` on; what lies at `MYLOG_BUF_LEN`
and behind it is not part of the buffer. -/
structure State where
  log : Log
  tmp_buf : ℕ → UInt8

/-- The bytes `vsnprintf` stores, each with its index: as much of the text as
the size leaves room for, and a terminating zero. -/
def vsnprintf (size : ℕ) (text : List UInt8) : List (UInt8 × ℕ) :=
  if size = 0 then [] else (text.take (size-1)++[0]).zipIdx

def store (buf : ℕ → UInt8) (ws : List (UInt8 × ℕ)) : ℕ → UInt8 :=
  ws.foldl (fun buf w i => if i = w.2 then w.1 else buf i) buf

/-- The value returned, the indices of `tmp_buf` written to, and the state
afterwards. -/
structure Printed where
  ret : ℕ
  written : List ℕ
  state : State

/-- `myprintk` for a call that formats to `text`. -/
def myprintk (text : List UInt8) (s : State) : Printed :=
  let ws := vsnprintf INT_MAX text
  let i := text.length
  let tmp_buf := store s.tmp_buf ws
  let log := (List.range i).foldl (fun l _ => mylog_putc (tmp_buf i) l) s.log
  ⟨i,ws.map Prod.snd,⟨log,tmp_buf⟩⟩

/-- The bytes are put one after the other. -/
def putAll (cs : List UInt8) (l : Log) : Log := run (fun l c => mylog_putc c l) l cs

/-- A text that fits is put into the log and its length returned, and a longer
one stays inside the buffer. -/
def Prints (text : List UInt8) (s : State) : Prop :=
  (text.length < MYLOG_BUF_LEN →
    (myprintk text s).state.log = putAll text s.log ∧ (myprintk text s).ret = text.length) ∧
  (MYLOG_BUF_LEN ≤ text.length → ∀ i ∈ (myprintk text s).written, i < MYLOG_BUF_LEN)

theorem store_last (buf : ℕ → UInt8) (ws : List (UInt8 × ℕ)) (c : UInt8) (i : ℕ) :
    store buf (ws++[(c,i)]) i = c := by
  rw [store, List.foldl_append]
  exact if_pos rfl

/-- The byte behind a text that is not cut is its terminating zero. -/
theorem behind_text (buf : ℕ → UInt8) {size : ℕ} {text : List UInt8} (h : text.length < size) :
    store buf (vsnprintf size text) text.length = 0 := by
  rw [vsnprintf, if_neg (Nat.ne_zero_of_lt h), List.take_of_length_le (by omega),
    List.zipIdx_append]
  simp only [List.zipIdx_singleton, Nat.zero_add]
  exact store_last _ _ _ _

/-- What is stored lies together and is one byte longer than the text. -/
theorem written_eq (text : List UInt8) (s : State) :
    (myprintk text s).written = List.range (min (INT_MAX-1) text.length+1) := by
  have hsize : ¬ INT_MAX = 0 := by decide
  show (vsnprintf INT_MAX text).map Prod.snd = _
  rw [vsnprintf, if_neg hsize, List.zipIdx_map_snd, List.length_append, List.length_take,
    List.range_eq_range']
  rfl

theorem written_inside_iff (text : List UInt8) (s : State) :
    (∀ i ∈ (myprintk text s).written, i < MYLOG_BUF_LEN) ↔ text.length < MYLOG_BUF_LEN := by
  rw [written_eq]
  simp only [List.mem_range]
  have hsize : MYLOG_BUF_LEN < INT_MAX-1 := by decide
  constructor
  · intro h
    have hlast := h (min (INT_MAX-1) text.length) (Nat.lt_succ_self _)
    omega
  · intro h i hi
    omega

theorem putAll_append (cs ds : List UInt8) (l : Log) :
    putAll (cs++ds) l = putAll ds (putAll cs l) := run_append _ l cs ds

theorem putAll_valid (cs : List UInt8) {l : Log} (h : Valid l) : Valid (putAll cs l) :=
  always_last (always_of_step Valid (fun _ c hv _ => (putc_retained hv c).1) l cs h
    (along_true _ l cs))

/-- No text that fits is overwritten by its own end. -/
theorem putAll_retains (cs : List UInt8) {l : Log} (h : Valid l)
    (hlen : cs.length < MYLOG_BUF_LEN) : cs <:+ retained (putAll cs l) := by
  induction cs using List.reverseRecOn with
  | nil => exact List.nil_suffix
  | append_singleton cs c ih =>
    rw [List.length_append, List.length_singleton] at hlen
    obtain ⟨t,ht⟩ := ih (by omega)
    rw [putAll_append]
    show _ <:+ retained (mylog_putc c (putAll cs l))
    rw [(putc_retained (putAll_valid cs h) c).2, push, ← ht]
    split_ifs with hfull
    · have hne : t ≠ [] := by
        rintro rfl
        rw [List.nil_append] at hfull
        omega
      rw [List.tail_append_of_ne_nil hne, List.append_assoc]
      exact List.suffix_append _ _
    · rw [List.append_assoc]
      exact List.suffix_append _ _

/-- The loop puts one and the same byte at every turn. -/
theorem loop_puts (c : UInt8) (n : ℕ) (l : Log) :
    (List.range n).foldl (fun l _ => mylog_putc c l) l = putAll (List.replicate n c) l := by
  induction n with
  | zero => rfl
  | succ n ih =>
    rw [List.range_succ, List.foldl_append, ih, List.replicate_succ', putAll_append]
    rfl

theorem print_puts_zeros {text : List UInt8} (s : State) (h : text.length < INT_MAX) :
    (myprintk text s).state.log = putAll (List.replicate text.length 0) s.log := by
  rw [← loop_puts, ← behind_text s.tmp_buf h]
  rfl

/-- A text is printed exactly where it fits and consists of zeros. -/
theorem prints_iff (text : List UInt8) (s : State) (h : Valid s.log) :
    Prints text s ↔ text.length < MYLOG_BUF_LEN ∧ ∀ c ∈ text, c = 0 := by
  have hsize : MYLOG_BUF_LEN < INT_MAX := by decide
  constructor
  · rintro ⟨hshort,hlong⟩
    have hlt : text.length < MYLOG_BUF_LEN := by
      by_contra hge
      exact hge ((written_inside_iff text s).mp (hlong (Nat.le_of_not_lt hge)))
    have hput := (hshort hlt).1
    rw [print_puts_zeros s (by omega)] at hput
    have hzeros := putAll_retains (List.replicate text.length 0) h
      (by rw [List.length_replicate]; exact hlt)
    have htext := putAll_retains text h hlt
    rw [hput] at hzeros
    have hsame : text = List.replicate text.length 0 :=
      (List.suffix_of_suffix_length_le htext hzeros List.length_replicate.ge).eq_of_length
        List.length_replicate.symm
    refine ⟨hlt,fun c hc => ?_⟩
    rw [hsame] at hc
    exact List.eq_of_mem_replicate hc
  · rintro ⟨hlt,hzero⟩
    constructor
    · intro _
      rw [print_puts_zeros s (by omega), ← List.eq_replicate_of_mem hzero]
      exact ⟨rfl,rfl⟩
    · intro hge
      omega

/-- Behind what the log holds already. -/
theorem prints_zeros : Prints [0,0] ⟨putAll [65,66,67] boot,fun _ => 7⟩ :=
  (prints_iff [0,0] ⟨putAll [65,66,67] boot,fun _ => 7⟩ (putAll_valid [65,66,67] boot_valid)).mpr
    ⟨by decide,by simp⟩

/-- One letter is logged as a zero. -/
theorem prints_no_letter : ¬ Prints [65] ⟨boot,fun _ => 0⟩ := by
  intro h
  exact absurd (h.1 (by decide)).1 (by decide +kernel)

end BaseDrivers.ProcLogPrint
