import Gateway.Lib.Simulation
import Gateway.Uart.Segments

/-!
# The line and what becomes of its bytes

`UartState` says what is in the buffer; here a history says what came before. It holds the bytes of
the line, the pieces that have left the buffer, and how many bytes of the buffer are *behind*: no
event in the queue counts them, because theirs was dropped (the queue was full) or reset away
(`uart_flush_input` and `xQueueReset` are two steps). An event whose bytes came in while `l` bytes
were behind is read `l` bytes too early.

* `Placed`: where the bytes of the pending events are in the buffer. `Placed.append`,
  `Placed.push`, `Placed.pop`: what an interrupt and a read do to it.
* **`line_conserved`**: the pieces and the buffer make up the line, so that a byte is read at most
  once and in order, and none is lost but by a flush.
* **`read_lags`**: a read takes the bytes of the line that are its event's lag before the event's
  own.
* **`delayed_until_flush`**: bytes that are left over when nothing is pending delay every later
  reading, up to the next flush.
-/

namespace Gateway.Uart

open Gateway.Lib

/-- Bytes that left the buffer: read by the task, or flushed. -/
inductive Piece where
  | read (bytes : List Byte)
  | flushed (bytes : List Byte)
  deriving DecidableEq, Repr

namespace Piece

def bytes : Piece → List Byte
  | .read bs => bs
  | .flushed bs => bs

/-- What `parse_data_to_json` is given. -/
def parsed : Piece → Option (List Byte)
  | .read bs => some bs
  | .flushed _ => none

end Piece

/-- The history of the line. -/
structure Tape where
  line : List Byte
  pieces : List Piece
  /-- How many bytes of the buffer are behind. -/
  lag : Nat
  /-- The lag each data event not yet read was queued with, the oldest first. -/
  lags : List Nat
  deriving DecidableEq, Repr

namespace Tape

def init : Tape := ⟨[], [], 0, []⟩

/-- How many bytes have left the buffer. -/
def taken (t : Tape) : Nat := (t.pieces.flatMap Piece.bytes).length

end Tape

/-- The event of an interrupt in `s` is read, if the task gets that far. -/
def Counted (s : UartState) : Prop := s.queue.length < queueLen ∧ s.pc ≠ .resetting

instance (s : UartState) : Decidable (Counted s) := inferInstanceAs (Decidable (_ ∧ _))

/-- The history of a step from `s`. -/
def Tape.next (t : Tape) (s : UartState) : UartAction → Tape
  | .isr (.data bytes) =>
    { t with
      line := t.line ++ bytes
      lag := if Counted s then t.lag else t.lag + bytes.length
      lags := if Counted s then t.lags ++ [t.lag] else t.lags }
  | .isr _ => t
  | .receive => t
  | .read =>
    match s.pc with
    | .reading own _ =>
      { t with pieces := t.pieces ++ [.read (s.buf.take own.length)], lags := t.lags.tail }
    | _ => t
  | .flush => { t with pieces := t.pieces ++ [.flushed s.buf], lag := 0, lags := [] }
  | .reset => t

/-- The driver, the task and the history. -/
def tapeStep : UartState × Tape → UartAction → Option (UartState × Tape) :=
  withHist uartStep Tape.next

/-! ## The pending events in the buffer -/

/-- **Where the bytes of the pending events are.** The own bytes of an event of lag `l` are `l`
places on from what it will read, and what the events leave is behind. -/
def Placed : List (List Byte) → List Nat → Nat → List Byte → Prop
  | [], [], lag, buf => buf.length = lag
  | own :: owns, l :: lags, lag, buf =>
    own.length ≤ buf.length ∧ (buf.drop l).take own.length = own ∧
      Placed owns lags lag (buf.drop own.length)
  | _, _, _, _ => False

section Placed

variable {owns : List (List Byte)} {lags : List Nat} {lag l : Nat} {buf own : List Byte}

theorem take_drop_append (h : (buf.drop l).take own.length = own) (more : List Byte) :
    ((buf ++ more).drop l).take own.length = own := by
  have hlen : own.length ≤ (buf.drop l).length := by
    have := congrArg List.length h
    rw [List.length_take] at this
    omega
  by_cases hl : l ≤ buf.length
  · rw [List.drop_append_of_le_length hl, List.take_append_of_le_length hlen]
    exact h
  · -- past the end there are no bytes, so the event has none
    rw [List.drop_eq_nil_of_le (by omega), List.length_nil, Nat.le_zero] at hlen
    rw [List.length_eq_zero_iff.mp hlen]
    rfl

/-- Bytes come in whose event is not counted. -/
theorem Placed.append (h : Placed owns lags lag buf) (bytes : List Byte) :
    Placed owns lags (lag + bytes.length) (buf ++ bytes) := by
  induction owns generalizing lags buf with
  | nil =>
    cases lags with
    | nil =>
      have : buf.length = lag := h
      show (buf ++ bytes).length = lag + bytes.length
      rw [List.length_append, this]
    | cons l lags => exact h.elim
  | cons own owns ih =>
    cases lags with
    | nil => exact h.elim
    | cons l lags =>
      obtain ⟨hle, hown, hrest⟩ := h
      refine ⟨?_, take_drop_append hown bytes, ?_⟩
      · rw [List.length_append]
        omega
      · rw [List.drop_append_of_le_length hle]
        exact ih hrest

/-- Bytes come in with their event. -/
theorem Placed.push (h : Placed owns lags lag buf) (bytes : List Byte) :
    Placed (owns ++ [bytes]) (lags ++ [lag]) lag (buf ++ bytes) := by
  induction owns generalizing lags buf with
  | nil =>
    cases lags with
    | nil =>
      have hlen : buf.length = lag := h
      refine ⟨?_, ?_, ?_⟩
      · rw [List.length_append]
        omega
      · rw [← hlen, List.drop_left, List.take_length]
      · show ((buf ++ bytes).drop bytes.length).length = lag
        rw [List.length_drop, List.length_append]
        omega
    | cons l lags => exact h.elim
  | cons own owns ih =>
    cases lags with
    | nil => exact h.elim
    | cons l lags =>
      obtain ⟨hle, hown, hrest⟩ := h
      refine ⟨?_, take_drop_append hown bytes, ?_⟩
      · rw [List.length_append]
        omega
      · rw [List.drop_append_of_le_length hle]
        exact ih hrest

/-- **A read**: its bytes are in the buffer, and its event's own are `l` places on. -/
theorem Placed.pop (h : Placed (own :: owns) lags lag buf) :
    ∃ l rest, lags = l :: rest ∧ own.length ≤ buf.length ∧
      (buf.drop l).take own.length = own ∧ Placed owns rest lag (buf.drop own.length) := by
  cases lags with
  | nil => exact h.elim
  | cons l rest => exact ⟨l, rest, rfl, h⟩

end Placed

/-! ## The invariant -/

/-- **The invariant of the history.** Between the flush and the reset no event is counted. -/
structure TapeInv (s : UartState) (t : Tape) : Prop where
  line : t.line = t.pieces.flatMap Piece.bytes ++ s.buf
  parsed : s.parsed = t.pieces.filterMap Piece.parsed
  placed : s.pc ≠ .resetting → Placed (s.pending.map Prod.fst) t.lags t.lag s.buf
  flushed : s.pc = .resetting → t.lags = [] ∧ s.buf.length = t.lag

variable {s s' : UartState} {t t' : Tape} {a : UartAction}

theorem tapeInv_init : TapeInv .init .init where
  line := rfl
  parsed := rfl
  placed _ := rfl
  flushed h := absurd h (by decide)

/-- An interrupt that only reports. -/
theorem TapeInv.report (h : TapeInv s t) {e : UartEvent} (he : e.pending = []) :
    TapeInv { s with queue := enqueue s.queue e } t where
  line := h.line
  parsed := h.parsed
  placed hpc := by
    have := h.placed hpc
    unfold UartState.pending at this ⊢
    rwa [enqueue_pending s.queue he]
  flushed := h.flushed

/-- **An interrupt that brings bytes.** -/
theorem TapeInv.data (h : TapeInv s t) (bytes : List Byte) :
    TapeInv (uartIsr s (.data bytes)) (t.next s (.isr (.data bytes))) := by
  have hline : t.line ++ bytes = t.pieces.flatMap Piece.bytes ++ (s.buf ++ bytes) := by
    rw [h.line, List.append_assoc]
  by_cases hc : Counted s
  · -- the event is queued, and is read
    have hq : (uartIsr s (.data bytes)).queue = s.queue ++ [.data bytes s.stray] := by
      simp only [uartIsr, enqueue, if_pos hc.1]
    have hp : (uartIsr s (.data bytes)).pending.map Prod.fst =
        s.pending.map Prod.fst ++ [bytes] := by
      unfold UartState.pending
      rw [hq, List.flatMap_append, List.flatMap_singleton, ← List.append_assoc, List.map_append]
      rfl
    have hplaced := (h.placed hc.2).push bytes
    rw [← hp] at hplaced
    simp only [Tape.next, if_pos hc]
    exact ⟨hline, h.parsed, fun _ => hplaced, fun hr => absurd hr hc.2⟩
  · simp only [Tape.next, if_neg hc]
    refine ⟨hline, h.parsed, fun hpc => ?_, fun hr => ?_⟩
    · -- the queue is full, and the event is dropped
      have hfull : ¬ s.queue.length < queueLen := fun hroom => hc ⟨hroom, hpc⟩
      have hq : (uartIsr s (.data bytes)).queue = s.queue := by
        simp only [uartIsr, enqueue, if_neg hfull]
      have hplaced := (h.placed hpc).append bytes
      unfold UartState.pending at hplaced ⊢
      rw [hq]
      exact hplaced
    · obtain ⟨hlags, hlen⟩ := h.flushed hr
      refine ⟨hlags, ?_⟩
      show (s.buf ++ bytes).length = t.lag + bytes.length
      rw [List.length_append, hlen]

theorem TapeInv.receive (h : TapeInv s t) {e : UartEvent} {queue : List UartEvent}
    (hpc : s.pc = .receiving) (hq : s.queue = e :: queue) :
    TapeInv { s with queue := queue, pc := dispatch e } t := by
  have hplaced := h.placed (by rw [hpc]; simp)
  unfold UartState.pending at hplaced
  rw [hpc, hq] at hplaced
  refine ⟨h.line, h.parsed, fun _ => ?_, fun hr => ?_⟩
  · cases e <;> exact hplaced
  · cases e <;> exact absurd hr (by simp [dispatch])

theorem TapeInv.read (h : TapeInv s t) {own : List Byte} {stray : Bool}
    (hpc : s.pc = .reading own stray) :
    TapeInv { s with
      buf := s.buf.drop own.length
      parsed := s.parsed ++ [s.buf.take own.length]
      pc := .receiving } (t.next s .read) := by
  have hplaced := h.placed (by rw [hpc]; simp)
  unfold UartState.pending at hplaced
  rw [hpc] at hplaced
  obtain ⟨l, rest, hlags, -, -, hrest⟩ := hplaced.pop
  unfold Tape.next
  rw [hpc, hlags]
  refine ⟨?_, ?_, fun _ => hrest, fun hr => absurd hr (by simp)⟩
  · show t.line = (t.pieces ++ [_]).flatMap Piece.bytes ++ s.buf.drop own.length
    rw [List.flatMap_append, List.flatMap_singleton, List.append_assoc, h.line]
    exact congrArg _ (List.take_append_drop _ _).symm
  · show s.parsed ++ [_] = (t.pieces ++ [_]).filterMap Piece.parsed
    rw [List.filterMap_append, h.parsed]
    rfl

theorem TapeInv.flush (h : TapeInv s t) :
    TapeInv { s with buf := [], stray := false, pc := .resetting } (t.next s .flush) := by
  refine ⟨?_, ?_, fun hr => absurd rfl hr, fun _ => ⟨rfl, rfl⟩⟩
  · show t.line = (t.pieces ++ [_]).flatMap Piece.bytes ++ []
    rw [List.flatMap_append, List.flatMap_singleton, List.append_nil]
    exact h.line
  · show s.parsed = (t.pieces ++ [_]).filterMap Piece.parsed
    rw [List.filterMap_append, h.parsed]
    exact (List.append_nil _).symm

/-- **The step lemma.** -/
theorem tapeInv_step (h : TapeInv s t) (hs : uartStep s a = some s') :
    TapeInv s' (t.next s a) := by
  cases a with
  | isr i =>
    cases hs
    cases i with
    | data bytes => exact h.data bytes
    | fifoOvf => exact h.report rfl
    | bufferFull => exact h.report rfl
    | other => exact h.report rfl
  | receive =>
    simp only [uartStep] at hs
    split at hs
    · rename_i e queue hpc hq
      cases hs
      exact h.receive hpc hq
    · cases hs
  | read =>
    simp only [uartStep] at hs
    split at hs
    · rename_i own stray hpc
      rw [Option.ite_none_right_eq_some] at hs
      obtain ⟨-, hs'⟩ := hs
      cases hs'
      exact h.read hpc
    · cases hs
  | flush =>
    simp only [uartStep] at hs
    split at hs
    · cases hs
      exact h.flush
    · cases hs
  | reset =>
    simp only [uartStep] at hs
    split at hs
    · rename_i hpc
      cases hs
      obtain ⟨hlags, hlen⟩ := h.flushed hpc
      refine ⟨h.line, h.parsed, fun _ => ?_, fun hr => absurd hr (by simp)⟩
      unfold Tape.next
      rw [hlags]
      exact hlen
    · cases hs

/-- **The run lemma.** -/
theorem tapeInv_reach (hr : Reach tapeStep (.init, .init) (s, t)) : TapeInv s t := by
  refine reach_invariant (I := fun p => TapeInv p.1 p.2) tapeInv_init ?_ hr
  intro p a q hp hq
  obtain ⟨hs, hnext⟩ := withHist_some hq
  rw [hnext]
  exact tapeInv_step hp hs

/-! ## What becomes of the bytes -/

def Piece.flush : Piece → Option (List Byte)
  | .read _ => none
  | .flushed bs => some bs

/-- The history is that of the run. -/
structure TapeOf (done : List UartAction) (t : Tape) : Prop where
  line : t.line = (segmentsOf done).flatten
  flushes : (t.pieces.filterMap Piece.flush).length = done.count .flush

theorem tapeOf_step {done : List UartAction} (h : TapeOf done t)
    (hs : uartStep s a = some s') : TapeOf (done ++ [a]) (t.next s a) := by
  have hseg (b : UartAction) (bytes : List Byte) (hb : segmentsOf [b] = [bytes]) :
      (segmentsOf (done ++ [b])).flatten = t.line ++ bytes := by
    rw [segmentsOf_append, hb, List.flatten_append, List.flatten_singleton, h.line]
  have hnone (b : UartAction) (hb : segmentsOf [b] = []) :
      t.line = (segmentsOf (done ++ [b])).flatten := by
    rw [segmentsOf_append, hb, List.append_nil, h.line]
  have hcount (b : UartAction) (hb : b ≠ .flush) :
      (t.pieces.filterMap Piece.flush).length = (done ++ [b]).count .flush := by
    rw [List.count_append, List.count_singleton, if_neg (by simpa using hb), h.flushes]
    rfl
  cases a with
  | isr i =>
    cases i with
    | data bytes => exact ⟨(hseg _ bytes rfl).symm, hcount _ (by simp)⟩
    | fifoOvf => exact ⟨hnone _ rfl, hcount _ (by simp)⟩
    | bufferFull => exact ⟨hnone _ rfl, hcount _ (by simp)⟩
    | other => exact ⟨hnone _ rfl, hcount _ (by simp)⟩
  | receive => exact ⟨hnone _ rfl, hcount _ (by simp)⟩
  | read =>
    simp only [uartStep] at hs
    split at hs
    · rename_i own stray hpc
      simp only [Tape.next, hpc]
      refine ⟨hnone _ rfl, ?_⟩
      show ((t.pieces ++ [_]).filterMap Piece.flush).length = _
      rw [List.filterMap_append, ← hcount .read (by simp)]
      exact congrArg List.length (List.append_nil _)
    · cases hs
  | flush =>
    refine ⟨hnone _ rfl, ?_⟩
    show ((t.pieces ++ [_]).filterMap Piece.flush).length = _
    rw [List.filterMap_append, List.length_append, h.flushes, List.count_append]
    rfl
  | reset => exact ⟨hnone _ rfl, hcount _ (by simp)⟩

/-- **What becomes of the bytes of the line**, in every run, whatever overflows. They are, in order,
the pieces that were read or flushed and what is still in the buffer; the pieces read are what was
parsed, and each flush is one piece. -/
theorem line_conserved {as : List UartAction} (hr : runActs uartStep .init as = some s) :
    ∃ pieces : List Piece, (segmentsOf as).flatten = pieces.flatMap Piece.bytes ++ s.buf ∧
      pieces.filterMap Piece.parsed = s.parsed ∧
      (pieces.filterMap Piece.flush).length = as.count .flush := by
  obtain ⟨t, ht⟩ := run_withHist Tape.next (h := .init) hr
  have hinv := tapeInv_reach ⟨as, ht⟩
  have hof : TapeOf as t := by
    refine run_invariant (I := fun done p => TapeOf done p.2) ⟨rfl, rfl⟩ ?_ ht
    intro done p a q hp hq
    obtain ⟨hs, hnext⟩ := withHist_some hq
    rw [hnext]
    exact tapeOf_step hp hs
  exact ⟨t.pieces, hof.line ▸ hinv.line, hinv.parsed.symm, hof.flushes⟩

/-- A recovery into which a byte falls: a flush of nothing, and two bytes in the buffer. -/
theorem line_conserved_recovery : ∃ pieces : List Piece,
    [1, 2] = pieces.flatMap Piece.bytes ++ [1, 2] ∧ pieces.filterMap Piece.parsed = [] ∧
      (pieces.filterMap Piece.flush).length = 1 := by
  have hr : runActs uartStep .init recoveryRun =
      some ⟨[1, 2], [], .reading [2] true, true, []⟩ := by decide
  exact line_conserved hr

/-- **A read**, by the line. -/
theorem TapeInv.lagged (h : TapeInv s t) {own : List Byte} {stray : Bool}
    (hpc : s.pc = .reading own stray) (hs : uartStep s .read = some s') :
    ∃ l rest, t.lags = l :: rest ∧
      s'.parsed = s.parsed ++ [(t.line.drop t.taken).take own.length] ∧
      (t.line.drop (t.taken + l)).take own.length = own := by
  have hplaced := h.placed (by rw [hpc]; simp)
  unfold UartState.pending at hplaced
  rw [hpc] at hplaced
  obtain ⟨l, rest, hlags, hle, hown, -⟩ := hplaced.pop
  have hbuf : t.line.drop t.taken = s.buf := by
    rw [h.line]
    exact List.drop_left
  simp only [uartStep, hpc, if_pos hle] at hs
  cases hs
  refine ⟨l, rest, hlags, ?_, ?_⟩
  · rw [hbuf]
  · rw [← List.drop_drop, hbuf]
    exact hown

/-- **A read lags.** In every run, a read returns the bytes of the line that follow what has left
the buffer; its event's own bytes are those `l` places on, where `l` bytes of the buffer were behind
when the event was queued. -/
theorem read_lags (hr : Reach tapeStep (.init, .init) (s, t)) {own : List Byte} {stray : Bool}
    (hpc : s.pc = .reading own stray) (hs : uartStep s .read = some s') :
    ∃ l rest, t.lags = l :: rest ∧
      s'.parsed = s.parsed ++ [(t.line.drop t.taken).take own.length] ∧
      (t.line.drop (t.taken + l)).take own.length = own :=
  (tapeInv_reach hr).lagged hpc hs

/-- The byte 1 is read for the event of the byte 2, which is one place on. -/
theorem read_lags_recovery : ∃ l rest, [1] = l :: rest ∧
    ([[1]] : List (List Byte)) = [] ++ [([1, 2].drop 0).take 1] ∧
      (([1, 2] : List Byte).drop (0 + l)).take 1 = [2] := by
  have hr : Reach tapeStep (.init, .init)
      (⟨[1, 2], [], .reading [2] true, true, []⟩, ⟨[1, 2], [.flushed []], 1, [1]⟩) :=
    ⟨recoveryRun, by decide⟩
  have hs : uartStep ⟨[1, 2], [], .reading [2] true, true, []⟩ .read =
      some ⟨[2], [], .receiving, true, [[1]]⟩ := by decide
  exact read_lags hr rfl hs

/-- No event read between two flushes lags less than `n`. -/
structure Behind (n : Nat) (t : Tape) : Prop where
  lag : n ≤ t.lag
  lags : ∀ l ∈ t.lags, n ≤ l

theorem behind_step {n : Nat} (h : Behind n t) (ha : a ≠ .flush) (hs : uartStep s a = some s') :
    Behind n (t.next s a) := by
  cases a with
  | isr i =>
    cases i with
    | data bytes =>
      simp only [Tape.next]
      split
      · refine ⟨h.lag, fun l hl => ?_⟩
        rw [List.mem_append, List.mem_singleton] at hl
        rcases hl with hl | rfl
        · exact h.lags l hl
        · exact h.lag
      · exact ⟨Nat.le_add_right_of_le h.lag, h.lags⟩
    | fifoOvf => exact h
    | bufferFull => exact h
    | other => exact h
  | receive => exact h
  | read =>
    simp only [uartStep] at hs
    split at hs
    · rename_i own stray hpc
      simp only [Tape.next, hpc]
      exact ⟨h.lag, fun l hl => h.lags l (List.mem_of_mem_tail hl)⟩
    · cases hs
  | flush => exact absurd rfl ha
  | reset => exact h

/-- **Bytes left over delay every later reading.** If nothing is pending and `n` bytes are in the
buffer, then up to the next flush every read returns bytes that came in at least `n` bytes before
its event's own. -/
theorem delayed_until_flush (hr : Reach tapeStep (.init, .init) (s, t)) (hidle : s.pending = [])
    {as : List UartAction} (hrun : runActs tapeStep (s, t) as = some (s', t'))
    (hno : .flush ∉ as) {own : List Byte} {stray : Bool} (hread : s'.pc = .reading own stray)
    {s'' : UartState} (hs : uartStep s' .read = some s'') :
    ∃ l, s.buf.length ≤ l ∧
      s''.parsed = s'.parsed ++ [(t'.line.drop t'.taken).take own.length] ∧
      (t'.line.drop (t'.taken + l)).take own.length = own := by
  have hinv := tapeInv_reach hr
  have hall : t.lags = [] ∧ s.buf.length ≤ t.lag := by
    by_cases hpc : s.pc = .resetting
    · obtain ⟨hlags, hlen⟩ := hinv.flushed hpc
      exact ⟨hlags, Nat.le_of_eq hlen⟩
    · have hplaced := hinv.placed hpc
      rw [hidle] at hplaced
      cases hl : t.lags with
      | nil =>
        rw [hl] at hplaced
        exact ⟨rfl, Nat.le_of_eq hplaced⟩
      | cons l lags =>
        rw [hl] at hplaced
        exact hplaced.elim
  have hstart : Behind s.buf.length t := by
    refine ⟨hall.2, fun l hl => ?_⟩
    rw [hall.1] at hl
    exact absurd hl List.not_mem_nil
  have hbehind : Behind s.buf.length t' := by
    refine run_invariant_of (I := fun _ p => Behind s.buf.length p.2) (C := fun _ a => a ≠ .flush)
      ?_ as [] (s, t) hstart (allSteps_of_mem as (s, t) fun _ a ha => ?_) (s', t') hrun
    · intro done p a q hp ha hq
      obtain ⟨hs, hnext⟩ := withHist_some hq
      rw [hnext]
      exact behind_step hp ha hs
    · rintro rfl
      exact hno ha
  obtain ⟨before, hbefore⟩ := hr
  have hreach : Reach tapeStep (.init, .init) (s', t') :=
    ⟨before ++ as, (runActs_append hbefore).trans hrun⟩
  obtain ⟨l, rest, hlags, hparsed, hown⟩ := (tapeInv_reach hreach).lagged hread hs
  exact ⟨l, hbehind.lags l (by rw [hlags]; exact List.mem_cons_self), hparsed, hown⟩

/-- After that recovery one byte is left over, and the next reading is one byte late too. -/
theorem delayed_until_flush_recovery : ∃ l, 1 ≤ l ∧
    ([[1], [2]] : List (List Byte)) = [[1]] ++ [([1, 2, 3].drop 1).take 1] ∧
      (([1, 2, 3] : List Byte).drop (1 + l)).take 1 = [3] := by
  have hr : Reach tapeStep (.init, .init)
      (⟨[2], [], .receiving, true, [[1]]⟩, ⟨[1, 2], [.flushed [], .read [1]], 1, []⟩) :=
    ⟨recoveryRun ++ [.read], by decide⟩
  have hrun : runActs tapeStep
      (⟨[2], [], .receiving, true, [[1]]⟩, ⟨[1, 2], [.flushed [], .read [1]], 1, []⟩)
        [.isr (.data [3]), .receive] =
      some (⟨[2, 3], [], .reading [3] true, true, [[1]]⟩,
        ⟨[1, 2, 3], [.flushed [], .read [1]], 1, [1]⟩) := by decide
  have hs : uartStep ⟨[2, 3], [], .reading [3] true, true, [[1]]⟩ .read =
      some ⟨[3], [], .receiving, true, [[1], [2]]⟩ := by decide
  exact delayed_until_flush hr rfl hrun (by decide) rfl hs

end Gateway.Uart
