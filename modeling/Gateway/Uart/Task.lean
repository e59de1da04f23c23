import Gateway.Lib.Buf
import Gateway.Lib.System

/-!
# The UART driver and `uart_event_task`

Model of `components/uart_handler/uart_handler.c:75-117` against the driver `uart_handler_init`
installs: a byte buffer and a queue of 20 events. An interrupt appends its bytes and then queues
its event in one step. When the queue is full the event is dropped and the bytes stay. The task
takes the oldest event and either reads `event.size` bytes, which waits until that many are there,
or flushes the buffer and then, in a second step, resets the queue. Where a read puts its bytes,
`dtmp` of 2048 bytes, is left out: `parsed` is what is handed on.

An event carries the bytes its interrupt appended. The task only looks at how many they are; which
bytes they are is a ghost, like the two `stray` marks: bytes are stray when they are in the buffer
without an event in the queue, because the queue was full, or because the queue was reset after
they came in.

* `Split`: how the buffer is made up of the bytes of the pending events.
  `Split.push`, `Split.keep`, `Split.pop`: what an interrupt and a read do to it.
* **`read_never_waits`**: a read finds all its bytes in the buffer.
* **`read_own_bytes`**: a read returns the bytes of its own event, unless stray bytes were in the
  buffer when the event was queued. `stray_read`: a recovery and a full queue that leave such bytes.
-/

namespace Gateway.Uart

open Gateway.Lib

/-- The queue length `uart_handler_init` asks for. -/
def queueLen : Nat := 20

/-- What an interrupt reports. -/
inductive UartIsr where
  | data (bytes : List Byte)
  | fifoOvf
  | bufferFull
  | other
  deriving DecidableEq, Repr

/-- A queued event. `event.size` is `own.length`. -/
inductive UartEvent where
  | data (own : List Byte) (stray : Bool)
  | fifoOvf
  | bufferFull
  | other
  deriving DecidableEq, Repr

/-- Where `uart_event_task` is. -/
inductive TaskPc where
  /-- In `xQueueReceive`. -/
  | receiving
  /-- Before `uart_read_bytes` of `event.size` bytes. -/
  | reading (own : List Byte) (stray : Bool)
  /-- Before `uart_flush_input`. -/
  | flushing
  /-- Between `uart_flush_input` and `xQueueReset`. -/
  | resetting
  deriving DecidableEq, Repr

structure UartState where
  buf : List Byte
  queue : List UartEvent
  pc : TaskPc
  stray : Bool
  /-- The byte strings given to `parse_data_to_json`, in order. -/
  parsed : List (List Byte)
  deriving DecidableEq, Repr

def UartState.init : UartState := ⟨[], [], .receiving, false, []⟩

inductive UartAction where
  | isr (i : UartIsr)
  | receive
  | read
  | flush
  | reset
  deriving DecidableEq, Repr

/-- `xQueueSendFromISR`: the event is dropped when the queue is full. -/
def enqueue (queue : List UartEvent) (e : UartEvent) : List UartEvent :=
  if queue.length < queueLen then queue ++ [e] else queue

/-- An interrupt. -/
def uartIsr (s : UartState) : UartIsr → UartState
  | .data bytes =>
    { s with
      buf := s.buf ++ bytes
      queue := enqueue s.queue (.data bytes s.stray)
      stray := s.stray || (bytes ≠ [] && (queueLen ≤ s.queue.length || s.pc = .resetting)) }
  | .fifoOvf => { s with queue := enqueue s.queue .fifoOvf }
  | .bufferFull => { s with queue := enqueue s.queue .bufferFull }
  | .other => { s with queue := enqueue s.queue .other }

/-- The `switch` on `event.type`: the call the task makes next. -/
def dispatch : UartEvent → TaskPc
  | .data own stray => .reading own stray
  | .fifoOvf => .flushing
  | .bufferFull => .flushing
  | .other => .receiving

def uartStep (s : UartState) : UartAction → Option UartState
  | .isr i => some (uartIsr s i)
  | .receive =>
    match s.pc, s.queue with
    | .receiving, e :: queue => some { s with queue := queue, pc := dispatch e }
    | _, _ => none
  | .read =>
    match s.pc with
    | .reading own _ =>
      if own.length ≤ s.buf.length then
        some { s with
          buf := s.buf.drop own.length
          parsed := s.parsed ++ [s.buf.take own.length]
          pc := .receiving }
      else none
    | _ => none
  | .flush =>
    match s.pc with
    | .flushing => some { s with buf := [], stray := false, pc := .resetting }
    | _ => none
  | .reset =>
    match s.pc with
    | .resetting => some { s with queue := [], pc := .receiving }
    | _ => none

/-! ## The pending events and the buffer -/

/-- The bytes of a data event, with its mark. -/
def UartEvent.pending : UartEvent → List (List Byte × Bool)
  | .data own stray => [(own, stray)]
  | _ => []

/-- The data event the task is about to read. -/
def TaskPc.pending : TaskPc → List (List Byte × Bool)
  | .reading own stray => [(own, stray)]
  | _ => []

/-- The data events not yet read, the oldest first. -/
def UartState.pending (s : UartState) : List (List Byte × Bool) :=
  s.pc.pending ++ s.queue.flatMap UartEvent.pending

/-- **How the buffer is made up.** The unmarked events come first, and the buffer begins with
their bytes. What follows is long enough for the marked ones. Without stray bytes there is nothing
else. -/
def Split (pending : List (List Byte × Bool)) (buf : List Byte) (stray : Bool) : Prop :=
  ∃ clean marked : List (List Byte), ∃ tail : List Byte,
    pending = clean.map (·, false) ++ marked.map (·, true) ∧ buf = clean.flatten ++ tail ∧
      marked.flatten.length ≤ tail.length ∧ (stray = false → marked = [] ∧ tail = [])

section Split

variable {pending : List (List Byte × Bool)} {buf : List Byte} {stray : Bool}

theorem Split.nil (h : stray = false → buf = []) : Split [] buf stray :=
  ⟨[], [], buf, rfl, rfl, Nat.zero_le _, fun hs => ⟨rfl, h hs⟩⟩

/-- An interrupt whose event is queued. -/
theorem Split.push (h : Split pending buf stray) (bytes : List Byte) :
    Split (pending ++ [(bytes, stray)]) (buf ++ bytes) stray := by
  obtain ⟨clean, marked, tail, rfl, rfl, hle, hs⟩ := h
  cases stray with
  | false =>
    obtain ⟨rfl, rfl⟩ := hs rfl
    refine ⟨clean ++ [bytes], [], [], by simp, by simp, Nat.zero_le _, fun _ => ⟨rfl, rfl⟩⟩
  | true =>
    refine ⟨clean, marked ++ [bytes], tail ++ bytes, by simp, by simp, ?_,
      fun h => absurd h (by simp)⟩
    rw [List.flatten_append, List.length_append, List.length_append, List.flatten_singleton]
    omega

/-- An interrupt whose event is dropped. -/
theorem Split.keep (h : Split pending buf stray) (bytes : List Byte) :
    Split pending (buf ++ bytes) true := by
  obtain ⟨clean, marked, tail, rfl, rfl, hle, -⟩ := h
  refine ⟨clean, marked, tail ++ bytes, rfl, by simp, ?_, fun h => absurd h (by simp)⟩
  rw [List.length_append]
  omega

/-- **A read**: the bytes are there, they are the event's own unless it is marked, and the rest is
made up of the rest. -/
theorem Split.pop {own : List Byte} {mark : Bool} (h : Split ((own, mark) :: pending) buf stray) :
    own.length ≤ buf.length ∧ (mark = false → buf.take own.length = own) ∧
      Split pending (buf.drop own.length) stray := by
  obtain ⟨clean, marked, tail, hp, rfl, hle, hs⟩ := h
  cases clean with
  | cons c clean =>
    rw [List.map_cons, List.cons_append, List.cons.injEq, Prod.mk.injEq] at hp
    obtain ⟨⟨rfl, rfl⟩, hp⟩ := hp
    rw [List.flatten_cons, List.append_assoc]
    refine ⟨?_, fun _ => List.take_left, ?_⟩
    · rw [List.length_append]
      omega
    · rw [List.drop_left]
      exact ⟨clean, marked, tail, hp, rfl, hle, hs⟩
  | nil =>
    cases marked with
    | nil => exact absurd hp (by simp)
    | cons m marked =>
      rw [List.map_nil, List.nil_append, List.map_cons, List.cons.injEq, Prod.mk.injEq] at hp
      obtain ⟨⟨rfl, rfl⟩, hp⟩ := hp
      rw [List.flatten_cons, List.length_append] at hle
      rw [List.flatten_nil, List.nil_append]
      refine ⟨by omega, fun h => absurd h (by simp), [], marked, tail.drop own.length, hp, rfl,
        ?_, ?_⟩
      · rw [List.length_drop]
        omega
      · intro h
        exact absurd (hs h).1 (by simp)

end Split

/-! ## The invariant -/

/-- **The invariant of the driver and the task.** Between the flush and the reset the queue still
holds events whose bytes are gone; then the buffer only holds stray bytes. -/
structure UartInv (s : UartState) : Prop where
  split : s.pc ≠ .resetting → Split s.pending s.buf s.stray
  flushed : s.pc = .resetting → s.stray = false → s.buf = []

variable {s s' : UartState}

theorem uartInv_init : UartInv .init where
  split _ := Split.nil fun _ => rfl
  flushed h := absurd h (by decide)

theorem enqueue_pending (queue : List UartEvent) {e : UartEvent} (h : e.pending = []) :
    (enqueue queue e).flatMap UartEvent.pending = queue.flatMap UartEvent.pending := by
  unfold enqueue
  split
  · rw [List.flatMap_append, List.flatMap_singleton, h, List.append_nil]
  · rfl

/-- An interrupt that only reports. -/
theorem UartInv.report (h : UartInv s) {e : UartEvent} (he : e.pending = []) :
    UartInv { s with queue := enqueue s.queue e } where
  split hpc := by
    have := h.split hpc
    unfold UartState.pending at this ⊢
    rwa [enqueue_pending s.queue he]
  flushed := h.flushed

/-- **An interrupt that brings bytes.** -/
theorem UartInv.data (h : UartInv s) (bytes : List Byte) : UartInv (uartIsr s (.data bytes)) := by
  constructor
  · intro hpc
    have hs := h.split hpc
    have hne : decide (s.pc = .resetting) = false := decide_eq_false hpc
    by_cases hroom : s.queue.length < queueLen
    · -- the event is queued
      have hfull : decide (queueLen ≤ s.queue.length) = false := decide_eq_false (by omega)
      have hpush := hs.push bytes
      simp only [uartIsr, UartState.pending, enqueue, if_pos hroom, hfull, hne, Bool.or_false,
        Bool.and_false] at hpush ⊢
      rw [List.flatMap_append, List.flatMap_singleton, ← List.append_assoc]
      exact hpush
    · -- the event is dropped
      have hfull : decide (queueLen ≤ s.queue.length) = true := decide_eq_true (by omega)
      simp only [uartIsr, UartState.pending, enqueue, if_neg hroom, hfull, Bool.true_or,
        Bool.and_true]
      by_cases hb : bytes = []
      · subst hb
        simpa [UartState.pending] using hs
      · have hkeep := hs.keep bytes
        simpa [UartState.pending, hb] using hkeep
  · intro hpc hstray
    have hr : decide (s.pc = .resetting) = true := decide_eq_true hpc
    simp only [uartIsr, hr, Bool.or_true, Bool.and_true, Bool.or_eq_false_iff] at hstray
    have hb : bytes = [] := by simpa using hstray.2
    show s.buf ++ bytes = []
    rw [hb, h.flushed hpc hstray.1]
    rfl

/-- **An interrupt keeps the invariant**, at every point of the task. -/
theorem UartInv.isr (h : UartInv s) (i : UartIsr) : UartInv (uartIsr s i) := by
  cases i with
  | data bytes => exact h.data bytes
  | fifoOvf => exact h.report rfl
  | bufferFull => exact h.report rfl
  | other => exact h.report rfl

/-- **The task takes an event**: a data event stays pending, the others have no bytes. -/
theorem UartInv.receive (h : UartInv s) {e : UartEvent} {queue : List UartEvent}
    (hpc : s.pc = .receiving) (hq : s.queue = e :: queue) :
    UartInv { s with queue := queue, pc := dispatch e } := by
  have hs := h.split (by rw [hpc]; simp)
  unfold UartState.pending at hs
  rw [hpc, hq] at hs
  refine ⟨fun _ => ?_, fun hr => ?_⟩
  · cases e <;> exact hs
  · cases e <;> exact absurd hr (by simp [dispatch])

/-- **The task reads.** -/
theorem UartInv.read (h : UartInv s) {own : List Byte} {stray : Bool} {parsed : List (List Byte)}
    (hpc : s.pc = .reading own stray) :
    UartInv { s with buf := s.buf.drop own.length, parsed := parsed, pc := .receiving } := by
  have hs := h.split (by rw [hpc]; simp)
  unfold UartState.pending at hs
  rw [hpc] at hs
  exact ⟨fun _ => hs.pop.2.2, fun hr => absurd hr (by simp)⟩

/-- **The step lemma.** -/
theorem uartInv_step (s : UartState) (a : UartAction) (s' : UartState) (h : UartInv s)
    (hs : uartStep s a = some s') : UartInv s' := by
  cases a with
  | isr i =>
    cases hs
    exact h.isr i
  | receive =>
    simp only [uartStep] at hs
    split at hs
    · rename_i e queue hpc hq
      cases hs
      exact h.receive hpc hq
    · exact absurd hs (by simp)
  | read =>
    simp only [uartStep] at hs
    split at hs
    · rename_i own stray hpc
      rw [Option.ite_none_right_eq_some] at hs
      obtain ⟨-, hs'⟩ := hs
      cases hs'
      exact h.read hpc
    · exact absurd hs (by simp)
  | flush =>
    simp only [uartStep] at hs
    split at hs
    · cases hs
      exact ⟨fun hr => absurd rfl hr, fun _ _ => rfl⟩
    · exact absurd hs (by simp)
  | reset =>
    simp only [uartStep] at hs
    split at hs
    · rename_i hpc
      cases hs
      exact ⟨fun _ => Split.nil (h.flushed hpc), fun hr => absurd hr (by simp)⟩
    · exact absurd hs (by simp)

/-- **The run lemma.** -/
theorem uartInv_reach (hr : Reach uartStep .init s) : UartInv s :=
  reach_invariant uartInv_init uartInv_step hr

/-! ## Reads -/

/-- **A read never waits.** In every run, when the task calls `uart_read_bytes`, the buffer holds at
least `event.size` bytes, so the call returns without new input. -/
theorem read_never_waits (hr : Reach uartStep .init s) {own : List Byte} {stray : Bool}
    (hpc : s.pc = .reading own stray) :
    own.length ≤ s.buf.length ∧ ∃ s', uartStep s .read = some s' := by
  have hs := (uartInv_reach hr).split (by rw [hpc]; simp)
  unfold UartState.pending at hs
  rw [hpc] at hs
  have hle := hs.pop.1
  refine ⟨hle, ?_⟩
  simp only [uartStep, hpc, if_pos hle]
  exact ⟨_, rfl⟩

theorem read_never_waits_two : ∃ s', uartStep
    ⟨[1, 2, 3], [.data [3] false], .reading [1, 2] false, false, []⟩ .read = some s' :=
  (read_never_waits ⟨[.isr (.data [1, 2]), .isr (.data [3]), .receive], rfl⟩ rfl).2

/-- **A read returns the bytes of its own event**, unless stray bytes were in the buffer when the
interrupt queued it. -/
theorem read_own_bytes (hr : Reach uartStep .init s) {own : List Byte}
    (hpc : s.pc = .reading own false) (hs : uartStep s .read = some s') :
    s'.parsed = s.parsed ++ [own] := by
  have hsplit := (uartInv_reach hr).split (by rw [hpc]; simp)
  unfold UartState.pending at hsplit
  rw [hpc] at hsplit
  simp only [uartStep, hpc] at hs
  rw [Option.ite_none_right_eq_some] at hs
  obtain ⟨-, hs'⟩ := hs
  cases hs'
  show s.parsed ++ [s.buf.take own.length] = s.parsed ++ [own]
  rw [hsplit.pop.2.1 rfl]

/-- An overflow recovery into which no interrupt falls, then a reading. -/
theorem read_own_bytes_recovered :
    (⟨[], [], .receiving, false, [[1], [2]]⟩ : UartState).parsed = [[1]] ++ [[2]] :=
  read_own_bytes (s := ⟨[2], [], .reading [2] false, false, [[1]]⟩)
    ⟨[.isr (.data [1]), .isr .fifoOvf, .receive, .read, .receive, .flush, .reset,
      .isr (.data [2]), .receive], by decide⟩ rfl (by decide)

/-- An overflow; one byte comes in between `uart_flush_input` and `xQueueReset`, one after. -/
def recoveryRun : List UartAction :=
  [.isr .fifoOvf, .receive, .flush, .isr (.data [1]), .reset, .isr (.data [2]), .receive]

/-- Twenty data events fill the queue; one byte comes in while it is full, one after they are
read. -/
def fullQueueRun : List UartAction :=
  List.replicate 20 (.isr (.data [0])) ++ [.isr (.data [1])] ++
    (List.replicate 20 [.receive, .read]).flatten ++ [.isr (.data [2]), .receive]

/-- After either run, the task reads the byte 1 for the event of the byte 2. -/
theorem stray_read :
    runActs uartStep .init recoveryRun = some ⟨[1, 2], [], .reading [2] true, true, []⟩ ∧
    runActs uartStep .init fullQueueRun =
      some ⟨[1, 2], [], .reading [2] true, true, List.replicate 20 [0]⟩ ∧
    ¬ ∀ s s' own stray, Reach uartStep .init s → s.pc = .reading own stray →
      uartStep s .read = some s' → s'.parsed = s.parsed ++ [own] := by
  have hr : runActs uartStep .init recoveryRun =
      some ⟨[1, 2], [], .reading [2] true, true, []⟩ := by decide
  refine ⟨hr, by decide +kernel, fun h => ?_⟩
  have hread := h _ ⟨[2], [], .receiving, true, [[1]]⟩ [2] true ⟨recoveryRun, hr⟩ rfl (by decide)
  exact absurd hread (by decide)

end Gateway.Uart
