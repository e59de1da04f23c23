import Gateway.Uart.Frame
import Gateway.Uart.Task

/-!
# How the driver cuts the line into events

`uart_event_task` (`components/uart_handler/uart_handler.c:75-117`) hands the bytes of every event
to `parse_data_to_json` as they are. Nothing carries bytes from one event to the next, and nothing
looks for a line end: what is a frame depends on where the driver cuts.

* `Frame`: a key, a number and a line end, as they are sent. The number is any numeral in the range
  of `int`; `Frame.PlainZero` says that zero is written with one digit. `Frame.wire` are the bytes.
* `Aligned frames segments`: the text of every frame stands in one segment, which begins with it and
  has nothing of the next frame.
* `Legible frames segments`: every frame has a segment which begins with its key and its colon, and
  in which `atoi` reads its number. A cut inside `00` is legible though it is not aligned.
* `firstPayload`: the segment of the first payload, when there are as many payloads as colons.
* **`payloads_iff_legible`**: one payload for each frame, in order, exactly if the cut is legible.
  `Aligned.legible`, `Legible.aligned`: an aligned cut is legible; with plain zeros no other is.
* `parsed_eq_segments`: without overflow, `uart_event_task` parses the segments, in order.
* **`readings_iff_aligned`**: so it is for the runs of the task. `readings_cut`: three cuts of one
  stream with three sequences of payloads.
-/

namespace Gateway.Uart

open Gateway.Lib

inductive LineEnd where
  | lf
  | crlf
  | cr
  deriving DecidableEq, Repr

def LineEnd.bytes : LineEnd → List Byte
  | .lf => [0x0A#8]
  | .crlf => [0x0D#8, 0x0A#8]
  | .cr => [0x0D#8]

/-- A reading as the sensor sends it: a key, and an optional sign and digits that denote an
`int`. -/
structure Frame where
  key : List Byte
  number : List Byte
  value : BitVec 32
  lineEnd : LineEnd
  key_ne_nil : key ≠ []
  colon_notMem : colon ∉ key
  zero_notMem : (0 : Byte) ∉ key
  numeral : Numeral number value.toInt

namespace Frame

/-- `key:number`. -/
def text (f : Frame) : List Byte := f.key ++ colon :: f.number

/-- Zero is written as one digit, with no sign. -/
def PlainZero (f : Frame) : Prop := f.value = 0 → f.number = [0x30#8]

/-- The bytes on the line. -/
def wire (f : Frame) : List Byte := f.text ++ f.lineEnd.bytes

/-- The payload for a frame. -/
def payload (cj : CJson) (f : Frame) : List Byte := cj.print (frameJson f.key f.value)

end Frame

/-- The bytes on the line for all frames. -/
def wires (frames : List Frame) : List Byte := frames.flatMap Frame.wire

/-- **The cut keeps the frames apart**: after empty segments, the segment that begins with the text
of the first frame; it and the segments after it have the rest of that frame; then the others. -/
def Aligned : List Frame → List (List Byte) → Prop
  | [], segments => segments.flatten = []
  | f :: frames, segments => ∃ pre s post rest, segments = pre ++ s :: (post ++ rest) ∧
      pre.flatten = [] ∧ f.text <+: s ∧ s ++ post.flatten = f.wire ∧ Aligned frames rest

/-- **The cut leaves the frames legible**: as `Aligned`, but the segment may end inside the number
where `atoi` reads the same from what is there. -/
def Legible : List Frame → List (List Byte) → Prop
  | [], segments => segments.flatten = []
  | f :: frames, segments => ∃ pre b post rest,
      segments = pre ++ (f.key ++ colon :: b) :: (post ++ rest) ∧ pre.flatten = [] ∧
      b ≠ [] ∧ atoiValue b = f.value.toInt ∧ f.key ++ colon :: b ++ post.flatten = f.wire ∧
      Legible frames rest

variable {cj : CJson} {overflow : List Byte → BitVec 32} {frames : List Frame} {f : Frame}
  {segments : List (List Byte)}

theorem colon_notMem_lineEnd (e : LineEnd) : colon ∉ e.bytes := by
  cases e <;> decide

theorem zero_notMem_lineEnd (e : LineEnd) : (0 : Byte) ∉ e.bytes := by
  cases e <;> decide

/-- A line end begins with no digit. -/
theorem head_lineEnd (e : LineEnd) {c more : List Byte} (h : c ++ more = e.bytes) :
    ∀ b ∈ c.head?, isDigit b = false := by
  intro b hb
  have hend : ∀ b ∈ e.bytes, isDigit b = false := by cases e <;> decide
  exact hend b (h ▸ List.mem_append_left more (List.mem_of_mem_head? hb))

/-- No colon from the number to the end of the line. -/
theorem colon_notMem_number (f : Frame) : colon ∉ f.number ++ f.lineEnd.bytes := by
  rw [List.mem_append, not_or]
  exact ⟨colon_notMem_numeral f.numeral, colon_notMem_lineEnd f.lineEnd⟩

theorem wire_eq (f : Frame) : f.wire = f.key ++ colon :: (f.number ++ f.lineEnd.bytes) := by
  rw [Frame.wire, Frame.text, List.append_assoc, List.cons_append]

theorem zero_notMem_wires (frames : List Frame) : (0 : Byte) ∉ wires frames := by
  intro h
  obtain ⟨f, -, hf⟩ := List.mem_flatMap.mp h
  simp only [wire_eq, List.mem_append, List.mem_cons] at hf
  rcases hf with hkey | hcolon | hvalue | hend
  · exact f.zero_notMem hkey
  · exact absurd hcolon (by decide)
  · exact zero_notMem_numeral f.numeral hvalue
  · exact zero_notMem_lineEnd _ hend

/-- Every frame has one colon. -/
theorem count_colon_wires (frames : List Frame) : (wires frames).count colon = frames.length := by
  induction frames with
  | nil => rfl
  | cons f frames ih =>
    have hkey := List.count_eq_zero.mpr f.colon_notMem
    have hnumber := List.count_eq_zero.mpr (colon_notMem_number f)
    rw [wires, List.flatMap_cons, ← wires, wire_eq, List.count_append, List.count_append,
      List.count_cons_self, hkey, hnumber, ih, List.length_cons]
    omega

/-- `frameJson` and the printing of it lose nothing. -/
theorem payload_inj (hrt : FramesRoundTrip cj) {key : List Byte} {v : BitVec 32}
    (h0 : (0 : Byte) ∉ key) (h : cj.print (frameJson key v) = f.payload cj) :
    key = f.key ∧ v = f.value := by
  have hparse := hrt key v h0
  unfold Frame.payload at h
  rw [h, hrt f.key f.value f.zero_notMem] at hparse
  simp only [frameJson, Option.some.injEq, Json.obj.injEq, List.cons.injEq, Prod.mk.injEq,
    Json.number.injEq, true_and, and_true] at hparse
  exact ⟨hparse.1.symm, (BitVec.eq_of_toInt_eq hparse.2).symm⟩

/-! ## Payloads and colons -/

theorem colon_mem_of_payload {data payload : List Byte}
    (h : parseDataToJson cj overflow data = some payload) : colon ∈ data :=
  mem_of_mem_cStr (mem_of_two_le_runs (payload_iff.mp ⟨payload, h⟩))

/-- No more payloads than colons. -/
theorem payloads_le_colons (cj : CJson) (overflow : List Byte → BitVec 32)
    (segments : List (List Byte)) :
    (segments.filterMap (parseDataToJson cj overflow)).length ≤
      segments.flatten.count colon := by
  induction segments with
  | nil => exact Nat.le_refl 0
  | cons s segments ih =>
    rw [List.flatten_cons, List.count_append]
    cases h : parseDataToJson cj overflow s with
    | none =>
      rw [List.filterMap_cons_none h]
      omega
    | some payload =>
      have hpos := List.count_pos_iff.mpr (colon_mem_of_payload h)
      rw [List.filterMap_cons_some h, List.length_cons]
      omega

theorem payloads_nil (hcolons : segments.flatten.count colon = 0) :
    segments.filterMap (parseDataToJson cj overflow) = [] := by
  have := payloads_le_colons cj overflow segments
  rw [hcolons] at this
  exact List.eq_nil_of_length_eq_zero (Nat.le_zero.mp this)

/-- **The segment of the first payload**, when there are as many payloads as colons: it has one
colon, the key before it, and something that `atoi` reads as the number after it. -/
theorem firstPayload (hrt : FramesRoundTrip cj) {payloads : List (List Byte)}
    (h0 : (0 : Byte) ∉ segments.flatten)
    (hcolons : segments.flatten.count colon = payloads.length + 1)
    (hp : segments.filterMap (parseDataToJson cj overflow) = f.payload cj :: payloads) :
    ∃ pre b tail, segments = pre ++ (f.key ++ colon :: b) :: tail ∧ colon ∉ pre.flatten ∧
      colon ∉ b ∧ b ≠ [] ∧ atoi overflow b = f.value ∧
      tail.filterMap (parseDataToJson cj overflow) = payloads := by
  obtain ⟨pre, s, tail, rfl, -, hs, htail⟩ := List.filterMap_eq_cons_iff.mp hp
  -- every payload takes a colon, so `s` and `tail` leave none to `pre`
  have hspos := List.count_pos_iff.mpr (colon_mem_of_payload hs)
  have htailpos := payloads_le_colons cj overflow tail
  rw [htail] at htailpos
  rw [List.flatten_append, List.flatten_cons, List.count_append, List.count_append] at hcolons
  rw [List.flatten_append, List.flatten_cons, List.mem_append, List.mem_append, not_or,
    not_or] at h0
  have hcstr := cStr_of_notMem h0.2.1
  have htwo := payload_iff.mp ⟨_, hs⟩
  rw [hcstr] at htwo
  obtain ⟨a, b, rfl, ha, hb, hane, hbne, hruns⟩ := runs_eq_pair htwo (by omega)
  rw [parseDataToJson_some (by rw [hcstr, hruns]), Option.some.injEq] at hs
  obtain ⟨rfl, hvalue⟩ := payload_inj hrt
    (fun h => h0.2.1 (List.mem_append_left _ h)) hs
  exact ⟨pre, b, tail, rfl, List.count_eq_zero.mp (by omega), hb, hbne, hvalue, htail⟩

/-! ## Payloads and the cut -/

/-- **The first frame's segment** begins with its key and its colon, and nothing but what is still
due of the frame before stands before it. -/
theorem firstSegment (hrt : FramesRoundTrip cj) {c e : List Byte} (hc : colon ∉ c)
    (he : colon ∉ e) (h0 : (0 : Byte) ∉ segments.flatten)
    (hcut : c ++ segments.flatten = e ++ wires (f :: frames))
    (hp : segments.filterMap (parseDataToJson cj overflow) =
      (f :: frames).map (Frame.payload cj)) :
    ∃ pre b tail, segments = pre ++ (f.key ++ colon :: b) :: tail ∧ c ++ pre.flatten = e ∧
      colon ∉ b ∧ b ≠ [] ∧ atoi overflow b = f.value ∧
      b ++ tail.flatten = (f.number ++ f.lineEnd.bytes) ++ wires frames ∧
      tail.filterMap (parseDataToJson cj overflow) = frames.map (Frame.payload cj) := by
  have hcount := congrArg (List.count colon) hcut
  rw [List.count_append, List.count_append, List.count_eq_zero.mpr hc, List.count_eq_zero.mpr he,
    Nat.zero_add, Nat.zero_add, count_colon_wires, List.length_cons,
    ← List.length_map (f := Frame.payload cj)] at hcount
  obtain ⟨pre, b, tail, rfl, hpre, hb, hbne, hvalue, htail⟩ := firstPayload hrt h0 hcount hp
  have hsplit : (c ++ pre.flatten ++ f.key) ++ colon :: (b ++ tail.flatten) =
      (e ++ f.key) ++ colon :: ((f.number ++ f.lineEnd.bytes) ++ wires frames) := by
    simpa [wires, wire_eq] using hcut
  have hleft : colon ∉ c ++ pre.flatten ++ f.key := by
    rw [List.mem_append, List.mem_append, not_or, not_or]
    exact ⟨⟨hc, hpre⟩, f.colon_notMem⟩
  have hright : colon ∉ e ++ f.key := by
    rw [List.mem_append, not_or]
    exact ⟨he, f.colon_notMem⟩
  obtain ⟨hkey, hrest⟩ := append_sep_inj hleft hright hsplit
  exact ⟨pre, b, tail, rfl, List.append_cancel_right hkey, hb, hbne, hvalue, hrest, htail⟩

/-- What is read of a frame that is cut after `b` is in the range of `int`. -/
theorem inInt_of_cut {b more : List Byte} (hne : b ≠ [])
    (h : b ++ more = f.number ++ f.lineEnd.bytes) : InInt (atoiValue b) := by
  have hprefix := List.prefix_append b more
  rw [h] at hprefix
  rcases List.prefix_or_prefix_of_prefix hprefix (List.prefix_append _ _) with ⟨q, hq⟩ | ⟨c, rfl⟩
  · exact inInt_beginning (hq ▸ f.numeral) hne (inInt_toInt f.value)
  · rw [List.append_assoc, List.append_cancel_left_eq] at h
    rw [atoiValue_append f.numeral (head_lineEnd f.lineEnd h)]
    exact inInt_toInt f.value

/-- The frames are legible, after what is still due of the frame before. -/
theorem legible_rest (hrt : FramesRoundTrip cj) {c e : List Byte} (hc : colon ∉ c)
    (he : colon ∉ e) (h0 : (0 : Byte) ∉ segments.flatten)
    (hcut : c ++ segments.flatten = e ++ wires frames)
    (hp : segments.filterMap (parseDataToJson cj overflow) = frames.map (Frame.payload cj)) :
    ∃ post rest, segments = post ++ rest ∧ c ++ post.flatten = e ∧ Legible frames rest := by
  induction frames generalizing segments c e with
  | nil =>
    rw [wires, List.flatMap_nil, List.append_nil] at hcut
    exact ⟨segments, [], (List.append_nil _).symm, hcut, rfl⟩
  | cons f frames ih =>
    obtain ⟨pre, b, tail, rfl, hpre, hb, hbne, hvalue, hcut', hp'⟩ :=
      firstSegment hrt hc he h0 hcut hp
    rw [List.flatten_append, List.flatten_cons, List.mem_append, List.mem_append, not_or,
      not_or] at h0
    obtain ⟨post, rest, rfl, hpost, hrest⟩ := ih hb (colon_notMem_number f) h0.2.2 hcut' hp'
    have hread := toInt_atoi overflow (inInt_of_cut hbne hpost)
    rw [hvalue] at hread
    refine ⟨pre, _, rfl, hpre, [], b, post, rest, rfl, rfl, hbne, hread.symm, ?_, hrest⟩
    rw [wire_eq, List.append_assoc, List.cons_append, hpost]

theorem Legible.append_empty {pre : List (List Byte)} (hpre : pre.flatten = [])
    (h : Legible frames segments) : Legible frames (pre ++ segments) := by
  cases frames with
  | nil =>
    unfold Legible at h ⊢
    rw [List.flatten_append, hpre, h, List.append_nil]
  | cons f frames =>
    obtain ⟨pre', b, post, rest, rfl, hpre', hs⟩ := h
    refine ⟨pre ++ pre', b, post, rest, (List.append_assoc _ _ _).symm, ?_, hs⟩
    rw [List.flatten_append, hpre, hpre', List.append_nil]

/-- The key, the colon and something that is read as the number give the frame's payload. -/
theorem parse_cut {b more : List Byte} (hne : b ≠ [])
    (hcut : b ++ more = f.number ++ f.lineEnd.bytes) (hread : atoiValue b = f.value.toInt) :
    parseDataToJson cj overflow (f.key ++ colon :: b) = some (f.payload cj) := by
  have hcolon : colon ∉ b := fun h =>
    colon_notMem_number f (hcut ▸ List.mem_append_left more h)
  have hzero : (0 : Byte) ∉ b := by
    intro h
    rcases List.mem_append.mp (hcut ▸ List.mem_append_left more h) with hnumber | hend
    · exact zero_notMem_numeral f.numeral hnumber
    · exact zero_notMem_lineEnd f.lineEnd hend
  have hall : (0 : Byte) ∉ f.key ++ colon :: b := by
    rw [List.mem_append, List.mem_cons, not_or, not_or]
    exact ⟨f.zero_notMem, by decide, hzero⟩
  have hruns : runs colon (cStr (f.key ++ colon :: b)) = [f.key, b] := by
    rw [cStr_of_notMem hall, runs_append_cons f.colon_notMem f.key_ne_nil,
      runs_of_notMem hcolon hne]
  rw [parseDataToJson_some hruns, atoi_eq hread, Frame.payload]

theorem payloads_of_legible (h : Legible frames segments) :
    segments.filterMap (parseDataToJson cj overflow) = frames.map (Frame.payload cj) := by
  induction frames generalizing segments with
  | nil =>
    unfold Legible at h
    exact payloads_nil (by rw [h]; rfl)
  | cons f frames ih =>
    obtain ⟨pre, b, post, rest, rfl, hpre, hbne, hread, hwire, hrest⟩ := h
    rw [wire_eq, List.append_assoc, List.cons_append, List.append_cancel_left_eq,
      List.cons.injEq] at hwire
    have hpost : colon ∉ post.flatten := fun h =>
      colon_notMem_number f (hwire.2 ▸ List.mem_append_right b h)
    rw [List.filterMap_append, payloads_nil (by rw [hpre]; rfl), List.nil_append,
      List.filterMap_cons_some (parse_cut hbne hwire.2 hread), List.filterMap_append,
      payloads_nil (List.count_eq_zero.mpr hpost), List.nil_append, ih hrest, List.map_cons]

/-- **One payload for each frame, in order, exactly if the cut is legible.** For all sequences of
frames and all ways to cut their bytes. -/
theorem payloads_iff_legible (hrt : FramesRoundTrip cj)
    (hcut : segments.flatten = wires frames) :
    segments.filterMap (parseDataToJson cj overflow) = frames.map (Frame.payload cj) ↔
      Legible frames segments := by
  refine ⟨fun h => ?_, payloads_of_legible⟩
  obtain ⟨post, rest, rfl, hpost, hrest⟩ := legible_rest hrt (c := []) (e := []) (by simp)
    (by simp) (hcut ▸ zero_notMem_wires frames) (by simpa using hcut) h
  exact hrest.append_empty (by simpa using hpost)

/-! ## Legible and aligned -/

theorem Aligned.legible (h : Aligned frames segments) : Legible frames segments := by
  induction frames generalizing segments with
  | nil => exact h
  | cons f frames ih =>
    obtain ⟨pre, s, post, rest, rfl, hpre, ⟨c, rfl⟩, hwire, hrest⟩ := h
    have hend : c ++ post.flatten = f.lineEnd.bytes := by
      rwa [Frame.wire, List.append_assoc, List.append_cancel_left_eq] at hwire
    have htext : f.text ++ c = f.key ++ colon :: (f.number ++ c) := by
      rw [Frame.text, List.append_assoc, List.cons_append]
    rw [htext] at hwire ⊢
    exact ⟨pre, f.number ++ c, post, rest, rfl, hpre,
      List.append_ne_nil_of_left_ne_nil f.numeral.ne_nil c,
      atoiValue_append f.numeral (head_lineEnd f.lineEnd hend), hwire, ih hrest⟩

/-- A segment that ends inside a number is read as another one, unless both are zero. -/
theorem Legible.aligned (hzero : ∀ f ∈ frames, f.PlainZero) (h : Legible frames segments) :
    Aligned frames segments := by
  induction frames generalizing segments with
  | nil => exact h
  | cons f frames ih =>
    obtain ⟨pre, b, post, rest, rfl, hpre, hbne, hread, hwire, hrest⟩ := h
    have hcut : b ++ post.flatten = f.number ++ f.lineEnd.bytes := by
      rw [wire_eq, List.append_assoc, List.cons_append, List.append_cancel_left_eq,
        List.cons.injEq] at hwire
      exact hwire.2
    have hprefix := List.prefix_append b post.flatten
    rw [hcut] at hprefix
    have hnumber : f.number <+: b := by
      rcases List.prefix_or_prefix_of_prefix hprefix (List.prefix_append _ _) with ⟨q, hq⟩ | h
      · by_cases hqne : q = []
        · rw [hqne, List.append_nil] at hq
          exact hq ▸ List.prefix_refl b
        · have hnum := f.numeral
          rw [← hq] at hnum
          have hvalue : f.value = 0 :=
            BitVec.eq_of_toInt_eq (eq_zero_of_beginning hnum hbne hqne hread)
          rw [hzero f List.mem_cons_self hvalue] at hq
          rcases List.append_eq_singleton_iff.mp hq with ⟨hb, -⟩ | ⟨-, hq'⟩
          · exact absurd hb hbne
          · exact absurd hq' hqne
      · exact h
    obtain ⟨c, rfl⟩ := hnumber
    refine ⟨pre, _, post, rest, rfl, hpre, ⟨c, ?_⟩, hwire,
      ih (fun f' hf' => hzero f' (List.mem_cons_of_mem f hf')) hrest⟩
    rw [Frame.text, List.append_assoc, List.cons_append]

/-! ## Runs of the task -/

/-- The bytes of the data events, in order. -/
def segmentsOf (as : List UartAction) : List (List Byte) := as.filterMap fun
  | .isr (.data bytes) => some bytes
  | _ => none

/-- No overflow: none is reported, and the queue has room for the event of an interrupt. -/
def NoOverflow (s : UartState) : UartAction → Prop
  | .isr .fifoOvf => False
  | .isr .bufferFull => False
  | .isr _ => s.queue.length < queueLen
  | _ => True

/-- A run without overflow, after which every event is handled. -/
structure Delivered (as : List UartAction) (s : UartState) : Prop where
  run : runActs uartStep .init as = some s
  noOverflow : AllSteps uartStep NoOverflow .init as
  idle : s.pc = .receiving
  drained : s.queue = []

/-- The payloads passed to the callback. -/
def payloads (cj : CJson) (overflow : List Byte → BitVec 32) (s : UartState) : List (List Byte) :=
  s.parsed.filterMap (parseDataToJson cj overflow)

/-- What the task does for an event when nothing overflowed. -/
def TaskPc.Calm (pc : TaskPc) : Prop := pc = .receiving ∨ ∃ own, pc = .reading own false

/-- **The invariant without overflow**: what was parsed and what is pending are the segments. -/
structure InOrder (done : List UartAction) (s : UartState) : Prop where
  inv : UartInv s
  clean : s.stray = false
  pc : s.pc.Calm
  queue : ∀ e ∈ s.queue, (dispatch e).Calm
  parsed : s.parsed ++ s.pending.map Prod.fst = segmentsOf done

variable {s s' : UartState} {done as as' : List UartAction}

theorem segmentsOf_append (done as : List UartAction) :
    segmentsOf (done ++ as) = segmentsOf done ++ segmentsOf as := List.filterMap_append

theorem inOrder_init : InOrder [] .init where
  inv := uartInv_init
  clean := rfl
  pc := Or.inl rfl
  queue _ h := absurd h (by simp [UartState.init])
  parsed := rfl

/-- An interrupt that found room in the queue for its event. -/
theorem InOrder.enqueued (h : InOrder done s) {i : UartIsr} {e : UartEvent} (hinv : UartInv s')
    (hclean : s'.stray = false) (hpc : s'.pc = s.pc) (hparsed : s'.parsed = s.parsed)
    (hqueue : s'.queue = s.queue ++ [e]) (hcalm : (dispatch e).Calm)
    (hsegments : e.pending.map Prod.fst = segmentsOf [.isr i]) :
    InOrder (done ++ [.isr i]) s' := by
  refine ⟨hinv, hclean, hpc ▸ h.pc, ?_, ?_⟩
  · intro e' he
    rw [hqueue, List.mem_append, List.mem_singleton] at he
    rcases he with he | rfl
    · exact h.queue e' he
    · exact hcalm
  · rw [segmentsOf_append, ← h.parsed, ← hsegments]
    unfold UartState.pending
    rw [hqueue, hpc, hparsed, List.flatMap_append, List.flatMap_singleton]
    simp only [List.map_append, List.append_assoc]

theorem InOrder.data (h : InOrder done s) (bytes : List Byte) (hroom : s.queue.length < queueLen) :
    InOrder (done ++ [.isr (.data bytes)]) (uartIsr s (.data bytes)) := by
  have hqueue : (uartIsr s (.data bytes)).queue = s.queue ++ [.data bytes false] := by
    simp only [uartIsr, enqueue, if_pos hroom, h.clean]
  have hpc : s.pc ≠ .resetting := by
    intro hr
    rcases h.pc with hc | ⟨own, hc⟩ <;> exact absurd (hr.symm.trans hc) (by simp)
  have hfull : ¬ queueLen ≤ s.queue.length := Nat.not_le.mpr hroom
  have hclean : (uartIsr s (.data bytes)).stray = false := by
    simp [uartIsr, h.clean, hfull, hpc]
  exact h.enqueued (h.inv.data bytes) hclean rfl rfl hqueue (Or.inr ⟨bytes, rfl⟩) rfl

/-- An interrupt that only reports, and no overflow. -/
theorem InOrder.other (h : InOrder done s) (hroom : s.queue.length < queueLen) :
    InOrder (done ++ [.isr .other]) (uartIsr s .other) := by
  have hqueue : (uartIsr s .other).queue = s.queue ++ [.other] := by
    simp only [uartIsr, enqueue, if_pos hroom]
  exact h.enqueued (h.inv.isr .other) h.clean rfl rfl hqueue (Or.inl rfl) rfl

theorem InOrder.receive (h : InOrder done s) {e : UartEvent} {queue : List UartEvent}
    (hpc : s.pc = .receiving) (hq : s.queue = e :: queue) :
    InOrder (done ++ [.receive]) { s with queue := queue, pc := dispatch e } := by
  have he := h.queue e (by rw [hq]; exact List.mem_cons_self)
  refine ⟨h.inv.receive hpc hq, h.clean, he,
    fun e' he' => h.queue e' (by rw [hq]; exact List.mem_cons_of_mem e he'), ?_⟩
  rw [segmentsOf_append, ← h.parsed]
  unfold UartState.pending
  rw [hpc, hq]
  cases e <;> simp [TaskPc.pending, dispatch, UartEvent.pending, segmentsOf]

theorem InOrder.read (h : InOrder done s) {own : List Byte} {stray : Bool}
    (hpc : s.pc = .reading own stray) :
    InOrder (done ++ [.read]) { s with
      buf := s.buf.drop own.length
      parsed := s.parsed ++ [s.buf.take own.length]
      pc := .receiving } := by
  have hmark : stray = false := by
    rcases h.pc with hc | ⟨own', hc⟩
    · exact absurd (hpc.symm.trans hc) (by simp)
    · rw [hpc, TaskPc.reading.injEq] at hc
      exact hc.2
  subst hmark
  have hsplit := h.inv.split (by rw [hpc]; simp)
  unfold UartState.pending at hsplit
  rw [hpc] at hsplit
  refine ⟨h.inv.read hpc, h.clean, Or.inl rfl, h.queue, ?_⟩
  rw [segmentsOf_append, ← h.parsed]
  unfold UartState.pending
  rw [hpc, hsplit.pop.2.1 rfl]
  simp [TaskPc.pending, segmentsOf]

/-- **The step lemma** without overflow. -/
theorem inOrder_step (done : List UartAction) (s : UartState) (a : UartAction) (s' : UartState)
    (h : InOrder done s) (hno : NoOverflow s a) (hs : uartStep s a = some s') :
    InOrder (done ++ [a]) s' := by
  cases a with
  | isr i =>
    cases hs
    cases i with
    | data bytes => exact h.data bytes hno
    | fifoOvf => exact hno.elim
    | bufferFull => exact hno.elim
    | other => exact h.other hno
  | receive =>
    simp only [uartStep] at hs
    split at hs
    · rename_i e queue hpc hq
      cases hs
      exact h.receive hpc hq
    · exact absurd hs (by simp)
  | read =>
    simp only [uartStep] at hs
    split at hs
    · rename_i own stray hpc
      rw [Option.ite_none_right_eq_some] at hs
      obtain ⟨-, hs'⟩ := hs
      cases hs'
      exact h.read hpc
    · exact absurd hs (by simp)
  | flush =>
    rcases h.pc with hc | ⟨own, hc⟩ <;> simp [uartStep, hc] at hs
  | reset =>
    rcases h.pc with hc | ⟨own, hc⟩ <;> simp [uartStep, hc] at hs

/-- **Without overflow the task parses the segments**, in order, each as it is. -/
theorem parsed_eq_segments (h : Delivered as s) : s.parsed = segmentsOf as := by
  have hin := run_invariant_of inOrder_step as [] .init inOrder_init h.noOverflow s h.run
  have hparsed := hin.parsed
  unfold UartState.pending at hparsed
  rw [h.idle, h.drained] at hparsed
  simpa [TaskPc.pending] using hparsed

/-- **When the readings do not depend on the events.** For all frames on the line, and all runs
without overflow in which the driver cuts their bytes into events: once they are handled, there was
one payload for each frame, in order, exactly if the cut leaves the frames legible. Every cut that
keeps the frames apart does, and no other if zero is written with one digit. -/
theorem readings_iff_aligned (hrt : FramesRoundTrip cj) (overflow : List Byte → BitVec 32)
    (frames : List Frame) (h : Delivered as s) (hline : (segmentsOf as).flatten = wires frames) :
    (payloads cj overflow s = frames.map (Frame.payload cj) ↔ Legible frames (segmentsOf as)) ∧
    (Aligned frames (segmentsOf as) → payloads cj overflow s = frames.map (Frame.payload cj)) ∧
    ((∀ f ∈ frames, f.PlainZero) →
      (payloads cj overflow s = frames.map (Frame.payload cj) ↔
        Aligned frames (segmentsOf as))) := by
  have hiff : payloads cj overflow s = frames.map (Frame.payload cj) ↔
      Legible frames (segmentsOf as) := by
    unfold payloads
    rw [parsed_eq_segments h]
    exact payloads_iff_legible hrt hline
  refine ⟨hiff, fun haligned => hiff.mpr haligned.legible, fun hzero => ?_⟩
  rw [hiff]
  exact ⟨Legible.aligned hzero, Aligned.legible⟩

/-! ## Cuts of one stream -/

/-- The interrupts and the handling of the events in turn. -/
def deliver (segments : List (List Byte)) : List UartAction :=
  segments.flatMap fun bytes => [.isr (.data bytes), .receive, .read]

/-- One segment, handled before the next comes. -/
theorem deliver_cons (parsed : List (List Byte)) (bytes : List Byte) (as : List UartAction) :
    let s := { UartState.init with parsed := parsed }
    let s' := { UartState.init with parsed := parsed ++ [bytes] }
    runActs uartStep s (.isr (.data bytes) :: .receive :: .read :: as) = runActs uartStep s' as ∧
      (AllSteps uartStep NoOverflow s' as →
        AllSteps uartStep NoOverflow s (.isr (.data bytes) :: .receive :: .read :: as)) := by
  constructor
  · simp [runActs, uartStep, uartIsr, enqueue, dispatch, UartState.init, queueLen]
  · simp [AllSteps, NoOverflow, uartStep, uartIsr, enqueue, dispatch, UartState.init, queueLen]

theorem delivered_deliver (segments : List (List Byte)) :
    Delivered (deliver segments) { UartState.init with parsed := segments } := by
  have h (parsed : List (List Byte)) :
      runActs uartStep { UartState.init with parsed := parsed } (deliver segments) =
          some { UartState.init with parsed := parsed ++ segments } ∧
        AllSteps uartStep NoOverflow { UartState.init with parsed := parsed }
          (deliver segments) := by
    induction segments generalizing parsed with
    | nil => exact ⟨by rw [List.append_nil]; rfl, trivial⟩
    | cons bytes segments ih =>
      obtain ⟨hrun, hno⟩ := ih (parsed ++ [bytes])
      obtain ⟨hrun', hno'⟩ := deliver_cons parsed bytes (deliver segments)
      rw [List.append_assoc, List.singleton_append] at hrun
      exact ⟨hrun'.trans hrun, hno' hno⟩
  exact ⟨(h []).1, (h []).2, rfl, rfl⟩

def frameTemp : Frame :=
  ⟨utf8 "temp", intDecimal 21, 21, .lf, by decide +kernel, by decide +kernel, by decide +kernel,
    numeral_intDecimal 21⟩

def frameHum : Frame :=
  ⟨utf8 "hum", intDecimal 45, 45, .lf, by decide +kernel, by decide +kernel, by decide +kernel,
    numeral_intDecimal 45⟩

/-- Two readings, the first line end in an event of its own. -/
theorem readings_iff_aligned_temp :
    payloads frameCJson (fun _ => 0) { UartState.init with
        parsed := [utf8 "temp:21", utf8 "\n", utf8 "hum:45\n"] } =
      [frameTemp.payload frameCJson, frameHum.payload frameCJson] :=
  ((readings_iff_aligned frameCJson_roundTrip (fun _ => 0) [frameTemp, frameHum]
    (delivered_deliver [utf8 "temp:21", utf8 "\n", utf8 "hum:45\n"]) (by decide +kernel)).2.2
    (by simp [frameTemp, frameHum, Frame.PlainZero])).mpr
    ⟨[], utf8 "temp:21", [utf8 "\n"], [utf8 "hum:45\n"], by decide +kernel, rfl,
      by decide +kernel, by decide +kernel, [], utf8 "hum:45\n", [], [], by decide +kernel, rfl,
      by decide +kernel, by decide +kernel, rfl⟩

/-- The same two readings, with an event for each, with one event for both, and with a cut inside
the first number: two payloads, one payload, and two of which the first has the number 2 and the
second a key with a line end in it. -/
theorem readings_cut :
    (parseDataToJson frameCJson (fun _ => 0) (utf8 "temp:21\nhum:45\n")).bind frameCJson.parse =
        some (frameJson (utf8 "temp") 21) ∧
      [utf8 "temp:2", utf8 "1\nhum:45\n"].map
          (fun s => (parseDataToJson frameCJson (fun _ => 0) s).bind frameCJson.parse) =
        [some (frameJson (utf8 "temp") 2), some (frameJson (utf8 "1\nhum") 45)] ∧
      ¬ ∀ (cj : CJson) (overflow : List Byte → BitVec 32) (frames : List Frame)
        (as as' : List UartAction) (s s' : UartState), FramesRoundTrip cj → Delivered as s →
        Delivered as' s' → (segmentsOf as).flatten = wires frames →
        (segmentsOf as').flatten = wires frames →
        payloads cj overflow s = payloads cj overflow s' := by
  refine ⟨?_, ?_, fun h => ?_⟩
  · rw [parse_payload (utf8 "temp") (utf8 "21\nhum") [utf8 "45\n"] (by decide +kernel),
      show atoi (fun _ => 0) (utf8 "21\nhum") = 21#32 by decide +kernel]
    rfl
  · rw [List.map_cons, List.map_singleton,
      parse_payload (utf8 "temp") (utf8 "2") [] (by decide +kernel),
      parse_payload (utf8 "1\nhum") (utf8 "45\n") [] (by decide +kernel),
      show atoi (fun _ => 0) (utf8 "2") = 2#32 by decide +kernel,
      show atoi (fun _ => 0) (utf8 "45\n") = 45#32 by decide +kernel]
    rfl
  · have htwo := h frameCJson (fun _ => 0) [frameTemp, frameHum]
      (deliver [utf8 "temp:21\n", utf8 "hum:45\n"]) (deliver [utf8 "temp:21\nhum:45\n"]) _ _
      frameCJson_roundTrip (delivered_deliver _) (delivered_deliver _) (by decide +kernel)
      (by decide +kernel)
    exact absurd (congrArg List.length htwo) (by decide +kernel)

end Gateway.Uart
