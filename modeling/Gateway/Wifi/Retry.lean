import Mathlib.Data.List.Induction
import Gateway.Wifi.Station

/-!
# The retry machine, on any sequence of events

`STA_event_handler` (`components/WiFi/WiFi.c:112-132`) is registered for every Wi-Fi event and acts
on three of them. Here the sequence is not restricted to what the driver can deliver, as it is in
`Station.lean`.

* `staRun`: the globals after a sequence of events, and how often `esp_wifi_connect` was called.
* `earlyDiscs`: the disconnections among the first five since the `GOT_IP` before them.
* `StaSpec`: what the handler has done, in terms of the events. `staSpec_run`: by induction on the
  sequence, one event at a time from its end.
* **`station_machine`**: the globals, the calls and the branch of `wifi_init_sta` after any
  sequence.
* `globals_reach`: the globals in a run of the bring-up are those of the events handled.
-/

namespace Gateway.Wifi

open Gateway.Lib

/-- The handler on any event; `none` is one it does nothing on. -/
def staDeliver (g : WifiGlobals) : Option StaEvent → WifiGlobals × Bool
  | none => (g, false)
  | some e => staEventHandler g e

/-- One event: the globals, and the calls of `esp_wifi_connect` so far. -/
def staNext (p : WifiGlobals × Nat) (e : Option StaEvent) : WifiGlobals × Nat :=
  ((staDeliver p.1 e).1, p.2 + (staDeliver p.1 e).2.toNat)

/-- A boot, and the events delivered since, the oldest first. -/
def staRun (es : List (Option StaEvent)) : WifiGlobals × Nat :=
  es.foldl staNext (⟨0, false, false⟩, 0)

/-- Disconnections since the last `GOT_IP`, or since the boot. -/
def discsAfter (es : List (Option StaEvent)) : Nat := discsSinceIp (es.filterMap id).reverse

/-- Event `i` is a disconnection, and among the first five since the `GOT_IP` before it. -/
def EarlyDisc (es : List (Option StaEvent)) (i : Nat) : Prop :=
  es[i]? = some (some .staDisconnected) ∧ discsAfter (es.take (i + 1)) ≤ maximumRetry

instance (es : List (Option StaEvent)) (i : Nat) : Decidable (EarlyDisc es i) :=
  inferInstanceAs (Decidable (_ ∧ _))

/-- How many of the events are such disconnections. -/
def earlyDiscs (es : List (Option StaEvent)) : Nat :=
  (List.range es.length).countP (EarlyDisc es ·)

variable {es : List (Option StaEvent)}

/-! ## One more event -/

theorem staRun_concat (es : List (Option StaEvent)) (e : Option StaEvent) :
    staRun (es ++ [e]) = staNext (staRun es) e := by
  unfold staRun
  rw [List.foldl_append]
  rfl

theorem discsAfter_other (es : List (Option StaEvent)) :
    discsAfter (es ++ [none]) = discsAfter es := by
  unfold discsAfter
  rw [List.filterMap_append]
  simp

theorem discsAfter_concat (es : List (Option StaEvent)) (e : StaEvent) :
    discsAfter (es ++ [some e]) =
      match e with
      | .staStart => discsAfter es
      | .staDisconnected => discsAfter es + 1
      | .gotIp => 0 := by
  unfold discsAfter
  rw [List.filterMap_append]
  cases e <;> simp [discsSinceIp]

theorem earlyDisc_append_left {i : Nat} (l : List (Option StaEvent)) (h : i < es.length) :
    EarlyDisc (es ++ l) i ↔ EarlyDisc es i := by
  unfold EarlyDisc
  rw [List.getElem?_append_left h, List.take_append_of_le_length (by omega)]

theorem earlyDisc_last (e : Option StaEvent) :
    EarlyDisc (es ++ [e]) es.length ↔
      e = some .staDisconnected ∧ discsAfter (es ++ [e]) ≤ maximumRetry := by
  unfold EarlyDisc
  rw [List.getElem?_concat_length, List.take_of_length_le (by simp), Option.some.injEq]

/-- The count looks at each event with what came before it. -/
theorem earlyDiscs_concat (es : List (Option StaEvent)) (e : Option StaEvent) :
    earlyDiscs (es ++ [e]) = earlyDiscs es +
      if e = some .staDisconnected ∧ discsAfter (es ++ [e]) ≤ maximumRetry then 1 else 0 := by
  have hold : (List.range es.length).countP (EarlyDisc (es ++ [e]) ·) = earlyDiscs es := by
    refine List.countP_congr fun i hi => ?_
    rw [decide_eq_true_eq, decide_eq_true_eq]
    exact earlyDisc_append_left [e] (List.mem_range.mp hi)
  rw [earlyDiscs, List.length_append, List.length_singleton, List.range_succ, List.countP_append,
    hold, List.countP_singleton]
  simp only [decide_eq_true_eq, earlyDisc_last]

/-- A property of some prefix of a longer sequence. -/
theorem exists_prefix_concat {P : List (Option StaEvent) → Prop} (e : Option StaEvent) :
    (∃ p, p <+: es ++ [e] ∧ P p) ↔ (∃ p, p <+: es ∧ P p) ∨ P (es ++ [e]) := by
  simp only [List.prefix_concat_iff]
  constructor
  · rintro ⟨p, rfl | hp, h⟩
    · exact Or.inr h
    · exact Or.inl ⟨p, hp, h⟩
  · rintro (⟨p, hp, h⟩ | h)
    · exact ⟨p, Or.inr hp, h⟩
    · exact ⟨_, Or.inl rfl, h⟩

/-! ## The whole sequence -/

/-- **What the handler has done** after the events `es`. -/
structure StaSpec (es : List (Option StaEvent)) (p : WifiGlobals × Nat) : Prop where
  /-- `s_retry_num` counts the disconnections, up to the maximum. -/
  retry : p.1.retryNum = min (discsAfter es) maximumRetry
  /-- `esp_wifi_connect` was called for each start and each early disconnection. -/
  connects : p.2 = es.count (some .staStart) + earlyDiscs es
  /-- The fail bit is set once the count has gone past the maximum. -/
  fail : p.1.failBit = true ↔ ∃ q, q <+: es ∧ maximumRetry < discsAfter q
  connected : p.1.connectedBit = true ↔ some .gotIp ∈ es

variable {p : WifiGlobals × Nat}

theorem staSpec_nil : StaSpec [] (⟨0, false, false⟩, 0) where
  retry := rfl
  connects := rfl
  fail := by
    constructor
    · intro h
      exact absurd h (by simp)
    · rintro ⟨q, hq, hd⟩
      rw [List.prefix_nil.mp hq] at hd
      exact absurd hd (by decide)
  connected := by simp

/-- An event that leaves the count where it was sets no fail bit. -/
theorem StaSpec.fail_keep (h : StaSpec es p) {e : Option StaEvent}
    (hd : discsAfter (es ++ [e]) ≤ discsAfter es ∨ discsAfter (es ++ [e]) ≤ maximumRetry) :
    p.1.failBit = true ↔ ∃ q, q <+: es ++ [e] ∧ maximumRetry < discsAfter q := by
  rw [exists_prefix_concat, h.fail]
  constructor
  · exact Or.inl
  · rintro (hq | hlt)
    · exact hq
    · exact ⟨es, List.prefix_rfl, by omega⟩

theorem StaSpec.connected_keep (h : StaSpec es p) {e : Option StaEvent}
    (he : e ≠ some .gotIp) : p.1.connectedBit = true ↔ some .gotIp ∈ es ++ [e] := by
  rw [h.connected, List.mem_append, List.mem_singleton, or_iff_left he.symm]

/-- **The step lemma**, one case for each event. -/
theorem StaSpec.next (h : StaSpec es p) (e : Option StaEvent) :
    StaSpec (es ++ [e]) (staNext p e) := by
  have hearly := earlyDiscs_concat es e
  have hretry := h.retry
  have hconnects := h.connects
  cases e with
  | none =>
    have hd := discsAfter_other es
    refine ⟨?_, ?_, h.fail_keep (Or.inl (by omega)), ?_⟩
    · rw [hd]
      exact hretry
    · rw [hearly, if_neg (by simp), List.count_append]
      exact hconnects
    · exact h.connected_keep (by simp)
  | some e =>
    cases e with
    | staStart =>
      have hd : discsAfter (es ++ [some .staStart]) = discsAfter es := discsAfter_concat es _
      refine ⟨?_, ?_, h.fail_keep (Or.inl (by omega)), ?_⟩
      · rw [hd]
        exact hretry
      · rw [hearly, if_neg (by simp), List.count_append, List.count_singleton_self]
        show p.2 + 1 = _
        omega
      · exact h.connected_keep (by simp)
    | staDisconnected =>
      have hd : discsAfter (es ++ [some .staDisconnected]) = discsAfter es + 1 :=
        discsAfter_concat es _
      have hcount : (es ++ [some StaEvent.staDisconnected]).count (some .staStart) =
          es.count (some .staStart) := by simp [List.count_append]
      unfold staNext staDeliver staEventHandler
      by_cases hlt : p.1.retryNum < maximumRetry
      · -- a retry
        simp only [if_pos hlt]
        refine ⟨?_, ?_, h.fail_keep (Or.inr (by omega)), ?_⟩
        · show p.1.retryNum + 1 = _
          omega
        · rw [hearly, if_pos ⟨rfl, by omega⟩, hcount]
          show p.2 + 1 = _
          omega
        · exact h.connected_keep (by simp)
      · -- the retries are used up
        simp only [if_neg hlt]
        refine ⟨?_, ?_, ?_, ?_⟩
        · show p.1.retryNum = _
          omega
        · rw [hearly, if_neg (by simp; omega), hcount]
          exact hconnects
        · refine ⟨fun _ => ⟨_, List.prefix_rfl, by omega⟩, fun _ => rfl⟩
        · exact h.connected_keep (by simp)
    | gotIp =>
      have hd : discsAfter (es ++ [some .gotIp]) = 0 := discsAfter_concat es _
      refine ⟨?_, ?_, h.fail_keep (Or.inr (by omega)), ?_⟩
      · rw [hd]
        rfl
      · rw [hearly, if_neg (by simp), List.count_append]
        exact hconnects
      · simp [staNext, staDeliver, staEventHandler]

/-- **The run lemma.** -/
theorem staSpec_run (es : List (Option StaEvent)) : StaSpec es (staRun es) := by
  induction es using List.reverseRecOn with
  | nil => exact staSpec_nil
  | append_singleton es e ih =>
    rw [staRun_concat]
    exact ih.next e

/-- **The retry machine.** After any sequence of events, with `discsAfter` the disconnections since
the last `GOT_IP` or the boot: `s_retry_num` is that number up to 5; `esp_wifi_connect` was called
once for each `STA_START` and once for each disconnection among the first five since the `GOT_IP`
before it; the fail bit is set if and only if the number was 6 or more after some prefix; the
connected bit if and only if there was a `GOT_IP`. When `wifi_init_sta` wakes up after some prefix,
it starts the softAP if and only if that prefix has no `GOT_IP`. -/
theorem station_machine (es : List (Option StaEvent)) :
    (staRun es).1.retryNum = min (discsAfter es) 5 ∧
    (staRun es).2 = es.count (some .staStart) + earlyDiscs es ∧
    ((staRun es).1.failBit = true ↔ ∃ q, q <+: es ∧ 6 ≤ discsAfter q) ∧
    ((staRun es).1.connectedBit = true ↔ some .gotIp ∈ es) ∧
    ∀ q, q <+: es → (staRun q).1.connectedBit = true ∨ (staRun q).1.failBit = true →
      (initBranch (staRun q).1 = .startingSoftap ↔ some .gotIp ∉ q) := by
  have h := staSpec_run es
  refine ⟨h.retry, h.connects, h.fail, h.connected, fun q _ hbits => ?_⟩
  rw [← (staSpec_run q).connected, initBranch]
  by_cases hc : (staRun q).1.connectedBit = true
  · simp [hc]
  · have hf := hbits.resolve_left hc
    simp [hc, hf]

/-! ## In a run of the bring-up -/

/-- **The globals in a run** of the bring-up are those of the events handled. -/
theorem globals_reach {p : Station × List StaEvent} (hr : Reach staStepH (.init, []) p) :
    p.1.globals = (staRun (p.2.reverse.map some)).1 := by
  refine reach_invariant (I := fun p : Station × List StaEvent =>
    p.1.globals = (staRun (p.2.reverse.map some)).1) rfl ?_ hr
  rintro ⟨s, handled⟩ a ⟨s', handled'⟩ hI hs
  obtain ⟨hstep, hhist⟩ := withHist_some hs
  simp only at hI hstep hhist ⊢
  subst hhist
  cases a with
  | handle =>
    cases hq : s.queue with
    | nil => simp [staStep, hq] at hstep
    | cons e q =>
      simp only [staStep, hq, Option.some.injEq] at hstep
      subst hstep
      simp only [handledUpd, hq, List.reverse_cons, List.map_append, List.map_cons, List.map_nil]
      rw [staRun_concat, staNext, ← hI]
      rfl
  -- no other step touches the globals
  | attemptOk | attemptFail | linkDrop | addressAgain | wake | softap =>
    simp only [staStep, Option.ite_none_right_eq_some] at hstep
    obtain ⟨-, hs'⟩ := hstep
    cases hs'
    exact hI

end Gateway.Wifi
