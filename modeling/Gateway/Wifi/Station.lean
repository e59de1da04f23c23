import Gateway.Lib.System

/-!
# Wi-Fi bring-up: `STA_event_handler` and `wifi_init_sta`

Model of `components/WiFi/WiFi.c:112-132` and `214-240`. The event loop hands the station's
events to `STA_event_handler` one at a time, while `wifi_init_sta` waits, once, for one of the two
event-group bits. `pdFALSE` keeps the bits set, and nothing clears them.

The driver's side: `esp_wifi_connect` starts an attempt, and each attempt ends in `GOT_IP` or
`STA_DISCONNECTED`. A connected station can lose its link (`STA_DISCONNECTED`) or get an address
again. Starting the softAP starts the driver again, which may post another `STA_START`.

* `StaInv`: the invariant. `settles` says what the events still queued come to: a new attempt, or
  at least six disconnections since the last `GOT_IP`.
* **`never_stranded_while_retrying`**: when every event is handled and `wifi_init_sta` has acted on
  the bits, the gateway is on-line, or `wifi_init_sta` has returned as connected and the retries
  are used up.
* `stranded`: the run that reaches the last case. The portal is only started at boot.
-/

namespace Gateway.Wifi

open Gateway.Lib

/-- `EXAMPLE_ESP_MAXIMUM_RETRY`. -/
def maximumRetry : Nat := 5

/-- The station events `STA_event_handler` acts on. -/
inductive StaEvent where
  | staStart
  | staDisconnected
  | gotIp
  deriving DecidableEq, Repr

/-- `s_retry_num` and the bits of `s_wifi_event_group`. -/
structure WifiGlobals where
  retryNum : Nat
  connectedBit : Bool
  failBit : Bool
  deriving DecidableEq, Repr

/-- `STA_event_handler`: the globals after it, and whether it called `esp_wifi_connect`. -/
def staEventHandler (g : WifiGlobals) : StaEvent → WifiGlobals × Bool
  | .staStart => (g, true)
  | .staDisconnected =>
    if g.retryNum < maximumRetry then ({ g with retryNum := g.retryNum + 1 }, true)
    else ({ g with failBit := true }, false)
  | .gotIp => ({ g with retryNum := 0, connectedBit := true }, false)

/-- Where `wifi_init_sta` is. -/
inductive InitPc where
  /-- In `xEventGroupWaitBits`. -/
  | waiting
  /-- Returned, having logged `connected to ap`. -/
  | connectedToAp
  /-- In `wifi_init_softapsta`. -/
  | startingSoftap
  /-- Returned, with the softAP started. -/
  | portal
  | unexpectedEvent
  deriving DecidableEq, Repr

/-- The branch `wifi_init_sta` takes on the bits the wait returned. -/
def initBranch (g : WifiGlobals) : InitPc :=
  if g.connectedBit then .connectedToAp
  else if g.failBit then .startingSoftap
  else .unexpectedEvent

/-- The bring-up: the globals, the station's link, the attempts not yet ended, the events not yet
handled, and `wifi_init_sta`. -/
structure Station where
  globals : WifiGlobals
  link : Bool
  attempts : Nat
  queue : List StaEvent
  pc : InitPc
  deriving DecidableEq, Repr

/-- After `esp_wifi_start`: its `STA_START` is the only event. -/
def Station.init : Station := ⟨⟨0, false, false⟩, false, 0, [.staStart], .waiting⟩

inductive StaAction where
  /-- The event loop calls the handler on the oldest event. -/
  | handle
  | attemptOk
  | attemptFail
  | linkDrop
  /-- A connected station is given an address again. -/
  | addressAgain
  /-- `xEventGroupWaitBits` returns. -/
  | wake
  /-- `wifi_init_softapsta` finishes; `restarted` tells whether `esp_wifi_start` posted
  `STA_START`. -/
  | softap (restarted : Bool)
  deriving DecidableEq, Repr

def staStep (s : Station) : StaAction → Option Station
  | .handle =>
    match s.queue with
    | [] => none
    | e :: q =>
      let (g, connect) := staEventHandler s.globals e
      some { s with globals := g, attempts := s.attempts + connect.toNat, queue := q }
  | .attemptOk =>
    if 0 < s.attempts then
      some { s with link := true, attempts := s.attempts - 1, queue := s.queue ++ [.gotIp] }
    else none
  | .attemptFail =>
    if 0 < s.attempts then
      some { s with
        link := false, attempts := s.attempts - 1, queue := s.queue ++ [.staDisconnected] }
    else none
  | .linkDrop =>
    if s.link then some { s with link := false, queue := s.queue ++ [.staDisconnected] } else none
  | .addressAgain => if s.link then some { s with queue := s.queue ++ [.gotIp] } else none
  | .wake =>
    if s.pc = .waiting ∧ (s.globals.connectedBit ∨ s.globals.failBit) then
      some { s with pc := initBranch s.globals }
    else none
  | .softap restarted =>
    if s.pc = .startingSoftap then
      some { s with
        pc := .portal, queue := s.queue ++ (if restarted then [.staStart] else []) }
    else none

/-! ## What is to be shown -/

/-- The station is connected, or an attempt is outstanding, or the portal is started. -/
def Station.Online (s : Station) : Prop := s.link = true ∨ 0 < s.attempts ∨ s.pc = .portal

/-- No event is still to be handled, and `wifi_init_sta` has acted on any bit already set. -/
def Station.Quiet (s : Station) : Prop :=
  s.queue = [] ∧ (s.pc = .waiting → s.globals.connectedBit = false ∧ s.globals.failBit = false) ∧
    s.pc ≠ .startingSoftap

instance (s : Station) : Decidable s.Online := inferInstanceAs (Decidable (_ ∨ _ ∨ _))

instance (s : Station) : Decidable s.Quiet := inferInstanceAs (Decidable (_ ∧ _ ∧ _))

/-- The history: the events handled, the latest first. -/
def handledUpd (handled : List StaEvent) (s : Station) : StaAction → List StaEvent
  | .handle =>
    match s.queue with
    | [] => handled
    | e :: _ => e :: handled
  | _ => handled

/-- The bring-up with the events handled so far. -/
abbrev staStepH : Station × List StaEvent → StaAction → Option (Station × List StaEvent) :=
  withHist staStep handledUpd

/-- Disconnections handled since the last `GOT_IP`, or since the start. -/
def discsSinceIp : List StaEvent → Nat
  | [] => 0
  | .gotIp :: _ => 0
  | .staDisconnected :: es => discsSinceIp es + 1
  | .staStart :: es => discsSinceIp es

/-! ## The invariant -/

/-- What the queued events come to when no attempt is outstanding, after `d` disconnections: one of
them makes the handler connect, or `d` gets past the retries. -/
def settles : Nat → List StaEvent → Prop
  | d, [] => maximumRetry < d
  | _, .staStart :: _ => True
  | d, .staDisconnected :: q => d < maximumRetry ∨ settles (d + 1) q
  | _, .gotIp :: q => settles 0 q

theorem settles_staStart (q : List StaEvent) (d : Nat) : settles d (q ++ [.staStart]) := by
  induction q generalizing d with
  | nil => trivial
  | cons e q ih =>
    cases e with
    | staStart => trivial
    | staDisconnected => exact Or.inr (ih (d + 1))
    | gotIp => exact ih 0

theorem settles_staDisconnected (q : List StaEvent) (d : Nat) :
    settles d (q ++ [.staDisconnected]) := by
  induction q generalizing d with
  | nil =>
    show d < maximumRetry ∨ maximumRetry < d + 1
    omega
  | cons e q ih =>
    cases e with
    | staStart => trivial
    | staDisconnected => exact Or.inr (ih (d + 1))
    | gotIp => exact ih 0

/-- **The invariant of the bring-up.** -/
structure StaInv (s : Station) (handled : List StaEvent) : Prop where
  /-- `s_retry_num` counts the disconnections, up to the maximum. -/
  retry : s.globals.retryNum = min maximumRetry (discsSinceIp handled)
  /-- Past the retries, the fail bit is set. -/
  fail : maximumRetry < discsSinceIp handled → s.globals.failBit = true
  connected : s.globals.connectedBit = true → .gotIp ∈ handled
  /-- `wifi_init_sta` only returns as connected after a `GOT_IP`. -/
  returned : s.pc = .connectedToAp → .gotIp ∈ handled
  expected : s.pc ≠ .unexpectedEvent
  /-- Once started, the station is connected or trying, or the queued events settle it. -/
  alive : .staStart ∈ handled →
    s.link = true ∨ 0 < s.attempts ∨ settles (discsSinceIp handled) s.queue

theorem staInv_init : StaInv .init [] where
  retry := rfl
  fail h := absurd h (by decide)
  connected h := absurd h (by decide)
  returned h := absurd h (by decide)
  expected := by decide
  alive h := absurd h (by simp)

variable {s s' : Station} {handled : List StaEvent}

/-- An event put on the queue keeps the invariant when it settles the queue, or the station stays
connected. -/
theorem StaInv.post (h : StaInv s handled) {e : StaEvent} {link : Bool} {attempts : Nat}
    {pc : InitPc} (hret : pc = .connectedToAp → s.pc = .connectedToAp)
    (hexp : pc ≠ .unexpectedEvent)
    (halive : link = true ∨ ∀ d, settles d (s.queue ++ [e])) :
    StaInv { s with link := link, attempts := attempts, queue := s.queue ++ [e], pc := pc }
      handled where
  retry := h.retry
  fail := h.fail
  connected := h.connected
  returned hpc := h.returned (hret hpc)
  expected := hexp
  alive _ := halive.imp id fun hs => Or.inr (hs _)

/-- **The handler keeps the invariant.** -/
theorem StaInv.handle (h : StaInv s handled) {e : StaEvent} {q : List StaEvent}
    (hq : s.queue = e :: q) :
    StaInv { s with
        globals := (staEventHandler s.globals e).1
        attempts := s.attempts + (staEventHandler s.globals e).2.toNat
        queue := q } (e :: handled) := by
  have hretry := h.retry
  cases e with
  | staStart =>
    refine ⟨hretry, h.fail, fun hc => .tail _ (h.connected hc),
      fun hp => .tail _ (h.returned hp), h.expected, fun _ => Or.inr (Or.inl ?_)⟩
    exact Nat.succ_pos s.attempts
  | staDisconnected =>
    unfold staEventHandler
    by_cases hlt : s.globals.retryNum < maximumRetry
    · -- a retry
      have hd : discsSinceIp handled < maximumRetry := by omega
      simp only [if_pos hlt]
      refine ⟨?_, fun hf => ?_, fun hc => .tail _ (h.connected hc),
        fun hp => .tail _ (h.returned hp), h.expected, fun _ => Or.inr (Or.inl ?_)⟩
      · show s.globals.retryNum + 1 = min maximumRetry (discsSinceIp handled + 1)
        omega
      · have hf' : maximumRetry < discsSinceIp handled + 1 := hf
        omega
      · exact Nat.succ_pos s.attempts
    · -- the retries are used up
      simp only [if_neg hlt]
      refine ⟨?_, fun _ => rfl, fun hc => .tail _ (h.connected hc),
        fun hp => .tail _ (h.returned hp), h.expected, fun hs => ?_⟩
      · show s.globals.retryNum = min maximumRetry (discsSinceIp handled + 1)
        omega
      · have hstart : StaEvent.staStart ∈ handled := by simpa using hs
        rcases h.alive hstart with hl | ha | hset
        · exact Or.inl hl
        · exact Or.inr (Or.inl ha)
        · rw [hq] at hset
          rcases hset with hd | hset
          · exact absurd hd (by omega)
          · exact Or.inr (Or.inr hset)
  | gotIp =>
    refine ⟨rfl, fun hf => absurd hf (by simp [discsSinceIp]), fun _ => List.mem_cons_self,
      fun _ => List.mem_cons_self, h.expected, fun hs => ?_⟩
    have hstart : StaEvent.staStart ∈ handled := by simpa using hs
    rcases h.alive hstart with hl | ha | hset
    · exact Or.inl hl
    · exact Or.inr (Or.inl ha)
    · rw [hq] at hset
      exact Or.inr (Or.inr hset)

/-- `wifi_init_sta` wakes up on one of the bits, and takes the branch of a bit that is set. -/
theorem StaInv.wake (h : StaInv s handled)
    (hw : s.globals.connectedBit = true ∨ s.globals.failBit = true) :
    StaInv { s with pc := initBranch s.globals } handled := by
  refine ⟨h.retry, h.fail, h.connected, fun hpc => ?_, fun hpc => ?_, h.alive⟩
  · simp only [initBranch] at hpc
    split at hpc
    · rename_i hc
      exact h.connected hc
    · split at hpc <;> exact absurd hpc (by simp)
  · simp only [initBranch] at hpc
    split at hpc
    · exact absurd hpc (by simp)
    · rename_i hc
      split at hpc
      · exact absurd hpc (by simp)
      · rename_i hf
        exact hw.elim hc hf

/-- **The step lemma.** -/
theorem staInv_step (p : Station × List StaEvent) (a : StaAction) (p' : Station × List StaEvent)
    (h : StaInv p.1 p.2) (hs : staStepH p a = some p') : StaInv p'.1 p'.2 := by
  obtain ⟨hstep, hhist⟩ := withHist_some hs
  obtain ⟨s, handled⟩ := p
  obtain ⟨s', handled'⟩ := p'
  simp only at h hstep hhist ⊢
  subst hhist
  cases a with
  | handle =>
    simp only [staStep, handledUpd] at hstep ⊢
    cases hq : s.queue with
    | nil =>
      rw [hq] at hstep
      exact absurd hstep (by simp)
    | cons e q =>
      rw [hq] at hstep
      cases hstep
      exact h.handle hq
  | attemptOk =>
    simp only [staStep, Option.ite_none_right_eq_some] at hstep
    obtain ⟨-, hs'⟩ := hstep
    cases hs'
    exact h.post id h.expected (Or.inl rfl)
  | attemptFail =>
    simp only [staStep, Option.ite_none_right_eq_some] at hstep
    obtain ⟨-, hs'⟩ := hstep
    cases hs'
    exact h.post id h.expected (Or.inr (settles_staDisconnected s.queue))
  | linkDrop =>
    simp only [staStep, Option.ite_none_right_eq_some] at hstep
    obtain ⟨-, hs'⟩ := hstep
    cases hs'
    exact h.post id h.expected (Or.inr (settles_staDisconnected s.queue))
  | addressAgain =>
    simp only [staStep, Option.ite_none_right_eq_some] at hstep
    obtain ⟨hlink, hs'⟩ := hstep
    cases hs'
    exact h.post id h.expected (Or.inl hlink)
  | wake =>
    simp only [staStep, Option.ite_none_right_eq_some] at hstep
    obtain ⟨⟨-, hbits⟩, hs'⟩ := hstep
    cases hs'
    exact h.wake hbits
  | softap restarted =>
    simp only [staStep, Option.ite_none_right_eq_some] at hstep
    obtain ⟨-, hs'⟩ := hstep
    cases hs'
    cases restarted with
    | true => exact h.post (by simp) (by simp) (Or.inr (settles_staStart s.queue))
    | false =>
      have hq : s.queue ++ [] = s.queue := List.append_nil s.queue
      refine ⟨h.retry, h.fail, h.connected, fun hpc => absurd hpc (by simp), by simp, ?_⟩
      simp only [if_neg Bool.false_ne_true, hq]
      exact h.alive

/-- **The run lemma.** -/
theorem staInv_reach {p : Station × List StaEvent} (hr : Reach staStepH (.init, []) p) :
    StaInv p.1 p.2 :=
  reach_invariant (I := fun p : Station × List StaEvent => StaInv p.1 p.2) staInv_init staInv_step
    hr

/-! ## Stranding -/

/-- **While the retries last, the gateway is not stranded.** Once `STA_START` was handled, when all
events are handled and `wifi_init_sta` has acted on the bits, either the station is connected, or
an attempt is outstanding, or the portal is started, or `wifi_init_sta` has returned as connected,
after a `GOT_IP`, and more than `EXAMPLE_ESP_MAXIMUM_RETRY` disconnections have been handled since
the last `GOT_IP`. -/
theorem never_stranded_while_retrying {p : Station × List StaEvent}
    (hr : Reach staStepH (.init, []) p) (hstart : .staStart ∈ p.2) (hq : p.1.Quiet) :
    p.1.Online ∨
      (p.1.pc = .connectedToAp ∧ .gotIp ∈ p.2 ∧ maximumRetry < discsSinceIp p.2) := by
  have hinv := staInv_reach hr
  obtain ⟨hempty, hacted, hstarted⟩ := hq
  rcases hinv.alive hstart with hl | ha | hset
  · exact Or.inl (Or.inl hl)
  · exact Or.inl (Or.inr (Or.inl ha))
  · rw [hempty] at hset
    have hfail := hinv.fail hset
    cases hpc : p.1.pc with
    | waiting =>
      rw [(hacted hpc).2] at hfail
      exact absurd hfail (by simp)
    | connectedToAp => exact Or.inr ⟨rfl, hinv.returned hpc, hset⟩
    | startingSoftap => exact absurd hpc hstarted
    | portal => exact Or.inl (Or.inr (Or.inr hpc))
    | unexpectedEvent => exact absurd hpc hinv.expected

/-- A boot that cannot join: six failed attempts, then the portal. -/
def failedBoot : List StaAction :=
  [.handle, .attemptFail, .handle, .attemptFail, .handle, .attemptFail, .handle, .attemptFail,
    .handle, .attemptFail, .handle, .attemptFail, .handle, .wake, .softap false]

def failedBootEnd : Station × List StaEvent :=
  (⟨⟨5, false, true⟩, false, 0, [], .portal⟩, List.replicate 6 .staDisconnected ++ [.staStart])

theorem never_stranded_while_retrying_boot :
    failedBootEnd.1.Online ∨ (failedBootEnd.1.pc = .connectedToAp ∧ .gotIp ∈ failedBootEnd.2 ∧
      maximumRetry < discsSinceIp failedBootEnd.2) :=
  never_stranded_while_retrying ⟨failedBoot, by decide⟩ (by decide) (by decide)

/-- The run that strands the gateway: it joins, `wifi_init_sta` returns, the link drops, and the
five retries fail. -/
def strandingRun : List StaAction :=
  [.handle, .attemptOk, .handle, .wake, .linkDrop, .handle, .attemptFail, .handle, .attemptFail,
    .handle, .attemptFail, .handle, .attemptFail, .handle, .attemptFail, .handle]

/-- The fail bit is set, nobody waits for it, and no event is to come. -/
theorem stranded :
    ¬ ∀ p : Station × List StaEvent, Reach staStepH (.init, []) p → .staStart ∈ p.2 →
      p.1.Quiet → p.1.Online := by
  intro h
  have hr : runActs staStepH (.init, []) strandingRun =
      some (⟨⟨5, true, true⟩, false, 0, [], .connectedToAp⟩,
        List.replicate 6 .staDisconnected ++ [.gotIp, .staStart]) := by decide
  exact absurd (h _ ⟨strandingRun, hr⟩ (by decide) (by decide)) (by decide)

end Gateway.Wifi
