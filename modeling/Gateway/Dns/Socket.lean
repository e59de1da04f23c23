import Gateway.Dns.Exchange
import Gateway.Lib.Handles

/-!
# The sockets of `dns_server_task`

Model of the loops of `dns_server.c:166-235`: one step is one call of the socket API with its
outcome, and the log holds what the task did with descriptors. The result of `bind` is not looked
at. A failed `recvfrom` closes the socket and leaves the inner loop, and so does a failed `sendto`,
without closing it; both then reach the clean-up block, which shuts down and closes.

* `SockInv`: while `recvfrom` does not fail, the task holds the one descriptor it works on.
* **`sockets_owned`**: then every descriptor is closed once and none is touched after that. A failed
  `recvfrom` breaks this as soon as the clean-up block runs.
-/

namespace Gateway.Dns

open Gateway.Lib

/-- The call `dns_server_task` is about to make. -/
inductive TaskPc where
  | socket
  | bind (sock : Int)
  | recvfrom (sock : Int)
  | sendto (sock : Int)
  /-- The `close` after a failed `recvfrom`. -/
  | closeFailed (sock : Int)
  /-- The clean-up block. -/
  | shutdown (sock : Int)
  | close (sock : Int)
  /-- `vTaskDelete(NULL)`. -/
  | deleted
  deriving DecidableEq, Repr

/-- The outcome of a call. A datagram is received with the locals as they are. -/
inductive Outcome where
  | socket (sock : Int)
  | bind (err : Int)
  | received (loc : Locals) (d : List Byte)
  | recvFailed
  | sendto (err : Int)
  | shutdown
  | close

/-- Out of the inner loop: `if (sock != -1)`. -/
def cleanUp (sock : Int) : TaskPc := if sock ≠ -1 then .shutdown sock else .socket

def taskStep (netif : Option Ip4) : TaskPc → Outcome → Option TaskPc
  | .socket, .socket sock => some (if sock < 0 then .deleted else .bind sock)
  | .bind sock, .bind _ => some (.recvfrom sock)
  | .recvfrom sock, .received loc d =>
    match serveDatagram netif loc d with
    | .error _ => none
    | .ok none => some (.recvfrom sock)
    | .ok (some _) => some (.sendto sock)
  | .recvfrom sock, .recvFailed => some (.closeFailed sock)
  | .sendto sock, .sendto err => some (if err < 0 then cleanUp sock else .recvfrom sock)
  | .closeFailed sock, .close => some (cleanUp sock)
  | .shutdown sock, .shutdown => some (.close sock)
  | .close _, .close => some .socket
  | _, _ => none

/-- What a call does with a descriptor. -/
def descriptorUse : TaskPc → Outcome → List (HandleUse Int)
  | .socket, .socket sock => if sock < 0 then [] else [.obtain sock]
  | .bind sock, _ => [.use sock]
  | .recvfrom sock, _ => [.use sock]
  | .sendto sock, _ => [.use sock]
  | .closeFailed sock, _ => [.release sock]
  | .shutdown sock, _ => [.use sock]
  | .close sock, _ => [.release sock]
  | _, _ => []

/-- The task with the log of its descriptors, the latest first. -/
abbrev taskStepH (netif : Option Ip4) :
    TaskPc × List (HandleUse Int) → Outcome → Option (TaskPc × List (HandleUse Int)) :=
  withHist (taskStep netif) fun log pc a => descriptorUse pc a ++ log

/-- The start of the task. -/
def taskInit : TaskPc × List (HandleUse Int) := (.socket, [])

/-- **Socket ownership**: no descriptor is touched once it was closed, and before the next `socket`
and at the end every descriptor obtained has been closed. -/
def OwnsSockets (p : TaskPc × List (HandleUse Int)) : Prop :=
  Owned p.2 ∧ (p.1 = .socket ∨ p.1 = .deleted → ∀ sock, obtained sock p.2 = released sock p.2)

/-- `recvfrom` does not fail. -/
def RecvOk (_ : TaskPc × List (HandleUse Int)) : Outcome → Prop
  | .recvFailed => False
  | _ => True

/-- The descriptor the task works on. -/
def TaskPc.held : TaskPc → List Int
  | .bind sock | .recvfrom sock | .sendto sock | .closeFailed sock | .shutdown sock
  | .close sock => [sock]
  | .socket | .deleted => []

/-- **The invariant** while `recvfrom` does not fail. -/
structure SockInv (p : TaskPc × List (HandleUse Int)) : Prop where
  balanced : Balanced p.2 p.1.held
  nonneg : ∀ sock ∈ p.1.held, 0 ≤ sock
  noFailure : ∀ sock, p.1 ≠ .closeFailed sock

theorem sockInv_init : SockInv taskInit :=
  ⟨.nil, by simp [taskInit, TaskPc.held], by simp [taskInit]⟩

theorem SockInv.ownsSockets {p : TaskPc × List (HandleUse Int)} (h : SockInv p) :
    OwnsSockets p := by
  refine ⟨h.balanced.owned, fun hpc => ?_⟩
  have hb := h.balanced
  have hheld : p.1.held = [] := by
    rcases hpc with hpc | hpc <;> rw [hpc] <;> rfl
  rw [hheld] at hb
  exact hb.all_released

variable {netif : Option Ip4}

/-- A descriptor goes on to the clean-up block. -/
theorem cleanUp_of_nonneg {sock : Int} (h : 0 ≤ sock) : cleanUp sock = .shutdown sock :=
  if_pos (by omega)

/-- A call on the descriptor that keeps it. -/
theorem SockInv.use {pc pc' : TaskPc} {log : List (HandleUse Int)} {sock : Int}
    (h : SockInv (pc, log)) (hheld : pc.held = [sock]) (hheld' : pc'.held = [sock])
    (hne : ∀ s, pc' ≠ .closeFailed s) : SockInv (pc', .use sock :: log) := by
  have hb : Balanced log pc.held := h.balanced
  have hnonneg : ∀ s ∈ pc.held, 0 ≤ s := h.nonneg
  rw [hheld] at hb hnonneg
  refine ⟨?_, ?_, hne⟩
  · show Balanced (.use sock :: log) pc'.held
    rw [hheld']
    exact hb.use List.mem_cons_self
  · show ∀ s ∈ pc'.held, 0 ≤ s
    rw [hheld']
    exact hnonneg

/-- **The step lemma.** -/
theorem sockInv_step (p : TaskPc × List (HandleUse Int)) (a : Outcome)
    (p' : TaskPc × List (HandleUse Int)) (h : SockInv p) (hc : RecvOk p a)
    (hs : taskStepH netif p a = some p') : SockInv p' := by
  obtain ⟨hstep, hlog⟩ := withHist_some hs
  obtain ⟨pc, log⟩ := p
  obtain ⟨pc', log'⟩ := p'
  simp only at hstep hlog
  subst hlog
  cases pc with
  | deleted => exact absurd hstep (by simp [taskStep])
  | closeFailed sock => exact absurd rfl (h.noFailure sock)
  | socket =>
    cases a with
    | socket sock =>
      simp only [taskStep, Option.some.injEq] at hstep
      simp only [descriptorUse]
      by_cases hneg : sock < 0
      · rw [if_pos hneg] at hstep ⊢
        subst hstep
        exact ⟨h.balanced, h.nonneg, by simp⟩
      · rw [if_neg hneg] at hstep ⊢
        subst hstep
        exact ⟨h.balanced.obtain sock, by simpa [TaskPc.held] using hneg, by simp⟩
    | _ => exact absurd hstep (by simp [taskStep])
  | bind sock =>
    cases a with
    | bind err =>
      cases hstep
      exact h.use rfl rfl (by simp)
    | _ => exact absurd hstep (by simp [taskStep])
  | recvfrom sock =>
    cases a with
    | received loc d =>
      simp only [taskStep, serveDatagram_ok] at hstep
      cases hr : replyTo netif loc.ipInfo d with
      | none =>
        rw [hr] at hstep
        cases hstep
        exact h.use rfl rfl (by simp)
      | some reply =>
        rw [hr] at hstep
        cases hstep
        exact h.use rfl rfl (by simp)
    | recvFailed => exact hc.elim
    | _ => exact absurd hstep (by simp [taskStep])
  | sendto sock =>
    cases a with
    | sendto err =>
      have hsock : 0 ≤ sock := h.nonneg sock List.mem_cons_self
      simp only [taskStep, Option.some.injEq, cleanUp_of_nonneg hsock] at hstep
      by_cases herr : err < 0
      · rw [if_pos herr] at hstep
        subst hstep
        exact h.use rfl rfl (by simp)
      · rw [if_neg herr] at hstep
        subst hstep
        exact h.use rfl rfl (by simp)
    | _ => exact absurd hstep (by simp [taskStep])
  | shutdown sock =>
    cases a with
    | shutdown =>
      cases hstep
      exact h.use rfl rfl (by simp)
    | _ => exact absurd hstep (by simp [taskStep])
  | close sock =>
    cases a with
    | close =>
      cases hstep
      have hb : Balanced log [sock] := h.balanced
      have hrel := hb.release List.mem_cons_self
      rw [List.erase_cons_head] at hrel
      exact ⟨hrel, by simp [TaskPc.held], by simp⟩
    | _ => exact absurd hstep (by simp [taskStep])

/-- **The run lemma.** -/
theorem sockInv_run {as : List Outcome} {p : TaskPc × List (HandleUse Int)}
    (hc : AllSteps (taskStepH netif) RecvOk taskInit as)
    (hr : runActs (taskStepH netif) taskInit as = some p) : SockInv p :=
  run_invariant_of (I := fun _ p => SockInv p) (fun _ p a p' h hc hs => sockInv_step p a p' h hc hs)
    as [] taskInit sockInv_init hc p hr

/-- After a failed `recvfrom` the clean-up block shuts a closed descriptor down. -/
theorem not_owned_after_failure {p q : TaskPc × List (HandleUse Int)} {sock : Int} (h : SockInv p)
    (hpc : p.1 = .recvfrom sock)
    (hr : runActs (taskStepH netif) p [.recvFailed, .close, .shutdown] = some q) :
    ¬ OwnsSockets q := by
  obtain ⟨pc, log⟩ := p
  simp only at hpc
  subst hpc
  have hsock : 0 ≤ sock := h.nonneg sock List.mem_cons_self
  have hq : q = (.close sock, .use sock :: .release sock :: .use sock :: log) := by
    simp only [runActs, taskStepH, withHist, taskStep, cleanUp_of_nonneg hsock, descriptorUse,
      Option.map_some, Option.some.injEq, List.singleton_append] at hr
    exact hr.symm
  have hcount := h.balanced.count sock
  rw [hq]
  rintro ⟨⟨hlt, -⟩, -⟩
  unfold obtained released at hlt hcount
  simp [TaskPc.held] at hlt hcount
  omega

/-- **The task owns its sockets while `recvfrom` does not fail.** In every run of
`dns_server_task`, with any outcomes of `socket`, `bind` and `sendto` and any datagrams, in which
`recvfrom` does not fail: every descriptor is closed once, and is not touched from then on. A failed
`recvfrom` in such a run ends this: the clean-up block shuts down a descriptor that was closed. -/
theorem sockets_owned (netif : Option Ip4) {as : List Outcome} {p : TaskPc × List (HandleUse Int)}
    (hr : runActs (taskStepH netif) taskInit as = some p)
    (hc : AllSteps (taskStepH netif) RecvOk taskInit as) :
    OwnsSockets p ∧ ∀ sock q, p.1 = .recvfrom sock →
      runActs (taskStepH netif) p [.recvFailed, .close, .shutdown] = some q → ¬ OwnsSockets q := by
  have hinv := sockInv_run hc hr
  exact ⟨hinv.ownsSockets, fun sock q hpc hq => not_owned_after_failure hinv hpc hq⟩

/-- Descriptor 3, a query, a failed `sendto`, and descriptor 3 again. -/
def sendFailedRun : List Outcome :=
  [.socket 3, .bind 0, .received .zero queryA, .sendto (-1), .shutdown, .close, .socket 3]

theorem sockets_owned_sendFailed :
    OwnsSockets (.bind 3, [.obtain 3, .release 3, .use 3, .use 3, .use 3, .use 3, .obtain 3]) := by
  have hrun : runActs (taskStepH (some apIp)) taskInit sendFailedRun = some (.bind 3,
      [.obtain 3, .release 3, .use 3, .use 3, .use 3, .use 3, .obtain 3]) := by decide +kernel
  exact (sockets_owned (some apIp) hrun
    (allSteps_of_mem _ _ (by simp [sendFailedRun, RecvOk]))).1

/-- A failed `recvfrom` on descriptor 3: closed, shut down and closed again. -/
theorem sockets_closed_twice :
    ∃ p, runActs (taskStepH none) taskInit [.socket 3, .bind 0, .recvFailed, .close, .shutdown,
        .close] = some p ∧ ¬ OwnsSockets p ∧ obtained 3 p.2 = 1 ∧ released 3 p.2 = 2 := by
  refine ⟨(.socket, [.release 3, .use 3, .release 3, .use 3, .use 3, .obtain 3]), rfl, ?_,
    by decide, by decide⟩
  rintro ⟨-, h⟩
  exact absurd (h (Or.inl rfl) 3) (by decide)

end Gateway.Dns
