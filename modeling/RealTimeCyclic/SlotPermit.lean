import RealTimeCyclic.SlotMove

namespace RealTimeCyclic.SlotPermit

open Shm Slave SlotThread Slot Transition

def heldPermits : CyclePc → ℕ
  | .readCycle | .usleep | .store | .calculate | .postAllow => 1
  | _ => 0

def promisedPermits : HandlerPc → ℕ
  | .startPost _ => 1
  | _ => 0

def owedPermits : HandlerPc → ℕ
  | .stopWait _ => 1
  | _ => 0

def permits (s : State) : ℕ := s.self.allowCommunicationCycle + heldPermits s.cycle

def expectedPermits (seg : Shmseg) : ℕ := if seg.cycleStarted then 1 else 0

/-- No `usleep` fails, and a slot is not reset while its cycle is started. -/
def permitsReturned (s : State) : Event → Bool
  | .cycle usleep _ _ => s.cycle = .usleep → 0 < s.sleepUs → usleep
  | .slot _ =>
    match s.slot with
    | .resetMemset _ => !s.seg.cycleStarted
    | _ => true
  | _ => true

structure PermitInv (s : State) : Prop where
  balance : permits s + promisedPermits s.handler =
    expectedPermits s.seg + owedPermits s.handler
  starting : ∀ k, s.handler = .startWrite k → s.seg.cycleStarted = false
  stopping : ∀ k, s.handler = .stopWrite k → s.seg.cycleStarted = true

theorem PermitInv.keep {s t : State} (h : PermitInv s) (hpermits : permits t = permits s)
    (hstarted : t.seg.cycleStarted = s.seg.cycleStarted) (hhandler : t.handler = s.handler) :
    PermitInv t := by
  refine ⟨?_, ?_, ?_⟩
  · rw [hpermits, hhandler, expectedPermits, hstarted]
    exact h.balance
  · rw [hhandler, hstarted]
    exact h.starting
  · rw [hhandler, hstarted]
    exact h.stopping

theorem PermitInv.idle {s t : State} (h : PermitInv s) (hpermits : permits t = permits s)
    (hstarted : t.seg.cycleStarted = s.seg.cycleStarted)
    (hold : promisedPermits s.handler = 0 ∧ owedPermits s.handler = 0)
    (hnew : promisedPermits t.handler = 0 ∧ owedPermits t.handler = 0)
    (hwrite : ∀ k, t.handler ≠ .startWrite k ∧ t.handler ≠ .stopWrite k) : PermitInv t := by
  have hb := h.balance
  refine ⟨?_, fun k hk ↦ absurd hk (hwrite k).1, fun k hk ↦ absurd hk (hwrite k).2⟩
  rw [hold.1, hold.2] at hb
  rw [hpermits, hnew.1, hnew.2, expectedPermits, hstarted]
  exact hb

theorem step_cycleStarted {current : ℕ} {mustChange killed : Bool} {v v' : View} {effect : Effect}
    (h : SlotThread.step current mustChange killed v = some (v', effect)) :
    v'.seg.cycleStarted = v.seg.cycleStarted ∨
      (∃ k, v.pc = .resetMemset k) ∧ v'.seg.cycleStarted = false := by
  cases step_move h with
  | zeroed hpc => exact .inr ⟨⟨_, hpc⟩, rfl⟩
  | errorsHandled hpc hseg => exact .inl (SameControl.of_errors hseg).cycleStarted
  | received hpc => exact .inl (receiveParameters_sameControl v.seg).cycleStarted
  | _ => exact .inl rfl

theorem slotStep_inv {mustChange : Bool} {s t : State} (h : PermitInv s)
    (hok : permitsReturned s (.slot mustChange) = true)
    (hs : slotStep mustChange s = some t) : PermitInv t := by
  obtain ⟨v, effect, hstep, rfl⟩ := slotStep_eq_some hs
  refine h.keep ?_ ?_ ?_
  · simp [permits]
  · rw [State.effect_seg]
    rcases step_cycleStarted hstep with hsame | ⟨⟨k, hpc⟩, hfalse⟩
    · exact hsame
    · have hstopped : s.seg.cycleStarted = false := by
        simpa [permitsReturned, show s.slot = .resetMemset k from hpc] using hok
      exact hfalse.trans hstopped.symm
  · simp

theorem syncStep_inv {pid : Pid} {request : Request} {s t : State} (h : PermitInv s)
    (hs : syncStep pid request s = some t) : PermitInv t := by
  cases syncStep_move hs <;> exact h.keep rfl rfl rfl

theorem deliverStep_inv {pid : Pid} {s t : State} (h : PermitInv s)
    (hs : deliverStep pid s = some t) : PermitInv t := by
  obtain ⟨toMaster, wake, rfl⟩ := deliverStep_eq_some hs
  exact h.keep rfl rfl rfl

theorem served_inv {s : State} {self : SlaveContext} {seg : Shmseg} {pc : HandlerPc}
    (h : PermitInv s) (hserve : Serve s self seg pc) :
    PermitInv { s with self := self, seg := seg, handler := pc } := by
  have hb := h.balance
  cases hserve with
  | starting hpc hcycle =>
    rw [hpc] at hb
    exact ⟨hb, fun _ _ ↦ hcycle, by simp⟩
  | stopping hpc hcycle =>
    rw [hpc] at hb
    exact ⟨hb, by simp, fun _ _ ↦ hcycle⟩
  | startWritten hpc =>
    have hcycle := h.starting _ hpc
    refine ⟨?_, by simp, by simp⟩
    simp only [hpc, hcycle, permits, promisedPermits, owedPermits, expectedPermits] at hb ⊢
    simp only [Bool.false_eq_true, if_false, if_true] at hb ⊢
    omega
  | startPosted hpc =>
    refine ⟨?_, by simp, by simp⟩
    simp only [hpc, permits, promisedPermits, owedPermits] at hb ⊢
    omega
  | stopWritten hpc =>
    have hcycle := h.stopping _ hpc
    refine ⟨?_, by simp, by simp⟩
    simp only [hpc, hcycle, permits, promisedPermits, owedPermits, expectedPermits] at hb ⊢
    simp only [Bool.false_eq_true, if_false, if_true] at hb ⊢
    omega
  | stopped hpc hallow =>
    refine ⟨?_, by simp, by simp⟩
    simp only [hpc, permits, promisedPermits, owedPermits] at hb ⊢
    omega
  | connect hpc =>
    exact h.idle rfl rfl (by simp [hpc, promisedPermits, owedPermits])
      (by simp [promisedPermits, owedPermits]) (by simp)
  | disconnect hpc =>
    exact h.idle rfl rfl (by simp [hpc, promisedPermits, owedPermits])
      (by simp [promisedPermits, owedPermits]) (by simp)
  | changeName hpc =>
    refine h.idle ?_ (handleChangeName_sameControl s.self s.seg).cycleStarted
      (by simp [hpc, promisedPermits, owedPermits]) (by simp [promisedPermits, owedPermits])
      (by simp)
    simp [permits, handleChangeName_allow]
  | alreadyStarted hpc | alreadyStopped hpc | unrecognized hpc =>
    exact h.idle rfl (setError_sameControl _ s.seg).cycleStarted
      (by simp [hpc, promisedPermits, owedPermits]) (by simp [promisedPermits, owedPermits])
      (by simp)

theorem handlerStep_inv {pid : Pid} {s t : State} (h : PermitInv s)
    (hs : handlerStep pid s = some t) : PermitInv t := by
  cases handlerStep_move hs with
  | crashed => exact h.keep rfl rfl rfl
  | served hserve => exact served_inv h hserve
  | dispatched hpc hdispatch =>
    have hold : promisedPermits s.handler = 0 ∧ owedPermits s.handler = 0 := by
      simp [hpc, promisedPermits, owedPermits]
    cases hdispatch <;> exact h.idle rfl rfl hold (by simp [promisedPermits, owedPermits]) (by simp)
  | answered hpc =>
    refine h.idle rfl rfl (by simp [hpc, promisedPermits, owedPermits]) ?_ ?_
    · dsimp only
      split <;> simp [promisedPermits, owedPermits]
    · intro k
      dsimp only
      split <;> simp
  | received hpc | attached hpc | found hpc | unassigned hpc | responseDecoded hpc
  | responseExcluded hpc | requestDecoded hpc | nothingUnhandled hpc | responseRead hpc
  | responsePosted hpc | responded hpc | cleared hpc =>
    exact h.idle rfl rfl (by simp [hpc, promisedPermits, owedPermits])
      (by simp [promisedPermits, owedPermits]) (by simp)

/-- The cycle thread passes its permit on, unless its sleep fails. -/
theorem cycleStep_permits {usleep : Bool} {rand : ℕ} {now : Timeval} {s t : State}
    (hs : cycleStep usleep rand now s = some t) :
    permits t = permits s ∨
      s.cycle = .usleep ∧ 0 < s.sleepUs ∧ usleep = false ∧ permits t + 1 = permits s := by
  cases cycleStep_move hs with
  | crashed => exact .inl rfl
  | usleepFailed hpc hfailed =>
    exact .inr ⟨hpc, hfailed.1, hfailed.2, by simp [permits, hpc, heldPermits]⟩
  | permitTaken hpc hallow =>
    refine .inl ?_
    simp only [permits, hpc, heldPermits]
    omega
  | permitPosted hpc => exact .inl (by simp [permits, hpc, heldPermits])
  | calculated hpc => exact .inl (by simp [permits, hpc, heldPermits, calculate_allow])
  | cycleRead hpc | slept hpc | stored hpc | evaluated hpc | segmented hpc | requestTaken hpc
  | gaveUp hpc | waited hpc | stopFound hpc | permitFound hpc | withdrawn hpc
  | requestWritten hpc | signalled hpc => exact .inl (by simp [permits, hpc, heldPermits])

theorem cycleStep_inv {usleep : Bool} {rand : ℕ} {now : Timeval} {s t : State} (h : PermitInv s)
    (hok : permitsReturned s (.cycle usleep rand now) = true)
    (hs : cycleStep usleep rand now s = some t) : PermitInv t := by
  have hframe := cycleStep_frame hs
  rcases cycleStep_permits hs with hsame | ⟨hpc, hpos, hfailed, -⟩
  · exact h.keep hsame hframe.cycleStarted hframe.handler
  · simp [permitsReturned, hpc, hpos, hfailed] at hok

theorem step_inv {pid : Pid} {s t : State} {e : Event} (h : PermitInv s)
    (hok : permitsReturned s e = true) (hs : step pid s e = some t) : PermitInv t := by
  cases e with
  | configure requestedParameters communicationCycleUs =>
    exact Option.some.inj hs ▸ h.keep rfl rfl rfl
  | sync request => exact syncStep_inv h hs
  | slot mustChange => exact slotStep_inv h hok hs
  | deliver => exact deliverStep_inv h hs
  | handler =>
    obtain ⟨-, hs⟩ := Option.ite_none_right_eq_some.mp hs
    exact handlerStep_inv h hs
  | cycle usleep rand now =>
    obtain ⟨-, hs⟩ := Option.ite_none_right_eq_some.mp hs
    exact cycleStep_inv h hok hs

def permitUpdated : HandlerPc → Bool
  | .startPost _ | .stopWait _ => false
  | _ => true

/-- The permit exists while the cycle is started. A STOP that waits for it is not
left without it, and the cycle thread only runs with it. -/
structure PermitConserved (s : State) : Prop where
  conserved : permitUpdated s.handler = true → permits s = expectedPermits s.seg
  comes : ∀ k, s.handler = .stopWait k → 0 < permits s
  stopped : permitUpdated s.handler = true → s.seg.cycleStarted = false → heldPermits s.cycle = 0

theorem PermitInv.permitConserved {s : State} (h : PermitInv s) : PermitConserved s := by
  have hb := h.balance
  have hconserved (hupdated : permitUpdated s.handler = true) :
      permits s = expectedPermits s.seg := by
    cases hpc : s.handler <;> simp_all [permitUpdated, promisedPermits, owedPermits]
  refine ⟨hconserved, fun k hk ↦ ?_, fun hupdated hstopped ↦ ?_⟩
  · simp only [hk, promisedPermits, owedPermits] at hb
    omega
  · have hzero := hconserved hupdated
    simp only [permits, expectedPermits, hstopped, Bool.false_eq_true, if_false] at hzero
    omega

theorem permitConserved_of_returned {pid : Pid} {name : CString.Mem} {availableParameters : ℕ}
    {s : State} (h : Reaches (step pid) (fun s e ↦ permitsReturned s e = true)
      (initial name availableParameters) s) : PermitConserved s := by
  have hinv : PermitInv s := h.invariant ⟨rfl, by simp [initial], by simp [initial]⟩
    fun _ _ _ ↦ step_inv
  exact hinv.permitConserved

/-- A STOP arrives while the cycle thread sleeps with the permit. -/
def stopDuringSleep : List Event :=
  startRun ++ List.replicate 3 (Event.cycle true 0 ⟨0, 0⟩) ++
    List.replicate 5 (Event.sync .stopSlaveCycle) ++ List.replicate 7 Event.handler

theorem stopDuringSleep_conserved :
    ∃ s, heldPermits s.cycle = 1 ∧ s.seg.cycleStarted = false ∧ PermitConserved s := by
  have hrun : (run (guarded (step 1000) fun s e ↦ permitsReturned s e = true) (initial [97] 7)
      stopDuringSleep).map (fun s ↦ (heldPermits s.cycle, s.seg.cycleStarted)) =
      some (1, false) := by
    decide +kernel
  obtain ⟨s, hs, hview⟩ := Option.map_eq_some_iff.mp hrun
  simp only [Prod.mk.injEq] at hview
  exact ⟨s, hview.1, hview.2, permitConserved_of_returned (.of_run hs)⟩

/-- The first `usleep` fails, and the loop starts again without the permit. -/
def interruptedSleep : List Event :=
  startRun ++ List.replicate 2 (Event.cycle true 0 ⟨0, 0⟩) ++ [Event.cycle false 0 ⟨0, 0⟩]

theorem permit_lost :
    ¬ ∀ s, Reaches (step 1000) unrestricted (initial [97] 7) s → PermitConserved s := by
  intro hall
  have hrun : (run (step 1000) (initial [97] 7) interruptedSleep).map
      (fun s ↦ (permitUpdated s.handler, permits s, s.seg.cycleStarted)) =
      some (true, 0, true) := by
    decide +kernel
  obtain ⟨s, hs, hview⟩ := Option.map_eq_some_iff.mp hrun
  simp only [Prod.mk.injEq] at hview
  have hconserved := (hall s (.of_unrestricted_run hs)).conserved hview.1
  rw [hview.2.1, expectedPermits, hview.2.2] at hconserved
  cases hconserved

end RealTimeCyclic.SlotPermit
