import RealTimeCyclic.SlotPermit
import RealTimeCyclic.SlotPointer
import RealTimeCyclic.SlotTurns

namespace RealTimeCyclic.SlotStop

open Shm Slave SlotThread Slot Transition Progress SlotPermit SlotPointer SlotTurns

def untilPost : CyclePc → ℕ
  | .readCycle => 5
  | .usleep => 4
  | .store => 3
  | .calculate => 2
  | .postAllow => 1
  | _ => 0

theorem untilPost_pos {pc : CyclePc} : 0 < untilPost pc ↔ 0 < heldPermits pc := by
  cases pc <;> simp [untilPost, heldPermits]

def handlerWaits (s : State) (e : Event) : Bool := permitsReturned s e ∧ isHandler e = false

/-- `handle_stop_cycle_slave_request` gets its permit. As long as there is none the cycle
thread is not blocked, and in the course of five of its steps, whatever the others do,
the permit is there to be taken. -/
structure StopEnds (pid : Pid) (s : State) (k : ℕ) : Prop where
  moves : s.self.allowCommunicationCycle = 0 →
    ∀ usleep rand now, (step pid s (.cycle usleep rand now)).isSome
  returned : ∀ es t, run (guarded (step pid) fun s e ↦ handlerWaits s e = true) s es = some t →
    5 ≤ es.countP isCycle →
    Passes (guarded (step pid) fun s e ↦ handlerWaits s e = true) s es fun u ↦
      ∃ v, step pid u .handler = some v ∧ v.handler = .respond .stopSlaveCycle .ack k

/-- A slave that serves a request has its pointer. -/
structure AttachedInv (s : State) : Prop where
  pointer : handlerAttached s.handler = true → s.self.shmseg = true
  alive : handlerAttached s.handler = true → s.alive = true

section Attached

variable {pid : Pid} {s t : State}

theorem AttachedInv.keep (h : AttachedInv s) (hhandler : t.handler = s.handler)
    (hpointer : t.self.shmseg = s.self.shmseg)
    (halive : s.self.shmseg = true → t.alive = s.alive) : AttachedInv t := by
  refine ⟨fun ha ↦ ?_, fun ha ↦ ?_⟩
  all_goals rw [hhandler] at ha
  · exact hpointer.trans (h.pointer ha)
  · exact (halive (h.pointer ha)).trans (h.alive ha)

theorem handlerStep_attached (h : AttachedInv s) (halive : s.alive = true)
    (hs : handlerStep pid s = some t) : AttachedInv t := by
  cases handlerStep_move hs with
  | crashed hnull hpc =>
    obtain ⟨hwait, hclear, hfirst⟩ := hpc
    have hattached : handlerAttached s.handler = true := by
      cases hhandler : s.handler <;> simp_all [handlerAttached]
    rw [h.pointer hattached] at hnull
    cases hnull
  | attached hpc hptr => exact ⟨fun _ ↦ hptr, fun _ ↦ halive⟩
  | found hpc hptr hpid => exact ⟨fun _ ↦ rfl, fun _ ↦ halive⟩
  | served hserve =>
    have hattached : handlerAttached s.handler = true := by
      cases hserve <;> simp [*, handlerAttached]
    exact ⟨fun _ ↦ hserve.frame.pointer.trans (h.pointer hattached), fun _ ↦ halive⟩
  | dispatched hpc =>
    exact ⟨fun _ ↦ h.pointer (by rw [hpc]; rfl), fun _ ↦ halive⟩
  | responseDecoded hpc | responseExcluded hpc | requestDecoded hpc | responseRead hpc
  | responded hpc =>
    exact ⟨fun _ ↦ h.pointer (by rw [hpc]; rfl), fun _ ↦ halive⟩
  | answered hpc =>
    exact ⟨fun _ ↦ h.pointer (by rw [hpc]; rfl), fun _ ↦ halive⟩
  | received hpc | unassigned hpc | nothingUnhandled hpc | responsePosted hpc | cleared hpc =>
    exact ⟨by rintro ⟨⟩, fun _ ↦ halive⟩

theorem step_attached {e : Event} (h : AttachedInv s) (hs : step pid s e = some t) :
    AttachedInv t := by
  cases e with
  | configure requestedParameters communicationCycleUs =>
    exact Option.some.inj hs ▸ h.keep rfl rfl fun _ ↦ rfl
  | sync request => cases syncStep_move hs <;> exact h.keep rfl rfl fun _ ↦ rfl
  | slot mustChange =>
    obtain ⟨v, effect, -, rfl⟩ := slotStep_eq_some hs
    exact h.keep (by simp) (by simp) fun _ ↦ by simp
  | deliver =>
    obtain ⟨toMaster, wake, rfl⟩ := deliverStep_eq_some hs
    exact h.keep rfl rfl fun _ ↦ rfl
  | handler =>
    obtain ⟨halive, hs⟩ := Option.ite_none_right_eq_some.mp hs
    exact handlerStep_attached h halive hs
  | cycle usleep rand now =>
    obtain ⟨-, hs⟩ := Option.ite_none_right_eq_some.mp hs
    have hframe := cycleStep_frame hs
    exact h.keep hframe.handler hframe.pointer hframe.alive

end Attached

section Wait

variable {pid : Pid} {s t : State} {e : Event} {k : ℕ}

theorem cycleStep_untilPost {usleep : Bool} {rand : ℕ} {now : Timeval}
    (hheld : 0 < untilPost s.cycle) (hattached : s.self.shmseg = true)
    (hs : cycleStep usleep rand now s = some t) : untilPost t.cycle < untilPost s.cycle := by
  cases cycleStep_move hs with
  | crashed hnull =>
    rw [hattached] at hnull
    cases hnull
  | permitTaken hpc =>
    rw [hpc] at hheld
    cases hheld
  | cycleRead hpc | usleepFailed hpc | slept hpc | stored hpc | calculated hpc | permitPosted hpc =>
    simp [hpc, untilPost]
  | evaluated hpc | segmented hpc | requestTaken hpc | gaveUp hpc | waited hpc | stopFound hpc
  | permitFound hpc | withdrawn hpc | requestWritten hpc | signalled hpc =>
    rw [hpc] at hheld
    cases hheld

/-- STOP waits for the permit. -/
structure WaitInv (k : ℕ) (s : State) : Prop where
  waits : s.handler = .stopWait k
  attached : AttachedInv s
  permit : PermitInv s

theorem untilPermit_pos {pc : CyclePc} (h : 0 < untilPost pc) : 0 < untilPermit pc := by
  cases pc <;> simp_all [untilPost, untilPermit]

theorem WaitInv.held (h : WaitInv k s) (hnone : ¬ 0 < s.self.allowCommunicationCycle) :
    0 < untilPost s.cycle := by
  have hcomes := h.permit.permitConserved.comes k h.waits
  rw [untilPost_pos]
  unfold permits at hcomes
  omega

theorem WaitInv.step (h : WaitInv k s)
    (hs : guarded (step pid) (fun s e ↦ handlerWaits s e = true) s e = some t) : WaitInv k t := by
  obtain ⟨hok, hs⟩ := Option.ite_none_right_eq_some.mp hs
  obtain ⟨hreturned, hhandler⟩ := of_decide_eq_true hok
  exact ⟨(step_handler hhandler hs).trans h.waits, step_attached h.attached hs,
    step_inv h.permit hreturned hs⟩

theorem wait_ranked (pid : Pid) (k : ℕ) :
    Ranked (guarded (step pid) fun s e ↦ handlerWaits s e = true) (WaitInv k)
      (fun s ↦ 0 < s.self.allowCommunicationCycle) (fun s ↦ untilPost s.cycle) isCycle := by
  have hlowers (s : State) (e : Event) (t : State) (h : WaitInv k s)
      (hgoal : ¬ 0 < s.self.allowCommunicationCycle) (hcycle : isCycle e = true)
      (hs : guarded (step pid) (fun s e ↦ handlerWaits s e = true) s e = some t) :
      untilPost t.cycle < untilPost s.cycle := by
    obtain ⟨-, hs⟩ := Option.ite_none_right_eq_some.mp hs
    cases e with
    | cycle usleep rand now =>
      obtain ⟨-, hs⟩ := Option.ite_none_right_eq_some.mp hs
      exact cycleStep_untilPost (h.held hgoal)
        (h.attached.pointer (by rw [h.waits]; rfl)) hs
    | _ => cases hcycle
  refine ⟨fun s e t h _ ↦ h.step, fun s h ↦ h.held, fun s e t h hgoal hs ↦ ?_, hlowers⟩
  by_cases hcycle : isCycle e = true
  · exact (hlowers s e t h hgoal hcycle hs).le
  · obtain ⟨-, hs⟩ := Option.ite_none_right_eq_some.mp hs
    rw [step_cycle (by simpa using hcycle) hs]

theorem WaitInv.taken (h : WaitInv k s) (hallow : 0 < s.self.allowCommunicationCycle) :
    ∃ t, Slot.step pid s .handler = some t ∧ t.handler = .respond .stopSlaveCycle .ack k := by
  have halive := h.attached.alive (by rw [h.waits]; rfl)
  refine ⟨{ s with
    self.allowCommunicationCycle := s.self.allowCommunicationCycle - 1
    handler := .respond .stopSlaveCycle .ack k }, ?_, rfl⟩
  simp [Slot.step, halive, handlerStep, h.waits, hallow]

/-- A STOP that has been accepted ends: the permit comes back to it. -/
theorem stop_ends {name : CString.Mem} {availableParameters : ℕ}
    (h : Reaches (step pid) (fun s e ↦ permitsReturned s e = true)
      (initial name availableParameters) s) (hwaits : s.handler = .stopWait k) :
    StopEnds pid s k := by
  obtain ⟨hattached, hpermit⟩ : AttachedInv s ∧ PermitInv s :=
    h.layered ⟨by simp [initial, handlerAttached], by simp [initial, handlerAttached]⟩
      ⟨rfl, by simp [initial], by simp [initial]⟩ (fun _ _ _ hi _ ↦ step_attached hi)
      fun _ _ _ _ ↦ step_inv
  have hinv : WaitInv k s := ⟨hwaits, hattached, hpermit⟩
  refine ⟨fun hnone usleep rand now ↦ ?_, fun es t hrun hcount ↦ ?_⟩
  · rw [Slot.step, if_pos (hattached.alive (by rw [hwaits]; rfl))]
    exact cycleStep_isSome (untilPermit_pos (hinv.held (by omega))) usleep rand now
  · have hrank : untilPost s.cycle ≤ 5 := by
      cases s.cycle <;> simp [untilPost]
    exact ((wait_ranked pid k).passes hinv hrun (hrank.trans hcount)).imp fun u hu ↦ hu.1.taken hu.2

end Wait

/-- The cycle thread sleeps with the permit when the STOP comes. -/
theorem sleeping_stop_ends : ∃ s, heldPermits s.cycle = 1 ∧ StopEnds 1000 s 3 := by
  have hrun : (run (guarded (step 1000) fun s e ↦ permitsReturned s e = true) (initial [97] 7)
      stopDuringSleep).map (fun s ↦ (heldPermits s.cycle, s.handler)) =
      some (1, .stopWait 3) := by
    decide +kernel
  obtain ⟨s, hs, hview⟩ := Option.map_eq_some_iff.mp hrun
  simp only [Prod.mk.injEq] at hview
  exact ⟨s, hview.1, stop_ends (.of_run hs) hview.2⟩

section Late

/-- The parameter requests sent since a STOP has taken the permit, until a START posts it
again. -/
def note (s : State) : Event → Option ℕ → Option ℕ
  | .handler, sent =>
    match s.handler with
    | .stopWait _ => some 0
    | .startPost _ => none
    | _ => sent
  | .cycle _ _ _, sent =>
    match s.cycle with
    | .kill _ _ => sent.map (· + 1)
    | _ => sent
  | _, sent => sent

abbrev Run := Observed State (Option ℕ)

/-- At most one request is sent after a STOP, and after it the cycle thread waits for a
permit that only a START can give. -/
structure Stopped (o : Run) : Prop where
  permitless : ∀ n, o.notes = some n → permits o.state = 0
  late : ∀ n, o.notes = some n → n ≤ 1
  parked : o.notes = some 1 → o.state.cycle = .semWaitAllow

/-- A STOP that waits for the permit has cleared `cycle_started`. -/
structure LateInv (o : Run) : Prop where
  halted : ∀ k, o.state.handler = .stopWait k → o.state.seg.cycleStarted = false
  stopped : Stopped o

variable {pid : Pid} {s t : State} {sent : Option ℕ}

theorem Stopped.keep (h : Stopped ⟨s, sent⟩) (hpermits : permits t = permits s)
    (hcycle : t.cycle = s.cycle) : Stopped ⟨t, sent⟩ where
  permitless n hn := hpermits.trans (h.permitless n hn)
  late := h.late
  parked hn := hcycle.trans (h.parked hn)

theorem LateInv.keep (h : LateInv ⟨s, sent⟩) (hpermits : permits t = permits s)
    (hcycle : t.cycle = s.cycle) (hhandler : t.handler = s.handler)
    (hstarted : t.seg.cycleStarted = s.seg.cycleStarted ∨ t.seg.cycleStarted = false) :
    LateInv ⟨t, sent⟩ := by
  refine ⟨fun k hk ↦ ?_, h.stopped.keep hpermits hcycle⟩
  rcases hstarted with hsame | hfalse
  · exact hsame.trans (h.halted k (hhandler.symm.trans hk))
  · exact hfalse

theorem handlerStep_permits (hs : handlerStep pid s = some t)
    (hstart : ∀ k, s.handler ≠ .startPost k) (hstop : ∀ k, s.handler ≠ .stopWait k) :
    permits t = permits s ∧ t.cycle = s.cycle := by
  cases handlerStep_move hs with
  | served hserve =>
    cases hserve with
    | startPosted hpc => exact absurd hpc (hstart _)
    | stopped hpc => exact absurd hpc (hstop _)
    | changeName => exact ⟨by simp [permits, handleChangeName_allow], rfl⟩
    | _ => exact ⟨rfl, rfl⟩
  | _ => exact ⟨rfl, rfl⟩

theorem handlerStep_halted (h : ∀ k, s.handler = .stopWait k → s.seg.cycleStarted = false)
    (hs : handlerStep pid s = some t) {k : ℕ} (hk : t.handler = .stopWait k) :
    t.seg.cycleStarted = false := by
  cases handlerStep_move hs with
  | crashed => exact h k hk
  | served hserve =>
    cases hserve with
    | stopWritten => rfl
    | _ => cases hk
  | dispatched hpc hdispatch => cases hdispatch <;> cases hk
  | answered =>
    dsimp only at hk
    split at hk <;> cases hk
  | _ => cases hk

theorem handlerStep_late (h : LateInv ⟨s, sent⟩) (hpermit : PermitInv s)
    (hs : handlerStep pid s = some t) : LateInv ⟨t, note s .handler sent⟩ := by
  refine ⟨fun k ↦ handlerStep_halted h.halted hs, ?_⟩
  by_cases hstart : ∃ k, s.handler = .startPost k
  · obtain ⟨k, hk⟩ := hstart
    simp only [note, hk]
    exact ⟨by simp, by simp, by simp⟩
  by_cases hstop : ∃ k, s.handler = .stopWait k
  · obtain ⟨k, hk⟩ := hstop
    -- the only permit is taken away
    have hb := hpermit.balance
    have hhalted : s.seg.cycleStarted = false := h.halted k hk
    simp only [hk, promisedPermits, owedPermits, expectedPermits, hhalted, Bool.false_eq_true,
      if_false] at hb
    have hpermits : permits t = 0 := by
      simp only [handlerStep, hk] at hs
      split_ifs at hs with hallow
      obtain rfl := Option.some.inj hs
      unfold permits at hb ⊢
      dsimp only
      omega
    simp only [note, hk]
    exact ⟨fun _ _ ↦ hpermits, by simp, by simp⟩
  · obtain ⟨hpermits, hcycle⟩ := handlerStep_permits hs (not_exists.mp hstart) (not_exists.mp hstop)
    have hnote : note s .handler sent = sent := by
      cases hk : s.handler <;> simp_all [note]
    rw [hnote]
    exact h.stopped.keep hpermits hcycle

/-- Without a permit the cycle thread sends what it has begun to send and waits. -/
theorem cycleStep_late {usleep : Bool} {rand : ℕ} {now : Timeval} (h : LateInv ⟨s, sent⟩)
    (hs : cycleStep usleep rand now s = some t) :
    LateInv ⟨t, note s (.cycle usleep rand now) sent⟩ := by
  have hframe := cycleStep_frame hs
  refine ⟨fun k hk ↦ ?_, ?_⟩
  · exact hframe.cycleStarted.trans (h.halted k (hframe.handler.symm.trans hk))
  have hpermits (n : ℕ) (hn : sent = some n) : permits t = 0 := by
    have hzero : permits s = 0 := h.stopped.permitless n hn
    rcases cycleStep_permits hs with hsame | ⟨-, -, -, hlost⟩
    · exact hsame.trans hzero
    · omega
  by_cases hkill : ∃ cycleUs segmentUs, s.cycle = .kill cycleUs segmentUs
  · obtain ⟨cycleUs, segmentUs, hpc⟩ := hkill
    have hcycle : t.cycle = .semWaitAllow := by
      simp only [cycleStep, hpc] at hs
      rw [← Option.some.inj hs]
    simp only [note, hpc]
    cases hsent : sent with
    | none => exact ⟨by simp, by simp, by simp⟩
    | some n =>
      refine ⟨fun _ _ ↦ hpermits n hsent, fun m hm ↦ ?_, fun _ ↦ hcycle⟩
      obtain rfl : n + 1 = m := by simpa using hm
      -- a first request would have parked the thread
      have hfirst : n ≠ 1 := by
        rintro rfl
        have hparked := h.stopped.parked hsent
        simp [hpc] at hparked
      have hle := h.stopped.late n hsent
      omega
  · have hnote : note s (.cycle usleep rand now) sent = sent := by
      cases hpc : s.cycle <;> simp_all [note]
    rw [hnote]
    refine ⟨hpermits, h.stopped.late, fun hn ↦ ?_⟩
    have hparked : s.cycle = .semWaitAllow := h.stopped.parked hn
    have hzero : permits s = 0 := h.stopped.permitless 1 hn
    have hnone : ¬ 0 < s.self.allowCommunicationCycle := by
      unfold permits at hzero
      omega
    simp [cycleStep, hparked, hnone] at hs

theorem observe_late {o o' : Run} {e : Event} (h : LateInv o) (hpermit : PermitInv o.state)
    (hs : observe (step pid) note o e = some o') : LateInv o' := by
  obtain ⟨t, ht, rfl⟩ := observe_eq_some hs
  cases e with
  | configure requestedParameters communicationCycleUs =>
    exact Option.some.inj ht ▸ h.keep rfl rfl rfl (.inl rfl)
  | sync request => cases syncStep_move ht <;> exact h.keep rfl rfl rfl (.inl rfl)
  | slot mustChange =>
    obtain ⟨v, effect, hstep, rfl⟩ := slotStep_eq_some ht
    refine h.keep (by simp [permits]) (by simp) (by simp) ?_
    rw [State.effect_seg]
    rcases step_cycleStarted hstep with hsame | ⟨-, hfalse⟩
    · exact .inl hsame
    · exact .inr hfalse
  | deliver =>
    obtain ⟨toMaster, wake, rfl⟩ := deliverStep_eq_some ht
    exact h.keep rfl rfl rfl (.inl rfl)
  | handler =>
    obtain ⟨-, ht⟩ := Option.ite_none_right_eq_some.mp ht
    exact handlerStep_late h hpermit ht
  | cycle usleep rand now =>
    obtain ⟨-, ht⟩ := Option.ite_none_right_eq_some.mp ht
    exact cycleStep_late h ht

/-- A STOP is obeyed: no round begins after it, and at most one more request is sent. -/
theorem stopped_of_returned {name : CString.Mem} {availableParameters : ℕ} {o : Run}
    (h : Reaches (observe (step pid) note) (fun o e ↦ permitsReturned o.state e = true)
      ⟨initial name availableParameters, none⟩ o) : Stopped o := by
  have hpermit (o : Run) (e : Event) (o' : Run) (hi : PermitInv o.state)
      (hok : permitsReturned o.state e = true) (hs : observe (step pid) note o e = some o') :
      PermitInv o'.state := by
    obtain ⟨t, ht, rfl⟩ := observe_eq_some hs
    exact step_inv hi hok ht
  have hinitial : LateInv ⟨initial name availableParameters, none⟩ :=
    ⟨by simp [initial], by simp, by simp, by simp⟩
  have hinv : PermitInv o.state ∧ LateInv o :=
    h.layered ⟨rfl, by simp [initial], by simp [initial]⟩ hinitial hpermit
      fun _ _ _ hi hl _ ↦ observe_late hl hi
  exact hinv.2.stopped

/-- The cycle thread has made up its mind to send when the STOP takes the permit. -/
def lateRequest : List Event :=
  startRun ++ List.replicate 6 (Event.cycle true 0 ⟨0, 0⟩) ++
    List.replicate 5 (Event.sync .stopSlaveCycle) ++ List.replicate 7 Event.handler ++
    List.replicate 5 (Event.cycle true 0 ⟨0, 0⟩) ++ [Event.handler, Event.cycle true 0 ⟨0, 0⟩]

theorem lateRequest_stopped : ∃ o : Run, o.notes = some 1 ∧ Stopped o := by
  have hrun : (run (guarded (observe (step 1000) note) fun o e ↦ permitsReturned o.state e = true)
      ⟨initial [97] 7, none⟩ lateRequest).map (fun o ↦ o.notes) = some (some 1) := by
    decide +kernel
  obtain ⟨o, ho, hsent⟩ := Option.map_eq_some_iff.mp hrun
  exact ⟨o, hsent, stopped_of_returned (.of_run ho)⟩

end Late

end RealTimeCyclic.SlotStop
