import RealTimeCyclic.SlotCommand

namespace RealTimeCyclic.SlotPointer

open Shm Slave SlotThread Slot Transition SlotCommand

def handlerAttached : HandlerPc → Bool
  | .sigwaitinfo | .firstSignalEverSetup _ | .clearPointer => false
  | _ => true

def handlerDerefs : HandlerPc → Bool
  | .sigwaitinfo | .firstSignalEverSetup _ | .disconnect _ | .startPost _ | .stopWait _
  | .kill _ _ _ | .clearPointer => false
  | _ => true

def cycleDerefs : CyclePc → Bool
  | .semWaitAllow | .postAllow | .getvalueAllow _ _ | .kill _ _ => false
  | _ => true

/-- The slave uses only a segment that is its own. -/
structure OwnsSegment (pid : Pid) (s : State) : Prop where
  alive : s.alive = true
  handler : handlerDerefs s.handler = true → s.self.shmseg = true ∧ s.seg.pid = pid
  cycle : cycleDerefs s.cycle = true → s.self.shmseg = true ∧ s.seg.pid = pid
  kept : s.self.shmseg = true → s.handler ≠ .clearPointer → s.seg.pid = pid

structure PointerInv (pid : Pid) (s : State) : Prop where
  alive : s.alive = true
  attached : handlerAttached s.handler = true → s.self.shmseg = true
  owned : ¬ Gone s → s.seg.pid = pid
  parked : Gone s → Parked s
  cleared : s.slot.cleared = true → s.seg.pid ≠ pid

theorem PointerInv.ownsSegment {pid : Pid} {s : State} (h : PointerInv pid s) :
    OwnsSegment pid s := by
  have howned (hptr : s.self.shmseg = true) (hne : s.handler ≠ .clearPointer) :
      s.seg.pid = pid := by
    refine h.owned fun hg ↦ ?_
    rcases hg with hclear | hnull
    · exact hne hclear
    · simp [hptr] at hnull
  refine ⟨h.alive, fun hd ↦ ?_, fun hd ↦ ?_, howned⟩
  · have hptr : s.self.shmseg = true := by
      refine h.attached ?_
      cases hpc : s.handler <;> simp_all [handlerDerefs, handlerAttached]
    refine ⟨hptr, howned hptr fun hclear ↦ ?_⟩
    simp [hclear, handlerDerefs] at hd
  · have hgone : ¬ Gone s := by
      intro hg
      simp [(h.parked hg).1, cycleDerefs] at hd
    refine ⟨?_, h.owned hgone⟩
    by_contra hnull
    exact hgone (.inr (by simpa using hnull))

theorem slotStep_inv {pid : Pid} {s t : State} {mustChange : Bool} (hpid : 0 < pid)
    (hc : CommandInv True True s) (h : PointerInv pid s) (hs : slotStep mustChange s = some t) :
    PointerInv pid t := by
  obtain ⟨v, effect, hstep, rfl⟩ := slotStep_eq_some hs
  have hgone : Gone ({ s with seg := v.seg, slot := v.pc, wake := v.wake }.effect effect) ↔
      Gone s := by
    simp [Gone]
  have hparked : Parked ({ s with seg := v.seg, slot := v.pc, wake := v.wake }.effect effect) ↔
      Parked s := by
    simp [Parked]
  refine ⟨by simpa using h.alive, by simpa using h.attached, ?_, ?_, ?_⟩
  · rw [hgone, State.effect_seg]
    intro hg
    rcases SlotThread.step_pid hstep with ⟨heq, -⟩ | ⟨k, hpc, -⟩ | ⟨k, hpc, -⟩
    · exact heq.trans (h.owned hg)
    · have hslot := hc.slot
      replace hpc : s.slot = .resetMemset k := hpc
      simp only [hpc, SlotOk, exchange] at hslot
      exact absurd (hslot.2.1 trivial) hg
    · replace hpc : s.slot = .resetInit k := hpc
      exact absurd (h.owned hg) (h.cleared (by rw [hpc]; rfl))
  · rw [hgone, hparked]
    exact h.parked
  · rw [State.effect_seg, State.effect_slot]
    intro hcleared
    rcases SlotThread.step_pid hstep with ⟨heq, hmono⟩ | ⟨k, hpc, heq⟩ | ⟨k, hpc, heq⟩
    · exact heq ▸ h.cleared (hmono hcleared)
    · exact heq ▸ hpid.ne
    · exact heq ▸ (lt_trans (by decide) hpid).ne

theorem syncStep_inv {pid : Pid} {request : Request} {s t : State} (h : PointerInv pid s)
    (hs : syncStep pid request s = some t) : PointerInv pid t := by
  cases syncStep_move hs with
  | claimed => exact ⟨h.alive, h.attached, fun _ ↦ rfl, h.parked, by simp [Pc.cleared]⟩
  | _ => exact ⟨h.alive, h.attached, h.owned, h.parked, h.cleared⟩

theorem deliverStep_inv {pid : Pid} {s t : State} (h : PointerInv pid s)
    (hs : deliverStep pid s = some t) : PointerInv pid t := by
  simp only [deliverStep] at hs
  split at hs
  · cases hs
  · split_ifs at hs
    all_goals
      rw [← Option.some.inj hs]
      exact ⟨h.alive, h.attached, h.owned, h.parked, h.cleared⟩

theorem cycleStep_inv {pid : Pid} {usleep : Bool} {rand : ℕ} {now : Timeval} {s t : State}
    (h : PointerInv pid s) (hs : cycleStep usleep rand now s = some t) : PointerInv pid t := by
  have hframe := cycleStep_frame hs
  have hgone : ¬ Gone s := fun hg ↦ cycleStep_parked (h.parked hg) hs
  have hptr : s.self.shmseg = true := by
    by_contra hnull
    exact hgone (.inr (by simpa using hnull))
  have hgone' : ¬ Gone t := by
    unfold Gone
    rwa [hframe.handler, hframe.pointer]
  refine ⟨(hframe.alive hptr).trans h.alive, fun _ ↦ hframe.pointer.trans hptr,
    fun _ ↦ hframe.pid.trans (h.owned hgone), fun hg ↦ absurd hg hgone', ?_⟩
  rw [hframe.slot, hframe.pid]
  exact h.cleared

theorem PointerInv.handler_move {pid : Pid} {s : State} (h : PointerInv pid s)
    (hattached : handlerAttached s.handler = true) (seg : Shmseg) (self : SlaveContext)
    (history : History) (pc : HandlerPc) (hne : pc ≠ .clearPointer)
    (hpointer : self.shmseg = s.self.shmseg) (hpid : seg.pid = s.seg.pid) :
    PointerInv pid { s with seg := seg, self := self, history := history, handler := pc } := by
  have hptr := h.attached hattached
  have hgone : ¬ Gone s := by
    rintro (hclear | hnull)
    · simp [hclear, handlerAttached] at hattached
    · simp [hptr] at hnull
  refine ⟨h.alive, fun _ ↦ hpointer.trans hptr, fun _ ↦ hpid.trans (h.owned hgone),
    fun hg ↦ ?_, fun hc ↦ hpid ▸ h.cleared hc⟩
  rcases hg with hclear | hnull
  · exact absurd hclear hne
  · exact absurd (hnull.symm.trans (hpointer.trans hptr)) Bool.false_ne_true

theorem handlerStep_inv {pid : Pid} {s t : State} (hc : CommandInv True True s)
    (h : PointerInv pid s) (hs : handlerStep pid s = some t) : PointerInv pid t := by
  have hh := hc.handler
  cases handlerStep_move hs with
  | crashed hnull hpc =>
    have hptr : s.self.shmseg = true := by
      refine h.attached ?_
      cases hhandler : s.handler <;> simp_all [handlerAttached]
    exact absurd (hnull.symm.trans hptr) Bool.false_ne_true
  | received hpc =>
    refine ⟨h.alive, by simp [handlerAttached], fun hg ↦ h.owned fun hg' ↦ hg (.inr ?_),
      fun hg ↦ h.parked (.inr ?_), h.cleared⟩
    · exact hg'.resolve_left (by simp [hpc])
    · exact hg.resolve_left (by simp)
  | attached hpc hptr =>
    refine ⟨h.alive, fun _ ↦ hptr, fun _ ↦ h.owned ?_, fun hg ↦ ?_, h.cleared⟩
    · simp [Gone, hpc, hptr]
    · simp [Gone, hptr] at hg
  | found hpc hptr hpid =>
    exact ⟨h.alive, fun _ ↦ rfl, fun _ ↦ hpid, fun hg ↦ by simp [Gone] at hg, h.cleared⟩
  | unassigned hpc hnull =>
    exact ⟨h.alive, by simp [handlerAttached], fun hg ↦ absurd (.inr hnull) hg,
      fun _ ↦ h.parked (.inr hnull), h.cleared⟩
  | answered hpc =>
    rename_i request response k
    simp only [hpc, HandlerOk] at hh
    have hptr := h.attached (by simp [hpc, handlerAttached])
    refine ⟨h.alive, fun _ ↦ hptr, fun _ ↦ h.owned ?_, fun hg ↦ ?_, h.cleared⟩
    · simp [Gone, hpc, hptr]
    · have hdisc : request = .disconnectSlave := by
        rcases hg with hclear | hnull
        · by_contra hdisc
          simp [hdisc] at hclear
        · simp [hptr] at hnull
      exact hh.1.2.2 (hh.2.symm.trans hdisc) trivial
  | cleared hpc =>
    have hgone : Gone s := .inl hpc
    exact ⟨h.alive, by simp [handlerAttached], fun hg ↦ absurd (.inr rfl) hg,
      fun _ ↦ h.parked hgone, h.cleared⟩
  | dispatched hpc hdispatch =>
    refine h.handler_move (by rw [hpc]; rfl) _ _ _ _ ?_ rfl rfl
    cases hdispatch <;> simp
  | served hserve =>
    refine h.handler_move ?_ _ _ _ _ ?_ hserve.frame.pointer hserve.frame.pid
    · cases hserve <;> simp_all [handlerAttached]
    · cases hserve <;> simp
  | _ hpc => exact h.handler_move (by rw [hpc]; rfl) _ _ _ _ (by simp) rfl rfl

theorem initial_inv {pid : Pid} (name : CString.Mem) (availableParameters : ℕ) :
    PointerInv pid (initial name availableParameters) := by
  refine ⟨rfl, ?_, ?_, fun _ ↦ ⟨rfl, rfl⟩, ?_⟩
  · simp [initial, handlerAttached]
  · simp [initial, Gone, SlaveContext.initial]
  · simp [initial, Pc.cleared]

theorem step_inv {pid : Pid} {s t : State} {e : Event} (hpid : 0 < pid)
    (hc : CommandInv True True s) (h : PointerInv pid s) (hs : step pid s e = some t) :
    PointerInv pid t := by
  cases e with
  | configure requestedParameters communicationCycleUs =>
    rw [← Option.some.inj hs]
    exact ⟨h.alive, h.attached, h.owned, h.parked, h.cleared⟩
  | sync request => exact syncStep_inv h hs
  | slot mustChange => exact slotStep_inv hpid hc h hs
  | deliver => exact deliverStep_inv h hs
  | handler =>
    obtain ⟨-, hs⟩ := Option.ite_none_right_eq_some.mp hs
    exact handlerStep_inv hc h hs
  | cycle usleep rand now =>
    obtain ⟨-, hs⟩ := Option.ite_none_right_eq_some.mp hs
    exact cycleStep_inv h hs

/-- Commands are told apart from other signals, a DISCONNECT is taken up only
while the communication cycle is parked, and a slave without a segment looks for
one only on a command. -/
def admitted (pid : Pid) (s : State) (e : Event) : Bool :=
  commandsDecoded s e && disconnectsParked s e && segmentsFoundByCommands pid s e

theorem ownsSegment_of_admitted {pid : Pid} {name : CString.Mem} {availableParameters : ℕ}
    {s : State} (hpid : 0 < pid) (h : Reaches (step pid) (fun s e ↦ admitted pid s e = true)
      (initial name availableParameters) s) : OwnsSegment pid s := by
  have hadmitted : ∀ s e, admitted pid s e = true → Admitted True True pid s e := by
    intro s e hok
    simp only [admitted, Bool.and_eq_true] at hok
    exact ⟨hok.1.1, fun _ ↦ hok.1.2, fun _ ↦ hok.2⟩
  have hinv : CommandInv True True s ∧ PointerInv pid s :=
    h.layered (SlotCommand.initial_inv _ _) (initial_inv _ _)
      (fun s e _ hc hok hs ↦ SlotCommand.step_inv hc (hadmitted s e hok) hs)
      (fun _ _ _ hc hp _ hs ↦ step_inv hpid hc hp hs)
  exact hinv.2.ownsSegment

def reconnectRun : List Event :=
  startRun ++ List.replicate 5 (Event.sync .stopSlaveCycle) ++ List.replicate 10 Event.handler ++
    [Event.deliver] ++ List.replicate 10 (Event.slot false) ++
    List.replicate 5 (Event.sync .disconnectSlave) ++ List.replicate 8 Event.handler ++
    [Event.deliver] ++ List.replicate 15 (Event.slot false) ++
    List.replicate 2 (Event.sync .connectSlave) ++ List.replicate 3 (Event.slot false) ++
    List.replicate 4 Event.handler

theorem reconnected_ownsSegment :
    ∃ s, s.handler = .getvalueMToS .command ∧ s.self.shmseg = true ∧ OwnsSegment 1000 s := by
  have hrun : (run (guarded (step 1000) fun s e ↦ admitted 1000 s e = true) (initial [97] 7)
      reconnectRun).map (fun s ↦ (s.handler, s.self.shmseg)) =
      some (.getvalueMToS .command, true) := by decide +kernel
  obtain ⟨s, hs, hview⟩ := Option.map_eq_some_iff.mp hrun
  simp only [Prod.mk.injEq] at hview
  exact ⟨s, hview.1, hview.2, ownsSegment_of_admitted (by decide) (.of_run hs)⟩

/-- STOP and DISCONNECT are served while the cycle thread has just released
`allow_communication_cycle`. -/
def lateCycle : List Event :=
  startRun ++ List.replicate 6 (Event.cycle true 0 ⟨0, 0⟩) ++
    List.replicate 5 (Event.sync .stopSlaveCycle) ++ List.replicate 10 Event.handler ++
    [Event.deliver] ++ List.replicate 10 (Event.slot false) ++
    List.replicate 5 (Event.sync .disconnectSlave) ++ List.replicate 9 Event.handler ++
    [Event.cycle true 0 ⟨0, 0⟩]

theorem cycle_crashes_after_disconnect :
    ¬ ∀ s, Reaches (step 1000) unrestricted (initial [97] 7) s → OwnsSegment 1000 s := by
  intro hall
  have hrun : (run (step 1000) (initial [97] 7) lateCycle).map
      (fun s ↦ (s.alive, s.cycle, s.self.shmseg)) = some (false, .evaluate, false) := by
    decide +kernel
  obtain ⟨s, hs, hview⟩ := Option.map_eq_some_iff.mp hrun
  simp only [Prod.mk.injEq] at hview
  have halive := (hall s (.of_unrestricted_run hs)).alive
  simp [hview.1] at halive

end RealTimeCyclic.SlotPointer
