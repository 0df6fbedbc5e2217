import RealTimeCyclic.ProcessRefinement
import RealTimeCyclic.SlotPermit

namespace RealTimeCyclic.ProcessSlots

open Shm Slave SlotThread Probing Function Transition Processes

section Slots

/-- The whole system is one system for each slot. Slots are held by the slaves whose homes
they are. -/
theorem slots_refined {pids : Idx → Pid} (hpids : Homes pids) {name : Idx → CString.Mem}
    {availableParameters : Idx → ℕ} {s : State}
    (h : Reaches (step pids) (fun s e ↦ apart pids s e = true)
      (initial name availableParameters) s) :
    HomeInv pids s.master ∧ ∀ i, ∃ u, Reaches (Slot.step (pids i)) unrestricted
      (Slot.initial (name i) (availableParameters i)) u ∧ SameSlot u (view s i) := by
  refine ⟨h.invariant (initial_home pids) fun _ _ _ ↦ home_step, reaches_slot hpids ?_ ?_⟩
  · exact fun _ _ _ ↦ trivial
  · exact h.mono fun s e hok i ↦ ⟨hok, fun _ _ _ _ ↦ trivial⟩

theorem slavePid_homes : Homes slavePid where
  positive i := by
    have hpos : (0 : Int) < maxSlaves + (i.val : Int) := by
      simp only [maxSlaves]
      omega
    exact hpos
  home := by decide

theorem twoSlaves_refined : ∃ s : State,
    (s.master.slots 4).seg.cycleStarted = true ∧ (s.master.slots 7).seg.isConnected = true ∧
      HomeInv slavePid s.master ∧ ∀ i, ∃ u, Reaches (Slot.step (slavePid i)) unrestricted
        (Slot.initial [97] 7) u ∧ SameSlot u (view s i) := by
  have hrun : (run (guarded (step slavePid) fun s e ↦ apart slavePid s e = true)
      (initial (fun _ ↦ [97]) fun _ ↦ 7) twoSlaves).map
      (fun s ↦ ((s.master.slots 4).seg.cycleStarted, (s.master.slots 7).seg.isConnected)) =
      some (true, true) := by
    decide +kernel
  obtain ⟨s, hs, hview⟩ := Option.map_eq_some_iff.mp hrun
  simp only [Prod.mk.injEq] at hview
  exact ⟨s, hview.1, hview.2, slots_refined slavePid_homes (.of_run hs)⟩

end Slots

section Permits

variable {pids : Idx → Pid} {s : State} {i : Idx} {u v : Slot.State}

/-- No `usleep` fails, and no slot is reset while its cycle is started. -/
def permitsReturned (s : State) (e : Event) : Bool :=
  match concerns s e with
  | some (i, e') => SlotPermit.permitsReturned (view s i) e'
  | none => true

theorem permitsReturned_unnumbered (u : Slot.State) (e : Slot.Event) :
    SlotPermit.permitsReturned { u with slot := unnumbered u.slot } e =
      SlotPermit.permitsReturned u e := by
  cases e with
  | slot mustChange =>
    unfold SlotPermit.permitsReturned
    cases u.slot <;> rfl
  | _ => rfl

theorem SameSlot.permitConserved (h : SameSlot u v) (hu : SlotPermit.PermitConserved u) :
    SlotPermit.PermitConserved v := by
  rw [h.rest] at hu
  exact ⟨hu.conserved, hu.comes, hu.stopped⟩

theorem admitted_of_returned {e : Event} (happart : apart pids s e = true)
    (hreturned : permitsReturned s e = true) (i : Idx) :
    Admitted pids i (fun u e' ↦ SlotPermit.permitsReturned u e' = true) s e := by
  apply admitted_of_kept permitsReturned_unnumbered happart
  intro k e' hconcerns
  simpa [permitsReturned, hconcerns] using hreturned

/-- However the commands to the slaves and their cycles overlap, every slave keeps its permit. -/
theorem permits_conserved (hpids : Homes pids) {name : Idx → CString.Mem}
    {availableParameters : Idx → ℕ}
    (h : Reaches (step pids) (fun s e ↦ (apart pids s e && permitsReturned s e) = true)
      (initial name availableParameters) s) (i : Idx) :
    SlotPermit.PermitConserved (view s i) := by
  have hadmitted := h.mono fun s e hok i ↦
    admitted_of_returned (Bool.and_eq_true_iff.mp hok).1 (Bool.and_eq_true_iff.mp hok).2 i
  obtain ⟨u, hu, hsame⟩ := reaches_slot hpids (fun _ _ _ ↦ rfl) hadmitted i
  have hinv : SlotPermit.PermitInv u :=
    hu.invariant ⟨rfl, by simp [Slot.initial], by simp [Slot.initial]⟩ fun _ _ _ ↦
      SlotPermit.step_inv
  exact hsame.permitConserved hinv.permitConserved

theorem twoSlaves_conserved : ∃ s : State, SlotPermit.heldPermits (view s 4).cycle = 1 ∧
    (s.master.slots 7).seg.isConnected = true ∧
      ∀ i, SlotPermit.PermitConserved (view s i) := by
  have hrun : (run (guarded (step slavePid)
      fun s e ↦ (apart slavePid s e && permitsReturned s e) = true)
      (initial (fun _ ↦ [97]) fun _ ↦ 7) twoSlaves).map
      (fun s ↦ (SlotPermit.heldPermits (view s 4).cycle, (s.master.slots 7).seg.isConnected)) =
      some (1, true) := by
    decide +kernel
  obtain ⟨s, hs, hview⟩ := Option.map_eq_some_iff.mp hrun
  simp only [Prod.mk.injEq] at hview
  exact ⟨s, hview.1, hview.2, permits_conserved slavePid_homes (.of_run hs)⟩

end Permits

section Isolation

variable {pids : Idx → Pid} {i : Idx} {slave : Processes.Slave} {s t : State} {e : Event}

def Elsewhere (pid : Pid) (i : Idx) : Master.ThreadPc → Prop
  | .lookup other | .scan other | .claim other _ => other ≠ pid
  | .serve _ k _ => k ≠ i
  | .readArgument | .returned => True

/-- The slave waits for its first signal. -/
structure Waiting (slave : Processes.Slave) : Prop where
  toMaster : slave.toMaster = []
  toSlave : slave.toSlave = []
  handler : slave.handler = .sigwaitinfo
  cycle : slave.cycle = .semWaitAllow
  allow : slave.self.allowCommunicationCycle = 0

/-- No part of the master has to do with slave `i`. -/
structure Untouched (pids : Idx → Pid) (i : Idx) (slave : Processes.Slave) (s : State) :
    Prop where
  affected : s.master.control.affectedSlavePid ≠ pids i
  cell : s.master.cell ≠ pids i
  sync : syncAt i s.master.sync = .sigwaitinfo
  threads : ∀ thread ∈ s.master.threads, Elsewhere (pids i) i thread.pc
  slave : s.slaves i = slave
  free : (s.master.slots i).seg.pid = noPid
  asleep : (s.master.slots i).wake = []

theorem Idle.untouched (hidle : Idle i s t) (h : Untouched pids i slave s)
    (haffected : t.master.control.affectedSlavePid ≠ pids i) (hcell : t.master.cell ≠ pids i)
    (hthreads : ∀ thread ∈ t.master.threads, Elsewhere (pids i) i thread.pc) :
    Untouched pids i slave t where
  affected := haffected
  cell := hcell
  sync := hidle.sync.trans h.sync
  threads := hthreads
  slave := (congrArg Processes.Slave.of hidle.alone).trans h.slave
  free := (congrArg (fun u : Slot.State ↦ u.seg.pid) hidle.alone).trans h.free
  asleep := (congrArg Slot.State.wake hidle.alone).trans h.asleep

theorem Waiting.handlerStep (h : Waiting (s.slaves i)) :
    Slot.handlerStep (pids i) (s.alone i) = none := by
  simp [Slot.handlerStep, State.alone, h.handler, h.toSlave]

theorem Waiting.cycleStep (h : Waiting (s.slaves i)) (usleep : Bool) (rand : ℕ) (now : Timeval) :
    Slot.cycleStep usleep rand now (s.alone i) = none := by
  simp [Slot.cycleStep, State.alone, h.cycle, h.allow]

theorem slave_untouched {k : Idx} {threadStep : Slot.State → Option Slot.State}
    (h : Untouched pids i slave s) (hblocked : k = i → threadStep (s.alone k) = none)
    (hs : slaveStep k threadStep s = some t) : Untouched pids i slave t := by
  obtain ⟨u, hu, ht⟩ := slaveStep_eq_some hs
  have hik : i ≠ k := by
    rintro rfl
    rw [hblocked rfl] at hu
    cases hu
  refine (slaveStep_idle hs hik).untouched h ?_ ?_ ?_ <;> rw [ht]
  · exact h.affected
  · exact h.cell
  · exact h.threads

theorem sync_untouched {created : Bool} (hpids : Homes pids) (hhome : HomeInv pids s.master)
    (h : Untouched pids i slave s) (hok : apart pids s (.sync created) = true)
    (hs : step pids s (.sync created) = some t) : Untouched pids i slave t := by
  have hm := (masterStep_eq_some hs).1
  have hat := h.sync
  have hother {k : Idx} (hpid : (s.master.slots k).seg.pid = pids k) : k ≠ i := by
    rintro rfl
    exact ne_noPid_of_pos (hpids.positive k) (hpid.symm.trans h.free)
  have hat' : syncAt i t.master.sync = .sigwaitinfo := by
    obtain ⟨master, slaves⟩ := t
    cases Master.syncStep_move hm with
    | startFound hpc hfound => exact if_neg (hother (found_pid hhome hpc hfound))
    | slaveFound hpc hrequest hfound => exact if_neg (hother (found_pid hhome hpc hfound))
    | @cycleSet c pid k hpc | @acquired c request pid k hpc | @written c request pid k hpc =>
      have hki : k ≠ i := by
        rintro rfl
        simp [hpc, syncAt] at hat
      exact if_neg hki
    | _ => rfl
  refine (sync_idle hpids hhome hok hs hat hat').untouched h ?_ ?_ ?_
  · rw [(Master.syncStep_frame hm).affected]
    exact h.affected
  · obtain ⟨master, slaves⟩ := t
    cases Master.syncStep_move hm with
    | threadCreated | threadFailed => exact h.affected
    | _ => exact h.cell
  · obtain ⟨master, slaves⟩ := t
    cases Master.syncStep_move hm with
    | threadCreated =>
      intro thread hthread
      rcases List.mem_append.mp hthread with hold | hnew
      · exact h.threads thread hold
      · rw [List.mem_singleton.mp hnew]
        trivial
    | _ => exact h.threads

theorem thread_untouched {n : ℕ} {mustChange : Bool} (hpids : Homes pids)
    (hhome : HomeInv pids s.master) (h : Untouched pids i slave s)
    (hs : step pids s (.thread n mustChange) = some t) : Untouched pids i slave t := by
  obtain ⟨hown, hm⟩ := Option.ite_none_right_eq_some.mp hs
  have hm := (masterStep_eq_some hm).1
  have hf := Master.threadStep_frame hm
  obtain ⟨thread, hn, hmove⟩ := Master.threadStep_move hm
  have helsewhere := h.threads thread (List.mem_of_getElem? hn)
  have hclaims {pid : Pid} {k : Idx} (hpc : thread.pc = .claim pid k) : k ≠ i := by
    rintro rfl
    simp only [claimsOwn, hn, hpc, decide_eq_true_eq] at hown
    rw [hpc] at helsewhere
    exact helsewhere hown
  have hidle : Idle i s t := by
    refine thread_idle hpids hhome hs hn (fun pid pc hpc ↦ ?_) fun pid hpc ↦ hclaims hpc rfl
    rw [hpc] at helsewhere
    exact helsewhere rfl
  have hmoved {thread' : Master.Thread}
      (hthreads : t.master.threads = s.master.threads.set n thread')
      (hpc : Elsewhere (pids i) i thread'.pc) : Untouched pids i slave t := by
    refine hidle.untouched h (hf.affected ▸ h.affected) (hf.cell ▸ h.cell) ?_
    rw [hthreads]
    intro other hmem
    rcases List.mem_or_eq_of_mem_set hmem with hold | rfl
    · exact h.threads other hold
    · exact hpc
  obtain ⟨master, slaves⟩ := t
  cases hmove with
  | argumentRead hpc => exact hmoved rfl h.cell
  | alreadyConnected hpc | outOfMemory hpc => exact hmoved rfl trivial
  | unassigned hpc | placed hpc =>
    rw [hpc] at helsewhere
    exact hmoved rfl helsewhere
  | claimed hpc => exact hmoved rfl (hclaims hpc)
  | served hpc hstep =>
    rw [hpc] at helsewhere
    exact hmoved (Master.answer_threads _ _) helsewhere

theorem deliver_untouched {k : Idx} (hpids : Homes pids) (hhome : HomeInv pids s.master)
    (h : Untouched pids i slave s) (hwaiting : Waiting slave)
    (hs : step pids s (.deliver k) = some t) : Untouched pids i slave t := by
  obtain ⟨signal, toMaster, hsignals, hm, -⟩ := deliver_eq_some hs
  have hf := Master.deliverStep_frame (pids k) signal s.master
  have hik : i ≠ k := by
    rintro rfl
    rw [h.slave, hwaiting.toMaster] at hsignals
    cases hsignals
  refine (deliver_idle hpids hhome hs hik).untouched h ?_ ?_ ?_ <;> rw [hm]
  · rw [hf.affected]
    exact h.affected
  · rw [hf.cell]
    exact h.cell
  · rw [Master.deliverStep_threads]
    exact h.threads

theorem step_untouched (hpids : Homes pids) (hhome : HomeInv pids s.master)
    (h : Untouched pids i slave s) (hwaiting : Waiting slave) (hok : apart pids s e = true)
    (hname : e ≠ .name i) (hs : step pids s e = some t) : Untouched pids i slave t := by
  have hslave : Waiting (s.slaves i) := h.slave ▸ hwaiting
  cases e with
  | sync created => exact sync_untouched hpids hhome h hok hs
  | thread n mustChange => exact thread_untouched hpids hhome h hs
  | deliver k => exact deliver_untouched hpids hhome h hwaiting hs
  | handler k =>
    obtain ⟨-, hs⟩ := Option.ite_none_right_eq_some.mp hs
    refine slave_untouched h ?_ hs
    rintro rfl
    exact hslave.handlerStep
  | cycle k usleep rand now =>
    obtain ⟨-, hs⟩ := Option.ite_none_right_eq_some.mp hs
    refine slave_untouched h ?_ hs
    rintro rfl
    exact hslave.cycleStep usleep rand now
  | configure k requestedParameters communicationCycleUs =>
    obtain ⟨hm, hslaves⟩ := masterStep_eq_some hs
    have hkept {α : Type} (f : Master.Slot → α) (hf : ∀ slot : Master.Slot, f { slot with
        seg.requestedParameters := requestedParameters
        seg.communicationCycleUs := communicationCycleUs } = f slot) :
        f (t.master.slots i) = f (s.master.slots i) := by
      rw [← Option.some.inj hm]
      exact Master.update_kept f (hf _) i
    refine ⟨?_, ?_, ?_, ?_, (congrFun hslaves i).trans h.slave,
      (hkept (fun slot ↦ slot.seg.pid) fun _ ↦ rfl).trans h.free,
      (hkept Master.Slot.wake fun _ ↦ rfl).trans h.asleep⟩ <;> rw [← Option.some.inj hm]
    · exact h.affected
    · exact h.cell
    · exact h.sync
    · exact h.threads
  | name k =>
    obtain ⟨hm, hslaves⟩ := masterStep_eq_some hs
    obtain ⟨-, hm⟩ := Option.ite_none_right_eq_some.mp hm
    have hm := (Option.some.inj hm).symm
    refine (Idle.of_control ⟨_, _, _, _, _, hm⟩ hslaves).untouched h ?_ ?_ ?_ <;> rw [hm]
    · exact fun hpid ↦ hname (congrArg _ (hpids.injective hpid))
    · exact h.cell
    · exact h.threads
  | _ =>
    obtain ⟨hm, hslaves⟩ := masterStep_eq_some hs
    obtain ⟨-, hm⟩ := Option.ite_none_right_eq_some.mp hm
    have hm := (Option.some.inj hm).symm
    refine (Idle.of_control ⟨_, _, _, _, _, hm⟩ hslaves).untouched h ?_ ?_ ?_ <;> rw [hm]
    · exact h.affected
    · exact h.cell
    · exact h.threads

theorem initial_untouched (hpids : Homes pids) (name : Idx → CString.Mem)
    (availableParameters : Idx → ℕ) (i : Idx) :
    Untouched pids i ((initial name availableParameters).slaves i)
      (initial name availableParameters) where
  affected := (hpids.positive i).ne
  cell := (hpids.positive i).ne
  sync := rfl
  threads := by
    rintro thread ⟨⟩
  slave := rfl
  free := rfl
  asleep := rfl

/-- A slave that the configurator has not named has not been signalled, and its slot is free,
whatever the master does for the other slaves. -/
theorem unnamed_untouched (hpids : Homes pids) {name : Idx → CString.Mem}
    {availableParameters : Idx → ℕ} (i : Idx)
    (h : Reaches (step pids) (fun s e ↦ apart pids s e = true ∧ e ≠ .name i)
      (initial name availableParameters) s) :
    s.slaves i = (initial name availableParameters).slaves i ∧
      (s.master.slots i).seg.pid = noPid ∧ (s.master.slots i).wake = [] := by
  have hinv := h.layered (initial_home pids) (initial_untouched hpids name availableParameters i)
    (fun _ _ _ hhome hok ↦ home_step hhome hok.1)
    (fun _ _ _ hhome huntouched hok ↦ step_untouched hpids hhome huntouched
      ⟨rfl, rfl, rfl, rfl, rfl⟩ hok.1 hok.2)
  exact ⟨hinv.2.slave, hinv.2.free, hinv.2.asleep⟩

theorem twoSlaves_untouched : ∃ s : State, (s.master.slots 4).seg.cycleStarted = true ∧
    (s.master.slots 7).seg.isConnected = true ∧
      s.slaves 9 = (initial (fun _ ↦ [97]) fun _ ↦ 7).slaves 9 ∧
        (s.master.slots 9).seg.pid = noPid ∧ (s.master.slots 9).wake = [] := by
  have hrun : (run (guarded (step slavePid) fun s e ↦ apart slavePid s e = true ∧ e ≠ .name 9)
      (initial (fun _ ↦ [97]) fun _ ↦ 7) twoSlaves).map
      (fun s ↦ ((s.master.slots 4).seg.cycleStarted, (s.master.slots 7).seg.isConnected)) =
      some (true, true) := by
    decide +kernel
  obtain ⟨s, hs, hview⟩ := Option.map_eq_some_iff.mp hrun
  simp only [Prod.mk.injEq] at hview
  exact ⟨s, hview.1, hview.2, unnamed_untouched slavePid_homes 9 (.of_run hs)⟩

def resetBeforeKill : List Event :=
  connectEvents 4 0 ++ startEvents 4 0 ++ List.replicate 45 (Event.cycle 4 true 0 ⟨0, 0⟩) ++
    [Event.deliver 4] ++ List.replicate 7 (Event.thread 0 false) ++
    List.replicate 5 (Event.handler 4) ++
    [Event.type .disconnectSlave, Event.name 4, Event.send] ++ List.replicate 5 (Event.sync true) ++
    [Event.deliver 4] ++ List.replicate 8 (Event.thread 0 false) ++ [Event.sync true]

theorem unnamed_signalled :
    ¬ ∀ s, Reaches (step slavePid) (fun _ e ↦ e ≠ .name 7)
      (initial (fun _ ↦ [97]) fun _ ↦ 7) s → (s.slaves 7).toSlave = [] := by
  intro hall
  have hrun : (run (guarded (step slavePid) fun _ e ↦ e ≠ .name 7)
      (initial (fun _ ↦ [97]) fun _ ↦ 7) resetBeforeKill).map
      (fun s ↦ (s.slaves 7).toSlave) = some [.command] := by
    decide +kernel
  obtain ⟨s, hs, hsignals⟩ := Option.map_eq_some_iff.mp hrun
  rw [hall s (.of_run hs)] at hsignals
  cases hsignals

end Isolation

end RealTimeCyclic.ProcessSlots
