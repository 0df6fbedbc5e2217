import RealTimeCyclic.Master

namespace RealTimeCyclic.Master

open Shm SlotThread Probing Function

/-- What the sync thread can do. -/
inductive SyncMove (created killed : Bool) (s : State) : State → Prop
  | received (hpc : s.sync = .sigwaitinfo) (hpending : s.pendingMaster = true) :
      SyncMove created killed s { s with pendingMaster := false, sync := .readRequest s.latest }
  | connectRead {c : Command} (hpc : s.sync = .readRequest c)
      (hrequest : s.control.request = .connectSlave) :
      SyncMove created killed s { s with sync := .create c }
  | requestRead {c : Command} (hpc : s.sync = .readRequest c)
      (hrequest : s.control.request ≠ .connectSlave) (hsendable : sendable s.control.request) :
      SyncMove created killed s { s with sync := .lookup c s.control.request }
  | ignored {c : Command} (hpc : s.sync = .readRequest c)
      (hsendable : sendable s.control.request = false) :
      SyncMove created killed s { s with sync := .sigwaitinfo }
  | threadCreated {c : Command} (hpc : s.sync = .create c) (hcreated : created = true) :
      SyncMove created killed s { s with
        cell := s.control.affectedSlavePid
        threads := s.threads ++ [⟨c, c.id, .readArgument⟩]
        sync := .sigwaitinfo }
  | threadFailed {c : Command} (hpc : s.sync = .create c) (hcreated : created = false) :
      SyncMove created killed s { s with cell := s.control.affectedSlavePid, sync := .nack c }
  | startFound {c : Command} {i : Idx} (hpc : s.sync = .lookup c .startSlaveCycle)
      (hfound : getAssignedShmsegIdx s.slots s.control.affectedSlavePid = some i) :
      SyncMove created killed s { s with sync := .checkCycle c s.control.affectedSlavePid i }
  | slaveFound {c : Command} {request : Request} {i : Idx} (hpc : s.sync = .lookup c request)
      (hrequest : request ≠ .startSlaveCycle)
      (hfound : getAssignedShmsegIdx s.slots s.control.affectedSlavePid = some i) :
      SyncMove created killed s { s with sync := .semWait c request s.control.affectedSlavePid i }
  | slaveUnknown {c : Command} {request : Request} (hpc : s.sync = .lookup c request)
      (hrequest : request ≠ .disconnectSlave)
      (hnone : getAssignedShmsegIdx s.slots s.control.affectedSlavePid = none) :
      SyncMove created killed s { s with sync := .nack c }
  | outOfTable {c : Command} (hpc : s.sync = .lookup c .disconnectSlave)
      (hnone : getAssignedShmsegIdx s.slots s.control.affectedSlavePid = none) :
      SyncMove created killed s { s with sync := .fault c }
  | cycleUnset {c : Command} {pid : Pid} {i : Idx} (hpc : s.sync = .checkCycle c pid i) :
      SyncMove created killed s { s with sync := .nack c }
  | cycleSet {c : Command} {pid : Pid} {i : Idx} (hpc : s.sync = .checkCycle c pid i) :
      SyncMove created killed s { s with sync := .semWait c .startSlaveCycle pid i }
  | acquired {c : Command} {request : Request} {pid : Pid} {i : Idx}
      (hpc : s.sync = .semWait c request pid i) (hpos : 0 < (s.slots i).seg.semMToSRequest) :
      SyncMove created killed s { s with
        slots := update s.slots i { s.slots i with
          seg.semMToSRequest := (s.slots i).seg.semMToSRequest - 1
          acquired := c.id }
        sync := .write c request pid i }
  | written {c : Command} {request : Request} {pid : Pid} {i : Idx}
      (hpc : s.sync = .write c request pid i) :
      SyncMove created killed s { s with
        slots := update s.slots i { s.slots i with seg.reqMToS := request, written := c.id }
        sync := .kill c request pid i }
  | sent {c : Command} {request : Request} {pid : Pid} {i : Idx}
      (hpc : s.sync = .kill c request pid i) (hkill : killed = true) :
      SyncMove created killed s { s with sync := .sigwaitinfo }
  | unsent {c : Command} {request : Request} {pid : Pid} {i : Idx}
      (hpc : s.sync = .kill c request pid i) (hkill : killed = false) :
      SyncMove created killed s { s with sync := .nack c }
  | refused {c : Command} (hpc : s.sync = .nack c) :
      SyncMove created killed s { s with
        control.response := .nack
        answerTo := c.id
        sync := .notify c }
  | notified {c : Command} (hpc : s.sync = .notify c) :
      SyncMove created killed s { s with pendingConfigurator := true, sync := .sigwaitinfo }

theorem syncStep_move {created killed : Bool} {s t : State}
    (hs : syncStep created killed s = some t) : SyncMove created killed s t := by
  simp only [syncStep] at hs
  cases hpc : s.sync with
  | sigwaitinfo =>
    simp only [hpc] at hs
    split_ifs at hs with hpending
    exact Option.some.inj hs ▸ .received hpc hpending
  | readRequest c =>
    simp only [hpc] at hs
    cases hrequest : s.control.request
    all_goals simp only [hrequest, Option.some.injEq] at hs
    case connectSlave => exact hs ▸ .connectRead hpc hrequest
    case disconnectSlave | startSlaveCycle | stopSlaveCycle =>
      rw [← hs, ← hrequest]
      exact .requestRead hpc (by simp [hrequest]) (by rw [hrequest]; rfl)
    all_goals exact hs ▸ .ignored hpc (by rw [hrequest]; rfl)
  | create c =>
    simp only [hpc] at hs
    split_ifs at hs with hcreated
    · exact Option.some.inj hs ▸ .threadCreated hpc hcreated
    · exact Option.some.inj hs ▸ .threadFailed hpc (by simpa using hcreated)
  | lookup c request =>
    simp only [hpc] at hs
    split at hs
    · rename_i i hfound
      split_ifs at hs with hstart
      · exact Option.some.inj hs ▸ .startFound (hstart ▸ hpc) hfound
      · exact Option.some.inj hs ▸ .slaveFound hpc hstart hfound
    · rename_i hnone
      split_ifs at hs with hdisconnect
      · exact Option.some.inj hs ▸ .outOfTable (hdisconnect ▸ hpc) hnone
      · exact Option.some.inj hs ▸ .slaveUnknown hpc hdisconnect hnone
  | checkCycle c pid i =>
    simp only [hpc] at hs
    split_ifs at hs
    · exact Option.some.inj hs ▸ .cycleUnset hpc
    · exact Option.some.inj hs ▸ .cycleSet hpc
  | semWait c request pid i =>
    simp only [hpc] at hs
    split_ifs at hs with hpos
    exact Option.some.inj hs ▸ .acquired hpc hpos
  | write c request pid i =>
    simp only [hpc] at hs
    exact Option.some.inj hs ▸ .written hpc
  | kill c request pid i =>
    simp only [hpc] at hs
    split_ifs at hs with hkill
    · exact Option.some.inj hs ▸ .sent hpc hkill
    · exact Option.some.inj hs ▸ .unsent hpc (by simpa using hkill)
  | nack c =>
    simp only [hpc] at hs
    exact Option.some.inj hs ▸ .refused hpc
  | notify c =>
    simp only [hpc] at hs
    exact Option.some.inj hs ▸ .notified hpc
  | fault c => simp [hpc] at hs

/-- What a thread can do. -/
inductive ThreadMove (j : ℕ) (mustChange killed : Bool) (s : State) (thread : Thread) :
    State → Prop
  | argumentRead (hpc : thread.pc = .readArgument) :
      ThreadMove j mustChange killed s thread (s.setPc j thread (.lookup s.cell))
  | alreadyConnected {pid : Pid} {i : Idx} (hpc : thread.pc = .lookup pid)
      (hfound : getAssignedShmsegIdx s.slots pid = some i) :
      ThreadMove j mustChange killed s thread (s.setPc j thread .returned)
  | unassigned {pid : Pid} (hpc : thread.pc = .lookup pid)
      (hnone : getAssignedShmsegIdx s.slots pid = none) :
      ThreadMove j mustChange killed s thread (s.setPc j thread (.scan pid))
  | placed {pid : Pid} {i : Idx} (hpc : thread.pc = .scan pid)
      (hfree : assignShmsegIdx s.slots pid = some i) :
      ThreadMove j mustChange killed s thread (s.setPc j thread (.claim pid i))
  | outOfMemory {pid : Pid} (hpc : thread.pc = .scan pid)
      (hnone : assignShmsegIdx s.slots pid = none) :
      ThreadMove j mustChange killed s thread (s.setPc j thread .returned)
  | claimed {pid : Pid} {i : Idx} (hpc : thread.pc = .claim pid i) :
      ThreadMove j mustChange killed s thread
        ((s.setSeg i { (s.slots i).seg with pid := pid }).setPc j thread
          (.serve pid i (.sendSemWait .connectSlave)))
  | served {pid : Pid} {i : Idx} {pc : Pc} {v : View} {effect : Effect}
      (hpc : thread.pc = .serve pid i pc)
      (hstep : SlotThread.step (s.slots i).written mustChange killed
        ⟨(s.slots i).seg, pc, (s.slots i).wake⟩ = some (v, effect)) :
      ThreadMove j mustChange killed s thread ({ s with
        slots := update s.slots i ((s.slots i).stepped thread.acting v effect)
        threads := s.threads.set j (thread.stepped (s.slots i) pid i v) }.answer effect)

theorem threadStep_move {j : ℕ} {mustChange killed : Bool} {s t : State}
    (hs : threadStep j mustChange killed s = some t) :
    ∃ thread, s.threads[j]? = some thread ∧ ThreadMove j mustChange killed s thread t := by
  unfold threadStep at hs
  split at hs
  · cases hs
  · rename_i thread ht
    refine ⟨thread, ht, ?_⟩
    cases hpc : thread.pc with
    | readArgument =>
      simp only [hpc] at hs
      exact Option.some.inj hs ▸ .argumentRead hpc
    | lookup pid =>
      simp only [hpc] at hs
      split at hs
      · exact Option.some.inj hs ▸ .alreadyConnected hpc ‹_›
      · exact Option.some.inj hs ▸ .unassigned hpc ‹_›
    | scan pid =>
      simp only [hpc] at hs
      split at hs
      · exact Option.some.inj hs ▸ .placed hpc ‹_›
      · exact Option.some.inj hs ▸ .outOfMemory hpc ‹_›
    | claim pid i =>
      simp only [hpc] at hs
      exact Option.some.inj hs ▸ .claimed hpc
    | serve pid i pc =>
      simp only [hpc] at hs
      obtain ⟨v, effect, hstep, rfl⟩ := serveStep_eq_some hs
      exact .served hpc hstep
    | returned => simp [hpc] at hs

/-- What a step of a slot's thread leaves alone. -/
structure ThreadFrame (s t : State) : Prop where
  request : t.control.request = s.control.request
  affected : t.control.affectedSlavePid = s.control.affectedSlavePid
  latest : t.latest = s.latest
  pendingMaster : t.pendingMaster = s.pendingMaster
  configurator : t.configurator = s.configurator
  sync : t.sync = s.sync
  cell : t.cell = s.cell

theorem threadStep_frame {j : ℕ} {mustChange killed : Bool} {s t : State}
    (hs : threadStep j mustChange killed s = some t) : ThreadFrame s t := by
  obtain ⟨thread, -, hmove⟩ := threadStep_move hs
  cases hmove with
  | served hpc hstep =>
    rename_i pid i pc v effect
    obtain ⟨response, k, notified, heq⟩ := State.answer_eq { s with
        slots := update s.slots i ((s.slots i).stepped thread.acting v effect)
        threads := s.threads.set j (thread.stepped (s.slots i) pid i v) } effect
    rw [heq]
    exact ⟨rfl, rfl, rfl, rfl, rfl, rfl, rfl⟩
  | _ => exact ⟨rfl, rfl, rfl, rfl, rfl, rfl, rfl⟩

theorem deliverStep_frame (pid : Pid) (signal : Signal) (s : State) :
    ThreadFrame s (deliverStep pid signal s) := by
  unfold deliverStep
  split <;> exact ⟨rfl, rfl, rfl, rfl, rfl, rfl, rfl⟩

theorem deliverStep_threads (pid : Pid) (signal : Signal) (s : State) :
    (deliverStep pid signal s).threads = s.threads := by
  unfold deliverStep
  split <;> rfl

theorem deliverStep_seg (pid : Pid) (signal : Signal) (s : State) (i : Idx) :
    ((deliverStep pid signal s).slots i).seg = (s.slots i).seg := by
  unfold deliverStep
  split
  · exact update_kept Slot.seg (by rfl) i
  · rfl

theorem deliverStep_written (pid : Pid) (signal : Signal) (s : State) (i : Idx) :
    ((deliverStep pid signal s).slots i).written = (s.slots i).written := by
  unfold deliverStep
  split
  · exact update_kept Slot.written (by rfl) i
  · rfl

/-- Commands name processes. -/
structure PidsPositive (s : State) : Prop where
  named : s.configurator = .named → 0 < s.control.affectedSlavePid
  latest : s.pendingMaster = true → 0 < s.latest.pid
  sync : ∀ c, s.sync.command = some c → 0 < c.pid

theorem PidsPositive.of_frame {s t : State} (h : PidsPositive s) (hf : ThreadFrame s t) :
    PidsPositive t := by
  refine ⟨?_, ?_, ?_⟩
  · rw [hf.configurator, hf.affected]
    exact h.named
  · rw [hf.pendingMaster, hf.latest]
    exact h.latest
  · rw [hf.sync]
    exact h.sync

/-- The sync thread serves the command it received the signal of until it
waits for the next signal, and does not touch what the configurator wrote. -/
structure SyncFrame (s t : State) : Prop where
  request : t.control.request = s.control.request
  affected : t.control.affectedSlavePid = s.control.affectedSlavePid
  latest : t.latest = s.latest
  configurator : t.configurator = s.configurator
  pendingMaster : t.pendingMaster = true → s.pendingMaster = true
  command : ∀ c, t.sync.command = some c →
    s.sync.command = some c ∨ (s.pendingMaster = true ∧ c = s.latest)

theorem syncStep_frame {created killed : Bool} {s t : State}
    (hs : syncStep created killed s = some t) : SyncFrame s t := by
  cases syncStep_move hs with
  | received hpc hpending =>
    refine ⟨rfl, rfl, rfl, rfl, by simp, fun c hc ↦ .inr ⟨hpending, ?_⟩⟩
    exact (Option.some.inj hc).symm
  | _ => exact ⟨rfl, rfl, rfl, rfl, id, by simp_all [SyncPc.command]⟩

theorem step_pidsPositive {s t : State} {e : Event} (h : PidsPositive s)
    (hs : step s e = some t) : PidsPositive t := by
  cases e with
  | sync created killed =>
    have hf := syncStep_frame hs
    refine ⟨?_, ?_, fun c hc ↦ ?_⟩
    · rw [hf.affected, hf.configurator]
      exact h.named
    · rw [hf.latest]
      exact fun hp ↦ h.latest (hf.pendingMaster hp)
    · rcases hf.command c hc with hold | ⟨hp, rfl⟩
      · exact h.sync c hold
      · exact h.latest hp
  | thread j mustChange killed => exact h.of_frame (threadStep_frame hs)
  | deliver pid signal => exact h.of_frame (Option.some.inj hs ▸ deliverStep_frame pid signal s)
  | slave i w | configure i requestedParameters communicationCycleUs =>
    rw [← Option.some.inj hs]
    exact ⟨h.named, h.latest, h.sync⟩
  | name pid =>
    obtain ⟨⟨-, -, hpos⟩, hs⟩ := Option.ite_none_right_eq_some.mp hs
    rw [← Option.some.inj hs]
    exact ⟨fun _ ↦ hpos, h.latest, h.sync⟩
  | send =>
    obtain ⟨hnamed, hs⟩ := Option.ite_none_right_eq_some.mp hs
    rw [← Option.some.inj hs]
    exact ⟨by simp, fun _ ↦ h.named hnamed, h.sync⟩
  | _ =>
    obtain ⟨-, hs⟩ := Option.ite_none_right_eq_some.mp hs
    rw [← Option.some.inj hs]
    exact ⟨by simp, h.latest, h.sync⟩

theorem initial_pidsPositive : PidsPositive initial :=
  ⟨by simp [initial], by simp [initial], by simp [initial, SyncPc.command]⟩

end RealTimeCyclic.Master
