import RealTimeCyclic.Library.Simulation
import RealTimeCyclic.MasterMove
import RealTimeCyclic.SlotMove

namespace RealTimeCyclic.Processes

open Shm Slave SlotThread Probing Function Transition
open Slot (HandlerPc CyclePc History)
open Master (SyncPc SlaveFields)

/-- A slave process, and the signals on their way to it and to the master. -/
structure Slave where
  self : SlaveContext
  alive : Bool
  toMaster : List Signal
  toSlave : List Signal
  handler : HandlerPc
  cycle : CyclePc
  sleepUs : Int
  history : History

/-- The configurator, the master with all its slots, and the slaves. -/
structure State where
  master : Master.State
  slaves : Idx → Slave

def initial (name : Idx → CString.Mem) (availableParameters : Idx → ℕ) : State where
  master := Master.initial
  slaves i := {
    self := .initial (name i) (availableParameters i)
    alive := true
    toMaster := []
    toSlave := []
    handler := .sigwaitinfo
    cycle := .semWaitAllow
    sleepUs := errorNotSetCommunicationCycleMs
    history := {} }

inductive Event
  -- the configurator, which names the slaves that there are
  | type (request : Request)
  | name (i : Idx)
  | abandon
  | send
  | timeout
  | take
  | report
  | configure (i : Idx) (requestedParameters : ℕ) (communicationCycleUs : Int)
  -- the master
  | sync (created : Bool)
  | thread (j : ℕ) (mustChange : Bool)
  | deliver (i : Idx)
  -- the slaves
  | handler (i : Idx)
  | cycle (i : Idx) (usleep : Bool) (rand : ℕ) (now : Timeval)
  deriving DecidableEq

def State.alone (s : State) (i : Idx) : Slot.State where
  seg := (s.master.slots i).seg
  self := (s.slaves i).self
  alive := (s.slaves i).alive
  sync := .sigwaitinfo
  slot := .exited
  wake := (s.master.slots i).wake
  toMaster := (s.slaves i).toMaster
  toSlave := (s.slaves i).toSlave
  handler := (s.slaves i).handler
  cycle := (s.slaves i).cycle
  sleepUs := (s.slaves i).sleepUs
  history := (s.slaves i).history

def Slave.of (t : Slot.State) : Slave where
  self := t.self
  alive := t.alive
  toMaster := t.toMaster
  toSlave := t.toSlave
  handler := t.handler
  cycle := t.cycle
  sleepUs := t.sleepUs
  history := t.history

def State.setSlave (s : State) (i : Idx) (slave : Slave) : State :=
  { s with slaves := update s.slaves i slave }

section Step

variable (pids : Idx → Pid)

/-- `kill`. A pid that is not positive addresses all slaves. -/
def State.kill (pid : Pid) (signal : Signal) (s : State) : State :=
  { s with slaves := fun i ↦
      if pid = pids i ∨ pid ≤ 0 then
        { s.slaves i with toSlave := (s.slaves i).toSlave ++ [signal] }
      else s.slaves i }

/-- What the slaves notice of a step of the sync thread. DISCONNECT_SLAVE is sent to the pid
found in the slot, the other commands to the one that was looked up. -/
def syncEffect (s : State) : State :=
  match s.master.sync with
  | .semWait _ _ _ i =>
    s.setSlave i { s.slaves i with history.acquired := (s.slaves i).history.acquired + 1 }
  | .write _ _ _ i =>
    s.setSlave i { s.slaves i with history.written := (s.slaves i).history.acquired }
  | .kill _ request pid i =>
    s.kill pids (if request = .disconnectSlave then (s.master.slots i).seg.pid else pid) .command
  | _ => s

def slotEffect (i : Idx) (s : State) : Effect → State
  | .signalled signal => s.kill pids (s.master.slots i).seg.pid signal
  | effect => s.setSlave i (.of ((s.alone i).effect effect))

/-- What they notice of a step of the slot threads. -/
def threadEffect (j : ℕ) (mustChange : Bool) (s : State) : State :=
  match s.master.threads[j]? with
  | none => s
  | some thread =>
    match thread.pc with
    | .serve _ i pc =>
      match SlotThread.step (s.master.slots i).written mustChange true
          ⟨(s.master.slots i).seg, pc, (s.master.slots i).wake⟩ with
      | none => s
      | some (_, effect) => slotEffect pids i s effect
    | _ => s

/-- A slave is given the slot of the same index: what happens when two pids meet in one slot is
left out here. -/
def claimsOwn (j : ℕ) (s : State) : Bool :=
  match s.master.threads[j]? with
  | none => true
  | some thread =>
    match thread.pc with
    | .claim pid i => pid = pids i
    | _ => true

/-- A step of the configurator or the master that leaves the slaves as they are in `t`. -/
def masterStep (e : Master.Event) (s t : State) : Option State :=
  (Master.step s.master e).map fun master ↦ { t with master := master }

/-- A thread of the slave takes a step. -/
def slaveStep (i : Idx) (threadStep : Slot.State → Option Slot.State) (s : State) : Option State :=
  (threadStep (s.alone i)).map fun t ↦
    { s with master := s.master.setSeg i t.seg }.setSlave i (.of t)

/-- The whole system. The processes of the slaves exist, so `kill` does not fail. Slave `i`
has the pid `pids i`. -/
def step (s : State) : Event → Option State
  | .type request => masterStep (.type request) s s
  | .name i => masterStep (.name (pids i)) s s
  | .abandon => masterStep .abandon s s
  | .send => masterStep .send s s
  | .timeout => masterStep .timeout s s
  | .take => masterStep .take s s
  | .report => masterStep .report s s
  | .configure i requestedParameters communicationCycleUs =>
    masterStep (.configure i requestedParameters communicationCycleUs) s s
  | .sync created => masterStep (.sync created true) s (syncEffect pids s)
  | .thread j mustChange =>
    if claimsOwn pids j s then
      masterStep (.thread j mustChange true) s (threadEffect pids j mustChange s)
    else none
  | .deliver i =>
    match (s.slaves i).toMaster with
    | [] => none
    | signal :: toMaster =>
      masterStep (.deliver (pids i) signal) s
        (s.setSlave i { s.slaves i with toMaster := toMaster })
  | .handler i =>
    if (s.slaves i).alive then slaveStep i (Slot.handlerStep (pids i)) s else none
  | .cycle i usleep rand now =>
    if (s.slaves i).alive then slaveStep i (Slot.cycleStep usleep rand now) s else none

end Step

section Run

def slavePid (i : Idx) : Pid := maxSlaves + (i.val : Int)

def connectEvents (i : Idx) (n : ℕ) : List Event :=
  [Event.type .connectSlave, Event.name i, Event.send] ++ List.replicate 3 (Event.sync true) ++
    List.replicate 7 (Event.thread n false) ++ List.replicate 8 (Event.handler i) ++
    [Event.deliver i] ++ List.replicate 12 (Event.thread n false) ++ [Event.take, Event.report]

def startEvents (i : Idx) (n : ℕ) : List Event :=
  [Event.configure i 7 1000, Event.type .startSlaveCycle, Event.name i, Event.send] ++
    List.replicate 7 (Event.sync true) ++ List.replicate 10 (Event.handler i) ++
    [Event.deliver i] ++ List.replicate 10 (Event.thread n false) ++ [Event.take, Event.report]

/-- A second slave is connected while the cycle of the first runs. -/
def twoSlaves : List Event :=
  connectEvents 4 0 ++ startEvents 4 0 ++ List.replicate 3 (Event.cycle 4 true 0 ⟨0, 0⟩) ++
    connectEvents 7 1

end Run

section Master

def slaveFields (seg : Shmseg) : SlaveFields where
  name := seg.name
  reqSToM := seg.reqSToM
  resSToM := seg.resSToM
  availableParameters := seg.availableParameters
  semSToMRequest := seg.semSToMRequest
  cycleStarted := seg.cycleStarted
  shmsegError := seg.shmsegError
  shmsegErrorCurrentSize := seg.shmsegErrorCurrentSize
  stringValue := seg.stringValue
  intValue := seg.intValue
  boolValue := seg.boolValue

def WrittenBySlave (a b : Shmseg) : Prop := (slaveFields b).store a = b

theorem WrittenBySlave.trans {a b c : Shmseg} (h : WrittenBySlave a b) (h' : WrittenBySlave b c) :
    WrittenBySlave a c := by
  unfold WrittenBySlave at h h' ⊢
  rw [← h] at h'
  exact h'

theorem setError_written (error : SlaveError) (seg : Shmseg) :
    WrittenBySlave seg (setError error seg) := by
  unfold setError
  split <;> rfl

theorem changeName_written (self : SlaveContext) (seg : Shmseg) :
    WrittenBySlave seg (handleChangeNameSlaveRequest self seg).2.1 := by
  unfold handleChangeNameSlaveRequest
  dsimp only
  have hname (name : CString.Mem) : WrittenBySlave seg { seg with name := name } := rfl
  split_ifs
  · exact (hname _).trans (setError_written _ _)
  · exact (hname _).trans (setError_written _ _)
  · rfl
  · rfl

theorem storeParameters_written (rand : ℕ) (seg : Shmseg) :
    WrittenBySlave seg (storeParameters rand seg) := by
  unfold storeParameters
  dsimp only
  split_ifs <;> rfl

theorem calculate_written (now : Timeval) (self : SlaveContext) (seg : Shmseg) :
    WrittenBySlave seg (calculateParameterCommunicationInterval now self seg).2 := by
  unfold calculateParameterCommunicationInterval
  dsimp only
  split_ifs
  · rfl
  · exact setError_written _ seg
  · rfl

theorem serve_written {s : Slot.State} {self : SlaveContext} {seg : Shmseg} {pc : HandlerPc}
    (h : Slot.Serve s self seg pc) : WrittenBySlave s.seg seg := by
  cases h with
  | changeName hpc => exact changeName_written s.self s.seg
  | alreadyStarted hpc | alreadyStopped hpc | unrecognized hpc => exact setError_written _ s.seg
  | _ => rfl

theorem handlerStep_written {pid : Pid} {s t : Slot.State}
    (h : Slot.handlerStep pid s = some t) : WrittenBySlave s.seg t.seg := by
  cases Slot.handlerStep_move h with
  | served hserve => exact serve_written hserve
  | _ => rfl

theorem cycleStep_written {usleep : Bool} {rand : ℕ} {now : Timeval} {s t : Slot.State}
    (h : Slot.cycleStep usleep rand now s = some t) : WrittenBySlave s.seg t.seg := by
  cases Slot.cycleStep_move h with
  | usleepFailed hpc | gaveUp hpc => exact setError_written _ s.seg
  | stored hpc => exact storeParameters_written rand s.seg
  | calculated hpc => exact calculate_written now s.self s.seg
  | _ => rfl

variable {pids : Idx → Pid} {s t : State} {e : Event}

theorem masterStep_eq_some {me : Master.Event} {u : State} (h : masterStep me s u = some t) :
    Master.step s.master me = some t.master ∧ t.slaves = u.slaves := by
  obtain ⟨master, hm, rfl⟩ := Option.map_eq_some_iff.mp h
  exact ⟨hm, rfl⟩

theorem slaveStep_eq_some {i : Idx} {threadStep : Slot.State → Option Slot.State}
    (h : slaveStep i threadStep s = some t) : ∃ u, threadStep (s.alone i) = some u ∧
      t = { s with master := s.master.setSeg i u.seg }.setSlave i (.of u) := by
  obtain ⟨u, hu, ht⟩ := Option.map_eq_some_iff.mp h
  exact ⟨u, hu, ht.symm⟩

theorem deliver_eq_some {i : Idx} (h : step pids s (.deliver i) = some t) :
    ∃ signal toMaster, (s.slaves i).toMaster = signal :: toMaster ∧
      t.master = Master.deliverStep (pids i) signal s.master ∧
      t.slaves = update s.slaves i { s.slaves i with toMaster := toMaster } := by
  simp only [step] at h
  split at h
  · cases h
  · obtain ⟨hm, hslaves⟩ := masterStep_eq_some h
    exact ⟨_, _, ‹_›, (Option.some.inj hm).symm, hslaves⟩

def slaveEvent (s : State) (i : Idx) (t : Option Slot.State) : Master.Event :=
  .slave i (slaveFields (t.elim (s.master.slots i).seg Slot.State.seg))

def masterEvent (pids : Idx → Pid) (s : State) : Event → Master.Event
  | .type request => .type request
  | .name i => .name (pids i)
  | .abandon => .abandon
  | .send => .send
  | .timeout => .timeout
  | .take => .take
  | .report => .report
  | .configure i requestedParameters communicationCycleUs =>
    .configure i requestedParameters communicationCycleUs
  | .sync created => .sync created true
  | .thread j mustChange => .thread j mustChange true
  | .deliver i => .deliver (pids i) ((s.slaves i).toMaster.headD .response)
  | .handler i => slaveEvent s i (Slot.handlerStep (pids i) (s.alone i))
  | .cycle i usleep rand now => slaveEvent s i (Slot.cycleStep usleep rand now (s.alone i))

theorem slaveStep_master {i : Idx} {threadStep : Slot.State → Option Slot.State}
    (h : slaveStep i threadStep s = some t)
    (hwritten : ∀ u v, threadStep u = some v → WrittenBySlave u.seg v.seg) :
    Master.step s.master (slaveEvent s i (threadStep (s.alone i))) = some t.master := by
  obtain ⟨u, hu, rfl⟩ := slaveStep_eq_some h
  have hseg : (slaveFields u.seg).store (s.master.slots i).seg = u.seg := hwritten _ _ hu
  rw [slaveEvent, hu, Option.elim_some, Master.step, hseg]
  rfl

theorem step_master (h : step pids s e = some t) :
    Master.step s.master (masterEvent pids s e) = some t.master := by
  cases e with
  | thread j mustChange =>
    obtain ⟨-, h⟩ := Option.ite_none_right_eq_some.mp h
    exact (masterStep_eq_some h).1
  | deliver i =>
    obtain ⟨signal, toMaster, hsignals, hm, -⟩ := deliver_eq_some h
    rw [masterEvent, hsignals, hm]
    rfl
  | handler i =>
    obtain ⟨-, h⟩ := Option.ite_none_right_eq_some.mp h
    exact slaveStep_master h fun _ _ ↦ handlerStep_written
  | cycle i usleep rand now =>
    obtain ⟨-, h⟩ := Option.ite_none_right_eq_some.mp h
    exact slaveStep_master h fun _ _ ↦ cycleStep_written
  | _ => exact (masterStep_eq_some h).1

theorem simulates_master (pids : Idx → Pid) :
    Simulates (step pids) unrestricted Master.step unrestricted fun s m ↦ s.master = m := by
  rintro s e t m rfl - hs
  exact ⟨t.master, .single trivial (step_master hs), rfl⟩

/-- Whatever the slaves do, the master goes through a run in which slaves write what they like
in the fields that are theirs. -/
theorem master_refined {name : Idx → CString.Mem} {availableParameters : Idx → ℕ}
    (h : Reaches (step pids) unrestricted (initial name availableParameters) s) :
    Reaches Master.step unrestricted Master.initial s.master := by
  obtain ⟨m, hm, rfl⟩ := h.simulated (simulates_master pids) rfl
  exact hm

theorem twoSlaves_master : ∃ s : Master.State, (s.slots 4).seg.cycleStarted = true ∧
    (s.slots 7).seg.isConnected = true ∧ Reaches Master.step unrestricted Master.initial s := by
  have hrun : (run (step slavePid) (initial (fun _ ↦ [97]) fun _ ↦ 7) twoSlaves).map
      (fun s ↦ ((s.master.slots 4).seg.cycleStarted, (s.master.slots 7).seg.isConnected)) =
      some (true, true) := by
    decide +kernel
  obtain ⟨s, hs, hview⟩ := Option.map_eq_some_iff.mp hrun
  simp only [Prod.mk.injEq] at hview
  exact ⟨s.master, hview.1, hview.2, master_refined (.of_unrestricted_run hs)⟩

end Master

end RealTimeCyclic.Processes
