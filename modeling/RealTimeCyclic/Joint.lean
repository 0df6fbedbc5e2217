import RealTimeCyclic.LocalRegistry
import RealTimeCyclic.MasterAnswer

namespace RealTimeCyclic.Joint

open Shm SlotThread Probing Function Transition
open Master (Thread ThreadPc SyncPc sendable acknowledged)
open MasterAnswer (Traced responsesSent)
open Configurator (Fork Segment disconnectedPids chosen forkSlave createSlave deleteSlave
  startMaster stopMaster waitConnectSlaveResponse waitDisconnectSlaveResponse)
open ConfiguratorSafety (Registered)

/-- How far AUTOMATIC_TEST has come: the slaves to fork, the entries of `created_slave`
passed, the segments passed. -/
inductive Automatic
  | creating (n : ℕ)
  | connecting (i : ℕ)
  | starting (i : ℕ)
  deriving DecidableEq

/-- The master with its slot table and the configurator with its registry. The control
memory is the one in the state of the master. `moved` says that the slot table has been
changed for the command whose answer the configurator waits for. -/
structure State where
  master : Traced
  registry : Configurator.State
  automatic : Option Automatic
  moved : Bool

def initial : State := ⟨MasterAnswer.initial, Configurator.initial, none, false⟩

inductive Event
  | master (e : Master.Event)
  | unsent (failed : Bool)
  | startMaster (fork : Fork) (signalled found left : Bool)
  | stopMaster (seg : Idx → Segment) (killed : Bool)
  | createSlave (named : Bool) (fork : Fork)
  | deleteSlave (inserted : Option Pid) (killed : Bool)
  | automaticTest (n : ℕ)
  | proceed (fork : Fork)

def State.setMaster (s : State) (t : Master.State) : State :=
  { s with master := { s.master with state := t } }

def State.toMenu (s : State) : State :=
  s.setMaster { s.master.state with configurator := .menu }

def State.seg (s : State) (i : Idx) : Shmseg := (s.master.state.slots i).seg

def typed (s : State) (request : Request) : Bool :=
  s.master.state.configurator = .typed ∧ s.master.state.control.request = request

/-- CONNECT_SLAVE is offered the disconnected slaves. Without a master nothing of the
master happens. -/
def permitted (s : State) : Master.Event → Bool
  | .type _ => s.automatic = none ∧ s.registry.exited = false
  | .name pid => s.master.state.control.request = .connectSlave →
      pid ∈ disconnectedPids s.registry.createdSlave
  | .send | .sync _ _ | .thread _ _ _ | .deliver _ _ => s.registry.masterPid ≠ noPid
  | _ => true

def reported (s : State) : Master.Event → Configurator.State
  | .report =>
    match s.master.state.latest.request with
    | .connectSlave => waitConnectSlaveResponse s.master.state.latest.pid
        (some s.master.state.control.response) s.registry
    | .disconnectSlave => waitDisconnectSlaveResponse s.master.state.latest.pid
        (some s.master.state.control.response) s.registry
    | _ => s.registry
  | _ => s.registry

def changes : Pc → Bool
  | .setConnected _ _ | .resetMemset (some _) => true
  | _ => false

def threadChanges (t : Thread) : Bool :=
  match t.pc with
  | .serve _ _ pc => changes pc
  | _ => false

def movedAfter (s : State) : Master.Event → Bool
  | .send | .timeout | .report => false
  | .thread j _ _ =>
    match s.master.state.threads[j]? with
    | some thread => s.moved || threadChanges thread
    | none => s.moved
  | _ => s.moved

def ended (t : Traced) : Traced :=
  { t with
    state := { t.state with pendingMaster := false, sync := .sigwaitinfo, threads := [] }
    outstanding := fun _ ↦ none }

def started (t : Traced) : Traced :=
  { ended t with state := { (ended t).state with slots := Master.initial.slots } }

def startedBy (fork : Fork) (left : Bool) (s : State) : State :=
  { s with master :=
      { if fork = .failed then s.master else started s.master with
        state.pendingConfigurator := left } }

def State.request (s : State) (request : Request) (pid : Pid) : State :=
  s.setMaster { s.master.state with
    control.request := request
    control.affectedSlavePid := pid
    configurator := .named }

def connectNext (i : Idx) (s : State) : State :=
  if (s.registry.createdSlave i).pid = noPid ∨ (s.registry.createdSlave i).connected then s
  else s.request .connectSlave (s.registry.createdSlave i).pid

def startNext (i : Idx) (s : State) : State :=
  if (s.seg i).isConnected then
    (s.setMaster (s.master.state.setSeg i { s.seg i with
      requestedParameters := (s.seg i).requestedParameters ||| intParameterBit
      communicationCycleUs := 500 * 1000 })).request .startSlaveCycle (s.seg i).pid
  else s

def Automatic.unsent : Automatic → Automatic
  | .connecting _ => .starting 0
  | a => a

def unsentStep (failed : Bool) (s : State) : State :=
  if failed ∧ s.master.state.control.request ≠ .disconnectSlave then
    { s.toMenu with automatic := s.automatic.map Automatic.unsent }
  else
    { s.setMaster { s.master.state with
        latest := ⟨s.master.state.latest.id + 1, s.master.state.control.request,
          s.master.state.control.affectedSlavePid⟩
        configurator := .waiting } with moved := false }

def proceedStep (fork : Fork) (s : State) : Option State :=
  match s.automatic with
  | none => none
  | some (.creating 0) => some { s with automatic := some (.connecting 0) }
  | some (.creating (n + 1)) =>
    some { s with registry := forkSlave fork s.registry, automatic := some (.creating n) }
  | some (.connecting i) =>
    if h : i < maxSlaves then
      some { connectNext ⟨i, h⟩ s with automatic := some (.connecting (i + 1)) }
    else some { s with automatic := some (.starting 0) }
  | some (.starting i) =>
    if h : i < maxSlaves then
      some { startNext ⟨i, h⟩ s with automatic := some (.starting (i + 1)) }
    else some { s with automatic := none }

def step (s : State) : Event → Option State
  | .master e =>
    if permitted s e then
      (MasterAnswer.step s.master e).map fun t ↦
        { s with master := t, registry := reported s e, moved := movedAfter s e }
    else none
  | .unsent failed =>
    if s.master.state.configurator = .named ∧ (failed ∨ s.registry.masterPid = noPid) then
      some (unsentStep failed s)
    else none
  | .startMaster fork signalled found left =>
    if typed s .startMaster ∧ (left → s.master.state.pendingConfigurator) then
      if s.registry.masterPid ≠ noPid then some s.toMenu
      else
        some { startedBy fork left s.toMenu with
          registry := startMaster fork signalled found s.registry }
    else none
  | .stopMaster seg killed =>
    if typed s .stopMaster then
      if s.registry.masterPid ≠ noPid ∧ killed then
        some { s.toMenu with
          master := ended s.toMenu.master
          registry := stopMaster seg killed s.registry }
      else some { s.toMenu with registry := stopMaster seg killed s.registry }
    else none
  | .createSlave named fork =>
    if typed s .createSlave then
      some { s.toMenu with registry := createSlave named fork s.registry }
    else none
  | .deleteSlave inserted killed =>
    if typed s .deleteSlave then
      some { s.toMenu with registry := deleteSlave inserted killed s.registry }
    else none
  | .automaticTest n =>
    if typed s .automaticTest then
      some { s.toMenu with automatic := if n = 0 then none else some (.creating n) }
    else none
  | .proceed fork => if s.master.state.configurator = .menu then proceedStep fork s else none

def Held (s : State) (pid : Pid) : Prop :=
  ∃ i, (s.seg i).pid = pid ∧ (s.seg i).isConnected = true

instance (s : State) (pid : Pid) : Decidable (Held s pid) :=
  inferInstanceAs (Decidable (∃ _, _))

/-- The two tables agree. -/
structure TablesAgree (s : State) : Prop where
  connected : ∀ i, (s.registry.createdSlave i).pid ≠ noPid →
    ((s.registry.createdSlave i).connected = true ↔ Held s (s.registry.createdSlave i).pid)
  owner : ∀ i, (s.seg i).pid ≠ noPid → Registered s.registry (s.seg i).pid
  offered : ∀ pid ∈ disconnectedPids s.registry.createdSlave, ¬ Held s pid

def idle (t : Thread) : Bool :=
  match t.pc with
  | .serve _ _ .sigSemWait | .serve _ _ .exited | .returned => true
  | _ => false

/-- A menu prompt, with no request being processed by the master or outstanding. -/
def settledPrompt (s : State) : Bool :=
  s.master.state.configurator = .menu ∧ s.automatic = none ∧ s.registry.exited = false ∧
    s.master.state.sync = .sigwaitinfo ∧ s.master.state.pendingMaster = false ∧
    (∀ t ∈ s.master.state.threads, idle t) ∧ ∀ i, s.master.outstanding i = none

def awaiting (s : Master.State) : Bool := s.configurator = .waiting ∨ s.configurator = .reading

def awaits (s : State) (request : Request) (k : ℕ) (i : Idx) : Bool :=
  awaiting s.master.state ∧ s.master.state.latest = ⟨k, request, (s.seg i).pid⟩

def threadKept (s : State) (t : Thread) : Bool :=
  match t.pc with
  | .claim pid i => (s.seg i).pid = noPid ∧ (∀ k, (s.seg k).pid ≠ pid) ∧ Registered s.registry pid
  | .serve _ i (.setConnected _ k) => awaits s .connectSlave k i
  | .serve _ i (.resetMemset (some k)) => awaits s .disconnectSlave k i ∧ (s.seg i).isConnected
  | .serve _ i (.resetMemset none) => (s.seg i).isConnected = false
  | _ => true

def tabled : Request → Bool
  | .connectSlave | .disconnectSlave => true
  | _ => false

/-- The configurator gives up before the table has been changed, and the answer that it
reads is the one to its command. -/
def masterKept (s : State) : Master.Event → Bool
  | .timeout => s.moved = false
  | .report => tabled s.master.state.latest.request →
      s.master.state.answerTo = s.master.state.latest.id
  | .thread j _ _ =>
    match s.master.state.threads[j]? with
    | some thread => threadKept s thread
    | none => true
  | _ => true

def newSlave (s : State) (fork : Fork) : Bool :=
  fork ≠ .failed ∧ ¬ Registered s.registry fork.pid ∧
    ∃ i, (s.registry.createdSlave i).pid = noPid

/-- A slave is deleted that has no slot, and the master is stopped when no slot has an
owner. -/
def kept (s : State) : Event → Bool
  | .master e => responsesSent s.master e ∧ masterKept s e
  | .createSlave named fork =>
    s.registry.createdSlavesNumber < maxSlaves → named → newSlave s fork
  | .proceed fork =>
    match s.automatic with
    | some (.creating (_ + 1)) => newSlave s fork
    | _ => true
  | .deleteSlave inserted killed =>
    decide (killed → ∀ pid ∈ chosen (disconnectedPids s.registry.createdSlave) inserted,
      ∀ i, (s.seg i).pid ≠ pid)
  | .stopMaster seg _ => s.registry.masterPid ≠ noPid →
      ∀ i, (seg i).pid = noPid ∧ (s.seg i).pid = noPid
  | .unsent _ | .startMaster _ _ _ _ | .automaticTest _ => true

def connecting : List Event :=
  [Event.master (.type .startMaster), Event.startMaster (.child 89) true true false,
    Event.master (.type .createSlave), Event.createSlave true (.child 99),
    Event.master (.type .connectSlave), Event.master (.name 100), Event.master .send] ++
    List.replicate 3 (Event.master (.sync true true)) ++
    List.replicate 7 (Event.master (.thread 0 false true))

def acknowledging : List Event :=
  [Event.master (.slave 4 acknowledged), Event.master (.deliver 100 .response)] ++
    List.replicate 12 (Event.master (.thread 0 false true))

def lateAcknowledgement : List Event :=
  connecting ++ [Event.master .timeout] ++ acknowledging

theorem lateAcknowledgement_disagrees :
    ¬ ∀ s, Reaches step unrestricted initial s → settledPrompt s = true → TablesAgree s := by
  intro hall
  have hrun : (run step initial lateAcknowledgement).map (fun s ↦ (settledPrompt s,
      s.registry.createdSlave 4, (s.seg 4).pid, (s.seg 4).isConnected)) =
      some (true, ⟨100, false⟩, 100, true) := by
    decide +kernel
  obtain ⟨s, hs, hview⟩ := Option.map_eq_some_iff.mp hrun
  simp only [Prod.mk.injEq] at hview
  obtain ⟨hprompt, hentry, hpid, hconnected⟩ := hview
  have hagree := (hall s (.of_unrestricted_run hs) hprompt).connected 4
  rw [hentry] at hagree
  exact absurd ((hagree (by decide)).mpr ⟨4, hpid, hconnected⟩) (by decide)

end RealTimeCyclic.Joint
