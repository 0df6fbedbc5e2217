import RealTimeCyclic.NameBuffer
import RealTimeCyclic.ProcessRefinement

namespace RealTimeCyclic.ProcessBuffer

open Shm Slave SlotThread Function Transition Processes ProcessSlots NameBuffer

section Slot

variable {pid : Pid} {s t : Slot.State} {e : Slot.Event}

/-- The handlers of the slave, with the names in their buffers. -/
def handlerStep (pid : Pid) (s : Slot.State) : Option Slot.State :=
  match s.handler with
  | .connect k =>
    s.deref { s with
      seg := NameBuffer.handleConnectSlaveRequest s.self s.seg
      handler := .respond .connectSlave .ack k }
  | .changeName k =>
    let (self, seg, response) := NameBuffer.handleChangeNameSlaveRequest s.self s.seg
    s.deref { s with
      self := self
      seg := seg
      handler := .respond .changeSlaveName response k }
  | _ => Slot.handlerStep pid s

def nameFits (s : Slot.State) : Slot.Event → Bool
  | .handler =>
    match s.handler with
    | .changeName _ => renameFits s.self s.seg
    | _ => true
  | _ => true

/-- The two copies of the name end in their buffers. -/
structure NamesEnd (s : Slot.State) : Prop where
  segment : Ends s.seg.name
  context : Ends s.self.name

theorem handlerStep_of_fits (h : NamesEnd s) (hfits : nameFits s .handler = true) :
    handlerStep pid s = Slot.handlerStep pid s := by
  unfold handlerStep Slot.handlerStep
  cases hpc : s.handler with
  | connect k =>
    dsimp only
    rw [handleConnect_of_ends h.context]
  | changeName k =>
    have hfits : renameFits s.self s.seg = true := by simpa only [nameFits, hpc] using hfits
    dsimp only
    rw [handleChangeName_of_fits h.context h.segment hfits]
  | _ => rfl

theorem storeParameters_name (rand : ℕ) (seg : Shmseg) :
    (storeParameters rand seg).name = seg.name := by
  unfold storeParameters
  dsimp only
  split_ifs <;> rfl

theorem calculate_names (now : Timeval) (hself : Ends s.self.name) (hseg : Ends s.seg.name) :
    Ends (calculateParameterCommunicationInterval now s.self s.seg).1.name ∧
      Ends (calculateParameterCommunicationInterval now s.self s.seg).2.name := by
  unfold calculateParameterCommunicationInterval
  dsimp only
  split_ifs
  · exact ⟨hself, hseg⟩
  · exact ⟨hself, setError_ends _ hseg⟩
  · exact ⟨hself, hseg⟩

theorem handlerStep_ends (h : NamesEnd s) (hfits : nameFits s .handler = true)
    (hs : Slot.handlerStep pid s = some t) : NamesEnd t := by
  cases Slot.handlerStep_move hs with
  | served hserve =>
    cases hserve with
    | connect => exact ⟨h.segment.strcpy h.context, h.context⟩
    | changeName hpc =>
      have hfits : renameFits s.self s.seg = true := by simpa only [nameFits, hpc] using hfits
      obtain ⟨hself, hseg⟩ := changeName_ends h.context h.segment hfits
      exact ⟨hseg, hself⟩
    | alreadyStarted | alreadyStopped | unrecognized =>
      exact ⟨setError_ends _ h.segment, h.context⟩
    | _ => exact ⟨h.segment, h.context⟩
  | _ => exact ⟨h.segment, h.context⟩

theorem cycleStep_ends {usleep : Bool} {rand : ℕ} {now : Timeval} (h : NamesEnd s)
    (hs : Slot.cycleStep usleep rand now s = some t) : NamesEnd t := by
  cases Slot.cycleStep_move hs with
  | usleepFailed | gaveUp => exact ⟨setError_ends _ h.segment, h.context⟩
  | stored => exact ⟨storeParameters_name rand s.seg ▸ h.segment, h.context⟩
  | calculated =>
    obtain ⟨hself, hseg⟩ := calculate_names now h.context h.segment
    exact ⟨hseg, hself⟩
  | _ => exact ⟨h.segment, h.context⟩

theorem slotStep_ends {mustChange : Bool} (h : NamesEnd s)
    (hs : Slot.slotStep mustChange s = some t) : NamesEnd t := by
  obtain ⟨v, effect, hstep, rfl⟩ := Slot.slotStep_eq_some hs
  refine ⟨?_, by rw [Slot.State.effect_self]; exact h.context⟩
  rw [Slot.State.effect_seg]
  cases step_move hstep with
  | zeroed => exact fun k _ ↦ CString.load_nil k
  | errorsHandled hpc hseg => rcases hseg with rfl | rfl <;> exact h.segment
  | received hpc => exact (receiveParameters_name s.seg).symm ▸ h.segment
  | _ => exact h.segment

theorem step_ends (h : NamesEnd s) (hfits : nameFits s e = true)
    (hs : Slot.step pid s e = some t) : NamesEnd t := by
  cases e with
  | configure requestedParameters communicationCycleUs =>
    exact Option.some.inj hs ▸ ⟨h.segment, h.context⟩
  | sync request => cases Slot.syncStep_move hs <;> exact ⟨h.segment, h.context⟩
  | slot mustChange => exact slotStep_ends h hs
  | deliver =>
    obtain ⟨toMaster, wake, rfl⟩ := Slot.deliverStep_eq_some hs
    exact ⟨h.segment, h.context⟩
  | handler =>
    obtain ⟨-, hs⟩ := Option.ite_none_right_eq_some.mp hs
    exact handlerStep_ends h hfits hs
  | cycle usleep rand now =>
    obtain ⟨-, hs⟩ := Option.ite_none_right_eq_some.mp hs
    exact cycleStep_ends h hs

theorem nameFits_unnumbered (u : Slot.State) (e : Slot.Event) :
    nameFits { u with slot := unnumbered u.slot } e = nameFits u e := by
  cases e <;> rfl

end Slot

section System

variable {pids : Idx → Pid} {s : State} {e : Event} {i : Idx}

def step (pids : Idx → Pid) (s : State) : Event → Option State
  | .handler i => if (s.slaves i).alive then slaveStep i (handlerStep (pids i)) s else none
  | e => Processes.step pids s e

def namesFit (s : State) (e : Event) : Bool :=
  match concerns s e with
  | some (i, e') => nameFits (view s i) e'
  | none => true

theorem step_of_fits (h : ∀ i, NamesEnd (view s i)) (hfits : namesFit s e = true) :
    step pids s e = Processes.step pids s e := by
  cases e with
  | handler i =>
    have hends : NamesEnd (s.alone i) := ⟨(h i).segment, (h i).context⟩
    have hsame : slaveStep i (handlerStep (pids i)) s =
        slaveStep i (Slot.handlerStep (pids i)) s := by
      rw [slaveStep, handlerStep_of_fits hends hfits]
      rfl
    rw [step, hsame]
    rfl
  | _ => rfl

variable {ok : State → Event → Prop} {name : Idx → CString.Mem} {availableParameters : Idx → ℕ}

theorem namesEnd_of_reached (hpids : Homes pids)
    (hnames : ∀ i, (CString.str (name i)).length < slaveNameSize)
    (h : Reaches (Processes.step pids) ok (initial name availableParameters) s)
    (hok : ∀ s e, ok s e → apart pids s e = true ∧ namesFit s e = true) (i : Idx) :
    NamesEnd (view s i) := by
  have hadmitted (s : State) (e : Event) (h : ok s e) (i : Idx) :
      Admitted pids i (fun u e' ↦ nameFits u e' = true) s e := by
    obtain ⟨happart, hfits⟩ := hok s e h
    apply admitted_of_kept nameFits_unnumbered happart
    intro k e' hconcerns
    simpa [namesFit, hconcerns] using hfits
  obtain ⟨u, hu, hsame⟩ := reaches_slot hpids (fun _ _ _ ↦ rfl) (h.mono hadmitted) i
  have hinitial : NamesEnd (Slot.initial (name i) (availableParameters i)) :=
    ⟨fun k _ ↦ CString.load_nil k, initial_ends (hnames i)⟩
  have hends := hu.invariant hinitial fun _ _ _ hinv hfits hs ↦ step_ends hinv hfits hs
  rw [hsame.rest] at hends
  exact ⟨hends.segment, hends.context⟩

/-- As long as the names fit, the system is the one with buffers without end. -/
theorem Reaches.unbounded (hpids : Homes pids)
    (hnames : ∀ i, (CString.str (name i)).length < slaveNameSize)
    (h : Reaches (step pids) ok (initial name availableParameters) s)
    (hok : ∀ s e, ok s e → apart pids s e = true ∧ namesFit s e = true) :
    Reaches (Processes.step pids) ok (initial name availableParameters) s :=
  h.of_agree fun s e hs hk ↦
    step_of_fits (namesEnd_of_reached hpids hnames hs hok) (hok s e hk).2

end System

end RealTimeCyclic.ProcessBuffer
