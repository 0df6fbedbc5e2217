import RealTimeCyclic.SlaveName
import RealTimeCyclic.SlotMove

namespace RealTimeCyclic.SlaveLife

open Shm Slave SlotThread Slot Transition
open SlaveName (toNat_succ)
open SlaveRequest (wraps_iff handleChangeName_exhausted handleChangeName_ack)

section Life

/-- What a slave is meant to be: whether it has joined since the last DISCONNECT, whether its
cycle is started and how often it was renamed. -/
structure Life where
  joined : Bool
  started : Bool
  renames : ℕ
  deriving DecidableEq

def Life.initial : Life := ⟨false, false, 0⟩

def known : Request → Bool
  | .connectSlave | .disconnectSlave | .changeSlaveName | .startSlaveCycle | .stopSlaveCycle =>
    true
  | _ => false

/-- A slave is only started when it is stopped, and only stopped when it is started. Names
are numbered in 32 bits. -/
def Life.answer (l : Life) : Request → Response
  | .connectSlave | .disconnectSlave => .ack
  | .changeSlaveName => if l.renames = 4294967295 then .nack else .ack
  | .startSlaveCycle => if l.started then .nack else .ack
  | .stopSlaveCycle => if l.started then .ack else .nack
  | _ => .nack

def Life.next (l : Life) : Request → Life
  | .disconnectSlave => { l with joined := false, started := false }
  | .changeSlaveName =>
    { l with
      joined := true
      renames := if l.renames = 4294967295 then l.renames else l.renames + 1 }
  | .startSlaveCycle => { l with joined := true, started := true }
  | .stopSlaveCycle => { l with joined := true, started := false }
  | _ => { l with joined := true }

def Life.step (l : Life) (e : Request × Response) : Option Life :=
  if e.2 = l.answer e.1 then some (l.next e.1) else none

variable {l : Life} {request : Request} {response : Response}

theorem Life.step_answer (h : response = l.answer request) :
    l.step (request, response) = some (l.next request) := if_pos h

theorem Life.answer_of_unknown (h : known request = false) : l.answer request = .nack := by
  cases request <;> first | rfl | cases h

theorem Life.next_of_unknown (h : known request = false) :
    l.next request = { l with joined := true } := by
  cases request <;> first | rfl | cases h

end Life

section Slot

variable {l : Life} {pid : Pid} {s t : State} {e : Event}

def executed (s : State) : List (Request × Response) := (s.history.runs.map Prod.snd).reverse

/-- A slot is not reset, and no DISCONNECT is taken up, while the cycle is started. -/
def lifeKept (s : State) : Event → Bool
  | .slot _ =>
    match s.slot with
    | .resetMemset _ => !s.seg.cycleStarted
    | _ => true
  | .handler =>
    match s.handler with
    | .requestSwitch _ => s.seg.reqMToS = .disconnectSlave → s.seg.cycleStarted = false
    | _ => true
  | _ => true

def shown (l : Life) : HandlerPc → Life
  | .startPost _ => l.next .startSlaveCycle
  | .stopWait _ => l.next .stopSlaveCycle
  | .respond request _ _ => l.next request
  | _ => l

def Found (l : Life) : HandlerPc → Prop
  | .disconnect _ | .startWrite _ | .startPost _ => l.started = false
  | .stopWrite _ | .stopWait _ => l.started = true
  | .unrecognized request _ => known request = false
  | .respond request response _ => response = l.answer request
  | .kill request _ _ => request = .disconnectSlave → l.joined = false
  | .clearPointer => l.joined = false
  | _ => True

structure LifeInv (l : Life) (s : State) : Prop where
  lived : run Life.step .initial (executed s) = some l
  started : s.seg.cycleStarted = (shown l s.handler).started
  renames : s.self.changeNameIdx.toNat = (shown l s.handler).renames
  found : Found l s.handler
  joined : s.self.shmseg = false → l.joined = false

theorem LifeInv.keep (h : LifeInv l s) (hruns : t.history.runs = s.history.runs)
    (hstarted : t.seg.cycleStarted = s.seg.cycleStarted)
    (hrenames : t.self.changeNameIdx = s.self.changeNameIdx)
    (hpointer : t.self.shmseg = s.self.shmseg) (hhandler : t.handler = s.handler) :
    LifeInv l t := by
  refine ⟨?_, ?_, ?_, ?_, ?_⟩
  · rw [executed, hruns]
    exact h.lived
  · rw [hstarted, hhandler]
    exact h.started
  · rw [hrenames, hhandler]
    exact h.renames
  · rw [hhandler]
    exact h.found
  · rw [hpointer]
    exact h.joined

theorem LifeInv.moved (h : LifeInv l s) (hruns : t.history.runs = s.history.runs)
    (hstarted : t.seg.cycleStarted = s.seg.cycleStarted)
    (hrenames : t.self.changeNameIdx = s.self.changeNameIdx)
    (hpointer : t.self.shmseg = false → s.self.shmseg = false)
    (hold : shown l s.handler = l) (hnew : shown l t.handler = l) (hfound : Found l t.handler) :
    LifeInv l t := by
  refine ⟨?_, ?_, ?_, hfound, fun hnull ↦ h.joined (hpointer hnull)⟩
  · rw [executed, hruns]
    exact h.lived
  · rw [hstarted, hnew, h.started, hold]
  · rw [hrenames, hnew, h.renames, hold]

theorem slotStep_inv {mustChange : Bool} (h : LifeInv l s)
    (hok : lifeKept s (.slot mustChange) = true) (hs : slotStep mustChange s = some t) :
    LifeInv l t := by
  obtain ⟨v, effect, hmove, rfl⟩ := slotStep_move hs
  have hruns (effect : Effect) (s : State) : (s.effect effect).history.runs = s.history.runs := by
    cases effect with
    | handled signal => cases signal <;> rfl
    | _ => rfl
  refine h.keep (hruns _ _) ?_ (by simp) (by simp) (by simp)
  rw [State.effect_seg]
  cases hmove with
  | zeroed hpc =>
    have hstopped : s.seg.cycleStarted = false := by simpa [lifeKept, hpc] using hok
    exact hstopped.symm
  | errorsHandled hpc hseg => exact (SameControl.of_errors hseg).cycleStarted
  | received hpc => exact (receiveParameters_sameControl s.seg).cycleStarted
  | _ => rfl

theorem syncStep_inv {request : Request} (h : LifeInv l s)
    (hs : syncStep pid request s = some t) : LifeInv l t := by
  cases syncStep_move hs <;> exact h.keep rfl rfl rfl rfl rfl

theorem deliverStep_inv (h : LifeInv l s) (hs : deliverStep pid s = some t) : LifeInv l t := by
  obtain ⟨toMaster, wake, rfl⟩ := deliverStep_eq_some hs
  exact h.keep rfl rfl rfl rfl rfl

theorem calculate_renames (now : Timeval) (self : SlaveContext) (seg : Shmseg) :
    (calculateParameterCommunicationInterval now self seg).1.changeNameIdx =
      self.changeNameIdx := by
  unfold calculateParameterCommunicationInterval
  dsimp only
  split_ifs <;> rfl

theorem cycleStep_inv {usleep : Bool} {rand : ℕ} {now : Timeval} (h : LifeInv l s)
    (hs : cycleStep usleep rand now s = some t) : LifeInv l t := by
  have hframe := cycleStep_frame hs
  refine h.keep hframe.runs hframe.cycleStarted ?_ hframe.pointer hframe.handler
  cases cycleStep_move hs with
  | calculated hpc => exact calculate_renames now s.self s.seg
  | _ => rfl

theorem changeName_renames {n : ℕ} (seg : Shmseg) {self : SlaveContext}
    (h : self.changeNameIdx.toNat = n) :
    (handleChangeNameSlaveRequest self seg).1.changeNameIdx.toNat =
        (if n = 4294967295 then n else n + 1) ∧
      (handleChangeNameSlaveRequest self seg).2.2 =
        if n = 4294967295 then .nack else .ack := by
  have hmax : (4294967295 : UInt32).toNat = 4294967295 := rfl
  by_cases hidx : self.changeNameIdx = 4294967295
  · have hn : n = 4294967295 := by rw [← h, hidx, hmax]
    rw [handleChangeName_exhausted hidx, if_pos hn, if_pos hn]
    exact ⟨h, rfl⟩
  · have hn : n ≠ 4294967295 := by
      rintro rfl
      exact hidx (UInt32.toNat_inj.mp (h.trans hmax.symm))
    rw [handleChangeName_ack hidx, if_neg hn, if_neg hn]
    refine ⟨?_, rfl⟩
    have hlt := self.changeNameIdx.toNat_lt
    rw [h] at hlt
    unfold handleChangeNameSlaveRequest
    dsimp only
    rw [if_neg ((wraps_iff _).not.mpr hidx)]
    exact (toNat_succ (by omega)).trans (congrArg (· + 1) h)

theorem dispatched_inv {signal : Signal} (h : LifeInv l s)
    (hok : lifeKept s .handler = true) (hpc : s.handler = .requestSwitch signal)
    (hs : handlerStep pid s = some t) : LifeInv l t := by
  have hold : shown l s.handler = l := by rw [hpc]; rfl
  have hstarted : s.seg.cycleStarted = l.started := h.started.trans (congrArg Life.started hold)
  simp only [handlerStep, hpc] at hs
  obtain ⟨-, rfl⟩ | ⟨-, rfl⟩ := State.deref_cases hs
  · refine h.moved rfl rfl rfl id hold ?_ ?_
    · dsimp only
      cases s.seg.reqMToS <;> rfl
    · dsimp only
      cases hrequest : s.seg.reqMToS with
      | disconnectSlave =>
        have hstopped : s.seg.cycleStarted = false := by
          simpa [lifeKept, hpc, hrequest] using hok
        exact hstarted.symm.trans hstopped
      | connectSlave | changeSlaveName | startSlaveCycle | stopSlaveCycle => trivial
      | _ => rfl
  · exact h.keep rfl rfl rfl rfl rfl

theorem responded_inv {request : Request} {response : Response} {k : ℕ} (h : LifeInv l s)
    (hpc : s.handler = .respond request response k) (hs : handlerStep pid s = some t) :
    ∃ l, LifeInv l t := by
  have hstarted := h.started
  have hrenames := h.renames
  have hfound := h.found
  rw [hpc] at hstarted hrenames hfound
  simp only [handlerStep, hpc] at hs
  obtain ⟨hpointer, rfl⟩ | ⟨-, rfl⟩ := State.deref_cases hs
  · refine ⟨l.next request, ?_, hstarted, hrenames, ?_, ?_⟩
    · have hexecuted : executed { s with
            seg.resSToM := response
            history.runs := (k, request, response) :: s.history.runs
            handler := .kill request response k } = executed s ++ [(request, response)] := by
        simp [executed]
      rw [hexecuted, run_append, h.lived, Option.bind_some, run, Life.step_answer hfound]
      rfl
    · rintro rfl
      rfl
    · intro hnull
      exact absurd hpointer (by simpa using hnull)
  · exact ⟨l, h.keep rfl rfl rfl rfl rfl⟩

theorem served_inv {self : SlaveContext} {seg : Shmseg} {pc : HandlerPc} (h : LifeInv l s)
    (hserve : Serve s self seg pc) :
    LifeInv l { s with self := self, seg := seg, handler := pc } := by
  have hstarted := h.started
  have hrenames := h.renames
  have hfound := h.found
  cases hserve with
  | connect hpc =>
    rw [hpc] at hstarted hrenames
    exact ⟨h.lived, hstarted, hrenames, rfl, h.joined⟩
  | disconnect hpc =>
    rw [hpc] at hstarted hrenames hfound
    exact ⟨h.lived, hstarted.trans hfound, hrenames, rfl, h.joined⟩
  | changeName hpc =>
    rw [hpc] at hstarted hrenames
    obtain ⟨hidx, hresponse⟩ := changeName_renames s.seg hrenames
    refine ⟨h.lived, ?_, hidx, hresponse, ?_⟩
    · exact (handleChangeName_sameControl s.self s.seg).cycleStarted.trans hstarted
    · exact fun hnull ↦ h.joined ((handleChangeName_pointer s.self s.seg).symm.trans hnull)
  | alreadyStarted hpc hcycle =>
    rw [hpc] at hstarted hrenames
    have hlife : l.started = true := hstarted.symm.trans hcycle
    refine ⟨h.lived, ?_, hrenames, ?_, h.joined⟩
    · exact (setError_sameControl _ s.seg).cycleStarted.trans hcycle
    · exact (if_pos hlife).symm
  | starting hpc hcycle =>
    rw [hpc] at hstarted hrenames
    exact ⟨h.lived, hstarted, hrenames, hstarted.symm.trans hcycle, h.joined⟩
  | startWritten hpc =>
    rw [hpc] at hrenames hfound
    exact ⟨h.lived, rfl, hrenames, hfound, h.joined⟩
  | startPosted hpc =>
    rw [hpc] at hstarted hrenames hfound
    refine ⟨h.lived, hstarted, hrenames, ?_, h.joined⟩
    exact (if_neg (by simp [show l.started = false from hfound])).symm
  | stopping hpc hcycle =>
    rw [hpc] at hstarted hrenames
    exact ⟨h.lived, hstarted, hrenames, hstarted.symm.trans hcycle, h.joined⟩
  | alreadyStopped hpc hcycle =>
    rw [hpc] at hstarted hrenames
    have hlife : l.started = false := hstarted.symm.trans hcycle
    refine ⟨h.lived, ?_, hrenames, ?_, h.joined⟩
    · exact (setError_sameControl _ s.seg).cycleStarted.trans hcycle
    · exact (if_neg (by simp [hlife])).symm
  | stopWritten hpc =>
    rw [hpc] at hrenames hfound
    exact ⟨h.lived, rfl, hrenames, hfound, h.joined⟩
  | stopped hpc hallow =>
    rw [hpc] at hstarted hrenames hfound
    exact ⟨h.lived, hstarted, hrenames, (if_pos hfound).symm, h.joined⟩
  | @unrecognized request k hpc =>
    rw [hpc] at hstarted hrenames hfound
    refine ⟨h.lived, ?_, ?_, (Life.answer_of_unknown hfound).symm, h.joined⟩
    · rw [shown, Life.next_of_unknown hfound]
      exact (setError_sameControl _ s.seg).cycleStarted.trans hstarted
    · rw [shown, Life.next_of_unknown hfound]
      exact hrenames

theorem handlerStep_inv (h : LifeInv l s) (hok : lifeKept s .handler = true)
    (hs : handlerStep pid s = some t) : ∃ l, LifeInv l t := by
  cases handlerStep_move hs with
  | dispatched hpc => exact ⟨l, dispatched_inv h hok hpc hs⟩
  | responded hpc => exact responded_inv h hpc hs
  | served hserve => exact ⟨l, served_inv h hserve⟩
  | crashed => exact ⟨l, h.keep rfl rfl rfl rfl rfl⟩
  | @answered request response k hpc =>
    have hfound := h.found
    rw [hpc] at hfound
    refine ⟨l, h.moved rfl rfl rfl id (by rw [hpc]; rfl) ?_ ?_⟩
    · dsimp only
      split_ifs <;> rfl
    · dsimp only
      split_ifs with hrequest
      · exact hfound hrequest
      · trivial
  | cleared hpc =>
    have hfound := h.found
    have hstarted := h.started
    have hrenames := h.renames
    rw [hpc] at hfound hstarted hrenames
    exact ⟨l, h.lived, hstarted, hrenames, trivial, fun _ ↦ hfound⟩
  | found hpc => exact ⟨l, h.moved rfl rfl rfl (by simp) (by rw [hpc]; rfl) rfl trivial⟩
  | _ hpc => exact ⟨l, h.moved rfl rfl rfl id (by rw [hpc]; rfl) rfl trivial⟩

theorem step_inv (h : ∃ l, LifeInv l s) (hok : lifeKept s e = true)
    (hs : Slot.step pid s e = some t) : ∃ l, LifeInv l t := by
  obtain ⟨l, h⟩ := h
  cases e with
  | configure requestedParameters communicationCycleUs =>
    obtain rfl := Option.some.inj hs
    exact ⟨l, h.keep rfl rfl rfl rfl rfl⟩
  | sync request => exact ⟨l, syncStep_inv h hs⟩
  | slot mustChange => exact ⟨l, slotStep_inv h hok hs⟩
  | deliver => exact ⟨l, deliverStep_inv h hs⟩
  | handler =>
    obtain ⟨-, hs⟩ := Option.ite_none_right_eq_some.mp hs
    exact handlerStep_inv h hok hs
  | cycle usleep rand now =>
    obtain ⟨-, hs⟩ := Option.ite_none_right_eq_some.mp hs
    exact ⟨l, cycleStep_inv h hs⟩

theorem initial_inv (name : CString.Mem) (availableParameters : ℕ) :
    LifeInv .initial (Slot.initial name availableParameters) :=
  ⟨rfl, rfl, rfl, trivial, fun _ ↦ rfl⟩

/-- The slave has led the life, and shows it when it waits for a signal. -/
structure Leads (l : Life) (s : State) : Prop where
  lived : run Life.step .initial (executed s) = some l
  shown : s.handler = .sigwaitinfo → s.seg.cycleStarted = l.started ∧
    s.self.changeNameIdx.toNat = l.renames ∧ (l.joined = true → s.self.shmseg = true)

theorem LifeInv.leads (h : LifeInv l s) : Leads l s := by
  refine ⟨h.lived, fun hpc ↦ ?_⟩
  have hstarted := h.started
  have hrenames := h.renames
  rw [hpc] at hstarted hrenames
  refine ⟨hstarted, hrenames, fun hjoined ↦ ?_⟩
  by_contra hnull
  have hleft := h.joined (by simpa using hnull)
  rw [hjoined] at hleft
  cases hleft

end Slot

end RealTimeCyclic.SlaveLife
