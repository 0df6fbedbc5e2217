import RealTimeCyclic.SlotCommand
import Mathlib.Data.List.Nodup

namespace RealTimeCyclic.SlotParameter

open Shm Slave SlotThread Slot Transition SlotCommand

def Unserved (h : History) : Prop := h.taken ∉ h.handled

def acknowledges : Signal → Bool
  | .acknowledge _ => true
  | _ => false

def cycleParameters : CyclePc → ℕ
  | .getvalueAllow _ _ | .withdraw _ | .writeRequest _ _ | .kill _ _ => 1
  | _ => 0

def slotParameters : Pc → ℕ
  | .requestErrors signal | .getvalueSToM signal => if signal = .response then 0 else 1
  | .requestConnected _ | .requestSwitch _ | .requestAck _ | .requestKill _ => 1
  | .resetInit _ | .resetDrainMToS _ | .resetPostMToS _ | .resetDrainSToM _
  | .resetPostSToM _ => 1
  | _ => 0

def handlerParameters : HandlerPc → ℕ
  | .firstSignalEverSetup signal | .getvalueSToM signal => if acknowledges signal then 1 else 0
  | .responseSwitch _ | .responsePost _ => 1
  | _ => 0

def parameterSignals (signals : List Signal) : ℕ := signals.countP (· ≠ .response)

@[simp] theorem parameterSignals_cons (signal : Signal) (signals : List Signal) :
    parameterSignals (signal :: signals) =
      parameterSignals signals + if signal = .response then 0 else 1 := by
  by_cases h : signal = .response <;> simp [parameterSignals, h]

@[simp] theorem parameterSignals_append (signals signals' : List Signal) :
    parameterSignals (signals ++ signals') =
      parameterSignals signals + parameterSignals signals' := by
  simp [parameterSignals, List.countP_append]

theorem parameterSignals_eq_zero {signals : List Signal} :
    parameterSignals signals = 0 ↔ ∀ x ∈ signals, x = .response := by
  simp [parameterSignals, List.countP_eq_zero]

def parameters (s : State) : ℕ :=
  cycleParameters s.cycle + slotParameters s.slot + handlerParameters s.handler +
    s.toSlave.countP acknowledges + parameterSignals s.toMaster + parameterSignals s.wake

def CycleOk (h : History) : CyclePc → Prop
  | .getvalueAllow _ _ | .withdraw _ | .writeRequest _ _ | .kill _ _ => Unserved h
  | _ => True

def SlotOk (h : History) : Pc → Prop
  | .requestErrors signal | .getvalueSToM signal =>
    signal = .response ∨ signal = .parameter h.taken ∧ Unserved h
  | .getvalueMToS signal => signal = .response
  | .requestConnected signal | .requestSwitch signal => signal = .parameter h.taken ∧ Unserved h
  | .requestAck signal | .requestKill signal => signal = .parameter h.taken
  | _ => True

def HandlerOk : HandlerPc → Prop
  | .firstSignalEverSetup signal | .getvalueSToM signal =>
    signal = .command ∨ acknowledges signal = true
  | .getvalueMToS signal | .requestSwitch signal => signal = .command
  | _ => True

structure ParameterInv (s : State) : Prop where
  budget : s.seg.semSToMRequest + parameters s ≤ 1
  cycle : CycleOk s.history s.cycle
  slot : SlotOk s.history s.slot
  handler : HandlerOk s.handler
  toSlave : ∀ x ∈ s.toSlave, x = .command ∨ acknowledges x = true
  toMaster : ∀ x ∈ s.toMaster, x = .response ∨ x = .parameter s.history.taken ∧ Unserved s.history
  wake : ∀ x ∈ s.wake, x = .response ∨ x = .parameter s.history.taken ∧ Unserved s.history
  detaching : Detaching s.seg.reqMToS s.slot → parameters s = 0
  handled_nodup : s.history.handled.Nodup
  handled_le : ∀ k ∈ s.history.handled, k ≤ s.history.taken

/-- No command is decoded by the slave and no answer to one by the master while
a parameter request is open, and the slave does not give up waiting. -/
def parametersDecoded (s : State) : Event → Bool
  | .handler =>
    match s.handler with
    | .getvalueSToM signal => s.seg.semSToMRequest ≠ 0 ∨ signal ≠ .command
    | _ => true
  | .slot _ =>
    match s.slot with
    | .getvalueSToM signal => s.seg.semSToMRequest ≠ 0 ∨ signal ≠ .response
    | _ => true
  | .cycle _ _ _ =>
    match s.cycle with
    | .trywait _ _ threshold =>
      s.seg.semSToMRequest ≠ 0 ∨ threshold < waitMasterResponseTimeoutSegments
    | _ => true
  | _ => true

theorem cycleOk_of_idle {h : History} {pc : CyclePc} (hpc : cycleParameters pc = 0) :
    CycleOk h pc := by
  cases pc <;> simp_all [cycleParameters, CycleOk]

theorem slotOk_of_idle {h h' : History} {pc : Pc} (hpc : slotParameters pc = 0)
    (hok : SlotOk h pc) : SlotOk h' pc := by
  cases pc <;> simp_all [slotParameters, SlotOk]

/-- No parameter request is on its way to the master. -/
structure Drained (s : State) : Prop where
  toMaster : ∀ x ∈ s.toMaster, x = .response
  wake : ∀ x ∈ s.wake, x = .response

theorem ParameterInv.drained {s : State} (h : ParameterInv s)
    (hs : 0 < s.seg.semSToMRequest + cycleParameters s.cycle + slotParameters s.slot +
      handlerParameters s.handler) : Drained s := by
  have hb := h.budget
  simp only [parameters] at hb
  have hmaster : parameterSignals s.toMaster = 0 := by omega
  have hwake : parameterSignals s.wake = 0 := by omega
  rw [parameterSignals_eq_zero] at hmaster hwake
  exact ⟨hmaster, hwake⟩

theorem ParameterInv.slot_move {s : State} (h : ParameterInv s) (seg : Shmseg) (pc : Pc)
    (acquired written : ℕ) (hrequest : Detaching seg.reqMToS pc → seg.reqMToS = s.seg.reqMToS)
    (hb : seg.semSToMRequest + slotParameters pc ≤ s.seg.semSToMRequest + slotParameters s.slot)
    (hok : SlotOk s.history pc)
    (hdetaching : Detaching s.seg.reqMToS pc →
      slotParameters pc ≤ slotParameters s.slot ∧
        (Detaching s.seg.reqMToS s.slot ∨ 0 < s.seg.semSToMRequest)) :
    ParameterInv { s with
      seg := seg
      slot := pc
      history.acquired := acquired
      history.written := written } := by
  have hbudget := h.budget
  refine ⟨?_, h.cycle, hok, h.handler, h.toSlave, h.toMaster, h.wake, fun hd ↦ ?_,
    h.handled_nodup, h.handled_le⟩
  · simp only [parameters] at hbudget ⊢
    omega
  · obtain ⟨hle, hcase⟩ := hdetaching (hrequest hd ▸ hd)
    have hzero : parameters s = 0 := by
      rcases hcase with hdet | hsem
      · exact h.detaching hdet
      · omega
    simp only [parameters] at hzero ⊢
    omega

theorem ParameterInv.slot_jump {s : State} {mustChange : Bool} {pc : Pc} (hc : CommandInv p q s)
    (h : ParameterInv s) (hok : parametersDecoded s (.slot mustChange) = true)
    (hjump : Jump s.history.acquired mustChange true s.seg s.slot pc) :
    ParameterInv { s with slot := pc } := by
  have hb := h.budget
  have hslot := h.slot
  have hcommand := hc.slot
  have hmove (hle : slotParameters pc ≤ slotParameters s.slot) (hok : SlotOk s.history pc)
      (hd : Detaching s.seg.reqMToS pc →
        Detaching s.seg.reqMToS s.slot ∨ 0 < s.seg.semSToMRequest) :
      ParameterInv { s with slot := pc } :=
    h.slot_move s.seg pc _ _ (fun _ ↦ rfl) (Nat.add_le_add_left hle _) hok fun hdet ↦
      ⟨hle, hd hdet⟩
  cases hjump with
  | connectUnsent hpc hkill | renameUnsent hpc hkill => cases hkill
  | requestDecoded hpc hzero =>
    simp only [hpc, SlotOk, parametersDecoded, decide_eq_true_eq] at hslot hok
    have hparameter := hslot.resolve_left (hok.resolve_left (not_not_intro hzero))
    exact hmove (by simp [hpc, slotParameters, hparameter.1]) hparameter False.elim
  | requestExcluded hpc hpos =>
    rename_i signal
    have hresponse : signal = .response := by
      by_contra hne
      simp only [parameters, hpc, slotParameters, if_neg hne] at hb
      omega
    exact hmove (Nat.zero_le _) hresponse fun _ ↦ .inr hpos
  | responseDecoded hpc hzero =>
    simp only [hpc, SlotOk] at hslot
    exact hmove (Nat.zero_le _) trivial fun hd ↦ .inl (by rw [hpc]; exact ⟨hslot, hd⟩)
  | requestAccepted hpc hconnected =>
    simp only [hpc, SlotOk] at hslot
    exact hmove (by rw [hpc]; rfl) hslot False.elim
  | connectedRead hpc | responseRecognized hpc =>
    exact hmove (Nat.zero_le _) trivial fun hd ↦ .inl (by rw [hpc]; exact hd)
  | disconnected hpc =>
    simp only [hpc, SlotCommand.SlotOk] at hcommand
    exact hmove (Nat.zero_le _) trivial fun _ ↦ .inl (by rw [hpc]; exact hcommand.2.1.symm)
  | drainedMToS hpc | drainedSToM hpc => exact hmove (by rw [hpc]; rfl) trivial False.elim
  | _ => exact hmove (Nat.zero_le _) trivial False.elim

theorem slotStep_inv {s t : State} {mustChange : Bool} (hc : CommandInv p q s)
    (h : ParameterInv s) (hok : parametersDecoded s (.slot mustChange) = true)
    (hs : slotStep mustChange s = some t) : ParameterInv t := by
  obtain ⟨v, effect, hmove, rfl⟩ := slotStep_move hs
  have hb := h.budget
  have hslot := h.slot
  cases hmove with
  | jumped hjump => exact h.slot_jump hc hok hjump
  | sent hpc =>
    simp only [parameters, hpc, slotParameters] at hb
    refine ⟨?_, h.cycle, trivial, h.handler, ?_, h.toMaster, h.wake, False.elim,
      h.handled_nodup, h.handled_le⟩
    · simpa [State.effect, parameters, slotParameters, List.countP_append, acknowledges] using hb
    · exact List.forall_mem_append.mpr ⟨h.toSlave, by simp⟩
  | woken hpc hwake =>
    have hsignals := h.wake
    simp only [parameters, hpc, slotParameters, hwake, parameterSignals_cons,
      List.mem_cons] at hb hsignals
    refine ⟨?_, h.cycle, hsignals _ (.inl rfl), h.handler, h.toSlave, h.toMaster,
      fun x hx ↦ hsignals x (.inr hx), False.elim, h.handled_nodup, h.handled_le⟩
    simp only [State.effect, parameters, slotParameters]
    omega
  | errorsHandled hpc herrors =>
    have hseg := SameControl.of_errors herrors
    simp only [hpc, SlotOk] at hslot
    refine h.slot_move _ _ _ _ False.elim ?_ hslot False.elim
    rw [hseg.semSToMRequest, hpc]
    exact le_rfl
  | received hpc =>
    simp only [hpc, SlotOk] at hslot
    obtain ⟨rfl, hunserved⟩ := hslot
    have hseg := (receiveParameters_sameControl s.seg).semSToMRequest
    simp only [parameters, hpc, slotParameters] at hb
    have hdrained := h.drained (by simp [hpc, slotParameters])
    have hcycle : cycleParameters s.cycle = 0 := by omega
    refine ⟨?_, cycleOk_of_idle hcycle, rfl, h.handler, h.toSlave,
      fun x hx ↦ .inl (hdrained.toMaster x hx), fun x hx ↦ .inl (hdrained.wake x hx),
      False.elim, List.nodup_cons.mpr ⟨hunserved, h.handled_nodup⟩,
      List.forall_mem_cons.mpr ⟨le_rfl, h.handled_le⟩⟩
    simp only [State.effect, parameters, slotParameters, hseg]
    omega
  | acknowledged hpc =>
    simp only [hpc, SlotOk] at hslot
    exact h.slot_move _ _ _ _ False.elim (by rw [hpc]; exact le_rfl) hslot False.elim
  | acknowledgeSent hpc =>
    simp only [parameters, hpc, slotParameters] at hb
    refine ⟨?_, h.cycle, trivial, h.handler, ?_, h.toMaster, h.wake, False.elim,
      h.handled_nodup, h.handled_le⟩
    · simp only [if_true, State.effect, parameters, slotParameters, List.countP_append,
        List.countP_singleton, acknowledges]
      omega
    · exact List.forall_mem_append.mpr ⟨h.toSlave, by simp [acknowledges]⟩
  | zeroed hpc =>
    have hzero := h.detaching (by rw [hpc]; trivial)
    refine ⟨?_, h.cycle, trivial, h.handler, h.toSlave, h.toMaster, h.wake, False.elim,
      h.handled_nodup, h.handled_le⟩
    simp only [State.effect, parameters, hpc, slotParameters, Shmseg.zero] at hzero ⊢
    omega
  | loweredMToS hpc hpos =>
    refine h.slot_move _ _ _ _ (fun _ ↦ rfl) le_rfl hslot fun hd ↦ ?_
    exact ⟨le_rfl, .inl hd⟩
  | loweredSToM hpc hpos =>
    refine h.slot_move _ _ _ _ (fun _ ↦ rfl) ?_ hslot fun hd ↦ ⟨le_rfl, .inl hd⟩
    exact Nat.add_le_add_right (Nat.sub_le _ _) _
  | postedSToM hpc =>
    refine h.slot_move _ _ _ _ False.elim ?_ trivial False.elim
    rw [hpc]
    exact le_rfl
  | _ hpc => exact h.slot_move _ _ _ _ False.elim (by simp [hpc, slotParameters]) trivial False.elim

theorem syncStep_inv {pid : Pid} {request : Request} {s t : State} (hc : CommandInv p q s)
    (h : ParameterInv s) (hs : syncStep pid request s = some t) : ParameterInv t := by
  cases syncStep_move hs with
  | moved =>
    exact ⟨h.budget, h.cycle, h.slot, h.handler, h.toSlave, h.toMaster, h.wake, h.detaching,
      h.handled_nodup, h.handled_le⟩
  | claimed _ _ hexited =>
    have hb := h.budget
    simp only [parameters, hexited, slotParameters] at hb
    exact ⟨hb, h.cycle, trivial, h.handler, h.toSlave, h.toMaster, h.wake, False.elim,
      h.handled_nodup, h.handled_le⟩
  | acquired =>
    exact ⟨h.budget, h.cycle, h.slot, h.handler, h.toSlave, h.toMaster, h.wake, h.detaching,
      h.handled_nodup, h.handled_le⟩
  | written hpc =>
    refine ⟨h.budget, h.cycle, h.slot, h.handler, h.toSlave, h.toMaster, h.wake, fun hd ↦ ?_,
      h.handled_nodup, h.handled_le⟩
    have hb := hc.budget
    simp only [commands, hpc, syncCommands, slotCommands_of_detaching hd] at hb
    omega
  | killed hpc =>
    have hb := h.budget
    have hcount : (s.toSlave ++ [Signal.command]).countP acknowledges =
        s.toSlave.countP acknowledges := by
      simp [List.countP_append, acknowledges]
    refine ⟨?_, h.cycle, h.slot, h.handler, ?_, h.toMaster, h.wake, ?_, h.handled_nodup,
      h.handled_le⟩
    · simpa only [parameters, hcount] using hb
    · exact List.forall_mem_append.mpr ⟨h.toSlave, by simp⟩
    · intro hd
      simpa only [parameters, hcount] using h.detaching hd

theorem deliverStep_inv {pid : Pid} {s t : State} (h : ParameterInv s)
    (hs : deliverStep pid s = some t) : ParameterInv t := by
  have hb := h.budget
  have hmaster := h.toMaster
  have hdetaching := h.detaching
  simp only [deliverStep] at hs
  split at hs
  · cases hs
  · rename_i signal toMaster hsignals
    simp only [parameters, hsignals, parameterSignals_cons, List.mem_cons] at hb hmaster hdetaching
    split_ifs at hs
    all_goals rw [← Option.some.inj hs]
    · refine ⟨?_, h.cycle, h.slot, h.handler, h.toSlave, fun x hx ↦ hmaster x (.inr hx), ?_,
        fun hd ↦ ?_, h.handled_nodup, h.handled_le⟩
      · simp only [parameters, parameterSignals_append, parameterSignals_cons]
        simp only [parameterSignals, List.countP_nil] at hb ⊢
        omega
      · refine List.forall_mem_append.mpr ⟨h.wake, fun x hx ↦ ?_⟩
        exact hmaster x (.inl (List.mem_singleton.mp hx))
      · have hzero := hdetaching hd
        simp only [parameters, parameterSignals_append, parameterSignals_cons]
        simp only [parameterSignals, List.countP_nil] at hzero ⊢
        omega
    · refine ⟨?_, h.cycle, h.slot, h.handler, h.toSlave, fun x hx ↦ hmaster x (.inr hx), h.wake,
        fun hd ↦ ?_, h.handled_nodup, h.handled_le⟩
      · simp only [parameters]
        omega
      · have hzero := hdetaching hd
        simp only [parameters]
        omega

theorem ParameterInv.dead {s : State} (h : ParameterInv s) (slept : List Usleep) :
    ParameterInv { s with history.slept := slept, alive := false } :=
  ⟨h.budget, h.cycle, h.slot, h.handler, h.toSlave, h.toMaster, h.wake, h.detaching,
    h.handled_nodup, h.handled_le⟩

theorem ParameterInv.handler_move {s : State} (h : ParameterInv s) (seg : Shmseg)
    (self : SlaveContext) (runs : List (ℕ × Request × Response)) (dispatched posted : List ℕ)
    (pc : HandlerPc) (hrequest : seg.reqMToS = s.seg.reqMToS)
    (hsem : seg.semSToMRequest + handlerParameters pc ≤
      s.seg.semSToMRequest + handlerParameters s.handler)
    (hb : handlerParameters pc ≤ handlerParameters s.handler) (hok : HandlerOk pc) :
    ParameterInv { s with
      seg := seg
      self := self
      history.runs := runs
      history.dispatched := dispatched
      history.posted := posted
      handler := pc } := by
  have hbudget := h.budget
  refine ⟨?_, h.cycle, h.slot, hok, h.toSlave, h.toMaster, h.wake, fun hd ↦ ?_,
    h.handled_nodup, h.handled_le⟩
  · simp only [parameters] at hbudget ⊢
    omega
  · rw [hrequest] at hd
    have hzero := h.detaching hd
    simp only [parameters] at hzero ⊢
    omega

theorem ParameterInv.handler_serve {s : State} (h : ParameterInv s) (seg : Shmseg)
    (self : SlaveContext) (runs : List (ℕ × Request × Response)) (dispatched : List ℕ)
    (pc : HandlerPc) (hrequest : seg.reqMToS = s.seg.reqMToS)
    (hsem : seg.semSToMRequest = s.seg.semSToMRequest) (hidle : handlerParameters pc = 0)
    (hok : HandlerOk pc) :
    ParameterInv { s with
      seg := seg
      self := self
      history.runs := runs
      history.dispatched := dispatched
      handler := pc } :=
  h.handler_move seg self runs dispatched s.history.posted pc hrequest (by omega) (by omega) hok

theorem handlerStep_inv {pid : Pid} {s t : State} (h : ParameterInv s)
    (hok : parametersDecoded s .handler = true) (hs : handlerStep pid s = some t) :
    ParameterInv t := by
  have hb := h.budget
  have hh := h.handler
  cases handlerStep_move hs with
  | crashed => exact h.dead s.history.slept
  | received hpc hsignals =>
    have hsent := h.toSlave
    have hdetaching := h.detaching
    simp only [parameters, hpc, handlerParameters, hsignals, List.countP_cons,
      List.mem_cons] at hb hsent hdetaching
    refine ⟨?_, h.cycle, h.slot, hsent _ (.inl rfl), fun x hx ↦ hsent x (.inr hx), h.toMaster,
      h.wake, fun hd ↦ ?_, h.handled_nodup, h.handled_le⟩
    · simp only [parameters, handlerParameters]
      omega
    · have hzero := hdetaching hd
      simp only [parameters, handlerParameters]
      omega
  | attached hpc | found hpc =>
    simp only [hpc, HandlerOk] at hh
    exact h.handler_move _ _ _ _ _ _ rfl (by rw [hpc]; rfl) (by rw [hpc]; rfl) hh
  | responseDecoded hpc hzero =>
    simp only [hpc, HandlerOk, parametersDecoded, decide_eq_true_eq] at hh hok
    have hack := hh.resolve_left (hok.resolve_left (not_not_intro hzero))
    refine h.handler_move _ _ _ _ _ _ rfl ?_ ?_ trivial
    · simp [hpc, handlerParameters, hack]
    · simp [hpc, handlerParameters, hack]
  | responseExcluded hpc hpos =>
    simp only [hpc, HandlerOk] at hh
    refine h.handler_serve _ _ _ _ _ rfl rfl rfl (hh.resolve_right fun hack ↦ ?_)
    simp only [parameters, hpc, handlerParameters, if_pos hack] at hb
    omega
  | requestDecoded hpc hzero =>
    simp only [hpc, HandlerOk] at hh
    exact h.handler_serve _ _ _ _ _ rfl rfl rfl hh
  | unassigned hpc | nothingUnhandled hpc | cleared hpc =>
    exact h.handler_serve _ _ _ _ _ rfl rfl rfl trivial
  | responseRead hpc =>
    exact h.handler_move _ _ _ _ _ _ rfl (by rw [hpc]; rfl) (by rw [hpc]; rfl) trivial
  | responsePosted hpc =>
    exact h.handler_move _ _ _ _ _ _ rfl (by rw [hpc]; rfl) (Nat.zero_le _) trivial
  | dispatched hpc hdispatch =>
    refine h.handler_serve _ _ _ _ _ rfl rfl ?_ ?_
    · cases hdispatch <;> rfl
    · cases hdispatch <;> trivial
  | served hserve =>
    refine h.handler_serve _ _ _ _ _ hserve.frame.reqMToS hserve.frame.semSToMRequest ?_ ?_
    · cases hserve <;> rfl
    · cases hserve <;> trivial
  | responded hpc => exact h.handler_serve _ _ _ _ _ rfl rfl rfl trivial
  | answered hpc =>
    rename_i request response k
    have hidle : handlerParameters
        (if request = .disconnectSlave then .clearPointer else .sigwaitinfo) = 0 := by
      split <;> rfl
    have hdetaching := h.detaching
    simp only [parameters, hpc, handlerParameters] at hb hdetaching
    refine ⟨?_, h.cycle, h.slot, by split <;> trivial, h.toSlave, ?_, h.wake, fun hd ↦ ?_,
      h.handled_nodup, h.handled_le⟩
    · simpa [parameters, hidle, parameterSignals] using hb
    · exact List.forall_mem_append.mpr ⟨h.toMaster, by simp⟩
    · simpa [parameters, hidle, parameterSignals] using hdetaching hd

theorem ParameterInv.cycle_move {s : State} (h : ParameterInv s) (seg : Shmseg)
    (self : SlaveContext) (withdrawn posted : List ℕ) (slept : List Usleep) (pc : CyclePc)
    (sleepUs : Int) (hrequest : seg.reqMToS = s.seg.reqMToS)
    (hsem : seg.semSToMRequest + cycleParameters pc ≤
      s.seg.semSToMRequest + cycleParameters s.cycle)
    (hb : cycleParameters pc ≤ cycleParameters s.cycle) (hok : CycleOk s.history pc) :
    ParameterInv { s with
      seg := seg
      self := self
      history.withdrawn := withdrawn
      history.posted := posted
      history.slept := slept
      cycle := pc
      sleepUs := sleepUs } := by
  have hbudget := h.budget
  refine ⟨?_, hok, h.slot, h.handler, h.toSlave, h.toMaster, h.wake, fun hd ↦ ?_,
    h.handled_nodup, h.handled_le⟩
  · simp only [parameters] at hbudget ⊢
    omega
  · rw [hrequest] at hd
    have hzero := h.detaching hd
    simp only [parameters] at hzero ⊢
    omega

theorem ParameterInv.cycle_round {s : State} (h : ParameterInv s) (seg : Shmseg)
    (self : SlaveContext) (slept : List Usleep) (pc : CyclePc) (sleepUs : Int)
    (hrequest : seg.reqMToS = s.seg.reqMToS)
    (hsem : seg.semSToMRequest = s.seg.semSToMRequest) (hidle : cycleParameters pc = 0) :
    ParameterInv { s with
      seg := seg
      self := self
      history.slept := slept
      cycle := pc
      sleepUs := sleepUs } :=
  h.cycle_move seg self s.history.withdrawn s.history.posted slept pc sleepUs hrequest (by omega)
    (by omega) (cycleOk_of_idle hidle)

theorem cycleStep_inv {usleep : Bool} {rand : ℕ} {now : Timeval} {s t : State}
    (hc : CommandInv True q s) (h : ParameterInv s)
    (hok : parametersDecoded s (.cycle usleep rand now) = true)
    (hs : cycleStep usleep rand now s = some t) : ParameterInv t := by
  have hb := h.budget
  have hcycle := h.cycle
  have hundetached : ¬ Detaching s.seg.reqMToS s.slot :=
    fun hd ↦ cycleStep_parked (hc.detaching_parked hd) hs
  cases cycleStep_move hs with
  | crashed => exact h.dead _
  | usleepFailed =>
    exact h.cycle_round _ _ _ _ _ (setError_sameControl _ _).reqMToS
      (setError_sameControl _ _).semSToMRequest rfl
  | stored =>
    have hseg := storeParameters_sameControl rand s.seg
    exact h.cycle_round _ _ _ _ _ hseg.reqMToS hseg.semSToMRequest rfl
  | calculated =>
    have hseg := calculate_sameControl now s.self s.seg
    exact h.cycle_round _ _ _ _ _ hseg.reqMToS hseg.semSToMRequest rfl
  | requestTaken hpc hsem =>
    have hdrained := h.drained (by omega)
    simp only [parameters, hpc, cycleParameters] at hb
    have hslot : slotParameters s.slot = 0 := by omega
    refine ⟨?_, fun hmem ↦ ?_, slotOk_of_idle hslot h.slot, h.handler, h.toSlave,
      fun x hx ↦ .inl (hdrained.toMaster x hx), fun x hx ↦ .inl (hdrained.wake x hx),
      fun hd ↦ absurd hd hundetached, h.handled_nodup,
      fun k hk ↦ (h.handled_le k hk).trans (Nat.le_succ _)⟩
    · simp only [parameters, cycleParameters]
      omega
    · exact Nat.not_succ_le_self _ (h.handled_le _ hmem)
  | gaveUp hpc hzero hexpired =>
    simp only [hpc, parametersDecoded, decide_eq_true_eq] at hok
    omega
  | stopFound hpc | permitFound hpc =>
    simp only [hpc, CycleOk] at hcycle
    exact h.cycle_move _ _ _ _ _ _ _ rfl (by rw [hpc]; rfl) (by rw [hpc]; rfl) hcycle
  | withdrawn hpc =>
    exact h.cycle_move _ _ _ _ _ _ _ rfl (by rw [hpc]; rfl) (Nat.zero_le _) trivial
  | requestWritten hpc =>
    simp only [hpc, CycleOk] at hcycle
    exact h.cycle_move _ _ _ _ _ _ _ rfl (by rw [hpc]; rfl) (by rw [hpc]; rfl) hcycle
  | signalled hpc =>
    simp only [hpc, CycleOk] at hcycle
    simp only [parameters, hpc, cycleParameters] at hb
    refine ⟨?_, trivial, h.slot, h.handler, h.toSlave, ?_, h.wake,
      fun hd ↦ absurd hd hundetached, h.handled_nodup, h.handled_le⟩
    · simp only [parameters, cycleParameters, parameterSignals_append, parameterSignals_cons]
      simp only [parameterSignals, List.countP_nil] at hb ⊢
      simp only [reduceCtorEq, if_false]
      omega
    · refine List.forall_mem_append.mpr ⟨h.toMaster, fun x hx ↦ .inr ?_⟩
      exact ⟨List.mem_singleton.mp hx, hcycle⟩
  | _ => exact h.cycle_round _ _ _ _ _ rfl rfl rfl

theorem initial_inv (name : CString.Mem) (availableParameters : ℕ) :
    ParameterInv (initial name availableParameters) := by
  refine ⟨?_, trivial, trivial, trivial, ?_, ?_, ?_, False.elim, List.nodup_nil, ?_⟩
  all_goals simp [initial, Shmseg.initial, parameters, cycleParameters, slotParameters,
    handlerParameters, parameterSignals]

/-- Signals that belong to a parameter request are not taken for commands or
their answers. -/
theorem ParameterInv.decoded {s : State} (h : ParameterInv s) (e : Event) :
    commandsDecoded s e = true := by
  have hslot := h.slot
  have hhandler := h.handler
  cases e with
  | slot mustChange =>
    cases hpc : s.slot with
    | getvalueMToS signal =>
      simp only [hpc, SlotOk] at hslot
      simp [commandsDecoded, hpc, hslot]
    | _ => simp [commandsDecoded, hpc]
  | handler =>
    cases hpc : s.handler with
    | getvalueMToS signal =>
      simp only [hpc, HandlerOk] at hhandler
      simp [commandsDecoded, hpc, hhandler]
    | _ => simp [commandsDecoded, hpc]
  | _ => rfl

theorem step_inv {pid : Pid} {s t : State} {e : Event} (hc : CommandInv True q s)
    (h : ParameterInv s) (hok : parametersDecoded s e = true) (hs : step pid s e = some t) :
    ParameterInv t := by
  cases e with
  | configure requestedParameters communicationCycleUs =>
    rw [← Option.some.inj hs]
    exact ⟨h.budget, h.cycle, h.slot, h.handler, h.toSlave, h.toMaster, h.wake, h.detaching,
      h.handled_nodup, h.handled_le⟩
  | sync request => exact syncStep_inv hc h hs
  | slot mustChange => exact slotStep_inv hc h hok hs
  | deliver => exact deliverStep_inv h hs
  | handler =>
    obtain ⟨-, hs⟩ := Option.ite_none_right_eq_some.mp hs
    exact handlerStep_inv h hok hs
  | cycle usleep rand now =>
    obtain ⟨-, hs⟩ := Option.ite_none_right_eq_some.mp hs
    exact cycleStep_inv hc h hok hs

theorem step_invs {pid : Pid} {s t : State} {e : Event}
    (h : CommandInv True False s ∧ ParameterInv s) (hok : parametersDecoded s e = true)
    (hparked : disconnectsParked s e = true) (hs : step pid s e = some t) :
    CommandInv True False t ∧ ParameterInv t :=
  ⟨SlotCommand.step_inv h.1 ⟨h.2.decoded e, fun _ ↦ hparked, False.elim⟩ hs,
    step_inv h.1 h.2 hok hs⟩

end RealTimeCyclic.SlotParameter
