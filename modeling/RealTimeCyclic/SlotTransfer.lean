import RealTimeCyclic.ParameterHandOver
import RealTimeCyclic.SlotParameter

namespace RealTimeCyclic.SlotTransfer

open Shm Slave SlotThread Slot Transition SlotCommand SlotParameter
open ParameterHandOver (letters letters_head requestedString requestedInt requestedBool writeString
  writeInt writeBool storeParameters_writes)

/-- A parameter request that the master has handled: the round and the random number last
drawn by the slave, the segment afterwards and the errors logged. -/
structure Handed where
  signal : Signal
  drawn : Option (ℕ × ℕ)
  seg : Shmseg
  errors : List String

/-- What the transfer is judged by. -/
structure Notes where
  drawn : Option (ℕ × ℕ) := none
  sent : Bool := false
  handed : List Handed := []

/-- A round that is withdrawn for a STOP is not handed over. -/
def note (s : State) : Event → Notes → Notes
  | .cycle _ rand _, n =>
    match s.cycle with
    | .store => if s.self.shmseg then { n with drawn := some (s.history.taken + 1, rand) } else n
    | .withdraw _ => if s.self.shmseg then { n with drawn := none } else n
    | .kill _ _ => { n with sent := true }
    | _ => n
  | .slot _, n =>
    match s.slot with
    | .requestSwitch signal =>
      if s.seg.reqSToM = .signalMasterParameter then
        let (seg, errors) := receiveParameters s.seg
        { drawn := none, sent := false, handed := ⟨signal, n.drawn, seg, errors⟩ :: n.handed }
      else n
    | _ => n
  | _, n => n

abbrev Run := Observed State Notes

def step (pid : Pid) : Run → Event → Option Run := observe (Slot.step pid) note

def initial (name : CString.Mem) (availableParameters : ℕ) : Run :=
  ⟨Slot.initial name availableParameters, {}⟩

/-- The master's copies of what it asked for are the values drawn. -/
structure Recorded (rand : ℕ) (seg : Shmseg) : Prop where
  string : requestedString seg = true → seg.lastKnownStringValue = letters rand
  int : requestedInt seg = true → seg.lastKnownIntValue = rand
  bool : requestedBool seg = true → seg.lastKnownBoolValue = (rand % 2).toUInt8

/-- Each request that the master handles brings it the values of its own round, and a new
round overwrites none that are still to be handed over. -/
structure Transferred (o : Run) : Prop where
  handed : ∀ h ∈ o.notes.handed, ∃ k rand, h.signal = .parameter k ∧ h.drawn = some (k, rand) ∧
    Recorded rand h.seg ∧ h.errors = []
  kept : o.state.cycle = .store → o.notes.sent = false → o.notes.drawn = none

/-- No signal is taken for another, values are drawn only when the last request has been
handled, and what is requested does not change between the two. -/
def transferKept (o : Run) (e : Event) : Bool :=
  parametersDecoded o.state e && disconnectsParked o.state e &&
    match e with
    | .cycle _ _ _ => o.state.cycle = .store → o.notes.sent = false
    | .configure requestedParameters _ =>
      o.notes.drawn ≠ none → requestedParameters = o.state.seg.requestedParameters
    | _ => true

section Values

variable {rand : ℕ} {seg : Shmseg}

/-- The values drawn wait in the segment. -/
structure Written (rand : ℕ) (seg : Shmseg) : Prop where
  string : requestedString seg = true → seg.stringValue = letters rand
  int : requestedInt seg = true → seg.intValue = rand
  bool : requestedBool seg = true → seg.boolValue = (rand % 2).toUInt8

/-- What the slave and the master exchange in a round. -/
structure SamePayload (a b : Shmseg) : Prop where
  requestedParameters : a.requestedParameters = b.requestedParameters
  stringValue : a.stringValue = b.stringValue
  intValue : a.intValue = b.intValue
  boolValue : a.boolValue = b.boolValue

theorem SamePayload.refl (seg : Shmseg) : SamePayload seg seg := ⟨rfl, rfl, rfl, rfl⟩

theorem Written.congr {seg' : Shmseg} (h : Written rand seg) (hsame : SamePayload seg' seg) :
    Written rand seg' := by
  refine ⟨fun hr ↦ ?_, fun hr ↦ ?_, fun hr ↦ ?_⟩
  · rw [hsame.stringValue]
    exact h.string (by rwa [requestedString, ← hsame.requestedParameters])
  · rw [hsame.intValue]
    exact h.int (by rwa [requestedInt, ← hsame.requestedParameters])
  · rw [hsame.boolValue]
    exact h.bool (by rwa [requestedBool, ← hsame.requestedParameters])

theorem setError_payload (error : SlaveError) (seg : Shmseg) :
    SamePayload (setError error seg) seg := by
  unfold setError
  split
  · exact ⟨rfl, rfl, rfl, rfl⟩
  · exact .refl seg

theorem calculate_payload (now : Timeval) (self : SlaveContext) (seg : Shmseg) :
    SamePayload (calculateParameterCommunicationInterval now self seg).2 seg := by
  unfold calculateParameterCommunicationInterval
  dsimp only
  split_ifs
  all_goals first | exact .refl seg | exact setError_payload _ seg

theorem handleChangeName_payload (self : SlaveContext) (seg : Shmseg) :
    SamePayload (handleChangeNameSlaveRequest self seg).2.1 seg := by
  have hname (name : CString.Mem) (error : SlaveError) :
      SamePayload (setError error { seg with name := name }) seg := by
    have hsame := setError_payload error { seg with name := name }
    exact ⟨hsame.requestedParameters, hsame.stringValue, hsame.intValue, hsame.boolValue⟩
  unfold handleChangeNameSlaveRequest
  dsimp only
  split_ifs
  · exact hname _ _
  · exact hname _ _
  · exact ⟨rfl, rfl, rfl, rfl⟩
  · exact ⟨rfl, rfl, rfl, rfl⟩

theorem serve_payload {s : State} {self : SlaveContext} {pc : HandlerPc}
    (h : Serve s self seg pc) : SamePayload seg s.seg := by
  cases h with
  | changeName => exact handleChangeName_payload s.self s.seg
  | alreadyStarted | alreadyStopped | unrecognized => exact setError_payload _ s.seg
  | _ => exact ⟨rfl, rfl, rfl, rfl⟩

/-- A string longer than the letters would keep its tail. -/
theorem storeParameters_written (hshort : seg.stringValue.drop 3 = []) :
    Written rand (storeParameters rand seg) ∧
      (storeParameters rand seg).stringValue.drop 3 = [] := by
  have hdrop : (letters rand).drop 3 = [] := rfl
  rw [storeParameters_writes]
  unfold writeBool writeInt writeString
  constructor
  · constructor
    all_goals
      simp only [requestedString, requestedInt, requestedBool]
      split_ifs <;> simp_all
  · split_ifs <;> simp_all

theorem receiveString_recorded (h : requestedString seg = true → seg.stringValue = letters rand) :
    (receiveString seg).2 = [] ∧
      (requestedString seg = true → (receiveString seg).1.lastKnownStringValue = letters rand) := by
  unfold receiveString
  by_cases hreq : seg.requestedParameters &&& stringParameterBit ≠ 0
  · have hvalue := h (decide_eq_true hreq)
    have hdefined : (letters rand).headD 0 ≠ stringValueUndefined := letters_head rand
    rw [if_pos hreq, hvalue, if_neg hdefined]
    exact ⟨rfl, fun _ ↦ rfl⟩
  · rw [if_neg hreq]
    exact ⟨rfl, fun hr ↦ absurd (of_decide_eq_true hr) hreq⟩

theorem receiveInt_recorded {r : Shmseg × List String} (hlog : r.2 = [])
    (h : requestedInt r.1 = true → r.1.intValue = rand) :
    (receiveInt r).2 = [] ∧
      (requestedInt r.1 = true → (receiveInt r).1.lastKnownIntValue = rand) := by
  unfold receiveInt
  by_cases hreq : r.1.requestedParameters &&& intParameterBit ≠ 0
  · have hvalue := h (decide_eq_true hreq)
    have hdefined : r.1.intValue ≠ intValueUndefined := by
      rw [hvalue, intValueUndefined]
      omega
    rw [if_pos hreq, if_neg hdefined]
    exact ⟨hlog, fun _ ↦ hvalue⟩
  · rw [if_neg hreq]
    exact ⟨hlog, fun hr ↦ absurd (of_decide_eq_true hr) hreq⟩

theorem receiveBool_recorded {r : Shmseg × List String} (hlog : r.2 = [])
    (h : requestedBool r.1 = true → r.1.boolValue = (rand % 2).toUInt8) :
    (receiveBool r).2 = [] ∧
      (requestedBool r.1 = true → (receiveBool r).1.lastKnownBoolValue = (rand % 2).toUInt8) := by
  unfold receiveBool
  by_cases hreq : r.1.requestedParameters &&& boolParameterBit ≠ 0
  · have hvalue := h (decide_eq_true hreq)
    have hdefined : (r.1.boolValue.toNat : Int) ≠ boolValueUndefined := by
      rw [boolValueUndefined]
      omega
    rw [if_pos hreq, if_neg hdefined]
    exact ⟨hlog, fun _ ↦ hvalue⟩
  · rw [if_neg hreq]
    exact ⟨hlog, fun hr ↦ absurd (of_decide_eq_true hr) hreq⟩

theorem receiveParameters_recorded (h : Written rand seg) :
    Recorded rand (receiveParameters seg).1 ∧ (receiveParameters seg).2 = [] := by
  have hstring := receiveString_recorded h.string
  obtain ⟨_, _, hs⟩ := receiveString_payload seg
  have hint := receiveInt_recorded hstring.1 fun hr ↦ by
    rw [hs] at hr ⊢
    exact h.int hr
  obtain ⟨_, _, hi⟩ := receiveInt_payload (receiveString seg)
  have hbool := receiveBool_recorded hint.1 fun hr ↦ by
    rw [hi, hs] at hr ⊢
    exact h.bool hr
  obtain ⟨_, _, hb⟩ := receiveBool_payload (receiveInt (receiveString seg))
  rw [receiveParameters]
  refine ⟨⟨fun hr ↦ ?_, fun hr ↦ ?_, fun hr ↦ ?_⟩, hbool.1⟩
  · rw [hb, hi] at hr ⊢
    rw [hs] at hr
    exact hstring.2 hr
  · rw [hb] at hr ⊢
    rw [hi] at hr
    exact hint.2 hr
  · rw [hb] at hr
    exact hbool.2 hr

end Values

section Carried

def drawing : CyclePc → Bool
  | .calculate | .postAllow | .evaluate | .segment _ | .trywait _ _ _ => true
  | _ => false

def sending : CyclePc → Bool
  | .getvalueAllow _ _ | .withdraw _ | .writeRequest _ _ | .kill _ _ => true
  | _ => false

def slotSignal : Pc → Option Signal
  | .requestErrors signal | .getvalueSToM signal | .requestConnected signal
  | .requestSwitch signal => some signal
  | _ => none

def InFlight (s : State) (k : ℕ) : Prop :=
  slotSignal s.slot = some (.parameter k) ∨ .parameter k ∈ s.toMaster ∨ .parameter k ∈ s.wake

def Carried (s : State) (k : ℕ) : Prop :=
  drawing s.cycle = true ∧ k = s.history.taken + 1 ∨
    sending s.cycle = true ∧ k = s.history.taken ∨ InFlight s k

structure TransferInv (o : Run) : Prop where
  short : o.state.seg.stringValue.drop 3 = []
  reset : ∀ k, o.state.slot = .resetInit k → Parked o.state
  written : ∀ k, Carried o.state k →
    ∃ rand, o.notes.drawn = some (k, rand) ∧ Written rand o.state.seg
  unsent : o.notes.sent = false → ∀ k, ¬ InFlight o.state k
  quiet : drawing o.state.cycle = true ∨ sending o.state.cycle = true → o.notes.sent = false
  drawn : o.notes.drawn ≠ none →
    (drawing o.state.cycle = true ∨ sending o.state.cycle = true) ∨ o.notes.sent = true
  handed : ∀ h ∈ o.notes.handed, ∃ k rand, h.signal = .parameter k ∧ h.drawn = some (k, rand) ∧
    Recorded rand h.seg ∧ h.errors = []

theorem TransferInv.transferred {o : Run} (h : TransferInv o) : Transferred o := by
  refine ⟨h.handed, fun hpc hsent ↦ by_contra fun hdrawn ↦ ?_⟩
  have hcases := h.drawn hdrawn
  simp [hpc, drawing, sending, hsent] at hcases

variable {pid : Pid} {s t : State} {n : Notes}

theorem TransferInv.keep (h : TransferInv ⟨s, n⟩) (hpayload : SamePayload t.seg s.seg)
    (hcycle : t.cycle = s.cycle) (htaken : t.history.taken = s.history.taken)
    (hflight : ∀ k, InFlight t k → InFlight s k)
    (hreset : ∀ k, t.slot = .resetInit k → Parked t) : TransferInv ⟨t, n⟩ := by
  refine ⟨?_, hreset, fun k hk ↦ ?_, fun hsent k hk ↦ h.unsent hsent k (hflight k hk),
    fun hd ↦ h.quiet ?_, fun hn ↦ ?_, h.handed⟩
  · exact hpayload.stringValue ▸ h.short
  · unfold Carried at hk
    rw [hcycle, htaken] at hk
    obtain ⟨rand, hdrawn, hwritten⟩ := h.written k (hk.imp_right (Or.imp_right (hflight k)))
    exact ⟨rand, hdrawn, hwritten.congr hpayload⟩
  · exact hcycle ▸ hd
  · have hcases := h.drawn hn
    dsimp only at hcases ⊢
    rwa [hcycle]

theorem not_carried (hparked : Parked s) (hdrained : Drained s) (hslot : slotSignal s.slot = none)
    (k : ℕ) : ¬ Carried s k := by
  rintro (⟨hd, -⟩ | ⟨hsend, -⟩ | hsignal | hmem | hmem)
  · simp [hparked.1, drawing] at hd
  · simp [hparked.1, sending] at hsend
  · simp [hslot] at hsignal
  · exact absurd (hdrained.toMaster _ hmem) (by simp)
  · exact absurd (hdrained.wake _ hmem) (by simp)

theorem handlerStep_idle (hidle : handlerCommands s.handler = 0) (hs : handlerStep pid s = some t) :
    t.self.allowCommunicationCycle = s.self.allowCommunicationCycle ∧ t.cycle = s.cycle := by
  cases handlerStep_move hs with
  | served hserve => cases hserve <;> simp_all [handlerCommands]
  | _ => exact ⟨rfl, rfl⟩

theorem handlerStep_transfer (hc : CommandInv True False s) (h : TransferInv ⟨s, n⟩)
    (hs : handlerStep pid s = some t) : TransferInv ⟨t, n⟩ := by
  have hreset (k : Option ℕ) (hslot : s.slot = .resetInit k) : Parked t := by
    have halone := hc.slotAlone (by simp [hslot, slotCommands])
    obtain ⟨hallow, hcycle⟩ := handlerStep_idle halone.handler hs
    have hparked : Parked s := h.reset k hslot
    exact ⟨hcycle.trans hparked.1, hallow.trans hparked.2⟩
  cases handlerStep_move hs with
  | served hserve => exact h.keep (serve_payload hserve) rfl rfl (fun _ hk ↦ hk) hreset
  | answered hpc =>
    exact h.keep (.refl s.seg) rfl rfl (fun k hk ↦ by simpa [InFlight] using hk) hreset
  | _ => exact h.keep ⟨rfl, rfl, rfl, rfl⟩ rfl rfl (fun _ hk ↦ hk) hreset

theorem syncStep_transfer {request : Request} (h : TransferInv ⟨s, n⟩)
    (hs : syncStep pid request s = some t) : TransferInv ⟨t, n⟩ := by
  cases syncStep_move hs with
  | claimed _ _ hexited =>
    refine h.keep ⟨rfl, rfl, rfl, rfl⟩ rfl rfl (fun k hk ↦ ?_) (by rintro _ ⟨⟩)
    exact .inr (hk.resolve_left (by simp [slotSignal]))
  | _ => exact h.keep ⟨rfl, rfl, rfl, rfl⟩ rfl rfl (fun _ hk ↦ hk) h.reset

theorem deliverStep_transfer (h : TransferInv ⟨s, n⟩) (hs : deliverStep pid s = some t) :
    TransferInv ⟨t, n⟩ := by
  unfold deliverStep at hs
  split at hs
  · cases hs
  · rename_i signal toMaster hsignals
    split_ifs at hs
    all_goals
      obtain rfl := Option.some.inj hs
      refine h.keep (.refl s.seg) rfl rfl (fun k hk ↦ ?_) h.reset
      simp only [InFlight, hsignals, List.mem_cons, List.mem_append, List.not_mem_nil,
        or_false] at hk ⊢
      tauto

theorem configure_transfer {requestedParameters : ℕ} {communicationCycleUs : Int}
    (h : TransferInv ⟨s, n⟩)
    (hok : n.drawn ≠ none → requestedParameters = s.seg.requestedParameters) :
    TransferInv ⟨{ s with
      seg.requestedParameters := requestedParameters
      seg.communicationCycleUs := communicationCycleUs }, n⟩ := by
  refine ⟨h.short, h.reset, fun k hk ↦ ?_, h.unsent, h.quiet, h.drawn, h.handed⟩
  obtain ⟨rand, hdrawn, hwritten⟩ := h.written k hk
  refine ⟨rand, hdrawn, hwritten.congr ⟨hok ?_, rfl, rfl, rfl⟩⟩
  dsimp only at hdrawn
  rw [hdrawn]
  exact Option.some_ne_none _

theorem receiveParameters_short (hshort : s.seg.stringValue.drop 3 = []) :
    (receiveParameters s.seg).1.stringValue.drop 3 = [] := by
  rw [receiveParameters]
  obtain ⟨_, _, hb⟩ := receiveBool_payload (receiveInt (receiveString s.seg))
  obtain ⟨_, _, hi⟩ := receiveInt_payload (receiveString s.seg)
  rw [hb, hi]
  unfold receiveString
  split_ifs
  · exact hshort
  · rfl
  · exact hshort

theorem received_transfer {k : ℕ} (hp : ParameterInv s) (h : TransferInv ⟨s, n⟩)
    (hpc : s.slot = .requestSwitch (.parameter k)) :
    TransferInv ⟨{ s with
      seg := (receiveParameters s.seg).1
      slot := .requestAck (.parameter k)
      history.handled := k :: s.history.handled },
      { drawn := none
        sent := false
        handed := ⟨.parameter k, n.drawn, (receiveParameters s.seg).1,
          (receiveParameters s.seg).2⟩ :: n.handed }⟩ := by
  have hdrained := hp.drained (by simp [hpc, slotParameters])
  have hflight : InFlight s k := .inl (by rw [hpc]; rfl)
  obtain ⟨rand, hdrawn, hwritten⟩ := h.written k (.inr (.inr hflight))
  obtain ⟨hrecorded, herrors⟩ := receiveParameters_recorded hwritten
  have hidle : ¬ (drawing s.cycle = true ∨ sending s.cycle = true) :=
    fun hd ↦ h.unsent (h.quiet hd) k hflight
  have hnone (j : ℕ) : ¬ InFlight { s with
      seg := (receiveParameters s.seg).1
      slot := .requestAck (.parameter k)
      history.handled := k :: s.history.handled } j := by
    rintro (hsignal | hmem | hmem)
    · cases hsignal
    · exact absurd (hdrained.toMaster _ hmem) (by simp)
    · exact absurd (hdrained.wake _ hmem) (by simp)
  refine ⟨receiveParameters_short h.short, by rintro _ ⟨⟩, fun j hj ↦ ?_, fun _ ↦ hnone, fun _ ↦ rfl,
    fun hne ↦ absurd rfl hne, ?_⟩
  · rcases hj with ⟨hd, -⟩ | ⟨hsend, -⟩ | hj
    · exact absurd (.inl hd) hidle
    · exact absurd (.inr hsend) hidle
    · exact absurd hj (hnone j)
  · exact List.forall_mem_cons.mpr ⟨⟨k, rand, rfl, hdrawn, hrecorded, herrors⟩, h.handed⟩

theorem cleared_transfer {seg : Shmseg} {pc : Pc} (h : TransferInv ⟨s, n⟩) (hparked : Parked s)
    (hdrained : Drained s) (hslot : slotSignal pc = none) (hshort : seg.stringValue.drop 3 = []) :
    TransferInv ⟨{ s with seg := seg, slot := pc }, n⟩ := by
  have hnone (k : ℕ) : ¬ Carried { s with seg := seg, slot := pc } k := by
    apply not_carried
    · exact hparked
    · exact ⟨hdrained.toMaster, hdrained.wake⟩
    · exact hslot
  exact ⟨hshort, fun _ _ ↦ hparked, fun k hk ↦ absurd hk (hnone k),
    fun _ k hk ↦ hnone k (.inr (.inr hk)), h.quiet, h.drawn, h.handed⟩

theorem TransferInv.slot_keep {seg : Shmseg} {pc : Pc} {effect : Effect} (h : TransferInv ⟨s, n⟩)
    (hpayload : SamePayload seg s.seg)
    (hsignal : slotSignal pc = none ∨ slotSignal pc = slotSignal s.slot)
    (hreset : ∀ k, pc ≠ .resetInit k) :
    TransferInv ⟨{ s with seg := seg, slot := pc }.effect effect, n⟩ := by
  refine h.keep (by simpa using hpayload) (by simp) (by simp) (fun k hk ↦ ?_) fun k hk ↦ ?_
  · simp only [InFlight, State.effect_slot, State.effect_toMaster, State.effect_wake] at hk
    refine hk.imp_left fun hflight ↦ ?_
    rcases hsignal with hnone | hsame
    · rw [hnone] at hflight
      cases hflight
    · exact hsame.symm.trans hflight
  · exact absurd (by simpa using hk) (hreset k)

theorem slotStep_transfer {mustChange : Bool} (hc : CommandInv True False s) (hp : ParameterInv s)
    (h : TransferInv ⟨s, n⟩) (hs : slotStep mustChange s = some t) :
    TransferInv ⟨t, note s (.slot mustChange) n⟩ := by
  by_cases hswitch : ∃ signal, s.slot = .requestSwitch signal
  · obtain ⟨signal, hpc⟩ := hswitch
    have hslot := hp.slot
    simp only [hpc, SlotParameter.SlotOk] at hslot
    obtain ⟨rfl, -⟩ := hslot
    simp only [slotStep, SlotThread.step, hpc] at hs
    simp only [note, hpc]
    split_ifs at hs ⊢ with hrequest
    · obtain rfl := Option.some.inj hs
      exact received_transfer hp h hpc
    · obtain rfl := Option.some.inj hs
      refine h.keep (.refl s.seg) rfl rfl (fun k hk ↦ ?_) (by rintro _ ⟨⟩)
      exact .inr (hk.resolve_left (by simp [slotSignal, State.effect]))
  · have hnote : note s (.slot mustChange) n = n := by
      cases hpc : s.slot <;> simp_all [note]
    rw [hnote]
    obtain ⟨v, effect, hmove, rfl⟩ := slotStep_move hs
    cases hmove with
    | jumped hjump =>
      apply h.slot_keep (.refl s.seg)
      · cases hjump <;> simp [slotSignal, *]
      · cases hjump <;> simp
    | woken hpc hwake =>
      refine h.keep (.refl s.seg) rfl rfl (fun k hk ↦ ?_) (by rintro _ ⟨⟩)
      simp only [InFlight, slotSignal, State.effect, Option.some.injEq, hwake,
        List.mem_cons] at hk ⊢
      tauto
    | errorsHandled hpc hseg =>
      apply h.slot_keep
      · rcases hseg with rfl | rfl
        · exact ⟨rfl, rfl, rfl, rfl⟩
        · exact .refl _
      · exact .inr (by rw [hpc]; rfl)
      · rintro _ ⟨⟩
    | received hpc => exact absurd ⟨_, hpc⟩ hswitch
    | zeroed hpc =>
      have hd : Detaching s.seg.reqMToS s.slot := by
        rw [hpc]
        trivial
      have hzero := hp.detaching hd
      simp only [parameters, Nat.add_eq_zero_iff, parameterSignals_eq_zero] at hzero
      exact cleared_transfer h (hc.detaching_parked hd) ⟨hzero.1.2, hzero.2⟩ rfl rfl
    | initialized hpc =>
      exact cleared_transfer h (h.reset _ hpc) (hp.drained (by simp [hpc, slotParameters])) rfl rfl
    | _ hpc => exact h.slot_keep ⟨rfl, rfl, rfl, rfl⟩ (by simp [hpc, slotSignal]) (by simp [hpc])

theorem TransferInv.cycle_keep (h : TransferInv ⟨s, n⟩) (hpayload : SamePayload t.seg s.seg)
    (hdrawing : drawing t.cycle = drawing s.cycle) (hsending : sending t.cycle = sending s.cycle)
    (htaken : t.history.taken = s.history.taken) (hflight : ∀ k, InFlight t k ↔ InFlight s k)
    (hreset : ∀ k, t.slot ≠ .resetInit k) : TransferInv ⟨t, n⟩ := by
  refine ⟨hpayload.stringValue ▸ h.short, fun k hk ↦ absurd hk (hreset k), fun k hk ↦ ?_,
    fun hsent k hk ↦ h.unsent hsent k ((hflight k).mp hk), fun hd ↦ h.quiet ?_, fun hn ↦ ?_,
    h.handed⟩
  · unfold Carried at hk
    rw [hdrawing, hsending, htaken, hflight] at hk
    obtain ⟨rand, hdrawn, hwritten⟩ := h.written k hk
    exact ⟨rand, hdrawn, hwritten.congr hpayload⟩
  · rwa [← hdrawing, ← hsending]
  · dsimp only
    rw [hdrawing, hsending]
    exact h.drawn hn

theorem cycleStep_transfer {usleep : Bool} {rand : ℕ} {now : Timeval} (h : TransferInv ⟨s, n⟩)
    (hdecoded : parametersDecoded s (.cycle usleep rand now) = true)
    (hok : s.cycle = .store → n.sent = false) (hs : cycleStep usleep rand now s = some t) :
    TransferInv ⟨t, note s (.cycle usleep rand now) n⟩ := by
  have hreset (k : Option ℕ) : s.slot ≠ .resetInit k :=
    fun hk ↦ cycleStep_parked (h.reset k hk) hs
  have hmoved (hpc : t.cycle ≠ s.cycle) (hderef : ∃ u, s.deref u = some t) :
      s.self.shmseg = true := by
    obtain ⟨u, hu⟩ := hderef
    obtain ⟨hptr, -⟩ | ⟨-, rfl⟩ := State.deref_cases hu
    · exact hptr
    · exact absurd rfl hpc
  cases cycleStep_move hs with
  | stored hpc =>
    simp only [cycleStep, hpc] at hs
    have hptr := hmoved (by simp [hpc]) ⟨_, hs⟩
    have hnone := h.unsent (hok hpc)
    obtain ⟨hwritten, hshort⟩ := storeParameters_written h.short
    simp only [note, hpc, hptr, if_true]
    refine ⟨hshort, fun k hk ↦ absurd hk (hreset k), fun k hk ↦ ?_, fun _ ↦ hnone, fun _ ↦ hok hpc,
      fun _ ↦ .inl (.inl rfl), h.handed⟩
    rcases hk with ⟨-, rfl⟩ | ⟨hsend, -⟩ | hflight
    · exact ⟨rand, rfl, hwritten⟩
    · cases hsend
    · exact absurd hflight (hnone k)
  | withdrawn hpc =>
    simp only [cycleStep, hpc] at hs
    have hptr := hmoved (by simp [hpc]) ⟨_, hs⟩
    have hsent : n.sent = false := h.quiet (.inr (by simp [hpc, sending]))
    have hnone := h.unsent hsent
    simp only [note, hpc, hptr, if_true]
    refine ⟨h.short, fun k hk ↦ absurd hk (hreset k), fun k hk ↦ ?_, fun _ ↦ hnone, fun _ ↦ hsent,
      fun hne ↦ absurd rfl hne, h.handed⟩
    rcases hk with ⟨hd, -⟩ | ⟨hsend, -⟩ | hflight
    · cases hd
    · cases hsend
    · exact absurd hflight (hnone k)
  | requestTaken hpc hpos =>
    have hdrawing : drawing s.cycle = true := by rw [hpc]; rfl
    have hsent : n.sent = false := h.quiet (.inl hdrawing)
    have hnone := h.unsent hsent
    obtain ⟨rand', hdrawn, hwritten⟩ := h.written _ (.inl ⟨hdrawing, rfl⟩)
    simp only [note, hpc]
    refine ⟨h.short, fun k hk ↦ absurd hk (hreset k), fun k hk ↦ ?_, fun _ ↦ hnone, fun _ ↦ hsent,
      fun _ ↦ .inl (.inr rfl), h.handed⟩
    rcases hk with ⟨hd, -⟩ | ⟨-, rfl⟩ | hflight
    · cases hd
    · exact ⟨rand', hdrawn, hwritten.congr ⟨rfl, rfl, rfl, rfl⟩⟩
    · exact absurd hflight (hnone k)
  | gaveUp hpc hzero hexpired =>
    simp only [hpc, parametersDecoded, decide_eq_true_eq] at hdecoded
    omega
  | signalled hpc =>
    have hsending : sending s.cycle = true := by rw [hpc]; rfl
    have hnone := h.unsent (h.quiet (.inr hsending))
    obtain ⟨rand', hdrawn, hwritten⟩ := h.written _ (.inr (.inl ⟨hsending, rfl⟩))
    simp only [note, hpc]
    refine ⟨h.short, fun k hk ↦ absurd hk (hreset k), fun k hk ↦ ?_, by rintro ⟨⟩, fun hd ↦ ?_,
      fun _ ↦ .inr rfl, h.handed⟩
    · rcases hk with ⟨hd, -⟩ | ⟨hsend, -⟩ | hflight
      · cases hd
      · cases hsend
      · simp only [InFlight, List.mem_append, List.mem_singleton, Signal.parameter.injEq] at hflight
        have hold : InFlight s k ∨ k = s.history.taken := by
          unfold InFlight
          tauto
        obtain rfl := hold.resolve_left (hnone k)
        exact ⟨rand', hdrawn, hwritten⟩
    · rcases hd with hd | hd <;> cases hd
  | crashed hnull =>
    have hnote : note s (.cycle usleep rand now) n = n := by
      cases hpc : s.cycle with
      | kill cycleUs segmentUs =>
        -- sending the signal does not touch the segment
        simp only [cycleStep, hpc] at hs
        have hcycle := congrArg State.cycle (Option.some.inj hs)
        simp at hcycle
      | _ => simp [note, hpc, hnull]
    rw [hnote]
    exact h.cycle_keep (.refl s.seg) rfl rfl rfl (fun _ ↦ .rfl) hreset
  | usleepFailed hpc =>
    simp only [note, hpc]
    exact h.cycle_keep (setError_payload _ s.seg) (by rw [hpc]; rfl) (by rw [hpc]; rfl) rfl
      (fun _ ↦ .rfl) hreset
  | calculated hpc =>
    simp only [note, hpc]
    exact h.cycle_keep (calculate_payload now s.self s.seg) (by rw [hpc]; rfl) (by rw [hpc]; rfl)
      rfl (fun _ ↦ .rfl) hreset
  | _ hpc =>
    simp only [note, hpc]
    exact h.cycle_keep ⟨rfl, rfl, rfl, rfl⟩ (by rw [hpc]; rfl) (by rw [hpc]; rfl) rfl
      (fun _ ↦ .rfl) hreset

end Carried

section Run

variable {pid : Pid} {o o' : Run} {e : Event}

theorem step_transfer (hinvs : CommandInv True False o.state ∧ ParameterInv o.state)
    (h : TransferInv o) (hok : transferKept o e = true) (hs : step pid o e = some o') :
    TransferInv o' := by
  obtain ⟨hc, hp⟩ := hinvs
  obtain ⟨t, ht, rfl⟩ := observe_eq_some hs
  simp only [transferKept, Bool.and_eq_true] at hok
  obtain ⟨⟨hdecoded, -⟩, hok⟩ := hok
  cases e with
  | configure requestedParameters communicationCycleUs =>
    obtain rfl := Option.some.inj ht
    exact configure_transfer h (of_decide_eq_true hok)
  | sync request => exact syncStep_transfer h ht
  | slot mustChange => exact slotStep_transfer hc hp h ht
  | deliver => exact deliverStep_transfer h ht
  | handler =>
    obtain ⟨-, ht⟩ := Option.ite_none_right_eq_some.mp ht
    exact handlerStep_transfer hc h ht
  | cycle usleep rand now =>
    obtain ⟨-, ht⟩ := Option.ite_none_right_eq_some.mp ht
    exact cycleStep_transfer h hdecoded (of_decide_eq_true hok) ht

theorem initial_transfer (name : CString.Mem) (availableParameters : ℕ) :
    TransferInv (initial name availableParameters) where
  short := rfl
  reset := by rintro _ ⟨⟩
  written k hk := by
    simp [Carried, InFlight, initial, Slot.initial, drawing, sending, slotSignal] at hk
  unsent _ k hk := by simp [InFlight, initial, Slot.initial, slotSignal] at hk
  quiet _ := rfl
  drawn hne := absurd rfl hne
  handed := List.forall_mem_nil _

/-- What the slave draws in a round is what the master records for it. -/
theorem transferred_of_kept {name : CString.Mem} {availableParameters : ℕ}
    (h : Reaches (step pid) (fun o e ↦ transferKept o e = true)
      (initial name availableParameters) o) : Transferred o := by
  have hinvs (o : Run) (e : Event) (o' : Run)
      (hi : CommandInv True False o.state ∧ ParameterInv o.state) (hok : transferKept o e = true)
      (hs : step pid o e = some o') : CommandInv True False o'.state ∧ ParameterInv o'.state := by
    obtain ⟨t, ht, rfl⟩ := observe_eq_some hs
    simp only [transferKept, Bool.and_eq_true] at hok
    exact step_invs hi hok.1.1 hok.1.2 ht
  have hinv : (CommandInv True False o.state ∧ ParameterInv o.state) ∧ TransferInv o :=
    h.layered ⟨SlotCommand.initial_inv name availableParameters,
      SlotParameter.initial_inv name availableParameters⟩ (initial_transfer name availableParameters)
      hinvs fun _ _ _ hi ht ↦ step_transfer hi ht
  exact hinv.2.transferred

def round (rand : ℕ) : List Event :=
  List.replicate 12 (Event.cycle true rand ⟨0, 0⟩) ++ [Event.deliver] ++
    List.replicate 7 (Event.slot false) ++ List.replicate 5 Event.handler

def twoRounds : List Event :=
  startRun ++ round 28 ++ round 7

theorem twoRounds_transferred :
    ∃ o, (o.notes.handed.map fun h ↦ (h.signal, h.seg.lastKnownIntValue)) =
      [(.parameter 2, 7), (.parameter 1, 28)] ∧ Transferred o := by
  have hrun : (run (guarded (step 1000) fun o e ↦ transferKept o e = true) (initial [97] 7)
      twoRounds).map (fun o ↦ o.notes.handed.map fun h ↦ (h.signal, h.seg.lastKnownIntValue)) =
      some [(.parameter 2, 7), (.parameter 1, 28)] := by
    decide +kernel
  obtain ⟨o, ho, hview⟩ := Option.map_eq_some_iff.mp hrun
  exact ⟨o, hview, transferred_of_kept (.of_run ho)⟩

end Run

end RealTimeCyclic.SlotTransfer
