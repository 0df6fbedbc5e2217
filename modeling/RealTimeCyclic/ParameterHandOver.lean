import RealTimeCyclic.Library.Sentinel
import RealTimeCyclic.Library.Transition
import RealTimeCyclic.Slave
import RealTimeCyclic.SlotThread

namespace RealTimeCyclic.ParameterHandOver

open Shm Slave SlotThread Sentinel Transition

def stringCell (seg : Shmseg) : Cell (List UInt8) := ⟨seg.stringValue, seg.lastKnownStringValue⟩

def intCell (seg : Shmseg) : Cell Int := ⟨seg.intValue, seg.lastKnownIntValue⟩

def boolCell (seg : Shmseg) : Cell UInt8 := ⟨seg.boolValue, seg.lastKnownBoolValue⟩

def stringUndefined (value : List UInt8) : Bool := value.headD 0 = stringValueUndefined

def intUndefined (value : Int) : Bool := value = intValueUndefined

/-- The unsigned byte is promoted before it is compared with -1. -/
def boolUndefined (value : UInt8) : Bool := (value.toNat : Int) = boolValueUndefined

theorem boolUndefined_false (value : UInt8) : boolUndefined value = false := by
  refine decide_eq_false fun h ↦ ?_
  rw [boolValueUndefined] at h
  omega

def requestedString (seg : Shmseg) : Bool := seg.requestedParameters &&& stringParameterBit ≠ 0

def requestedInt (seg : Shmseg) : Bool := seg.requestedParameters &&& intParameterBit ≠ 0

def requestedBool (seg : Shmseg) : Bool := seg.requestedParameters &&& boolParameterBit ≠ 0

/-- `handle_slave_request` as one step, with the errors it logs. -/
def handleSlaveRequest (seg : Shmseg) : Shmseg × List String :=
  if ¬ seg.isConnected then (seg, [])
  else if seg.reqSToM = .signalMasterParameter then
    ({ (receiveParameters seg).1 with resMToS := .ack }, (receiveParameters seg).2)
  else (seg, ["Unrecognized request from slave process %d!"])

def outcome {α : Type} (requested : Bool) (isUndefined : α → Bool) (undefined : α)
    (c : Cell α) : Cell α × Bool :=
  if requested then c.receive isUndefined undefined else (c, false)

theorem receiveString_own (seg : Shmseg) :
    (stringCell (receiveString seg).1, (receiveString seg).2.contains stringError) =
      outcome (requestedString seg) stringUndefined [] (stringCell seg) := by
  unfold receiveString outcome requestedString Cell.receive stringUndefined
  split_ifs <;> simp_all [stringCell]

theorem receiveInt_own (r : Shmseg × List String) (h : r.2.contains intError = false) :
    (intCell (receiveInt r).1, (receiveInt r).2.contains intError) =
      outcome (requestedInt r.1) intUndefined intValueUndefined (intCell r.1) := by
  unfold receiveInt outcome requestedInt Cell.receive intUndefined
  split_ifs <;> simp_all [intCell]

theorem receiveBool_own (r : Shmseg × List String) (h : r.2.contains boolError = false) :
    (boolCell (receiveBool r).1, (receiveBool r).2.contains boolError) =
      outcome (requestedBool r.1) boolUndefined 255 (boolCell r.1) := by
  unfold receiveBool outcome requestedBool Cell.receive boolUndefined
  split_ifs <;> simp_all [boolCell]

/-- A stage leaves the others' cells and errors and the request alone. -/
structure StageFrame (seg : Shmseg) (log : List String) (r : Shmseg × List String)
    (own : String) : Prop where
  requested : r.1.requestedParameters = seg.requestedParameters
  log : ∀ error, error ≠ own → r.2.contains error = log.contains error

theorem receiveString_frame (seg : Shmseg) :
    StageFrame seg [] (receiveString seg) stringError ∧
      intCell (receiveString seg).1 = intCell seg ∧
      boolCell (receiveString seg).1 = boolCell seg := by
  unfold receiveString
  split_ifs
  · exact ⟨⟨rfl, fun error he ↦ by simp [he]⟩, rfl, rfl⟩
  · exact ⟨⟨rfl, fun _ _ ↦ rfl⟩, rfl, rfl⟩
  · exact ⟨⟨rfl, fun _ _ ↦ rfl⟩, rfl, rfl⟩

theorem receiveInt_frame (r : Shmseg × List String) :
    StageFrame r.1 r.2 (receiveInt r) intError ∧
      stringCell (receiveInt r).1 = stringCell r.1 ∧
      boolCell (receiveInt r).1 = boolCell r.1 := by
  unfold receiveInt
  split_ifs
  · exact ⟨⟨rfl, fun error he ↦ by simp [he]⟩, rfl, rfl⟩
  · exact ⟨⟨rfl, fun _ _ ↦ rfl⟩, rfl, rfl⟩
  · exact ⟨⟨rfl, fun _ _ ↦ rfl⟩, rfl, rfl⟩

theorem receiveBool_frame (r : Shmseg × List String) :
    StageFrame r.1 r.2 (receiveBool r) boolError ∧
      stringCell (receiveBool r).1 = stringCell r.1 ∧
      intCell (receiveBool r).1 = intCell r.1 := by
  unfold receiveBool
  split_ifs
  · exact ⟨⟨rfl, fun error he ↦ by simp [he]⟩, rfl, rfl⟩
  · exact ⟨⟨rfl, fun _ _ ↦ rfl⟩, rfl, rfl⟩
  · exact ⟨⟨rfl, fun _ _ ↦ rfl⟩, rfl, rfl⟩

theorem receiveParameters_outcome (seg : Shmseg) :
    (stringCell (receiveParameters seg).1, (receiveParameters seg).2.contains stringError) =
        outcome (requestedString seg) stringUndefined [] (stringCell seg) ∧
      (intCell (receiveParameters seg).1, (receiveParameters seg).2.contains intError) =
        outcome (requestedInt seg) intUndefined intValueUndefined (intCell seg) ∧
      (boolCell (receiveParameters seg).1, (receiveParameters seg).2.contains boolError) =
        outcome (requestedBool seg) boolUndefined 255 (boolCell seg) := by
  rw [receiveParameters]
  obtain ⟨hstring, hint, hbool⟩ := receiveString_frame seg
  generalize hr : receiveString seg = r at hstring hint hbool
  have hstringOwn := receiveString_own seg
  rw [hr] at hstringOwn
  obtain ⟨hint', hstring₁, hbool₁⟩ := receiveInt_frame r
  obtain ⟨hbool', hstring₂, hint₂⟩ := receiveBool_frame (receiveInt r)
  have hintOwn := receiveInt_own r (hstring.log intError (by decide))
  have hboolOwn := receiveBool_own (receiveInt r)
    ((hint'.log boolError (by decide)).trans (hstring.log boolError (by decide)))
  refine ⟨?_, ?_, ?_⟩
  · rw [hstring₂, hstring₁, hbool'.log stringError (by decide),
      hint'.log stringError (by decide)]
    exact hstringOwn
  · rw [hint₂, hbool'.log intError (by decide), hintOwn, hint, requestedInt, requestedInt,
      hstring.requested]
  · rw [hboolOwn, hbool₁, hbool, requestedBool, requestedBool, hint'.requested,
      hstring.requested]

def letters (rand : ℕ) : List UInt8 :=
  let chrRand : UInt8 := 65 + (rand % 26).toUInt8
  [chrRand, chrRand + 1, chrRand + 2]

def writeString (rand : ℕ) (seg : Shmseg) : Shmseg :=
  if seg.requestedParameters &&& stringParameterBit ≠ 0 then
    { seg with stringValue := letters rand ++ seg.stringValue.drop 3 }
  else seg

def writeInt (rand : ℕ) (seg : Shmseg) : Shmseg :=
  if seg.requestedParameters &&& intParameterBit ≠ 0 then { seg with intValue := rand } else seg

def writeBool (rand : ℕ) (seg : Shmseg) : Shmseg :=
  if seg.requestedParameters &&& boolParameterBit ≠ 0 then
    { seg with boolValue := (rand % 2).toUInt8 }
  else seg

theorem storeParameters_writes (rand : ℕ) (seg : Shmseg) :
    storeParameters rand seg = writeBool rand (writeInt rand (writeString rand seg)) := rfl

/-- The segment, and what the slave has written since the last hand-over. -/
structure State where
  seg : Shmseg
  string : Option (List UInt8)
  int : Option Int
  bool : Option UInt8

def initial (seg : Shmseg) : State := ⟨seg, none, none, none⟩

/-- The configurator only adds parameters to the request. -/
inductive Event
  | request (parameters : ℕ)
  | writeString (rand : ℕ)
  | writeInt (rand : ℕ)
  | writeBool (rand : ℕ)
  | handle
  deriving DecidableEq

def step (s : State) : Event → Option State
  | .request parameters =>
    some { s with seg.requestedParameters := s.seg.requestedParameters ||| parameters }
  | .writeString rand =>
    some { s with
      seg := writeString rand s.seg
      string := if requestedString s.seg then some (letters rand) else s.string }
  | .writeInt rand =>
    some { s with
      seg := writeInt rand s.seg
      int := if requestedInt s.seg then some rand else s.int }
  | .writeBool rand =>
    some { s with
      seg := writeBool rand s.seg
      bool := if requestedBool s.seg then some (rand % 2).toUInt8 else s.bool }
  | .handle => some (initial (handleSlaveRequest s.seg).1)

/-- A connected segment with a parameter signal to handle and nothing written yet. -/
structure Fresh (seg : Shmseg) : Prop where
  connected : seg.isConnected = true
  request : seg.reqSToM = .signalMasterParameter
  string : seg.stringValue = []
  int : seg.intValue = intValueUndefined
  bool : seg.boolValue = 255

/-- The law of the hand-over for one master handling in state `s`. -/
structure HandedOver (s : State) : Prop where
  string : Received (requestedString s.seg) s.string [] (stringCell s.seg)
    (stringCell (handleSlaveRequest s.seg).1)
    ((handleSlaveRequest s.seg).2.contains stringError)
  int : Received (requestedInt s.seg) s.int intValueUndefined (intCell s.seg)
    (intCell (handleSlaveRequest s.seg).1) ((handleSlaveRequest s.seg).2.contains intError)
  bool : Received (requestedBool s.seg) s.bool 255 (boolCell s.seg)
    (boolCell (handleSlaveRequest s.seg).1) ((handleSlaveRequest s.seg).2.contains boolError)

structure WriteInv (s : State) : Prop where
  connected : s.seg.isConnected = true
  request : s.seg.reqSToM = .signalMasterParameter
  string : Holds [] s.seg.stringValue s.string
  letters : ∀ value, s.string = some value → value.headD 0 ≠ 0 ∧ value.length = 3
  int : Holds intValueUndefined s.seg.intValue s.int
  bool : Holds 255 s.seg.boolValue s.bool
  requestedString : s.string ≠ none → requestedString s.seg = true
  requestedInt : s.int ≠ none → requestedInt s.seg = true
  requestedBool : s.bool ≠ none → requestedBool s.seg = true

theorem requested_or {n m bit : ℕ} (h : n &&& bit ≠ 0) : (n ||| m) &&& bit ≠ 0 := by
  intro hz
  refine h (Nat.eq_of_testBit_eq fun i ↦ ?_)
  have hi := congrArg (Nat.testBit · i) hz
  simp only [Nat.testBit_and, Nat.testBit_or, Nat.zero_testBit] at hi ⊢
  cases hn : n.testBit i <;> simp_all

theorem letters_head (rand : ℕ) : (letters rand).headD 0 ≠ 0 := by
  intro h
  have hval := congrArg UInt8.toNat h
  have h65 : (65 : UInt8).toNat = 65 := rfl
  have h0 : (0 : UInt8).toNat = 0 := rfl
  rw [letters, List.headD_cons, UInt8.toNat_add, Nat.toUInt8, UInt8.toNat_ofNat', h65, h0] at hval
  omega

theorem flag_ne_undefined (rand : ℕ) : (rand % 2).toUInt8 ≠ 255 := by
  intro h
  have hval := congrArg UInt8.toNat h
  have h255 : (255 : UInt8).toNat = 255 := rfl
  rw [Nat.toUInt8, UInt8.toNat_ofNat', h255] at hval
  omega

theorem WriteInv.drop {s : State} (h : WriteInv s) : s.seg.stringValue.drop 3 = [] := by
  have hstring := h.string
  cases hs : s.string with
  | none =>
    rw [hs] at hstring
    rw [show s.seg.stringValue = [] from hstring, List.drop_nil]
  | some value =>
    rw [hs] at hstring
    rw [hstring.1]
    exact List.drop_eq_nil_of_le (h.letters value hs).2.le

theorem WriteInv.stringTest {s : State} (h : WriteInv s) :
    stringUndefined s.seg.stringValue = true ↔ s.seg.stringValue = [] := by
  have hstring := h.string
  unfold stringUndefined
  rw [decide_eq_true_iff]
  cases hs : s.string with
  | none =>
    rw [hs] at hstring
    have hempty : s.seg.stringValue = [] := hstring
    rw [hempty]
    exact iff_of_true rfl rfl
  | some value =>
    rw [hs] at hstring
    rw [hstring.1]
    exact iff_of_false (h.letters value hs).1 hstring.2

theorem handle_eq {s : State} (h : WriteInv s) :
    handleSlaveRequest s.seg =
      ({ (receiveParameters s.seg).1 with resMToS := .ack }, (receiveParameters s.seg).2) := by
  rw [handleSlaveRequest, if_neg (not_not.mpr h.connected), if_pos h.request]

theorem holds_outcome {α : Type} {requested : Bool} {isUndefined : α → Bool} {undefined : α}
    {c c' : Cell α} {written : Option α} {missed : Bool}
    (h : (c', missed) = outcome requested isUndefined undefined c)
    (htest : isUndefined c.value = true → c.value = undefined)
    (hheld : Holds undefined c.value written) (hwritten : written ≠ none → requested = true) :
    Holds undefined c'.value none := by
  unfold outcome at h
  cases requested with
  | true =>
    have hc : c' = (c.receive isUndefined undefined).1 := congrArg Prod.fst h
    rw [hc]
    exact holds_receive htest
  | false =>
    have hc : c' = c := congrArg Prod.fst h
    have hnone : written = none := not_not.mp fun hne ↦ Bool.false_ne_true (hwritten hne)
    rw [hnone] at hheld
    rw [hc]
    exact hheld

theorem handle_inv {s : State} (h : WriteInv s) :
    WriteInv (initial (handleSlaveRequest s.seg).1) := by
  obtain ⟨hstring, hint, hbool⟩ := receiveParameters_outcome s.seg
  have hcontrol := receiveParameters_sameControl s.seg
  rw [handle_eq h]
  refine ⟨hcontrol.isConnected.trans h.connected, hcontrol.reqSToM.trans h.request, ?_,
    nofun, ?_, ?_, fun hne ↦ absurd rfl hne, fun hne ↦ absurd rfl hne, fun hne ↦ absurd rfl hne⟩
  · exact holds_outcome hstring h.stringTest.mp h.string h.requestedString
  · exact holds_outcome hint of_decide_eq_true h.int h.requestedInt
  · refine holds_outcome hbool (fun htest ↦ ?_) h.bool h.requestedBool
    rw [boolUndefined_false] at htest
    exact absurd htest Bool.false_ne_true

theorem step_inv {s t : State} {e : Event} (h : WriteInv s) (hs : step s e = some t) :
    WriteInv t := by
  cases e with
  | request parameters =>
    obtain rfl := Option.some.inj hs
    have hor {bit : ℕ} (hbit : decide (s.seg.requestedParameters &&& bit ≠ 0) = true) :
        decide ((s.seg.requestedParameters ||| parameters) &&& bit ≠ 0) = true :=
      decide_eq_true (requested_or (of_decide_eq_true hbit))
    exact ⟨h.connected, h.request, h.string, h.letters, h.int, h.bool,
      fun hne ↦ hor (h.requestedString hne), fun hne ↦ hor (h.requestedInt hne),
      fun hne ↦ hor (h.requestedBool hne)⟩
  | writeString rand =>
    obtain rfl := Option.some.inj hs
    by_cases hreq : s.seg.requestedParameters &&& stringParameterBit ≠ 0
    · have hflag : requestedString s.seg = true := decide_eq_true hreq
      simp only [writeString, if_pos hreq, hflag, if_true, h.drop, List.append_nil]
      refine ⟨h.connected, h.request, ⟨rfl, List.cons_ne_nil _ _⟩, ?_, h.int, h.bool,
        fun _ ↦ hflag, h.requestedInt, h.requestedBool⟩
      rintro value hvalue
      obtain rfl := Option.some.inj hvalue
      exact ⟨letters_head rand, rfl⟩
    · have hflag : requestedString s.seg = false := decide_eq_false hreq
      simpa only [writeString, if_neg hreq, hflag, Bool.false_eq_true, if_false] using h
  | writeInt rand =>
    obtain rfl := Option.some.inj hs
    by_cases hreq : s.seg.requestedParameters &&& intParameterBit ≠ 0
    · have hflag : requestedInt s.seg = true := decide_eq_true hreq
      have hne : (rand : Int) ≠ intValueUndefined := by
        rw [intValueUndefined]
        omega
      simp only [writeInt, if_pos hreq, hflag, if_true]
      exact ⟨h.connected, h.request, h.string, h.letters, ⟨rfl, hne⟩, h.bool,
        h.requestedString, fun _ ↦ hflag, h.requestedBool⟩
    · have hflag : requestedInt s.seg = false := decide_eq_false hreq
      simpa only [writeInt, if_neg hreq, hflag, Bool.false_eq_true, if_false] using h
  | writeBool rand =>
    obtain rfl := Option.some.inj hs
    by_cases hreq : s.seg.requestedParameters &&& boolParameterBit ≠ 0
    · have hflag : requestedBool s.seg = true := decide_eq_true hreq
      simp only [writeBool, if_pos hreq, hflag, if_true]
      exact ⟨h.connected, h.request, h.string, h.letters, h.int,
        ⟨rfl, flag_ne_undefined rand⟩, h.requestedString, h.requestedInt, fun _ ↦ hflag⟩
    · have hflag : requestedBool s.seg = false := decide_eq_false hreq
      simpa only [writeBool, if_neg hreq, hflag, Bool.false_eq_true, if_false] using h
  | handle =>
    obtain rfl := Option.some.inj hs
    exact handle_inv h

theorem received_outcome {α : Type} {requested : Bool} {isUndefined : α → Bool} {undefined : α}
    {c c' : Cell α} {written : Option α} {missed : Bool}
    (h : (c', missed) = outcome requested isUndefined undefined c)
    (htest : isUndefined c.value = true ↔ c.value = undefined)
    (hheld : Holds undefined c.value written) :
    Received requested written undefined c c' missed := by
  unfold outcome at h
  cases requested with
  | true =>
    obtain ⟨rfl, rfl⟩ := Prod.mk.inj h
    exact received_of_recognised htest hheld
  | false =>
    obtain ⟨rfl, rfl⟩ := Prod.mk.inj h
    exact ⟨rfl, rfl⟩

/-- The byte never compares equal to the -1 it was set to. -/
theorem received_bool_iff {seg : Shmseg} {written : Option UInt8} {c' : Cell UInt8}
    {missed : Bool} {requested : Bool}
    (h : (c', missed) = outcome requested boolUndefined 255 (boolCell seg))
    (hheld : Holds 255 seg.boolValue written) :
    Received requested written 255 (boolCell seg) c' missed ↔
      (requested = true → written ≠ none) := by
  unfold outcome at h
  cases requested with
  | true =>
    obtain ⟨rfl, rfl⟩ := Prod.mk.inj h
    rw [forall_prop_of_true rfl]
    exact received_of_unrecognised (boolUndefined_false _) hheld
  | false =>
    obtain ⟨rfl, rfl⟩ := Prod.mk.inj h
    exact iff_of_true ⟨rfl, rfl⟩ fun hfalse ↦ absurd hfalse Bool.false_ne_true

theorem handedOver_of_inv {s : State} (h : WriteInv s) :
    HandedOver s ↔ (requestedBool s.seg = true → s.bool ≠ none) := by
  obtain ⟨hstring, hint, hbool⟩ := receiveParameters_outcome s.seg
  have hiff := received_bool_iff hbool h.bool
  constructor
  · intro hh
    have hreceived := hh.bool
    rw [handle_eq h] at hreceived
    exact hiff.mp hreceived
  · intro hwritten
    refine ⟨?_, ?_, ?_⟩ <;> rw [handle_eq h]
    · exact received_outcome hstring h.stringTest h.string
    · exact received_outcome hint decide_eq_true_iff h.int
    · exact hiff.mpr hwritten

theorem handedOver_iff_boolWritten {seg : Shmseg} (hfresh : Fresh seg) {s : State}
    (h : Reaches step unrestricted (initial seg) s) :
    HandedOver s ↔ (requestedBool s.seg = true → s.bool ≠ none) := by
  have hstart : WriteInv (initial seg) :=
    ⟨hfresh.connected, hfresh.request, hfresh.string, nofun, hfresh.int, hfresh.bool,
      fun hne ↦ absurd rfl hne, fun hne ↦ absurd rfl hne, fun hne ↦ absurd rfl hne⟩
  have hinv : WriteInv s := h.invariant hstart fun _ _ _ hi _ ↦ step_inv hi
  exact handedOver_of_inv hinv

def signalled : Shmseg :=
  { Shmseg.initial with isConnected := true, reqSToM := .signalMasterParameter }

theorem signalled_fresh : Fresh signalled := ⟨rfl, rfl, rfl, rfl, rfl⟩

theorem round_handedOver :
    ∃ s, run step (initial signalled)
        [.request 7, .writeString 3, .writeInt 3, .writeBool 3] = some s ∧ HandedOver s := by
  refine ⟨_, rfl, (handedOver_iff_boolWritten signalled_fresh ?_).mpr fun _ ↦ by decide⟩
  have hrun : run step (initial signalled)
      [.request 7, .writeString 3, .writeInt 3, .writeBool 3] = some _ := rfl
  exact .of_unrestricted_run hrun

/-- A boolean is requested, and the slave has not written one yet. -/
theorem missing_bool_recorded :
    ¬ ∀ seg s, Fresh seg → Reaches step unrestricted (initial seg) s → HandedOver s := by
  intro hall
  have hrun : run step (initial signalled) [.request 4] = some _ := rfl
  have hbool := (hall signalled _ signalled_fresh (.of_unrestricted_run hrun)).bool
  exact absurd hbool.2 (by decide)

/-- The steps of the slot's thread add up to `handle_slave_request`. -/
theorem thread_handles {current : ℕ} {mustChange : Bool} {v : View} {signal : Signal}
    (hpc : v.pc = .requestConnected signal) :
    Completes current mustChange v (handleSlaveRequest v.seg).1 := by
  unfold handleSlaveRequest
  by_cases hconnected : v.seg.isConnected = true
  · have hs : SlotThread.step current mustChange true v =
        some ({ v with pc := .requestSwitch signal }, .silent) := by
      simp [SlotThread.step, hpc, hconnected]
    rw [if_neg (not_not.mpr hconnected)]
    refine .cons hs ?_
    by_cases hreq : v.seg.reqSToM = .signalMasterParameter
    · rw [if_pos hreq]
      refine .cons (if_pos hreq) (.cons rfl (.cons rfl ⟨0, _, rfl, rfl, rfl⟩))
    · rw [if_neg hreq]
      refine .cons (if_neg hreq) ⟨0, _, rfl, rfl, rfl⟩
  · have hs : SlotThread.step current mustChange true v =
        some ({ v with pc := .sigSemWait }, .silent) := by
      simp [SlotThread.step, hpc, hconnected]
    rw [if_pos hconnected]
    exact .cons hs ⟨0, _, rfl, rfl, rfl⟩

end RealTimeCyclic.ParameterHandOver
