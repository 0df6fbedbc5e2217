import RealTimeCyclic.Library.Transition
import RealTimeCyclic.Library.Probing
import RealTimeCyclic.Slave
import Mathlib.Data.Nat.Bitwise
import Mathlib.Logic.Function.Basic
import Mathlib.Tactic.IntervalCases

namespace RealTimeCyclic.StartDialogue

open Shm Slave Probing Function Transition

def parameterBits : List ℕ := [stringParameterBit, intParameterBit, boolParameterBit]

/-- `question` counts the questions passed. The current one has been printed when
`asked` holds. `answered` collects the available parameters answered with `y`. -/
structure Dialogue where
  slot : Idx
  question : ℕ
  asked : Bool
  answered : ℕ
  deriving DecidableEq

/-- The segments, with the START requests that each slave has not handled yet and
the one it accepted last, as the parameters answered. -/
structure State where
  seg : Idx → Shmseg
  dialogue : Option Dialogue
  sent : Idx → List ℕ
  accepted : Idx → Option ℕ

def initial : State where
  seg _ := .initial
  dialogue := none
  sent _ := []
  accepted _ := none

inductive Event
  | claim (i : Idx) (pid : Pid)
  | setConnected (i : Idx)
  | reset (i : Idx)
  | refuse (i : Idx)
  | connectRequest (i : Idx) (name : CString.Mem)
  | startRequest (i : Idx)
  | stopRequest (i : Idx)
  | startSlaveCycle (pid : Pid)
  | ask
  | reply (parameterResponse : Char)
  | interval (reqCycleIntervalMs : Option Int) (killed : Bool)
  | automaticStart (i : Idx) (killed : Bool)
  deriving DecidableEq

def getAssignedShmsegIdx (seg : Idx → Shmseg) (pid : Pid) : Option Idx :=
  probe (fun i ↦ (seg i).pid = pid) (homeIdx pid)

def State.setSeg (s : State) (i : Idx) (seg : Shmseg) : State :=
  { s with seg := update s.seg i seg }

/-- `slave_processor_detached_thread` takes the slot. -/
def claim (i : Idx) (pid : Pid) (s : State) : Option State :=
  if (s.seg i).pid = noPid ∧ 0 < pid then some (s.setSeg i { s.seg i with pid := pid }) else none

def setConnected (i : Idx) (s : State) : Option State :=
  if (s.seg i).pid ≠ noPid then some (s.setSeg i { s.seg i with isConnected := true }) else none

/-- `reset_slave_shmseg`. What was on its way to the slave does not find the slot. -/
def reset (i : Idx) (s : State) : Option State :=
  if (s.seg i).pid ≠ noPid then
    some { s with
      seg := update s.seg i .initial
      sent := update s.sent i []
      accepted := update s.accepted i none }
  else none

/-- `handle_connect_slave_request` of the slave that owns the slot. -/
def connectRequest (offers : Pid → ℕ) (i : Idx) (name : CString.Mem) (s : State) : Option State :=
  if (s.seg i).pid ≠ noPid then
    some (s.setSeg i
      (handleConnectSlaveRequest (.initial name (offers (s.seg i).pid)) (s.seg i)))
  else none

/-- `handle_start_cycle_slave_request`. -/
def startRequest (i : Idx) (s : State) : Option State :=
  match s.sent i with
  | [] => none
  | answered :: sent =>
    if (s.seg i).cycleStarted then some { s with sent := update s.sent i sent }
    else
      some { s with
        seg := update s.seg i { s.seg i with cycleStarted := true }
        sent := update s.sent i sent
        accepted := update s.accepted i (some answered) }

/-- The master answers START with NACK, or its request is lost. -/
def refuse (i : Idx) (s : State) : Option State :=
  match s.sent i with
  | [] => none
  | _ :: sent => some { s with sent := update s.sent i sent }

/-- `handle_stop_cycle_slave_request`. -/
def stopRequest (i : Idx) (s : State) : Option State :=
  some (s.setSeg i { s.seg i with cycleStarted := false })

def notStarted (seg : Idx → Shmseg) : List Pid :=
  ((List.finRange maxSlaves).filter fun i ↦
    (seg i).pid ≠ noPid ∧ (seg i).isConnected ∧ ¬ (seg i).cycleStarted).map fun i ↦ (seg i).pid

/-- A valid pid has been typed. -/
def startSlaveCycle (pid : Pid) (s : State) : Option State :=
  if s.dialogue = none ∧ pid ∈ notStarted s.seg then
    match getAssignedShmsegIdx s.seg pid with
    | some i => some { s with dialogue := some ⟨i, 0, false, 0⟩ }
    | none => none
  else none

def Dialogue.next (d : Dialogue) (answered : ℕ) : Dialogue :=
  { d with question := d.question + 1, asked := false, answered := answered }

def ask (s : State) : Option State :=
  match s.dialogue with
  | none => none
  | some d =>
    match parameterBits[d.question]?, d.asked with
    | some bit, false =>
      if (s.seg d.slot).availableParameters &&& bit ≠ 0 then
        some { s with dialogue := some { d with asked := true } }
      else some { s with dialogue := some (d.next d.answered) }
    | _, _ => none

def affirmative (parameterResponse : Char) : Bool :=
  parameterResponse = 'y' ∨ parameterResponse = 'Y'

def reply (parameterResponse : Char) (s : State) : Option State :=
  match s.dialogue with
  | none => none
  | some d =>
    match parameterBits[d.question]?, d.asked with
    | some bit, true =>
      if affirmative parameterResponse then
        some { s with
          seg := update s.seg d.slot { s.seg d.slot with
            requestedParameters := (s.seg d.slot).requestedParameters ||| bit }
          dialogue := some (d.next (d.answered ||| bit)) }
      else some { s with dialogue := some (d.next d.answered) }
    | _, _ => none

def sendStart (i : Idx) (answered : ℕ) (killed : Bool) (s : State) : State :=
  if killed then { s with sent := update s.sent i (s.sent i ++ [answered]) } else s

def interval (reqCycleIntervalMs : Option Int) (killed : Bool) (s : State) : Option State :=
  match s.dialogue with
  | none => none
  | some d =>
    if d.question = parameterBits.length then
      match reqCycleIntervalMs with
      | none => some { s with dialogue := none }
      | some ms =>
        if ms ≤ 0 then some { s with dialogue := none }
        else
          some (sendStart d.slot d.answered killed { s with
            seg := update s.seg d.slot { s.seg d.slot with
              communicationCycleUs := communicationCycleUs ms }
            dialogue := none })
    else none

/-- AUTOMATIC_TEST starts one slave. It asks nothing: the string `010` stands for
the answers. -/
def automaticStart (i : Idx) (killed : Bool) (s : State) : Option State :=
  if s.dialogue = none ∧ (s.seg i).isConnected then
    some (sendStart i ((s.seg i).availableParameters &&& intParameterBit) killed
      (s.setSeg i { s.seg i with
        requestedParameters := (s.seg i).requestedParameters ||| intParameterBit
        communicationCycleUs := 500 * 1000 }))
  else none

/-- The available parameters of a slave are those on its command line. -/
def step (offers : Pid → ℕ) (s : State) : Event → Option State
  | .claim i pid => claim i pid s
  | .setConnected i => setConnected i s
  | .reset i => reset i s
  | .refuse i => refuse i s
  | .connectRequest i name => connectRequest offers i name s
  | .startRequest i => startRequest i s
  | .stopRequest i => stopRequest i s
  | .startSlaveCycle pid => startSlaveCycle pid s
  | .ask => ask s
  | .reply parameterResponse => reply parameterResponse s
  | .interval reqCycleIntervalMs killed => interval reqCycleIntervalMs killed s
  | .automaticStart i killed => automaticStart i killed s

/-- What a slot requests is offered by its slave and, once the slave has accepted
a START, was answered with `y` in that START. -/
structure RequestedExact (s : State) : Prop where
  offered : ∀ i, (s.seg i).requestedParameters &&& (s.seg i).availableParameters =
    (s.seg i).requestedParameters
  answered : ∀ i answered, s.accepted i = some answered → (s.seg i).cycleStarted = true →
    (s.seg i).requestedParameters = answered

/-- A START finds the slave stopped and no other START under way. In its dialogue
every parameter that is requested already is answered with `y` again, and the slot
is not reset. AUTOMATIC_TEST finds slaves that offer an integer and are to send
nothing else, and no START with other answers is under way when it starts or a cycle is
stopped. -/
def answersRepeated (s : State) : Event → Bool
  | .reset i => ∀ d, s.dialogue = some d → d.slot ≠ i
  | .stopRequest i => (s.seg i).cycleStarted →
      ∀ answered ∈ s.sent i, (s.seg i).requestedParameters = answered
  | .startSlaveCycle pid => ∀ i, getAssignedShmsegIdx s.seg pid = some i →
      s.sent i = [] ∧ (s.seg i).cycleStarted = false
  | .reply parameterResponse =>
    match s.dialogue with
    | some d => ∀ bit, parameterBits[d.question]? = some bit →
        (s.seg d.slot).requestedParameters &&& bit ≠ 0 → affirmative parameterResponse
    | none => true
  | .automaticStart i _ =>
    (s.seg i).availableParameters &&& intParameterBit ≠ 0 ∧
      ((s.seg i).cycleStarted → (s.seg i).requestedParameters &&& intParameterBit ≠ 0) ∧
      (¬ (s.seg i).cycleStarted →
        (s.seg i).requestedParameters ||| intParameterBit = intParameterBit ∧
          ∀ answered ∈ s.sent i, answered = intParameterBit)
  | _ => true

theorem parameterBits_get {n bit : ℕ} (h : parameterBits[n]? = some bit) :
    n < parameterBits.length ∧ bit = 2 ^ n := by
  obtain ⟨hn, hbit⟩ := List.getElem?_eq_some_iff.mp h
  refine ⟨hn, hbit.symm.trans ?_⟩
  change n < 3 at hn
  interval_cases n <;> rfl

theorem and_bit_ne_zero {m n : ℕ} : m &&& 2 ^ n ≠ 0 ↔ m.testBit n = true := by
  rw [Nat.and_two_pow]
  cases m.testBit n <;> simp

theorem and_eq_left {m n : ℕ} (h : ∀ k, m.testBit k = true → n.testBit k = true) : m &&& n = m := by
  refine Nat.eq_of_testBit_eq fun k ↦ ?_
  rw [Nat.testBit_and]
  cases hk : m.testBit k with
  | false => rfl
  | true => rw [h k hk]; rfl

theorem intParameterBit_eq : intParameterBit = 2 ^ 1 := rfl

structure SlotOk (offers : Pid → ℕ) (seg : Shmseg) (sent : List ℕ) (accepted : Option ℕ) :
    Prop where
  subset : ∀ n, seg.requestedParameters.testBit n = true →
    seg.availableParameters.testBit n = true
  bits : ∀ n, seg.requestedParameters.testBit n = true → n < parameterBits.length
  free : seg.pid = noPid → seg.availableParameters = 0
  offered : seg.availableParameters = 0 ∨ seg.availableParameters = offers seg.pid
  sent : seg.cycleStarted = false → ∀ answered ∈ sent, seg.requestedParameters = answered
  accepted : ∀ answered, accepted = some answered → seg.cycleStarted = true →
    seg.requestedParameters = answered

/-- The questions passed have settled their parameters. -/
structure DialogueOk (seg : Shmseg) (sent : List ℕ) (d : Dialogue) : Prop where
  unsent : sent = []
  stopped : seg.cycleStarted = false
  question : d.question ≤ parameterBits.length
  passed : ∀ n < d.question, d.answered.testBit n = seg.requestedParameters.testBit n
  pending : ∀ n, d.question ≤ n → d.answered.testBit n = false
  asked : d.asked = true → seg.availableParameters.testBit d.question = true

structure ParametersInv (offers : Pid → ℕ) (s : State) : Prop where
  slot : ∀ i, SlotOk offers (s.seg i) (s.sent i) (s.accepted i)
  dialogue : ∀ d, s.dialogue = some d → DialogueOk (s.seg d.slot) (s.sent d.slot) d

variable {offers : Pid → ℕ} {s t : State}

theorem ParametersInv.requestedExact (h : ParametersInv offers s) : RequestedExact s :=
  ⟨fun i ↦ and_eq_left (h.slot i).subset, fun i ↦ (h.slot i).accepted⟩

theorem ParametersInv.of_slot (h : ParametersInv offers s) (i : Idx)
    (hother : ∀ k, k ≠ i → t.seg k = s.seg k ∧ t.sent k = s.sent k ∧ t.accepted k = s.accepted k)
    (hslot : SlotOk offers (t.seg i) (t.sent i) (t.accepted i))
    (hdialogue : ∀ d, t.dialogue = some d → (d.slot ≠ i → s.dialogue = some d) ∧
      (d.slot = i → DialogueOk (t.seg i) (t.sent i) d)) : ParametersInv offers t := by
  refine ⟨fun k ↦ ?_, fun d hd ↦ ?_⟩
  · by_cases hk : k = i
    · exact hk ▸ hslot
    · rw [(hother k hk).1, (hother k hk).2.1, (hother k hk).2.2]
      exact h.slot k
  · obtain ⟨hold, hnew⟩ := hdialogue d hd
    by_cases hk : d.slot = i
    · exact hk ▸ hnew hk
    · rw [(hother _ hk).1, (hother _ hk).2.1]
      exact h.dialogue d (hold hk)

theorem ParametersInv.set_seg (h : ParametersInv offers s) {i : Idx} {seg : Shmseg}
    (hslot : SlotOk offers seg (s.sent i) (s.accepted i))
    (hstarted : seg.cycleStarted = (s.seg i).cycleStarted)
    (hrequested : seg.requestedParameters = (s.seg i).requestedParameters)
    (havailable : ∀ n, (s.seg i).availableParameters.testBit n = true →
      seg.availableParameters.testBit n = true) : ParametersInv offers (s.setSeg i seg) := by
  refine h.of_slot i (fun k hk ↦ ⟨update_of_ne hk _ _, rfl, rfl⟩) ?_ fun d hd ↦ ⟨fun _ ↦ hd, ?_⟩
  · simpa only [State.setSeg, update_self] using hslot
  · rintro rfl
    have hold := h.dialogue d hd
    simp only [State.setSeg, update_self]
    exact ⟨hold.unsent, hstarted.trans hold.stopped, hold.question, hrequested ▸ hold.passed,
      hold.pending, fun ha ↦ havailable _ (hold.asked ha)⟩

theorem initial_slotOk : SlotOk offers .initial [] none :=
  ⟨by simp [Shmseg.initial, initSlaveShmsegSharedMemory, Shmseg.zero],
    by simp [Shmseg.initial, initSlaveShmsegSharedMemory, Shmseg.zero], fun _ ↦ rfl, .inl rfl,
    by simp, by simp⟩

theorem claim_inv (h : ParametersInv offers s) {i : Idx} {pid : Pid}
    (hs : claim i pid s = some t) : ParametersInv offers t := by
  obtain ⟨⟨hfree, hpos⟩, hs⟩ := Option.ite_none_right_eq_some.mp hs
  obtain rfl := Option.some.inj hs
  have hold := h.slot i
  refine h.set_seg ⟨hold.subset, hold.bits, fun _ ↦ hold.free hfree, .inl (hold.free hfree),
    hold.sent, hold.accepted⟩ rfl rfl fun _ ↦ id

theorem setConnected_inv (h : ParametersInv offers s) {i : Idx} (hs : setConnected i s = some t) :
    ParametersInv offers t := by
  obtain ⟨-, hs⟩ := Option.ite_none_right_eq_some.mp hs
  obtain rfl := Option.some.inj hs
  have hold := h.slot i
  exact h.set_seg ⟨hold.subset, hold.bits, hold.free, hold.offered, hold.sent, hold.accepted⟩ rfl
    rfl fun _ ↦ id

theorem reset_inv (h : ParametersInv offers s) {i : Idx}
    (hok : answersRepeated s (.reset i) = true) (hs : reset i s = some t) :
    ParametersInv offers t := by
  obtain ⟨-, hs⟩ := Option.ite_none_right_eq_some.mp hs
  obtain rfl := Option.some.inj hs
  have hok := of_decide_eq_true hok
  refine h.of_slot i (fun k hk ↦ ?_) ?_ fun d hd ↦ ⟨fun _ ↦ hd, fun heq ↦ absurd heq (hok d hd)⟩
  · simp only [update_of_ne hk, and_self]
  · simp only [update_self]
    exact initial_slotOk

theorem connectRequest_inv (h : ParametersInv offers s) {i : Idx} {name : CString.Mem}
    (hs : connectRequest offers i name s = some t) : ParametersInv offers t := by
  obtain ⟨howned, hs⟩ := Option.ite_none_right_eq_some.mp hs
  obtain rfl := Option.some.inj hs
  have hold := h.slot i
  have hgrows (n : ℕ) (hn : (s.seg i).availableParameters.testBit n = true) :
      (offers (s.seg i).pid).testBit n = true := by
    rcases hold.offered with hzero | hsame
    · simp [hzero] at hn
    · exact hsame ▸ hn
  exact h.set_seg ⟨fun n hn ↦ hgrows n (hold.subset n hn), hold.bits, fun hp ↦ absurd hp howned,
    .inr rfl, hold.sent, hold.accepted⟩ rfl rfl hgrows

theorem startRequest_inv (h : ParametersInv offers s) {i : Idx}
    (hs : startRequest i s = some t) : ParametersInv offers t := by
  unfold startRequest at hs
  split at hs
  · cases hs
  · rename_i answered sent hsent
    have hold := h.slot i
    have hbusy (d : Dialogue) (hd : s.dialogue = some d) : d.slot ≠ i := by
      rintro rfl
      simp [(h.dialogue d hd).unsent] at hsent
    split_ifs at hs with hstarted
    all_goals
      obtain rfl := Option.some.inj hs
      refine h.of_slot i (fun k hk ↦ ?_) ?_ fun d hd ↦
        ⟨fun _ ↦ hd, fun heq ↦ absurd heq (hbusy d hd)⟩
    · simp only [update_of_ne hk, and_self]
    · simp only [update_self]
      exact ⟨hold.subset, hold.bits, hold.free, hold.offered, fun hno ↦ by simp [hstarted] at hno,
        hold.accepted⟩
    · simp only [update_of_ne hk, and_self]
    · simp only [update_self]
      have hrequested : (s.seg i).requestedParameters = answered :=
        hold.sent (by simpa using hstarted) answered (by simp [hsent])
      refine ⟨hold.subset, hold.bits, hold.free, hold.offered, by simp, fun a ha _ ↦ ?_⟩
      exact hrequested.trans (Option.some.inj ha)

theorem refuse_inv (h : ParametersInv offers s) {i : Idx} (hs : refuse i s = some t) :
    ParametersInv offers t := by
  unfold refuse at hs
  split at hs
  · cases hs
  · rename_i answered sent hsent
    obtain rfl := Option.some.inj hs
    have hold := h.slot i
    refine h.of_slot i (fun k hk ↦ ?_) ?_ fun d hd ↦ ⟨fun _ ↦ hd, ?_⟩
    · simp only [update_of_ne hk, and_self]
    · simp only [update_self]
      refine ⟨hold.subset, hold.bits, hold.free, hold.offered, fun hno a ha ↦ ?_, hold.accepted⟩
      exact hold.sent hno a (by simp [hsent, ha])
    · rintro rfl
      simp [(h.dialogue d hd).unsent] at hsent

theorem stopRequest_inv (h : ParametersInv offers s) {i : Idx}
    (hok : answersRepeated s (.stopRequest i) = true) (hs : stopRequest i s = some t) :
    ParametersInv offers t := by
  obtain rfl := Option.some.inj hs
  have hok := of_decide_eq_true hok
  have hold := h.slot i
  refine h.of_slot i (fun k hk ↦ ⟨update_of_ne hk _ _, rfl, rfl⟩) ?_ fun d hd ↦ ⟨fun _ ↦ hd, ?_⟩
  · simp only [State.setSeg, update_self]
    refine ⟨hold.subset, hold.bits, hold.free, hold.offered, fun _ a ha ↦ ?_, by simp⟩
    by_cases hstarted : (s.seg i).cycleStarted = true
    · exact hok hstarted a ha
    · exact hold.sent (by simpa using hstarted) a ha
  · rintro rfl
    have hopen := h.dialogue d hd
    simp only [State.setSeg, update_self]
    exact ⟨hopen.unsent, rfl, hopen.question, hopen.passed, hopen.pending, hopen.asked⟩

theorem startSlaveCycle_inv (h : ParametersInv offers s) {pid : Pid}
    (hok : answersRepeated s (.startSlaveCycle pid) = true)
    (hs : startSlaveCycle pid s = some t) : ParametersInv offers t := by
  obtain ⟨-, hs⟩ := Option.ite_none_right_eq_some.mp hs
  split at hs
  · rename_i i hfound
    obtain rfl := Option.some.inj hs
    obtain ⟨hunsent, hstopped⟩ := of_decide_eq_true hok i hfound
    refine ⟨h.slot, fun d hd ↦ ?_⟩
    rw [← Option.some.inj hd]
    exact ⟨hunsent, hstopped, Nat.zero_le _, by simp, by simp, by simp⟩
  · cases hs

theorem DialogueOk.next {seg seg' : Shmseg} {sent : List ℕ} {d : Dialogue} {answered : ℕ}
    (h : DialogueOk seg sent d) (hstarted : seg'.cycleStarted = seg.cycleStarted)
    (hquestion : d.question < parameterBits.length)
    (hcurrent : answered.testBit d.question = seg'.requestedParameters.testBit d.question)
    (hother : ∀ n, n ≠ d.question → answered.testBit n = d.answered.testBit n ∧
      seg'.requestedParameters.testBit n = seg.requestedParameters.testBit n) :
    DialogueOk seg' sent (d.next answered) := by
  refine ⟨h.unsent, hstarted.trans h.stopped, hquestion, fun n hn ↦ ?_, fun n hn ↦ ?_,
    by simp [Dialogue.next]⟩
  · rcases Nat.lt_succ_iff_lt_or_eq.mp hn with hlt | rfl
    · obtain ⟨hanswered, hrequested⟩ := hother n hlt.ne
      exact (hanswered.trans (h.passed n hlt)).trans hrequested.symm
    · exact hcurrent
  · have hlt : d.question < n := hn
    exact (hother n hlt.ne').1.trans (h.pending n hlt.le)

theorem ask_inv (h : ParametersInv offers s) (hs : ask s = some t) : ParametersInv offers t := by
  unfold ask at hs
  split at hs
  · cases hs
  · rename_i d hd
    have hopen := h.dialogue d hd
    split at hs
    · rename_i bit hbit hasked
      obtain ⟨hquestion, rfl⟩ := parameterBits_get hbit
      split_ifs at hs with havailable
      all_goals
        obtain rfl := Option.some.inj hs
        refine ⟨h.slot, fun d' hd' ↦ ?_⟩
        rw [← Option.some.inj hd']
      · exact ⟨hopen.unsent, hopen.stopped, hopen.question, hopen.passed, hopen.pending,
          fun _ ↦ and_bit_ne_zero.mp havailable⟩
      · have hrequested : (s.seg d.slot).requestedParameters.testBit d.question = false := by
          by_contra hrequested
          have hsubset := (h.slot d.slot).subset d.question (by simpa using hrequested)
          exact havailable (and_bit_ne_zero.mpr hsubset)
        exact hopen.next rfl hquestion ((hopen.pending _ le_rfl).trans hrequested.symm)
          fun _ _ ↦ ⟨rfl, rfl⟩
    · cases hs

theorem reply_inv (h : ParametersInv offers s) {parameterResponse : Char}
    (hok : answersRepeated s (.reply parameterResponse) = true)
    (hs : reply parameterResponse s = some t) : ParametersInv offers t := by
  unfold reply at hs
  split at hs
  · cases hs
  · rename_i d hd
    have hopen := h.dialogue d hd
    have hold := h.slot d.slot
    split at hs
    · rename_i bit hbit hasked
      simp only [answersRepeated, hd, decide_eq_true_eq] at hok
      have hok := hok bit hbit
      obtain ⟨hquestion, rfl⟩ := parameterBits_get hbit
      rw [and_bit_ne_zero] at hok
      split_ifs at hs with hyes
      all_goals obtain rfl := Option.some.inj hs
      · refine h.of_slot d.slot (fun k hk ↦ ⟨update_of_ne hk _ _, rfl, rfl⟩) ?_ fun d' hd' ↦ ?_
        · simp only [update_self]
          refine ⟨fun n hn ↦ ?_, fun n hn ↦ ?_, hold.free, hold.offered, by simp [hopen.unsent],
            by simp [hopen.stopped]⟩
          all_goals
            rw [Nat.testBit_or, Nat.testBit_two_pow, Bool.or_eq_true, decide_eq_true_eq] at hn
            rcases hn with hn | rfl
          · exact hold.subset n hn
          · exact hopen.asked hasked
          · exact hold.bits n hn
          · exact hquestion
        · rw [← Option.some.inj hd']
          refine ⟨fun hne ↦ absurd rfl hne, fun _ ↦ ?_⟩
          simp only [update_self]
          refine hopen.next rfl hquestion ?_ fun n hn ↦ ⟨?_, ?_⟩
          · simp
          · simp [hn.symm]
          · simp [hn.symm]
      · have hrequested : (s.seg d.slot).requestedParameters.testBit d.question = false := by
          by_contra hrequested
          exact hyes (hok (by simpa using hrequested))
        refine ⟨h.slot, fun d' hd' ↦ ?_⟩
        rw [← Option.some.inj hd']
        exact hopen.next rfl hquestion ((hopen.pending _ le_rfl).trans hrequested.symm)
          fun _ _ ↦ ⟨rfl, rfl⟩
    · cases hs

theorem DialogueOk.requested {seg : Shmseg} {sent : List ℕ} {d : Dialogue} {accepted : Option ℕ}
    (h : DialogueOk seg sent d) (hslot : SlotOk offers seg sent accepted)
    (hquestion : d.question = parameterBits.length) : seg.requestedParameters = d.answered := by
  refine Nat.eq_of_testBit_eq fun n ↦ ?_
  by_cases hn : n < d.question
  · exact (h.passed n hn).symm
  · rw [h.pending n (not_lt.mp hn)]
    by_contra hrequested
    exact hn (hquestion ▸ hslot.bits n (by simpa using hrequested))

theorem interval_inv (h : ParametersInv offers s) {reqCycleIntervalMs : Option Int} {killed : Bool}
    (hs : interval reqCycleIntervalMs killed s = some t) : ParametersInv offers t := by
  unfold interval at hs
  split at hs
  · cases hs
  · rename_i d hd
    have hopen := h.dialogue d hd
    have hold := h.slot d.slot
    have haborted : ParametersInv offers { s with dialogue := none } := ⟨h.slot, by simp⟩
    split_ifs at hs with hquestion
    have hrequested := hopen.requested hold hquestion
    split at hs
    · exact Option.some.inj hs ▸ haborted
    · split_ifs at hs
      · exact Option.some.inj hs ▸ haborted
      · obtain rfl := Option.some.inj hs
        unfold sendStart
        split_ifs
        · refine h.of_slot d.slot (fun k hk ↦ ?_) ?_ (by simp)
          · simp only [update_of_ne hk, and_self]
          · simp only [update_self, hopen.unsent, List.nil_append]
            refine ⟨hold.subset, hold.bits, hold.free, hold.offered, fun _ a ha ↦ ?_, hold.accepted⟩
            exact hrequested.trans (List.mem_singleton.mp ha).symm
        · refine h.of_slot d.slot (fun k hk ↦ ⟨update_of_ne hk _ _, rfl, rfl⟩) ?_ (by simp)
          simp only [update_self]
          exact ⟨hold.subset, hold.bits, hold.free, hold.offered, hold.sent, hold.accepted⟩

/-- The slave already sends an integer, or is asked for nothing else. -/
theorem automaticStart_inv (h : ParametersInv offers s) {i : Idx} {killed : Bool}
    (hok : answersRepeated s (.automaticStart i killed) = true)
    (hs : automaticStart i killed s = some t) : ParametersInv offers t := by
  obtain ⟨⟨hnone, -⟩, hs⟩ := Option.ite_none_right_eq_some.mp hs
  obtain rfl := Option.some.inj hs
  obtain ⟨havailable, hstarted, hstopped⟩ := of_decide_eq_true hok
  rw [intParameterBit_eq, and_bit_ne_zero] at havailable
  have hold := h.slot i
  have hanswered : (s.seg i).availableParameters &&& intParameterBit = intParameterBit := by
    rw [intParameterBit_eq, Nat.and_two_pow, havailable, Bool.toNat_true, one_mul]
  have hslot (sent : List ℕ) (hsent : ∀ a ∈ sent, a ∈ s.sent i ∨ a = intParameterBit) :
      SlotOk offers { s.seg i with
        requestedParameters := (s.seg i).requestedParameters ||| intParameterBit
        communicationCycleUs := 500 * 1000 } sent (s.accepted i) := by
    refine ⟨fun n hn ↦ ?_, fun n hn ↦ ?_, hold.free, hold.offered, fun hno a ha ↦ ?_,
      fun a ha hyes ↦ ?_⟩
    · rw [intParameterBit_eq, Nat.testBit_or, Nat.testBit_two_pow, Bool.or_eq_true,
        decide_eq_true_eq] at hn
      rcases hn with hn | rfl
      · exact hold.subset n hn
      · exact havailable
    · rw [intParameterBit_eq, Nat.testBit_or, Nat.testBit_two_pow, Bool.or_eq_true,
        decide_eq_true_eq] at hn
      rcases hn with hn | rfl
      · exact hold.bits n hn
      · decide
    · obtain ⟨hrequested, hunsent⟩ := hstopped (by simpa using hno)
      rcases hsent a ha with hin | rfl
      · exact hrequested.trans (hunsent a hin).symm
      · exact hrequested
    · have hint := hstarted hyes
      rw [intParameterBit_eq, and_bit_ne_zero] at hint
      have hsame : (s.seg i).requestedParameters ||| intParameterBit =
          (s.seg i).requestedParameters := by
        refine Nat.eq_of_testBit_eq fun n ↦ ?_
        rw [intParameterBit_eq, Nat.testBit_or, Nat.testBit_two_pow]
        by_cases hn : 1 = n
        · simp [← hn, hint]
        · simp [hn]
      exact hsame.trans (hold.accepted a ha hyes)
  unfold sendStart
  split_ifs
  · refine h.of_slot i (fun k hk ↦ ?_) ?_ fun d hd ↦ absurd hd (by simp [State.setSeg, hnone])
    · simp only [State.setSeg, update_of_ne hk, and_self]
    · simp only [State.setSeg, update_self, hanswered]
      refine hslot _ fun a ha ↦ ?_
      exact (List.mem_append.mp ha).imp_right List.mem_singleton.mp
  · refine h.of_slot i (fun k hk ↦ ⟨update_of_ne hk _ _, rfl, rfl⟩) ?_
      fun d hd ↦ absurd hd (by simp [State.setSeg, hnone])
    simp only [State.setSeg, update_self]
    exact hslot _ fun a ha ↦ .inl ha

theorem step_inv {e : Event} (h : ParametersInv offers s) (hok : answersRepeated s e = true)
    (hs : step offers s e = some t) : ParametersInv offers t := by
  cases e with
  | claim i pid => exact claim_inv h hs
  | setConnected i => exact setConnected_inv h hs
  | reset i => exact reset_inv h hok hs
  | refuse i => exact refuse_inv h hs
  | connectRequest i name => exact connectRequest_inv h hs
  | startRequest i => exact startRequest_inv h hs
  | stopRequest i => exact stopRequest_inv h hok hs
  | startSlaveCycle pid => exact startSlaveCycle_inv h hok hs
  | ask => exact ask_inv h hs
  | reply parameterResponse => exact reply_inv h hok hs
  | interval reqCycleIntervalMs killed => exact interval_inv h hs
  | automaticStart i killed => exact automaticStart_inv h hok hs

theorem initial_inv : ParametersInv offers initial :=
  ⟨fun _ ↦ initial_slotOk, by simp [initial]⟩

theorem requestedExact_of_repeated
    (h : Reaches (step offers) (fun s e ↦ answersRepeated s e = true) initial s) :
    RequestedExact s := by
  have hinv : ParametersInv offers s := h.invariant initial_inv fun _ _ _ ↦ step_inv
  exact hinv.requestedExact

def connected : List Event :=
  [.claim 4 100, .connectRequest 4 [97], .setConnected 4]

def start (string int bool : Char) : List Event :=
  [.startSlaveCycle 100, .ask, .reply string, .ask, .reply int, .ask, .reply bool,
    .interval (some 1000) true, .startRequest 4]

/-- A second START adds the boolean to the string and AUTOMATIC_TEST finds slave 132
with nothing requested. -/
theorem parameter_added :
    ∃ s, (s.seg 4).requestedParameters = 5 ∧ s.accepted 4 = some 5 ∧
      (s.seg 5).requestedParameters = 2 ∧ s.accepted 5 = some 2 ∧ RequestedExact s := by
  have hrun : (run (guarded (step fun _ ↦ 7) fun s e ↦ answersRepeated s e = true) initial
      (connected ++ start 'y' 'n' 'n' ++ [.stopRequest 4] ++ start 'y' 'n' 'Y' ++
        [.claim 5 132, .connectRequest 5 [98], .setConnected 5, .automaticStart 5 true,
          .startRequest 5])).map
      (fun s ↦ ((s.seg 4).requestedParameters, s.accepted 4, (s.seg 5).requestedParameters,
        s.accepted 5)) = some (5, some 5, 2, some 2) := by
    decide +kernel
  obtain ⟨s, hs, hview⟩ := Option.map_eq_some_iff.mp hrun
  simp only [Prod.mk.injEq] at hview
  exact ⟨s, hview.1, hview.2.1, hview.2.2.1, hview.2.2.2, requestedExact_of_repeated (.of_run hs)⟩

/-- The string requested first is still requested when the second START drops it. -/
theorem parameter_kept :
    ¬ ∀ s, Reaches (step fun _ ↦ 7) unrestricted initial s → RequestedExact s := by
  intro hall
  have hrun : (run (step fun _ ↦ 7) initial
      (connected ++ start 'y' 'n' 'n' ++ [.stopRequest 4] ++ start 'n' 'y' 'n')).map
      (fun s ↦ ((s.seg 4).requestedParameters, s.accepted 4, (s.seg 4).cycleStarted)) =
      some (3, some 2, true) := by
    decide +kernel
  obtain ⟨s, hs, hview⟩ := Option.map_eq_some_iff.mp hrun
  simp only [Prod.mk.injEq] at hview
  have heq := (hall s (.of_unrestricted_run hs)).answered 4 2 hview.2.1 hview.2.2
  rw [hview.1] at heq
  exact absurd heq (by decide)

end RealTimeCyclic.StartDialogue
