import RealTimeCyclic.MasterMove

namespace RealTimeCyclic.MasterBlocking

open Shm SlotThread Probing Function Master Transition

def OthersServed (s : State) : Prop :=
  ∀ c request pid i, s.sync = .semWait c request pid i → (s.slots i).seg.semMToSRequest = 0 →
    s.pendingMaster = true → s.latest.pid = pid

def busy : Pc → Bool
  | .sigSemWait | .requestErrors _ | .getvalueSToM _ | .getvalueMToS _ | .requestConnected _
  | .requestSwitch _ | .requestAck _ | .requestKill _ | .exited => false
  | _ => true

def engaged (i : Idx) : ThreadPc → Bool
  | .claim _ k => k = i
  | .serve _ k pc => k = i ∧ busy pc
  | _ => false

/-- No request to the slave of the slot is outstanding. -/
structure Answered (s : State) (i : Idx) : Prop where
  released : 0 < (s.slots i).seg.semMToSRequest
  quiet : ∀ t ∈ s.threads, engaged i t.pc = false

instance (s : State) (i : Idx) : Decidable (Answered s i) :=
  decidable_of_iff (0 < (s.slots i).seg.semMToSRequest ∧ ∀ t ∈ s.threads, engaged i t.pc = false)
    ⟨fun ⟨h₁, h₂⟩ ↦ ⟨h₁, h₂⟩, fun ⟨h₁, h₂⟩ ↦ ⟨h₁, h₂⟩⟩

/-- The sync thread turns to a slave only when the last request to it is answered. -/
def answeredFirst (s : State) : Event → Bool
  | .sync _ _ =>
    match s.sync with
    | .lookup _ _ =>
      ∀ i, getAssignedShmsegIdx s.slots s.control.affectedSlavePid = some i → Answered s i
    | _ => true
  | _ => true

def addressed : SyncPc → Option Idx
  | .checkCycle _ _ i | .semWait _ _ _ i => some i
  | _ => none

structure BlockingInv (s : State) : Prop where
  named : s.control.affectedSlavePid ≠ noPid
  answered : ∀ i, addressed s.sync = some i → Answered s i
  owned : ∀ i, addressed s.sync = some i → (s.slots i).seg.pid ≠ noPid

theorem BlockingInv.othersServed {s : State} (h : BlockingInv s) : OthersServed s := by
  intro c request pid i hpc hzero
  have hpos := (h.answered i (by rw [hpc]; rfl)).released
  exact absurd hzero hpos.ne'

theorem step_quiet {current : ℕ} {mustChange killed : Bool} {v v' : View} {effect : Effect}
    (h : SlotThread.step current mustChange killed v = some (v', effect))
    (hquiet : busy v.pc = false) (hpos : 0 < v.seg.semMToSRequest) :
    busy v'.pc = false ∧ v'.seg.semMToSRequest = v.seg.semMToSRequest ∧
      v'.seg.pid = v.seg.pid := by
  cases step_move h with
  | jumped hjump =>
    cases hjump with
    | responseDecoded hpc hzero => exact absurd hzero hpos.ne'
    | _ => simp_all [busy]
  | errorsHandled hpc hseg =>
    have hsame := SameControl.of_errors hseg
    exact ⟨rfl, hsame.semMToSRequest, hsame.pid⟩
  | received hpc =>
    have hsame := receiveParameters_sameControl v.seg
    exact ⟨rfl, hsame.semMToSRequest, hsame.pid⟩
  | woken hpc hwake | acknowledged hpc | acknowledgeSent hpc => exact ⟨rfl, rfl, rfl⟩
  | _ => simp_all [busy]

theorem BlockingInv.keep {s t : State} (h : BlockingInv s)
    (hnamed : t.control.affectedSlavePid ≠ noPid) (hsync : t.sync = s.sync)
    (hslots : ∀ i, addressed s.sync = some i →
      (t.slots i).seg.semMToSRequest = (s.slots i).seg.semMToSRequest ∧
        (t.slots i).seg.pid = (s.slots i).seg.pid)
    (hthreads : ∀ i, addressed s.sync = some i → ∀ u ∈ t.threads,
      u ∈ s.threads ∨ engaged i u.pc = false) : BlockingInv t := by
  refine ⟨hnamed, fun i hi ↦ ⟨?_, fun u hu ↦ ?_⟩, fun i hi ↦ ?_⟩
  all_goals rw [hsync] at hi
  · rw [(hslots i hi).1]
    exact (h.answered i hi).released
  · rcases hthreads i hi u hu with hold | hnew
    · exact (h.answered i hi).quiet u hold
    · exact hnew
  · rw [(hslots i hi).2]
    exact h.owned i hi

theorem syncStep_inv {created killed : Bool} {s t : State} (h : BlockingInv s)
    (hok : answeredFirst s (.sync created killed) = true)
    (hs : syncStep created killed s = some t) : BlockingInv t := by
  have hfree {u : State} (hnamed : u.control.affectedSlavePid = s.control.affectedSlavePid)
      (hnone : addressed u.sync = none) : BlockingInv u := by
    refine ⟨hnamed ▸ h.named, fun i hi ↦ ?_, fun i hi ↦ ?_⟩
    all_goals simp [hnone] at hi
  have hturn {c : Command} {request : Request} {i : Idx} (hpc : s.sync = .lookup c request)
      (hfound : getAssignedShmsegIdx s.slots s.control.affectedSlavePid = some i)
      {pc : SyncPc} (hi : addressed pc = some i) : BlockingInv { s with sync := pc } := by
    simp only [answeredFirst, hpc, decide_eq_true_eq] at hok
    refine ⟨h.named, fun k hk ↦ ?_, fun k hk ↦ ?_⟩
    all_goals obtain rfl := Option.some.inj (hi.symm.trans hk)
    · exact ⟨(hok i hfound).released, (hok i hfound).quiet⟩
    · have hpid : (s.slots i).seg.pid = s.control.affectedSlavePid := by
        simpa using probe_some hfound
      exact hpid ▸ h.named
  cases syncStep_move hs with
  | startFound hpc hfound => exact hturn hpc hfound rfl
  | slaveFound hpc _ hfound => exact hturn hpc hfound rfl
  | cycleSet hpc =>
    refine ⟨h.named, fun k hk ↦ ?_, fun k hk ↦ h.owned k (by rw [hpc]; exact hk)⟩
    have hanswered := h.answered k (by rw [hpc]; exact hk)
    exact ⟨hanswered.released, hanswered.quiet⟩
  | _ => exact hfree rfl rfl

theorem threadStep_inv {j : ℕ} {mustChange killed : Bool} {s t : State} (h : BlockingInv s)
    (hs : threadStep j mustChange killed s = some t) : BlockingInv t := by
  have hf := threadStep_frame hs
  have hnamed : t.control.affectedSlavePid ≠ noPid := hf.affected ▸ h.named
  obtain ⟨thread, ht, hmove⟩ := threadStep_move hs
  have hset {u w : Thread} {i : Idx} (hu : engaged i u.pc = false)
      (hw : w ∈ s.threads.set j u) : w ∈ s.threads ∨ engaged i w.pc = false := by
    rcases List.mem_or_eq_of_mem_set hw with hold | rfl
    · exact .inl hold
    · exact .inr hu
  have hquiet {i : Idx} (hi : addressed s.sync = some i) : engaged i thread.pc = false :=
    (h.answered i hi).quiet thread (List.mem_of_getElem? ht)
  cases hmove with
  | argumentRead hpc | alreadyConnected hpc hfound | unassigned hpc hnone | outOfMemory hpc hnone =>
    exact h.keep hnamed hf.sync (fun _ _ ↦ ⟨rfl, rfl⟩) fun i hi u hu ↦ hset rfl hu
  | placed hpc hfree =>
    rename_i pid k
    refine h.keep hnamed hf.sync (fun _ _ ↦ ⟨rfl, rfl⟩) fun i hi u hu ↦ hset ?_ hu
    have hpid : (s.slots k).seg.pid = noPid := by simpa using probe_some hfree
    refine decide_eq_false ?_
    rintro rfl
    exact h.owned k hi hpid
  | claimed hpc =>
    rename_i pid k
    have hother {i : Idx} (hi : addressed s.sync = some i) : i ≠ k := by
      have hk := hquiet hi
      rw [hpc] at hk
      exact fun heq ↦ of_decide_eq_false hk heq.symm
    refine h.keep hnamed hf.sync (fun i hi ↦ ?_) fun i hi u hu ↦ hset ?_ hu
    · simp only [State.setPc, State.setSeg, update_of_ne (hother hi), and_self]
    · exact decide_eq_false fun heq ↦ hother hi heq.1.symm
  | served hpc hstep =>
    rename_i pid k pc v effect
    have hstepped {i : Idx} (hi : addressed s.sync = some i) (hik : i = k) :
        busy v.pc = false ∧ v.seg.semMToSRequest = (s.slots i).seg.semMToSRequest ∧
          v.seg.pid = (s.slots i).seg.pid := by
      have hk := hquiet hi
      rw [hpc] at hk
      subst hik
      exact step_quiet hstep (by simpa [engaged] using hk) (h.answered i hi).released
    refine h.keep hnamed hf.sync (fun i hi ↦ ?_) fun i hi u hu ↦ ?_
    · rw [answer_slots]
      by_cases hik : i = k
      · have hslot := hstepped hi hik
        subst hik
        simp only [update_self, Slot.stepped]
        exact hslot.2
      · simp only [update_of_ne hik, and_self]
    · rw [answer_threads] at hu
      refine hset ?_ hu
      by_cases hik : i = k
      · simp [engaged, Thread.stepped, (hstepped hi hik).1]
      · exact decide_eq_false fun heq ↦ hik heq.1.symm

theorem deliverStep_inv {s : State} (pid : Pid) (signal : Signal) (h : BlockingInv s) :
    BlockingInv (deliverStep pid signal s) := by
  have hf := deliverStep_frame pid signal s
  refine h.keep (hf.affected ▸ h.named) hf.sync (fun i _ ↦ ?_) fun i _ u hu ↦ .inl ?_
  · rw [deliverStep_seg]
    exact ⟨rfl, rfl⟩
  · exact deliverStep_threads pid signal s ▸ hu

theorem step_inv {s t : State} {e : Event} (h : BlockingInv s) (hok : answeredFirst s e = true)
    (hs : step s e = some t) : BlockingInv t := by
  have hkept {u : State} (hnamed : u.control.affectedSlavePid ≠ noPid) (hsync : u.sync = s.sync)
      (hslots : u.slots = s.slots) (hthreads : u.threads = s.threads) : BlockingInv u :=
    h.keep hnamed hsync (fun i _ ↦ by rw [hslots]; exact ⟨rfl, rfl⟩)
      fun i _ w hw ↦ .inl (hthreads ▸ hw)
  have hwritten {i : Idx} {seg : Shmseg}
      (hsem : seg.semMToSRequest = (s.slots i).seg.semMToSRequest)
      (hpid : seg.pid = (s.slots i).seg.pid) : BlockingInv (s.setSeg i seg) := by
    refine h.keep h.named rfl (fun k _ ↦ ?_) fun k _ w hw ↦ .inl hw
    exact ⟨update_kept (·.seg.semMToSRequest : Slot → ℕ) hsem k,
      update_kept (·.seg.pid : Slot → Pid) hpid k⟩
  cases e with
  | sync created killed => exact syncStep_inv h hok hs
  | thread j mustChange killed => exact threadStep_inv h hs
  | deliver pid signal => exact Option.some.inj hs ▸ deliverStep_inv pid signal h
  | slave i w | configure i requestedParameters communicationCycleUs =>
    exact Option.some.inj hs ▸ hwritten rfl rfl
  | name pid =>
    obtain ⟨⟨-, -, hpos⟩, hs⟩ := Option.ite_none_right_eq_some.mp hs
    rw [← Option.some.inj hs]
    refine hkept ?_ rfl rfl rfl
    rintro rfl
    exact absurd hpos (by decide)
  | _ =>
    obtain ⟨-, hs⟩ := Option.ite_none_right_eq_some.mp hs
    rw [← Option.some.inj hs]
    exact hkept h.named rfl rfl rfl

theorem initial_inv : BlockingInv initial :=
  ⟨by decide, by simp [initial, addressed], by simp [initial, addressed]⟩

theorem menu_reached (s : State) : ∃ t, Reaches step unrestricted s t ∧ t.configurator = .menu ∧
    t.sync = s.sync ∧ t.slots = s.slots := by
  have hsent (hpc : s.configurator = .named) : ∃ t, Reaches step unrestricted s t ∧
      t.configurator = .menu ∧ t.sync = s.sync ∧ t.slots = s.slots := by
    let u : State := { s with
      pendingMaster := true
      latest := ⟨s.latest.id + 1, s.control.request, s.control.affectedSlavePid⟩
      configurator := .waiting }
    have hsend : step s .send = some u := if_pos hpc
    have htimeout : step u .timeout = some { u with configurator := .menu } := rfl
    exact ⟨_, .next (.next .start trivial hsend) trivial htimeout, rfl, rfl, rfl⟩
  cases hpc : s.configurator with
  | menu => exact ⟨s, .start, hpc, rfl, rfl⟩
  | typed =>
    have habandon : step s .abandon = some { s with configurator := .menu } := if_pos hpc
    exact ⟨_, .next .start trivial habandon, rfl, rfl, rfl⟩
  | named => exact hsent hpc
  | waiting =>
    have htimeout : step s .timeout = some { s with configurator := .menu } := if_pos hpc
    exact ⟨_, .next .start trivial htimeout, rfl, rfl, rfl⟩
  | reading =>
    have hreport : step s .report = some { s with configurator := .menu } := if_pos hpc
    exact ⟨_, .next .start trivial hreport, rfl, rfl, rfl⟩

/-- Once the sync thread waits for a semaphore that is taken, a command for any other
slave is kept pending. -/
theorem waiting_blocks {s : State} {c : Command} {request : Request} {pid pid' : Pid} {i : Idx}
    (hpc : s.sync = .semWait c request pid i) (hzero : (s.slots i).seg.semMToSRequest = 0)
    (hpos : 0 < pid') (hother : pid' ≠ pid) :
    ∃ t, Reaches step unrestricted s t ∧ ¬ OthersServed t := by
  obtain ⟨u, hu, hmenu, hsync, hslots⟩ := menu_reached s
  let u₁ : State := { u with control.request := .connectSlave, configurator := .typed }
  let u₂ : State := { u₁ with control.affectedSlavePid := pid', configurator := .named }
  let u₃ : State := { u₂ with
    pendingMaster := true
    latest := ⟨u.latest.id + 1, .connectSlave, pid'⟩
    configurator := .waiting }
  have htyped : step u (.type .connectSlave) = some u₁ := if_pos hmenu
  have hnamed : step u₁ (.name pid') = some u₂ := if_pos ⟨rfl, rfl, hpos⟩
  have hsent : step u₂ .send = some u₃ := rfl
  refine ⟨u₃, .next (.next (.next hu trivial htyped) trivial hnamed) trivial hsent, fun hall ↦ ?_⟩
  exact hother (hall c request pid i (hsync.trans hpc) (hslots ▸ hzero) rfl)

/-- Turning to a slave whose last request is unanswered leads to the wait. -/
theorem unanswered_blocks {s : State} {c : Command} {request : Request} {i : Idx}
    (hpc : s.sync = .lookup c request)
    (hfound : getAssignedShmsegIdx s.slots s.control.affectedSlavePid = some i)
    (hzero : (s.slots i).seg.semMToSRequest = 0)
    (hset : request = .startSlaveCycle →
      (s.slots i).seg.communicationCycleUs ≠ errorNotSetCommunicationCycleMs) :
    ∃ t, Reaches step unrestricted s t ∧ ¬ OthersServed t := by
  have hwaits {u : State} (hu : Reaches step unrestricted s u)
      (hsync : u.sync = .semWait c request s.control.affectedSlavePid i)
      (hslots : u.slots = s.slots) : ∃ t, Reaches step unrestricted s t ∧ ¬ OthersServed t := by
    obtain ⟨pid', hpos, hother⟩ : ∃ pid' : Pid, 0 < pid' ∧ pid' ≠ s.control.affectedSlavePid := by
      by_cases h1 : s.control.affectedSlavePid = 1
      · exact ⟨2, by decide, by rw [h1]; decide⟩
      · exact ⟨1, by decide, fun heq ↦ h1 heq.symm⟩
    obtain ⟨t, ht, hblocked⟩ := waiting_blocks hsync (hslots ▸ hzero) hpos hother
    exact ⟨t, hu.trans ht, hblocked⟩
  by_cases hstart : request = .startSlaveCycle
  · let u : State := { s with sync := .checkCycle c s.control.affectedSlavePid i }
    have hlookup : step s (.sync true true) = some u := by
      simp only [Master.step, syncStep, hpc, hfound, if_pos hstart, u]
    have hcheck : step u (.sync true true) = some { s with
        sync := .semWait c .startSlaveCycle s.control.affectedSlavePid i } := by
      simp only [Master.step, syncStep, u, if_neg (hset hstart)]
    exact hwaits (.next (.next .start trivial hlookup) trivial hcheck) (hstart ▸ rfl) rfl
  · have hlookup : step s (.sync true true) = some { s with
        sync := .semWait c request s.control.affectedSlavePid i } := by
      simp only [Master.step, syncStep, hpc, hfound, if_neg hstart]
    exact hwaits (.next .start trivial hlookup) rfl rfl

theorem othersServed_of_answeredFirst {s : State}
    (h : Reaches step (fun s e ↦ answeredFirst s e = true) initial s) : OthersServed s := by
  have hinv : BlockingInv s := h.invariant initial_inv fun _ _ _ ↦ step_inv
  exact hinv.othersServed

def disconnectCommand : List Event := [Event.type .disconnectSlave, Event.name 100, Event.send]

def connectCommand : List Event := [Event.type .connectSlave, Event.name 132, Event.send]

def silentSlave : List Event :=
  connectedRun ++ disconnectCommand ++ List.replicate 6 (Event.sync true true) ++
    [Event.timeout] ++ connectCommand

theorem silentSlave_others_served :
    ∃ s, (s.slots 4).seg.semMToSRequest = 0 ∧ s.pendingMaster = true ∧ s.latest.pid = 132 ∧
      OthersServed s := by
  have hrun : (run (guarded step fun s e ↦ answeredFirst s e = true) initial silentSlave).map
      (fun s ↦ ((s.slots 4).seg.semMToSRequest, s.pendingMaster, s.latest.pid)) =
      some (0, true, 132) := by
    decide +kernel
  obtain ⟨s, hs, hview⟩ := Option.map_eq_some_iff.mp hrun
  simp only [Prod.mk.injEq] at hview
  exact ⟨s, hview.1, hview.2.1, hview.2.2, othersServed_of_answeredFirst (.of_run hs)⟩

/-- The DISCONNECT is repeated before slave 132 is to be connected. -/
def repeatedDisconnect : List Event :=
  connectedRun ++ disconnectCommand ++ List.replicate 6 (Event.sync true true) ++
    [Event.timeout] ++ disconnectCommand ++ List.replicate 3 (Event.sync true true) ++
    [Event.timeout] ++ connectCommand

theorem silent_slave_blocks : ¬ ∀ s, Reaches step unrestricted initial s → OthersServed s := by
  intro hall
  have hrun : (run step initial repeatedDisconnect).map
      (fun s ↦ (s.sync, (s.slots 4).seg.semMToSRequest, s.pendingMaster, s.latest.pid)) =
      some (.semWait ⟨3, .disconnectSlave, 100⟩ .disconnectSlave 100 4, 0, true, 132) := by
    decide +kernel
  obtain ⟨s, hs, hview⟩ := Option.map_eq_some_iff.mp hrun
  simp only [Prod.mk.injEq] at hview
  obtain ⟨hsync, hzero, hpending, hpid⟩ := hview
  have heq := hall s (.of_unrestricted_run hs) _ _ _ _ hsync hzero hpending
  rw [hpid] at heq
  exact absurd heq (by decide)

end RealTimeCyclic.MasterBlocking
