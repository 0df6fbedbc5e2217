import RealTimeCyclic.MasterMove

namespace RealTimeCyclic.MasterSignal

open Shm SlotThread Probing Function Master Transition

def cachedSlot : SyncPc → Option (Command × Pid × Idx)
  | .checkCycle c pid i | .semWait c _ pid i | .write c _ pid i | .kill c _ pid i =>
    some (c, pid, i)
  | _ => none

/-- The pid `kill` is called with: DISCONNECT takes it from the segment, START and
STOP have kept the one they looked up. -/
def killTarget (s : State) : Option Pid :=
  match s.sync with
  | .kill _ .disconnectSlave _ i => some (s.slots i).seg.pid
  | .kill _ _ pid _ => some pid
  | _ => none

/-- A request is written only in the slot of the slave the served command names,
and only that slave is signalled. -/
structure NamedSlaveOnly (s : State) : Prop where
  written : ∀ c request pid i, s.sync = .write c request pid i → (s.slots i).seg.pid = c.pid
  signalled : ∀ c request pid i, s.sync = .kill c request pid i →
    (s.slots i).seg.pid = c.pid ∧ killTarget s = some c.pid
  broadcast : killTarget s ≠ some noPid
  inside : ∀ c, s.sync ≠ .fault c

/-- The command is still the one in the control memory when its pid is read, a
DISCONNECT names a slave that has a slot, and the slot is neither reset nor
given to another thread's slave until the signal has been sent. -/
def slotsKept (s : State) : Event → Bool
  | .sync _ _ =>
    match s.sync with
    | .lookup c request =>
      s.control.affectedSlavePid = c.pid ∧
        (request = .disconnectSlave → (getAssignedShmsegIdx s.slots c.pid).isSome)
    | _ => true
  | .thread j _ _ =>
    match s.threads[j]? with
    | some thread =>
      match thread.pc with
      | .claim _ i | .serve _ i (.resetMemset _) | .serve _ i (.resetInit _) =>
        (cachedSlot s.sync).map (·.2.2) ≠ some i
      | _ => true
    | none => true
  | _ => true

structure SignalInv (s : State) : Prop where
  cached : ∀ c pid i, cachedSlot s.sync = some (c, pid, i) →
    pid = c.pid ∧ (s.slots i).seg.pid = c.pid
  inside : ∀ c, s.sync ≠ .fault c

theorem SignalInv.namedSlaveOnly {s : State} (hp : PidsPositive s) (h : SignalInv s) :
    NamedSlaveOnly s := by
  have hkill (c : Command) (request : Request) (pid : Pid) (i : Idx)
      (hpc : s.sync = .kill c request pid i) : killTarget s = some c.pid := by
    obtain ⟨hpid, hslot⟩ := h.cached c pid i (by rw [hpc]; rfl)
    unfold killTarget
    rw [hpc]
    cases request
    all_goals
      first
      | exact congrArg some hslot
      | exact congrArg some hpid
  refine ⟨fun c request pid i hpc ↦ ?_, fun c request pid i hpc ↦ ⟨?_, ?_⟩, ?_, h.inside⟩
  · exact (h.cached c pid i (by rw [hpc]; rfl)).2
  · exact (h.cached c pid i (by rw [hpc]; rfl)).2
  · exact hkill c request pid i hpc
  · cases hpc : s.sync with
    | kill c request pid i =>
      rw [hkill c request pid i hpc]
      have hpos := hp.sync c (by rw [hpc]; rfl)
      intro heq
      rw [Option.some.inj heq] at hpos
      exact absurd hpos (by decide)
    | _ => simp [killTarget, hpc]

theorem SignalInv.keep {s t : State} (h : SignalInv s) (hsync : t.sync = s.sync)
    (hslots : ∀ c pid i, cachedSlot s.sync = some (c, pid, i) →
      (t.slots i).seg.pid = (s.slots i).seg.pid) : SignalInv t := by
  refine ⟨fun c pid i hc ↦ ?_, fun c ↦ hsync ▸ h.inside c⟩
  rw [hsync] at hc
  exact ⟨(h.cached c pid i hc).1, (hslots c pid i hc).trans (h.cached c pid i hc).2⟩

theorem syncStep_inv {created killed : Bool} {s t : State} (h : SignalInv s)
    (hok : slotsKept s (.sync created killed) = true)
    (hs : syncStep created killed s = some t) : SignalInv t := by
  have hidle {u : State} (hc : cachedSlot u.sync = none) (hf : ∀ c, u.sync ≠ .fault c) :
      SignalInv u := ⟨by simp [hc], hf⟩
  have hkept {c : Command} {pid : Pid} {i : Idx} (hpc : cachedSlot s.sync = some (c, pid, i))
      {u : State} (hc : cachedSlot u.sync = some (c, pid, i)) (hf : ∀ c, u.sync ≠ .fault c)
      (hslots : ∀ k, (u.slots k).seg.pid = (s.slots k).seg.pid) : SignalInv u := by
    refine ⟨fun c' pid' i' hc' ↦ ?_, hf⟩
    simp only [hc, Option.some.injEq, Prod.mk.injEq] at hc'
    obtain ⟨rfl, rfl, rfl⟩ := hc'
    rw [hslots]
    exact h.cached c pid i hpc
  have hfound {c : Command} {request : Request} {i : Idx} (hpc : s.sync = .lookup c request)
      (hfound : getAssignedShmsegIdx s.slots s.control.affectedSlavePid = some i)
      {pc : SyncPc} (hc : cachedSlot pc = some (c, s.control.affectedSlavePid, i))
      (hf : ∀ c, pc ≠ .fault c) : SignalInv { s with sync := pc } := by
    simp only [hpc, slotsKept, decide_eq_true_eq] at hok
    refine ⟨fun c' pid' i' hc' ↦ ?_, hf⟩
    simp only [hc, Option.some.injEq, Prod.mk.injEq] at hc'
    obtain ⟨rfl, rfl, rfl⟩ := hc'
    rw [hok.1] at hfound ⊢
    exact ⟨rfl, by simpa using probe_some hfound⟩
  cases syncStep_move hs with
  | startFound hpc hsome => exact hfound hpc hsome rfl (by simp)
  | slaveFound hpc _ hsome => exact hfound hpc hsome rfl (by simp)
  | outOfTable hpc hnone =>
    simp only [hpc, slotsKept, decide_eq_true_eq] at hok
    rw [hok.1] at hnone
    simpa [hnone] using hok.2
  | cycleSet hpc => exact hkept (by rw [hpc]; rfl) rfl (by simp) fun _ ↦ rfl
  | acquired hpc | written hpc =>
    exact hkept (by rw [hpc]; rfl) rfl (by simp) (update_kept (·.seg.pid : Slot → Pid) (by rfl))
  | _ => exact hidle rfl (by simp)

theorem threadStep_inv {j : ℕ} {mustChange killed : Bool} {s t : State} (h : SignalInv s)
    (hok : slotsKept s (.thread j mustChange killed) = true)
    (hs : threadStep j mustChange killed s = some t) : SignalInv t := by
  refine h.keep (threadStep_frame hs).sync fun c pid' i' hc ↦ ?_
  obtain ⟨thread, ht, hmove⟩ := threadStep_move hs
  simp only [slotsKept, ht] at hok
  cases hmove with
  | claimed hpc =>
    rename_i pid i
    simp only [hpc] at hok
    have hne : i' ≠ i := by simpa [hc] using hok
    exact congrArg (fun slot : Slot ↦ slot.seg.pid) (update_of_ne hne _ _)
  | served hpc hstep =>
    rename_i pid i pc v effect
    simp only [hpc] at hok
    rw [answer_slots]
    dsimp only
    rcases eq_or_ne i' i with rfl | hne
    · rw [update_self]
      rcases SlotThread.step_pid hstep with ⟨hpid, -⟩ | ⟨n, hreset, -⟩ | ⟨n, hreset, -⟩
      · exact hpid
      · simp only at hreset
        simp [hreset, hc] at hok
      · simp only at hreset
        simp [hreset, hc] at hok
    · rw [update_of_ne hne]
  | _ => rfl

theorem step_inv {s t : State} {e : Event} (h : SignalInv s) (hok : slotsKept s e = true)
    (hs : step s e = some t) : SignalInv t := by
  cases e with
  | sync created killed => exact syncStep_inv h hok hs
  | thread j mustChange killed => exact threadStep_inv h hok hs
  | deliver pid signal =>
    rw [← Option.some.inj hs]
    unfold deliverStep
    split
    · exact h.keep rfl fun _ _ i _ ↦ update_kept (·.seg.pid : Slot → Pid) (by rfl) i
    · exact h
  | slave i w | configure i requestedParameters communicationCycleUs =>
    exact Option.some.inj hs ▸
      h.keep rfl fun _ _ k _ ↦ update_kept (·.seg.pid : Slot → Pid) (by rfl) k
  | _ =>
    obtain ⟨-, hs⟩ := Option.ite_none_right_eq_some.mp hs
    exact Option.some.inj hs ▸ h.keep rfl fun _ _ _ _ ↦ rfl

theorem namedSlaveOnly_of_kept {s : State}
    (h : Reaches step (fun s e ↦ slotsKept s e = true) initial s) : NamedSlaveOnly s := by
  have hinv : PidsPositive s ∧ SignalInv s :=
    h.layered initial_pidsPositive ⟨by simp [initial, cachedSlot], by simp [initial]⟩
      (fun _ _ _ hp _ hs ↦ step_pidsPositive hp hs) (fun _ _ _ _ ↦ step_inv)
  exact hinv.2.namedSlaveOnly hinv.1

def disconnectRun : List Event := [Event.type .disconnectSlave, Event.name 100, Event.send]

theorem disconnect_namedSlaveOnly : ∃ s, killTarget s = some 100 ∧ NamedSlaveOnly s := by
  have hrun : (run (guarded step fun s e ↦ slotsKept s e = true) initial
      (connectedRun ++ disconnectRun ++ List.replicate 5 (.sync true true))).map killTarget =
      some (some 100) := by
    decide +kernel
  obtain ⟨s, hs, htarget⟩ := Option.map_eq_some_iff.mp hrun
  exact ⟨s, htarget, namedSlaveOnly_of_kept (.of_run hs)⟩

/-- A DISCONNECT is repeated after a timeout. The sync thread waits for the slot's
semaphore until the slot is reset, and then addresses the freed slot. -/
def repeatedDisconnect : List Event :=
  connectedRun ++ disconnectRun ++ List.replicate 6 (Event.sync true true) ++ [Event.timeout] ++
    disconnectRun ++ List.replicate 3 (Event.sync true true) ++
    [Event.slave 4 acknowledged, Event.deliver 100 .response] ++
    List.replicate 11 (Event.thread 0 false true) ++ List.replicate 2 (Event.sync true true)

theorem disconnect_broadcasts :
    ¬ ∀ s, Reaches step unrestricted initial s → NamedSlaveOnly s := by
  intro hall
  have hrun : (run step initial repeatedDisconnect).map killTarget = some (some noPid) := by
    decide +kernel
  obtain ⟨s, hs, htarget⟩ := Option.map_eq_some_iff.mp hrun
  exact (hall s (.of_unrestricted_run hs)).broadcast htarget

end RealTimeCyclic.MasterSignal
