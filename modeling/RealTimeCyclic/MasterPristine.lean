import RealTimeCyclic.MasterConnect
import RealTimeCyclic.MasterResponse

namespace RealTimeCyclic.MasterPristine

open Shm SlotThread Probing Function Master Transition
open MasterConnect (threadPid)
open MasterResponse (serves)

def claims (i : Idx) : ThreadPc → Bool
  | .claim _ k => k = i
  | _ => false

def resetting : Pc → Bool
  | .resetInit _ | .resetDrainMToS _ | .resetPostMToS _ | .resetDrainSToM _ | .resetPostSToM _ =>
    true
  | _ => false

def resets (i : Idx) : ThreadPc → Bool
  | .serve _ k pc => k = i ∧ resetting pc
  | _ => false

structure Free (s : State) (i : Idx) : Prop where
  unowned : (s.slots i).seg.pid = noPid
  unclaimed : ∀ t ∈ s.threads, claims i t.pc = false
  settled : ∀ t ∈ s.threads, resets i t.pc = false

/-- The segment and the `sig_semaphore` are those that `init` left. -/
structure Pristine (s : State) (i : Idx) : Prop where
  seg : (s.slots i).seg = (initial.slots i).seg
  wake : (s.slots i).wake = (initial.slots i).wake

def FreePristine (s : State) : Prop := ∀ i, Free s i → Pristine s i

/-- The slot belongs to a slave and is not being reset. -/
structure Owned (s : State) (i : Idx) : Prop where
  owned : (s.slots i).seg.pid ≠ noPid
  settled : ∀ t ∈ s.threads, resets i t.pc = false

instance (s : State) (i : Idx) : Decidable (Owned s i) :=
  decidable_of_iff ((s.slots i).seg.pid ≠ noPid ∧ ∀ t ∈ s.threads, resets i t.pc = false)
    ⟨fun ⟨h₁, h₂⟩ ↦ ⟨h₁, h₂⟩, fun ⟨h₁, h₂⟩ ↦ ⟨h₁, h₂⟩⟩

/-- A slot is reset when all its wake-ups have been consumed, is not claimed while
another thread serves it, and is written on behalf of a slave only while it belongs
to one. Signals come from processes. -/
def slotsReturned (s : State) : Event → Bool
  | .sync _ _ =>
    match s.sync with
    | .semWait _ _ _ i | .write _ _ _ i => Owned s i
    | _ => true
  | .thread j _ _ =>
    match s.threads[j]? with
    | some thread =>
      match thread.pc with
      | .claim _ i => ∀ t ∈ s.threads, serves i t.pc = false
      | .serve _ i (.resetMemset _) => (s.slots i).wake = []
      | _ => true
    | none => true
  | .slave i _ | .configure i _ _ => Owned s i
  | .deliver pid _ => 0 < pid
  | _ => true

def StageOk (seg : Shmseg) (wake : List Signal) : Pc → Prop
  | .resetInit _ => seg = .zero ∧ wake = []
  | .resetDrainMToS _ | .resetPostMToS _ => seg = initSlaveShmsegSharedMemory .zero ∧ wake = []
  | .resetDrainSToM _ | .resetPostSToM _ =>
    seg = { initSlaveShmsegSharedMemory .zero with semMToSRequest := 1 } ∧ wake = []
  | .resetAnswer _ | .resetNotify _ | .exited => seg = .initial ∧ wake = []
  | _ => seg.pid ≠ noPid

structure PristineInv (s : State) : Prop where
  affected : s.control.affectedSlavePid ≠ noPid
  cell : s.cell ≠ noPid
  pids : ∀ t ∈ s.threads, ∀ pid, threadPid t.pc = some pid → pid ≠ noPid
  alone : ∀ (j k : ℕ) (t u : Thread) (i : Idx), j ≠ k → s.threads[j]? = some t →
    s.threads[k]? = some u → serves i t.pc = true → serves i u.pc = false
  stage : ∀ t ∈ s.threads, ∀ pid i pc, t.pc = .serve pid i pc → pc ≠ .exited →
    StageOk (s.slots i).seg (s.slots i).wake pc
  free : ∀ i, (∀ t ∈ s.threads, serves i t.pc = false) → Pristine s i

theorem StageOk.cases {seg : Shmseg} {wake : List Signal} {pc : Pc} (h : StageOk seg wake pc) :
    (seg.pid ≠ noPid ∧ ∀ seg' wake', seg'.pid ≠ noPid → StageOk seg' wake' pc) ∨
      resetting pc = true ∨ (seg = .initial ∧ wake = []) := by
  cases pc <;> simp_all [StageOk, resetting]

theorem exists_serve {s : State} {i : Idx} (h : ¬ ∀ t ∈ s.threads, serves i t.pc = false) :
    ∃ t ∈ s.threads, ∃ pid pc, t.pc = .serve pid i pc ∧ pc ≠ .exited := by
  push Not at h
  obtain ⟨t, ht, hserves⟩ := h
  refine ⟨t, ht, ?_⟩
  cases hpc : t.pc with
  | serve pid k pc =>
    simp only [hpc, serves, ne_eq, Bool.not_eq_false, decide_eq_true_eq] at hserves
    obtain ⟨rfl, hlive⟩ := hserves
    exact ⟨pid, pc, rfl, hlive⟩
  | _ => simp [hpc, serves] at hserves

theorem PristineInv.freePristine {s : State} (h : PristineInv s) : FreePristine s := by
  intro i hfree
  by_cases hserved : ∀ t ∈ s.threads, serves i t.pc = false
  · exact h.free i hserved
  · obtain ⟨t, ht, pid, pc, hpc, hlive⟩ := exists_serve hserved
    rcases (h.stage t ht pid i pc hpc hlive).cases with ⟨howned, -⟩ | hreset | ⟨hseg, hwake⟩
    · exact absurd hfree.unowned howned
    · have hsettled := hfree.settled t ht
      simp [hpc, resets, hreset] at hsettled
    · exact ⟨hseg, hwake⟩

theorem PristineInv.unfixed {s : State} (h : PristineInv s) {i : Idx} (hi : Owned s i) {t : Thread}
    (ht : t ∈ s.threads) {pid : Pid} {pc : Pc} (hpc : t.pc = .serve pid i pc)
    (hlive : pc ≠ .exited) {seg : Shmseg} {wake : List Signal}
    (hpid : seg.pid = (s.slots i).seg.pid) :
    StageOk seg wake pc := by
  rcases (h.stage t ht pid i pc hpc hlive).cases with ⟨-, hopen⟩ | hreset | ⟨hseg, -⟩
  · exact hopen seg wake (hpid ▸ hi.owned)
  · have hsettled := hi.settled t ht
    simp [hpc, resets, hreset] at hsettled
  · exact absurd (by rw [hseg]; rfl) hi.owned

theorem PristineInv.served {s : State} (h : PristineInv s) {i : Idx} (hi : Owned s i) :
    ¬ ∀ t ∈ s.threads, serves i t.pc = false := by
  intro hfree
  exact hi.owned (by rw [(h.free i hfree).seg]; rfl)

/-- `reset_slave_shmseg` run by the only thread of the slot. -/
theorem step_stage {current : ℕ} {mustChange killed : Bool} {v v' : View} {effect : Effect}
    (h : SlotThread.step current mustChange killed v = some (v', effect))
    (hstage : StageOk v.seg v.wake v.pc) (hwake : ∀ k, v.pc = .resetMemset k → v.wake = []) :
    StageOk v'.seg v'.wake v'.pc := by
  cases step_move h with
  | jumped hjump => cases hjump <;> simp_all [StageOk]
  | zeroed hpc => exact ⟨rfl, hwake _ hpc⟩
  | initialized hpc =>
    rw [hpc] at hstage
    exact ⟨by rw [hstage.1], hstage.2⟩
  | loweredMToS hpc hpos =>
    rw [hpc] at hstage
    rw [hstage.1] at hpos
    exact absurd hpos (Nat.lt_irrefl 0)
  | postedMToS hpc =>
    rw [hpc] at hstage
    exact ⟨by rw [hstage.1]; rfl, hstage.2⟩
  | loweredSToM hpc hpos =>
    rw [hpc] at hstage
    rw [hstage.1] at hpos
    exact absurd hpos (Nat.lt_irrefl 0)
  | postedSToM hpc =>
    rw [hpc] at hstage
    exact ⟨by rw [hstage.1]; rfl, hstage.2⟩
  | resetAnswered hpc | resetNotified hpc =>
    rw [hpc] at hstage
    exact hstage
  | errorsHandled hpc hseg =>
    rw [hpc] at hstage
    exact fun heq ↦ hstage ((SameControl.of_errors hseg).pid.symm.trans heq)
  | received hpc =>
    rw [hpc] at hstage
    exact fun heq ↦ hstage ((receiveParameters_sameControl v.seg).pid.symm.trans heq)
  | _ => simp_all [StageOk]

theorem PristineInv.keep {s t : State} (h : PristineInv s)
    (haffected : t.control.affectedSlavePid ≠ noPid) (hcell : t.cell ≠ noPid)
    (hslots : ∀ i, (t.slots i).seg = (s.slots i).seg ∧ (t.slots i).wake = (s.slots i).wake)
    (hthreads : t.threads = s.threads) : PristineInv t := by
  refine ⟨haffected, hcell, hthreads ▸ h.pids, hthreads ▸ h.alone, fun u hu pid i pc hpc hlive ↦ ?_,
    fun i hi ↦ ⟨?_, ?_⟩⟩
  · rw [(hslots i).1, (hslots i).2]
    exact h.stage u (hthreads ▸ hu) pid i pc hpc hlive
  · rw [(hslots i).1]
    exact (h.free i (hthreads ▸ hi)).seg
  · rw [(hslots i).2]
    exact (h.free i (hthreads ▸ hi)).wake

theorem PristineInv.write {s t : State} (h : PristineInv s) {i : Idx} (hi : Owned s i)
    (haffected : t.control.affectedSlavePid = s.control.affectedSlavePid) (hcell : t.cell = s.cell)
    (hpid : (t.slots i).seg.pid = (s.slots i).seg.pid) (hslots : ∀ k, k ≠ i → t.slots k = s.slots k)
    (hthreads : t.threads = s.threads) : PristineInv t := by
  refine ⟨haffected ▸ h.affected, hcell ▸ h.cell, hthreads ▸ h.pids, hthreads ▸ h.alone,
    fun u hu pid k pc hpc hlive ↦ ?_, fun k hk ↦ ?_⟩
  · rw [hthreads] at hu
    by_cases hki : k = i
    · subst hki
      exact h.unfixed hi hu hpc hlive hpid
    · rw [hslots k hki]
      exact h.stage u hu pid k pc hpc hlive
  · rw [hthreads] at hk
    by_cases hki : k = i
    · exact absurd (hki ▸ hk) (h.served hi)
    · have hfree := h.free k hk
      exact ⟨hslots k hki ▸ hfree.seg, hslots k hki ▸ hfree.wake⟩

theorem syncStep_inv {created killed : Bool} {s t : State} (h : PristineInv s)
    (hok : slotsReturned s (.sync created killed) = true)
    (hs : syncStep created killed s = some t) : PristineInv t := by
  have hmove {u : State} (haffected : u.control.affectedSlavePid = s.control.affectedSlavePid)
      (hcell : u.cell ≠ noPid) (hslots : u.slots = s.slots) (hthreads : u.threads = s.threads) :
      PristineInv u :=
    h.keep (haffected ▸ h.affected) hcell (fun i ↦ by rw [hslots]; exact ⟨rfl, rfl⟩) hthreads
  cases syncStep_move hs with
  | threadCreated hpc hcreated =>
    rename_i c
    have hnew (u : Thread) (hu : u ∈ s.threads ++ [⟨c, c.id, .readArgument⟩]) :
        u ∈ s.threads ∨ u.pc = .readArgument :=
      (List.mem_append.mp hu).imp_right fun hu ↦ by rw [List.mem_singleton.mp hu]
    refine ⟨h.affected, h.affected, fun u hu pid hpid ↦ ?_, ?_, fun u hu pid i pc hpc hlive ↦ ?_,
      fun i hi ↦ ?_⟩
    · rcases hnew u hu with hold | hread
      · exact h.pids u hold pid hpid
      · simp [hread, threadPid] at hpid
    · intro j k u w i hjk hu hw hserves
      dsimp only at hu hw
      rw [List.getElem?_append] at hu hw
      split_ifs at hu hw with hj hk hk
      · exact h.alone j k u w i hjk hu hw hserves
      · rw [(List.mem_singleton.mp (List.mem_of_getElem? hw))]
        rfl
      · rw [(List.mem_singleton.mp (List.mem_of_getElem? hu))] at hserves
        cases hserves
      · rw [(List.mem_singleton.mp (List.mem_of_getElem? hw))]
        rfl
    · rcases hnew u hu with hold | hread
      · exact h.stage u hold pid i pc hpc hlive
      · rw [hread] at hpc
        cases hpc
    · have hfree := h.free i fun u hu ↦ hi u (List.mem_append_left _ hu)
      exact ⟨hfree.seg, hfree.wake⟩
  | threadFailed hpc => exact hmove rfl h.affected rfl rfl
  | acquired hpc hpos =>
    simp only [slotsReturned, hpc, decide_eq_true_eq] at hok
    refine h.write hok rfl rfl ?_ (fun k hk ↦ update_of_ne hk _ _) rfl
    simp only [update_self]
  | written hpc =>
    simp only [slotsReturned, hpc, decide_eq_true_eq] at hok
    refine h.write hok rfl rfl ?_ (fun k hk ↦ update_of_ne hk _ _) rfl
    simp only [update_self]
  | _ => exact hmove rfl h.cell rfl rfl

theorem PristineInv.of_thread {s t : State} (h : PristineInv s) {j : ℕ} {thread u : Thread}
    (ht : s.threads[j]? = some thread) (hf : ThreadFrame s t)
    (hthreads : t.threads = s.threads.set j u)
    (hpid : ∀ pid, threadPid u.pc = some pid → threadPid thread.pc = some pid ∨ pid = s.cell)
    (hserves : ∀ i, serves i u.pc = true →
      serves i thread.pc = true ∨ ∀ w ∈ s.threads, serves i w.pc = false)
    (hslots : ∀ i, serves i u.pc = false → serves i thread.pc = false → t.slots i = s.slots i)
    (hstage : ∀ pid i pc, u.pc = .serve pid i pc → pc ≠ .exited →
      StageOk (t.slots i).seg (t.slots i).wake pc)
    (hfree : ∀ i, serves i thread.pc = true → serves i u.pc = false → Pristine t i) :
    PristineInv t := by
  have hmem : thread ∈ s.threads := List.mem_of_getElem? ht
  refine ⟨hf.affected ▸ h.affected, hf.cell ▸ h.cell, fun w hw pid hp ↦ ?_, ?_,
    fun w hw pid i pc hpc hlive ↦ ?_, fun i hi ↦ ?_⟩
  · rw [hthreads] at hw
    rcases List.mem_or_eq_of_mem_set hw with hold | rfl
    · exact h.pids w hold pid hp
    · rcases hpid pid hp with hp | rfl
      · exact h.pids thread hmem pid hp
      · exact h.cell
  · rw [hthreads]
    have hother (k : ℕ) (w : Thread) (i : Idx) (hkj : k ≠ j) (hw : s.threads[k]? = some w)
        (hu : serves i u.pc = true) : serves i w.pc = false := by
      rcases hserves i hu with hold | hnone
      · exact h.alone j k thread w i hkj.symm ht hw hold
      · exact hnone w (List.mem_of_getElem? hw)
    intro k l w w' i hkl hw hw' hi
    rcases getElem?_set_cases hw with ⟨hk, rfl⟩ | ⟨hk, hw⟩
    · rcases getElem?_set_cases hw' with ⟨hl, -⟩ | ⟨hl, hw'⟩
      · exact absurd (hk.trans hl.symm) hkl
      · exact hother l w' i hl hw' hi
    · rcases getElem?_set_cases hw' with ⟨hl, heq⟩ | ⟨hl, hw'⟩
      · by_contra hu
        simp [hother k w i hk hw (by simpa [heq] using hu)] at hi
      · exact h.alone k l w w' i hkl hw hw' hi
  · obtain ⟨k, hk⟩ := List.getElem?_of_mem (hthreads ▸ hw)
    rcases getElem?_set_cases hk with ⟨-, rfl⟩ | ⟨hkj, hk⟩
    · exact hstage pid i pc hpc hlive
    · have hi : serves i w.pc = true := by simp [hpc, serves, hlive]
      have hthread := h.alone k j w thread i hkj hk ht hi
      have hu : serves i u.pc = false := by
        by_contra hu
        rcases hserves i (by simpa using hu) with hold | hnone
        · simp [hthread] at hold
        · simp [hnone w (List.mem_of_getElem? hk)] at hi
      rw [hslots i hu hthread]
      exact h.stage w (List.mem_of_getElem? hk) pid i pc hpc hlive
  · have hu : serves i u.pc = false :=
      hi u (hthreads ▸ List.mem_set (List.getElem?_eq_some_iff.mp ht).1 u)
    by_cases hthread : serves i thread.pc = true
    · exact hfree i hthread hu
    · have hthread : serves i thread.pc = false := by simpa using hthread
      have hold := h.free i fun w hw ↦ ?_
      · exact ⟨hslots i hu hthread ▸ hold.seg, hslots i hu hthread ▸ hold.wake⟩
      · obtain ⟨k, hk⟩ := List.getElem?_of_mem hw
        by_cases hkj : k = j
        · subst hkj
          rw [Option.some.inj (hk.symm.trans ht)]
          exact hthread
        · refine hi w (List.mem_of_getElem? (i := k) ?_)
          rwa [hthreads, List.getElem?_set_ne (Ne.symm hkj)]

theorem threadStep_inv {j : ℕ} {mustChange killed : Bool} {s t : State} (h : PristineInv s)
    (hok : slotsReturned s (.thread j mustChange killed) = true)
    (hs : threadStep j mustChange killed s = some t) : PristineInv t := by
  have hf := threadStep_frame hs
  obtain ⟨thread, ht, hmove⟩ := threadStep_move hs
  have hmem : thread ∈ s.threads := List.mem_of_getElem? ht
  -- before it has claimed a slot the thread serves none
  have hmoved {pc : ThreadPc} (hold : ∀ i, serves i thread.pc = false)
      (hnew : ∀ i, serves i pc = false) (ht' : t = s.setPc j thread pc)
      (hpid : ∀ pid, threadPid pc = some pid → threadPid thread.pc = some pid ∨ pid = s.cell) :
      PristineInv t := by
    refine h.of_thread (u := { thread with pc := pc }) ht hf (by rw [ht']; rfl) hpid
      (fun i hi ↦ ?_) (fun _ _ _ ↦ by rw [ht']; rfl)
      (fun pid i pc' hpc' hlive ↦ ?_) fun i hi ↦ ?_
    · exact absurd hi (by simp [hnew i])
    · have hno := hnew i
      dsimp only at hpc'
      simp [hpc', serves, hlive] at hno
    · exact absurd hi (by simp [hold i])
  cases hmove with
  | argumentRead hpc =>
    exact hmoved (by simp [hpc, serves]) (by simp [serves]) rfl (by simp [threadPid])
  | alreadyConnected hpc | outOfMemory hpc =>
    exact hmoved (by simp [hpc, serves]) (by simp [serves]) rfl (by simp [threadPid])
  | unassigned hpc | placed hpc =>
    exact hmoved (by simp [hpc, serves]) (by simp [serves]) rfl (by simp [hpc, threadPid])
  | claimed hpc =>
    rename_i pid i
    simp only [slotsReturned, ht, hpc, decide_eq_true_eq] at hok
    refine h.of_thread ht hf rfl (by simp [hpc, threadPid]) (fun k hk ↦ ?_) (fun k hk _ ↦ ?_)
      (fun pid' k pc' hpc' _ ↦ ?_) fun k hk ↦ ?_
    · simp only [serves, decide_eq_true_eq] at hk
      exact .inr (hk.1 ▸ hok)
    · have hki : k ≠ i := by
        rintro rfl
        simp [serves] at hk
      simp only [State.setPc, State.setSeg, update_of_ne hki]
    · simp only [ThreadPc.serve.injEq] at hpc'
      obtain ⟨-, rfl, rfl⟩ := hpc'
      simp only [State.setPc, State.setSeg, update_self]
      exact h.pids thread hmem pid (by simp [hpc, threadPid])
    · simp [hpc, serves] at hk
  | served hpc hstep =>
    rename_i pid i pc v effect
    have hlive : pc ≠ .exited := by
      rintro rfl
      simp [SlotThread.step] at hstep
    have hserves (k : Idx) : serves k thread.pc = true ↔ i = k := by simp [hpc, serves, hlive]
    have hslot : ({ s with
        slots := update s.slots i ((s.slots i).stepped thread.acting v effect)
        threads := s.threads.set j (thread.stepped (s.slots i) pid i v) }.answer effect).slots =
          update s.slots i ((s.slots i).stepped thread.acting v effect) := answer_slots _ _
    have hstage : StageOk v.seg v.wake v.pc := by
      refine step_stage hstep (h.stage thread hmem pid i pc hpc hlive) fun k hk ↦ ?_
      dsimp only at hk
      simpa only [slotsReturned, ht, hpc, hk, decide_eq_true_eq] using hok
    refine h.of_thread ht hf (answer_threads _ _) (by simp [hpc, Thread.stepped, threadPid])
      (fun k hk ↦ .inl ?_) (fun k _ hk ↦ ?_) (fun pid' k pc' hpc' _ ↦ ?_) fun k hk hexit ↦ ?_
    · simp only [Thread.stepped, serves, decide_eq_true_eq] at hk
      exact (hserves k).mpr hk.1
    · have hki : k ≠ i := fun heq ↦ by simp [(hserves k).mpr heq.symm] at hk
      rw [hslot, update_of_ne hki]
    · simp only [Thread.stepped, ThreadPc.serve.injEq] at hpc'
      obtain ⟨-, rfl, rfl⟩ := hpc'
      rw [hslot, update_self]
      exact hstage
    · obtain rfl := (hserves k).mp hk
      have hexited : v.pc = .exited := by simpa [Thread.stepped, serves] using hexit
      rw [hexited] at hstage
      constructor
      all_goals rw [hslot, update_self]
      · exact hstage.1
      · exact hstage.2

theorem StageOk.pid_nonpos {seg : Shmseg} {wake : List Signal} {pc : Pc}
    (h : StageOk seg wake pc) (hreset : resetting pc = true) : seg.pid ≤ 0 := by
  cases pc with
  | resetInit k => exact (congrArg Shmseg.pid h.1).le
  | resetDrainMToS k | resetPostMToS k | resetDrainSToM k | resetPostSToM k =>
    exact (congrArg Shmseg.pid h.1).trans_le (by decide)
  | _ => cases hreset

theorem PristineInv.owned_of_pos {s : State} (h : PristineInv s) {i : Idx}
    (hpos : 0 < (s.slots i).seg.pid) : Owned s i := by
  refine ⟨ne_noPid_of_pos hpos, fun t ht ↦ ?_⟩
  cases hpc : t.pc with
  | serve pid k pc =>
    refine decide_eq_false ?_
    rintro ⟨rfl, hreset⟩
    have hlive : pc ≠ .exited := by
      rintro rfl
      cases hreset
    exact absurd ((h.stage t ht pid k pc hpc hlive).pid_nonpos hreset) (not_le.mpr hpos)
  | _ => rfl

theorem deliverStep_inv {s : State} {pid : Pid} (signal : Signal) (h : PristineInv s)
    (hpos : 0 < pid) : PristineInv (deliverStep pid signal s) := by
  unfold deliverStep
  split
  · rename_i i hfound
    have hpid : (s.slots i).seg.pid = pid := by simpa using probe_some hfound
    refine h.write (h.owned_of_pos (hpid ▸ hpos)) rfl rfl ?_ (fun k hk ↦ update_of_ne hk _ _) rfl
    simp only [update_self]
  · exact h

theorem step_inv {s t : State} {e : Event} (h : PristineInv s) (hok : slotsReturned s e = true)
    (hs : step s e = some t) : PristineInv t := by
  have hwritten {i : Idx} {seg : Shmseg} (hi : Owned s i)
      (hpid : seg.pid = (s.slots i).seg.pid) : PristineInv (s.setSeg i seg) := by
    refine h.write hi rfl rfl ?_ (fun k hk ↦ update_of_ne hk _ _) rfl
    simp only [State.setSeg, update_self, hpid]
  cases e with
  | sync created killed => exact syncStep_inv h hok hs
  | thread j mustChange killed => exact threadStep_inv h hok hs
  | deliver pid signal =>
    exact Option.some.inj hs ▸ deliverStep_inv signal h (of_decide_eq_true hok)
  | slave i w | configure i requestedParameters communicationCycleUs =>
    exact Option.some.inj hs ▸ hwritten (of_decide_eq_true hok) rfl
  | name pid =>
    obtain ⟨⟨-, -, hpos⟩, hs⟩ := Option.ite_none_right_eq_some.mp hs
    rw [← Option.some.inj hs]
    refine h.keep ?_ h.cell (fun _ ↦ ⟨rfl, rfl⟩) rfl
    rintro rfl
    exact absurd hpos (by decide)
  | _ =>
    obtain ⟨-, hs⟩ := Option.ite_none_right_eq_some.mp hs
    rw [← Option.some.inj hs]
    exact h.keep h.affected h.cell (fun _ ↦ ⟨rfl, rfl⟩) rfl

theorem initial_inv : PristineInv initial :=
  ⟨by decide, by decide, by simp [initial], by simp [initial], by simp [initial],
    fun _ _ ↦ ⟨rfl, rfl⟩⟩

theorem freePristine_of_returned {s : State}
    (h : Reaches step (fun s e ↦ slotsReturned s e = true) initial s) : FreePristine s := by
  have hinv : PristineInv s := h.invariant initial_inv fun _ _ _ ↦ step_inv
  exact hinv.freePristine

/-- Slave 100 is connected and disconnected, and its thread has ended. -/
def disconnectedRun : List Event :=
  connectedRun ++ [Event.type .disconnectSlave, Event.name 100, Event.send] ++
    List.replicate 6 (Event.sync true true) ++
    [Event.slave 4 acknowledged, Event.deliver 100 .response] ++
    List.replicate 15 (Event.thread 0 false true)

theorem disconnected_pristine :
    ∃ s, (s.slots 4).seg.pid = noPid ∧ s.threads.map Thread.pc = [.serve 100 4 .exited] ∧
      FreePristine s := by
  have hrun : (run (guarded step fun s e ↦ slotsReturned s e = true) initial
      disconnectedRun).map (fun s ↦ ((s.slots 4).seg.pid, s.threads.map Thread.pc)) =
      some (noPid, [.serve 100 4 .exited]) := by
    decide +kernel
  obtain ⟨s, hs, hview⟩ := Option.map_eq_some_iff.mp hrun
  simp only [Prod.mk.injEq] at hview
  exact ⟨s, hview.1, hview.2, freePristine_of_returned (.of_run hs)⟩

def resentValue : List Event :=
  let started : SlaveFields := { acknowledged with cycleStarted := true }
  let stored : SlaveFields := { started with
    reqSToM := .signalMasterParameter
    intValue := 7
    semSToMRequest := 0 }
  let resent : SlaveFields := { stored with
    shmsegError := [some ⟨"Master failed to respond to request!", none⟩] ++
      List.replicate (shmsegErrorSize - 1) none
    shmsegErrorCurrentSize := 1 }
  let released : SlaveFields := { stored with
    intValue := intValueUndefined
    semSToMRequest := 1 }
  let stopped : SlaveFields := { released with cycleStarted := false }
  connectedRun ++ [Event.configure 4 intParameterBit 1000000, Event.type .startSlaveCycle,
      Event.name 100, Event.send] ++ List.replicate 7 (Event.sync true true) ++
    [Event.slave 4 started, Event.deliver 100 .response] ++
    List.replicate 10 (Event.thread 0 false true) ++ [Event.take, Event.report] ++
    [Event.slave 4 stored, Event.deliver 100 (.parameter 0), Event.slave 4 resent,
      Event.deliver 100 (.parameter 0)] ++
    List.replicate 7 (Event.thread 0 false true) ++ [Event.slave 4 released] ++
    [Event.type .stopSlaveCycle, Event.name 100, Event.send] ++
    List.replicate 6 (Event.sync true true) ++
    [Event.slave 4 stopped, Event.deliver 100 .response] ++
    List.replicate 10 (Event.thread 0 false true) ++ [Event.take, Event.report] ++
    [Event.type .disconnectSlave, Event.name 100, Event.send] ++
    List.replicate 6 (Event.sync true true) ++
    [Event.slave 4 stopped, Event.deliver 100 .response] ++
    List.replicate 15 (Event.thread 0 false true)

theorem wakeUp_left : ¬ ∀ s, Reaches step unrestricted initial s → FreePristine s := by
  intro hall
  have hrun : (run step initial resentValue).map
      (fun s ↦ ((s.slots 4).seg.pid, s.threads.map Thread.pc, (s.slots 4).wake)) =
      some (noPid, [.serve 100 4 .exited], [.response]) := by
    decide +kernel
  obtain ⟨s, hs, hview⟩ := Option.map_eq_some_iff.mp hrun
  simp only [Prod.mk.injEq] at hview
  obtain ⟨hpid, hthreads, hwake⟩ := hview
  have hended (t : Thread) (ht : t ∈ s.threads) : t.pc = .serve 100 4 .exited := by
    have hmem := List.mem_map_of_mem (f := Thread.pc) ht
    rw [hthreads] at hmem
    exact List.mem_singleton.mp hmem
  have hfree : Free s 4 :=
    ⟨hpid, fun t ht ↦ by rw [hended t ht]; rfl, fun t ht ↦ by rw [hended t ht]; rfl⟩
  have hempty := (hall s (.of_unrestricted_run hs) 4 hfree).wake
  rw [hwake] at hempty
  cases hempty

end RealTimeCyclic.MasterPristine
