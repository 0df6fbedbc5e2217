import RealTimeCyclic.MasterMove

namespace RealTimeCyclic.MasterConnect

open Shm SlotThread Probing Function Master Transition

def threadPid : ThreadPc → Option Pid
  | .lookup pid | .scan pid | .claim pid _ | .serve pid _ _ => some pid
  | .readArgument | .returned => none

def pending (pid : Pid) : ThreadPc → Bool
  | .scan pid' | .claim pid' _ => pid' = pid
  | _ => false

def holds (i : Idx) : ThreadPc → Bool
  | .claim _ i' => i' = i
  | .serve _ i' pc => i' = i ∧ pc ≠ .exited
  | _ => false

/-- Every slot belongs to one thread and every pid to one slot. -/
structure ExclusiveSlots (s : State) : Prop where
  serves : ∀ thread ∈ s.threads, ∀ pid, threadPid thread.pc = some pid → pid = thread.command.pid
  bound : ∀ (j k : ℕ) (t u : Thread) (i : Idx), j ≠ k → s.threads[j]? = some t →
    s.threads[k]? = some u → holds i t.pc = true → holds i u.pc = false
  once : ∀ i i', 0 < (s.slots i).seg.pid → (s.slots i).seg.pid = (s.slots i').seg.pid → i = i'

def Apart (t u : Thread) : Prop :=
  (∀ pid, pending pid t.pc = true → pending pid u.pc = false) ∧
    ∀ i, holds i t.pc = true → holds i u.pc = false

theorem Apart.symm {t u : Thread} (h : Apart t u) : Apart u t := by
  refine ⟨fun pid hu ↦ ?_, fun i hu ↦ ?_⟩
  · by_contra ht
    simp [h.1 pid (by simpa using ht)] at hu
  · by_contra ht
    simp [h.2 i (by simpa using ht)] at hu

def AllApart (threads : List Thread) : Prop :=
  ∀ (j k : ℕ) (t u : Thread), j ≠ k → threads[j]? = some t → threads[k]? = some u → Apart t u

structure ThreadOk (s : State) (t : Thread) : Prop where
  positive : 0 < t.command.pid
  argument : t.pc = .readArgument → t.command.pid = s.cell
  serves : ∀ pid, threadPid t.pc = some pid → pid = t.command.pid
  window : ∀ pid, pending pid t.pc = true → ∀ i, (s.slots i).seg.pid ≠ pid

structure ConnectInv (s : State) : Prop where
  threads : ∀ t ∈ s.threads, ThreadOk s t
  apart : AllApart s.threads
  once : ∀ i i', 0 < (s.slots i).seg.pid → (s.slots i).seg.pid = (s.slots i').seg.pid → i = i'

/-- No argument is overwritten before it is read, no two threads look up the
same pid at a time, and none is given a slot that another one still holds. -/
def connectsSeparate (s : State) : Event → Bool
  | .sync _ _ =>
    match s.sync with
    | .create c =>
      s.control.affectedSlavePid = c.pid ∧
        ∀ t ∈ s.threads, t.pc = .readArgument → t.command.pid = s.control.affectedSlavePid
    | _ => true
  | .thread j _ _ =>
    match s.threads[j]? with
    | some t =>
      match t.pc with
      | .lookup pid => ∀ u ∈ s.threads.eraseIdx j, pending pid u.pc = false
      | .scan pid => ∀ i, assignShmsegIdx s.slots pid = some i →
          ∀ u ∈ s.threads.eraseIdx j, holds i u.pc = false
      | _ => true
    | none => true
  | _ => true

theorem threadPid_of_pending {pid : Pid} {pc : ThreadPc} (h : pending pid pc = true) :
    threadPid pc = some pid := by
  cases pc <;> simp_all [pending, threadPid]

theorem apart_set {threads : List Thread} {j : ℕ} {t' : Thread}
    (h : AllApart threads)
    (hnew : ∀ (k : ℕ) (u : Thread), k ≠ j → threads[k]? = some u → Apart t' u) :
    AllApart (threads.set j t') := by
  intro i k t u hik ht hu
  rcases getElem?_set_cases ht with ⟨hi, heq⟩ | ⟨hi, ht'⟩
  · rcases getElem?_set_cases hu with ⟨hk, -⟩ | ⟨hk, hu'⟩
    · exact absurd (hi.trans hk.symm) hik
    · exact heq ▸ hnew k u hk hu'
  · rcases getElem?_set_cases hu with ⟨-, heq⟩ | ⟨hk, hu'⟩
    · exact heq ▸ (hnew i t hi ht').symm
    · exact h i k t u hik ht' hu'

theorem apart_append {threads : List Thread} {c : Command} (h : AllApart threads) :
    AllApart (threads ++ [⟨c, c.id, .readArgument⟩]) := by
  have hnew (u : Thread) : Apart ⟨c, c.id, .readArgument⟩ u :=
    ⟨by simp [pending], by simp [holds]⟩
  intro i k t u hik ht hu
  rw [List.getElem?_append] at ht hu
  split_ifs at ht hu with hi hk hk
  · exact h i k t u hik ht hu
  · rw [List.getElem?_singleton] at hu
    split_ifs at hu
    exact Option.some.inj hu ▸ (hnew t).symm
  · rw [List.getElem?_singleton] at ht
    split_ifs at ht
    exact Option.some.inj ht ▸ hnew u
  · rw [List.getElem?_singleton] at ht
    split_ifs at ht
    exact Option.some.inj ht ▸ hnew u

theorem Apart.mono {t t' u : Thread} (h : Apart t u)
    (hpending : ∀ pid, pending pid t'.pc = true → pending pid t.pc = true)
    (hholds : ∀ i, holds i t'.pc = true → holds i t.pc = true) : Apart t' u :=
  ⟨fun pid hp ↦ h.1 pid (hpending pid hp), fun i hi ↦ h.2 i (hholds i hi)⟩

theorem ConnectInv.set_thread {s : State} (h : ConnectInv s) {j : ℕ} {t t' : Thread}
    {slots : Idx → Slot} (ht : s.threads[j]? = some t) (hcommand : t'.command = t.command)
    (hread : t'.pc ≠ .readArgument)
    (hslots : ∀ i, (slots i).seg.pid = (s.slots i).seg.pid ∨ (slots i).seg.pid ≤ 0)
    (hserves : ∀ pid, threadPid t'.pc = some pid → pid = t.command.pid)
    (hwindow : ∀ pid, pending pid t'.pc = true → ∀ i, (s.slots i).seg.pid ≠ pid)
    (hapart : ∀ (k : ℕ) (u : Thread), k ≠ j → s.threads[k]? = some u → Apart t' u) :
    ConnectInv { s with slots := slots, threads := s.threads.set j t' } := by
  have hok := h.threads t (List.mem_of_getElem? ht)
  have hfree (pid : Pid) (hpos : 0 < pid) (hold : ∀ i, (s.slots i).seg.pid ≠ pid) (i : Idx) :
      (slots i).seg.pid ≠ pid := by
    rcases hslots i with heq | hle
    · exact heq ▸ hold i
    · exact (hle.trans_lt hpos).ne
  refine ⟨fun u hu ↦ ?_, apart_set h.apart hapart, fun i i' hpos heq ↦ ?_⟩
  · obtain ⟨k, hk⟩ := List.getElem?_of_mem hu
    rcases getElem?_set_cases hk with ⟨-, rfl⟩ | ⟨-, hk⟩
    · refine ⟨hcommand ▸ hok.positive, fun hr ↦ absurd hr hread, hcommand ▸ hserves,
        fun pid hp ↦ ?_⟩
      have hpid : 0 < pid := by
        rw [hserves pid (threadPid_of_pending hp)]
        exact hok.positive
      exact hfree pid hpid (hwindow pid hp)
    · have hok' := h.threads u (List.mem_of_getElem? hk)
      refine ⟨hok'.positive, hok'.argument, hok'.serves, fun pid hp ↦ ?_⟩
      have hpid : 0 < pid := by
        rw [hok'.serves pid (threadPid_of_pending hp)]
        exact hok'.positive
      exact hfree pid hpid (hok'.window pid hp)
  · dsimp only at hpos heq
    rcases hslots i with hi | hi
    · rcases hslots i' with hi' | hi'
      · rw [hi] at hpos heq
        exact h.once i i' hpos (heq.trans hi')
      · exact absurd (heq ▸ hpos) (not_lt.mpr hi')
    · exact absurd hpos (not_lt.mpr hi)

theorem ConnectInv.claim {s : State} (h : ConnectInv s) {j : ℕ} {t : Thread} {pid : Pid} {i : Idx}
    (ht : s.threads[j]? = some t) (hpc : t.pc = .claim pid i)
    (hfree : ∀ k, (s.slots k).seg.pid ≠ pid) :
    ConnectInv ((s.setSeg i { (s.slots i).seg with pid := pid }).setPc j t
      (.serve pid i (.sendSemWait .connectSlave))) := by
  have hok := h.threads t (List.mem_of_getElem? ht)
  have hpid (k : Idx) : ((s.setSeg i { (s.slots i).seg with pid := pid }).slots k).seg.pid =
      if k = i then pid else (s.slots k).seg.pid := by
    rcases eq_or_ne k i with rfl | hk
    · simp [State.setSeg]
    · simp [State.setSeg, hk]
  have hmono (u : Thread) (hu : Apart t u) :
      Apart { t with pc := .serve pid i (.sendSemWait .connectSlave) } u := by
    refine hu.mono (by simp [pending]) fun i' hi ↦ ?_
    simpa [hpc, holds] using hi
  refine ⟨fun u hu ↦ ?_, apart_set h.apart fun k u hk hu ↦ ?_,
    fun k k' hk heq ↦ ?_⟩
  · obtain ⟨k, hk⟩ := List.getElem?_of_mem hu
    rcases getElem?_set_cases hk with ⟨-, rfl⟩ | ⟨hne, hk⟩
    · refine ⟨hok.positive, by simp, fun pid' hp ↦ ?_, by simp [pending]⟩
      exact hok.serves pid' (by rw [hpc]; exact hp)
    · have hu' := h.threads u (List.mem_of_getElem? hk)
      refine ⟨hu'.positive, hu'.argument, hu'.serves, fun pid' hp k' ↦ ?_⟩
      have hne' : pid ≠ pid' := by
        rintro rfl
        have hapart := (h.apart j k t u hne.symm ht hk).1 pid (by simp [hpc, pending])
        simp [hp] at hapart
      change ((s.setSeg i { (s.slots i).seg with pid := pid }).slots k').seg.pid ≠ pid'
      rw [hpid]
      split_ifs
      · exact hne'
      · exact hu'.window pid' hp k'
  · exact hmono u (h.apart j k t u hk.symm ht hu)
  · change 0 < ((s.setSeg i { (s.slots i).seg with pid := pid }).slots k).seg.pid at hk
    change ((s.setSeg i { (s.slots i).seg with pid := pid }).slots k).seg.pid =
      ((s.setSeg i { (s.slots i).seg with pid := pid }).slots k').seg.pid at heq
    rw [hpid] at hk heq
    rw [hpid] at heq
    split_ifs at hk heq with hi hi' hi'
    · exact hi.trans hi'.symm
    · exact absurd heq.symm (hfree k')
    · exact absurd heq (hfree k)
    · exact h.once k k' hk heq

theorem ConnectInv.keep {s t : State} (h : ConnectInv s)
    (hthreads : t.threads = s.threads) (hcell : t.cell = s.cell)
    (hslots : ∀ i, (t.slots i).seg.pid = (s.slots i).seg.pid) : ConnectInv t := by
  refine ⟨fun u hu ↦ ?_, hthreads ▸ h.apart, fun i i' ↦ ?_⟩
  · have hok := h.threads u (hthreads ▸ hu)
    refine ⟨hok.positive, fun hr ↦ (hok.argument hr).trans hcell.symm, hok.serves,
      fun pid hp i ↦ ?_⟩
    rw [hslots]
    exact hok.window pid hp i
  · rw [hslots, hslots]
    exact h.once i i'

theorem syncStep_inv {created killed : Bool} {s t : State} (hp : PidsPositive s)
    (h : ConnectInv s) (hok : connectsSeparate s (.sync created killed) = true)
    (hs : syncStep created killed s = some t) : ConnectInv t := by
  cases syncStep_move hs with
  | threadCreated hpc hcreated =>
    rename_i c
    have hpos := hp.sync c (by rw [hpc]; rfl)
    simp only [hpc, connectsSeparate, decide_eq_true_eq] at hok
    refine ⟨fun u hu ↦ ?_, apart_append h.apart, h.once⟩
    rcases List.mem_append.mp hu with hold | hnew
    · have hu := h.threads u hold
      exact ⟨hu.positive, hok.2 u hold, hu.serves, hu.window⟩
    · rw [List.mem_singleton.mp hnew]
      exact ⟨hpos, fun _ ↦ hok.1.symm, by simp [threadPid], by simp [pending]⟩
  | threadFailed hpc =>
    simp only [hpc, connectsSeparate, decide_eq_true_eq] at hok
    refine ⟨fun u hu ↦ ?_, h.apart, h.once⟩
    have hu' := h.threads u hu
    exact ⟨hu'.positive, hok.2 u hu, hu'.serves, hu'.window⟩
  | acquired | written => exact h.keep rfl rfl (update_kept (·.seg.pid : Slot → Pid) (by rfl))
  | _ => exact h.keep rfl rfl fun _ ↦ rfl

theorem served_inv {j : ℕ} {thread : Thread} {pid : Pid} {i : Idx} {pc : Pc} {v : View}
    {effect : Effect} {mustChange killed : Bool} {s : State} (h : ConnectInv s)
    (ht : s.threads[j]? = some thread) (hpc : thread.pc = .serve pid i pc)
    (hstep : SlotThread.step (s.slots i).written mustChange killed
      ⟨(s.slots i).seg, pc, (s.slots i).wake⟩ = some (v, effect)) :
    ConnectInv ({ s with
      slots := update s.slots i ((s.slots i).stepped thread.acting v effect)
      threads := s.threads.set j (thread.stepped (s.slots i) pid i v) }.answer effect) := by
  have hlive : pc ≠ .exited := by
    rintro rfl
    simp [SlotThread.step] at hstep
  have hset : ConnectInv { s with
      slots := update s.slots i ((s.slots i).stepped thread.acting v effect)
      threads := s.threads.set j (thread.stepped (s.slots i) pid i v) } := by
    have hok := h.threads thread (List.mem_of_getElem? ht)
    refine h.set_thread ht rfl (by simp [Thread.stepped]) (fun k ↦ ?_) (fun pid' hp ↦ ?_)
      (by simp [Thread.stepped, pending]) fun k u hk hu ↦ ?_
    · rcases eq_or_ne k i with rfl | hk
      · rw [update_self]
        rcases SlotThread.step_pid hstep with ⟨heq, -⟩ | ⟨-, -, heq⟩ | ⟨-, -, heq⟩
        · exact .inl heq
        · exact .inr heq.le
        · exact .inr (heq.le.trans (by decide))
      · rw [update_of_ne hk]
        exact .inl rfl
    · refine hok.serves pid' ?_
      simpa [Thread.stepped, threadPid, hpc] using hp
    · refine (h.apart j k thread u hk.symm ht hu).mono (by simp [Thread.stepped, pending]) ?_
      intro i' hi'
      simp only [Thread.stepped, holds, decide_eq_true_eq] at hi'
      simp [hpc, holds, hi'.1, hlive]
  obtain ⟨response, k, notified, heq⟩ := State.answer_eq { s with
      slots := update s.slots i ((s.slots i).stepped thread.acting v effect)
      threads := s.threads.set j (thread.stepped (s.slots i) pid i v) } effect
  rw [heq]
  exact hset.keep rfl rfl fun _ ↦ rfl

theorem threadStep_inv {j : ℕ} {mustChange killed : Bool} {s t : State} (h : ConnectInv s)
    (hok : connectsSeparate s (.thread j mustChange killed) = true)
    (hs : threadStep j mustChange killed s = some t) : ConnectInv t := by
  obtain ⟨thread, ht, hmove⟩ := threadStep_move hs
  have hthread := h.threads thread (List.mem_of_getElem? ht)
  have hreturned : ConnectInv (s.setPc j thread .returned) := by
    refine h.set_thread ht rfl (by simp) (fun _ ↦ .inl rfl) (by simp [threadPid])
      (by simp [pending]) fun k u hk hu ↦ ?_
    exact (h.apart j k thread u hk.symm ht hu).mono (by simp [pending]) (by simp [holds])
  simp only [connectsSeparate, ht] at hok
  cases hmove with
  | argumentRead hpc =>
    refine h.set_thread ht rfl (by simp) (fun _ ↦ .inl rfl) (fun pid hp ↦ ?_)
      (by simp [pending]) fun k u hk hu ↦ ?_
    · rw [hthread.argument hpc]
      exact (Option.some.inj hp).symm
    · exact (h.apart j k thread u hk.symm ht hu).mono (by simp [pending]) (by simp [holds])
  | alreadyConnected hpc | outOfMemory hpc => exact hreturned
  | unassigned hpc hnone =>
    rename_i pid
    simp only [hpc, decide_eq_true_eq] at hok
    have hserves := hthread.serves pid (by rw [hpc]; rfl)
    refine h.set_thread ht rfl (by simp) (fun _ ↦ .inl rfl) (fun pid' hp ↦ ?_)
      (fun pid' hp i ↦ ?_) fun k u hk hu ↦ ⟨fun pid' hp ↦ ?_, by simp [holds]⟩
    · exact (Option.some.inj hp) ▸ hserves
    · have heq : pid = pid' := by simpa [pending] using hp
      have hfree := probe_none.mp hnone i
      exact heq ▸ of_decide_eq_false hfree
    · have heq : pid = pid' := by simpa [pending] using hp
      exact heq ▸ hok u (List.mem_eraseIdx_iff_getElem?.mpr ⟨k, hk, hu⟩)
  | placed hpc hsome =>
    rename_i pid i
    simp only [hpc, decide_eq_true_eq] at hok
    have hserves := hthread.serves pid (by rw [hpc]; rfl)
    refine h.set_thread ht rfl (by simp) (fun _ ↦ .inl rfl) (fun pid' hp ↦ ?_)
      (fun pid' hp ↦ ?_) fun k u hk hu ↦ ⟨fun pid' hp ↦ ?_, fun i' hi ↦ ?_⟩
    · exact (Option.some.inj hp) ▸ hserves
    · exact hthread.window pid' (by rw [hpc]; exact hp)
    · exact (h.apart j k thread u hk.symm ht hu).1 pid' (by rw [hpc]; exact hp)
    · have heq : i = i' := by simpa [holds] using hi
      exact heq ▸ hok i hsome u (List.mem_eraseIdx_iff_getElem?.mpr ⟨k, hk, hu⟩)
  | claimed hpc =>
    rename_i pid i
    have hfree := hthread.window pid (by simp [hpc, pending])
    exact h.claim ht hpc hfree
  | served hpc hstep => exact served_inv h ht hpc hstep

theorem deliverStep_keep {pid : Pid} {signal : Signal} {s : State} (h : ConnectInv s) :
    ConnectInv (deliverStep pid signal s) := by
  unfold deliverStep
  split
  · exact h.keep rfl rfl (update_kept (·.seg.pid : Slot → Pid) (by rfl))
  · exact h

theorem step_inv {s t : State} {e : Event} (hp : PidsPositive s) (h : ConnectInv s)
    (hok : connectsSeparate s e = true) (hs : step s e = some t) : ConnectInv t := by
  cases e with
  | sync created killed => exact syncStep_inv hp h hok hs
  | thread j mustChange killed => exact threadStep_inv h hok hs
  | deliver pid signal => exact Option.some.inj hs ▸ deliverStep_keep h
  | slave i w | configure i requestedParameters communicationCycleUs =>
    exact Option.some.inj hs ▸ h.keep rfl rfl (update_kept (·.seg.pid : Slot → Pid) (by rfl))
  | _ =>
    obtain ⟨-, hs⟩ := Option.ite_none_right_eq_some.mp hs
    exact Option.some.inj hs ▸ h.keep rfl rfl fun _ ↦ rfl

theorem initial_inv : ConnectInv initial := by
  refine ⟨by simp [initial], ?_, ?_⟩
  · intro j k t u _ ht
    simp [initial] at ht
  · intro i i' hpos
    simp [initial, Shmseg.initial, initSlaveShmsegSharedMemory, noPid] at hpos

theorem ConnectInv.exclusiveSlots {s : State} (h : ConnectInv s) : ExclusiveSlots s :=
  ⟨fun t ht ↦ (h.threads t ht).serves,
    fun j k t u i hjk ht hu hi ↦ (h.apart j k t u hjk ht hu).2 i hi, h.once⟩

theorem exclusiveSlots_of_separate {s : State}
    (h : Reaches step (fun s e ↦ connectsSeparate s e = true) initial s) : ExclusiveSlots s := by
  have hinv : PidsPositive s ∧ ConnectInv s :=
    h.layered initial_pidsPositive initial_inv (fun _ _ _ hp _ hs ↦ step_pidsPositive hp hs)
      (fun _ _ _ ↦ step_inv)
  exact hinv.2.exclusiveSlots

def connectCommand (pid : Pid) : List Event :=
  [Event.type .connectSlave, Event.name pid, Event.send, Event.timeout] ++
    List.replicate 3 (Event.sync true true)

/-- Two pids with the same home index, connected one after the other. -/
theorem neighbours_exclusive :
    ∃ s, (s.slots 4).seg.pid = 100 ∧ (s.slots 5).seg.pid = 132 ∧ ExclusiveSlots s := by
  have hrun : (run (guarded step fun s e ↦ connectsSeparate s e = true) initial
      (connectCommand 100 ++ List.replicate 4 (Event.thread 0 false true) ++ connectCommand 132 ++
        List.replicate 4 (Event.thread 1 false true))).map
      (fun s ↦ ((s.slots 4).seg.pid, (s.slots 5).seg.pid)) = some (100, 132) := by
    decide +kernel
  obtain ⟨s, hs, hview⟩ := Option.map_eq_some_iff.mp hrun
  simp only [Prod.mk.injEq] at hview
  exact ⟨s, hview.1, hview.2, exclusiveSlots_of_separate (.of_run hs)⟩

/-- A second CONNECT overwrites the argument of the first one's thread. Both
threads connect the second slave, in two slots. -/
def overtakenConnect : List Event :=
  connectCommand 100 ++ connectCommand 132 ++
    [Event.thread 0 false true, Event.thread 1 false true] ++
    [Event.thread 0 false true, Event.thread 1 false true] ++
    List.replicate 2 (Event.thread 0 false true) ++ List.replicate 2 (Event.thread 1 false true)

theorem connects_overlap : ¬ ∀ s, Reaches step unrestricted initial s → ExclusiveSlots s := by
  intro hall
  have hrun : (run step initial overtakenConnect).map
      (fun s ↦ ((s.slots 4).seg.pid, (s.slots 5).seg.pid)) = some (132, 132) := by
    decide +kernel
  obtain ⟨s, hs, hview⟩ := Option.map_eq_some_iff.mp hrun
  simp only [Prod.mk.injEq] at hview
  have honce := (hall s (.of_unrestricted_run hs)).once 4 5
  simp [hview.1, hview.2] at honce

end RealTimeCyclic.MasterConnect
