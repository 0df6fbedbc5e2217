import RealTimeCyclic.ProcessSlots

namespace RealTimeCyclic.ProcessSlots

open Shm Slave SlotThread Probing Function Transition Processes

section Alone

variable {pids : Idx → Pid} {s t : State} {u : Slot.State} {i j : Idx}

theorem Views.of (hserved : ServedAt t.master.threads i u.slot)
    (hseg : (t.master.slots i).seg = u.seg) (hwake : (t.master.slots i).wake = u.wake)
    (hslave : t.slaves i = .of u) (hsync : u.sync = syncAt i t.master.sync) : Views t i u := by
  refine ⟨u.slot, hserved, ?_⟩
  unfold State.alone withThreads
  rw [hseg, hwake, hslave, ← hsync]
  rfl

theorem ServedAt.congr {threads threads' : List Master.Thread} {pc : Pc}
    (h : ServedAt threads i pc)
    (hserves : ∀ j pc, Serves threads' i j pc ↔ Serves threads i j pc) :
    ServedAt threads' i pc := by
  refine ⟨fun j pc' hs ↦ h.serving j pc' ((hserves j pc').mp hs), fun hnone ↦ h.exited ?_⟩
  exact fun j pc' hs ↦ hnone j pc' ((hserves j pc').mpr hs)

/-- A step that the slot does not take part in. -/
structure Idle (i : Idx) (s t : State) : Prop where
  alone : t.alone i = s.alone i
  serves : ∀ j pc, Serves t.master.threads i j pc ↔ Serves s.master.threads i j pc
  sync : syncAt i t.master.sync = syncAt i s.master.sync

theorem Idle.of (hslot : t.master.slots i = s.master.slots i) (hslave : t.slaves i = s.slaves i)
    (hserves : ∀ j pc, Serves t.master.threads i j pc ↔ Serves s.master.threads i j pc)
    (hsync : syncAt i t.master.sync = syncAt i s.master.sync) : Idle i s t := by
  refine ⟨?_, hserves, hsync⟩
  unfold State.alone
  rw [hslot, hslave]

theorem Idle.of_control (hmaster : ∃ control latest pendingMaster pendingConfigurator configurator,
      t.master = { s.master with
        control := control
        latest := latest
        pendingMaster := pendingMaster
        pendingConfigurator := pendingConfigurator
        configurator := configurator })
    (hslaves : t.slaves = s.slaves) : Idle i s t := by
  obtain ⟨_, _, _, _, _, hm⟩ := hmaster
  refine .of ?_ (congrFun hslaves i) ?_ ?_ <;> rw [hm]
  exact fun _ _ ↦ Iff.rfl

theorem Idle.views (h : Idle i s t) (hview : Views s i u) : Views t i u := by
  obtain ⟨pc, hserved, hu⟩ := hview
  refine ⟨pc, hserved.congr h.serves, ?_⟩
  rw [hu, h.alone, h.sync]

theorem kill_home (hpids : Homes pids) (s : State) (i : Idx) (signal : Signal) :
    s.kill pids (pids i) signal =
      s.setSlave i { s.slaves i with toSlave := (s.slaves i).toSlave ++ [signal] } := by
  unfold State.kill State.setSlave
  congr 1
  funext j
  by_cases hj : j = i
  · subst hj
    rw [update_self, if_pos (.inl rfl)]
  · rw [update_of_ne hj, if_neg]
    rintro (hpid | hneg)
    · exact hj (hpids.injective hpid.symm)
    · exact absurd (hpids.positive i) (not_lt.mpr hneg)

end Alone

section Follow

variable (pids : Idx → Pid) (i : Idx) (ok : Slot.State → Slot.Event → Prop)

def Follows (u : Slot.State) (t : State) : Prop :=
  ∃ v, Reaches (Slot.step (pids i)) ok u v ∧ Views t i v

def Admitted (s : State) (e : Event) : Prop :=
  apart pids s e = true ∧ ∀ u e', Views s i u → concerns s e = some (i, e') → ok u e'

end Follow

section Slaves

variable {pids : Idx → Pid} {i j : Idx} {ok : Slot.State → Slot.Event → Prop} {s t : State}
  {u : Slot.State} {threadStep : Slot.State → Option Slot.State}

theorem Views.follows (h : Views t i u) : Follows pids i ok u t := ⟨u, .start, h⟩

theorem slaveStep_views (hs : slaveStep i threadStep s = some t)
    (hframe : ∀ u v, threadStep u = some v → SlaveFrame u v) (hview : Views s i u)
    (hthreads : ∀ sync pc, threadStep (withThreads (s.alone i) sync pc) =
      (threadStep (s.alone i)).map fun v ↦ withThreads v sync pc) :
    ∃ v, threadStep u = some v ∧ Views t i v := by
  obtain ⟨v, hv, rfl⟩ := slaveStep_eq_some hs
  obtain ⟨pc, hserved, rfl⟩ := hview
  refine ⟨withThreads v (syncAt i s.master.sync) pc, ?_, ?_⟩
  · rw [hthreads, hv, Option.map_some]
  · refine Views.of hserved ?_ ?_ ?_ rfl
    · simp [State.setSlave, Master.State.setSeg, withThreads]
    · simp only [State.setSlave, Master.State.setSeg, withThreads, update_self]
      exact (hframe _ _ hv).wake.symm
    · exact update_self i _ _

theorem slaveStep_idle (hs : slaveStep j threadStep s = some t) (hij : i ≠ j) : Idle i s t := by
  obtain ⟨v, -, rfl⟩ := slaveStep_eq_some hs
  exact .of (update_of_ne hij _ _) (update_of_ne hij _ _) (fun _ _ ↦ Iff.rfl) rfl

end Slaves

section Signals

variable {pids : Idx → Pid} {i j : Idx} {ok : Slot.State → Slot.Event → Prop} {s t : State}
  {u : Slot.State}

theorem deliverStep_home (hpids : Homes pids) {m : Master.State} (h : HomeInv pids m) (j : Idx)
    (signal : Signal) :
    Master.deliverStep (pids j) signal m =
      if (m.slots j).seg.pid = pids j then
        { m with
          slots := update m.slots j { m.slots j with wake := (m.slots j).wake ++ [signal] } }
      else m := by
  rw [Master.deliverStep, h.lookup hpids]
  split_ifs <;> rfl

theorem deliver_views (hpids : Homes pids) (h : HomeInv pids s.master)
    (hs : step pids s (.deliver i) = some t) (hview : Views s i u) :
    ∃ v, Slot.deliverStep (pids i) u = some v ∧ Views t i v := by
  obtain ⟨signal, toMaster, hsignals, hm, hslaves⟩ := deliver_eq_some hs
  obtain ⟨pc, hserved, rfl⟩ := hview
  rw [deliverStep_home hpids h] at hm
  have hslave : t.slaves i = { s.slaves i with toMaster := toMaster } := by
    rw [hslaves, update_self]
  simp only [Slot.deliverStep, withThreads, State.alone, hsignals]
  split_ifs with hown
  · rw [if_pos hown] at hm
    refine ⟨_, rfl, Views.of ?_ ?_ ?_ hslave ?_⟩ <;> rw [hm]
    · exact hserved
    · simp only [update_self]
    · simp only [update_self]
  · rw [if_neg hown] at hm
    refine ⟨_, rfl, Views.of ?_ ?_ ?_ hslave ?_⟩ <;> rw [hm]
    exact hserved

theorem deliver_idle (hpids : Homes pids) (h : HomeInv pids s.master)
    (hs : step pids s (.deliver j) = some t) (hij : i ≠ j) : Idle i s t := by
  obtain ⟨signal, toMaster, -, hm, hslaves⟩ := deliver_eq_some hs
  rw [deliverStep_home hpids h] at hm
  have hslave : t.slaves i = s.slaves i := by
    rw [hslaves, update_of_ne hij]
  have hslot : t.master.slots i = s.master.slots i := by
    rw [hm]
    split_ifs
    · exact update_of_ne hij _ _
    · rfl
  refine .of hslot hslave ?_ ?_
  · rw [hm]
    split_ifs <;> exact fun _ _ ↦ Iff.rfl
  · rw [hm]
    split_ifs <;> rfl

theorem configure_views {requestedParameters : ℕ} {communicationCycleUs : Int}
    (hs : step pids s (.configure i requestedParameters communicationCycleUs) = some t)
    (hview : Views s i u) : ∃ v, Slot.step (pids i) u
      (.configure requestedParameters communicationCycleUs) = some v ∧ Views t i v := by
  obtain ⟨hm, hslaves⟩ := masterStep_eq_some hs
  obtain ⟨pc, hserved, rfl⟩ := hview
  refine ⟨_, rfl, Views.of ?_ ?_ ?_ (congrFun hslaves i) ?_⟩ <;>
    rw [← Option.some.inj hm]
  · exact hserved
  · simp only [Master.State.setSeg, update_self]
    rfl
  · simp only [Master.State.setSeg, update_self]
    rfl
  · rfl

theorem configure_idle {requestedParameters : ℕ} {communicationCycleUs : Int}
    (hs : step pids s (.configure j requestedParameters communicationCycleUs) = some t)
    (hij : i ≠ j) : Idle i s t := by
  obtain ⟨hm, hslaves⟩ := masterStep_eq_some hs
  have hslot : t.master.slots i = s.master.slots i := by
    rw [← Option.some.inj hm]
    exact update_of_ne hij _ _
  refine .of hslot (congrFun hslaves i) ?_ ?_ <;> rw [← Option.some.inj hm]
  · exact fun _ _ ↦ Iff.rfl
  · rfl

end Signals

section Threads

variable {pids : Idx → Pid} {i j : Idx} {n : ℕ} {ok : Slot.State → Slot.Event → Prop}
  {s t : State} {u : Slot.State} {thread : Master.Thread} {pid : Pid} {pc : Pc}
  {mustChange killed : Bool} {current : ℕ} {v v' : View} {effect : Effect}

theorem unnumbered_exited (h : unnumbered pc = .exited) : pc = .exited := by
  cases pc <;> first | rfl | cases h

/-- Signals are only sent by a thread that holds its slot. -/
theorem step_signalled {signal : Signal}
    (h : SlotThread.step current mustChange killed v = some (v', .signalled signal)) :
    v.pc.cleared = false := by
  generalize hsent : Effect.signalled signal = effect at h
  cases step_move h <;> simp_all [Pc.cleared]

theorem effect_sync (u : Slot.State) (effect : Effect) : (u.effect effect).sync = u.sync := by
  cases effect with
  | handled signal => cases signal <;> rfl
  | _ => rfl

theorem of_effect (u : Slot.State) (seg : Shmseg) (sync : Slot.SyncPc) (pc : Pc)
    (wake : List Signal) (effect : Effect) :
    Slave.of ({ u with seg := seg, sync := sync, slot := pc, wake := wake }.effect effect) =
      .of (u.effect effect) := by
  cases effect with
  | handled signal => cases signal <;> rfl
  | _ => rfl

theorem slotEffect_slaves (hpids : Homes pids)
    (hsignal : ∀ signal, effect = .signalled signal → (s.master.slots i).seg.pid = pids i) :
    (slotEffect pids i s effect).slaves =
      update s.slaves i (.of ((s.alone i).effect effect)) := by
  cases effect with
  | signalled signal =>
    rw [slotEffect, hsignal signal rfl, kill_home hpids]
    rfl
  | _ => rfl

theorem threadEffect_served (hn : s.master.threads[n]? = some thread)
    (hpc : thread.pc = .serve pid i pc)
    (hstep : SlotThread.step (s.master.slots i).written mustChange true
      ⟨(s.master.slots i).seg, pc, (s.master.slots i).wake⟩ = some (v, effect)) :
    threadEffect pids n mustChange s = slotEffect pids i s effect := by
  simp only [threadEffect, hn, hpc, hstep]

theorem threadEffect_other (hn : s.master.threads[n]? = some thread)
    (hpc : ∀ pid i pc, thread.pc ≠ .serve pid i pc) : threadEffect pids n mustChange s = s := by
  unfold threadEffect
  rw [hn]
  dsimp only
  split
  · exact absurd ‹_› (hpc _ _ _)
  · rfl

theorem thread_idle (hpids : Homes pids) (h : HomeInv pids s.master)
    (hs : step pids s (.thread n mustChange) = some t) (hn : s.master.threads[n]? = some thread)
    (hserve : ∀ pid pc, thread.pc ≠ .serve pid i pc) (hclaim : ∀ pid, thread.pc ≠ .claim pid i) :
    Idle i s t := by
  obtain ⟨-, hs⟩ := Option.ite_none_right_eq_some.mp hs
  obtain ⟨hm, hslaves⟩ := masterStep_eq_some hs
  have hmoved {thread' : Master.Thread} (hslot : t.master.slots i = s.master.slots i)
      (hthreads : t.master.threads = s.master.threads.set n thread')
      (hserve' : ∀ pid pc, thread'.pc ≠ .serve pid i pc)
      (hslave : (threadEffect pids n mustChange s).slaves i = s.slaves i) : Idle i s t := by
    refine .of hslot ?_ (fun k pc ↦ ?_) ?_
    · rw [hslaves, hslave]
    · rw [hthreads]
      exact serves_set_other hn hserve hserve'
    · rw [(Master.threadStep_frame hm).sync]
  obtain ⟨thread', hn', hmove⟩ := Master.threadStep_move hm
  obtain rfl : thread' = thread := Option.some.inj (hn'.symm.trans hn)
  obtain ⟨master, slaves⟩ := t
  cases hmove with
  | @claimed pid k hpc =>
    have hik : i ≠ k := by
      rintro rfl
      exact hclaim pid hpc
    refine hmoved (update_of_ne hik _ _) rfl (by rintro _ _ ⟨⟩; exact hik rfl) ?_
    rw [threadEffect_other hn (by simp [hpc])]
  | @served pid k pc v effect hpc hstep =>
    have hik : i ≠ k := by
      rintro rfl
      exact hserve pid pc hpc
    have hne : pc ≠ .exited := by
      rintro rfl
      cases hstep
    refine hmoved ?_ (Master.answer_threads _ effect) (by rintro _ _ ⟨⟩; exact hik rfl) ?_
    · exact (congrFun (Master.answer_slots _ effect) i).trans (update_of_ne hik _ _)
    · rw [threadEffect_served hn hpc hstep, slotEffect_slaves hpids, update_of_ne hik]
      rintro signal rfl
      exact h.serving k n pc ⟨thread', pid, hn, hpc, hne⟩ (step_signalled hstep)
  | _ hpc =>
    refine hmoved rfl rfl (by rintro _ _ ⟨⟩) ?_
    rw [threadEffect_other hn (by simp [hpc])]

theorem thread_served (hpids : Homes pids) (h : HomeInv pids s.master)
    (hs : step pids s (.thread n mustChange) = some t) (hn : s.master.threads[n]? = some thread)
    (hpc : thread.pc = .serve pid i pc) (hview : Views s i u) :
    ∃ v, Slot.step (pids i) u (.slot mustChange) = some v ∧ Views t i v := by
  obtain ⟨-, hs⟩ := Option.ite_none_right_eq_some.mp hs
  obtain ⟨hm, hslaves⟩ := masterStep_eq_some hs
  obtain ⟨v, effect, hstep, hm'⟩ : ∃ v effect, SlotThread.step (s.master.slots i).written mustChange
      true ⟨(s.master.slots i).seg, pc, (s.master.slots i).wake⟩ = some (v, effect) ∧ _ := by
    simp only [Master.step, Master.threadStep, hn, hpc] at hm
    exact Master.serveStep_eq_some hm
  have hne : pc ≠ .exited := by
    rintro rfl
    cases hstep
  have hserves : Serves s.master.threads i n pc := ⟨thread, pid, hn, hpc, hne⟩
  obtain ⟨pc₀, hserved, rfl⟩ := hview
  obtain ⟨w, effect', hw, hseg, hwake, hpc', heffect⟩ := step_renumber
    ((s.alone i).history.acquired) (hserved.serving n pc hserves) hstep
  have hthreads : t.master.threads = s.master.threads.set n
      (thread.stepped (s.master.slots i) pid i v) := by
    rw [hm', Master.answer_threads]
  have hslot : t.master.slots i = (s.master.slots i).stepped thread.acting v effect := by
    rw [hm', Master.answer_slots]
    exact update_self i _ _
  have hself (k : ℕ) (pc' : Pc) (hs : Serves t.master.threads i k pc') : pc' = v.pc := by
    rw [hthreads] at hs
    refine (serves_set_self rfl (fun k q hs ↦ ?_) hs).2
    exact h.alone i k n q pc hs hserves
  refine ⟨_, congrArg (Option.map _) hw, Views.of ⟨?_, ?_⟩ ?_ ?_ ?_ ?_⟩
  · intro k pc' hs
    rw [Slot.State.effect_slot, hself k pc' hs]
    exact hpc'
  · intro hnone
    rw [Slot.State.effect_slot]
    by_contra hexited
    refine hnone n v.pc ⟨thread.stepped (s.master.slots i) pid i v, pid, ?_, rfl,
      fun hv ↦ hexited (unnumbered_exited ?_)⟩
    · rw [hthreads, List.getElem?_set_self (List.getElem?_eq_some_iff.mp hn).1]
    · rw [hpc', hv]
      rfl
  · rw [hslot, Slot.State.effect_seg]
    exact hseg.symm
  · rw [hslot, Slot.State.effect_wake]
    exact hwake.symm
  · rw [hslaves, threadEffect_served hn hpc hstep, slotEffect_slaves hpids, update_self]
    · dsimp only
      rw [effect_unnumbered heffect]
      exact (of_effect (s.alone i) _ _ _ _ effect).symm
    · rintro signal rfl
      exact h.serving i n pc hserves (step_signalled hstep)
  · rw [effect_sync, (Master.threadStep_frame hm).sync]
    rfl

theorem thread_claims (hpids : Homes pids) (hsync : ∀ u request, ok u (.sync request))
    (hok : apart pids s (.thread n mustChange) = true)
    (hs : step pids s (.thread n mustChange) = some t) (hn : s.master.threads[n]? = some thread)
    (hpc : thread.pc = .claim pid i) (hview : Views s i u) : Follows pids i ok u t := by
  obtain ⟨hown, hs⟩ := Option.ite_none_right_eq_some.mp hs
  obtain ⟨hm, hslaves⟩ := masterStep_eq_some hs
  simp only [claimsOwn, hn, hpc, decide_eq_true_eq] at hown
  subst hown
  simp only [apart, hn, hpc, Bool.decide_and, Bool.and_eq_true, decide_eq_true_eq] at hok
  obtain ⟨hfree, hunserved, hidle⟩ := hok
  have hm' : t.master = (s.master.setSeg i { (s.master.slots i).seg with pid := pids i }).setPc n
      thread (.serve (pids i) i (.sendSemWait .connectSlave)) := by
    simp only [Master.step, Master.threadStep, hn, hpc] at hm
    exact (Option.some.inj hm).symm
  have hslave : t.slaves i = s.slaves i := by
    rw [hslaves, threadEffect_other hn (by simp [hpc])]
  have hslot : t.master.slots i =
      { s.master.slots i with seg.pid := pids i } := by
    rw [hm']
    exact update_self i _ _
  obtain ⟨pc, hserved, rfl⟩ := hview
  obtain rfl := hserved.exited (not_serves_of_unserved hunserved)
  rw [hidle]
  -- the sync thread looks the slave up, then the slot is claimed
  refine ⟨{ s.alone i with seg.pid := pids i, slot := .sendSemWait .connectSlave },
    (Reaches.single (hsync _ .connectSlave) rfl).next (hsync _ .connectSlave) ?_, ?_⟩
  · have hother : (s.alone i).seg.pid ≠ pids i := by
      rw [show (s.alone i).seg.pid = noPid from hfree]
      exact (ne_noPid_of_pos (hpids.positive i)).symm
    simp only [Slot.step, Slot.syncStep, withThreads, if_neg hother]
    rw [if_pos ⟨hfree, trivial⟩]
    rfl
  · refine Views.of ⟨fun k pc hs ↦ ?_, fun hnone ↦ ?_⟩ ?_ ?_ hslave ?_
    · rw [hm'] at hs
      rw [(serves_set_self rfl (fun k q hs ↦ ?_) hs).2]
      exact absurd hs (not_serves_of_unserved hunserved k q)
    · refine absurd ⟨{ thread with pc := .serve (pids i) i (.sendSemWait .connectSlave) },
        pids i, ?_, rfl, by simp⟩ (hnone n (.sendSemWait .connectSlave))
      rw [hm']
      exact List.getElem?_set_self (List.getElem?_eq_some_iff.mp hn).1
    · rw [hslot]
      rfl
    · rw [hslot]
      rfl
    · rw [(Master.threadStep_frame hm).sync, hidle]
      rfl

end Threads

section Sync

variable {pids : Idx → Pid} {i : Idx} {ok : Slot.State → Slot.Event → Prop} {s t : State}
  {u : Slot.State} {created : Bool} {c : Master.Command}

theorem kill_pid {request : Request} {pid : Pid} {k : Idx} (h : HomeInv pids s.master)
    (hok : apart pids s (.sync created) = true) (hpc : s.master.sync = .kill c request pid k) :
    (if request = .disconnectSlave then (s.master.slots k).seg.pid else pid) = pids k := by
  have hsync := h.sync
  simp only [apart, hpc, decide_eq_true_eq] at hok
  rw [hpc] at hsync
  split_ifs with hdisconnect
  · exact hok hdisconnect
  · exact hsync

theorem syncEffect_idle (hpids : Homes pids) (h : HomeInv pids s.master)
    (hok : apart pids s (.sync created) = true) (hat : syncAt i s.master.sync = .sigwaitinfo) :
    (syncEffect pids s).slaves i = s.slaves i := by
  unfold syncEffect
  cases hpc : s.master.sync with
  | semWait c request pid k | write c request pid k =>
    have hik : i ≠ k := by
      rintro rfl
      simp [hpc, syncAt] at hat
    exact update_of_ne hik _ _
  | kill c request pid k =>
    have hik : i ≠ k := by
      rintro rfl
      simp [hpc, syncAt] at hat
    dsimp only
    rw [kill_pid h hok hpc, kill_home hpids]
    exact update_of_ne hik _ _
  | _ => rfl

theorem lookup_follows (request : Request) {pc : Slot.SyncPc}
    (hsync : ∀ u request, ok u (.sync request)) (hrequest : Master.sendable request = true)
    (hconnect : request ≠ .connectSlave)
    (hpc : pc = if request = .startSlaveCycle then .checkCycle else .semWait request)
    (hat : u.sync = .sigwaitinfo) (hpid : u.seg.pid = pids i) :
    Reaches (Slot.step (pids i)) ok u { u with sync := pc } := by
  have hread : Slot.step (pids i) u (.sync request) = some { u with sync := .lookup request } := by
    simp only [Slot.step, Slot.syncStep, hat]
    cases request <;> first | rfl | cases hrequest
  refine (Reaches.single (hsync _ request) hread).next (hsync _ request) ?_
  subst hpc
  cases request with
  | connectSlave => exact absurd rfl hconnect
  | disconnectSlave | startSlaveCycle | stopSlaveCycle =>
    simp [Slot.step, Slot.syncStep, hpid]
  | _ => cases hrequest

theorem found_pid {m : Master.State} {request : Request} {k : Idx} (h : HomeInv pids m)
    (hpc : m.sync = .lookup c request)
    (hfound : Master.getAssignedShmsegIdx m.slots m.control.affectedSlavePid = some k) :
    (m.slots k).seg.pid = pids k := by
  have hseg : (m.slots k).seg.pid = m.control.affectedSlavePid := by
    simpa using probe_some hfound
  exact hseg.trans (h.found (h.affected (.inl (by simp [hpc]))) hfound)

theorem sync_idle (hpids : Homes pids) (h : HomeInv pids s.master)
    (hok : apart pids s (.sync created) = true) (hs : step pids s (.sync created) = some t)
    (hat : syncAt i s.master.sync = .sigwaitinfo)
    (hat' : syncAt i t.master.sync = .sigwaitinfo) : Idle i s t := by
  obtain ⟨hm, hslaves⟩ := masterStep_eq_some hs
  have hslave : t.slaves i = s.slaves i := by
    rw [hslaves, syncEffect_idle hpids h hok hat]
  obtain ⟨master, slaves⟩ := t
  have hslot : master.slots i = s.master.slots i := by
    cases Master.syncStep_move hm with
    | @acquired c request pid k hpc | @written c request pid k hpc =>
      have hik : i ≠ k := by
        rintro rfl
        simp [hpc, syncAt] at hat
      exact update_of_ne hik _ _
    | _ => rfl
  refine .of hslot hslave ?_ (hat'.trans hat.symm)
  cases Master.syncStep_move hm with
  | threadCreated => exact fun _ _ ↦ serves_append
  | _ => exact fun _ _ ↦ Iff.rfl

theorem sync_finds (hpids : Homes pids) (hsync : ∀ u request, ok u (.sync request))
    (h : HomeInv pids s.master) (hok : apart pids s (.sync created) = true)
    (hs : step pids s (.sync created) = some t) (hview : Views s i u)
    (hat : syncAt i s.master.sync = .sigwaitinfo)
    (hat' : syncAt i t.master.sync ≠ .sigwaitinfo) : Follows pids i ok u t := by
  obtain ⟨hm, hslaves⟩ := masterStep_eq_some hs
  have haddressed := h.sync
  have hslave : t.slaves i = s.slaves i := by
    rw [hslaves, syncEffect_idle hpids h hok hat]
  obtain ⟨pc, hserved, hu⟩ := hview
  rw [hat] at hu
  obtain ⟨master, slaves⟩ := t
  cases Master.syncStep_move hm with
  | @startFound c k hpc hfound =>
    obtain rfl : k = i := by
      by_contra hk
      exact hat' (if_neg hk)
    refine ⟨{ u with sync := .checkCycle }, lookup_follows .startSlaveCycle hsync rfl (by simp)
      rfl ?_ ?_, Views.of ?_ ?_ ?_ ?_ ?_⟩ <;> rw [hu]
    · rfl
    · exact found_pid h hpc hfound
    · exact hserved
    · rfl
    · rfl
    · exact hslave
    · exact (if_pos rfl).symm
  | @slaveFound c request k hpc hrequest hfound =>
    obtain rfl : k = i := by
      by_contra hk
      exact hat' (if_neg hk)
    rw [hpc] at haddressed
    refine ⟨{ u with sync := .semWait request }, lookup_follows request hsync haddressed.1
      haddressed.2 (if_neg hrequest).symm ?_ ?_, Views.of ?_ ?_ ?_ ?_ ?_⟩ <;> rw [hu]
    · rfl
    · exact found_pid h hpc hfound
    · exact hserved
    · rfl
    · rfl
    · exact hslave
    · exact (if_pos rfl).symm
  | @cycleSet c pid k hpc | @acquired c request pid k hpc | @written c request pid k hpc =>
    have hik : k ≠ i := by
      rintro rfl
      simp [hpc, syncAt] at hat
    exact absurd (if_neg hik) hat'
  | _ => exact absurd rfl hat'

theorem sync_works (hpids : Homes pids) (h : HomeInv pids s.master)
    (hok : apart pids s (.sync created) = true) (hs : step pids s (.sync created) = some t)
    (hview : Views s i u) (hat : syncAt i s.master.sync ≠ .sigwaitinfo) (request : Request) :
    ∃ v, Slot.step (pids i) u (.sync request) = some v ∧ Views t i v := by
  obtain ⟨hm, hslaves⟩ := masterStep_eq_some hs
  obtain ⟨pc, hserved, hu⟩ := hview
  obtain ⟨master, slaves⟩ := t
  have hslave : slaves i = (syncEffect pids s).slaves i := congrFun hslaves i
  have hself {k : Idx} (hk : k ≠ i → syncAt i s.master.sync = .sigwaitinfo) : k = i := by
    by_contra hne
    exact hat (hk hne)
  cases Master.syncStep_move hm with
  | @cycleUnset c pid k hpc =>
    obtain rfl : k = i := hself fun hk ↦ by rw [hpc]; exact if_neg hk
    have hunset : (s.master.slots k).seg.communicationCycleUs =
        errorNotSetCommunicationCycleMs := by
      by_contra hset
      simp [Master.step, Master.syncStep, hpc, hset] at hm
    refine ⟨{ u with sync := .sigwaitinfo }, ?_, Views.of ?_ ?_ ?_ ?_ ?_⟩ <;> rw [hu]
    · simp [Slot.step, Slot.syncStep, withThreads, State.alone, syncAt, hpc, hunset]
    · exact hserved
    · rfl
    · rfl
    · exact hslave.trans (by rw [syncEffect, hpc]; rfl)
    · rfl
  | @cycleSet c pid k hpc =>
    obtain rfl : k = i := hself fun hk ↦ by rw [hpc]; exact if_neg hk
    have hset : (s.master.slots k).seg.communicationCycleUs ≠
        errorNotSetCommunicationCycleMs := by
      intro hunset
      simp [Master.step, Master.syncStep, hpc, hunset] at hm
    refine ⟨{ u with sync := .semWait .startSlaveCycle }, ?_, Views.of ?_ ?_ ?_ ?_ ?_⟩ <;> rw [hu]
    · simp [Slot.step, Slot.syncStep, withThreads, State.alone, syncAt, hpc, hset]
    · exact hserved
    · rfl
    · rfl
    · exact hslave.trans (by rw [syncEffect, hpc]; rfl)
    · exact (if_pos rfl).symm
  | @acquired c request pid k hpc hpos =>
    obtain rfl : k = i := hself fun hk ↦ by rw [hpc]; exact if_neg hk
    refine ⟨{ u with
      seg.semMToSRequest := u.seg.semMToSRequest - 1
      history.acquired := u.history.acquired + 1
      sync := .write request }, ?_, Views.of ?_ ?_ ?_ ?_ ?_⟩ <;> rw [hu]
    · simp [Slot.step, Slot.syncStep, withThreads, State.alone, syncAt, hpc, hpos]
    · exact hserved
    · simp [withThreads, State.alone]
    · simp [withThreads, State.alone]
    · refine hslave.trans ?_
      rw [syncEffect, hpc]
      exact update_self k _ _
    · exact (if_pos rfl).symm
  | @written c request pid k hpc =>
    obtain rfl : k = i := hself fun hk ↦ by rw [hpc]; exact if_neg hk
    refine ⟨{ u with
      seg.reqMToS := request
      history.written := u.history.acquired
      sync := .kill request }, ?_, Views.of ?_ ?_ ?_ ?_ ?_⟩ <;> rw [hu]
    · simp [Slot.step, Slot.syncStep, withThreads, State.alone, syncAt, hpc]
    · exact hserved
    · simp [withThreads, State.alone]
    · simp [withThreads, State.alone]
    · refine hslave.trans ?_
      rw [syncEffect, hpc]
      exact update_self k _ _
    · exact (if_pos rfl).symm
  | @sent c request pid k hpc hkill =>
    obtain rfl : k = i := hself fun hk ↦ by rw [hpc]; exact if_neg hk
    refine ⟨{ u with toSlave := u.toSlave ++ [.command], sync := .sigwaitinfo }, ?_,
      Views.of ?_ ?_ ?_ ?_ ?_⟩ <;> rw [hu]
    · simp [Slot.step, Slot.syncStep, withThreads, State.alone, syncAt, hpc]
    · exact hserved
    · rfl
    · rfl
    · refine hslave.trans ?_
      rw [syncEffect, hpc]
      dsimp only
      rw [kill_pid h hok hpc, kill_home hpids]
      exact update_self k _ _
    · rfl
  | unsent hpc hkill => cases hkill
  | _ hpc => exact absurd (by rw [hpc]; rfl) hat

theorem sync_follows (hpids : Homes pids) (hsync : ∀ u request, ok u (.sync request))
    (h : HomeInv pids s.master) (hok : apart pids s (.sync created) = true)
    (hs : step pids s (.sync created) = some t) (hview : Views s i u) : Follows pids i ok u t := by
  by_cases hat : syncAt i s.master.sync = .sigwaitinfo
  · by_cases hat' : syncAt i t.master.sync = .sigwaitinfo
    · exact ((sync_idle hpids h hok hs hat hat').views hview).follows
    · exact sync_finds hpids hsync h hok hs hview hat hat'
  · obtain ⟨v, hv, hview'⟩ := sync_works hpids h hok hs hview hat .startMaster
    exact ⟨v, .single (hsync u .startMaster) hv, hview'⟩

end Sync

section Refinement

variable {pids : Idx → Pid} {i : Idx} {ok : Slot.State → Slot.Event → Prop} {s t : State}
  {u : Slot.State} {e : Event} {n : ℕ} {mustChange : Bool}

theorem Views.alive (h : Views s i u) : u.alive = (s.slaves i).alive := by
  obtain ⟨pc, -, rfl⟩ := h
  rfl

theorem thread_follows (hpids : Homes pids) (hsync : ∀ u request, ok u (.sync request))
    (h : HomeInv pids s.master) (hview : Views s i u)
    (hok : Admitted pids i ok s (.thread n mustChange))
    (hs : step pids s (.thread n mustChange) = some t) : Follows pids i ok u t := by
  obtain ⟨happart, hconcerns⟩ := hok
  have hm := (masterStep_eq_some (Option.ite_none_right_eq_some.mp hs).2).1
  obtain ⟨thread, hn, -⟩ := Master.threadStep_move hm
  by_cases hserve : ∃ pid pc, thread.pc = .serve pid i pc
  · obtain ⟨pid, pc, hpc⟩ := hserve
    obtain ⟨v, hv, hview'⟩ := thread_served hpids h hs hn hpc hview
    refine ⟨v, .single (hconcerns u _ hview ?_) hv, hview'⟩
    simp [concerns, hn, hpc]
  · by_cases hclaim : ∃ pid, thread.pc = .claim pid i
    · obtain ⟨pid, hpc⟩ := hclaim
      exact thread_claims hpids hsync happart hs hn hpc hview
    · refine ((thread_idle hpids h hs hn ?_ ?_).views hview).follows
      · exact fun pid pc hpc ↦ hserve ⟨pid, pc, hpc⟩
      · exact fun pid hpc ↦ hclaim ⟨pid, hpc⟩

theorem step_follows (hpids : Homes pids) (hsync : ∀ u request, ok u (.sync request))
    (h : HomeInv pids s.master) (hview : Views s i u) (hok : Admitted pids i ok s e)
    (hs : step pids s e = some t) : Follows pids i ok u t := by
  obtain ⟨happart, hconcerns⟩ := hok
  have hone {e' : Slot.Event} (he : concerns s e = some (i, e'))
      (hstep : ∃ v, Slot.step (pids i) u e' = some v ∧ Views t i v) : Follows pids i ok u t := by
    obtain ⟨v, hv, hview'⟩ := hstep
    exact ⟨v, .single (hconcerns u e' hview he) hv, hview'⟩
  cases e with
  | sync created => exact sync_follows hpids hsync h happart hs hview
  | thread n mustChange => exact thread_follows hpids hsync h hview ⟨happart, hconcerns⟩ hs
  | configure k requestedParameters communicationCycleUs =>
    by_cases hk : k = i
    · subst hk
      exact hone rfl (configure_views hs hview)
    · exact ((configure_idle hs (Ne.symm hk)).views hview).follows
  | deliver k =>
    by_cases hk : k = i
    · subst hk
      exact hone rfl (deliver_views hpids h hs hview)
    · exact ((deliver_idle hpids h hs (Ne.symm hk)).views hview).follows
  | handler k =>
    obtain ⟨halive, hs⟩ := Option.ite_none_right_eq_some.mp hs
    by_cases hk : k = i
    · subst hk
      refine hone rfl ?_
      rw [Slot.step, if_pos (hview.alive.trans halive)]
      exact slaveStep_views hs (fun _ _ ↦ handlerStep_frame) hview
        (handlerStep_withThreads (pids k) (s.alone k))
    · exact ((slaveStep_idle hs (Ne.symm hk)).views hview).follows
  | cycle k usleep rand now =>
    obtain ⟨halive, hs⟩ := Option.ite_none_right_eq_some.mp hs
    by_cases hk : k = i
    · subst hk
      refine hone rfl ?_
      rw [Slot.step, if_pos (hview.alive.trans halive)]
      exact slaveStep_views hs (fun _ _ ↦ cycleStep_frame) hview
        (cycleStep_withThreads usleep rand now (s.alone k))
    · exact ((slaveStep_idle hs (Ne.symm hk)).views hview).follows
  | _ =>
    obtain ⟨hm, hslaves⟩ := masterStep_eq_some hs
    obtain ⟨-, hm⟩ := Option.ite_none_right_eq_some.mp hm
    exact ((Idle.of_control ⟨_, _, _, _, _, (Option.some.inj hm).symm⟩ hslaves).views hview).follows

theorem simulates_slot (hpids : Homes pids) (i : Idx)
    (hsync : ∀ u request, ok u (.sync request)) :
    Simulates (step pids) (Admitted pids i ok) (Slot.step (pids i)) ok
      fun s u ↦ HomeInv pids s.master ∧ Views s i u := by
  rintro s e t u ⟨h, hview⟩ hok hs
  obtain ⟨v, hv, hview'⟩ := step_follows hpids hsync h hview hok hs
  exact ⟨v, hv, home_step h hok.1 hs, hview'⟩

theorem initial_home (pids : Idx → Pid) : HomeInv pids Master.initial := by
  refine ⟨fun _ ↦ .inr (show noPid ≤ 0 by decide), by simp [Master.initial], trivial, ?_, ?_⟩
  · rintro i j pc ⟨thread, pid, hj, -⟩
    cases hj
  · rintro i j k pc pc' ⟨thread, pid, hj, -⟩
    cases hj

theorem initial_views (name : Idx → CString.Mem) (availableParameters : Idx → ℕ) (i : Idx) :
    Views (initial name availableParameters) i
      (Slot.initial (name i) (availableParameters i)) := by
  refine Views.of ⟨?_, fun _ ↦ rfl⟩ rfl rfl rfl rfl
  rintro j pc ⟨thread, pid, hj, -⟩
  cases hj

/-- The state of the slot apart from how its thread numbers the commands. -/
structure SameSlot (u v : Slot.State) : Prop where
  slot : unnumbered u.slot = unnumbered v.slot
  rest : u = { v with slot := u.slot }

theorem Views.sameSlot (hview : Views s i u) : SameSlot u (view s i) := by
  obtain ⟨pc, hserved, rfl⟩ := hview
  refine ⟨?_, rfl⟩
  rcases servingPc_cases s.master.threads i with ⟨j, hserves⟩ | ⟨hexited, hnone⟩
  · exact hserved.serving j _ hserves
  · rw [hserved.exited hnone]
    exact (congrArg unnumbered hexited).symm

theorem SameSlot.congr {kept : Slot.State → Slot.Event → Bool} {v : Slot.State}
    (hkept : ∀ u e, kept { u with slot := unnumbered u.slot } e = kept u e) (h : SameSlot u v)
    (e' : Slot.Event) : kept u e' = kept v e' := by
  rw [← hkept u, ← hkept v, ← h.slot, h.rest]

theorem admitted_of_kept {kept : Slot.State → Slot.Event → Bool}
    (hkept : ∀ u e, kept { u with slot := unnumbered u.slot } e = kept u e)
    (happart : apart pids s e = true)
    (hview : ∀ i e', concerns s e = some (i, e') → kept (view s i) e' = true) (i : Idx) :
    Admitted pids i (fun u e' ↦ kept u e' = true) s e := by
  refine ⟨happart, fun u e' hviews hconcerns ↦ ?_⟩
  dsimp only
  rw [hviews.sameSlot.congr hkept]
  exact hview i e' hconcerns

/-- Each slot goes through a run of its own. -/
theorem reaches_slot (hpids : Homes pids) {ok : Idx → Slot.State → Slot.Event → Prop}
    (hsync : ∀ i u request, ok i u (.sync request)) {name : Idx → CString.Mem}
    {availableParameters : Idx → ℕ}
    (h : Reaches (step pids) (fun s e ↦ ∀ i, Admitted pids i (ok i) s e)
      (initial name availableParameters) s) (i : Idx) :
    ∃ u, Reaches (Slot.step (pids i)) (ok i)
      (Slot.initial (name i) (availableParameters i)) u ∧ SameSlot u (view s i) := by
  obtain ⟨u, hu, -, hview⟩ := (h.mono fun s e hok ↦ hok i).simulated
    (simulates_slot hpids i (hsync i)) ⟨initial_home pids, initial_views name availableParameters i⟩
  exact ⟨u, hu, hview.sameSlot⟩

end Refinement

end RealTimeCyclic.ProcessSlots
