import RealTimeCyclic.Processes

namespace RealTimeCyclic.ProcessSlots

open Shm Slave SlotThread Probing Function Transition Processes

section Numbers

def unnumbered : Pc → Pc
  | .mustChangeName request _ => .mustChangeName request 0
  | .setConnected request _ => .setConnected request 0
  | .forward request response _ => .forward request response 0
  | .notify _ => .notify 0
  | .resetMemset k => .resetMemset (k.map fun _ ↦ 0)
  | .resetInit k => .resetInit (k.map fun _ ↦ 0)
  | .resetDrainMToS k => .resetDrainMToS (k.map fun _ ↦ 0)
  | .resetPostMToS k => .resetPostMToS (k.map fun _ ↦ 0)
  | .resetDrainSToM k => .resetDrainSToM (k.map fun _ ↦ 0)
  | .resetPostSToM k => .resetPostSToM (k.map fun _ ↦ 0)
  | .resetAnswer k => .resetAnswer (k.map fun _ ↦ 0)
  | .resetNotify _ => .resetNotify 0
  | pc => pc

def unnumberedEffect : Effect → Effect
  | .answered response _ => .answered response 0
  | effect => effect

variable {mustChange killed : Bool} {seg : Shmseg} {pc pc' : Pc}
  {wake : List Signal} {v : View} {effect : Effect}

theorem step_unnumbered (current : ℕ) (pc : Pc) :
    (SlotThread.step current mustChange killed ⟨seg, pc, wake⟩).map
        (fun r ↦ ((⟨r.1.seg, unnumbered r.1.pc, r.1.wake⟩ : View), unnumberedEffect r.2)) =
      SlotThread.step 0 mustChange killed ⟨seg, unnumbered pc, wake⟩ := by
  cases pc with
  | sendSemWait request | getvalueSToM signal | getvalueMToS signal | requestConnected signal
  | requestSwitch signal | mustChangeName request k | resetDrainMToS k | resetDrainSToM k =>
    simp only [SlotThread.step, unnumbered]
    split_ifs <;> rfl
  | sendKill request =>
    simp only [SlotThread.step, unnumbered]
    split_ifs <;> rfl
  | requestKill signal =>
    cases killed <;> rfl
  | sigSemWait => cases wake <;> rfl
  | responseSwitch isConnected =>
    simp only [SlotThread.step, unnumbered]
    split <;> rfl
  | responseValue isConnected request =>
    simp only [SlotThread.step, unnumbered]
    split
    · rfl
    · split_ifs <;> rfl
    · split_ifs <;> rfl
  | resetAnswer k => cases k <;> rfl
  | _ => rfl

theorem step_renumber {current : ℕ} (current' : ℕ) (hpc : unnumbered pc' = unnumbered pc)
    (h : SlotThread.step current mustChange killed ⟨seg, pc, wake⟩ = some (v, effect)) :
    ∃ w effect', SlotThread.step current' mustChange killed ⟨seg, pc', wake⟩ = some (w, effect') ∧
      w.seg = v.seg ∧ w.wake = v.wake ∧ unnumbered w.pc = unnumbered v.pc ∧
      unnumberedEffect effect' = unnumberedEffect effect := by
  have hstep : SlotThread.step 0 mustChange killed ⟨seg, unnumbered pc', wake⟩ =
      some (⟨v.seg, unnumbered v.pc, v.wake⟩, unnumberedEffect effect) := by
    rw [hpc, ← step_unnumbered current pc, h, Option.map_some]
  rw [← step_unnumbered current' pc'] at hstep
  obtain ⟨⟨w, effect'⟩, hw, hr⟩ := Option.map_eq_some_iff.mp hstep
  simp only [Prod.mk.injEq, View.mk.injEq] at hr
  exact ⟨w, effect', hw, hr.1.1, hr.1.2.2, hr.1.2.1, hr.2⟩

theorem effect_unnumbered {u : Slot.State} {effect effect' : Effect}
    (h : unnumberedEffect effect' = unnumberedEffect effect) :
    u.effect effect' = u.effect effect := by
  have hown (e : Effect) : u.effect e = u.effect (unnumberedEffect e) := by
    cases e <;> rfl
  rw [hown effect', h, ← hown effect]

end Numbers

section Views

def Serves (threads : List Master.Thread) (i : Idx) (j : ℕ) (pc : Pc) : Prop :=
  ∃ thread pid, threads[j]? = some thread ∧ thread.pc = .serve pid i pc ∧ pc ≠ .exited

/-- The point of the thread that serves the slot, if there is one. -/
structure ServedAt (threads : List Master.Thread) (i : Idx) (pc : Pc) : Prop where
  serving : ∀ j pc', Serves threads i j pc' → unnumbered pc = unnumbered pc'
  exited : (∀ j pc', ¬ Serves threads i j pc') → pc = .exited

def syncAt (i : Idx) : Master.SyncPc → Slot.SyncPc
  | .checkCycle _ _ j => if j = i then .checkCycle else .sigwaitinfo
  | .semWait _ request _ j => if j = i then .semWait request else .sigwaitinfo
  | .write _ request _ j => if j = i then .write request else .sigwaitinfo
  | .kill _ request _ j => if j = i then .kill request else .sigwaitinfo
  | _ => .sigwaitinfo

def withThreads (u : Slot.State) (sync : Slot.SyncPc) (pc : Pc) : Slot.State :=
  { u with sync := sync, slot := pc }

def Views (s : State) (i : Idx) (u : Slot.State) : Prop :=
  ∃ pc, ServedAt s.master.threads i pc ∧
    u = withThreads (s.alone i) (syncAt i s.master.sync) pc

def servingPc (threads : List Master.Thread) (i : Idx) : Pc :=
  (threads.findSome? fun thread ↦
    match thread.pc with
    | .serve _ k pc => if k = i ∧ pc ≠ .exited then some pc else none
    | _ => none).getD .exited

def view (s : State) (i : Idx) : Slot.State :=
  withThreads (s.alone i) (syncAt i s.master.sync) (servingPc s.master.threads i)

theorem servingPc_cases (threads : List Master.Thread) (i : Idx) :
    (∃ j, Serves threads i j (servingPc threads i)) ∨
      servingPc threads i = .exited ∧ ∀ j pc, ¬ Serves threads i j pc := by
  unfold servingPc
  cases hfound : threads.findSome? _ with
  | none =>
    refine .inr ⟨rfl, ?_⟩
    rintro j pc ⟨thread, pid, hj, hpc, hne⟩
    have hnone := List.findSome?_eq_none_iff.mp hfound thread (List.mem_of_getElem? hj)
    simp [hpc, hne] at hnone
  | some pc =>
    obtain ⟨thread, hmem, hthread⟩ := List.exists_of_findSome?_eq_some hfound
    obtain ⟨j, hj⟩ := List.mem_iff_getElem?.mp hmem
    split at hthread
    · rename_i pid k pc' hpc
      split_ifs at hthread with hserves
      obtain ⟨rfl, hne⟩ := hserves
      obtain rfl := Option.some.inj hthread
      exact .inl ⟨j, thread, pid, hj, hpc, hne⟩
    · cases hthread

def Addressed (pids : Idx → Pid) : Master.SyncPc → Prop
  | .lookup _ request => Master.sendable request = true ∧ request ≠ .connectSlave
  | .checkCycle _ pid i | .semWait _ _ pid i | .write _ _ pid i | .kill _ _ pid i => pid = pids i
  | _ => True

/-- Each slave has a home of its own. -/
structure Homes (pids : Idx → Pid) : Prop where
  positive : ∀ i, 0 < pids i
  home : ∀ i, homeIdx (pids i) = i

/-- Each slot is held by the slave whose home it is, and served by one thread at most. -/
structure HomeInv (pids : Idx → Pid) (m : Master.State) : Prop where
  slots : ∀ i, (m.slots i).seg.pid = pids i ∨ (m.slots i).seg.pid ≤ 0
  affected : m.sync ≠ .sigwaitinfo ∨ m.pendingMaster = true ∨ m.configurator = .named →
    0 < m.control.affectedSlavePid
  sync : Addressed pids m.sync
  serving : ∀ i j pc, Serves m.threads i j pc → pc.cleared = false → (m.slots i).seg.pid = pids i
  alone : ∀ i j k pc pc', Serves m.threads i j pc → Serves m.threads i k pc' → j = k

def unserved (threads : List Master.Thread) (i : Idx) : Bool :=
  threads.all fun thread ↦
    match thread.pc with
    | .serve _ k pc => k ≠ i ∨ pc = .exited
    | _ => true

/-- A slot is claimed when it is free and nobody is still at work on it, and a command is
sent to the slave that was looked up. -/
def apart (pids : Idx → Pid) (s : State) : Event → Bool
  | .sync _ =>
    match s.master.sync with
    | .kill _ request _ i => request = .disconnectSlave → (s.master.slots i).seg.pid = pids i
    | _ => true
  | .thread j _ =>
    match s.master.threads[j]? with
    | some thread =>
      match thread.pc with
      | .claim _ i =>
        (s.master.slots i).seg.pid = noPid ∧ unserved s.master.threads i ∧
          syncAt i s.master.sync = .sigwaitinfo
      | _ => true
    | none => true
  | _ => true

def concerns (s : State) : Event → Option (Idx × Slot.Event)
  | .configure i requestedParameters communicationCycleUs =>
    some (i, .configure requestedParameters communicationCycleUs)
  | .thread j mustChange =>
    match s.master.threads[j]? with
    | some thread =>
      match thread.pc with
      | .serve _ i _ => some (i, .slot mustChange)
      | _ => none
    | none => none
  | .deliver i => some (i, .deliver)
  | .handler i => some (i, .handler)
  | .cycle i usleep rand now => some (i, .cycle usleep rand now)
  | _ => none

end Views

section Alone

variable {pid : Pid} {u t : Slot.State} {sync : Slot.SyncPc} {pc : Pc}

theorem deref_withThreads (u t : Slot.State) (sync : Slot.SyncPc) (pc : Pc) :
    (withThreads u sync pc).deref (withThreads t sync pc) =
      (u.deref t).map fun t ↦ withThreads t sync pc := by
  unfold Slot.State.deref withThreads
  dsimp only
  split_ifs <;> rfl

theorem handlerStep_withThreads (pid : Pid) (u : Slot.State) (sync : Slot.SyncPc) (pc : Pc) :
    Slot.handlerStep pid (withThreads u sync pc) =
      (Slot.handlerStep pid u).map fun t ↦ withThreads t sync pc := by
  have hderef (t : Slot.State) := deref_withThreads u t sync pc
  have hhandler : (withThreads u sync pc).handler = u.handler := rfl
  have hseg : (withThreads u sync pc).seg = u.seg := rfl
  have hself : (withThreads u sync pc).self = u.self := rfl
  unfold Slot.handlerStep
  rw [hhandler, hseg, hself]
  cases hpc : u.handler with
  | sigwaitinfo =>
    dsimp only [withThreads]
    split <;> rfl
  | firstSignalEverSetup signal | stopWait k =>
    dsimp only
    split_ifs <;> rfl
  | startRead k | stopRead k =>
    dsimp only
    rw [← hderef]
    split_ifs <;> rfl
  | disconnect k | startPost k | clearPointer => rfl
  | kill request response k => rfl
  | _ =>
    dsimp only
    rw [← hderef]
    rfl

theorem cycleStep_withThreads (usleep : Bool) (rand : ℕ) (now : Timeval) (u : Slot.State)
    (sync : Slot.SyncPc) (pc : Pc) :
    Slot.cycleStep usleep rand now (withThreads u sync pc) =
      (Slot.cycleStep usleep rand now u).map fun t ↦ withThreads t sync pc := by
  have hderef (t : Slot.State) := deref_withThreads u t sync pc
  have hcycle : (withThreads u sync pc).cycle = u.cycle := rfl
  have hseg : (withThreads u sync pc).seg = u.seg := rfl
  have hself : (withThreads u sync pc).self = u.self := rfl
  have hsleep : (withThreads u sync pc).sleepUs = u.sleepUs := rfl
  unfold Slot.cycleStep
  rw [hcycle, hseg, hself, hsleep]
  cases hpc : u.cycle with
  | semWaitAllow | getvalueAllow cycleUs segmentUs =>
    dsimp only
    split_ifs <;> rfl
  | usleep =>
    dsimp only
    split_ifs
    · rfl
    · have hslept := deref_withThreads (u.usleep u.sleepUs)
        { u.usleep u.sleepUs with
          seg := setError ⟨"usleep() failed!", none⟩ u.seg
          cycle := .semWaitAllow } sync pc
      exact hslept
    · rfl
  | trywait cycleUs segmentUs threshold =>
    dsimp only
    rw [← hderef]
    split_ifs <;> rfl
  | postAllow => rfl
  | kill cycleUs segmentUs => rfl
  | _ =>
    dsimp only
    rw [← hderef]
    rfl

/-- What the threads of the slave leave alone. -/
structure SlaveFrame (u t : Slot.State) : Prop where
  sync : t.sync = u.sync
  slot : t.slot = u.slot
  wake : t.wake = u.wake
  pid : t.seg.pid = u.seg.pid

theorem handlerStep_frame (h : Slot.handlerStep pid u = some t) : SlaveFrame u t := by
  cases Slot.handlerStep_move h with
  | served hserve => exact ⟨rfl, rfl, rfl, hserve.frame.pid⟩
  | _ => exact ⟨rfl, rfl, rfl, rfl⟩

theorem cycleStep_frame {usleep : Bool} {rand : ℕ} {now : Timeval}
    (h : Slot.cycleStep usleep rand now u = some t) : SlaveFrame u t := by
  have hf := Slot.cycleStep_frame h
  exact ⟨hf.sync, hf.slot, hf.wake, hf.pid⟩

end Alone

section Home

variable {pids : Idx → Pid} {m m' : Master.State} {threads : List Master.Thread}
  {thread thread' : Master.Thread} {i j : Idx} {n k : ℕ} {pc : Pc}

theorem Homes.injective (h : Homes pids) : Injective pids := fun i j hij ↦ by
  rw [← h.home i, hij, h.home]

theorem serves_of_set (hthread' : ∀ pid pc, thread'.pc ≠ .serve pid i pc)
    (h : Serves (threads.set n thread') i k pc) : Serves threads i k pc := by
  obtain ⟨t, pid, ht, hpc, hne⟩ := h
  rcases Master.getElem?_set_cases ht with ⟨-, rfl⟩ | ⟨-, ht⟩
  · exact absurd hpc (hthread' _ _)
  · exact ⟨t, pid, ht, hpc, hne⟩

theorem serves_set_other (hn : threads[n]? = some thread)
    (hthread : ∀ pid pc, thread.pc ≠ .serve pid i pc)
    (hthread' : ∀ pid pc, thread'.pc ≠ .serve pid i pc) :
    Serves (threads.set n thread') i k pc ↔ Serves threads i k pc := by
  refine ⟨serves_of_set hthread', ?_⟩
  rintro ⟨t, pid, ht, hpc, hne⟩
  have hnk : n ≠ k := by
    rintro rfl
    rw [hn] at ht
    exact hthread _ _ (Option.some.inj ht ▸ hpc)
  exact ⟨t, pid, (List.getElem?_set_ne hnk).trans ht, hpc, hne⟩

theorem serves_set_self {pid : Pid} {pc₁ : Pc} (hthread' : thread'.pc = .serve pid i pc₁)
    (halone : ∀ k pc', Serves threads i k pc' → k = n)
    (h : Serves (threads.set n thread') i k pc) : k = n ∧ pc = pc₁ := by
  obtain ⟨t, q, ht, hpc, hne⟩ := h
  rcases Master.getElem?_set_cases ht with ⟨rfl, rfl⟩ | ⟨hkn, ht⟩
  · rw [hthread'] at hpc
    cases hpc
    exact ⟨rfl, rfl⟩
  · exact absurd (halone k pc ⟨t, q, ht, hpc, hne⟩) hkn

theorem serves_append {c : Master.Command} {acting : ℕ} :
    Serves (threads ++ [⟨c, acting, .readArgument⟩]) i k pc ↔ Serves threads i k pc := by
  constructor
  · rintro ⟨t, pid, ht, hpc, hne⟩
    by_cases hk : k < threads.length
    · rw [List.getElem?_append_left hk] at ht
      exact ⟨t, pid, ht, hpc, hne⟩
    · rw [List.getElem?_append_right (not_lt.mp hk), List.getElem?_singleton] at ht
      split_ifs at ht
      rw [← Option.some.inj ht] at hpc
      cases hpc
  · rintro ⟨t, pid, ht, hpc, hne⟩
    have hk : k < threads.length := (List.getElem?_eq_some_iff.mp ht).1
    exact ⟨t, pid, (List.getElem?_append_left hk).trans ht, hpc, hne⟩

theorem step_holds {current : ℕ} {mustChange killed : Bool} {v v' : View} {effect : Effect}
    (h : SlotThread.step current mustChange killed v = some (v', effect))
    (hcleared : v'.pc.cleared = false) (hne : v'.pc ≠ .exited) :
    v.pc.cleared = false ∧ v.pc ≠ .exited ∧ v'.seg.pid = v.seg.pid := by
  cases step_move h with
  | jumped hjump => cases hjump <;> simp_all [Pc.cleared]
  | errorsHandled hpc hseg =>
    refine ⟨?_, ?_, (SameControl.of_errors hseg).pid⟩ <;> simp [hpc, Pc.cleared]
  | received hpc =>
    refine ⟨?_, ?_, (receiveParameters_sameControl v.seg).pid⟩ <;> simp [hpc, Pc.cleared]
  | _ => simp_all [Pc.cleared]

theorem HomeInv.keep (h : HomeInv pids m)
    (hpid : ∀ i, (m'.slots i).seg.pid = (m.slots i).seg.pid)
    (hserves : ∀ i j pc, Serves m'.threads i j pc → Serves m.threads i j pc)
    (hsync : Addressed pids m'.sync)
    (haffected : m'.sync ≠ .sigwaitinfo ∨ m'.pendingMaster = true ∨ m'.configurator = .named →
      0 < m'.control.affectedSlavePid) : HomeInv pids m' := by
  refine ⟨fun i ↦ ?_, haffected, hsync, fun i j pc hs hc ↦ ?_, fun i j k pc pc' hs hs' ↦ ?_⟩
  · rw [hpid]
    exact h.slots i
  · rw [hpid]
    exact h.serving i j pc (hserves _ _ _ hs) hc
  · exact h.alone i j k pc pc' (hserves _ _ _ hs) (hserves _ _ _ hs')

theorem HomeInv.found (h : HomeInv pids m) {pid : Pid} (hpos : 0 < pid)
    (hfound : Master.getAssignedShmsegIdx m.slots pid = some i) : pid = pids i := by
  have hseg : (m.slots i).seg.pid = pid := by simpa using probe_some hfound
  rcases h.slots i with hown | hneg
  · rw [← hseg, hown]
  · rw [hseg] at hneg
    exact absurd hneg (not_le.mpr hpos)

theorem HomeInv.lookup (h : HomeInv pids m) (hpids : Homes pids) :
    Master.getAssignedShmsegIdx m.slots (pids i) =
      if (m.slots i).seg.pid = pids i then some i else none := by
  unfold Master.getAssignedShmsegIdx
  rw [hpids.home]
  split_ifs with hown
  · exact probeFrom_self (by decide) (by simpa using hown)
  · refine probe_none.mpr fun j ↦ decide_eq_false fun hj ↦ hown ?_
    rcases h.slots j with howned | hneg
    · have hij : j = i := hpids.injective (howned.symm.trans hj)
      rwa [← hij] at hj ⊢
    · rw [hj] at hneg
      exact absurd hneg (not_le.mpr (hpids.positive i))

end Home

section HomeStep

variable {pids : Idx → Pid} {s t : State} {e : Event} {i : Idx}

theorem syncStep_home {m m' : Master.State} {created : Bool} (h : HomeInv pids m)
    (hs : Master.syncStep created true m = some m') : HomeInv pids m' := by
  have hf := Master.syncStep_frame hs
  have haffected (hold : m.sync ≠ .sigwaitinfo ∨ m.pendingMaster = true)
      (_ : m'.sync ≠ .sigwaitinfo ∨ m'.pendingMaster = true ∨ m'.configurator = .named) :
      0 < m'.control.affectedSlavePid := by
    rw [hf.affected]
    exact h.affected (hold.imp_right .inl)
  have hsync := h.sync
  cases Master.syncStep_move hs with
  | received hpc hpending =>
    exact h.keep (fun _ ↦ rfl) (fun _ _ _ ↦ id) trivial (haffected (.inr hpending))
  | threadCreated hpc =>
    exact h.keep (fun _ ↦ rfl) (fun _ _ _ ↦ serves_append.mp) trivial
      (haffected (.inl (by simp [hpc])))
  | requestRead hpc hrequest hsendable =>
    exact h.keep (fun _ ↦ rfl) (fun _ _ _ ↦ id) ⟨hsendable, hrequest⟩
      (haffected (.inl (by simp [hpc])))
  | startFound hpc hfound | slaveFound hpc hrequest hfound =>
    exact h.keep (fun _ ↦ rfl) (fun _ _ _ ↦ id)
      (h.found (h.affected (.inl (by simp [hpc]))) hfound) (haffected (.inl (by simp [hpc])))
  | cycleSet hpc =>
    rw [hpc] at hsync
    exact h.keep (fun _ ↦ rfl) (fun _ _ _ ↦ id) hsync (haffected (.inl (by simp [hpc])))
  | acquired hpc hpos | written hpc =>
    rw [hpc] at hsync
    exact h.keep (Master.update_kept (fun slot : Master.Slot ↦ slot.seg.pid) (by rfl))
      (fun _ _ _ ↦ id) hsync (haffected (.inl (by simp [hpc])))
  | _ hpc =>
    exact h.keep (fun _ ↦ rfl) (fun _ _ _ ↦ id) trivial (haffected (.inl (by simp [hpc])))

theorem not_serves_of_unserved {threads : List Master.Thread} (h : unserved threads i = true)
    (j : ℕ) (pc : Pc) : ¬ Serves threads i j pc := by
  rintro ⟨thread, pid, hj, hpc, hne⟩
  have hall := List.all_eq_true.mp h thread (List.mem_of_getElem? hj)
  simp [hpc, hne] at hall

theorem HomeInv.handled {m m' : Master.State} (n : ℕ) (pc₀ : Pc) (h : HomeInv pids m)
    (hother : ∀ k ≠ i, m'.slots k = m.slots k)
    (hserves : ∀ k j pc, k ≠ i → Serves m'.threads k j pc → Serves m.threads k j pc)
    (hself : ∀ j pc, Serves m'.threads i j pc → j = n ∧ pc = pc₀)
    (hpid : (m'.slots i).seg.pid = pids i ∨ (m'.slots i).seg.pid ≤ 0)
    (hserving : pc₀.cleared = false → pc₀ ≠ .exited → (m'.slots i).seg.pid = pids i)
    (hsync : m'.sync = m.sync) (hcontrol : m'.control.affectedSlavePid = m.control.affectedSlavePid)
    (hpending : m'.pendingMaster = m.pendingMaster) (hpc : m'.configurator = m.configurator) :
    HomeInv pids m' := by
  refine ⟨fun k ↦ ?_, ?_, ?_, fun k j pc hs hc ↦ ?_, fun k j j' pc pc' hs hs' ↦ ?_⟩
  · by_cases hk : k = i
    · exact hk ▸ hpid
    · rw [hother k hk]
      exact h.slots k
  · rw [hsync, hcontrol, hpending, hpc]
    exact h.affected
  · rw [hsync]
    exact h.sync
  · by_cases hk : k = i
    · subst hk
      obtain ⟨-, rfl⟩ := hself j pc hs
      obtain ⟨-, -, -, -, hne⟩ := hs
      exact hserving hc hne
    · rw [hother k hk]
      exact h.serving k j pc (hserves k j pc hk hs) hc
  · by_cases hk : k = i
    · subst hk
      exact (hself j pc hs).1.trans (hself j' pc' hs').1.symm
    · exact h.alone k j j' pc pc' (hserves k j pc hk hs) (hserves k j' pc' hk hs')

theorem claimed_home {m : Master.State} {n : ℕ} {thread : Master.Thread} (h : HomeInv pids m)
    (hunserved : unserved m.threads i = true) :
    HomeInv pids ((m.setSeg i { (m.slots i).seg with pid := pids i }).setPc n thread
      (.serve (pids i) i (.sendSemWait .connectSlave))) := by
  have hpid : (((m.setSeg i { (m.slots i).seg with pid := pids i }).setPc n thread
      (.serve (pids i) i (.sendSemWait .connectSlave))).slots i).seg.pid = pids i := by
    simp [Master.State.setPc, Master.State.setSeg]
  refine h.handled n (.sendSemWait .connectSlave) (fun k hk ↦ ?_)
    (fun k j pc hk ↦ serves_of_set ?_) (fun j pc ↦ serves_set_self rfl ?_) (.inl hpid)
    (fun _ _ ↦ hpid) rfl rfl rfl rfl
  · simp [Master.State.setPc, Master.State.setSeg, update_of_ne hk]
  · rintro q pc ⟨⟩
    exact hk rfl
  · exact fun k pc hs ↦ absurd hs (not_serves_of_unserved hunserved k pc)

theorem served_home {m : Master.State} {n : ℕ} {thread : Master.Thread} {pid : Pid} {pc : Pc}
    {mustChange killed : Bool} {v : View} {effect : Effect} (h : HomeInv pids m)
    (hn : m.threads[n]? = some thread) (hpc : thread.pc = .serve pid i pc)
    (hstep : SlotThread.step (m.slots i).written mustChange killed
      ⟨(m.slots i).seg, pc, (m.slots i).wake⟩ = some (v, effect)) :
    HomeInv pids ({ m with
      slots := update m.slots i ((m.slots i).stepped thread.acting v effect)
      threads := m.threads.set n (thread.stepped (m.slots i) pid i v) }.answer effect) := by
  obtain ⟨response, k, notified, heq⟩ := Master.State.answer_eq { m with
    slots := update m.slots i ((m.slots i).stepped thread.acting v effect)
    threads := m.threads.set n (thread.stepped (m.slots i) pid i v) } effect
  rw [heq]
  have hne : pc ≠ .exited := by
    rintro rfl
    cases hstep
  have hserves : Serves m.threads i n pc := ⟨thread, pid, hn, hpc, hne⟩
  refine h.handled n v.pc (fun j hj ↦ update_of_ne hj _ _)
    (fun j k pc' hj ↦ serves_of_set ?_)
    (fun j pc' ↦ serves_set_self rfl fun k q hs ↦ h.alone i k n q pc hs hserves)
    ?_ ?_ rfl rfl rfl rfl
  · rintro q pc' ⟨⟩
    exact hj rfl
  · dsimp only
    rw [update_self]
    rcases step_pid hstep with ⟨hpid, -⟩ | ⟨-, -, hpid⟩ | ⟨-, -, hpid⟩
    · exact hpid.symm ▸ h.slots i
    · exact .inr hpid.le
    · exact .inr (hpid.trans_le (by decide))
  · dsimp only
    rw [update_self]
    intro hcleared hne'
    obtain ⟨hcleared, -, hpid⟩ := step_holds hstep hcleared hne'
    exact hpid.trans (h.serving i n pc hserves hcleared)

theorem threadStep_home {m m' : Master.State} {n : ℕ} {mustChange killed : Bool}
    (h : HomeInv pids m)
    (hclaim : ∀ thread pid i, m.threads[n]? = some thread → thread.pc = .claim pid i →
      pid = pids i ∧ unserved m.threads i = true)
    (hs : Master.threadStep n mustChange killed m = some m') : HomeInv pids m' := by
  obtain ⟨thread, hn, hmove⟩ := Master.threadStep_move hs
  have hmoved {pc : Master.ThreadPc} (hpc' : ∀ pid i pc', pc ≠ .serve pid i pc') :
      HomeInv pids (m.setPc n thread pc) :=
    h.keep (fun _ ↦ rfl) (fun _ _ _ ↦ serves_of_set fun _ _ ↦ hpc' _ _ _) h.sync h.affected
  cases hmove with
  | claimed hpc =>
    obtain ⟨rfl, hunserved⟩ := hclaim _ _ _ hn hpc
    exact claimed_home h hunserved
  | served hpc hstep => exact served_home h hn hpc hstep
  | _ hpc => exact hmoved (by rintro _ _ _ ⟨⟩)

theorem slaveStep_home {threadStep : Slot.State → Option Slot.State} (h : HomeInv pids s.master)
    (hframe : ∀ u v, threadStep u = some v → SlaveFrame u v)
    (hs : slaveStep i threadStep s = some t) : HomeInv pids t.master := by
  obtain ⟨u, hu, rfl⟩ := slaveStep_eq_some hs
  refine h.keep (Master.update_kept (fun slot : Master.Slot ↦ slot.seg.pid) ?_) (fun _ _ _ ↦ id)
    h.sync h.affected
  exact (hframe _ _ hu).pid

theorem home_step (h : HomeInv pids s.master) (hok : apart pids s e = true)
    (hs : step pids s e = some t) : HomeInv pids t.master := by
  cases e with
  | sync created =>
    exact syncStep_home h (masterStep_eq_some hs).1
  | thread n mustChange =>
    obtain ⟨hown, hs⟩ := Option.ite_none_right_eq_some.mp hs
    refine threadStep_home h (fun thread pid i hn hpc ↦ ?_) (masterStep_eq_some hs).1
    simp only [claimsOwn, apart, hn, hpc, Bool.decide_and, Bool.and_eq_true,
      decide_eq_true_eq] at hown hok
    exact ⟨hown, hok.2.1⟩
  | deliver i =>
    obtain ⟨signal, toMaster, -, hm, -⟩ := deliver_eq_some hs
    have hf := Master.deliverStep_frame (pids i) signal s.master
    rw [hm]
    refine h.keep (Master.deliverStep_seg (pids i) signal s.master · ▸ rfl) (fun k j pc hs ↦ ?_)
      ?_ ?_
    · rwa [Master.deliverStep_threads] at hs
    · rw [hf.sync]
      exact h.sync
    · rw [hf.sync, hf.pendingMaster, hf.configurator, hf.affected]
      exact h.affected
  | handler i =>
    obtain ⟨-, hs⟩ := Option.ite_none_right_eq_some.mp hs
    exact slaveStep_home h (fun _ _ ↦ handlerStep_frame) hs
  | cycle i usleep rand now =>
    obtain ⟨-, hs⟩ := Option.ite_none_right_eq_some.mp hs
    exact slaveStep_home h (fun _ _ ↦ cycleStep_frame) hs
  | configure i requestedParameters communicationCycleUs =>
    rw [← Option.some.inj (masterStep_eq_some hs).1]
    exact h.keep (Master.update_kept (fun slot : Master.Slot ↦ slot.seg.pid) (by rfl))
      (fun _ _ _ ↦ id) h.sync h.affected
  | name i =>
    obtain ⟨⟨-, -, hpos⟩, hm⟩ := Option.ite_none_right_eq_some.mp (masterStep_eq_some hs).1
    rw [← Option.some.inj hm]
    exact h.keep (fun _ ↦ rfl) (fun _ _ _ ↦ id) h.sync fun _ ↦ hpos
  | send =>
    obtain ⟨hnamed, hm⟩ := Option.ite_none_right_eq_some.mp (masterStep_eq_some hs).1
    rw [← Option.some.inj hm]
    exact h.keep (fun _ ↦ rfl) (fun _ _ _ ↦ id) h.sync fun _ ↦ h.affected (.inr (.inr hnamed))
  | _ =>
    obtain ⟨-, hm⟩ := Option.ite_none_right_eq_some.mp (masterStep_eq_some hs).1
    rw [← Option.some.inj hm]
    refine h.keep (fun _ ↦ rfl) (fun _ _ _ ↦ id) h.sync fun hold ↦ h.affected ?_
    exact hold.imp_right fun h ↦ .inl (h.resolve_right (by rintro ⟨⟩))

end HomeStep

end RealTimeCyclic.ProcessSlots
