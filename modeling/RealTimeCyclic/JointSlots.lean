import RealTimeCyclic.Joint

namespace RealTimeCyclic.Joint

open Shm SlotThread Probing Function Transition
open Master (Thread ThreadPc SyncPc ThreadMove)
open MasterAnswer (Traced AnswerInv)
open ConfiguratorSafety (Registered)

/-- What a step of the slot thread does to the owner of the slot. -/
inductive TableMove (v v' : View) : Prop
  | kept (hpid : v'.seg.pid = v.seg.pid) (hconnected : v'.seg.isConnected = v.seg.isConnected)
      (hchanges : changes v.pc = false) (hreset : ∀ k, v.pc ≠ .resetInit k)
      (hreset' : ∀ k, v'.pc ≠ .resetInit k)
  | connected {request : Request} {k : ℕ} (hpc : v.pc = .setConnected request k)
      (hpc' : v'.pc = .forward request .ack k) (hpid : v'.seg.pid = v.seg.pid)
      (hconnected : v'.seg.isConnected = true)
  | zeroed {k : Option ℕ} (hpc : v.pc = .resetMemset k) (hpc' : v'.pc = .resetInit k)
      (hseg : v'.seg = .zero)
  | initialized {k : Option ℕ} (hpc : v.pc = .resetInit k) (hpc' : v'.pc = .resetDrainMToS k)
      (hpid : v'.seg.pid = noPid) (hconnected : v'.seg.isConnected = v.seg.isConnected)

theorem step_tableMove {current : ℕ} {mustChange killed : Bool} {v v' : View} {effect : Effect}
    (h : SlotThread.step current mustChange killed v = some (v', effect)) :
    TableMove v v' := by
  cases step_move h with
  | connected hpc => exact .connected hpc rfl rfl rfl
  | zeroed hpc => exact .zeroed hpc rfl rfl
  | initialized hpc => exact .initialized hpc rfl rfl rfl
  | jumped hjump =>
    refine .kept rfl rfl ?_ ?_ ?_
    all_goals cases hjump <;> simp_all [changes]
  | errorsHandled hpc hseg =>
    have hsame := SameControl.of_errors hseg
    exact .kept hsame.pid hsame.isConnected (by simp [hpc, changes]) (by simp [hpc]) (by simp)
  | received hpc =>
    have hsame := receiveParameters_sameControl v.seg
    exact .kept hsame.pid hsame.isConnected (by simp [hpc, changes]) (by simp [hpc]) (by simp)
  | _ =>
    refine .kept rfl rfl ?_ ?_ ?_
    all_goals simp_all [changes]

def clears (i : Idx) (t : Thread) : Bool :=
  match t.pc with
  | .serve _ k (.resetInit _) => k = i
  | _ => false

def Clearing (s : State) (i : Idx) : Prop := ∃ t ∈ s.master.state.threads, clears i t = true

theorem clears_serve {i k : Idx} {t : Thread} {pid : Pid} {pc : Pc} (hpc : t.pc = .serve pid k pc) :
    clears i t = true ↔ k = i ∧ ∃ c, pc = .resetInit c := by
  unfold clears
  rw [hpc]
  cases pc <;> simp

theorem clears_of_reset {i k : Idx} {t : Thread} {pid : Pid} {pc : Pc}
    (hpc : t.pc = .serve pid k pc) (hreset : ∀ c, pc ≠ .resetInit c) : clears i t = false := by
  rw [Bool.eq_false_iff]
  intro hclears
  obtain ⟨-, c, hc⟩ := (clears_serve hpc).mp hclears
  exact hreset c hc

theorem exists_set {α : Type*} {l : List α} {j : ℕ} {a u : α} {p : α → Bool} (ha : l[j]? = some a)
    (hpa : p a = false) (h : ∃ b ∈ l, p b = true) : ∃ b ∈ l.set j u, p b = true := by
  obtain ⟨b, hb, hpb⟩ := h
  obtain ⟨k, hk⟩ := List.getElem?_of_mem hb
  have hkj : j ≠ k := by
    rintro rfl
    rw [ha] at hk
    rw [Option.some.inj hk, hpb] at hpa
    cases hpa
  refine ⟨b, List.mem_of_getElem? (i := k) ?_, hpb⟩
  rw [List.getElem?_set_ne hkj, hk]

theorem of_exists_set {α : Type*} {l : List α} {j : ℕ} {u : α} {p : α → Bool}
    (h : ∃ b ∈ l.set j u, p b = true) : p u = true ∨
      ∃ b k, k ≠ j ∧ l[k]? = some b ∧ p b = true := by
  obtain ⟨b, hb, hpb⟩ := h
  obtain ⟨k, hk⟩ := List.getElem?_of_mem hb
  rcases Master.getElem?_set_cases hk with ⟨-, rfl⟩ | ⟨hkj, hk⟩
  · exact .inl hpb
  · exact .inr ⟨b, k, hkj, hk, hpb⟩

theorem clearing_set {s t : State} {j : ℕ} {thread u : Thread}
    (ht : s.master.state.threads[j]? = some thread)
    (hthreads : t.master.state.threads = s.master.state.threads.set j u)
    (hold : ∀ i, clears i thread = false) (hnew : ∀ i, clears i u = false) (i : Idx) :
    Clearing t i ↔ Clearing s i := by
  unfold Clearing
  rw [hthreads]
  constructor
  · intro h
    rcases of_exists_set h with hu | ⟨b, k, -, hk, hb⟩
    · rw [hnew i] at hu
      cases hu
    · exact ⟨b, List.mem_of_getElem? hk, hb⟩
  · exact exists_set ht (hold i)

/-- The owners of the slots are the same. -/
structure OwnerFrame (s t : State) : Prop where
  pid : ∀ i, (t.seg i).pid = (s.seg i).pid
  isConnected : ∀ i, (t.seg i).isConnected = (s.seg i).isConnected
  clearing : ∀ i, Clearing t i ↔ Clearing s i

theorem OwnerFrame.of_eq {s t : State} (hseg : t.seg = s.seg)
    (hthreads : t.master.state.threads = s.master.state.threads) : OwnerFrame s t := by
  refine ⟨fun i ↦ by rw [hseg], fun i ↦ by rw [hseg], fun i ↦ ?_⟩
  rw [Clearing, hthreads, Clearing]

/-- What a step of a thread does to the owners of the slots. -/
inductive OwnerMove (s t : State) (thread : Thread) : Prop
  | kept (hf : OwnerFrame s t) (hchanges : threadChanges thread = false)
  | claimed {pid : Pid} {i : Idx} (hpc : thread.pc = .claim pid i)
      (hseg : t.seg = update s.seg i { s.seg i with pid := pid })
      (hclearing : ∀ l, Clearing t l ↔ Clearing s l)
  | connected {pid : Pid} {i : Idx} {request : Request} {k : ℕ} {seg : Shmseg}
      (hpc : thread.pc = .serve pid i (.setConnected request k)) (hseg : t.seg = update s.seg i seg)
      (hpid : seg.pid = (s.seg i).pid) (hconnected : seg.isConnected = true)
      (hclearing : ∀ l, Clearing t l ↔ Clearing s l)
  | zeroed {pid : Pid} {i : Idx} {k : Option ℕ} (hpc : thread.pc = .serve pid i (.resetMemset k))
      (hseg : t.seg = update s.seg i .zero) (hclearing : ∀ l, Clearing t l ↔ Clearing s l ∨ l = i)
  | initialized {pid : Pid} {i : Idx} {k : Option ℕ} {seg : Shmseg}
      (hpc : thread.pc = .serve pid i (.resetInit k)) (hseg : t.seg = update s.seg i seg)
      (hpid : seg.pid = noPid) (hconnected : seg.isConnected = (s.seg i).isConnected)
      (hcleared : Clearing s i) (hclearing : ∀ l, Clearing t l ↔ Clearing s l ∧ l ≠ i)

theorem threadStep_ownerMove {s t : State} (ha : AnswerInv False s.master) {j : ℕ}
    {mustChange killed : Bool}
    (hs : Master.threadStep j mustChange killed s.master.state = some t.master.state) :
    ∃ thread, s.master.state.threads[j]? = some thread ∧ OwnerMove s t thread := by
  obtain ⟨thread, ht, hmove⟩ := Master.threadStep_move hs
  refine ⟨thread, ht, ?_⟩
  have hmoved {pc : ThreadPc} (hidle : ∀ pid i pc, thread.pc ≠ .serve pid i pc)
      (hpc : ∀ pid i pc', pc ≠ .serve pid i pc')
      (hu : t.master.state = s.master.state.setPc j thread pc) : OwnerMove s t thread := by
    have hseg (i : Idx) : t.seg i = s.seg i := by rw [State.seg, hu]; rfl
    refine .kept ⟨fun i ↦ by rw [hseg], fun i ↦ by rw [hseg],
      clearing_set ht (u := { thread with pc := pc }) (by rw [hu]; rfl) (fun i ↦ ?_) fun i ↦ ?_⟩ ?_
    · unfold clears
      split
      · exact absurd ‹_› (hidle _ _ _)
      · rfl
    · unfold clears
      split
      · exact absurd ‹_› (hpc _ _ _)
      · rfl
    · unfold threadChanges
      split
      · exact absurd ‹_› (hidle _ _ _)
      · rfl
  generalize hu : t.master.state = u at hmove
  cases hmove with
  | argumentRead hpc | alreadyConnected hpc | unassigned hpc | placed hpc | outOfMemory hpc =>
    exact hmoved (by simp [hpc]) (by simp) hu
  | @claimed pid i hpc =>
    refine .claimed hpc (funext fun k ↦ ?_) (clearing_set ht
      (u := { thread with pc := .serve pid i (.sendSemWait .connectSlave) }) (by rw [hu]; rfl)
      (fun i ↦ by simp [clears, hpc]) fun i ↦ by simp [clears])
    rw [State.seg, hu]
    by_cases hki : k = i
    · subst hki
      simp [Master.State.setPc, Master.State.setSeg, State.seg]
    · simp [Master.State.setPc, Master.State.setSeg, State.seg, hki]
  | @served pid i pc v effect hpc hstep =>
    have hseg : t.seg = update s.seg i v.seg := by
      funext k
      rw [State.seg, hu, Master.answer_slots]
      dsimp only
      by_cases hki : k = i
      · rw [hki, update_self, update_self]
        rfl
      · rw [update_of_ne hki, update_of_ne hki]
        rfl
    have hthreads : t.master.state.threads = s.master.state.threads.set j
        (thread.stepped (s.master.state.slots i) pid i v) := by rw [hu, Master.answer_threads]
    have hpc' : (thread.stepped (s.master.state.slots i) pid i v).pc = .serve pid i v.pc := rfl
    have hsame (h : ∀ k, pc ≠ .resetInit k) (h' : ∀ k, v.pc ≠ .resetInit k) (l : Idx) :
        Clearing t l ↔ Clearing s l :=
      clearing_set ht hthreads (fun _ ↦ clears_of_reset hpc h) (fun _ ↦ clears_of_reset hpc' h') l
    cases step_tableMove hstep with
    | kept hpid hconnected hchanges hreset hreset' =>
      refine .kept ⟨fun k ↦ ?_, fun k ↦ ?_, hsame hreset hreset'⟩ ?_
      · rw [hseg]
        exact Master.update_kept Shmseg.pid hpid k
      · rw [hseg]
        exact Master.update_kept Shmseg.isConnected hconnected k
      · rw [threadChanges, hpc]
        exact hchanges
    | connected hset hforward hpid hconnected =>
      dsimp only at hset
      refine .connected (hset ▸ hpc) hseg hpid hconnected (hsame (by simp [hset]) ?_)
      simp [hforward]
    | zeroed hmemset hinit hzero =>
      dsimp only at hmemset
      refine .zeroed (hmemset ▸ hpc) (hzero ▸ hseg) fun l ↦ ?_
      unfold Clearing
      rw [hthreads]
      constructor
      · intro h
        rcases of_exists_set h with hnew | ⟨b, k, -, hk, hb⟩
        · exact .inr ((clears_serve hpc').mp hnew).1.symm
        · exact .inl ⟨b, List.mem_of_getElem? hk, hb⟩
      · rintro (hold | rfl)
        · exact exists_set ht (clears_of_reset hpc (by simp [hmemset])) hold
        · exact ⟨_, List.mem_set (List.getElem?_eq_some_iff.mp ht).1 _,
            (clears_serve hpc').mpr ⟨rfl, _, hinit⟩⟩
    | @initialized k hinit hdrain hpid hconnected =>
      dsimp only at hinit
      have hkeeps : MasterAnswer.threadKeeps i thread = true := by
        simp [MasterAnswer.threadKeeps, hpc, hinit, MasterAnswer.keeping]
      have halone := (ha.alone ht hkeeps).2.2
      have hcleared : Clearing s i :=
        ⟨thread, List.mem_of_getElem? ht, (clears_serve hpc).mpr ⟨rfl, k, hinit⟩⟩
      refine .initialized (hinit ▸ hpc) hseg hpid hconnected hcleared fun l ↦ ?_
      unfold Clearing
      rw [hthreads]
      constructor
      · intro h
        rcases of_exists_set h with hnew | ⟨b, k, hkj, hk, hb⟩
        · obtain ⟨-, c, hc⟩ := (clears_serve hpc').mp hnew
          rw [hdrain] at hc
          cases hc
        · refine ⟨⟨b, List.mem_of_getElem? hk, hb⟩, ?_⟩
          rintro rfl
          have hno := halone k b hkj hk
          unfold clears at hb
          split at hb
          · simp_all [MasterAnswer.threadKeeps, MasterAnswer.keeping]
          · cases hb
      · intro hclearing
        obtain ⟨hold, hne⟩ := hclearing
        refine exists_set ht (Bool.eq_false_iff.mpr fun hclears ↦ ?_) hold
        exact hne ((clears_serve hpc).mp hclears).1.symm

/-- Each slave has one entry and one slot. A slot that is not free is owned by a registered
slave, or is about to be free. -/
structure SlotsInv (s : State) : Prop where
  once : ∀ i j, (s.registry.createdSlave i).pid ≠ noPid →
    (s.registry.createdSlave i).pid = (s.registry.createdSlave j).pid → i = j
  positive : ∀ i, (s.registry.createdSlave i).pid ≠ noPid → 0 < (s.registry.createdSlave i).pid
  sole : ∀ i j, (s.seg i).pid ≠ noPid → (s.seg i).pid ≠ 0 → (s.seg i).pid = (s.seg j).pid → i = j
  owner : ∀ i, (s.seg i).pid ≠ noPid → Registered s.registry (s.seg i).pid ∨ Clearing s i
  connected : ∀ i, (s.seg i).isConnected = true → Registered s.registry (s.seg i).pid
  cleared : ∀ i, Clearing s i → (s.seg i).pid = 0
  masterless : s.registry.masterPid = noPid → ∀ i, (s.seg i).pid = noPid

theorem SlotsInv.pos {s : State} (h : SlotsInv s) {pid : Pid} (hr : Registered s.registry pid) :
    0 < pid := by
  obtain ⟨hne, i, rfl⟩ := hr
  exact h.positive i hne

theorem SlotsInv.unconnected {s : State} (h : SlotsInv s) {i : Idx} (hpid : (s.seg i).pid ≤ 0) :
    (s.seg i).isConnected = false := by
  rw [Bool.eq_false_iff]
  exact fun hconnected ↦ absurd (h.pos (h.connected i hconnected)) (not_lt.mpr hpid)

theorem SlotsInv.unconnected_free {s : State} (h : SlotsInv s) {i : Idx}
    (hpid : (s.seg i).pid = noPid) : (s.seg i).isConnected = false :=
  h.unconnected (hpid ▸ by decide)

theorem registered_congr {r r' : Configurator.State}
    (h : ∀ i, (r'.createdSlave i).pid = (r.createdSlave i).pid) (pid : Pid) :
    Registered r' pid ↔ Registered r pid := by
  simp only [Registered, h]

theorem SlotsInv.keep {s t : State} (h : SlotsInv s) (hf : OwnerFrame s t)
    (hregistry : ∀ i, (t.registry.createdSlave i).pid = (s.registry.createdSlave i).pid)
    (hmaster : t.registry.masterPid = noPid → ∀ i, (s.seg i).pid = noPid) : SlotsInv t := by
  refine ⟨fun i j ↦ ?_, fun i ↦ ?_, fun i j ↦ ?_, fun i hi ↦ ?_, fun i hi ↦ ?_, fun i hi ↦ ?_,
    fun hnone i ↦ ?_⟩
  · rw [hregistry, hregistry]
    exact h.once i j
  · rw [hregistry]
    exact h.positive i
  · rw [hf.pid, hf.pid]
    exact h.sole i j
  · rw [hf.pid] at hi ⊢
    rw [registered_congr hregistry, hf.clearing]
    exact h.owner i hi
  · rw [hf.isConnected] at hi
    rw [hf.pid, registered_congr hregistry]
    exact h.connected i hi
  · rw [hf.pid]
    exact h.cleared i ((hf.clearing i).mp hi)
  · rw [hf.pid]
    exact hmaster hnone i

theorem SlotsInv.thread {s t : State} {thread : Thread} (h : SlotsInv s)
    (hmove : OwnerMove s t thread) (hok : threadKept s thread = true)
    (hmaster : s.registry.masterPid ≠ noPid) (hregistry : t.registry = s.registry)
    (hlatest : awaiting s.master.state = true → s.master.state.latest.request = .connectSlave →
      Registered s.registry s.master.state.latest.pid) : SlotsInv t := by
  have hmasterless : t.registry.masterPid = noPid → ∀ i, (t.seg i).pid = noPid :=
    fun hnone ↦ absurd (hregistry ▸ hnone) hmaster
  cases hmove with
  | kept hf hchanges =>
    exact h.keep hf (hregistry ▸ fun _ ↦ rfl) (hregistry ▸ h.masterless)
  | @claimed pid i hpc hseg hclearing =>
    simp only [threadKept, hpc, Bool.decide_and, Bool.and_eq_true, decide_eq_true_eq] at hok
    obtain ⟨hfree, hnone, hr⟩ := hok
    refine ⟨hregistry ▸ h.once, hregistry ▸ h.positive, fun k l hk hk' heq ↦ ?_, fun k hk ↦ ?_,
      fun k hk ↦ ?_, fun k hk ↦ ?_, hmasterless⟩
    · rw [hseg] at hk hk' heq
      by_cases hki : k = i
      · subst hki
        by_cases hlk : l = k
        · exact hlk.symm
        · rw [update_self, update_of_ne hlk] at heq
          exact absurd heq.symm (hnone l)
      · rw [update_of_ne hki] at hk hk' heq
        by_cases hli : l = i
        · rw [hli, update_self] at heq
          exact absurd heq (hnone k)
        · rw [update_of_ne hli] at heq
          exact h.sole k l hk hk' heq
    · rw [hclearing, hregistry]
      rw [hseg] at hk ⊢
      by_cases hki : k = i
      · rw [hki, update_self]
        exact .inl hr
      · rw [update_of_ne hki] at hk ⊢
        exact h.owner k hk
    · rw [hregistry]
      rw [hseg] at hk ⊢
      by_cases hki : k = i
      · rw [hki, update_self]
        exact hr
      · rw [update_of_ne hki] at hk ⊢
        exact h.connected k hk
    · have hzero := h.cleared k ((hclearing k).mp hk)
      rw [hseg]
      by_cases hki : k = i
      · rw [hki, hfree] at hzero
        cases hzero
      · rwa [update_of_ne hki]
  | @connected pid i request k seg hpc hseg hpid hconnected hclearing =>
    simp only [threadKept, hpc, awaits, Bool.decide_and, Bool.decide_eq_true, Bool.and_eq_true,
      decide_eq_true_eq] at hok
    obtain ⟨hawaiting, hcommand⟩ := hok
    have hr : Registered s.registry (s.seg i).pid := by
      have hr := hlatest hawaiting (by rw [hcommand])
      rwa [hcommand] at hr
    have hpid' (l : Idx) : (t.seg l).pid = (s.seg l).pid := by
      rw [hseg]
      exact Master.update_kept Shmseg.pid hpid l
    refine ⟨hregistry ▸ h.once, hregistry ▸ h.positive, fun k l ↦ ?_, fun l hl ↦ ?_, fun l hl ↦ ?_,
      fun l hl ↦ ?_, hmasterless⟩
    · rw [hpid', hpid']
      exact h.sole k l
    · rw [hpid'] at hl ⊢
      rw [hclearing, hregistry]
      exact h.owner l hl
    · rw [hpid', hregistry]
      rw [hseg] at hl
      by_cases hli : l = i
      · exact hli ▸ hr
      · rw [update_of_ne hli] at hl
        exact h.connected l hl
    · rw [hpid']
      exact h.cleared l ((hclearing l).mp hl)
  | @zeroed pid i k hpc hseg hclearing =>
    have hother {l : Idx} (hl : (t.seg l).pid ≠ 0 ∨ (t.seg l).isConnected = true) :
        t.seg l = s.seg l := by
      rw [hseg] at hl ⊢
      refine update_of_ne (fun hli ↦ ?_) _ _
      rw [hli, update_self] at hl
      exact hl.elim (fun hne ↦ hne rfl) (fun hc ↦ Bool.false_ne_true hc)
    refine ⟨hregistry ▸ h.once, hregistry ▸ h.positive, fun k l hk hk' heq ↦ ?_, fun l hl ↦ ?_,
      fun l hl ↦ ?_, fun l hl ↦ ?_, hmasterless⟩
    · have hsame := hother (.inl hk')
      have hsame' := hother (.inl (heq ▸ hk' : (t.seg l).pid ≠ 0))
      rw [hsame] at hk hk' heq
      rw [hsame'] at heq
      exact h.sole k l hk hk' heq
    · rw [hclearing, hregistry]
      by_cases hli : l = i
      · exact .inr (.inr hli)
      · rw [hseg, update_of_ne hli] at hl ⊢
        exact (h.owner l hl).imp_right .inl
    · rw [hregistry, hother (.inr hl)]
      exact h.connected l (hother (.inr hl) ▸ hl)
    · rw [hseg]
      by_cases hli : l = i
      · rw [hli, update_self]
        rfl
      · rw [update_of_ne hli]
        exact h.cleared l (((hclearing l).mp hl).resolve_right hli)
  | @initialized pid i k seg hpc hseg hpid hconnected hcleared hclearing =>
    have hother {l : Idx} (hl : (t.seg l).pid ≠ noPid) : l ≠ i ∧ t.seg l = s.seg l := by
      rw [hseg] at hl ⊢
      have hli : l ≠ i := by
        rintro rfl
        rw [update_self] at hl
        exact hl hpid
      exact ⟨hli, update_of_ne hli _ _⟩
    refine ⟨hregistry ▸ h.once, hregistry ▸ h.positive, fun k l hk hk' heq ↦ ?_, fun l hl ↦ ?_,
      fun l hl ↦ ?_, fun l hl ↦ ?_, hmasterless⟩
    · have hsame := (hother hk).2
      have hsame' := (hother (heq ▸ hk : (t.seg l).pid ≠ noPid)).2
      rw [hsame] at hk hk' heq
      rw [hsame'] at heq
      exact h.sole k l hk hk' heq
    · obtain ⟨hli, hsame⟩ := hother hl
      rw [hclearing, hregistry]
      rw [hsame] at hl ⊢
      exact (h.owner l hl).imp_right (⟨·, hli⟩)
    · rw [hregistry]
      rw [hseg] at hl ⊢
      by_cases hli : l = i
      · rw [hli, update_self, hconnected, h.unconnected (h.cleared i hcleared).le] at hl
        cases hl
      · rw [update_of_ne hli] at hl ⊢
        exact h.connected l hl
    · obtain ⟨hold, hli⟩ := (hclearing l).mp hl
      rw [hseg, update_of_ne hli]
      exact h.cleared l hold

theorem held_congr {s t : State} (hconnected : ∀ i, (t.seg i).isConnected = (s.seg i).isConnected)
    (hpid : ∀ i, (s.seg i).isConnected = true → (t.seg i).pid = (s.seg i).pid) (pid : Pid) :
    Held t pid ↔ Held s pid := by
  constructor
  · intro hclearing
    obtain ⟨i, hi, hc⟩ := hclearing
    rw [hconnected] at hc
    exact ⟨i, (hpid i hc).symm.trans hi, hc⟩
  · intro hclearing
    obtain ⟨i, hi, hc⟩ := hclearing
    exact ⟨i, (hpid i hc).trans hi, (hconnected i).trans hc⟩

/-- What a step of a thread does to the slaves held. -/
inductive HeldMove (s t : State) (thread : Thread) : Prop
  | same (hchanges : threadChanges thread = false) (hheld : ∀ pid, Held t pid ↔ Held s pid)
  | connected (hchanges : threadChanges thread = true) (hawaiting : awaiting s.master.state = true)
      (hrequest : s.master.state.latest.request = .connectSlave)
      (hheld : ∀ pid, Held t pid ↔ Held s pid ∨ pid = s.master.state.latest.pid)
  | cleared (hchanges : threadChanges thread = true) (hawaiting : awaiting s.master.state = true)
      (hrequest : s.master.state.latest.request = .disconnectSlave)
      (hregistered : Registered s.registry s.master.state.latest.pid)
      (hheld : ∀ pid, Held t pid ↔ Held s pid ∧ pid ≠ s.master.state.latest.pid)

theorem OwnerMove.held {s t : State} {thread : Thread} (hmove : OwnerMove s t thread)
    (h : SlotsInv s) (hok : threadKept s thread = true) : HeldMove s t thread := by
  cases hmove with
  | kept hf hchanges => exact .same hchanges (held_congr hf.isConnected fun i _ ↦ hf.pid i)
  | @claimed pid i hpc hseg hclearing =>
    simp only [threadKept, hpc, Bool.decide_and, Bool.and_eq_true, decide_eq_true_eq] at hok
    refine .same (by rw [threadChanges, hpc]) (held_congr (fun k ↦ ?_) fun k hk ↦ ?_)
    · rw [hseg]
      exact Master.update_kept Shmseg.isConnected (by rfl) k
    · have hki : k ≠ i := by
        rintro rfl
        rw [h.unconnected_free hok.1] at hk
        cases hk
      rw [hseg, update_of_ne hki]
  | @connected pid i request k seg hpc hseg hpid hconnected hclearing =>
    simp only [threadKept, hpc, awaits, Bool.decide_and, Bool.decide_eq_true, Bool.and_eq_true,
      decide_eq_true_eq] at hok
    obtain ⟨hawaiting, hcommand⟩ := hok
    refine .connected (by rw [threadChanges, hpc]; rfl) hawaiting (by rw [hcommand]) fun p ↦ ?_
    unfold Held
    rw [hseg, hcommand]
    constructor
    · intro hclearing
      obtain ⟨l, hl, hc⟩ := hclearing
      by_cases hli : l = i
      · rw [hli, update_self, hpid] at hl
        exact .inr hl.symm
      · rw [update_of_ne hli] at hl hc
        exact .inl ⟨l, hl, hc⟩
    · rintro (⟨l, hl, hc⟩ | rfl)
      · by_cases hli : l = i
        · refine ⟨i, ?_, ?_⟩
          · rw [update_self, hpid, ← hli, hl]
          · rw [update_self, hconnected]
        · exact ⟨l, by rwa [update_of_ne hli], by rwa [update_of_ne hli]⟩
      · exact ⟨i, by rw [update_self, hpid], by rw [update_self, hconnected]⟩
  | @zeroed pid i k hpc hseg hclearing =>
    cases k with
    | none =>
      simp only [threadKept, hpc, decide_eq_true_eq] at hok
      refine .same (by rw [threadChanges, hpc]; rfl) (held_congr (fun l ↦ ?_) fun l hl ↦ ?_)
      · rw [hseg]
        exact Master.update_kept Shmseg.isConnected hok.symm l
      · have hli : l ≠ i := by
          rintro rfl
          rw [hok] at hl
          cases hl
        rw [hseg, update_of_ne hli]
    | some k =>
      simp only [threadKept, hpc, awaits, Bool.decide_and, Bool.decide_eq_true, Bool.and_eq_true,
        decide_eq_true_eq] at hok
      obtain ⟨⟨hawaiting, hcommand⟩, hc⟩ := hok
      have hr := h.connected i hc
      refine .cleared (by rw [threadChanges, hpc]; rfl) hawaiting (by rw [hcommand])
        (by rwa [hcommand]) fun p ↦ ?_
      unfold Held
      rw [hseg, hcommand]
      constructor
      · intro hclearing
        obtain ⟨l, hl, hc'⟩ := hclearing
        have hli : l ≠ i := by
          rintro rfl
          rw [update_self] at hc'
          cases hc'
        rw [update_of_ne hli] at hl hc'
        refine ⟨⟨l, hl, hc'⟩, ?_⟩
        rintro rfl
        exact hli (h.sole i l hr.1 (h.pos hr).ne' hl.symm).symm
      · intro hclearing
        obtain ⟨⟨l, hl, hc'⟩, hne⟩ := hclearing
        have hli : l ≠ i := by
          rintro rfl
          exact hne hl.symm
        exact ⟨l, by rwa [update_of_ne hli], by rwa [update_of_ne hli]⟩
  | @initialized pid i k seg hpc hseg hpid hconnected hcleared hclearing =>
    refine .same (by rw [threadChanges, hpc]; rfl) (held_congr (fun l ↦ ?_) fun l hl ↦ ?_)
    · rw [hseg]
      exact Master.update_kept Shmseg.isConnected hconnected l
    · have hli : l ≠ i := by
        rintro rfl
        rw [h.unconnected (h.cleared l hcleared).le] at hl
        cases hl
      rw [hseg, update_of_ne hli]

theorem OwnerFrame.of_slot {s t : State} {u : Master.State} {i : Idx} {slot : Master.Slot}
    (hu : t.master.state = u) (hslots : u.slots = update s.master.state.slots i slot)
    (hthreads : u.threads = s.master.state.threads)
    (hpid : slot.seg.pid = (s.seg i).pid)
    (hconnected : slot.seg.isConnected = (s.seg i).isConnected) : OwnerFrame s t := by
  refine ⟨fun k ↦ ?_, fun k ↦ ?_, fun k ↦ by rw [Clearing, hu, hthreads, Clearing]⟩
  all_goals rw [State.seg, hu, hslots]
  · exact Master.update_kept (·.seg.pid : Master.Slot → Pid) hpid k
  · exact Master.update_kept (·.seg.isConnected : Master.Slot → Bool) hconnected k

theorem step_ownerFrame {s t : State} {e : Master.Event}
    (hs : Master.step s.master.state e = some t.master.state)
    (he : ∀ j mustChange killed, e ≠ .thread j mustChange killed) : OwnerFrame s t := by
  have hsame {u : Master.State} (hu : t.master.state = u) (hslots : u.slots = s.master.state.slots)
      (hthreads : u.threads = s.master.state.threads) : OwnerFrame s t :=
    .of_eq (funext fun i ↦ by rw [State.seg, hu, hslots]; rfl) (by rw [hu, hthreads])
  cases e with
  | thread j mustChange killed => exact absurd rfl (he j mustChange killed)
  | sync created killed =>
    have hmove := Master.syncStep_move hs
    generalize hu : t.master.state = u at hmove
    cases hmove with
    | threadCreated hpc hcreated =>
      refine ⟨fun i ↦ by rw [State.seg, hu]; rfl, fun i ↦ by rw [State.seg, hu]; rfl, fun i ↦ ?_⟩
      simp [Clearing, hu, clears]
    | acquired hpc hpos | written hpc =>
      exact .of_slot hu rfl rfl rfl rfl
    | _ => exact hsame hu rfl rfl
  | deliver pid signal =>
    have hu := (Option.some.inj hs).symm
    refine .of_eq (funext fun i ↦ ?_) (by rw [hu, Master.deliverStep_threads])
    rw [State.seg, hu, Master.deliverStep_seg]
    rfl
  | slave i w | configure i requestedParameters communicationCycleUs =>
    exact .of_slot (Option.some.inj hs).symm rfl rfl rfl rfl
  | _ =>
    obtain ⟨-, hs⟩ := Option.ite_none_right_eq_some.mp hs
    exact hsame (Option.some.inj hs).symm rfl rfl

theorem SlotsInv.set_entry {s t : State} (h : SlotsInv s) (hf : OwnerFrame s t) {i : Idx}
    {c : Configurator.Created}
    (hregistry : t.registry.createdSlave = update s.registry.createdSlave i c)
    (hmaster : t.registry.masterPid = s.registry.masterPid)
    (hold : (s.registry.createdSlave i).pid ≠ noPid →
      ∀ k, (s.seg k).pid ≠ (s.registry.createdSlave i).pid)
    (hnew : c.pid ≠ noPid → 0 < c.pid ∧ ¬ Registered s.registry c.pid) : SlotsInv t := by
  have hother {k : Idx} (hk : k ≠ i) : t.registry.createdSlave k = s.registry.createdSlave k := by
    rw [hregistry, update_of_ne hk]
  have hself : t.registry.createdSlave i = c := by rw [hregistry, update_self]
  have hfresh {k : Idx} (hc : c.pid ≠ noPid) : (s.registry.createdSlave k).pid ≠ c.pid :=
    fun heq ↦ (hnew hc).2 ⟨hc, k, heq⟩
  have hkeep {l : Idx} (hr : Registered s.registry (s.seg l).pid) :
      Registered t.registry (s.seg l).pid := by
    obtain ⟨hne, k, hk⟩ := hr
    have hki : k ≠ i := by
      rintro rfl
      exact hold (hk ▸ hne) l hk.symm
    exact ⟨hne, k, by rw [hother hki, hk]⟩
  refine ⟨fun j k hj hjk ↦ ?_, fun k hk ↦ ?_, fun j k ↦ ?_, fun k hk ↦ ?_, fun k hk ↦ ?_,
    fun k hk ↦ ?_, fun hnone k ↦ ?_⟩
  · by_cases hji : j = i
    · by_cases hki : k = i
      · rw [hji, hki]
      · rw [hji, hself] at hj
        rw [hji, hself, hother hki] at hjk
        exact absurd hjk.symm (hfresh hj)
    · rw [hother hji] at hj hjk
      by_cases hki : k = i
      · rw [hki, hself] at hjk
        exact absurd hjk (hfresh (hjk ▸ hj))
      · rw [hother hki] at hjk
        exact h.once j k hj hjk
  · by_cases hki : k = i
    · rw [hki, hself] at hk ⊢
      exact (hnew hk).1
    · rw [hother hki] at hk ⊢
      exact h.positive k hk
  · rw [hf.pid, hf.pid]
    exact h.sole j k
  · rw [hf.pid] at hk ⊢
    rw [hf.clearing]
    exact (h.owner k hk).imp_left hkeep
  · rw [hf.isConnected] at hk
    rw [hf.pid]
    exact hkeep (h.connected k hk)
  · rw [hf.pid]
    exact h.cleared k ((hf.clearing k).mp hk)
  · rw [hf.pid]
    exact h.masterless (hmaster ▸ hnone) k

theorem slotsInv_initial : SlotsInv initial := by
  refine ⟨by simp [initial, Configurator.initial], by simp [initial, Configurator.initial],
    fun i j hi ↦ absurd rfl hi, fun i hi ↦ absurd rfl hi, fun i hi ↦ absurd hi Bool.false_ne_true,
    fun i hi ↦ ?_, fun _ _ ↦ rfl⟩
  simp [Clearing, initial, MasterAnswer.initial, Master.initial] at hi

end RealTimeCyclic.Joint
