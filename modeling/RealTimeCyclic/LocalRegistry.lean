import RealTimeCyclic.ConfiguratorSafety

namespace RealTimeCyclic.LocalRegistry

open Shm Probing Function Configurator ConfiguratorSafety Transition

/-- What the registry is after any number of commands. `outOfBounds` in the log
stands for an index outside `created_slave`. -/
structure RegistryConsistent (s : State) : Prop where
  number : s.createdSlavesNumber = occupied s.createdSlave
  room : s.createdSlavesNumber ≤ maxSlaves
  once : ∀ i j, (s.createdSlave i).pid ≠ noPid →
    (s.createdSlave i).pid = (s.createdSlave j).pid → i = j
  inside : ∀ e ∈ s.log, e.effect ≠ .outOfBounds
  refused : ∀ fork, createSlave true fork s = s ↔ ∀ i, (s.createdSlave i).pid ≠ noPid

def forked (s : State) (fork : Fork) : Bool := fork ≠ .failed ∧ fork.pid ∉ s.slaves

/-- The condition on a command: no registered slave is removed, forks succeed and
find room, and the pids looked up are registered ones or, for `slave_shmseg`,
assigned ones. -/
def kept (s : State) : Command → Bool
  | .createSlave named fork => s.createdSlavesNumber < maxSlaves → named → forked s fork
  | .deleteSlave inserted killed =>
    (chosen (disconnectedPids s.createdSlave) inserted).isSome → killed = false
  | .stopMaster seg _ => s.masterPid ≠ noPid → ∀ i, (seg i).pid = noPid
  | .disconnectSlave seg inserted answer =>
    decide (∀ slavePid ∈ chosen (notStartedPids seg) inserted,
      answer = some .ack → Registered s slavePid)
  | .startSlaveCycle seg inserted _ _ _ =>
    decide (∀ slavePid ∈ chosen (notStartedPids seg) inserted,
      0 ≤ slavePid.tmod maxSlaves ∧ ∃ i, (seg i).pid'' = slavePid)
  | .printSlaveData seg =>
    s.shmp → ∀ i, (seg i).pid ≠ noPid → 0 ≤ (seg i).pid'.tmod maxSlaves
  | .automaticTest forks _ _ _ =>
    (∀ fork ∈ forks, forked s fork) ∧ (forks.map Fork.pid).Nodup ∧
      occupied s.createdSlave + forks.length ≤ maxSlaves
  | .startMaster _ _ _ | .connectSlave _ _ _ | .stopSlaveCycle _ _ | .printLogData
  | .unrecognized _ => true

structure RegistryInv (s : State) : Prop where
  number : s.createdSlavesNumber = occupied s.createdSlave
  once : ∀ i j, (s.createdSlave i).pid ≠ noPid →
    (s.createdSlave i).pid = (s.createdSlave j).pid → i = j
  created : ∀ i, (s.createdSlave i).pid ≠ noPid → (s.createdSlave i).pid ∈ s.slaves
  slaves : ∀ pid ∈ s.slaves, 0 < pid
  inside : ∀ e ∈ s.log, e.effect ≠ .outOfBounds

/-- What a command leaves alone that neither adds nor removes a slave. -/
structure RegistryFrame (s t : State) : Prop where
  pid : ∀ i, (t.createdSlave i).pid = (s.createdSlave i).pid
  number : t.createdSlavesNumber = s.createdSlavesNumber
  slaves : t.slaves = s.slaves
  log : (∀ e ∈ s.log, e.effect ≠ .outOfBounds) → ∀ e ∈ t.log, e.effect ≠ .outOfBounds

theorem RegistryFrame.refl (s : State) : RegistryFrame s s := ⟨fun _ ↦ rfl, rfl, rfl, id⟩

theorem RegistryFrame.trans {s t u : State} (h : RegistryFrame s t) (h' : RegistryFrame t u) :
    RegistryFrame s u :=
  ⟨fun i ↦ (h'.pid i).trans (h.pid i), h'.number.trans h.number, h'.slaves.trans h.slaves,
    h'.log ∘ h.log⟩

theorem RegistryFrame.emit (s : State) {effect : Effect} (h : effect ≠ .outOfBounds) :
    RegistryFrame s (s.emit effect) := by
  refine ⟨fun _ ↦ rfl, rfl, rfl, fun hlog e he ↦ ?_⟩
  rcases List.mem_append.mp he with hold | hnew
  · exact hlog e hold
  · rw [List.mem_singleton.mp hnew]
    exact h

theorem RegistryFrame.registered {s t : State} (h : RegistryFrame s t) {pid : Pid}
    (hr : Registered s pid) : Registered t pid := by
  obtain ⟨hne, i, hi⟩ := hr
  exact ⟨hne, i, (h.pid i).trans hi⟩

theorem occupied_congr {c c' : Idx → Created} (h : ∀ i, (c' i).pid = (c i).pid) :
    occupied c' = occupied c := by
  simp only [occupied, h]

theorem occupied_register {createdSlave : Idx → Created} {i : Idx} {c : Created}
    (hfree : (createdSlave i).pid = noPid) (hc : c.pid ≠ noPid) :
    occupied (update createdSlave i c) = occupied createdSlave + 1 := by
  have hfilter : (Finset.univ.filter fun k ↦ (update createdSlave i c k).pid ≠ noPid) =
      insert i (Finset.univ.filter fun k ↦ (createdSlave k).pid ≠ noPid) := by
    ext k
    rcases eq_or_ne k i with rfl | hne
    · simp [hc]
    · simp [hne]
  rw [occupied, hfilter, Finset.card_insert_of_notMem (by simp [hfree]), occupied]

theorem occupied_le (createdSlave : Idx → Created) : occupied createdSlave ≤ maxSlaves :=
  (Finset.card_filter_le _ _).trans (by simp)

theorem occupied_eq_iff {createdSlave : Idx → Created} :
    maxSlaves ≤ occupied createdSlave ↔ ∀ i, (createdSlave i).pid ≠ noPid := by
  constructor
  · intro hfull i hfree
    have hsub : (Finset.univ.filter fun i ↦ (createdSlave i).pid ≠ noPid) ⊂ Finset.univ :=
      Finset.filter_ssubset.mpr ⟨i, Finset.mem_univ i, not_not_intro hfree⟩
    have hlt := Finset.card_lt_card hsub
    rw [Finset.card_univ, Fintype.card_fin] at hlt
    exact absurd hfull (not_le.mpr hlt)
  · intro hfull
    rw [occupied, Finset.filter_true_of_mem fun i _ ↦ hfull i, Finset.card_univ, Fintype.card_fin]

theorem RegistryInv.of_frame {s t : State} (h : RegistryInv s) (hf : RegistryFrame s t) :
    RegistryInv t := by
  refine ⟨?_, fun i j hi heq ↦ ?_, fun i hi ↦ ?_, ?_, hf.log h.inside⟩
  · rw [hf.number, occupied_congr hf.pid]
    exact h.number
  · rw [hf.pid] at hi heq
    exact h.once i j hi (heq.trans (hf.pid j))
  · rw [hf.pid] at hi ⊢
    exact hf.slaves ▸ h.created i hi
  · rw [hf.slaves]
    exact h.slaves

theorem RegistryInv.lookup {s : State} (h : RegistryInv s) {pid : Pid} (hr : Registered s pid) :
    ∃ i, getAssignedLocalIdx s.createdSlave pid = .found i := by
  obtain ⟨hne, i, rfl⟩ := hr
  obtain ⟨k, hk, -⟩ := Registered.lookup ⟨hne, i, rfl⟩ (h.slaves _ (h.created i hne)).le
  exact ⟨k, hk⟩

theorem waitSlaveResponse_frame {s : State} (h : RegistryInv s) {pid : Pid} (connected : Bool)
    {answer : Option Response} (hr : answer = some .ack → Registered s pid) :
    RegistryFrame s (waitSlaveResponse connected pid answer s) := by
  unfold waitSlaveResponse
  split_ifs with hack
  · obtain ⟨i, hi⟩ := h.lookup (hr hack)
    simp only [State.setCreated, hi]
    refine ⟨fun k ↦ ?_, rfl, rfl, id⟩
    dsimp only
    rcases eq_or_ne k i with rfl | hne
    · rw [update_self]
    · rw [update_of_ne hne]
  · exact .refl s

theorem sendSlaveRequest_frame (pid : Pid) (s : State) :
    RegistryFrame s (sendSlaveRequest pid s) :=
  .trans (t := { s with affectedSlavePid := pid }) ⟨fun _ ↦ rfl, rfl, rfl, id⟩
    (.emit _ (by simp))

theorem forkSlave_inv {s : State} (h : RegistryInv s) {fork : Fork} (hfork : forked s fork = true)
    (hroom : occupied s.createdSlave < maxSlaves) :
    RegistryInv (forkSlave fork s) ∧ (forkSlave fork s).slaves = fork.pid :: s.slaves ∧
      occupied (forkSlave fork s).createdSlave = occupied s.createdSlave + 1 := by
  obtain ⟨hne, hfresh⟩ := of_decide_eq_true hfork
  cases fork with
  | failed => exact absurd rfl hne
  | child n =>
    have hpos : (0 : Int) < (n : Int) + 1 := by omega
    have hpid : (n : Int) + 1 ≠ noPid := ne_noPid_of_pos hpos
    obtain ⟨i, hi, hfree⟩ := exists_lookup (p := fun i ↦ (s.createdSlave i).pid = noPid)
      (Int.tmod_nonneg _ hpos.le) ((exists_free hroom).imp fun _ ↦ decide_eq_true)
    have hfree : (s.createdSlave i).pid = noPid := of_decide_eq_true hfree
    have hoccupied := occupied_register (c := ⟨(n : Int) + 1, false⟩) hfree hpid
    have heq : forkSlave (.child n) s = { s with
        slaves := ((n : Int) + 1) :: s.slaves
        createdSlavesNumber := s.createdSlavesNumber + 1
        createdSlave := update s.createdSlave i ⟨(n : Int) + 1, false⟩ } := by
      simp [forkSlave, registerSlaveLocally, assignLocalIdx, Fork.pid, State.setCreated, hi]
    have hother (k : Idx) (hk : (s.createdSlave k).pid ≠ noPid) :
        (s.createdSlave k).pid ≠ (n : Int) + 1 := by
      intro hn
      exact hfresh (by simpa [Fork.pid, ← hn] using h.created k hk)
    rw [heq]
    refine ⟨⟨?_, fun j k hj hjk ↦ ?_, fun k hk ↦ ?_, fun p hp ↦ ?_, h.inside⟩, rfl, hoccupied⟩
    · dsimp only
      rw [hoccupied, h.number]
    · dsimp only at hj hjk
      rcases eq_or_ne j i with rfl | hji
      · rcases eq_or_ne k j with rfl | hki
        · rfl
        · rw [update_self, update_of_ne hki] at hjk
          exact absurd hjk.symm (hother k (hjk ▸ hpid))
      · rw [update_of_ne hji] at hj hjk
        rcases eq_or_ne k i with rfl | hki
        · rw [update_self] at hjk
          exact absurd hjk (hother j hj)
        · rw [update_of_ne hki] at hjk
          exact h.once j k hj hjk
    · dsimp only at hk ⊢
      rcases eq_or_ne k i with rfl | hki
      · rw [update_self]
        exact List.mem_cons_self
      · rw [update_of_ne hki] at hk ⊢
        exact List.mem_cons_of_mem _ (h.created k hk)
    · rcases List.mem_cons.mp hp with rfl | hold
      · exact hpos
      · exact h.slaves p hold

theorem forkSlaves_inv {forks : List Fork} {s : State} (h : RegistryInv s)
    (hforks : ∀ fork ∈ forks, forked s fork = true) (hnodup : (forks.map Fork.pid).Nodup)
    (hroom : occupied s.createdSlave + forks.length ≤ maxSlaves) :
    RegistryInv (forks.foldl (fun s fork ↦ forkSlave fork s) s) := by
  induction forks generalizing s with
  | nil => exact h
  | cons fork forks ih =>
    rw [List.length_cons] at hroom
    rw [List.map_cons, List.nodup_cons] at hnodup
    obtain ⟨hinv, hslaves, hoccupied⟩ :=
      forkSlave_inv h (hforks fork List.mem_cons_self) (by omega)
    have hroom' : occupied (forkSlave fork s).createdSlave + forks.length ≤ maxSlaves := by omega
    refine ih hinv (fun f hf ↦ ?_) hnodup.2 hroom'
    obtain ⟨hne, hfresh⟩ := of_decide_eq_true (hforks f (List.mem_cons_of_mem fork hf))
    refine decide_eq_true ⟨hne, fun hmem ↦ ?_⟩
    rw [hslaves] at hmem
    rcases List.mem_cons.mp hmem with heq | hold
    · exact hnodup.1 (heq ▸ List.mem_map_of_mem hf)
    · exact hfresh hold

theorem createSlave_inv {s : State} (h : RegistryInv s) {named : Bool} {fork : Fork}
    (hok : kept s (.createSlave named fork) = true) : RegistryInv (createSlave named fork s) := by
  unfold createSlave
  split_ifs with hfull hnamed
  · exact h
  · have hroom := not_le.mp hfull
    exact (forkSlave_inv h (of_decide_eq_true hok hroom hnamed) (h.number ▸ hroom)).1
  · exact h

theorem startMaster_frame (fork : Fork) (signalled found : Bool) (s : State) :
    RegistryFrame s (startMaster fork signalled found s) := by
  unfold startMaster
  split_ifs <;> exact ⟨fun _ ↦ rfl, rfl, rfl, id⟩

theorem deleteSlaves_frame {seg : Idx → Segment} (hfree : ∀ i, (seg i).pid = noPid)
    (is : List Idx) (s : State) : RegistryFrame s (deleteSlaves seg is s) := by
  induction is generalizing s with
  | nil => exact .refl s
  | cons i is ih =>
    rw [deleteSlaves, if_pos (hfree i)]
    exact .trans (.emit s (by simp)) (ih _)

theorem stopMaster_frame {s : State} {seg : Idx → Segment} {killed : Bool}
    (hok : kept s (.stopMaster seg killed) = true) : RegistryFrame s (stopMaster seg killed s) := by
  unfold stopMaster
  split_ifs with hnone
  · exact .refl s
  · refine .trans (deleteSlaves_frame (of_decide_eq_true hok hnone) (List.finRange maxSlaves) s) ?_
    unfold sendStopMasterRequest
    split_ifs
    · exact .trans (.emit _ (by simp)) ⟨fun _ ↦ rfl, rfl, rfl, id⟩
    · exact .emit _ (by simp)

theorem deleteSlave_frame {s : State} {inserted : Option Pid} {killed : Bool}
    (hok : kept s (.deleteSlave inserted killed) = true) :
    RegistryFrame s (deleteSlave inserted killed s) := by
  unfold deleteSlave
  split
  · exact .refl s
  · rename_i slavePid hchosen
    have hkilled := of_decide_eq_true hok (by rw [hchosen]; rfl)
    rw [if_neg (by simp [hkilled])]
    exact .emit s (by simp)

theorem connectSlave_frame {s : State} (h : RegistryInv s) (inserted : Option Pid) (killed : Bool)
    (answer : Option Response) : RegistryFrame s (connectSlave inserted killed answer s) := by
  unfold connectSlave
  split
  · exact .refl s
  · rename_i slavePid hchosen
    have hsent := sendSlaveRequest_frame slavePid s
    split_ifs
    · exact hsent.trans (waitSlaveResponse_frame (h.of_frame hsent) true
        fun _ ↦ hsent.registered (registered_of_disconnected hchosen))
    · exact hsent

theorem disconnectSlave_frame {s : State} (h : RegistryInv s) {seg : Idx → Segment}
    {inserted : Option Pid} {answer : Option Response}
    (hok : kept s (.disconnectSlave seg inserted answer) = true) :
    RegistryFrame s (disconnectSlave seg inserted answer s) := by
  have hread : RegistryFrame s (s.emit .read) := .emit s (by simp)
  unfold disconnectSlave
  split
  · exact hread
  · rename_i slavePid hchosen
    have hsent := hread.trans (sendSlaveRequest_frame slavePid (s.emit .read))
    exact hsent.trans (waitSlaveResponse_frame (h.of_frame hsent) false
      fun hack ↦ hsent.registered (of_decide_eq_true hok slavePid hchosen hack))

theorem askParameters_frame (i : Idx) (available wanted : ℕ) (bits : List ℕ) (s : State) :
    RegistryFrame s (bits.foldl (askParameter i available wanted) s) := by
  induction bits generalizing s with
  | nil => exact .refl s
  | cons bit bits ih =>
    refine .trans ?_ (ih _)
    unfold askParameter
    split_ifs
    · exact .trans (.emit s (by simp)) (.emit _ (by simp))
    · exact .emit s (by simp)

theorem startSlaveCycle_frame {s : State} {seg : Idx → Segment} {inserted : Option Pid}
    {available wanted : ℕ} {intervalMs : Option Int}
    (hok : kept s (.startSlaveCycle seg inserted available wanted intervalMs) = true) :
    RegistryFrame s (startSlaveCycle seg inserted available wanted intervalMs s) := by
  have hread : RegistryFrame s (s.emit .read) := .emit s (by simp)
  unfold startSlaveCycle
  split
  · exact hread
  · rename_i slavePid hchosen
    obtain ⟨hpid, hassigned⟩ := of_decide_eq_true hok slavePid hchosen
    obtain ⟨i, hi, -⟩ := exists_lookup (p := fun i ↦ (seg i).pid'' = slavePid) hpid
      (hassigned.imp fun _ ↦ decide_eq_true)
    have hasked := hread.trans (askParameters_frame i available wanted
      [stringParameterBit, intParameterBit, boolParameterBit] (s.emit .read))
    simp only [hi]
    cases intervalMs with
    | none => exact hasked
    | some ms =>
      dsimp only
      split_ifs
      · exact hasked
      · exact (hasked.trans (.emit _ (by simp))).trans (sendSlaveRequest_frame slavePid _)

theorem stopSlaveCycle_frame (seg : Idx → Segment) (inserted : Option Pid) (s : State) :
    RegistryFrame s (stopSlaveCycle seg inserted s) := by
  have hread : RegistryFrame s (s.emit .read) := .emit s (by simp)
  unfold stopSlaveCycle
  split
  · exact hread
  · exact hread.trans (sendSlaveRequest_frame _ _)

theorem printSlaves_frame {seg : Idx → Segment}
    (hseg : ∀ i, (seg i).pid ≠ noPid → 0 ≤ (seg i).pid'.tmod maxSlaves) (is : List Idx)
    (s : State) : RegistryFrame s (printSlaves seg is s) := by
  induction is generalizing s with
  | nil => exact .refl s
  | cons i is ih =>
    have hread : RegistryFrame s (s.emit .read) := .emit s (by simp)
    unfold printSlaves
    split_ifs with hfree
    · exact hread.trans (ih _)
    · rw [printSlaveDataByPid, if_neg (not_lt.mpr (hseg i hfree))]
      exact (hread.trans (.emit _ (by simp))).trans (ih _)

theorem connectSlaves_frame {killed : Idx → Bool} {answer : Idx → Option Response}
    {is : List Idx} {s : State} (h : RegistryInv s) :
    RegistryFrame s (connectSlaves killed answer is s) := by
  induction is generalizing s with
  | nil => exact .refl s
  | cons i is ih =>
    unfold connectSlaves
    split_ifs with hskip hkilled
    · exact ih h
    all_goals
      have hsent : RegistryFrame s (sendConnectSlaveRequest (s.createdSlave i).pid
          { s with request := .connectSlave }) :=
        .trans (t := { s with request := .connectSlave }) ⟨fun _ ↦ rfl, rfl, rfl, id⟩
          (sendSlaveRequest_frame _ _)
    · push Not at hskip
      have hanswered (r : Option Response) := hsent.trans (waitSlaveResponse_frame
        (h.of_frame hsent) true fun _ : r = some .ack ↦ hsent.registered ⟨hskip.1, i, rfl⟩)
      exact (hanswered _).trans (ih (h.of_frame (hanswered _)))
    · exact hsent

theorem startSlaves_frame (seg : Idx → Segment) (is : List Idx) (s : State) :
    RegistryFrame s (startSlaves seg is s) := by
  induction is generalizing s with
  | nil => exact .refl s
  | cons i is ih =>
    have hread : RegistryFrame s (s.emit .read) := .emit s (by simp)
    unfold startSlaves
    split_ifs
    · have hrequested : RegistryFrame s ((s.emit .read).emit (.requestParameter i
          intParameterBit)) := hread.trans (.emit _ (by simp))
      have hasked : RegistryFrame s { ((s.emit .read).emit (.requestParameter i
          intParameterBit)).emit (.setCommunicationCycle i (500 * 1000)) with
            request := .startSlaveCycle } :=
        (hrequested.trans (.emit _ (by simp))).trans ⟨fun _ ↦ rfl, rfl, rfl, id⟩
      exact (hasked.trans (sendSlaveRequest_frame _ _)).trans (ih _)
    · exact hread.trans (ih _)

theorem automaticTest_inv {s : State} (h : RegistryInv s) {forks : List Fork}
    {killed : Idx → Bool} {answer : Idx → Option Response} {seg : Idx → Segment}
    (hok : kept s (.automaticTest forks killed answer seg) = true) :
    RegistryInv (automaticTest forks killed answer seg s) := by
  unfold automaticTest
  split_ifs with hinvalid
  · exact h
  · obtain ⟨hforks, hnodup, hroom⟩ := of_decide_eq_true hok
    have hforked := forkSlaves_inv h hforks hnodup hroom
    exact (hforked.of_frame (connectSlaves_frame hforked)).of_frame
      (startSlaves_frame seg (List.finRange maxSlaves) _)

theorem step_inv {s t : State} {c : Command} (h : RegistryInv s) (hok : kept s c = true)
    (hs : step s c = some t) : RegistryInv t := by
  unfold step at hs
  split_ifs at hs
  rw [← Option.some.inj hs]
  have h : RegistryInv { s with request := c.request } :=
    h.of_frame ⟨fun _ ↦ rfl, rfl, rfl, id⟩
  cases c with
  | startMaster fork signalled found => exact h.of_frame (startMaster_frame _ _ _ _)
  | stopMaster seg killed => exact h.of_frame (stopMaster_frame hok)
  | createSlave named fork => exact createSlave_inv h hok
  | deleteSlave inserted killed => exact h.of_frame (deleteSlave_frame hok)
  | connectSlave inserted killed answer => exact h.of_frame (connectSlave_frame h _ _ _)
  | disconnectSlave seg inserted answer => exact h.of_frame (disconnectSlave_frame h hok)
  | startSlaveCycle seg inserted available wanted intervalMs =>
    exact h.of_frame (startSlaveCycle_frame hok)
  | stopSlaveCycle seg inserted => exact h.of_frame (stopSlaveCycle_frame _ _ _)
  | printSlaveData seg =>
    change RegistryInv (printSlaveData seg _)
    unfold printSlaveData
    split_ifs with hshmp
    · exact h.of_frame (printSlaves_frame (of_decide_eq_true hok hshmp) _ _)
    · exact h
  | automaticTest forks killed answer seg => exact automaticTest_inv h hok
  | printLogData | unrecognized code => exact h

theorem setCreated_number (s : State) (localIdx : Lookup) (f : Created → Created) :
    (s.setCreated localIdx f).createdSlavesNumber = s.createdSlavesNumber := by
  cases localIdx <;> rfl

theorem createSlave_eq_self {s : State} {fork : Fork} :
    createSlave true fork s = s ↔ maxSlaves ≤ s.createdSlavesNumber := by
  by_cases hfull : maxSlaves ≤ s.createdSlavesNumber
  · simp [createSlave, hfull]
  · rw [createSlave, if_neg hfull, if_pos rfl]
    refine iff_of_false (fun heq ↦ ?_) hfull
    have hnumber := congrArg State.createdSlavesNumber heq
    cases fork <;> simp [forkSlave, registerSlaveLocally, setCreated_number] at hnumber

theorem registryConsistent_of_kept {s : State}
    (h : Reaches step (fun s c ↦ kept s c = true) initial s) : RegistryConsistent s := by
  have hinv : RegistryInv s := h.invariant
    ⟨by simp [initial, occupied], by simp [initial], by simp [initial], by simp [initial],
      by simp [initial]⟩ fun _ _ _ ↦ step_inv
  refine ⟨hinv.number, hinv.number ▸ occupied_le _, hinv.once, hinv.inside, fun fork ↦ ?_⟩
  rw [createSlave_eq_self, hinv.number]
  exact occupied_eq_iff

def creations : List Command :=
  [.createSlave true (.child 99), .createSlave true (.child 131),
    .startMaster (.child 89) true true, .connectSlave (some 100) true (some .ack),
    .disconnectSlave (connectedSegments false) (some 100) (some .ack),
    .automaticTest [.child 140, .child 163, .child 195] (fun _ ↦ true) (fun _ ↦ some .ack)
      fun _ ↦ .free]

theorem creations_consistent : ∃ s, s.createdSlavesNumber = 5 ∧ RegistryConsistent s := by
  have hrun : (run (guarded step fun s c ↦ kept s c = true) initial creations).map
      State.createdSlavesNumber = some 5 := by
    decide +kernel
  obtain ⟨s, hs, hnumber⟩ := Option.map_eq_some_iff.mp hrun
  exact ⟨s, hnumber, registryConsistent_of_kept (.of_run hs)⟩

theorem deleted_counted : ¬ ∀ s, Reaches step unrestricted initial s → RegistryConsistent s := by
  intro hall
  have hrun : (run step initial [.createSlave true (.child 99),
      .deleteSlave (some 100) true]).map
      (fun s ↦ (s.createdSlavesNumber, occupied s.createdSlave)) = some (1, 0) := by
    decide +kernel
  obtain ⟨s, hs, hview⟩ := Option.map_eq_some_iff.mp hrun
  simp only [Prod.mk.injEq] at hview
  have hnumber := (hall s (.of_unrestricted_run hs)).number
  rw [hview.1, hview.2] at hnumber
  cases hnumber

end RealTimeCyclic.LocalRegistry
