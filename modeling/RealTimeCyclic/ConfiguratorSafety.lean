import RealTimeCyclic.Configurator
import RealTimeCyclic.Library.Transition
import Mathlib.Data.Fintype.Card

namespace RealTimeCyclic.ConfiguratorSafety

open Shm Probing Function Configurator Transition

def Permitted (e : Entry) : Prop :=
  match e.effect with
  | .kill pid _ => e.master = some pid ∨ pid ∈ e.slaves
  | .read | .requestParameter _ _ | .setCommunicationCycle _ _ => e.attached = true
  | .outOfBounds => False

def Safe (s : State) : Prop := ∀ e ∈ s.log, Permitted e

def Registered (s : State) (pid : Pid) : Prop :=
  pid ≠ noPid ∧ ∃ i, (s.createdSlave i).pid = pid

instance (s : State) (pid : Pid) : Decidable (Registered s pid) :=
  inferInstanceAs (Decidable (_ ∧ _))

def occupied (createdSlave : Idx → Created) : ℕ :=
  (Finset.univ.filter fun i ↦ (createdSlave i).pid ≠ noPid).card

/-- The condition on a command: the master runs when it is signalled, the memory is
attached when it is read, forks succeed and find room, the segments name
registered slaves. -/
def attended (s : State) : Command → Bool
  | .startMaster fork signalled found =>
    s.masterPid = noPid → fork = .failed → signalled → found → s.started
  | .stopMaster seg _ =>
    decide (s.masterPid ≠ noPid →
      (∀ i, (seg i).pid ≠ noPid → (seg i).pid' ∈ s.slaves ∧ Registered s (seg i).pid'') ∧
      ∀ i j, i ≠ j → (seg i).pid ≠ noPid → (seg j).pid ≠ noPid → (seg i).pid'' ≠ (seg j).pid'')
  | .createSlave named fork => s.createdSlavesNumber < maxSlaves → named → fork ≠ .failed
  | .connectSlave inserted _ _ =>
    (chosen (disconnectedPids s.createdSlave) inserted).isSome → s.masterPid ≠ noPid
  | .disconnectSlave seg inserted answer =>
    s.shmp ∧ ∀ slavePid ∈ chosen (notStartedPids seg) inserted,
      s.masterPid ≠ noPid ∧ (answer = some .ack → Registered s slavePid)
  | .startSlaveCycle seg inserted _ _ intervalMs =>
    s.shmp ∧ ∀ slavePid ∈ chosen (notStartedPids seg) inserted,
      (0 ≤ slavePid.tmod maxSlaves ∧ ∃ i, (seg i).pid'' = slavePid) ∧
      ∀ ms ∈ intervalMs, 0 < ms → s.masterPid ≠ noPid
  | .stopSlaveCycle seg inserted =>
    s.shmp ∧ ((chosen (startedPids seg) inserted).isSome → s.masterPid ≠ noPid)
  | .printSlaveData seg =>
    s.shmp → ∀ i, (seg i).pid ≠ noPid → 0 ≤ (seg i).pid'.tmod maxSlaves
  | .automaticTest forks _ _ _ =>
    forks ≠ [] → s.masterPid ≠ noPid ∧ (∀ fork ∈ forks, fork ≠ .failed) ∧
      occupied s.createdSlave + forks.length ≤ maxSlaves
  | .deleteSlave _ _ | .printLogData | .unrecognized _ => true

structure SafeInv (s : State) : Prop where
  log : Safe s
  running : s.exited = false → s.masterPid ≠ noPid →
    s.master = some s.masterPid ∧ s.shmp = true
  attached : s.shmp = true → s.started = true
  created : ∀ i, (s.createdSlave i).pid ≠ noPid → (s.createdSlave i).pid ∈ s.slaves
  slaves : ∀ pid ∈ s.slaves, 0 < pid
  number : occupied s.createdSlave ≤ s.createdSlavesNumber

def Ready (s : State) : Prop := s.exited = false ∧ s.masterPid ≠ noPid

theorem lookup_found {p : Idx → Bool} {pid : Pid} {i : Idx} (h : lookup p pid = .found i) :
    p i = true := by
  unfold lookup at h
  split_ifs at h
  split at h
  · rename_i hsome
    exact Lookup.found.inj h ▸ probe_some hsome
  · cases h

theorem exists_lookup {p : Idx → Bool} {pid : Pid} (hpid : 0 ≤ pid.tmod maxSlaves)
    (h : ∃ i, p i = true) : ∃ i, lookup p pid = .found i ∧ p i = true := by
  cases hl : lookup p pid with
  | found i => exact ⟨i, rfl, lookup_found hl⟩
  | outside =>
    unfold lookup at hl
    rw [if_neg (not_lt.mpr hpid)] at hl
    split at hl <;> cases hl
  | noIdx =>
    obtain ⟨i, hi⟩ := h
    unfold lookup at hl
    rw [if_neg (not_lt.mpr hpid)] at hl
    split at hl
    · cases hl
    · rename_i hnone
      rw [probe_none.mp hnone i] at hi
      cases hi

theorem Registered.lookup {s : State} {pid : Pid} (hr : Registered s pid) (hpos : 0 ≤ pid) :
    ∃ i, getAssignedLocalIdx s.createdSlave pid = .found i ∧ (s.createdSlave i).pid = pid := by
  obtain ⟨k, hk, heq⟩ := exists_lookup (p := fun k ↦ (s.createdSlave k).pid = pid)
    (Int.tmod_nonneg _ hpos) (hr.2.imp fun _ ↦ decide_eq_true)
  exact ⟨k, hk, of_decide_eq_true heq⟩

theorem SafeInv.registered {s : State} (h : SafeInv s) {pid : Pid} (hr : Registered s pid) :
    ∃ i, getAssignedLocalIdx s.createdSlave pid = .found i ∧ (s.createdSlave i).pid = pid := by
  obtain ⟨hne, i, hi⟩ := hr
  exact Registered.lookup ⟨hne, i, hi⟩ (h.slaves _ (hi ▸ h.created i (hi ▸ hne))).le

theorem exists_free {createdSlave : Idx → Created} (h : occupied createdSlave < maxSlaves) :
    ∃ i, (createdSlave i).pid = noPid := by
  by_contra hfull
  push Not at hfull
  apply h.ne
  rw [occupied, Finset.filter_true_of_mem fun i _ ↦ hfull i, Finset.card_univ, Fintype.card_fin]

theorem occupied_update_le {createdSlave : Idx → Created} {i : Idx} {c : Created}
    (hc : c.pid = noPid ∨ c.pid = (createdSlave i).pid) :
    occupied (update createdSlave i c) ≤ occupied createdSlave := by
  apply Finset.card_le_card
  intro k hk
  simp only [Finset.mem_filter, Finset.mem_univ, true_and] at hk ⊢
  rcases eq_or_ne k i with rfl | hne
  · rw [update_self] at hk
    rcases hc with hfree | hsame
    · exact absurd hfree hk
    · exact hsame ▸ hk
  · rwa [update_of_ne hne] at hk

theorem occupied_update_le_succ {createdSlave : Idx → Created} {i : Idx} {c : Created} :
    occupied (update createdSlave i c) ≤ occupied createdSlave + 1 := by
  refine le_trans (Finset.card_le_card ?_) (Finset.card_insert_le i _)
  intro k hk
  simp only [Finset.mem_insert, Finset.mem_filter, Finset.mem_univ, true_and] at hk ⊢
  rcases eq_or_ne k i with rfl | hne
  · exact .inl rfl
  · rw [update_of_ne hne] at hk
    exact .inr hk

theorem SafeInv.emit {s : State} (h : SafeInv s) {effect : Effect}
    (hp : Permitted ⟨effect, s.shmp && s.started, s.master, s.slaves⟩) :
    SafeInv (s.emit effect) := by
  refine ⟨?_, h.running, h.attached, h.created, h.slaves, h.number⟩
  intro e he
  rcases List.mem_append.mp he with hold | hnew
  · exact h.log e hold
  · rw [List.mem_singleton.mp hnew]
    exact hp

theorem SafeInv.read {s : State} (h : SafeInv s) (hshmp : s.shmp = true) :
    SafeInv (s.emit .read) := by
  apply h.emit
  simp [Permitted, hshmp, h.attached hshmp]

theorem SafeInv.requested {s : State} (h : SafeInv s) (hshmp : s.shmp = true) (i : Idx)
    (bit : ℕ) : SafeInv ((s.emit .read).emit (.requestParameter i bit)) := by
  apply (h.read hshmp).emit
  simp [Permitted, State.emit, hshmp, h.attached hshmp]

theorem SafeInv.configured {s : State} (h : SafeInv s) (hshmp : s.shmp = true) (i : Idx)
    (us : Int) : SafeInv (s.emit (.setCommunicationCycle i us)) := by
  apply h.emit
  simp [Permitted, hshmp, h.attached hshmp]

theorem SafeInv.request {s : State} (h : SafeInv s) (request : Request) :
    SafeInv { s with request := request } :=
  ⟨h.log, h.running, h.attached, h.created, h.slaves, h.number⟩

theorem SafeInv.signalled {s : State} (h : SafeInv s) (hr : Ready s) (pid : Pid) :
    SafeInv (sendSlaveRequest pid s) := by
  have hkept : SafeInv { s with affectedSlavePid := pid } :=
    ⟨h.log, h.running, h.attached, h.created, h.slaves, h.number⟩
  apply hkept.emit
  exact .inl (h.running hr.1 hr.2).1

theorem SafeInv.deleted {s : State} (h : SafeInv s) {pid : Pid} (hpid : pid ∈ s.slaves) :
    SafeInv (sendDeleteSlaveRequest pid s) := by
  apply h.emit
  exact .inr hpid

theorem SafeInv.set_created {s : State} (h : SafeInv s) {i : Idx} {c : Created}
    (hc : c.pid = noPid ∨ c.pid = (s.createdSlave i).pid) :
    SafeInv { s with createdSlave := update s.createdSlave i c } := by
  refine ⟨h.log, h.running, h.attached, ?_, h.slaves, (occupied_update_le hc).trans h.number⟩
  intro k hk
  dsimp only at hk ⊢
  rcases eq_or_ne k i with rfl | hne
  · rw [update_self] at hk ⊢
    rcases hc with hfree | hsame
    · exact absurd hfree hk
    · exact hsame ▸ h.created k (hsame ▸ hk)
  · rw [update_of_ne hne] at hk ⊢
    exact h.created k hk

theorem SafeInv.unregister {s : State} (h : SafeInv s) {pid : Pid} (hr : Registered s pid) :
    ∃ i, (s.createdSlave i).pid = pid ∧ unregisterSlaveLocally pid s =
      { s with createdSlave := update s.createdSlave i ⟨noPid, false⟩ } := by
  obtain ⟨i, hi, hpid⟩ := h.registered hr
  refine ⟨i, hpid, ?_⟩
  simp [unregisterSlaveLocally, State.setCreated, hi]

theorem SafeInv.answered {s : State} (h : SafeInv s) {pid : Pid} {connected : Bool}
    {answer : Option Response} (hr : answer = some .ack → Registered s pid) :
    SafeInv (waitSlaveResponse connected pid answer s) := by
  unfold waitSlaveResponse
  split_ifs with hack
  · obtain ⟨i, hi, -⟩ := h.registered (hr hack)
    simp only [State.setCreated, hi]
    exact h.set_created (.inr rfl)
  · exact h

theorem registered_of_disconnected {s : State} {inserted : Option Pid} {pid : Pid}
    (h : chosen (disconnectedPids s.createdSlave) inserted = some pid) : Registered s pid := by
  have hmem : pid ∈ disconnectedPids s.createdSlave := by
    obtain ⟨-, hp⟩ := Option.filter_eq_some_iff.mp h
    exact of_decide_eq_true hp
  obtain ⟨i, -, hi⟩ := List.mem_filterMap.mp hmem
  split_ifs at hi with hskip
  push Not at hskip
  obtain rfl := Option.some.inj hi
  exact ⟨hskip.1, i, rfl⟩

theorem startMaster_inv {s : State} (h : SafeInv s) {fork : Fork} {signalled found : Bool}
    (hok : attended s (.startMaster fork signalled found) = true) :
    SafeInv (startMaster fork signalled found s) := by
  unfold startMaster
  by_cases hnone : s.masterPid = noPid
  · rw [if_neg (not_not.mpr hnone)]
    refine ⟨h.log, ?_, ?_, h.created, h.slaves, h.number⟩
    · intro hrunning hpid
      have hfork : fork ≠ .failed := by
        rintro rfl
        exact hpid rfl
      have hfound : (signalled && found) = true := by simpa using hrunning
      simp [hfork, hfound]
    · intro hshmp
      dsimp only at hshmp ⊢
      by_cases hfork : fork = .failed
      · rcases Bool.or_eq_true_iff.mp hshmp with hold | hnew
        · simp [h.attached hold]
        · obtain ⟨hsignalled, hfound⟩ := Bool.and_eq_true_iff.mp hnew
          have hstarted := of_decide_eq_true hok hnone hfork hsignalled hfound
          simp [hstarted]
      · simp [hfork]
  · rw [if_pos hnone]
    exact h

theorem deleteSlaves_inv {seg : Idx → Segment} {is : List Idx} {s : State} (h : SafeInv s)
    (hr : Ready s) (hnodup : is.Nodup)
    (hseg : ∀ i ∈ is, (seg i).pid ≠ noPid →
      (seg i).pid' ∈ s.slaves ∧ Registered s (seg i).pid'')
    (hne : ∀ i j, i ≠ j → (seg i).pid ≠ noPid → (seg j).pid ≠ noPid →
      (seg i).pid'' ≠ (seg j).pid'') :
    SafeInv (deleteSlaves seg is s) ∧ Ready (deleteSlaves seg is s) := by
  induction is generalizing s with
  | nil => exact ⟨h, hr⟩
  | cons i is ih =>
    obtain ⟨hi, hnodup⟩ := List.nodup_cons.mp hnodup
    have hread := h.read (h.running hr.1 hr.2).2
    unfold deleteSlaves
    split_ifs with hfree
    · exact ih hread hr hnodup fun j hj ↦ hseg j (List.mem_cons_of_mem i hj)
    · obtain ⟨hpid, hregistered⟩ := hseg i List.mem_cons_self hfree
      have hdeleted := hread.deleted hpid
      obtain ⟨k, hk, heq⟩ := hdeleted.unregister hregistered
      rw [heq]
      apply ih (hdeleted.set_created (.inl rfl)) hr hnodup
      intro j hj hused
      obtain ⟨hpid', hpos, k', hk'⟩ := hseg j (List.mem_cons_of_mem i hj) hused
      refine ⟨hpid', hpos, k', ?_⟩
      have hkk : k' ≠ k := by
        rintro rfl
        refine hne i j ?_ hfree hused (hk.symm.trans hk')
        rintro rfl
        exact hi hj
      dsimp only
      rwa [update_of_ne hkk]

theorem stopMaster_inv {s : State} (h : SafeInv s) (hexited : s.exited = false)
    {seg : Idx → Segment} {killed : Bool} (hok : attended s (.stopMaster seg killed) = true) :
    SafeInv (stopMaster seg killed s) := by
  unfold stopMaster
  split_ifs with hnone
  · exact h
  · obtain ⟨hseg, hne⟩ := of_decide_eq_true hok hnone
    obtain ⟨hinv, hready⟩ := deleteSlaves_inv h ⟨hexited, hnone⟩ (List.nodup_finRange maxSlaves)
      (fun i _ ↦ hseg i) hne
    have hkill : SafeInv ((deleteSlaves seg (List.finRange maxSlaves) s).emit
        (.kill (deleteSlaves seg (List.finRange maxSlaves) s).masterPid .sigint)) :=
      hinv.emit (.inl (hinv.running hready.1 hready.2).1)
    unfold sendStopMasterRequest
    split_ifs
    · exact ⟨hkill.log, fun _ hpid ↦ absurd rfl hpid, hkill.attached, hkill.created,
        hkill.slaves, hkill.number⟩
    · exact hkill

theorem forkSlave_inv {s : State} (h : SafeInv s) {fork : Fork} (hfork : fork ≠ .failed)
    (hroom : occupied s.createdSlave < maxSlaves) :
    SafeInv (forkSlave fork s) ∧ (Ready s → Ready (forkSlave fork s)) ∧
      occupied (forkSlave fork s).createdSlave ≤ occupied s.createdSlave + 1 := by
  cases fork with
  | failed => exact absurd rfl hfork
  | child n =>
    have hpos : (0 : Int) < (n : Int) + 1 := by omega
    obtain ⟨i, hi, hfree⟩ := exists_lookup (p := fun i ↦ (s.createdSlave i).pid = noPid)
      (Int.tmod_nonneg _ hpos.le)
      ((exists_free hroom).imp fun _ ↦ decide_eq_true)
    have heq : forkSlave (.child n) s = { s with
        slaves := ((n : Int) + 1) :: s.slaves
        createdSlavesNumber := s.createdSlavesNumber + 1
        createdSlave := update s.createdSlave i ⟨(n : Int) + 1, false⟩ } := by
      simp [forkSlave, registerSlaveLocally, assignLocalIdx, Fork.pid, State.setCreated, hi]
    rw [heq]
    refine ⟨⟨h.log, h.running, h.attached, ?_, ?_, ?_⟩, id, occupied_update_le_succ⟩
    · intro k hk
      dsimp only at hk ⊢
      rcases eq_or_ne k i with rfl | hne
      · rw [update_self]
        exact List.mem_cons_self
      · rw [update_of_ne hne] at hk ⊢
        exact List.mem_cons_of_mem _ (h.created k hk)
    · intro pid hpid
      rcases List.mem_cons.mp hpid with rfl | hold
      · exact hpos
      · exact h.slaves pid hold
    · exact occupied_update_le_succ.trans (Nat.add_le_add_right h.number 1)

theorem createSlave_inv {s : State} (h : SafeInv s) {named : Bool} {fork : Fork}
    (hok : attended s (.createSlave named fork) = true) : SafeInv (createSlave named fork s) := by
  unfold createSlave
  split_ifs with hfull hnamed
  · exact h
  · have hroom := not_le.mp hfull
    have hfork := of_decide_eq_true hok hroom hnamed
    exact (forkSlave_inv h hfork (h.number.trans_lt hroom)).1
  · exact h

theorem deleteSlave_inv {s : State} (h : SafeInv s) (inserted : Option Pid) (killed : Bool) :
    SafeInv (deleteSlave inserted killed s) := by
  unfold deleteSlave
  split
  · exact h
  · rename_i slavePid hchosen
    have hregistered := registered_of_disconnected hchosen
    have hdeleted : SafeInv (sendDeleteSlaveRequest slavePid s) := by
      obtain ⟨hne, i, rfl⟩ := hregistered
      exact h.deleted (h.created i hne)
    split_ifs
    · obtain ⟨i, -, heq⟩ := hdeleted.unregister hregistered
      rw [heq]
      exact hdeleted.set_created (.inl rfl)
    · exact hdeleted

theorem connectSlave_inv {s : State} (h : SafeInv s) (hexited : s.exited = false)
    {inserted : Option Pid} {killed : Bool} {answer : Option Response}
    (hok : attended s (.connectSlave inserted killed answer) = true) :
    SafeInv (connectSlave inserted killed answer s) := by
  unfold connectSlave
  split
  · exact h
  · rename_i slavePid hchosen
    have hmaster := of_decide_eq_true hok (by rw [hchosen]; rfl)
    have hsent := h.signalled ⟨hexited, hmaster⟩ slavePid
    split_ifs
    · exact hsent.answered fun _ ↦ registered_of_disconnected hchosen
    · exact hsent

theorem disconnectSlave_inv {s : State} (h : SafeInv s) (hexited : s.exited = false)
    {seg : Idx → Segment} {inserted : Option Pid} {answer : Option Response}
    (hok : attended s (.disconnectSlave seg inserted answer) = true) :
    SafeInv (disconnectSlave seg inserted answer s) := by
  obtain ⟨hshmp, hok⟩ := of_decide_eq_true hok
  have hread := h.read hshmp
  unfold disconnectSlave
  split
  · exact hread
  · rename_i slavePid hchosen
    obtain ⟨hmaster, hack⟩ := hok slavePid hchosen
    have hsent := hread.signalled ⟨hexited, hmaster⟩ slavePid
    exact hsent.answered hack

theorem askParameter_inv {s : State} (h : SafeInv s) (hshmp : s.shmp = true) (i : Idx)
    (available wanted bit : ℕ) : SafeInv (askParameter i available wanted s bit) := by
  unfold askParameter
  split_ifs
  · exact h.requested hshmp i bit
  · exact h.read hshmp

theorem askParameter_frame (i : Idx) (available wanted : ℕ) (s : State) (bit : ℕ) :
    (askParameter i available wanted s bit).shmp = s.shmp ∧
      (Ready s → Ready (askParameter i available wanted s bit)) := by
  unfold askParameter
  split_ifs <;> exact ⟨rfl, id⟩

theorem askParameters_inv {s : State} (h : SafeInv s) (hshmp : s.shmp = true) (i : Idx)
    (available wanted : ℕ) (bits : List ℕ) :
    SafeInv (bits.foldl (askParameter i available wanted) s) ∧
      (bits.foldl (askParameter i available wanted) s).shmp = true ∧
      (Ready s → Ready (bits.foldl (askParameter i available wanted) s)) := by
  induction bits generalizing s with
  | nil => exact ⟨h, hshmp, id⟩
  | cons bit bits ih =>
    obtain ⟨hkept, hready⟩ := askParameter_frame i available wanted s bit
    obtain ⟨hinv, hshmp', hready'⟩ :=
      ih (askParameter_inv h hshmp i available wanted bit) (hkept.trans hshmp)
    exact ⟨hinv, hshmp', fun hr ↦ hready' (hready hr)⟩

theorem startSlaveCycle_inv {s : State} (h : SafeInv s) (hexited : s.exited = false)
    {seg : Idx → Segment} {inserted : Option Pid} {available wanted : ℕ}
    {intervalMs : Option Int}
    (hok : attended s (.startSlaveCycle seg inserted available wanted intervalMs) = true) :
    SafeInv (startSlaveCycle seg inserted available wanted intervalMs s) := by
  obtain ⟨hshmp, hok⟩ := of_decide_eq_true hok
  have hread := h.read hshmp
  unfold startSlaveCycle
  split
  · exact hread
  · rename_i slavePid hchosen
    obtain ⟨⟨hpid, hassigned⟩, hmaster⟩ := hok slavePid hchosen
    obtain ⟨i, hi, -⟩ := exists_lookup (p := fun i ↦ (seg i).pid'' = slavePid) hpid
      (hassigned.imp fun _ ↦ decide_eq_true)
    simp only [hi]
    obtain ⟨hasked, hshmp', hready⟩ := askParameters_inv hread hshmp i available wanted
      [stringParameterBit, intParameterBit, boolParameterBit]
    cases intervalMs with
    | none => exact hasked
    | some ms =>
      dsimp only
      split_ifs with hms
      · exact hasked
      · have hrunning : Ready (s.emit .read) := ⟨hexited, hmaster ms rfl (not_le.mp hms)⟩
        exact (hasked.configured hshmp' i (communicationCycleUs ms)).signalled (hready hrunning) slavePid

theorem stopSlaveCycle_inv {s : State} (h : SafeInv s) (hexited : s.exited = false)
    {seg : Idx → Segment} {inserted : Option Pid}
    (hok : attended s (.stopSlaveCycle seg inserted) = true) :
    SafeInv (stopSlaveCycle seg inserted s) := by
  obtain ⟨hshmp, hmaster⟩ := of_decide_eq_true hok
  have hread := h.read hshmp
  unfold stopSlaveCycle
  split
  · exact hread
  · rename_i slavePid hchosen
    exact hread.signalled ⟨hexited, hmaster (by rw [hchosen]; rfl)⟩ slavePid

theorem printSlaves_inv {seg : Idx → Segment} {is : List Idx} {s : State} (h : SafeInv s)
    (hshmp : s.shmp = true)
    (hseg : ∀ i, (seg i).pid ≠ noPid → 0 ≤ (seg i).pid'.tmod maxSlaves) :
    SafeInv (printSlaves seg is s) := by
  induction is generalizing s with
  | nil => exact h
  | cons i is ih =>
    have hread := h.read hshmp
    unfold printSlaves
    split_ifs with hfree
    · exact ih hread hshmp
    · rw [printSlaveDataByPid, if_neg (not_lt.mpr (hseg i hfree))]
      exact ih (hread.read hshmp) hshmp

theorem printSlaveData_inv {s : State} (h : SafeInv s) {seg : Idx → Segment}
    (hok : attended s (.printSlaveData seg) = true) : SafeInv (printSlaveData seg s) := by
  unfold printSlaveData
  split_ifs with hshmp
  · exact printSlaves_inv h hshmp (of_decide_eq_true hok hshmp)
  · exact h

theorem forkSlaves_inv {forks : List Fork} {s : State} (h : SafeInv s)
    (hforks : ∀ fork ∈ forks, fork ≠ .failed)
    (hroom : occupied s.createdSlave + forks.length ≤ maxSlaves) :
    SafeInv (forks.foldl (fun s fork ↦ forkSlave fork s) s) ∧
      (Ready s → Ready (forks.foldl (fun s fork ↦ forkSlave fork s) s)) := by
  induction forks generalizing s with
  | nil => exact ⟨h, id⟩
  | cons fork forks ih =>
    rw [List.length_cons] at hroom
    obtain ⟨hinv, hready, hoccupied⟩ := forkSlave_inv h (hforks fork List.mem_cons_self) (by omega)
    obtain ⟨hinv', hready'⟩ := ih hinv (fun f hf ↦ hforks f (List.mem_cons_of_mem fork hf))
      (by omega)
    exact ⟨hinv', fun hr ↦ hready' (hready hr)⟩

theorem ready_waitSlaveResponse {s : State} {connected : Bool} {slavePid : Pid}
    {answer : Option Response} (hr : Ready s) :
    Ready (waitSlaveResponse connected slavePid answer s) := by
  unfold waitSlaveResponse
  split_ifs
  · unfold State.setCreated
    split <;> exact hr
  · exact hr

theorem connectSlaves_inv {killed : Idx → Bool} {answer : Idx → Option Response}
    {is : List Idx} {s : State} (h : SafeInv s) (hr : Ready s) :
    SafeInv (connectSlaves killed answer is s) ∧ Ready (connectSlaves killed answer is s) := by
  induction is generalizing s with
  | nil => exact ⟨h, hr⟩
  | cons i is ih =>
    unfold connectSlaves
    split_ifs with hskip hkilled
    · exact ih h hr
    · push Not at hskip
      have hsent := (h.request .connectSlave).signalled hr (s.createdSlave i).pid
      exact ih (hsent.answered fun _ ↦ ⟨hskip.1, i, rfl⟩) (ready_waitSlaveResponse hr)
    · exact ⟨(h.request .connectSlave).signalled hr _, hr⟩

theorem startSlaves_inv {seg : Idx → Segment} {is : List Idx} {s : State} (h : SafeInv s)
    (hr : Ready s) : SafeInv (startSlaves seg is s) := by
  induction is generalizing s with
  | nil => exact h
  | cons i is ih =>
    have hshmp := (h.running hr.1 hr.2).2
    unfold startSlaves
    split_ifs
    · have hasked := (h.requested hshmp i intParameterBit).configured hshmp i (500 * 1000)
      exact ih ((hasked.request .startSlaveCycle).signalled hr (seg i).pid) hr
    · exact ih (h.read hshmp) hr

theorem automaticTest_inv {s : State} (h : SafeInv s) (hexited : s.exited = false)
    {forks : List Fork} {killed : Idx → Bool} {answer : Idx → Option Response}
    {seg : Idx → Segment} (hok : attended s (.automaticTest forks killed answer seg) = true) :
    SafeInv (automaticTest forks killed answer seg s) := by
  unfold automaticTest
  split_ifs with hinvalid
  · exact h
  · obtain ⟨hmaster, hforks, hroom⟩ := of_decide_eq_true hok hinvalid
    obtain ⟨hinv, hready⟩ := forkSlaves_inv h hforks hroom
    obtain ⟨hinv', hready'⟩ := connectSlaves_inv hinv (hready ⟨hexited, hmaster⟩)
    exact startSlaves_inv hinv' hready'

theorem step_inv {s t : State} {c : Command} (h : SafeInv s) (hok : attended s c = true)
    (hs : step s c = some t) : SafeInv t := by
  unfold step at hs
  split_ifs at hs with hexited
  rw [← Option.some.inj hs]
  have hexited := Bool.eq_false_iff.mpr hexited
  have h := h.request c.request
  cases c with
  | startMaster fork signalled found => exact startMaster_inv h hok
  | stopMaster seg killed => exact stopMaster_inv h hexited hok
  | createSlave named fork => exact createSlave_inv h hok
  | deleteSlave inserted killed => exact deleteSlave_inv h inserted killed
  | connectSlave inserted killed answer => exact connectSlave_inv h hexited hok
  | disconnectSlave seg inserted answer => exact disconnectSlave_inv h hexited hok
  | startSlaveCycle seg inserted available wanted intervalMs =>
    exact startSlaveCycle_inv h hexited hok
  | stopSlaveCycle seg inserted => exact stopSlaveCycle_inv h hexited hok
  | printSlaveData seg => exact printSlaveData_inv h hok
  | automaticTest forks killed answer seg => exact automaticTest_inv h hexited hok
  | printLogData | unrecognized code => exact h

theorem initial_inv : SafeInv initial := by
  refine ⟨?_, ?_, ?_, ?_, ?_, ?_⟩
  · simp [Safe, initial]
  · simp [initial]
  · simp [initial]
  · simp [initial]
  · simp [initial]
  · simp [initial, occupied]

theorem safe_of_attended {s : State}
    (h : Reaches step (fun s c ↦ attended s c = true) initial s) : Safe s := by
  have hinv : SafeInv s := h.invariant initial_inv fun _ _ _ ↦ step_inv
  exact hinv.log

def targets (s : State) : List Pid :=
  s.log.filterMap fun e ↦
    match e.effect with
    | .kill pid _ => some pid
    | _ => none

def connectedSegments (cycleStarted : Bool) (i : Idx) : Segment :=
  if i = 4 then ⟨100, 100, 100, true, cycleStarted⟩ else .free

def session : List Command :=
  [.createSlave true (.child 99), .startMaster (.child 89) true true,
    .connectSlave (some 100) true (some .ack),
    .startSlaveCycle (connectedSegments false) (some 100) 7 2 (some 500),
    .stopSlaveCycle (connectedSegments true) (some 100),
    .printSlaveData (connectedSegments false), .stopMaster (connectedSegments false) true,
    .connectSlave (some 100) true none]

theorem session_safe : ∃ s, targets s = [90, 90, 90, 100, 90] ∧ Safe s := by
  have hrun : (run (guarded step fun s c ↦ attended s c = true) initial session).map targets =
      some [90, 90, 90, 100, 90] := by
    decide +kernel
  obtain ⟨s, hs, htargets⟩ := Option.map_eq_some_iff.mp hrun
  exact ⟨s, htargets, safe_of_attended (.of_run hs)⟩

/-- CONNECT_SLAVE without a master. -/
theorem connect_broadcasts : ¬ ∀ s, Reaches step unrestricted initial s → Safe s := by
  intro hall
  have hrun : (run step initial [.createSlave true (.child 99),
      .connectSlave (some 100) false none]).map State.log =
      some [⟨.kill noPid .sigusr2, false, none, [100]⟩] := by
    decide +kernel
  obtain ⟨s, hs, hlog⟩ := Option.map_eq_some_iff.mp hrun
  have hkill := hall s (.of_unrestricted_run hs) ⟨.kill noPid .sigusr2, false, none, [100]⟩
    (by rw [hlog]; exact List.mem_singleton_self _)
  simp [Permitted, noPid] at hkill

end RealTimeCyclic.ConfiguratorSafety
