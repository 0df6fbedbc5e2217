import RealTimeCyclic.JointPhase

namespace RealTimeCyclic.Joint

open Shm SlotThread Probing Function Transition Tally
open Master (Thread acknowledged)
open MasterAnswer (Traced AnswerInv obligations tally syncHolds threadHolds)
open Configurator (Fork Segment Created disconnectedPids chosen forkSlave createSlave deleteSlave
  startMaster stopMaster deleteSlaves getAssignedLocalIdx waitSlaveResponse)
open ConfiguratorSafety (Registered)

/-- The tables agree on every slave but the one for which the slot table has been changed
while the configurator waits. -/
structure AgreeInv (s : State) : Prop where
  agree : ∀ i, (s.registry.createdSlave i).pid ≠ noPid →
    (s.moved = true → (s.registry.createdSlave i).pid ≠ s.master.state.latest.pid) →
    ((s.registry.createdSlave i).connected = true ↔ Held s (s.registry.createdSlave i).pid)
  moved : s.moved = true → awaiting s.master.state = true ∧
    Registered s.registry s.master.state.latest.pid ∧
    (s.master.state.latest.request = .connectSlave ∧ Held s s.master.state.latest.pid ∨
      s.master.state.latest.request = .disconnectSlave ∧ ¬ Held s s.master.state.latest.pid)
  awaited : awaiting s.master.state = true → s.master.state.latest.request = .connectSlave →
    Registered s.registry s.master.state.latest.pid
  named : s.master.state.configurator = .named → s.master.state.control.request = .connectSlave →
    Registered s.registry s.master.state.control.affectedSlavePid
  fit : awaiting s.master.state = true →
    s.master.state.control.request = s.master.state.latest.request

theorem AgreeInv.unmoved {s : State} (h : AgreeInv s) (hidle : awaiting s.master.state = false) :
    s.moved = false := by
  rw [Bool.eq_false_iff]
  intro hmoved
  rw [(h.moved hmoved).1] at hidle
  cases hidle

theorem AgreeInv.settled {s : State} (h : AgreeInv s) (hmoved : s.moved = false) (i : Idx)
    (hi : (s.registry.createdSlave i).pid ≠ noPid) :
    (s.registry.createdSlave i).connected = true ↔ Held s (s.registry.createdSlave i).pid :=
  h.agree i hi fun h ↦ absurd (hmoved.symm.trans h) Bool.false_ne_true

theorem AgreeInv.frame {s t : State} (h : AgreeInv s) (hheld : ∀ pid, Held t pid ↔ Held s pid)
    (hregistry : t.registry = s.registry) (hmoved : t.moved = s.moved)
    (hlatest : t.master.state.latest = s.master.state.latest)
    (hawaiting : awaiting t.master.state = awaiting s.master.state)
    (hnamed : t.master.state.configurator = .named → s.master.state.configurator = .named)
    (hrequest : t.master.state.control.request = s.master.state.control.request)
    (haffected : t.master.state.control.affectedSlavePid =
      s.master.state.control.affectedSlavePid) : AgreeInv t := by
  refine ⟨fun i hi ↦ ?_, ?_, ?_, fun hn ↦ ?_, ?_⟩
  · rw [hregistry] at hi ⊢
    rw [hmoved, hlatest, hheld]
    exact h.agree i hi
  · rw [hmoved, hawaiting, hlatest, hregistry, hheld]
    exact h.moved
  · rw [hawaiting, hlatest, hregistry]
    exact h.awaited
  · rw [hrequest, haffected, hregistry]
    exact h.named (hnamed hn)
  · rw [hawaiting, hrequest, hlatest]
    exact h.fit

theorem AgreeInv.of_idle {t : State} (hagree : ∀ i, (t.registry.createdSlave i).pid ≠ noPid →
      ((t.registry.createdSlave i).connected = true ↔ Held t (t.registry.createdSlave i).pid))
    (hmoved : t.moved = false) (hidle : awaiting t.master.state = false)
    (hnamed : t.master.state.configurator = .named →
      t.master.state.control.request = .connectSlave →
      Registered t.registry t.master.state.control.affectedSlavePid) : AgreeInv t := by
  have hno {p : Prop} (hwait : awaiting t.master.state = true) : p :=
    absurd (hidle.symm.trans hwait) Bool.false_ne_true
  exact ⟨fun i hi _ ↦ hagree i hi, fun h ↦ absurd (hmoved.symm.trans h) Bool.false_ne_true, hno,
    hnamed, hno⟩

theorem AgreeInv.thread {s t : State} {thread : Thread} (h : AgreeInv s)
    (hheld : HeldMove s t thread) (hf : Master.ThreadFrame s.master.state t.master.state)
    (hregistry : t.registry = s.registry) (hmoved : t.moved = (s.moved || threadChanges thread)) :
    AgreeInv t := by
  have hawaiting : awaiting t.master.state = awaiting s.master.state := by
    rw [awaiting, hf.configurator, awaiting]
  have hchanged (hchanges : threadChanges thread = true) : t.moved = true := by
    rw [hmoved, hchanges, Bool.or_true]
  have hkeep (hagree : ∀ i, (s.registry.createdSlave i).pid ≠ noPid →
        (s.registry.createdSlave i).pid ≠ s.master.state.latest.pid →
        (Held t (s.registry.createdSlave i).pid ↔ Held s (s.registry.createdSlave i).pid))
      (hchanges : threadChanges thread = true)
      (hnew : awaiting s.master.state = true ∧ Registered s.registry s.master.state.latest.pid ∧
        (s.master.state.latest.request = .connectSlave ∧ Held t s.master.state.latest.pid ∨
          s.master.state.latest.request = .disconnectSlave ∧
            ¬ Held t s.master.state.latest.pid)) : AgreeInv t := by
    refine ⟨fun i hi hother ↦ ?_, fun _ ↦ ?_, ?_, ?_, ?_⟩
    · rw [hregistry] at hi hother ⊢
      have hne := hother (hchanged hchanges)
      rw [hf.latest] at hne
      rw [hagree i hi hne]
      exact h.agree i hi fun _ ↦ hne
    · rw [hawaiting, hf.latest, hregistry]
      exact hnew
    · rw [hawaiting, hf.latest, hregistry]
      exact h.awaited
    · rw [hf.configurator, hf.request, hf.affected, hregistry]
      exact h.named
    · rw [hawaiting, hf.request, hf.latest]
      exact h.fit
  cases hheld with
  | same hchanges hheld =>
    rw [hchanges, Bool.or_false] at hmoved
    exact h.frame hheld hregistry hmoved hf.latest hawaiting (hf.configurator ▸ id) hf.request
      hf.affected
  | connected hchanges hwait hrequest hheld =>
    refine hkeep (fun i _ hne ↦ ?_) hchanges ⟨hwait, h.awaited hwait hrequest, .inl ⟨hrequest, ?_⟩⟩
    · rw [hheld]
      exact or_iff_left hne
    · rw [hheld]
      exact .inr rfl
  | cleared hchanges hwait hrequest hregistered hheld =>
    refine hkeep (fun i _ hne ↦ ?_) hchanges ⟨hwait, hregistered, .inr ⟨hrequest, ?_⟩⟩
    · rw [hheld]
      exact and_iff_left hne
    · rw [hheld]
      exact fun hno ↦ hno.2 rfl

theorem AgreeInv.report {s : State} (h : AgreeInv s) (hslots : SlotsInv s)
    (hanswer : tabled s.master.state.latest.request = true →
      (s.master.state.control.response = .ack ↔ s.moved = true)) :
    (∀ i, ((reported s .report).createdSlave i).pid = (s.registry.createdSlave i).pid) ∧
      (reported s .report).masterPid = s.registry.masterPid ∧
      ∀ i, (s.registry.createdSlave i).pid ≠ noPid →
        (((reported s .report).createdSlave i).connected = true ↔
          Held s (s.registry.createdSlave i).pid) := by
  -- the entry is set to what the slot table has become
  have hset (connected : Bool) (htabled : tabled s.master.state.latest.request = true)
      (hheld : s.moved = true → (connected = true ↔ Held s s.master.state.latest.pid)) :
      (∀ i, ((waitSlaveResponse connected s.master.state.latest.pid
          (some s.master.state.control.response) s.registry).createdSlave i).pid =
        (s.registry.createdSlave i).pid) ∧
      (waitSlaveResponse connected s.master.state.latest.pid
        (some s.master.state.control.response) s.registry).masterPid = s.registry.masterPid ∧
      ∀ i, (s.registry.createdSlave i).pid ≠ noPid →
        (((waitSlaveResponse connected s.master.state.latest.pid
          (some s.master.state.control.response) s.registry).createdSlave i).connected = true ↔
          Held s (s.registry.createdSlave i).pid) := by
    unfold waitSlaveResponse
    by_cases hack : s.master.state.control.response = .ack
    · have hmoved := (hanswer htabled).mp hack
      have hr := (h.moved hmoved).2.1
      obtain ⟨k, hk, hpid⟩ := hr.lookup (hslots.pos hr).le
      rw [if_pos (by rw [hack])]
      simp only [Configurator.State.setCreated, hk]
      refine ⟨fun i ↦ ?_, trivial, fun i hi ↦ ?_⟩
      · by_cases hik : i = k
        · rw [hik, update_self]
        · rw [update_of_ne hik]
      · by_cases hik : i = k
        · rw [hik, update_self, hpid]
          exact hheld hmoved
        · rw [update_of_ne hik]
          exact h.agree i hi fun _ heq ↦ hik (hslots.once i k hi (heq.trans hpid.symm))
    · rw [if_neg (by simpa using hack)]
      have hmoved : s.moved = false := by
        rw [Bool.eq_false_iff]
        exact fun hm ↦ hack ((hanswer htabled).mpr hm)
      exact ⟨fun _ ↦ rfl, rfl, h.settled hmoved⟩
  unfold reported
  cases hrequest : s.master.state.latest.request with
  | connectSlave =>
    refine hset true (by rw [hrequest]; rfl) fun hmoved ↦ ?_
    rcases (h.moved hmoved).2.2 with ⟨-, hheld⟩ | ⟨hother, -⟩
    · simp [hheld]
    · rw [hrequest] at hother
      cases hother
  | disconnectSlave =>
    refine hset false (by rw [hrequest]; rfl) fun hmoved ↦ ?_
    rcases (h.moved hmoved).2.2 with ⟨hother, -⟩ | ⟨-, hheld⟩
    · rw [hrequest] at hother
      cases hother
    · simp [hheld]
  | _ =>
    have hmoved : s.moved = false := by
      rw [Bool.eq_false_iff]
      intro hm
      rcases (h.moved hm).2.2 with ⟨hother, -⟩ | ⟨hother, -⟩
      all_goals
        rw [hrequest] at hother
        cases hother
    exact ⟨fun _ ↦ rfl, rfl, h.settled hmoved⟩

structure JointInv (s : State) : Prop where
  answer : AnswerInv False s.master
  slots : SlotsInv s
  phase : PhaseInv s.master s.moved
  agree : AgreeInv s

theorem OwnerFrame.held {s t : State} (hf : OwnerFrame s t) (pid : Pid) :
    Held t pid ↔ Held s pid := held_congr hf.isConnected (fun i _ ↦ hf.pid i) pid

theorem awaits_latest {s : State} {request : Request} {k : ℕ} {i : Idx}
    (h : awaits s request k i = true) : s.master.state.latest = ⟨k, request, (s.seg i).pid⟩ :=
  (of_decide_eq_true h).2

theorem holds_of_changes {s : State} {t : Thread} (hok : threadKept s t = true)
    (hchanges : threadChanges t = true) : threadHolds t = some s.master.state.latest.id := by
  unfold threadChanges at hchanges
  split at hchanges
  · rename_i pid i pc hpc
    unfold changes at hchanges
    split at hchanges
    · simp only [threadKept, hpc] at hok
      simp [threadHolds, hpc, MasterAnswer.slotHolds, awaits_latest hok]
    · simp only [threadKept, hpc, Bool.decide_and, Bool.decide_eq_true, Bool.and_eq_true] at hok
      simp [threadHolds, hpc, MasterAnswer.slotHolds, awaits_latest hok.1]
    · cases hchanges
  · cases hchanges

theorem threadStep_inv {s : State} {t : Traced} {j : ℕ} {mustChange killed : Bool}
    (h : JointInv s) (hmaster : s.registry.masterPid ≠ noPid)
    (hok : kept s (.master (.thread j mustChange killed)) = true)
    (hs : MasterAnswer.step s.master (.thread j mustChange killed) = some t) :
    JointInv { s with
      master := t
      moved := movedAfter s (.thread j mustChange killed) } := by
  have hok : MasterAnswer.responsesSent s.master (.thread j mustChange killed) = true ∧
      masterKept s (.thread j mustChange killed) = true := of_decide_eq_true hok
  obtain ⟨u, hu, rfl⟩ := Option.map_eq_some_iff.mp hs
  obtain ⟨thread, ht, hmove⟩ := threadStep_ownerMove (t := { s with
    master := ⟨u, s.master.taken ++ (MasterAnswer.takenBy s.master.state
        (.thread j mustChange killed)).toList,
      s.master.answers ++ (MasterAnswer.answeredBy s.master.state
        (.thread j mustChange killed)).toList,
      MasterAnswer.outstandingAfter s.master.state s.master.outstanding
        (.thread j mustChange killed)⟩
    moved := movedAfter s (.thread j mustChange killed) }) h.answer hu
  have hkept : threadKept s thread = true := by simpa [masterKept, ht] using hok.2
  have hmoved : movedAfter s (.thread j mustChange killed) = (s.moved || threadChanges thread) := by
    simp only [movedAfter, ht]
  refine ⟨MasterAnswer.step_inv h.answer hok.1 (fun hf ↦ hf.elim) hs,
    h.slots.thread hmove hkept hmaster rfl h.agree.awaited,
    h.phase.thread h.answer hok.1 (fun w hw ↦ ?_) hs,
    h.agree.thread (hmove.held h.slots hkept) (Master.threadStep_frame hu) rfl hmoved⟩
  obtain rfl : thread = w := Option.some.inj (ht.symm.trans hw)
  exact ⟨hmoved, holds_of_changes hkept⟩

theorem syncStep_inv {s : State} {t : Traced} {created killed : Bool} (h : JointInv s)
    (hs : MasterAnswer.step s.master (.sync created killed) = some t) :
    JointInv { s with master := t } := by
  obtain ⟨u, hu, rfl⟩ := Option.map_eq_some_iff.mp hs
  have hf := Master.syncStep_frame hu
  have hawaiting : awaiting u = awaiting s.master.state := by
    rw [awaiting, hf.configurator, awaiting]
  have howner : OwnerFrame s { s with master := ⟨u, s.master.taken ++
      (MasterAnswer.takenBy s.master.state (.sync created killed)).toList, s.master.answers ++
      (MasterAnswer.answeredBy s.master.state (.sync created killed)).toList,
      MasterAnswer.outstandingAfter s.master.state s.master.outstanding (.sync created killed)⟩ } :=
    step_ownerFrame hu (by simp)
  exact ⟨MasterAnswer.step_inv h.answer rfl (fun hf ↦ hf.elim) hs,
    h.slots.keep howner (fun _ ↦ rfl) h.slots.masterless, h.phase.syncStep h.answer h.agree.fit hu,
    h.agree.frame howner.held rfl rfl hf.latest hawaiting (fun hn ↦ hf.configurator ▸ hn) hf.request
      hf.affected⟩

/-- The master is left alone. -/
structure MasterFrame (s u : Master.State) : Prop where
  pid : ∀ i, (u.slots i).seg.pid = (s.slots i).seg.pid
  isConnected : ∀ i, (u.slots i).seg.isConnected = (s.slots i).seg.isConnected
  semMToSRequest : ∀ i, (u.slots i).seg.semMToSRequest = (s.slots i).seg.semMToSRequest
  reqMToS : ∀ i, (u.slots i).seg.reqMToS = (s.slots i).seg.reqMToS
  written : ∀ i, (u.slots i).written = (s.slots i).written
  threads : u.threads = s.threads
  sync : u.sync = s.sync
  answerTo : u.answerTo = s.answerTo
  response : u.control.response = s.control.response

theorem MasterFrame.of_slots {s u : Master.State} (hslots : u.slots = s.slots)
    (hthreads : u.threads = s.threads) (hsync : u.sync = s.sync)
    (hanswerTo : u.answerTo = s.answerTo) (hresponse : u.control.response = s.control.response) :
    MasterFrame s u := by
  refine ⟨?_, ?_, ?_, ?_, ?_, hthreads, hsync, hanswerTo, hresponse⟩
  all_goals
    intro i
    rw [hslots]

theorem MasterFrame.setSeg {s : Master.State} {i : Idx} {seg : Shmseg}
    (hpid : seg.pid = (s.slots i).seg.pid)
    (hconnected : seg.isConnected = (s.slots i).seg.isConnected)
    (hsem : seg.semMToSRequest = (s.slots i).seg.semMToSRequest)
    (hword : seg.reqMToS = (s.slots i).seg.reqMToS) : MasterFrame s (s.setSeg i seg) := by
  refine ⟨fun k ↦ ?_, fun k ↦ ?_, fun k ↦ ?_, fun k ↦ ?_, fun k ↦ ?_, rfl, rfl, rfl, rfl⟩
  · exact Master.update_kept (·.seg.pid : Master.Slot → Pid) hpid k
  · exact Master.update_kept (·.seg.isConnected : Master.Slot → Bool) hconnected k
  · exact Master.update_kept (·.seg.semMToSRequest : Master.Slot → ℕ) hsem k
  · exact Master.update_kept (·.seg.reqMToS : Master.Slot → Request) hword k
  · exact Master.update_kept Master.Slot.written (by rfl) k

theorem MasterFrame.deliver (pid : Pid) (signal : Signal) (s : Master.State) :
    MasterFrame s (Master.deliverStep pid signal s) := by
  have hf := Master.deliverStep_frame pid signal s
  refine ⟨?_, ?_, ?_, ?_, Master.deliverStep_written pid signal s,
    Master.deliverStep_threads pid signal s, hf.sync, ?_, ?_⟩
  iterate 4
    · intro i
      rw [Master.deliverStep_seg]
  all_goals
    unfold Master.deliverStep
    split <;> rfl

theorem MasterFrame.trans {s t u : Master.State} (h : MasterFrame s t) (h' : MasterFrame t u) :
    MasterFrame s u :=
  ⟨fun i ↦ (h'.pid i).trans (h.pid i), fun i ↦ (h'.isConnected i).trans (h.isConnected i),
    fun i ↦ (h'.semMToSRequest i).trans (h.semMToSRequest i),
    fun i ↦ (h'.reqMToS i).trans (h.reqMToS i), fun i ↦ (h'.written i).trans (h.written i),
    h'.threads.trans h.threads, h'.sync.trans h.sync, h'.answerTo.trans h.answerTo,
    h'.response.trans h.response⟩

theorem MasterFrame.owner {s : State} {u : Master.State} (hf : MasterFrame s.master.state u)
    {r : Configurator.State} {a : Option Automatic} {moved : Bool} :
    OwnerFrame s { s.setMaster u with
      registry := r
      automatic := a
      moved := moved } :=
  ⟨hf.pid, hf.isConnected, fun i ↦ by
    unfold Clearing
    rw [← hf.threads]
    rfl⟩

theorem MasterFrame.answer {t : Traced} {u : Master.State} (hf : MasterFrame t.state u)
    (h : AnswerInv False t) (hids : t.state.latest.id ≤ u.latest.id)
    (hpending : u.pendingMaster = true → u.latest.id ∉ t.taken)
    (hreading : ∀ c, t.state.sync = .readRequest c → u.pendingMaster = true → c.id ≠ u.latest.id) :
    AnswerInv False { t with state := u } := by
  refine h.keep (fun i ↦ ⟨hf.semMToSRequest i, hf.written i⟩) hf.threads (hf.sync ▸ rfl)
    (fun i ↦ hf.sync ▸ id) (fun _ _ _ _ ↦ hf.sync ▸ id) hids hpending fun c hc ↦ ?_
  rw [hf.sync] at hc
  obtain ⟨hfresh, hle, -⟩ := h.reading c hc
  exact ⟨hfresh, hle.trans hids, hreading c hc⟩

theorem JointInv.frame {s : State} (h : JointInv s) {u : Master.State}
    (hf : MasterFrame s.master.state u) (hlatest : u.latest = s.master.state.latest)
    (hpending : u.pendingMaster = s.master.state.pendingMaster)
    (hawaiting : awaiting u = awaiting s.master.state)
    (hnamed : u.configurator = .named → s.master.state.configurator = .named)
    (hrequest : u.control.request = s.master.state.control.request)
    (haffected : u.control.affectedSlavePid = s.master.state.control.affectedSlavePid) :
    JointInv (s.setMaster u) := by
  have howner : OwnerFrame s (s.setMaster u) := hf.owner
  refine ⟨hf.answer h.answer (hlatest ▸ le_rfl) ?_ fun c hc ↦ ?_,
    h.slots.keep howner (fun _ ↦ rfl) h.slots.masterless,
    h.phase.keep (fun i ↦ ⟨hf.written i, hf.reqMToS i⟩) hf.threads hf.sync hlatest hf.answerTo
      hf.response fun hwait ↦ hawaiting ▸ hwait,
    h.agree.frame howner.held rfl rfl hlatest hawaiting hnamed hrequest haffected⟩
  · rw [hpending, hlatest]
    exact h.answer.pending
  · rw [hpending, hlatest]
    exact (h.answer.reading c hc).2.2

theorem JointInv.turn {s : State} (h : JointInv s) {u : Master.State} {r : Configurator.State}
    {a : Option Automatic} {moved : Bool} (hmoved : moved = false)
    (hf : MasterFrame s.master.state u)
    (hlatest : u.latest = s.master.state.latest)
    (hpending : u.pendingMaster = s.master.state.pendingMaster)
    (hslots : SlotsInv { s.setMaster u with
      registry := r
      automatic := a
      moved := moved })
    (hidle : awaiting u = false)
    (hnamed : u.configurator = .named → u.control.request = .connectSlave →
      Registered r u.control.affectedSlavePid)
    (hagree : ∀ i, (r.createdSlave i).pid ≠ noPid →
      ((r.createdSlave i).connected = true ↔ Held s (r.createdSlave i).pid)) :
    JointInv { s.setMaster u with
      registry := r
      automatic := a
      moved := moved } := by
  refine ⟨hf.answer h.answer (hlatest ▸ le_rfl) ?_ fun c hc ↦ ?_, hslots, ?_, ?_⟩
  · rw [hpending, hlatest]
    exact h.answer.pending
  · rw [hpending, hlatest]
    exact (h.answer.reading c hc).2.2
  · refine PhaseInv.idle (h.phase.keep (fun i ↦ ⟨hf.written i, hf.reqMToS i⟩) hf.threads hf.sync
      hlatest hf.answerTo hf.response fun hwait ↦ ?_) hidle
    exact absurd (hidle.symm.trans hwait) Bool.false_ne_true
  · exact .of_idle (fun i hi ↦ (hagree i hi).trans (hf.owner.held _).symm) hmoved hidle hnamed

theorem JointInv.renew {s : State} (h : JointInv s) {u : Master.State}
    (hf : MasterFrame s.master.state u) (hslots : u.slots = s.master.state.slots)
    (hlatest : u.latest = ⟨s.master.state.latest.id + 1, s.master.state.control.request,
      s.master.state.control.affectedSlavePid⟩)
    (hcontrol : u.control = s.master.state.control) (hconfigurator : u.configurator = .waiting)
    (hnamed : s.master.state.configurator = .named) :
    JointInv { s.setMaster u with moved := false } := by
  have howner : OwnerFrame s { s.setMaster u with moved := false } := hf.owner
  have hid : u.latest.id = s.master.state.latest.id + 1 := by rw [hlatest]
  have hmoved := h.agree.unmoved (by simp [awaiting, hnamed])
  refine ⟨hf.answer h.answer (hid ▸ Nat.le_succ _) (fun _ hmem ↦ ?_) fun c hc _ ↦ ?_,
    h.slots.keep howner (fun _ ↦ rfl) h.slots.masterless,
    h.phase.renew h.answer hslots hf.threads hf.sync hid hf.answerTo,
    ⟨fun i hi _ ↦ ?_, fun hm ↦ absurd hm Bool.false_ne_true, fun _ hr ↦ ?_, fun hn ↦ ?_,
      fun _ ↦ ?_⟩⟩
  · rw [hid] at hmem
    exact absurd (h.answer.ids _ hmem) (Nat.not_succ_le_self _)
  · rw [hid]
    exact (Nat.lt_succ_of_le (h.answer.reading c hc).2.1).ne
  · exact (h.agree.settled hmoved i hi).trans (howner.held _).symm
  · change u.latest.request = _ at hr
    change Registered s.registry u.latest.pid
    rw [hlatest] at hr ⊢
    exact h.agree.named hnamed hr
  · change u.configurator = _ at hn
    rw [hconfigurator] at hn
    cases hn
  · change u.control.request = u.latest.request
    rw [hcontrol, hlatest]

theorem registered_of_offered {r : Configurator.State} {pid : Pid}
    (h : pid ∈ disconnectedPids r.createdSlave) :
    ∃ i, (r.createdSlave i).pid = pid ∧ pid ≠ noPid ∧ (r.createdSlave i).connected = false := by
  obtain ⟨i, -, hi⟩ := List.mem_filterMap.mp h
  split_ifs at hi with hno
  push Not at hno
  obtain rfl := Option.some.inj hi
  exact ⟨i, rfl, hno.1, by simpa using hno.2⟩

theorem masterStep_inv {s t : State} {e : Master.Event} (h : JointInv s)
    (hok : kept s (.master e) = true) (hs : step s (.master e) = some t) : JointInv t := by
  obtain ⟨hperm, hs⟩ := Option.ite_none_right_eq_some.mp hs
  obtain ⟨m, hm, rfl⟩ := Option.map_eq_some_iff.mp hs
  have hkept : masterKept s e = true := (of_decide_eq_true hok : _ ∧ _).2
  cases e with
  | thread j mustChange killed => exact threadStep_inv h (of_decide_eq_true hperm) hok hm
  | sync created killed => exact syncStep_inv h hm
  | deliver pid signal =>
    obtain ⟨u, hu, rfl⟩ := Option.map_eq_some_iff.mp hm
    obtain rfl := Option.some.inj hu
    have hf := Master.deliverStep_frame pid signal s.master.state
    simp only [MasterAnswer.takenBy, MasterAnswer.answeredBy, MasterAnswer.outstandingAfter,
      Option.toList_none, List.append_nil]
    exact h.frame (.deliver pid signal s.master.state) hf.latest hf.pendingMaster
      (by rw [awaiting, hf.configurator, awaiting]) (hf.configurator ▸ id) hf.request hf.affected
  | slave i w | configure i requestedParameters communicationCycleUs =>
    obtain ⟨u, hu, rfl⟩ := Option.map_eq_some_iff.mp hm
    obtain rfl := Option.some.inj hu
    simp only [MasterAnswer.takenBy, MasterAnswer.answeredBy, MasterAnswer.outstandingAfter,
      Option.toList_none, List.append_nil]
    exact h.frame (.setSeg rfl rfl rfl rfl) rfl rfl rfl id rfl rfl
  | take =>
    obtain ⟨u, hu, rfl⟩ := Option.map_eq_some_iff.mp hm
    obtain ⟨⟨hwaiting, -⟩, hu⟩ := Option.ite_none_right_eq_some.mp hu
    obtain rfl := Option.some.inj hu
    simp only [MasterAnswer.takenBy, MasterAnswer.answeredBy, MasterAnswer.outstandingAfter,
      Option.toList_none, List.append_nil]
    exact h.frame (.of_slots rfl rfl rfl rfl rfl) rfl rfl (by simp [awaiting, hwaiting]) (by simp)
      rfl rfl
  | send =>
    obtain ⟨u, hu, rfl⟩ := Option.map_eq_some_iff.mp hm
    obtain ⟨hnamed, hu⟩ := Option.ite_none_right_eq_some.mp hu
    obtain rfl := Option.some.inj hu
    simp only [MasterAnswer.takenBy, MasterAnswer.answeredBy, MasterAnswer.outstandingAfter,
      Option.toList_none, List.append_nil]
    exact h.renew (.of_slots rfl rfl rfl rfl rfl) rfl rfl rfl rfl hnamed
  | report =>
    obtain ⟨u, hu, rfl⟩ := Option.map_eq_some_iff.mp hm
    obtain ⟨hreading, hu⟩ := Option.ite_none_right_eq_some.mp hu
    obtain rfl := Option.some.inj hu
    have hwait : awaiting s.master.state = true := by simp [awaiting, hreading]
    obtain ⟨hpid, hmaster, hagree⟩ := h.agree.report h.slots fun htabled ↦
      (h.phase.phase hwait htabled).answered (of_decide_eq_true hkept htabled)
    have hf : MasterFrame s.master.state { s.master.state with configurator := .menu } :=
      .of_slots rfl rfl rfl rfl rfl
    simp only [MasterAnswer.takenBy, MasterAnswer.answeredBy, MasterAnswer.outstandingAfter,
      Option.toList_none, List.append_nil]
    refine h.turn rfl hf rfl rfl (h.slots.keep hf.owner hpid fun hnone ↦ ?_) rfl (by simp)
      fun i hi ↦ ?_
    · exact h.slots.masterless (hmaster ▸ hnone)
    · rw [hpid] at hi ⊢
      exact hagree i hi
  | name pid =>
    obtain ⟨u, hu, rfl⟩ := Option.map_eq_some_iff.mp hm
    obtain ⟨⟨htyped, -, -⟩, hu⟩ := Option.ite_none_right_eq_some.mp hu
    obtain rfl := Option.some.inj hu
    have hmoved := h.agree.unmoved (by simp [awaiting, htyped])
    have hf : MasterFrame s.master.state { s.master.state with
      control.affectedSlavePid := pid
      configurator := .named } := .of_slots rfl rfl rfl rfl rfl
    simp only [MasterAnswer.takenBy, MasterAnswer.answeredBy, MasterAnswer.outstandingAfter,
      Option.toList_none, List.append_nil]
    refine h.turn hmoved hf rfl rfl (h.slots.keep hf.owner (fun _ ↦ rfl) h.slots.masterless) rfl
      (fun _ hconnect ↦ ?_) (h.agree.settled hmoved)
    obtain ⟨i, hi, hne, -⟩ := registered_of_offered (of_decide_eq_true hperm hconnect)
    exact ⟨hne, i, hi⟩
  | type request =>
    obtain ⟨u, hu, rfl⟩ := Option.map_eq_some_iff.mp hm
    obtain ⟨hmenu, hu⟩ := Option.ite_none_right_eq_some.mp hu
    obtain rfl := Option.some.inj hu
    have hmoved := h.agree.unmoved (by simp [awaiting, hmenu])
    have hf : MasterFrame s.master.state { s.master.state with
      control.request := request
      configurator := .typed } := .of_slots rfl rfl rfl rfl rfl
    simp only [MasterAnswer.takenBy, MasterAnswer.answeredBy, MasterAnswer.outstandingAfter,
      Option.toList_none, List.append_nil]
    exact h.turn hmoved hf rfl rfl (h.slots.keep hf.owner (fun _ ↦ rfl) h.slots.masterless) rfl
      (by simp) (h.agree.settled hmoved)
  | abandon =>
    obtain ⟨u, hu, rfl⟩ := Option.map_eq_some_iff.mp hm
    obtain ⟨htyped, hu⟩ := Option.ite_none_right_eq_some.mp hu
    obtain rfl := Option.some.inj hu
    have hmoved := h.agree.unmoved (by simp [awaiting, htyped])
    have hf : MasterFrame s.master.state { s.master.state with configurator := .menu } :=
      .of_slots rfl rfl rfl rfl rfl
    simp only [MasterAnswer.takenBy, MasterAnswer.answeredBy, MasterAnswer.outstandingAfter,
      Option.toList_none, List.append_nil]
    exact h.turn hmoved hf rfl rfl (h.slots.keep hf.owner (fun _ ↦ rfl) h.slots.masterless) rfl
      (by simp) (h.agree.settled hmoved)
  | timeout =>
    obtain ⟨u, hu, rfl⟩ := Option.map_eq_some_iff.mp hm
    obtain ⟨-, hu⟩ := Option.ite_none_right_eq_some.mp hu
    obtain rfl := Option.some.inj hu
    have hf : MasterFrame s.master.state { s.master.state with configurator := .menu } :=
      .of_slots rfl rfl rfl rfl rfl
    simp only [MasterAnswer.takenBy, MasterAnswer.answeredBy, MasterAnswer.outstandingAfter,
      Option.toList_none, List.append_nil]
    exact h.turn rfl hf rfl rfl (h.slots.keep hf.owner (fun _ ↦ rfl) h.slots.masterless) rfl
      (by simp) (h.agree.settled (of_decide_eq_true hkept))

theorem forkSlave_entry {s : State} {fork : Fork} (h : newSlave s fork = true) :
    ∃ i, (s.registry.createdSlave i).pid = noPid ∧ 0 < fork.pid ∧
      ¬ Registered s.registry fork.pid ∧
      (forkSlave fork s.registry).createdSlave =
        update s.registry.createdSlave i ⟨fork.pid, false⟩ ∧
      (forkSlave fork s.registry).masterPid = s.registry.masterPid := by
  obtain ⟨hne, hfresh, hfree⟩ := of_decide_eq_true h
  cases fork with
  | failed => exact absurd rfl hne
  | child n =>
    have hpos : (0 : Int) < (n : Int) + 1 := by omega
    obtain ⟨i, hi, hfree⟩ := ConfiguratorSafety.exists_lookup
      (p := fun i ↦ (s.registry.createdSlave i).pid = noPid) (Int.tmod_nonneg _ hpos.le)
      (hfree.imp fun _ ↦ decide_eq_true)
    refine ⟨i, of_decide_eq_true hfree, hpos, hfresh, ?_, ?_⟩
    all_goals
      simp [forkSlave, Configurator.registerSlaveLocally, Configurator.assignLocalIdx, Fork.pid,
        Configurator.State.setCreated, hi]

theorem JointInv.forked {s : State} (h : JointInv s) {fork : Fork} (hnew : newSlave s fork = true)
    (hidle : awaiting s.master.state = false) {u : Master.State} {a : Option Automatic}
    (hf : MasterFrame s.master.state u) (hlatest : u.latest = s.master.state.latest)
    (hpending : u.pendingMaster = s.master.state.pendingMaster)
    (hmenu : u.configurator = .menu) :
    JointInv { s.setMaster u with
      registry := forkSlave fork s.registry
      automatic := a } := by
  obtain ⟨i, hfree, hpos, hfresh, hcreated, hmaster⟩ := forkSlave_entry hnew
  have hmoved := h.agree.unmoved hidle
  refine h.turn hmoved hf hlatest hpending (h.slots.set_entry hf.owner hcreated hmaster
    (fun hne ↦ absurd hfree hne) fun _ ↦ ⟨hpos, hfresh⟩) (by simp [awaiting, hmenu])
    (by simp [hmenu]) fun k hk ↦ ?_
  rw [hcreated] at hk ⊢
  by_cases hki : k = i
  · rw [hki, update_self]
    refine iff_of_false Bool.false_ne_true ?_
    rintro ⟨l, hl, hc⟩
    have hr := h.slots.connected l hc
    rw [hl] at hr
    exact hfresh hr
  · rw [update_of_ne hki] at hk ⊢
    exact h.agree.settled hmoved k hk

theorem JointInv.passed {s : State} (h : JointInv s) (hidle : awaiting s.master.state = false)
    {u : Master.State} {r : Configurator.State} {a : Option Automatic}
    (hf : MasterFrame s.master.state u) (hlatest : u.latest = s.master.state.latest)
    (hpending : u.pendingMaster = s.master.state.pendingMaster)
    (hregistry : r.createdSlave = s.registry.createdSlave)
    (hmaster : r.masterPid = noPid → s.registry.masterPid = noPid)
    (hidle' : awaiting u = false)
    (hnamed : u.configurator = .named → u.control.request = .connectSlave →
      Registered s.registry u.control.affectedSlavePid) :
    JointInv { s.setMaster u with
      registry := r
      automatic := a } := by
  have hmoved := h.agree.unmoved hidle
  refine h.turn hmoved hf hlatest hpending (h.slots.keep hf.owner (fun i ↦ by rw [hregistry])
    fun hnone ↦ h.slots.masterless (hmaster hnone)) hidle' ?_ ?_
  · rw [Registered, hregistry]
    exact hnamed
  · rw [hregistry]
    exact h.agree.settled hmoved

theorem JointInv.deleted {s : State} (h : JointInv s) {inserted : Option Pid} {killed : Bool}
    (hok : kept s (.deleteSlave inserted killed) = true)
    (hidle : awaiting s.master.state = false) :
    JointInv { s.toMenu with registry := deleteSlave inserted killed s.registry } := by
  have hf : MasterFrame s.master.state { s.master.state with configurator := .menu } :=
    .of_slots rfl rfl rfl rfl rfl
  have hmoved := h.agree.unmoved hidle
  unfold deleteSlave
  split
  · exact h.passed hidle hf rfl rfl rfl id rfl (by simp)
  · rename_i pid hchosen
    split_ifs with hkilled
    · have hoffered : pid ∈ disconnectedPids s.registry.createdSlave :=
        of_decide_eq_true (Option.mem_filter_iff.mp hchosen).2
      obtain ⟨j, hj, hne, -⟩ := registered_of_offered hoffered
      have hr : Registered s.registry pid := ⟨hne, j, hj⟩
      obtain ⟨k, hk, hpid⟩ := hr.lookup (h.slots.pos hr).le
      have hcreated : (Configurator.unregisterSlaveLocally pid
          (Configurator.sendDeleteSlaveRequest pid s.registry)).createdSlave =
          update s.registry.createdSlave k ⟨noPid, false⟩ := by
        simp [Configurator.unregisterSlaveLocally, Configurator.sendDeleteSlaveRequest,
          Configurator.State.emit, Configurator.State.setCreated, hk]
      have hmaster : (Configurator.unregisterSlaveLocally pid
          (Configurator.sendDeleteSlaveRequest pid s.registry)).masterPid =
          s.registry.masterPid := by
        simp [Configurator.unregisterSlaveLocally, Configurator.sendDeleteSlaveRequest,
          Configurator.State.emit, Configurator.State.setCreated, hk]
      refine h.turn hmoved hf rfl rfl (h.slots.set_entry hf.owner hcreated hmaster (fun _ l ↦ ?_)
        fun hno ↦ absurd rfl hno) rfl (by simp) fun l hl ↦ ?_
      · rw [hpid]
        exact (of_decide_eq_true hok) hkilled pid hchosen l
      · rw [hcreated] at hl ⊢
        by_cases hlk : l = k
        · rw [hlk, update_self] at hl
          exact absurd rfl hl
        · rw [update_of_ne hlk] at hl ⊢
          exact h.agree.settled hmoved l hl
    · exact h.passed hidle hf rfl rfl rfl id rfl (by simp)

theorem JointInv.replaced {s : State} (h : JointInv s) (hidle : awaiting s.master.state = false)
    (hfree : ∀ i, (s.seg i).pid = noPid) {u : Master.State} {r : Configurator.State}
    {a : Option Automatic} (hslots : ∀ i, (u.slots i).seg.pid = noPid ∧
      (u.slots i).seg.isConnected = false ∧ (u.slots i).seg.semMToSRequest ≤ 1 ∧
      (u.slots i).written ≤ s.master.state.latest.id)
    (hthreads : u.threads = []) (hsync : u.sync = .sigwaitinfo) (hpending : u.pendingMaster = false)
    (hlatest : u.latest = s.master.state.latest) (hanswerTo : u.answerTo = s.master.state.answerTo)
    (hmenu : u.configurator = .menu) (hregistry : r.createdSlave = s.registry.createdSlave) :
    JointInv ⟨⟨u, s.master.taken, s.master.answers, fun _ ↦ none⟩, r, a, s.moved⟩ := by
  have hmoved := h.agree.unmoved hidle
  have hidle' : awaiting u = false := by simp [awaiting, hmenu]
  refine ⟨⟨fun k ↦ ?_, fun i ↦ ?_, by simp, by simp [hsync], by simp [hthreads], ?_,
    by simp [hpending], by simp [hsync], h.answer.nodup⟩,
    ⟨?_, ?_, fun i j hi ↦ absurd (hslots i).1 hi,
    fun i hi ↦ absurd (hslots i).1 hi, fun i hi ↦ ?_, fun i hi ↦ ?_, fun _ i ↦ (hslots i).1⟩,
    .of_idle (fun i ↦ ?_) ?_ hthreads hidle', .of_idle (fun i hi ↦ ?_) hmoved hidle' ?_⟩
  · obtain ⟨drops, hk, -⟩ := h.answer.counts k
    have hnone : obligations ⟨u, s.master.taken, s.master.answers, fun _ ↦ none⟩ k = 0 := by
      have hentered : entered (fun _ : Idx ↦ (none : Option ℕ)) (some k) = 0 :=
        entered_const (Option.some_ne_none k).symm
      simp [obligations, hsync, hthreads, syncHolds, hentered]
    refine ⟨s.master.taken.count k - s.master.answers.count k, ?_, False.elim⟩
    rw [hnone]
    dsimp only
    omega
  · have hle := (hslots i).2.2.1
    simpa [MasterAnswer.keepers, hsync, hthreads, MasterAnswer.syncKeeps] using hle
  · dsimp only
    rw [hlatest]
    exact h.answer.ids
  · dsimp only
    rw [hregistry]
    exact h.slots.once
  · dsimp only
    rw [hregistry]
    exact h.slots.positive
  · exact absurd ((hslots i).2.1.symm.trans hi) Bool.false_ne_true
  · simp [Clearing, hthreads] at hi
  · dsimp only
    rw [hlatest]
    exact (hslots i).2.2.2
  · dsimp only
    rw [hanswerTo, hlatest]
    exact h.phase.answerTo
  · dsimp only at hi ⊢
    rw [hregistry] at hi ⊢
    rw [h.agree.settled hmoved i hi]
    refine iff_of_false ?_ ?_
    · rintro ⟨l, -, hc⟩
      exact absurd ((h.slots.unconnected_free (hfree l)).symm.trans hc) Bool.false_ne_true
    · rintro ⟨l, -, hc⟩
      exact absurd ((hslots l).2.1.symm.trans hc) Bool.false_ne_true
  · simp [hmenu]

theorem deleteSlaves_free {seg : Idx → Segment} (hfree : ∀ i, (seg i).pid = noPid) (is : List Idx)
    (r : Configurator.State) : (deleteSlaves seg is r).createdSlave = r.createdSlave ∧
      (deleteSlaves seg is r).masterPid = r.masterPid := by
  induction is generalizing r with
  | nil => exact ⟨rfl, rfl⟩
  | cons i is ih =>
    rw [deleteSlaves, if_pos (hfree i)]
    exact ih (r.emit .read)

theorem JointInv.stopped {s t : State} (h : JointInv s) {seg : Idx → Segment} {killed : Bool}
    (hok : kept s (.stopMaster seg killed) = true) (hs : step s (.stopMaster seg killed) = some t) :
    JointInv t := by
  obtain ⟨htyped, hs⟩ := Option.ite_none_right_eq_some.mp hs
  have hidle : awaiting s.master.state = false := by
    simp [awaiting, (of_decide_eq_true htyped : _ ∧ _).1]
  have hf : MasterFrame s.master.state { s.master.state with configurator := .menu } :=
    .of_slots rfl rfl rfl rfl rfl
  by_cases hnone : s.registry.masterPid = noPid
  · rw [if_neg (fun hc ↦ hc.1 hnone), stopMaster, if_pos hnone] at hs
    rw [← Option.some.inj hs]
    exact h.passed hidle hf rfl rfl rfl id rfl (by simp)
  · have hfree := of_decide_eq_true hok hnone
    obtain ⟨hcreated, hmaster⟩ := deleteSlaves_free (fun i ↦ (hfree i).1)
      (List.finRange maxSlaves) s.registry
    cases killed with
    | false =>
      rw [if_neg (by simp), stopMaster, if_neg hnone] at hs
      rw [← Option.some.inj hs]
      exact h.passed hidle hf rfl rfl hcreated (fun hno ↦ hmaster ▸ hno) rfl (by simp)
    | true =>
      rw [if_pos ⟨hnone, rfl⟩, stopMaster, if_neg hnone] at hs
      rw [← Option.some.inj hs]
      refine h.replaced hidle (fun i ↦ (hfree i).2) (fun i ↦ ⟨(hfree i).2, ?_, ?_, ?_⟩) rfl rfl rfl
        rfl rfl rfl hcreated
      · exact h.slots.unconnected_free (hfree i).2
      · exact (Nat.le_add_right _ _).trans (h.answer.keepers i)
      · exact h.phase.written i

theorem JointInv.startedMaster {s t : State} (h : JointInv s) {fork : Fork}
    {signalled found left : Bool} (hs : step s (.startMaster fork signalled found left) = some t) :
    JointInv t := by
  obtain ⟨⟨htyped, -⟩, hs⟩ := Option.ite_none_right_eq_some.mp hs
  have hidle : awaiting s.master.state = false := by
    simp [awaiting, (of_decide_eq_true htyped : _ ∧ _).1]
  by_cases hnone : s.registry.masterPid = noPid
  · rw [if_neg (not_not_intro hnone)] at hs
    rw [← Option.some.inj hs]
    have hregistry : (startMaster fork signalled found s.registry).createdSlave =
        s.registry.createdSlave := by
      rw [startMaster, if_neg (not_not_intro hnone)]
    by_cases hfork : fork = .failed
    · simp only [startedBy, if_pos hfork]
      exact h.passed hidle (u := { s.master.state with
          pendingConfigurator := left
          configurator := .menu }) (.of_slots rfl rfl rfl rfl rfl) rfl rfl hregistry
        (fun _ ↦ hnone) rfl (by simp)
    · simp only [startedBy, if_neg hfork]
      exact h.replaced hidle (h.slots.masterless hnone)
        (fun i ↦ ⟨rfl, rfl, le_rfl, Nat.zero_le _⟩) rfl rfl rfl rfl rfl rfl hregistry
  · rw [if_pos hnone] at hs
    rw [← Option.some.inj hs]
    exact h.passed hidle (u := { s.master.state with configurator := .menu })
      (.of_slots rfl rfl rfl rfl rfl) rfl rfl rfl id rfl (by simp)

theorem JointInv.unsent {s : State} (h : JointInv s) (failed : Bool)
    (hnamed : s.master.state.configurator = .named) : JointInv (unsentStep failed s) := by
  unfold unsentStep
  split_ifs
  · exact h.passed (by simp [awaiting, hnamed]) (u := { s.master.state with configurator := .menu })
      (.of_slots rfl rfl rfl rfl rfl) rfl rfl rfl id rfl (by simp)
  · exact h.renew (.of_slots rfl rfl rfl rfl rfl) rfl rfl rfl rfl hnamed

theorem JointInv.proceed {s t : State} {fork : Fork} (h : JointInv s)
    (hok : kept s (.proceed fork) = true) (hs : step s (.proceed fork) = some t) :
    JointInv t := by
  obtain ⟨hmenu, hs⟩ := Option.ite_none_right_eq_some.mp hs
  have hidle : awaiting s.master.state = false := by simp [awaiting, hmenu]
  have hkeep (a : Option Automatic) : JointInv { s with automatic := a } :=
    h.passed hidle (.of_slots rfl rfl rfl rfl rfl) rfl rfl rfl id hidle (by simp [hmenu])
  unfold proceedStep at hs
  cases ha : s.automatic with
  | none => simp [ha] at hs
  | some a =>
    simp only [ha] at hs
    cases a with
    | creating n =>
      cases n with
      | zero => exact Option.some.inj hs ▸ hkeep _
      | succ n =>
        have hnew : newSlave s fork = true := by simpa [kept, ha] using hok
        rw [← Option.some.inj hs]
        exact h.forked hnew hidle (.of_slots rfl rfl rfl rfl rfl) rfl rfl hmenu
    | connecting i =>
      dsimp only at hs
      split_ifs at hs with hi
      · rw [← Option.some.inj hs]
        unfold connectNext
        split_ifs with hskip
        · exact hkeep _
        · push Not at hskip
          exact h.passed hidle (u := { s.master.state with
              control.request := .connectSlave
              control.affectedSlavePid := (s.registry.createdSlave ⟨i, hi⟩).pid
              configurator := .named }) (.of_slots rfl rfl rfl rfl rfl) rfl rfl rfl id rfl
            fun _ _ ↦ ⟨hskip.1, _, rfl⟩
      · exact Option.some.inj hs ▸ hkeep _
    | starting i =>
      dsimp only at hs
      split_ifs at hs with hi
      · rw [← Option.some.inj hs]
        unfold startNext
        split_ifs with hconnected
        · have hasked : MasterFrame s.master.state (s.master.state.setSeg ⟨i, hi⟩
              { s.seg ⟨i, hi⟩ with
                requestedParameters := (s.seg ⟨i, hi⟩).requestedParameters ||| intParameterBit
                communicationCycleUs := 500 * 1000 }) := .setSeg rfl rfl rfl rfl
          exact h.passed hidle (hasked.trans (.of_slots rfl rfl rfl rfl rfl)) rfl rfl rfl id rfl
            fun _ hrequest ↦ by cases hrequest
        · exact hkeep _
      · exact Option.some.inj hs ▸ hkeep _

theorem step_inv {s t : State} {e : Event} (h : JointInv s) (hok : kept s e = true)
    (hs : step s e = some t) : JointInv t := by
  cases e with
  | master e => exact masterStep_inv h hok hs
  | unsent failed =>
    obtain ⟨⟨hnamed, -⟩, hs⟩ := Option.ite_none_right_eq_some.mp hs
    exact Option.some.inj hs ▸ h.unsent failed hnamed
  | startMaster fork signalled found left => exact h.startedMaster hs
  | stopMaster seg killed => exact h.stopped hok hs
  | proceed fork => exact h.proceed hok hs
  | createSlave named fork =>
    obtain ⟨htyped, hs⟩ := Option.ite_none_right_eq_some.mp hs
    have hidle : awaiting s.master.state = false := by
      simp [awaiting, (of_decide_eq_true htyped : _ ∧ _).1]
    have hf : MasterFrame s.master.state { s.master.state with configurator := .menu } :=
      .of_slots rfl rfl rfl rfl rfl
    rw [← Option.some.inj hs]
    unfold createSlave
    split_ifs with hfull hnamed
    · exact h.passed hidle hf rfl rfl rfl id rfl (by simp)
    · exact h.forked (of_decide_eq_true hok (not_le.mp hfull) hnamed) hidle hf rfl rfl rfl
    · exact h.passed hidle hf rfl rfl rfl id rfl (by simp)
  | deleteSlave inserted killed =>
    obtain ⟨htyped, hs⟩ := Option.ite_none_right_eq_some.mp hs
    have hidle : awaiting s.master.state = false := by
      simp [awaiting, (of_decide_eq_true htyped : _ ∧ _).1]
    exact Option.some.inj hs ▸ h.deleted hok hidle
  | automaticTest n =>
    obtain ⟨htyped, hs⟩ := Option.ite_none_right_eq_some.mp hs
    have hidle : awaiting s.master.state = false := by
      simp [awaiting, (of_decide_eq_true htyped : _ ∧ _).1]
    rw [← Option.some.inj hs]
    exact h.passed hidle (u := { s.master.state with configurator := .menu })
      (.of_slots rfl rfl rfl rfl rfl) rfl rfl rfl id rfl (by simp)

theorem jointInv_initial : JointInv initial := by
  refine ⟨MasterAnswer.initial_inv False, slotsInv_initial,
    .of_idle (fun _ ↦ Nat.zero_le _) (Nat.zero_le _) rfl rfl,
    .of_idle (fun i hi ↦ absurd rfl hi) rfl rfl fun hn ↦ by cases hn⟩

/-- Between commands the tables agree, except for a slot that is being given away. -/
theorem JointInv.tablesAgree {s : State} (h : JointInv s) (hprompt : settledPrompt s = true) :
    TablesAgree s := by
  obtain ⟨hmenu, -, -, -, -, hthreads, -⟩ := of_decide_eq_true hprompt
  have hmoved := h.agree.unmoved (by simp [awaiting, hmenu])
  have hsettled := h.agree.settled hmoved
  refine ⟨hsettled, fun i hi ↦ (h.slots.owner i hi).resolve_right ?_, fun pid hoffered hheld ↦ ?_⟩
  · rintro ⟨u, hu, hclears⟩
    have hidle := hthreads u hu
    unfold clears at hclears
    unfold idle at hidle
    split at hclears
    · simp_all
    · cases hclears
  · obtain ⟨i, hi, hne, hconnected⟩ := registered_of_offered hoffered
    have hconnected' := (hsettled i (hi ▸ hne)).mpr (hi ▸ hheld)
    rw [hconnected] at hconnected'
    cases hconnected'

theorem tablesAgree_of_kept {s : State}
    (h : Reaches step (fun s e ↦ kept s e = true) initial s) (hprompt : settledPrompt s = true) :
    TablesAgree s := by
  have hinv : JointInv s := h.invariant jointInv_initial fun _ _ _ ↦ step_inv
  exact hinv.tablesAgree hprompt

def leaving : List Event :=
  connecting ++ acknowledging ++ [Event.master .take, Event.master .report,
    Event.master (.type .disconnectSlave), Event.master (.name 100), Event.master .send] ++
    List.replicate 6 (Event.master (.sync true true)) ++
    [Event.master (.slave 4 acknowledged), Event.master (.deliver 100 .response)] ++
    List.replicate 15 (Event.master (.thread 0 false true)) ++
    [Event.master .take, Event.master .report, Event.master (.type .deleteSlave),
      Event.deleteSlave (some 100) true]

def testing : List Event :=
  [Event.master (.type .automaticTest), Event.automaticTest 1] ++
    List.replicate 7 (Event.proceed (.child 131)) ++ [Event.master .send] ++
    List.replicate 3 (Event.master (.sync true true)) ++
    List.replicate 7 (Event.master (.thread 1 false true)) ++
    [Event.master (.slave 4 acknowledged), Event.master (.deliver 132 .response)] ++
    List.replicate 12 (Event.master (.thread 1 false true)) ++
    [Event.master .take, Event.master .report] ++
    List.replicate 33 (Event.proceed (.child 131)) ++ [Event.unsent true] ++
    List.replicate 28 (Event.proceed (.child 131))

theorem testing_agrees :
    ∃ s, s.registry.createdSlave 4 = ⟨132, true⟩ ∧ Held s 132 ∧ TablesAgree s := by
  have hrun : (run (guarded step fun s e ↦ kept s e = true) initial (leaving ++ testing)).map
      (fun s ↦ (settledPrompt s, s.registry.createdSlave 4, decide (Held s 132))) =
      some (true, ⟨132, true⟩, true) := by
    decide +kernel
  obtain ⟨s, hs, hview⟩ := Option.map_eq_some_iff.mp hrun
  simp only [Prod.mk.injEq] at hview
  obtain ⟨hprompt, hentry, hheld⟩ := hview
  exact ⟨s, hentry, of_decide_eq_true hheld, tablesAgree_of_kept (.of_run hs) hprompt⟩

end RealTimeCyclic.Joint
