import RealTimeCyclic.JointSlots

namespace RealTimeCyclic.Joint

open Shm SlotThread Probing Function Transition Tally
open Master (Thread ThreadPc SyncPc ThreadMove)
open MasterAnswer (Traced AnswerInv responsesSent obligations tally syncHolds threadHolds slotHolds
  announced outstandingNext outstandingAfter takenBy answeredBy recognized)

def due (k acting : ℕ) : Pc → Option Bool
  | .forward _ response c => if c = k then some (response = .ack) else none
  | .resetInit c | .resetDrainMToS c | .resetPostMToS c | .resetDrainSToM c | .resetPostSToM c
  | .resetAnswer c => if c = some k then some true else none
  | .notify _ | .resetNotify _ => none
  | pc => if slotHolds acting pc = some k then some false else none

def threadDue (k : ℕ) (t : Thread) : Option Bool :=
  match t.pc with
  | .readArgument | .lookup _ | .scan _ | .claim _ _ => if t.acting = k then some false else none
  | .serve _ _ pc => due k t.acting pc
  | .returned => none

def syncDue (k : ℕ) : SyncPc → Option Bool
  | .notify _ => none
  | pc => if syncHolds pc = some k then some false else none

theorem due_holds {k acting : ℕ} {pc : Pc} {b : Bool} (h : due k acting pc = some b) :
    slotHolds acting pc = some k := by
  cases pc with
  | resetMemset c =>
    by_cases hc : c = some k
    · exact hc
    · simp [due, slotHolds, hc] at h
  | _ => simp_all [due, slotHolds]

theorem threadDue_holds {k : ℕ} {t : Thread} {b : Bool} (h : threadDue k t = some b) :
    threadHolds t = some k := by
  unfold threadDue at h
  unfold threadHolds
  cases hpc : t.pc with
  | serve pid i pc =>
    rw [hpc] at h
    exact due_holds h
  | _ => simp_all

theorem syncDue_holds {k : ℕ} {pc : SyncPc} {b : Bool} (h : syncDue k pc = some b) :
    syncHolds pc = some k ∧ b = false := by
  cases pc <;> simp_all [syncDue, syncHolds]

/-- A command that somebody has was taken, and nobody else has it. -/
theorem taken_of_held {t : Traced} (h : AnswerInv False t) {k : ℕ} (hpos : 0 < obligations t k) :
    k ∈ t.taken := by
  obtain ⟨drops, hk, -⟩ := h.counts k
  exact List.count_pos_iff.mp (by omega)

theorem obligations_le_one {t : Traced} (h : AnswerInv False t) (k : ℕ) : obligations t k ≤ 1 := by
  obtain ⟨drops, hk, -⟩ := h.counts k
  have hle := List.nodup_iff_count_le_one.mp h.nodup k
  omega

theorem held_by_sync {t : Traced} {k : ℕ} (hsync : syncHolds t.state.sync = some k) :
    0 < obligations t k := by
  rw [obligations, tally, if_pos hsync]
  omega

theorem held_by_thread {t : Traced} {k : ℕ} {u : Thread} (hu : u ∈ t.state.threads)
    (hholds : threadHolds u = some k) : 0 < obligations t k := by
  have hpos : 0 < (t.state.threads.map threadHolds).count (some k) :=
    List.count_pos_iff.mpr (List.mem_map.mpr ⟨u, hu, hholds⟩)
  rw [obligations]
  omega

theorem held_by_slave {t : Traced} {k : ℕ} {i : Idx} (hi : t.outstanding i = some k) :
    0 < obligations t k := by
  have hpos : 0 < entered t.outstanding (some k) := entered_pos.mpr ⟨i, hi⟩
  rw [obligations]
  omega

theorem sole_sync {t : Traced} (h : AnswerInv False t) {k : ℕ}
    (hsync : syncHolds t.state.sync = some k) : k ∈ t.taken ∧
      (∀ u ∈ t.state.threads, threadHolds u ≠ some k) ∧ ∀ i, t.outstanding i ≠ some k := by
  have hle := obligations_le_one h k
  rw [obligations, tally, if_pos hsync] at hle
  refine ⟨taken_of_held h (held_by_sync hsync), fun u hu hholds ↦ ?_, fun i hi ↦ ?_⟩
  · have hpos : 0 < (t.state.threads.map threadHolds).count (some k) :=
      List.count_pos_iff.mpr (List.mem_map.mpr ⟨u, hu, hholds⟩)
    omega
  · have hpos : 0 < entered t.outstanding (some k) := entered_pos.mpr ⟨i, hi⟩
    omega

theorem sole_thread {t : Traced} (h : AnswerInv False t) {k j : ℕ} {thread : Thread}
    (ht : t.state.threads[j]? = some thread) (hholds : threadHolds thread = some k) :
    k ∈ t.taken ∧ syncHolds t.state.sync ≠ some k ∧ (∀ i, t.outstanding i ≠ some k) ∧
      ∀ (l : ℕ) (u : Thread), l ≠ j → t.state.threads[l]? = some u → threadHolds u ≠ some k := by
  have hmem := List.mem_of_getElem? ht
  have hle := obligations_le_one h k
  have hpos : 0 < (t.state.threads.map threadHolds).count (some k) :=
    List.count_pos_iff.mpr (List.mem_map.mpr ⟨thread, hmem, hholds⟩)
  rw [obligations] at hle
  refine ⟨taken_of_held h (held_by_thread hmem hholds), fun hsync ↦ ?_, fun i hi ↦ ?_,
    fun l u hl hu hu' ↦ ?_⟩
  · rw [tally, if_pos hsync] at hle
    omega
  · have hslave : 0 < entered t.outstanding (some k) := entered_pos.mpr ⟨i, hi⟩
    omega
  · have htwo : 2 ≤ (t.state.threads.map threadHolds).countP fun o ↦ o == some k :=
      two_le_countP hl (a := some k) (b := some k) (by rw [List.getElem?_map, hu, ← hu']; rfl)
        (by rw [List.getElem?_map, ht, ← hholds]; rfl) (by simp) (by simp)
    have hle' : (t.state.threads.map threadHolds).count (some k) ≤ 1 := by omega
    exact absurd (htwo.trans hle') (by decide)

def cycle : Request → Bool
  | .startSlaveCycle | .stopSlaveCycle => true
  | _ => false

def bound : SyncPc → Option (ℕ × Request)
  | .lookup c request | .semWait c request _ _ | .write c request _ _ => some (c.id, request)
  | .checkCycle c _ _ => some (c.id, .startSlaveCycle)
  | _ => none

/-- Nobody takes the latest command for START_SLAVE_CYCLE or STOP_SLAVE_CYCLE. -/
structure WordOk (t : Traced) : Prop where
  sync : ∀ request, bound t.state.sync = some (t.state.latest.id, request) → cycle request = false
  slots : ∀ i, (t.state.slots i).written = t.state.latest.id →
    cycle (t.state.slots i).seg.reqMToS = false
  threads : ∀ u ∈ t.state.threads, ∀ pid i request,
    u.pc = .serve pid i (.responseValue true request) → u.acting = t.state.latest.id →
      request = .disconnectSlave

def Unanswered (t : Traced) (moved b : Bool) : Prop :=
  moved = b ∧ t.state.answerTo ≠ t.state.latest.id

/-- The latest command is answered with ACK if and only if the table has been changed
for it. -/
structure DueOk (t : Traced) (moved : Bool) : Prop where
  fresh : t.state.latest.id ∉ t.taken → Unanswered t moved false
  sync : ∀ b, syncDue t.state.latest.id t.state.sync = some b → Unanswered t moved b
  threads : ∀ u ∈ t.state.threads, ∀ b, threadDue t.state.latest.id u = some b →
    Unanswered t moved b
  slaves : ∀ i, t.outstanding i = some t.state.latest.id → Unanswered t moved false
  answered : t.state.answerTo = t.state.latest.id →
    (t.state.control.response = .ack ↔ moved = true)

/-- What a step of the slot thread does to the phase of its command. -/
structure DueFacts (k acting current : ℕ) (killed : Bool) (outstanding : Option ℕ) (v v' : View)
    (effect : Effect) : Prop where
  next : ∀ b, due k (if v'.pc = .responseConnected then current else acting) v'.pc = some b →
    if changes v.pc then due k acting v.pc = some false ∧ b = true
    else due k acting v.pc = some b ∨ outstanding = some k ∧ b = false
  sent : outstandingNext acting killed v.seg outstanding v.pc = some k →
    outstanding = some k ∨ due k acting v.pc = some false ∧ changes v.pc = false
  answered : ∀ response, effect = .answered response k →
    due k acting v.pc = some (decide (response = .ack)) ∧ changes v.pc = false ∧
      due k (if v'.pc = .responseConnected then current else acting) v'.pc = none ∧
      outstandingNext acting killed v.seg outstanding v.pc = outstanding

theorem DueFacts.of_still {k acting current : ℕ} {killed : Bool} {outstanding : Option ℕ}
    {v v' : View} {effect : Effect}
    (hnext : outstandingNext acting killed v.seg outstanding v.pc = outstanding)
    (hdue : ∀ b, due k (if v'.pc = .responseConnected then current else acting) v'.pc = some b →
      if changes v.pc then due k acting v.pc = some false ∧ b = true
      else due k acting v.pc = some b)
    (hanswered : ∀ response, effect = .answered response k →
      due k acting v.pc = some (decide (response = .ack)) ∧ changes v.pc = false ∧
        due k (if v'.pc = .responseConnected then current else acting) v'.pc = none) :
    DueFacts k acting current killed outstanding v v' effect := by
  refine ⟨fun b hb ↦ ?_, fun hsent ↦ .inl (hnext ▸ hsent), fun response he ↦ ?_⟩
  · have hold := hdue b hb
    split_ifs at hold ⊢
    · exact hold
    · exact .inl hold
  · obtain ⟨hdue, hchanges, hnone⟩ := hanswered response he
    exact ⟨hdue, hchanges, hnone, hnext⟩

theorem jumpDueFacts {k acting current : ℕ} {mustChange killed : Bool} {outstanding : Option ℕ}
    {seg : Shmseg} {pc pc' : Pc} {wake : List Signal}
    (hjump : Jump current mustChange killed seg pc pc')
    (hsent : ∀ signal, pc = .getvalueMToS signal → seg.semMToSRequest = 0 →
      outstanding.isSome = true)
    (houtstanding : ∀ k, outstanding = some k → current = k)
    (hwritten : MasterAnswer.confirmed pc = true → current = acting)
    (hcarried : ∀ c, MasterAnswer.carried pc = some c → c = acting)
    (hword : ∀ request, pc = .responseValue true request → acting = k →
      request = .disconnectSlave) :
    DueFacts k acting current killed outstanding ⟨seg, pc, wake⟩ ⟨seg, pc', wake⟩ .silent := by
  cases hjump with
  | responseDecoded hpc hzero =>
    subst hpc
    obtain ⟨c, rfl⟩ := Option.isSome_iff_exists.mp (hsent _ rfl hzero)
    obtain rfl := houtstanding c rfl
    constructor <;> simp [hzero, due, slotHolds, outstandingNext, changes]
  | nothingUnhandled hpc hpos =>
    subst hpc
    refine .of_still (if_neg hpos.ne') ?_ ?_
    all_goals simp [due, slotHolds, changes]
  | connectUnsent hpc hkill | renameUnsent hpc hkill =>
    subst hpc
    refine .of_still (by simp [outstandingNext, hkill]) ?_ ?_
    all_goals simp [due, slotHolds, changes]
  | responseAck hpc hresponse hrequest =>
    subst hpc
    have hk : acting ≠ k := fun hk ↦ hrequest (hword _ rfl hk)
    obtain rfl := hwritten rfl
    refine .of_still rfl ?_ ?_
    all_goals simp [hk, due, slotHolds, changes]
  | nameTaken hpc | nameFree hpc =>
    subst hpc
    obtain rfl := hcarried _ rfl
    refine .of_still rfl ?_ ?_
    all_goals simp [due, slotHolds, changes]
  | connectedRead hpc | responseRecognized hpc | responseUnrecognized hpc | responseNack hpc
  | responseIgnored hpc | disconnected hpc | nameOffered hpc =>
    subst hpc
    obtain rfl := hwritten rfl
    refine .of_still rfl ?_ ?_
    all_goals simp [due, slotHolds, changes]
  | _ hpc =>
    subst hpc
    refine .of_still rfl ?_ ?_
    all_goals simp [due, slotHolds, changes]

theorem dueFacts {k acting current : ℕ} {mustChange killed : Bool} {outstanding : Option ℕ}
    {v v' : View} {effect : Effect}
    (h : SlotThread.step current mustChange killed v = some (v', effect))
    (hsent : ∀ signal, v.pc = .getvalueMToS signal → v.seg.semMToSRequest = 0 →
      outstanding.isSome = true)
    (houtstanding : ∀ k, outstanding = some k → current = k)
    (hwritten : MasterAnswer.confirmed v.pc = true → current = acting)
    (hcarried : ∀ c, MasterAnswer.carried v.pc = some c → c = acting)
    (hword : ∀ request, v.pc = .responseValue true request → acting = k →
      request = .disconnectSlave) :
    DueFacts k acting current killed outstanding v v' effect := by
  have hmove := step_move h
  obtain ⟨seg, pc, wake⟩ := v
  dsimp only at *
  cases hmove with
  | jumped hjump => exact jumpDueFacts hjump hsent houtstanding hwritten hcarried hword
  | sent hpc hkill =>
    subst hpc
    constructor <;> simp +contextual [hkill, due, slotHolds, outstandingNext, changes]
  | acknowledgeSent hpc =>
    subst hpc
    refine .of_still rfl ?_ ?_
    all_goals cases killed
    all_goals simp [due, slotHolds, changes]
  | @zeroed c hpc =>
    subst hpc
    refine .of_still rfl ?_ ?_
    all_goals cases c
    all_goals simp [due, slotHolds, changes]
  | answered hpc | resetAnswered hpc =>
    subst hpc
    refine .of_still rfl ?_ ?_
    · simp [due]
    · intro response he
      obtain ⟨rfl, rfl⟩ := Effect.answered.inj he
      simp [due, changes]
  | _ hpc =>
    subst hpc
    refine .of_still rfl ?_ ?_
    all_goals simp [due, slotHolds, changes]

theorem due_of_changes {k acting : ℕ} {pc : Pc} (hchanges : changes pc = true)
    (hholds : slotHolds acting pc = some k) : due k acting pc = some false := by
  unfold changes at hchanges
  split at hchanges
  · simpa [due] using hholds
  · simpa [due] using hholds
  · cases hchanges

theorem answer_same {s : Master.State} {effect : Effect} {k : ℕ}
    (heffect : ∀ response, effect ≠ .answered response k) (hk : (s.answer effect).answerTo = k) :
    s.answerTo = k ∧ (s.answer effect).control.response = s.control.response := by
  cases effect with
  | answered response c => exact absurd (hk ▸ rfl) (heffect response)
  | _ => exact ⟨hk, rfl⟩

theorem DueOk.set {t : Traced} {moved : Bool} (h : DueOk t moved) {j : ℕ} {thread u : Thread}
    {s : Master.State} {answers : List ℕ} (ht : t.state.threads[j]? = some thread)
    (hthreads : s.threads = t.state.threads.set j u)
    (hlatest : s.latest = t.state.latest) (hsync : s.sync = t.state.sync)
    (hanswerTo : s.answerTo = t.state.answerTo)
    (hresponse : s.control.response = t.state.control.response)
    (hdue : ∀ k b, threadDue k u = some b → threadDue k thread = some b) :
    DueOk ⟨s, t.taken, answers, t.outstanding⟩ moved := by
  have hsame {b : Bool} (hb : Unanswered t moved b) : moved = b ∧ s.answerTo ≠ s.latest.id := by
    rw [hanswerTo, hlatest]
    exact hb
  refine ⟨fun hk ↦ hsame (h.fresh (hlatest ▸ hk)), fun b hb ↦ ?_, fun w hw b hb ↦ ?_,
    fun i hi ↦ hsame (h.slaves i (hlatest ▸ hi)), ?_⟩
  · dsimp only at hb
    rw [hlatest, hsync] at hb
    exact hsame (h.sync b hb)
  · dsimp only at hw hb
    rw [hlatest] at hb
    obtain ⟨k, hk⟩ := List.getElem?_of_mem (hthreads ▸ hw)
    rcases Master.getElem?_set_cases hk with ⟨-, rfl⟩ | ⟨-, hk⟩
    · exact hsame (h.threads thread (List.mem_of_getElem? ht) b (hdue _ b hb))
    · exact hsame (h.threads w (List.mem_of_getElem? hk) b hb)
  · dsimp only
    rw [hanswerTo, hlatest, hresponse]
    exact h.answered

theorem DueOk.serve {t : Traced} {moved : Bool} (h : DueOk t moved) (ha : AnswerInv False t)
    {j : ℕ} {thread : Thread} {pid : Pid} {i : Idx} {pc : Pc} {killed : Bool} {v : View}
    {effect : Effect} {s u : Master.State} {answers : List ℕ}
    (ht : t.state.threads[j]? = some thread) (hpc : thread.pc = .serve pid i pc)
    (hs : s = { t.state with
      slots := update t.state.slots i ((t.state.slots i).stepped thread.acting v effect)
      threads := t.state.threads.set j (thread.stepped (t.state.slots i) pid i v) })
    (hu : u = s.answer effect)
    (hfacts : DueFacts t.state.latest.id thread.acting (t.state.slots i).written killed
      (t.outstanding i) ⟨(t.state.slots i).seg, pc, (t.state.slots i).wake⟩ v effect)
    (hchanges : changes pc = true → slotHolds thread.acting pc = some t.state.latest.id) :
    DueOk ⟨u, t.taken, answers, update t.outstanding i (outstandingNext thread.acting killed
      (t.state.slots i).seg (t.outstanding i) pc)⟩ (moved || changes pc) := by
  have hlatest : u.latest = t.state.latest := by rw [hu, hs]; cases effect <;> rfl
  have hsync : u.sync = t.state.sync := by rw [hu, hs]; cases effect <;> rfl
  have hthreads : u.threads = t.state.threads.set j (thread.stepped (t.state.slots i) pid i v) := by
    rw [hu, Master.answer_threads, hs]
  have hold : threadDue t.state.latest.id thread = due t.state.latest.id thread.acting pc := by
    rw [threadDue, hpc]
  have hholds : threadHolds thread = slotHolds thread.acting pc := by rw [threadHolds, hpc]
  have hmem := List.mem_of_getElem? ht
  have hsilent (hno : ∀ response, effect ≠ .answered response t.state.latest.id)
      (heq : u.answerTo = t.state.latest.id) : t.state.answerTo = t.state.latest.id ∧
        u.control.response = t.state.control.response := by
    rw [hu] at heq ⊢
    rw [hs] at heq ⊢
    exact answer_same hno heq
  -- in two cases the thread alone has the command
  have halone {moved' : Bool} (hsole : slotHolds thread.acting pc = some t.state.latest.id)
      (hnext : ∀ b, due t.state.latest.id (if v.pc = .responseConnected then
          (t.state.slots i).written else thread.acting) v.pc = some b →
        moved' = b ∧ u.answerTo ≠ t.state.latest.id)
      (hslave : outstandingNext thread.acting killed (t.state.slots i).seg (t.outstanding i) pc ≠
        some t.state.latest.id)
      (hanswered : u.answerTo = t.state.latest.id →
        (u.control.response = .ack ↔ moved' = true)) :
      DueOk ⟨u, t.taken, answers, update t.outstanding i (outstandingNext thread.acting killed
        (t.state.slots i).seg (t.outstanding i) pc)⟩ moved' := by
    obtain ⟨htaken, hnosync, hnoslave, hnothread⟩ := sole_thread ha ht (hholds.trans hsole)
    refine ⟨fun hk ↦ ?_, fun b hb ↦ ?_, fun w hw b hb ↦ ?_, fun l hl ↦ ?_, ?_⟩
    · exact absurd (hlatest ▸ htaken) hk
    · dsimp only at hb
      rw [hlatest, hsync] at hb
      exact absurd (syncDue_holds hb).1 hnosync
    · dsimp only at hw hb
      rw [hlatest] at hb
      obtain ⟨k, hk⟩ := List.getElem?_of_mem (hthreads ▸ hw)
      rcases Master.getElem?_set_cases hk with ⟨-, rfl⟩ | ⟨hkj, hk⟩
      · refine ⟨(hnext b hb).1, ?_⟩
        dsimp only
        rw [hlatest]
        exact (hnext b hb).2
      · exact absurd (threadDue_holds hb) (hnothread k w hkj hk)
    · dsimp only at hl
      rw [hlatest] at hl
      by_cases hli : l = i
      · rw [hli, update_self] at hl
        exact absurd hl hslave
      · rw [update_of_ne hli] at hl
        exact absurd hl (hnoslave l)
    · dsimp only
      rw [hlatest]
      exact hanswered
  by_cases hc : changes pc = true
  · have hsole := hchanges hc
    have hfalse := due_of_changes hc hsole
    have hnoslave := (sole_thread ha ht (hholds.trans hsole)).2.2.1
    have hno (heq : u.answerTo = t.state.latest.id) : False := by
      refine (h.threads thread hmem false (hold.trans hfalse)).2
        (hsilent (fun response he ↦ ?_) heq).1
      rw [(hfacts.answered response he).2.1] at hc
      cases hc
    rw [hc, Bool.or_true]
    refine halone hsole (fun b hb ↦ ?_) (fun hslave ↦ ?_) fun heq ↦ absurd heq hno
    · have hb := hfacts.next b hb
      rw [if_pos hc] at hb
      exact ⟨hb.2.symm, hno⟩
    · rcases hfacts.sent hslave with hout | ⟨-, hno⟩
      · exact hnoslave i hout
      · dsimp only at hno
        rw [hc] at hno
        cases hno
  · rw [Bool.not_eq_true] at hc
    rw [hc, Bool.or_false]
    by_cases hanswers : ∃ response, effect = .answered response t.state.latest.id
    · obtain ⟨response, rfl⟩ := hanswers
      obtain ⟨hdue, -, hnone, hsame⟩ := hfacts.answered response rfl
      have hsole := due_holds hdue
      have hb := h.threads thread hmem _ (hold.trans hdue)
      refine halone hsole (fun b hb ↦ ?_) (fun hslave ↦ ?_) fun _ ↦ ?_
      · rw [hnone] at hb
        cases hb
      · exact (sole_thread ha ht (hholds.trans hsole)).2.2.1 i (hsame.symm.trans hslave)
      · rw [hb.1, hu]
        exact decide_eq_true_iff.symm
    · have hno (response : Response) : effect ≠ .answered response t.state.latest.id :=
        fun he ↦ hanswers ⟨response, he⟩
      have hkeep {b : Bool} (hb : Unanswered t moved b) : moved = b ∧ u.answerTo ≠ u.latest.id :=
        ⟨hb.1, fun heq ↦ hb.2 (hsilent hno (hlatest ▸ heq)).1⟩
      refine ⟨fun hk ↦ hkeep (h.fresh (hlatest ▸ hk)), fun b hb ↦ ?_, fun w hw b hb ↦ ?_,
        fun l hl ↦ ?_, fun heq ↦ ?_⟩
      · dsimp only at hb
        rw [hlatest, hsync] at hb
        exact hkeep (h.sync b hb)
      · dsimp only at hw hb
        rw [hlatest] at hb
        obtain ⟨k, hk⟩ := List.getElem?_of_mem (hthreads ▸ hw)
        rcases Master.getElem?_set_cases hk with ⟨-, rfl⟩ | ⟨hkj, hk⟩
        · have hb := hfacts.next b hb
          rw [if_neg (by simp [hc])] at hb
          rcases hb with hdue | ⟨hout, rfl⟩
          · exact hkeep (h.threads thread hmem b (hold.trans hdue))
          · exact hkeep (h.slaves i hout)
        · exact hkeep (h.threads w (List.mem_of_getElem? hk) b hb)
      · dsimp only at hl
        rw [hlatest] at hl
        by_cases hli : l = i
        · rw [hli, update_self] at hl
          rcases hfacts.sent hl with hout | ⟨hdue, -⟩
          · exact hkeep (h.slaves i hout)
          · exact hkeep (h.threads thread hmem false (hold.trans hdue))
        · rw [update_of_ne hli] at hl
          exact hkeep (h.slaves l hl)
      · obtain ⟨hto, hresponse⟩ := hsilent hno (hlatest ▸ heq)
        dsimp only
        rw [hresponse]
        exact h.answered hto

theorem DueOk.keep {t : Traced} {moved : Bool} (h : DueOk t moved) {s : Master.State}
    {answers : List ℕ} (hlatest : s.latest = t.state.latest)
    (hthreads : s.threads = t.state.threads) (hanswerTo : s.answerTo = t.state.answerTo)
    (hresponse : s.control.response = t.state.control.response)
    (hsync : ∀ k b, syncDue k s.sync = some b → syncDue k t.state.sync = some b) :
    DueOk ⟨s, t.taken, answers, t.outstanding⟩ moved := by
  have hsame {b : Bool} (hb : Unanswered t moved b) : moved = b ∧ s.answerTo ≠ s.latest.id := by
    rw [hanswerTo, hlatest]
    exact hb
  refine ⟨fun hk ↦ hsame (h.fresh (hlatest ▸ hk)), fun b hb ↦ ?_, fun w hw b hb ↦ ?_,
    fun i hi ↦ hsame (h.slaves i (hlatest ▸ hi)), ?_⟩
  · dsimp only at hb
    rw [hlatest] at hb
    exact hsame (h.sync b (hsync _ b hb))
  · dsimp only at hw hb
    rw [hlatest] at hb
    exact hsame (h.threads w (hthreads ▸ hw) b hb)
  · dsimp only
    rw [hanswerTo, hlatest, hresponse]
    exact h.answered

theorem DueOk.dispatched {t : Traced} {moved : Bool} (h : DueOk t moved) (ha : AnswerInv False t)
    {c : Master.Command} {pc : SyncPc} {answers : List ℕ} (hpc : t.state.sync = .readRequest c)
    (hholds : syncHolds pc = some c.id) :
    DueOk ⟨{ t.state with sync := pc }, t.taken ++ [c.id], answers, t.outstanding⟩ moved := by
  refine ⟨fun hk ↦ h.fresh fun hmem ↦ hk (List.mem_append_left _ hmem), fun b hb ↦ ?_, h.threads,
    h.slaves, h.answered⟩
  obtain ⟨hk, rfl⟩ := syncDue_holds hb
  refine h.fresh ?_
  dsimp only at hk
  rw [hholds] at hk
  rw [← Option.some.inj hk]
  exact (ha.reading c hpc).1

theorem DueOk.created {t : Traced} {moved : Bool} (h : DueOk t moved) {c : Master.Command}
    {cell : Pid} {answers : List ℕ} (hpc : t.state.sync = .create c) :
    DueOk ⟨{ t.state with
      cell := cell
      threads := t.state.threads ++ [⟨c, c.id, .readArgument⟩]
      sync := .sigwaitinfo }, t.taken, answers, t.outstanding⟩ moved := by
  refine ⟨h.fresh, fun b hb ↦ ?_, fun w hw b hb ↦ ?_, h.slaves, h.answered⟩
  · simp [syncDue, syncHolds] at hb
  · rcases List.mem_append.mp hw with hold | hnew
    · exact h.threads w hold b hb
    · refine h.sync b ?_
      rw [List.mem_singleton.mp hnew] at hb
      rw [hpc]
      simpa [threadDue, syncDue, syncHolds] using hb

theorem DueOk.sent {t : Traced} {moved : Bool} (h : DueOk t moved) {c : Master.Command}
    {request : Request} {pid : Pid} {i : Idx} {answers : List ℕ}
    (hpc : t.state.sync = .kill c request pid i) :
    DueOk ⟨{ t.state with sync := .sigwaitinfo }, t.taken, answers,
      update t.outstanding i (some c.id)⟩ moved := by
  refine ⟨h.fresh, fun b hb ↦ ?_, h.threads, fun l hl ↦ ?_, h.answered⟩
  · simp [syncDue, syncHolds] at hb
  · dsimp only at hl
    by_cases hli : l = i
    · rw [hli, update_self] at hl
      refine h.sync false ?_
      simpa [hpc, syncDue, syncHolds] using hl
    · rw [update_of_ne hli] at hl
      exact h.slaves l hl

theorem DueOk.refused {t : Traced} {moved : Bool} (h : DueOk t moved) (ha : AnswerInv False t)
    {c : Master.Command} {answers : List ℕ} (hpc : t.state.sync = .nack c) :
    DueOk ⟨{ t.state with
      control.response := .nack
      answerTo := c.id
      sync := .notify c }, t.taken, answers, t.outstanding⟩ moved := by
  have hholds : syncHolds t.state.sync = some c.id := by rw [hpc, syncHolds]
  by_cases hk : c.id = t.state.latest.id
  · rw [hk] at hholds
    obtain ⟨htaken, hnothread, hnoslave⟩ := sole_sync ha hholds
    have hb := h.sync false (by rw [hpc, syncDue, ← hpc, if_pos hholds]; simp)
    refine ⟨fun hno ↦ absurd htaken hno, fun b hb ↦ ?_, fun w hw b hb ↦ ?_, fun i hi ↦ ?_,
      fun _ ↦ ?_⟩
    · cases hb
    · exact absurd (threadDue_holds hb) (hnothread w hw)
    · exact absurd hi (hnoslave i)
    · rw [hb.1]
      simp
  · have hkeep {b : Bool} (hb : Unanswered t moved b) : moved = b ∧ c.id ≠ t.state.latest.id :=
      ⟨hb.1, hk⟩
    refine ⟨fun hno ↦ hkeep (h.fresh hno), fun b hb ↦ ?_,
      fun w hw b hb ↦ hkeep (h.threads w hw b hb), fun i hi ↦ hkeep (h.slaves i hi),
      fun heq ↦ absurd heq hk⟩
    cases hb

theorem DueOk.syncStep {t : Traced} {moved : Bool} (h : DueOk t moved) (ha : AnswerInv False t)
    {created killed : Bool} {s : Master.State} {answers : List ℕ}
    (hs : Master.syncStep created killed t.state = some s) :
    DueOk ⟨s, t.taken ++ (takenBy t.state (.sync created killed)).toList, answers,
      outstandingAfter t.state t.outstanding (.sync created killed)⟩ moved := by
  have hmove {pc : SyncPc} {u : Master.State} (hthreads : u.threads = t.state.threads)
      (hlatest : u.latest = t.state.latest) (hanswerTo : u.answerTo = t.state.answerTo)
      (hresponse : u.control.response = t.state.control.response) (hpc : u.sync = pc)
      (hdue : ∀ k b, syncDue k pc = some b → syncDue k t.state.sync = some b) :
      DueOk ⟨u, t.taken, answers, t.outstanding⟩ moved :=
    h.keep hlatest hthreads hanswerTo hresponse (hpc ▸ hdue)
  cases Master.syncStep_move hs with
  | connectRead hpc hrequest =>
    simp only [takenBy, outstandingAfter, hpc, hrequest, Master.sendable, if_true,
      Option.toList_some]
    exact h.dispatched ha hpc rfl
  | requestRead hpc hrequest hsendable =>
    simp only [takenBy, outstandingAfter, hpc, hsendable, if_true, Option.toList_some]
    exact h.dispatched ha hpc rfl
  | ignored hpc hsendable =>
    simp only [takenBy, outstandingAfter, hpc, hsendable, Bool.false_eq_true, if_false,
      Option.toList_none, List.append_nil]
    exact hmove rfl rfl rfl rfl rfl (by simp [syncDue, syncHolds])
  | threadCreated hpc hcreated =>
    simp only [takenBy, outstandingAfter, hpc, Option.toList_none, List.append_nil]
    exact h.created hpc
  | sent hpc hkill =>
    simp only [takenBy, outstandingAfter, hpc, hkill, if_true, Option.toList_none, List.append_nil]
    exact h.sent hpc
  | unsent hpc hkill =>
    simp only [takenBy, outstandingAfter, hpc, hkill, Bool.false_eq_true, if_false,
      Option.toList_none, List.append_nil]
    exact hmove rfl rfl rfl rfl rfl (by simp [syncDue, syncHolds, hpc])
  | refused hpc =>
    simp only [takenBy, outstandingAfter, hpc, Option.toList_none, List.append_nil]
    exact h.refused ha hpc
  | received hpc | threadFailed hpc | startFound hpc | slaveFound hpc | slaveUnknown hpc
  | outOfTable hpc | cycleUnset hpc | cycleSet hpc | acquired hpc | written hpc | notified hpc =>
    simp only [takenBy, outstandingAfter, hpc, Option.toList_none, List.append_nil]
    exact hmove rfl rfl rfl rfl rfl (by simp [syncDue, syncHolds, hpc])

section Word

variable {current acting : ℕ} {mustChange killed : Bool} {v v' : View} {effect : Effect}

def writes : Pc → Option Request
  | .sendSemWait request | .sendWrite request => some request
  | _ => none

theorem step_writes (h : SlotThread.step current mustChange killed v = some (v', effect))
    {request : Request} (hwrites : writes v'.pc = some request) :
    writes v.pc = some request ∨ request = .changeSlaveName := by
  cases step_move h with
  | jumped hjump => cases hjump <;> simp_all [writes]
  | _ => simp_all [writes]

theorem step_requested (h : SlotThread.step current mustChange killed v = some (v', effect))
    (heffect : effect = .requested) : ∃ request, v.pc = .sendWrite request ∧
      v'.seg.reqMToS = request := by
  cases step_move h with
  | requested hpc => exact ⟨_, hpc, rfl⟩
  | acknowledgeSent hpc => cases killed <;> simp at heffect
  | _ => simp at heffect

theorem step_answered (h : SlotThread.step current mustChange killed v = some (v', effect))
    {response : Response} {k : ℕ} (heffect : effect = .answered response k) :
    slotHolds acting v.pc = some k := by
  cases step_move h with
  | answered hpc | resetAnswered hpc => simp_all [slotHolds]
  | acknowledgeSent hpc => cases killed <;> simp at heffect
  | _ => simp at heffect

theorem step_word (h : SlotThread.step current mustChange killed v = some (v', effect))
    (heffect : effect ≠ .requested) : v'.seg.reqMToS = v.seg.reqMToS ∨ v'.seg = .zero := by
  cases step_move h with
  | requested hpc => exact absurd rfl heffect
  | zeroed hpc => exact .inr rfl
  | errorsHandled hpc hseg => exact .inl (SameControl.of_errors hseg).reqMToS
  | received hpc => exact .inl (receiveParameters_sameControl v.seg).reqMToS
  | _ => exact .inl rfl

theorem step_responseValue (h : SlotThread.step current mustChange killed v = some (v', effect))
    {request : Request} (hpc' : v'.pc = .responseValue true request) :
    v.pc = .responseSwitch true ∧ request = v.seg.reqMToS ∧ recognized true request = true := by
  cases step_move h with
  | jumped hjump =>
    cases hjump with
    | @responseRecognized isConnected hpc hrequest =>
      obtain ⟨rfl, rfl⟩ : isConnected = true ∧ v.seg.reqMToS = request := by simpa using hpc'
      rw [MasterAnswer.step_responseSwitch hpc] at h
      by_cases hrecognized : recognized true v.seg.reqMToS = true
      · exact ⟨hpc, rfl, hrecognized⟩
      · simp [hrecognized] at h
    | _ => simp at hpc'
  | loweredMToS hpc | loweredSToM hpc => simp [hpc] at hpc'
  | _ => simp at hpc'

end Word

/-- What holds of the latest command while the configurator waits for its answer. -/
structure PhaseInv (t : Traced) (moved : Bool) : Prop where
  written : ∀ i, (t.state.slots i).written ≤ t.state.latest.id
  answerTo : t.state.answerTo ≤ t.state.latest.id
  requests : ∀ u ∈ t.state.threads, ∀ pid i pc request, u.pc = .serve pid i pc →
    writes pc = some request → cycle request = false
  words : awaiting t.state = true → tabled t.state.latest.request = true → WordOk t
  phase : awaiting t.state = true → tabled t.state.latest.request = true → DueOk t moved

theorem requests_set {t : Traced} {moved : Bool} (h : PhaseInv t moved) {s : Master.State} {j : ℕ}
    {u : Thread} (hthreads : s.threads = t.state.threads.set j u)
    (hu : ∀ pid i pc request, u.pc = .serve pid i pc → writes pc = some request →
      cycle request = false) :
    ∀ u ∈ s.threads, ∀ pid i pc request, u.pc = .serve pid i pc → writes pc = some request →
      cycle request = false := by
  intro w hw
  obtain ⟨k, hk⟩ := List.getElem?_of_mem (hthreads ▸ hw)
  rcases Master.getElem?_set_cases hk with ⟨-, rfl⟩ | ⟨-, hk⟩
  · exact hu
  · exact h.requests w (List.mem_of_getElem? hk)

theorem WordOk.set {t : Traced} (h : WordOk t) {s : Master.State} {j : ℕ} {u : Thread}
    {answers : List ℕ} {outstanding : Idx → Option ℕ} (hlatest : s.latest = t.state.latest)
    (hsync : s.sync = t.state.sync) (hthreads : s.threads = t.state.threads.set j u)
    (hslots : ∀ i, (s.slots i).written = t.state.latest.id →
      cycle (s.slots i).seg.reqMToS = false)
    (hu : ∀ pid i request, u.pc = .serve pid i (.responseValue true request) →
      u.acting = t.state.latest.id → request = .disconnectSlave) :
    WordOk ⟨s, t.taken, answers, outstanding⟩ := by
  refine ⟨?_, ?_, fun w hw ↦ ?_⟩
  · dsimp only
    rw [hsync, hlatest]
    exact h.sync
  · dsimp only
    rw [hlatest]
    exact hslots
  · dsimp only at hw ⊢
    rw [hlatest]
    obtain ⟨k, hk⟩ := List.getElem?_of_mem (hthreads ▸ hw)
    rcases Master.getElem?_set_cases hk with ⟨-, rfl⟩ | ⟨-, hk⟩
    · exact hu
    · exact h.threads w (List.mem_of_getElem? hk)

theorem PhaseInv.set {t : Traced} {moved : Bool} (h : PhaseInv t moved) (pc : ThreadPc) {j : ℕ}
    {thread : Thread} {s : Master.State} {answers : List ℕ}
    (ht : t.state.threads[j]? = some thread) (hf : Master.ThreadFrame t.state s)
    (hthreads : s.threads = t.state.threads.set j { thread with pc := pc })
    (hanswerTo : s.answerTo = t.state.answerTo)
    (hresponse : s.control.response = t.state.control.response)
    (hslots : ∀ i, (s.slots i).written = (t.state.slots i).written ∧
      (s.slots i).seg.reqMToS = (t.state.slots i).seg.reqMToS)
    (hpc : ∀ pid i pc', pc = .serve pid i pc' → pc' = .sendSemWait .connectSlave)
    (hdue : ∀ k b, threadDue k { thread with pc := pc } = some b → threadDue k thread = some b) :
    PhaseInv ⟨s, t.taken, answers, t.outstanding⟩ moved := by
  have hawaiting : awaiting s = awaiting t.state := by rw [awaiting, hf.configurator, awaiting]
  refine ⟨fun i ↦ ?_, ?_, requests_set h hthreads fun pid i pc' request hserve hwrites ↦ ?_,
    fun hwait htabled ↦ ?_, fun hwait htabled ↦ ?_⟩
  · dsimp only
    rw [(hslots i).1, hf.latest]
    exact h.written i
  · dsimp only
    rw [hanswerTo, hf.latest]
    exact h.answerTo
  · rw [hpc pid i pc' hserve] at hwrites
    rw [← Option.some.inj hwrites]
    rfl
  all_goals
    dsimp only at hwait htabled
    rw [hawaiting] at hwait
    rw [hf.latest] at htabled
  · refine (h.words hwait htabled).set hf.latest hf.sync hthreads (fun i hi ↦ ?_)
      fun pid i request hserve ↦ ?_
    · rw [(hslots i).2]
      exact (h.words hwait htabled).slots i ((hslots i).1 ▸ hi)
    · cases hpc pid i _ hserve
  · exact (h.phase hwait htabled).set ht hthreads hf.latest hf.sync hanswerTo hresponse hdue

theorem PhaseInv.serve {t : Traced} {moved : Bool} (h : PhaseInv t moved) (ha : AnswerInv False t)
    {j : ℕ} {mustChange killed : Bool} {thread : Thread} {pid : Pid} {i : Idx} {pc : Pc} {v : View}
    {effect : Effect} {s u : Master.State} {answers : List ℕ}
    (hsent : responsesSent t (.thread j mustChange killed) = true)
    (ht : t.state.threads[j]? = some thread) (hpc : thread.pc = .serve pid i pc)
    (hstep : SlotThread.step (t.state.slots i).written mustChange killed
      ⟨(t.state.slots i).seg, pc, (t.state.slots i).wake⟩ = some (v, effect))
    (hs : s = { t.state with
      slots := update t.state.slots i ((t.state.slots i).stepped thread.acting v effect)
      threads := t.state.threads.set j (thread.stepped (t.state.slots i) pid i v) })
    (hu : u = s.answer effect) (hf : Master.ThreadFrame t.state u)
    (hchanges : changes pc = true → slotHolds thread.acting pc = some t.state.latest.id) :
    PhaseInv ⟨u, t.taken, answers, update t.outstanding i (outstandingNext thread.acting killed
      (t.state.slots i).seg (t.outstanding i) pc)⟩ (moved || changes pc) := by
  have hmem := List.mem_of_getElem? ht
  have hthread := ha.threads thread hmem
  have hholds : threadHolds thread = slotHolds thread.acting pc := by rw [threadHolds, hpc]
  have hle {k : ℕ} (hk : slotHolds thread.acting pc = some k) : k ≤ t.state.latest.id :=
    ha.ids k (taken_of_held ha (held_by_thread hmem (hholds.trans hk)))
  have hslots : u.slots = update t.state.slots i
      ((t.state.slots i).stepped thread.acting v effect) := by
    rw [hu, Master.answer_slots, hs]
  have hthreads : u.threads = t.state.threads.set j (thread.stepped (t.state.slots i) pid i v) := by
    rw [hu, Master.answer_threads, hs]
  have hwritten (hr : effect = .requested) : ∃ request, pc = .sendWrite request ∧
      v.seg.reqMToS = request := step_requested hstep hr
  have hawaiting : awaiting u = awaiting t.state := by rw [awaiting, hf.configurator, awaiting]
  refine ⟨fun l ↦ ?_, ?_, requests_set h hthreads fun pid' l pc' request hserve hwrites ↦ ?_,
    fun hwait htabled ↦ ?_, fun hwait htabled ↦ ?_⟩
  · dsimp only
    rw [hslots, hf.latest]
    by_cases hli : l = i
    · rw [hli, update_self]
      unfold Master.Slot.stepped
      dsimp only
      split_ifs with hr
      · obtain ⟨request, rfl, -⟩ := hwritten hr
        exact hle rfl
      · exact h.written i
    · rw [update_of_ne hli]
      exact h.written l
  · dsimp only
    rw [hf.latest]
    rcases Master.answer_answerTo s effect with heq | ⟨response, heffect⟩
    · rw [hu, heq, hs]
      exact h.answerTo
    · rw [hu]
      exact hle (step_answered hstep heffect)
  · obtain ⟨-, -, rfl⟩ := ThreadPc.serve.inj hserve
    rcases step_writes hstep hwrites with hold | rfl
    · exact h.requests thread hmem pid i pc request hpc hold
    · rfl
  all_goals
    dsimp only at hwait htabled
    rw [hawaiting] at hwait
    rw [hf.latest] at htabled
    have hword := h.words hwait htabled
  · refine hword.set hf.latest hf.sync hthreads (fun l hl ↦ ?_)
      fun pid' l request hserve hacting ↦ ?_
    · rw [hslots] at hl ⊢
      by_cases hli : l = i
      · rw [hli, update_self] at hl ⊢
        by_cases hr : effect = .requested
        · obtain ⟨request, rfl, hrequest⟩ := hwritten hr
          exact hrequest ▸ h.requests thread hmem pid i _ request hpc rfl
        · rcases step_word hstep hr with hsame | hzero
          · refine (congrArg cycle hsame).trans (hword.slots i ?_)
            rwa [Master.Slot.stepped, if_neg hr] at hl
          · exact congrArg (fun seg : Shmseg ↦ cycle seg.reqMToS) hzero
      · rw [update_of_ne hli] at hl ⊢
        exact hword.slots l hl
    · obtain ⟨-, -, hv⟩ := ThreadPc.serve.inj hserve
      obtain ⟨rfl, rfl, hrecognized⟩ := step_responseValue hstep hv
      have hacting : thread.acting = t.state.latest.id := by
        rwa [Thread.stepped, hv, if_neg (by simp)] at hacting
      have hcycle := hword.slots i ((hthread.written pid i _ hpc rfl).trans hacting)
      dsimp only at hrecognized ⊢
      cases hrequest : (t.state.slots i).seg.reqMToS <;>
        simp_all [recognized, cycle]
  · refine (h.phase hwait htabled).serve ha ht hpc hs hu
      (dueFacts hstep (fun signal hsignal hzero ↦ ?_)
      (ha.outstanding i) (hthread.written pid i pc hpc) (hthread.carried pid i pc · hpc)
      fun request hvalue hacting ↦ ?_) hchanges
    · dsimp only at hsignal hzero
      subst hsignal
      simpa [responsesSent, ht, hpc, hzero] using hsent
    · dsimp only at hvalue
      exact hword.threads thread hmem pid i request (hvalue ▸ hpc) hacting

theorem PhaseInv.thread {t u : Traced} {moved moved' : Bool} (h : PhaseInv t moved)
    (ha : AnswerInv False t) {j : ℕ} {mustChange killed : Bool}
    (hsent : responsesSent t (.thread j mustChange killed) = true)
    (hchanges : ∀ thread, t.state.threads[j]? = some thread →
      moved' = (moved || threadChanges thread) ∧
        (threadChanges thread = true → threadHolds thread = some t.state.latest.id))
    (hs : MasterAnswer.step t (.thread j mustChange killed) = some u) : PhaseInv u moved' := by
  obtain ⟨s, hs', rfl⟩ := Option.map_eq_some_iff.mp hs
  have hf := Master.threadStep_frame hs'
  obtain ⟨thread, ht, hmove⟩ := Master.threadStep_move hs'
  obtain ⟨rfl, hheld⟩ := hchanges thread ht
  simp only [takenBy, Option.toList_none, List.append_nil]
  cases hmove with
  | argumentRead hpc | alreadyConnected hpc | unassigned hpc | placed hpc | outOfMemory hpc =>
    simp only [outstandingAfter, ht, hpc, threadChanges, Bool.or_false]
    exact h.set _ ht hf rfl rfl rfl (fun _ ↦ ⟨rfl, rfl⟩) (by simp) (by simp [threadDue, hpc])
  | @claimed pid i hpc =>
    simp only [outstandingAfter, ht, hpc, threadChanges, Bool.or_false]
    refine h.set (.serve pid i (.sendSemWait .connectSlave)) ht hf rfl rfl rfl (fun l ↦ ?_)
      (by simp) (by simp [threadDue, hpc, due, slotHolds])
    exact ⟨Master.update_kept Master.Slot.written (by rfl) l,
      Master.update_kept (·.seg.reqMToS : Master.Slot → Request) (by rfl) l⟩
  | @served pid i pc v effect hpc hstep =>
    simp only [threadChanges, threadHolds, hpc] at hheld
    simp only [outstandingAfter, ht, hpc, threadChanges]
    exact h.serve ha hsent ht hpc hstep rfl rfl hf hheld

theorem WordOk.syncStep {t : Traced} (h : WordOk t) {created killed : Bool} {s : Master.State}
    {taken answers : List ℕ} {outstanding : Idx → Option ℕ}
    (hrequest : cycle t.state.control.request = false)
    (hs : Master.syncStep created killed t.state = some s) :
    WordOk ⟨s, taken, answers, outstanding⟩ := by
  have hf := Master.syncStep_frame hs
  have hpass {pc : SyncPc} {u : Master.State} (hslots : u.slots = t.state.slots)
      (hthreads : u.threads = t.state.threads) (hlatest : u.latest = t.state.latest)
      (hpc : u.sync = pc)
      (hbound : ∀ k request, bound pc = some (k, request) →
        bound t.state.sync = some (k, request) ∨ cycle request = false) :
      WordOk ⟨u, taken, answers, outstanding⟩ := by
    refine ⟨fun request hr ↦ ?_, ?_, ?_⟩
    · dsimp only at hr
      rw [hpc, hlatest] at hr
      exact (hbound _ request hr).elim (h.sync request) id
    · dsimp only
      rw [hslots, hlatest]
      exact h.slots
    · dsimp only
      rw [hthreads, hlatest]
      exact h.threads
  cases Master.syncStep_move hs with
  | requestRead hpc =>
    exact hpass rfl rfl rfl rfl fun k request hr ↦
      .inr ((Prod.mk.inj (Option.some.inj hr)).2 ▸ hrequest)
  | threadCreated hpc hcreated =>
    refine ⟨by simp [bound], h.slots, fun u hu ↦ ?_⟩
    rcases List.mem_append.mp hu with hold | hnew
    · exact h.threads u hold
    · rw [List.mem_singleton.mp hnew]
      simp
  | @acquired c request pid i hpc hpos =>
    refine ⟨fun r hr ↦ h.sync r (by rw [hpc]; exact hr), fun l hl ↦ ?_, h.threads⟩
    dsimp only at hl ⊢
    by_cases hli : l = i
    · rw [hli, update_self] at hl ⊢
      exact h.slots i hl
    · rw [update_of_ne hli] at hl ⊢
      exact h.slots l hl
  | @written c request pid i hpc =>
    refine ⟨by simp [bound], fun l hl ↦ ?_, h.threads⟩
    dsimp only at hl ⊢
    by_cases hli : l = i
    · rw [hli, update_self] at hl ⊢
      refine h.sync request ?_
      rw [hpc, ← hl]
      rfl
    · rw [update_of_ne hli] at hl ⊢
      exact h.slots l hl
  | startFound hpc | slaveFound hpc | cycleSet hpc =>
    exact hpass rfl rfl rfl rfl (by simp [bound, hpc])
  | _ => exact hpass rfl rfl rfl rfl (by simp [bound])

theorem PhaseInv.syncStep {t : Traced} {moved : Bool} (h : PhaseInv t moved)
    (ha : AnswerInv False t) {created killed : Bool} {s : Master.State} {answers : List ℕ}
    (hfit : awaiting t.state = true → t.state.control.request = t.state.latest.request)
    (hs : Master.syncStep created killed t.state = some s) :
    PhaseInv ⟨s, t.taken ++ (takenBy t.state (.sync created killed)).toList, answers,
      outstandingAfter t.state t.outstanding (.sync created killed)⟩ moved := by
  have hf := Master.syncStep_frame hs
  have hawaiting : awaiting s = awaiting t.state := by rw [awaiting, hf.configurator, awaiting]
  have hle {k : ℕ} (hk : syncHolds t.state.sync = some k) : k ≤ t.state.latest.id :=
    ha.ids k (taken_of_held ha (held_by_sync hk))
  refine ⟨fun l ↦ ?_, ?_, fun u hu ↦ ?_, fun hwait htabled ↦ ?_, fun hwait htabled ↦ ?_⟩
  · dsimp only
    rw [hf.latest]
    cases Master.syncStep_move hs with
    | @acquired c request pid i hpc hpos =>
      exact (Master.update_kept Master.Slot.written (by rfl) l).trans_le (h.written l)
    | @written c request pid i hpc =>
      dsimp only
      by_cases hli : l = i
      · rw [hli, update_self]
        exact hle (by rw [hpc, syncHolds])
      · rw [update_of_ne hli]
        exact h.written l
    | _ => exact h.written l
  · dsimp only
    rw [hf.latest]
    cases Master.syncStep_move hs with
    | refused hpc => exact hle (by rw [hpc, syncHolds])
    | _ => exact h.answerTo
  · dsimp only at hu
    cases Master.syncStep_move hs with
    | threadCreated hpc hcreated =>
      rcases List.mem_append.mp hu with hold | hnew
      · exact h.requests u hold
      · rw [List.mem_singleton.mp hnew]
        simp
    | _ => exact h.requests u hu
  all_goals
    dsimp only at hwait htabled
    rw [hawaiting] at hwait
    rw [hf.latest] at htabled
  · refine (h.words hwait htabled).syncStep ?_ hs
    rw [hfit hwait]
    cases hrequest : t.state.latest.request <;> simp_all [tabled, cycle]
  · exact (h.phase hwait htabled).syncStep ha hs

theorem PhaseInv.keep {t : Traced} {moved : Bool} (h : PhaseInv t moved) {s : Master.State}
    {answers : List ℕ}
    (hslots : ∀ i, (s.slots i).written = (t.state.slots i).written ∧
      (s.slots i).seg.reqMToS = (t.state.slots i).seg.reqMToS)
    (hthreads : s.threads = t.state.threads) (hsync : s.sync = t.state.sync)
    (hlatest : s.latest = t.state.latest) (hanswerTo : s.answerTo = t.state.answerTo)
    (hresponse : s.control.response = t.state.control.response)
    (hawaiting : awaiting s = true → awaiting t.state = true) :
    PhaseInv ⟨s, t.taken, answers, t.outstanding⟩ moved := by
  refine ⟨fun i ↦ ?_, ?_, ?_, fun hwait htabled ↦ ?_, fun hwait htabled ↦ ?_⟩
  · dsimp only
    rw [(hslots i).1, hlatest]
    exact h.written i
  · dsimp only
    rw [hanswerTo, hlatest]
    exact h.answerTo
  · dsimp only
    rw [hthreads]
    exact h.requests
  all_goals
    dsimp only at hwait htabled
    rw [hlatest] at htabled
  · have hword := h.words (hawaiting hwait) htabled
    refine ⟨?_, fun i ↦ ?_, ?_⟩
    · dsimp only
      rw [hsync, hlatest]
      exact hword.sync
    · dsimp only
      rw [(hslots i).1, (hslots i).2, hlatest]
      exact hword.slots i
    · dsimp only
      rw [hthreads, hlatest]
      exact hword.threads
  · exact (h.phase (hawaiting hwait) htabled).keep hlatest hthreads hanswerTo hresponse
      (fun _ _ ↦ hsync ▸ id)

theorem PhaseInv.renew {t : Traced} {moved : Bool} (h : PhaseInv t moved) (ha : AnswerInv False t)
    {s : Master.State} {answers : List ℕ} (hslots : s.slots = t.state.slots)
    (hthreads : s.threads = t.state.threads) (hsync : s.sync = t.state.sync)
    (hlatest : s.latest.id = t.state.latest.id + 1) (hanswerTo : s.answerTo = t.state.answerTo) :
    PhaseInv ⟨s, t.taken, answers, t.outstanding⟩ false := by
  have hfree (hpos : 0 < obligations t (t.state.latest.id + 1)) : False :=
    absurd (ha.ids _ (taken_of_held ha hpos)) (Nat.not_succ_le_self _)
  have hto : t.state.answerTo ≠ t.state.latest.id + 1 := (Nat.lt_succ_of_le h.answerTo).ne
  refine ⟨fun i ↦ ?_, ?_, ?_, fun _ _ ↦ ⟨fun request hr ↦ ?_, fun i hi ↦ ?_,
    fun u hu pid i request hpc hacting ↦ ?_⟩, fun _ _ ↦ ⟨fun _ ↦ ⟨rfl, ?_⟩, fun b hb ↦ ?_,
    fun u hu b hb ↦ ?_, fun i hi ↦ ?_, fun heq ↦ ?_⟩⟩
  · dsimp only
    rw [hslots, hlatest]
    exact (h.written i).trans (Nat.le_succ _)
  · dsimp only
    rw [hanswerTo, hlatest]
    exact h.answerTo.trans (Nat.le_succ _)
  · dsimp only
    rw [hthreads]
    exact h.requests
  all_goals dsimp only at *
  · rw [hsync, hlatest] at hr
    refine (hfree (held_by_sync ?_)).elim
    cases hpc : t.state.sync <;> simp_all [bound, syncHolds]
  · rw [hslots, hlatest] at hi
    exact absurd (hi ▸ h.written i) (Nat.not_succ_le_self _)
  · rw [hthreads] at hu
    rw [hlatest] at hacting
    refine (hfree (held_by_thread hu ?_)).elim
    simpa [threadHolds, hpc, slotHolds] using hacting
  · rw [hanswerTo, hlatest]
    exact hto
  · rw [hsync, hlatest] at hb
    exact (hfree (held_by_sync (syncDue_holds hb).1)).elim
  · rw [hthreads] at hu
    rw [hlatest] at hb
    exact (hfree (held_by_thread hu (threadDue_holds hb))).elim
  · rw [hlatest] at hi
    exact (hfree (held_by_slave hi)).elim
  · rw [hanswerTo, hlatest] at heq
    exact absurd heq hto

theorem PhaseInv.idle {t : Traced} {moved moved' : Bool} (h : PhaseInv t moved)
    (hidle : awaiting t.state = false) : PhaseInv t moved' :=
  ⟨h.written, h.answerTo, h.requests, h.words,
    fun hwait ↦ absurd (hidle.symm.trans hwait) Bool.false_ne_true⟩

theorem PhaseInv.of_idle {t : Traced} {moved : Bool}
    (hwritten : ∀ i, (t.state.slots i).written ≤ t.state.latest.id)
    (hanswerTo : t.state.answerTo ≤ t.state.latest.id) (hthreads : t.state.threads = [])
    (hidle : awaiting t.state = false) : PhaseInv t moved := by
  have hno {p : Prop} (hwait : awaiting t.state = true) : p :=
    absurd (hidle.symm.trans hwait) Bool.false_ne_true
  exact ⟨hwritten, hanswerTo, by simp [hthreads], hno, hno⟩

end RealTimeCyclic.Joint
