import RealTimeCyclic.Library.Tally
import RealTimeCyclic.MasterMove

namespace RealTimeCyclic.MasterAnswer

open Shm SlotThread Probing Function Master Transition Tally

/-- A run with the commands dispatched, one entry for each signal sent to the
configurator, and the request each slave has been signalled and not responded to. -/
structure Traced where
  state : State
  taken : List ℕ
  answers : List ℕ
  outstanding : Idx → Option ℕ

def initial : Traced := ⟨Master.initial, [], [], fun _ ↦ none⟩

def takenBy (s : State) : Event → Option ℕ
  | .sync _ _ =>
    match s.sync with
    | .readRequest c => if sendable s.control.request then some c.id else none
    | _ => none
  | _ => none

def announced : Pc → Option ℕ
  | .notify k | .resetNotify k => some k
  | _ => none

def answeredBy (s : State) : Event → Option ℕ
  | .sync _ _ =>
    match s.sync with
    | .notify c => some c.id
    | _ => none
  | .thread j _ _ =>
    match s.threads[j]? with
    | some thread =>
      match thread.pc with
      | .serve _ _ pc => announced pc
      | _ => none
    | none => none
  | _ => none

/-- A request is outstanding from the `kill` that announces it to the signal that is
taken for its response. -/
def outstandingNext (acting : ℕ) (killed : Bool) (seg : Shmseg) (outstanding : Option ℕ) :
    Pc → Option ℕ
  | .sendKill _ => if killed then some acting else outstanding
  | .getvalueMToS _ => if seg.semMToSRequest = 0 then none else outstanding
  | _ => outstanding

def outstandingAfter (s : State) (outstanding : Idx → Option ℕ) : Event → Idx → Option ℕ
  | .sync _ killed =>
    match s.sync with
    | .kill c _ _ i => if killed then update outstanding i (some c.id) else outstanding
    | _ => outstanding
  | .thread j _ killed =>
    match s.threads[j]? with
    | some thread =>
      match thread.pc with
      | .serve _ i pc => update outstanding i
          (outstandingNext thread.acting killed (s.slots i).seg (outstanding i) pc)
      | _ => outstanding
    | none => outstanding
  | _ => outstanding

def step (t : Traced) (e : Event) : Option Traced :=
  (Master.step t.state e).map fun s ↦
    ⟨s, t.taken ++ (takenBy t.state e).toList, t.answers ++ (answeredBy t.state e).toList,
      outstandingAfter t.state t.outstanding e⟩

def syncHolds : SyncPc → Option ℕ
  | .create c | .lookup c _ | .checkCycle c _ _ | .semWait c _ _ _ | .write c _ _ _
  | .kill c _ _ _ | .nack c | .notify c => some c.id
  | .sigwaitinfo | .readRequest _ | .fault _ => none

def slotHolds (k : ℕ) : Pc → Option ℕ
  | .sendSemWait _ | .sendWrite _ | .sendKill _ | .responseConnected | .responseSwitch _
  | .responseValue _ _ | .renamePost => some k
  | .mustChangeName _ k | .setConnected _ k | .forward _ _ k | .notify k | .resetNotify k => some k
  | .resetMemset k | .resetInit k | .resetDrainMToS k | .resetPostMToS k | .resetDrainSToM k
  | .resetPostSToM k | .resetAnswer k => k
  | _ => none

def threadHolds (t : Thread) : Option ℕ :=
  match t.pc with
  | .readArgument | .lookup _ | .scan _ | .claim _ _ => some t.acting
  | .serve _ _ pc => slotHolds t.acting pc
  | .returned => none

/-- The processing of the command has not come to its end. -/
def Processed (t : Traced) (k : ℕ) : Prop :=
  syncHolds t.state.sync = some k ∨ (∃ u ∈ t.state.threads, threadHolds u = some k) ∨
    ∃ i, t.outstanding i = some k

instance (t : Traced) (k : ℕ) : Decidable (Processed t k) :=
  inferInstanceAs (Decidable (_ ∨ (∃ _, _) ∨ ∃ _, _))

/-- Every command dispatched is answered at most once, and once when neither the
master nor a slave has it any more. -/
structure AnsweredOnce (t : Traced) : Prop where
  taken : ∀ k ∈ t.answers, k ∈ t.taken
  once : t.answers.Nodup
  ended : ∀ k ∈ t.taken, ¬ Processed t k → k ∈ t.answers

def recognized (isConnected : Bool) : Request → Bool
  | .disconnectSlave | .stopSlaveCycle | .startSlaveCycle => isConnected
  | .connectSlave | .changeSlaveName => !isConnected
  | _ => false

/-- The slot thread's own requests reach the slave. A signal is taken for a response
only while a request is outstanding, to a request that the thread knows, and
DISCONNECT is responded to with ACK or NACK. -/
def slotKept (killed : Bool) (seg : Shmseg) (outstanding : Option ℕ) : Pc → Bool
  | .sendKill _ => killed
  | .getvalueMToS _ => seg.semMToSRequest = 0 → outstanding.isSome
  | .responseSwitch isConnected => recognized isConnected seg.reqMToS
  | .responseValue _ .disconnectSlave => seg.resSToM = .ack ∨ seg.resSToM = .nack
  | _ => true

/-- DISCONNECT names a slave that has a slot, CONNECT one that has none, and a free
one is found. -/
def obligationsKept (t : Traced) : Event → Bool
  | .sync _ _ =>
    match t.state.sync with
    | .lookup _ .disconnectSlave =>
      (getAssignedShmsegIdx t.state.slots t.state.control.affectedSlavePid).isSome
    | _ => true
  | .thread j _ killed =>
    match t.state.threads[j]? with
    | some thread =>
      match thread.pc with
      | .lookup pid => (getAssignedShmsegIdx t.state.slots pid).isNone
      | .scan pid => (assignShmsegIdx t.state.slots pid).isSome
      | .serve _ i pc => slotKept killed (t.state.slots i).seg (t.outstanding i) pc
      | _ => true
    | none => true
  | _ => true

def responsesSent (t : Traced) : Event → Bool
  | .thread j _ _ =>
    match t.state.threads[j]? with
    | some thread =>
      match thread.pc with
      | .serve _ i (.getvalueMToS _) =>
        (t.state.slots i).seg.semMToSRequest = 0 → (t.outstanding i).isSome
      | _ => true
    | none => true
  | _ => true

def dropped (acting : ℕ) (killed : Bool) (seg : Shmseg) : Pc → Option ℕ
  | .sendKill _ => if killed then none else some acting
  | .responseSwitch isConnected => if recognized isConnected seg.reqMToS then none else some acting
  | .responseValue _ request =>
    if request = .disconnectSlave ∧ seg.resSToM ≠ .ack ∧ seg.resSToM ≠ .nack then some acting
    else none
  | _ => none

theorem dropped_of_kept {acting : ℕ} {killed : Bool} {seg : Shmseg} {outstanding : Option ℕ}
    {pc : Pc} (h : slotKept killed seg outstanding pc = true) :
    dropped acting killed seg pc = none := by
  cases pc with
  | responseValue isConnected request =>
    refine if_neg ?_
    rintro ⟨rfl, hack, hnack⟩
    simp [slotKept, hack, hnack] at h
  | _ => simp_all [slotKept, dropped]

theorem responsesSent_of_kept {t : Traced} {e : Event} (h : obligationsKept t e = true) :
    responsesSent t e = true := by
  cases e with
  | thread j mustChange killed =>
    cases ht : t.state.threads[j]? with
    | none => simp [responsesSent, ht]
    | some thread =>
      cases hpc : thread.pc with
      | serve pid i pc => cases pc <;> simp_all [responsesSent, obligationsKept, slotKept]
      | _ => simp [responsesSent, ht, hpc]
  | _ => rfl

def syncKeeps (i : Idx) : SyncPc → Bool
  | .write _ _ _ k | .kill _ _ _ k => k = i
  | _ => false

def keeping : Pc → Bool
  | .sendWrite _ | .sendKill _ | .responseConnected | .responseSwitch _ | .responseValue _ _
  | .mustChangeName _ _ | .renamePost | .setConnected _ _ | .forward _ _ _ | .notify _ | .post
  | .resetMemset _ | .resetInit _ | .resetDrainMToS _ | .resetPostMToS _ => true
  | _ => false

def threadKeeps (i : Idx) (t : Thread) : Bool :=
  match t.pc with
  | .serve _ k pc => k = i ∧ keeping pc
  | _ => false

def confirmed : Pc → Bool
  | .sendKill _ | .responseConnected | .responseSwitch _ | .responseValue _ _ => true
  | _ => false

def carried : Pc → Option ℕ
  | .mustChangeName _ k => some k
  | _ => none

structure ThreadOk (s : State) (t : Thread) : Prop where
  written : ∀ pid i pc, t.pc = .serve pid i pc → confirmed pc = true →
    (s.slots i).written = t.acting
  carried : ∀ pid i pc k, t.pc = .serve pid i pc → carried pc = some k → k = t.acting

def tally (held : Option ℕ) (k : ℕ) : ℕ := if held = some k then 1 else 0

@[simp] theorem tally_none (k : ℕ) : tally none k = 0 := rfl

def obligations (t : Traced) (k : ℕ) : ℕ :=
  tally (syncHolds t.state.sync) k + (t.state.threads.map threadHolds).count (some k) +
    entered t.outstanding (some k)

def keepers (t : Traced) (i : Idx) : ℕ :=
  (if syncKeeps i t.state.sync then 1 else 0) + t.state.threads.countP (threadKeeps i) +
    (if (t.outstanding i).isSome then 1 else 0)

/-- No command is answered or held twice, and if `full` none is dropped. -/
structure AnswerInv (full : Prop) (t : Traced) : Prop where
  counts : ∀ k, ∃ drops, t.answers.count k + obligations t k + drops = t.taken.count k ∧
    (full → drops = 0)
  keepers : ∀ i, (t.state.slots i).seg.semMToSRequest + keepers t i ≤ 1
  outstanding : ∀ i k, t.outstanding i = some k → (t.state.slots i).written = k
  kill : ∀ c request pid i, t.state.sync = .kill c request pid i →
    (t.state.slots i).written = c.id
  threads : ∀ u ∈ t.state.threads, ThreadOk t.state u
  ids : ∀ k ∈ t.taken, k ≤ t.state.latest.id
  pending : t.state.pendingMaster = true → t.state.latest.id ∉ t.taken
  reading : ∀ c, t.state.sync = .readRequest c → c.id ∉ t.taken ∧ c.id ≤ t.state.latest.id ∧
    (t.state.pendingMaster = true → c.id ≠ t.state.latest.id)
  nodup : t.taken.Nodup

theorem AnswerInv.answeredOnce {t : Traced} (h : AnswerInv True t) : AnsweredOnce t := by
  have hle (k : ℕ) : t.answers.count k ≤ t.taken.count k := by
    obtain ⟨drops, hk, -⟩ := h.counts k
    omega
  refine ⟨fun k hk ↦ ?_, ?_, fun k hk hended ↦ ?_⟩
  · exact List.count_pos_iff.mp ((List.count_pos_iff.mpr hk).trans_le (hle k))
  · exact List.nodup_iff_count_le_one.mpr fun k ↦
      (hle k).trans (List.nodup_iff_count_le_one.mp h.nodup k)
  · have hpos := List.count_pos_iff.mpr hk
    have hsync : syncHolds t.state.sync ≠ some k := fun hs ↦ hended (.inl hs)
    have hthreads : (t.state.threads.map threadHolds).count (some k) = 0 := by
      rw [List.count_eq_zero]
      intro hmem
      obtain ⟨u, hu, huk⟩ := List.mem_map.mp hmem
      exact hended (.inr (.inl ⟨u, hu, huk⟩))
    have hslaves : entered t.outstanding (some k) = 0 :=
      Nat.eq_zero_of_not_pos fun hi ↦ hended (.inr (.inr (entered_pos.mp hi)))
    obtain ⟨drops, hk, hdrops⟩ := h.counts k
    rw [obligations, tally, if_neg hsync, hthreads, hslaves, hdrops trivial] at hk
    exact List.count_pos_iff.mp (by omega)

/-- What a step of the slot thread means for the command it acts for and for the
semaphore of its slot. -/
structure StepFacts (acting current : ℕ) (killed : Bool) (outstanding : Option ℕ) (v v' : View)
    (effect : Effect) : Prop where
  counts : ∀ k, tally (announced v.pc) k +
      tally (slotHolds (if v'.pc = .responseConnected then current else acting) v'.pc) k +
      tally (outstandingNext acting killed v.seg outstanding v.pc) k +
      tally (dropped acting killed v.seg v.pc) k =
    tally (slotHolds acting v.pc) k + tally outstanding k
  keepers : v'.seg.semMToSRequest + (if keeping v'.pc then 1 else 0) +
      (if (outstandingNext acting killed v.seg outstanding v.pc).isSome then 1 else 0) ≤
    v.seg.semMToSRequest + (if keeping v.pc then 1 else 0) +
      (if outstanding.isSome then 1 else 0)
  outstanding : ∀ k, outstandingNext acting killed v.seg outstanding v.pc = some k →
    (if effect = .requested then acting else current) = k
  written : confirmed v'.pc = true → (if effect = .requested then acting else current) =
    (if v'.pc = .responseConnected then current else acting)
  carried : ∀ k, carried v'.pc = some k →
    k = (if v'.pc = .responseConnected then current else acting)
  requested : effect = .requested → keeping v.pc = true

theorem step_responseSwitch {current : ℕ} {mustChange killed isConnected : Bool} {v : View}
    (hpc : v.pc = .responseSwitch isConnected) :
    SlotThread.step current mustChange killed v = some (⟨v.seg,
      if recognized isConnected v.seg.reqMToS then .responseValue isConnected v.seg.reqMToS
      else .post, v.wake⟩, .silent) := by
  obtain ⟨seg, pc, wake⟩ := v
  obtain rfl : pc = .responseSwitch isConnected := hpc
  unfold SlotThread.step
  cases isConnected
  all_goals
    dsimp only
    cases seg.reqMToS
    all_goals rfl

theorem StepFacts.of_still {acting current : ℕ} {killed : Bool} {outstanding : Option ℕ}
    {v v' : View} {effect : Effect} (houtstanding : ∀ k, outstanding = some k → current = k)
    (heffect : effect ≠ .requested)
    (hnext : outstandingNext acting killed v.seg outstanding v.pc = outstanding)
    (hholds : ∀ k, tally (announced v.pc) k +
        tally (slotHolds (if v'.pc = .responseConnected then current else acting) v'.pc) k +
        tally (dropped acting killed v.seg v.pc) k =
      tally (slotHolds acting v.pc) k)
    (hkeeping : v'.seg.semMToSRequest + (if keeping v'.pc then 1 else 0) ≤
      v.seg.semMToSRequest + (if keeping v.pc then 1 else 0))
    (hwritten : confirmed v'.pc = true →
      current = if v'.pc = .responseConnected then current else acting)
    (hcarried : ∀ k, MasterAnswer.carried v'.pc = some k →
      k = if v'.pc = .responseConnected then current else acting) :
    StepFacts acting current killed outstanding v v' effect := by
  refine ⟨fun k ↦ ?_, ?_, fun k hk ↦ ?_, fun hconfirmed ↦ ?_, hcarried,
    fun h ↦ absurd h heffect⟩
  · have hk := hholds k
    rw [hnext]
    omega
  · rw [hnext]
    omega
  · rw [if_neg heffect]
    exact houtstanding k (hnext ▸ hk)
  · rw [if_neg heffect]
    exact hwritten hconfirmed

theorem jumpFacts {acting current : ℕ} {mustChange killed : Bool} {outstanding : Option ℕ}
    {seg : Shmseg} {pc pc' : Pc} {wake : List Signal}
    (hjump : Jump current mustChange killed seg pc pc')
    (h : SlotThread.step current mustChange killed ⟨seg, pc, wake⟩ =
      some (⟨seg, pc', wake⟩, .silent))
    (hsent : ∀ signal, pc = .getvalueMToS signal → seg.semMToSRequest = 0 →
      outstanding.isSome = true)
    (houtstanding : ∀ k, outstanding = some k → current = k)
    (hwritten : confirmed pc = true → current = acting)
    (hcarried : ∀ k, carried pc = some k → k = acting) :
    StepFacts acting current killed outstanding ⟨seg, pc, wake⟩ ⟨seg, pc', wake⟩ .silent := by
  cases hjump with
  | responseDecoded hpc hzero =>
    subst hpc
    obtain ⟨k, rfl⟩ := Option.isSome_iff_exists.mp (hsent _ rfl hzero)
    obtain rfl := houtstanding k rfl
    constructor <;> simp [hzero, announced, slotHolds, outstandingNext, dropped, keeping,
      confirmed, carried]
  | nothingUnhandled hpc hpos =>
    subst hpc
    refine .of_still houtstanding (by simp) (if_neg hpos.ne') ?_ ?_ ?_ ?_
    all_goals simp [announced, slotHolds, dropped, keeping, confirmed, carried]
  | connectUnsent hpc hkill | renameUnsent hpc hkill =>
    subst hpc
    refine .of_still houtstanding (by simp) (by simp [outstandingNext, hkill]) ?_ ?_ ?_ ?_
    all_goals simp [hkill, announced, slotHolds, dropped, keeping, confirmed, carried]
  | responseUnrecognized hpc | responseRecognized hpc hrequest =>
    obtain rfl := hwritten (by rw [hpc]; rfl)
    rw [step_responseSwitch hpc] at h
    subst hpc
    refine .of_still houtstanding (by simp) rfl ?_ ?_ ?_ ?_
    all_goals simp_all [announced, slotHolds, dropped, keeping, confirmed, carried]
  | responseNack hpc hresponse hrequest =>
    subst hpc
    obtain rfl := hwritten rfl
    refine .of_still houtstanding (by simp) rfl ?_ ?_ ?_ ?_
    all_goals
      rcases hrequest with hnack | hother
      all_goals simp [*, announced, slotHolds, dropped, keeping, confirmed, carried]
  | responseIgnored hpc hresponse | responseAck hpc hresponse | disconnected hpc hresponse
  | nameOffered hpc hresponse =>
    subst hpc
    obtain rfl := hwritten rfl
    refine .of_still houtstanding (by simp) rfl ?_ ?_ ?_ ?_
    all_goals simp [*, announced, slotHolds, dropped, keeping, confirmed, carried]
  | connectedRead hpc =>
    subst hpc
    obtain rfl := hwritten rfl
    refine .of_still houtstanding (by simp) rfl ?_ ?_ ?_ ?_
    all_goals simp [announced, slotHolds, dropped, keeping, confirmed, carried]
  | nameTaken hpc | nameFree hpc =>
    subst hpc
    obtain rfl := hcarried _ rfl
    refine .of_still houtstanding (by simp) rfl ?_ ?_ ?_ ?_
    all_goals simp [announced, slotHolds, dropped, keeping, confirmed, carried]
  | _ hpc =>
    subst hpc
    refine .of_still houtstanding (by simp) rfl ?_ ?_ ?_ ?_
    all_goals simp [announced, slotHolds, dropped, keeping, confirmed, carried]

theorem stepFacts {acting current : ℕ} {mustChange killed : Bool} {outstanding : Option ℕ}
    {v v' : View} {effect : Effect}
    (h : SlotThread.step current mustChange killed v = some (v', effect))
    (hsent : ∀ signal, v.pc = .getvalueMToS signal → v.seg.semMToSRequest = 0 →
      outstanding.isSome = true)
    (hsole : v.seg.semMToSRequest + (if keeping v.pc then 1 else 0) +
      (if outstanding.isSome then 1 else 0) ≤ 1)
    (houtstanding : ∀ k, outstanding = some k → current = k)
    (hwritten : confirmed v.pc = true → current = acting)
    (hcarried : ∀ k, carried v.pc = some k → k = acting) :
    StepFacts acting current killed outstanding v v' effect := by
  have hnone (hkeeping : keeping v.pc = true) : outstanding = none := by
    rw [hkeeping] at hsole
    cases outstanding with
    | none => rfl
    | some k => simp at hsole
  have hmove := step_move h
  obtain ⟨seg, pc, wake⟩ := v
  dsimp only at *
  cases hmove with
  | jumped hjump => exact jumpFacts hjump h hsent houtstanding hwritten hcarried
  | acquired hpc hpos =>
    subst hpc
    refine .of_still houtstanding (by simp) rfl ?_ ?_ ?_ ?_
    all_goals simp [announced, slotHolds, dropped, keeping, confirmed, carried]
    omega
  | requested hpc | sent hpc hkill =>
    subst hpc
    obtain rfl := hnone rfl
    constructor <;> simp_all [announced, slotHolds, outstandingNext, dropped, keeping, confirmed,
      carried]
  | errorsHandled hpc hseg =>
    have hsame := (SameControl.of_errors hseg).semMToSRequest
    subst hpc
    refine .of_still houtstanding (by simp) rfl ?_ ?_ ?_ ?_
    all_goals simp [hsame, announced, slotHolds, dropped, keeping, confirmed, carried]
  | received hpc =>
    have hsame := (receiveParameters_sameControl seg).semMToSRequest
    subst hpc
    refine .of_still houtstanding (by simp) rfl ?_ ?_ ?_ ?_
    all_goals simp [hsame, announced, slotHolds, dropped, keeping, confirmed, carried]
  | acknowledgeSent hpc =>
    subst hpc
    refine .of_still houtstanding (by cases killed <;> simp) rfl ?_ ?_ ?_ ?_
    all_goals simp [announced, slotHolds, dropped, keeping, confirmed, carried]
  | zeroed hpc =>
    have hzero : Shmseg.zero.semMToSRequest = 0 := rfl
    subst hpc
    refine .of_still houtstanding (by simp) rfl ?_ ?_ ?_ ?_
    all_goals simp [hzero, announced, slotHolds, dropped, keeping, confirmed, carried]
  | _ hpc =>
    subst hpc
    refine .of_still houtstanding (by simp) rfl ?_ ?_ ?_ ?_
    all_goals simp [announced, slotHolds, dropped, keeping, confirmed, carried]

theorem count_toList (held : Option ℕ) (k : ℕ) : held.toList.count k = tally held k := by
  cases held with
  | none => rfl
  | some k' => simp [tally, List.count_singleton]

theorem count_singleton (held : Option ℕ) (k : ℕ) : [held].count (some k) = tally held k := by
  rw [List.count_singleton, tally]
  simp only [beq_iff_eq]

theorem keeping_of_confirmed {pc : Pc} (h : confirmed pc = true) : keeping pc = true := by
  cases pc <;> simp_all [confirmed, keeping]

/-- Nobody but the thread that has the semaphore of a slot stands where the request word
matters. -/
theorem AnswerInv.alone {full : Prop} {t : Traced} (h : AnswerInv full t) {j : ℕ}
    {thread : Thread} {i : Idx} (ht : t.state.threads[j]? = some thread)
    (hkeeps : threadKeeps i thread = true) :
    syncKeeps i t.state.sync = false ∧ t.outstanding i = none ∧
      ∀ (k : ℕ) (u : Thread), k ≠ j → t.state.threads[k]? = some u → threadKeeps i u = false := by
  have hle := h.keepers i
  have hpos : 0 < t.state.threads.countP (threadKeeps i) :=
    List.countP_pos_iff.mpr ⟨thread, List.mem_of_getElem? ht, hkeeps⟩
  unfold MasterAnswer.keepers at hle
  refine ⟨?_, ?_, fun k u hk hu ↦ ?_⟩
  · by_contra hsync
    rw [if_pos (by simpa using hsync)] at hle
    omega
  · cases ho : t.outstanding i with
    | none => rfl
    | some k =>
      simp only [ho, Option.isSome_some, if_true] at hle
      omega
  · by_contra hu'
    have htwo := two_le_countP hk hu ht (by simpa using hu') hkeeps
    omega

theorem AnswerInv.of_thread {full : Prop} {t : Traced} (h : AnswerInv full t) {s : State} {j : ℕ}
    {thread u : Thread} {answered : Option ℕ} {outstanding : Idx → Option ℕ} (lost : Option ℕ)
    (ht : t.state.threads[j]? = some thread) (hf : ThreadFrame t.state s)
    (hthreads : s.threads = t.state.threads.set j u)
    (hcounts : ∀ k, tally answered k + tally (threadHolds u) k + entered outstanding (some k) +
        tally lost k = tally (threadHolds thread) k + entered t.outstanding (some k))
    (hlost : full → lost = none)
    (hkeepers : ∀ i, (s.slots i).seg.semMToSRequest + (if threadKeeps i u then 1 else 0) +
        (if (outstanding i).isSome then 1 else 0) ≤
      (t.state.slots i).seg.semMToSRequest + (if threadKeeps i thread then 1 else 0) +
        (if (t.outstanding i).isSome then 1 else 0))
    (houtstanding : ∀ i k, outstanding i = some k → (s.slots i).written = k)
    (hwritten : ∀ i, (s.slots i).written = (t.state.slots i).written ∨
      threadKeeps i thread = true) (hu : ThreadOk s u) :
    AnswerInv full ⟨s, t.taken, t.answers ++ answered.toList, outstanding⟩ := by
  refine ⟨fun k ↦ ?_, fun i ↦ ?_, houtstanding, fun c request pid i hpc ↦ ?_, fun w hw ↦ ?_,
    hf.latest ▸ h.ids, hf.pendingMaster ▸ hf.latest ▸ h.pending, ?_, h.nodup⟩
  · obtain ⟨drops, hold, hdrops⟩ := h.counts k
    refine ⟨drops + tally lost k, ?_, fun hf' ↦ ?_⟩
    swap
    · rw [hdrops hf', hlost hf', tally_none]
    have hset := count_set (b := threadHolds u) (x := some k)
      (show (t.state.threads.map threadHolds)[j]? = some (threadHolds thread) by
        rw [List.getElem?_map, ht, Option.map_some])
    have hk := hcounts k
    unfold obligations at hold ⊢
    rw [List.count_append, count_toList, hf.sync, hthreads, List.map_set]
    unfold tally at hk ⊢ hold
    dsimp only
    omega
  · have hold := h.keepers i
    have hset := countP_set (p := threadKeeps i) (b := u) ht
    have hi := hkeepers i
    unfold MasterAnswer.keepers at hold ⊢
    rw [hf.sync, hthreads]
    dsimp only
    omega
  · rw [hf.sync] at hpc
    rcases hwritten i with hsame | hkeeps
    · exact hsame.trans (h.kill c request pid i hpc)
    · have hsync := (h.alone ht hkeeps).1
      simp [hpc, syncKeeps] at hsync
  · obtain ⟨k, hk⟩ := List.getElem?_of_mem (hthreads ▸ hw)
    rcases getElem?_set_cases hk with ⟨-, rfl⟩ | ⟨hkj, hk⟩
    · exact hu
    · have hold := h.threads w (List.mem_of_getElem? hk)
      refine ⟨fun pid i pc hpc hconfirmed ↦ ?_, hold.carried⟩
      rcases hwritten i with hsame | hkeeps
      · exact hsame.trans (hold.written pid i pc hpc hconfirmed)
      · have hw := (h.alone ht hkeeps).2.2 k w hkj hk
        simp [threadKeeps, hpc, keeping_of_confirmed hconfirmed] at hw
  · rw [hf.sync, hf.latest, hf.pendingMaster]
    exact h.reading

theorem threadStep_inv {full : Prop} {t : Traced} {j : ℕ} {mustChange killed : Bool} {s : State}
    (h : AnswerInv full t) (hok : responsesSent t (.thread j mustChange killed) = true)
    (hfull : full → obligationsKept t (.thread j mustChange killed) = true)
    (hs : threadStep j mustChange killed t.state = some s) :
    AnswerInv full ⟨s, t.taken,
      t.answers ++ (answeredBy t.state (.thread j mustChange killed)).toList,
      outstandingAfter t.state t.outstanding (.thread j mustChange killed)⟩ := by
  have hf := threadStep_frame hs
  obtain ⟨thread, ht, hmove⟩ := threadStep_move hs
  have hmem : thread ∈ t.state.threads := List.mem_of_getElem? ht
  -- until it serves a slot the thread holds its command and no semaphore
  have hmoved {pc : ThreadPc} (lost : Option ℕ)
      (hthreads : s.threads = t.state.threads.set j { thread with pc := pc })
      (hholds : ∀ k, tally (threadHolds { thread with pc := pc }) k + tally lost k =
        tally (threadHolds thread) k)
      (hlost : full → lost = none)
      (hkeeps : ∀ i, threadKeeps i { thread with pc := pc } = false)
      (hslots : ∀ i, (s.slots i).seg.semMToSRequest = (t.state.slots i).seg.semMToSRequest ∧
        (s.slots i).written = (t.state.slots i).written)
      (hok' : ThreadOk s { thread with pc := pc }) :
      AnswerInv full ⟨s, t.taken, t.answers ++ (none : Option ℕ).toList, t.outstanding⟩ := by
    refine h.of_thread lost ht hf hthreads (fun k ↦ ?_) hlost (fun i ↦ ?_) (fun i k hk ↦ ?_)
      (fun i ↦ .inl (hslots i).2) hok'
    · rw [← hholds k, tally_none]
      omega
    · rw [hkeeps i, (hslots i).1]
      simp
    · exact (hslots i).2.trans (h.outstanding i k hk)
  have hidle {pc : ThreadPc} (hpc : ∀ pid i pc', pc ≠ .serve pid i pc') :
      ThreadOk s { thread with pc := pc } :=
    ⟨fun pid i pc' heq ↦ absurd heq (hpc pid i pc'),
      fun pid i pc' _ heq ↦ absurd heq (hpc pid i pc')⟩
  cases hmove with
  | argumentRead hpc | unassigned hpc | placed hpc =>
    simp only [answeredBy, outstandingAfter, ht, hpc]
    exact hmoved none rfl (by simp [threadHolds, hpc]) (fun _ ↦ rfl)
      (by simp [threadKeeps]) (fun _ ↦ ⟨rfl, rfl⟩) (hidle (by simp))
  | alreadyConnected hpc hfound | outOfMemory hpc hfound =>
    simp only [answeredBy, outstandingAfter, ht, hpc]
    refine hmoved (some thread.acting) rfl (by simp [threadHolds, hpc]) (fun hf' ↦ ?_)
      (by simp [threadKeeps]) (fun _ ↦ ⟨rfl, rfl⟩) (hidle (by simp))
    have hkept := hfull hf'
    simp [obligationsKept, ht, hpc, hfound] at hkept
  | claimed hpc =>
    rename_i pid i
    simp only [answeredBy, outstandingAfter, ht, hpc]
    refine hmoved none rfl (by simp [threadHolds, slotHolds, hpc]) (fun _ ↦ rfl)
      (by simp [threadKeeps, keeping]) (fun k ↦ ?_)
      ⟨fun pid' k pc' heq hconfirmed ↦ ?_, fun pid' k pc' _ heq hcarried ↦ ?_⟩
    · exact ⟨update_kept (·.seg.semMToSRequest : Slot → ℕ) (by rfl) k,
        update_kept Slot.written (by rfl) k⟩
    all_goals
      simp only [ThreadPc.serve.injEq] at heq
      obtain ⟨-, -, rfl⟩ := heq
    · cases hconfirmed
    · cases hcarried
  | served hpc hstep =>
    rename_i pid i pc v effect
    have hsent (signal : Signal) (hsignal : pc = .getvalueMToS signal)
        (hzero : (t.state.slots i).seg.semMToSRequest = 0) : (t.outstanding i).isSome = true := by
      subst hsignal
      simpa [responsesSent, ht, hpc, hzero] using hok
    have hthread := h.threads thread hmem
    have hkeeping : threadKeeps i thread = keeping pc := by simp [threadKeeps, hpc]
    have hsole : (t.state.slots i).seg.semMToSRequest + (if keeping pc then 1 else 0) +
        (if (t.outstanding i).isSome then 1 else 0) ≤ 1 := by
      have hle := h.keepers i
      have hpos : (if keeping pc then 1 else 0) ≤ t.state.threads.countP (threadKeeps i) := by
        split_ifs with hk
        · exact List.countP_pos_iff.mpr ⟨thread, hmem, hkeeping.trans hk⟩
        · exact Nat.zero_le _
      unfold MasterAnswer.keepers at hle
      omega
    have hfacts := stepFacts hstep hsent hsole (h.outstanding i) (hthread.written pid i pc hpc)
      (hthread.carried pid i pc · hpc)
    have hslots : ({ t.state with
        slots := update t.state.slots i ((t.state.slots i).stepped thread.acting v effect)
        threads := t.state.threads.set j (thread.stepped (t.state.slots i) pid i v) }.answer
          effect).slots =
        update t.state.slots i ((t.state.slots i).stepped thread.acting v effect) :=
      answer_slots _ _
    simp only [answeredBy, outstandingAfter, ht, hpc]
    refine h.of_thread (u := thread.stepped (t.state.slots i) pid i v)
      (dropped thread.acting killed (t.state.slots i).seg pc) ht hf (answer_threads _ _)
      (fun k ↦ ?_) (fun hf' ↦ ?_) (fun k ↦ ?_) (fun k l hl ↦ ?_) (fun k ↦ ?_)
      ⟨fun pid' k pc' heq hconfirmed ↦ ?_, fun pid' k pc' l heq hcarried ↦ ?_⟩
    · have hentered := entered_update t.outstanding i
        (outstandingNext thread.acting killed (t.state.slots i).seg (t.outstanding i) pc) (some k)
      have hk := hfacts.counts k
      have hnew : threadHolds (thread.stepped (t.state.slots i) pid i v) =
          slotHolds (if v.pc = .responseConnected then (t.state.slots i).written else thread.acting)
            v.pc := rfl
      have hold : threadHolds thread = slotHolds thread.acting pc := by rw [threadHolds, hpc]
      rw [hnew, hold]
      unfold tally at hk ⊢
      dsimp only at hk
      omega
    · have hkept := hfull hf'
      simp only [obligationsKept, ht, hpc] at hkept
      exact dropped_of_kept hkept
    · rw [hslots]
      by_cases hki : k = i
      · subst hki
        rw [update_self, update_self, hkeeping]
        simpa [threadKeeps, Thread.stepped, Slot.stepped] using hfacts.keepers
      · have hother (pc' : Pc) : (decide (i = k ∧ keeping pc' = true)) = false :=
          decide_eq_false fun heq ↦ hki heq.1.symm
        rw [update_of_ne hki, update_of_ne hki]
        simp [threadKeeps, Thread.stepped, hpc, hother]
    · rw [hslots]
      by_cases hki : k = i
      · subst hki
        rw [update_self] at hl ⊢
        exact hfacts.outstanding l hl
      · rw [update_of_ne hki] at hl ⊢
        exact h.outstanding k l hl
    · rw [hslots]
      by_cases hki : k = i
      · subst hki
        rw [update_self, hkeeping]
        by_cases hrequested : effect = .requested
        · exact .inr (hfacts.requested hrequested)
        · exact .inl (if_neg hrequested)
      · rw [update_of_ne hki]
        exact .inl rfl
    · simp only [Thread.stepped, ThreadPc.serve.injEq] at heq
      obtain ⟨-, rfl, rfl⟩ := heq
      rw [hslots, update_self]
      exact hfacts.written hconfirmed
    · simp only [Thread.stepped, ThreadPc.serve.injEq] at heq
      obtain ⟨-, rfl, rfl⟩ := heq
      exact hfacts.carried l hcarried

theorem AnswerInv.release {full : Prop} {t : Traced} (h : AnswerInv full t) {s : State}
    (lost : Option ℕ)
    (hslots : ∀ i, (s.slots i).seg.semMToSRequest = (t.state.slots i).seg.semMToSRequest ∧
      (s.slots i).written = (t.state.slots i).written)
    (hthreads : s.threads = t.state.threads)
    (hholds : ∀ k, tally (syncHolds s.sync) k + tally lost k = tally (syncHolds t.state.sync) k)
    (hlost : full → lost = none)
    (hkeeps : ∀ i, syncKeeps i s.sync = true → syncKeeps i t.state.sync = true)
    (hkill : ∀ c request pid i, s.sync = .kill c request pid i →
      t.state.sync = .kill c request pid i)
    (hids : t.state.latest.id ≤ s.latest.id)
    (hpending : s.pendingMaster = true → s.latest.id ∉ t.taken)
    (hreading : ∀ c, s.sync = .readRequest c → c.id ∉ t.taken ∧ c.id ≤ s.latest.id ∧
      (s.pendingMaster = true → c.id ≠ s.latest.id)) : AnswerInv full { t with state := s } := by
  refine ⟨fun k ↦ ?_, fun i ↦ ?_, fun i k hk ↦ (hslots i).2.trans (h.outstanding i k hk),
    fun c request pid i hpc ↦
      (hslots i).2.trans (h.kill c request pid i (hkill c request pid i hpc)),
    fun u hu ↦ ⟨fun pid i pc hpc hconfirmed ↦ (hslots i).2.trans ?_, ?_⟩,
    fun k hk ↦ (h.ids k hk).trans hids, hpending, hreading, h.nodup⟩
  · obtain ⟨drops, hold, hdrops⟩ := h.counts k
    refine ⟨drops + tally lost k, ?_, fun hf ↦ ?_⟩
    · unfold obligations at hold ⊢
      rw [← hholds k] at hold
      rw [hthreads]
      dsimp only
      omega
    · rw [hdrops hf, hlost hf, tally_none]
  · have hold := h.keepers i
    have hle : (if syncKeeps i s.sync then 1 else 0) ≤
        if syncKeeps i t.state.sync then 1 else 0 := by
      split_ifs with hnew hno
      · exact le_rfl
      · exact absurd (hkeeps i hnew) hno
      · exact Nat.zero_le _
      · exact le_rfl
    unfold MasterAnswer.keepers at hold ⊢
    rw [(hslots i).1, hthreads]
    dsimp only
    omega
  · exact (h.threads u (hthreads ▸ hu)).written pid i pc hpc hconfirmed
  · exact (h.threads u (hthreads ▸ hu)).carried

theorem AnswerInv.keep {full : Prop} {t : Traced} (h : AnswerInv full t) {s : State}
    (hslots : ∀ i, (s.slots i).seg.semMToSRequest = (t.state.slots i).seg.semMToSRequest ∧
      (s.slots i).written = (t.state.slots i).written)
    (hthreads : s.threads = t.state.threads)
    (hholds : syncHolds s.sync = syncHolds t.state.sync)
    (hkeeps : ∀ i, syncKeeps i s.sync = true → syncKeeps i t.state.sync = true)
    (hkill : ∀ c request pid i, s.sync = .kill c request pid i →
      t.state.sync = .kill c request pid i)
    (hids : t.state.latest.id ≤ s.latest.id)
    (hpending : s.pendingMaster = true → s.latest.id ∉ t.taken)
    (hreading : ∀ c, s.sync = .readRequest c → c.id ∉ t.taken ∧ c.id ≤ s.latest.id ∧
      (s.pendingMaster = true → c.id ≠ s.latest.id)) : AnswerInv full { t with state := s } :=
  h.release none hslots hthreads (fun k ↦ by rw [hholds, tally_none, Nat.add_zero])
    (fun _ ↦ rfl) hkeeps hkill hids hpending hreading

theorem AnswerInv.dispatched {full : Prop} {t : Traced} (h : AnswerInv full t) {c : Command}
    {pc : SyncPc} (hpc : t.state.sync = .readRequest c) (hholds : syncHolds pc = some c.id)
    (hkeeps : ∀ i, syncKeeps i pc = false) (hreading : ∀ c, pc ≠ .readRequest c)
    (hkill : ∀ c request pid i, pc ≠ .kill c request pid i) :
    AnswerInv full { t with state := { t.state with sync := pc }, taken := t.taken ++ [c.id] } := by
  obtain ⟨hfresh, hle, hlatest⟩ := h.reading c hpc
  refine ⟨fun k ↦ ?_, fun i ↦ ?_, h.outstanding,
    fun c request pid i hs ↦ absurd hs (hkill c request pid i),
    fun u hu ↦ ⟨(h.threads u hu).written, (h.threads u hu).carried⟩, fun k hk ↦ ?_,
    fun hp hmem ↦ ?_, fun c hs ↦ absurd hs (hreading c), ?_⟩
  · obtain ⟨drops, hold, hdrops⟩ := h.counts k
    refine ⟨drops, ?_, hdrops⟩
    unfold obligations at hold ⊢
    rw [hpc] at hold
    have hnew := count_toList (some c.id) k
    rw [Option.toList_some] at hnew
    simp only [hholds, List.count_append, hnew]
    simp only [syncHolds, tally_none] at hold
    omega
  · have hold := h.keepers i
    unfold MasterAnswer.keepers at hold ⊢
    simp only [hkeeps i, Bool.false_eq_true, if_false]
    omega
  · rcases List.mem_append.mp hk with hold | hnew
    · exact h.ids k hold
    · exact List.mem_singleton.mp hnew ▸ hle
  · rcases List.mem_append.mp hmem with hold | hnew
    · exact h.pending hp hold
    · exact hlatest hp (List.mem_singleton.mp hnew).symm
  · exact List.nodup_append.mpr ⟨h.nodup, List.nodup_singleton _, fun a ha b hb hab ↦
      hfresh (List.mem_singleton.mp hb ▸ hab ▸ ha)⟩

theorem AnswerInv.sync_alone {full : Prop} {t : Traced} (h : AnswerInv full t) {i : Idx}
    (hkeeps : syncKeeps i t.state.sync = true) : t.outstanding i = none ∧
      ∀ u ∈ t.state.threads, threadKeeps i u = false := by
  refine ⟨?_, fun u hu ↦ ?_⟩
  · have hle := h.keepers i
    unfold MasterAnswer.keepers at hle
    rw [if_pos hkeeps] at hle
    cases ho : t.outstanding i with
    | none => rfl
    | some k =>
      simp only [ho, Option.isSome_some, if_true] at hle
      omega
  · by_contra hu'
    obtain ⟨j, hj⟩ := List.getElem?_of_mem hu
    have hsync := (h.alone hj (by simpa using hu')).1
    simp [hkeeps] at hsync

theorem AnswerInv.acquired {full : Prop} {t : Traced} (h : AnswerInv full t) {c : Command}
    {request : Request} {pid : Pid} {i : Idx} (hpc : t.state.sync = .semWait c request pid i)
    (hpos : 0 < (t.state.slots i).seg.semMToSRequest) :
    AnswerInv full { t with state := { t.state with
      slots := update t.state.slots i { t.state.slots i with
        seg.semMToSRequest := (t.state.slots i).seg.semMToSRequest - 1
        acquired := c.id }
      sync := .write c request pid i } } := by
  have hwritten (k : Idx) : (update t.state.slots i { t.state.slots i with
      seg.semMToSRequest := (t.state.slots i).seg.semMToSRequest - 1
      acquired := c.id } k).written = (t.state.slots k).written :=
    update_kept Slot.written (by rfl) k
  refine ⟨fun k ↦ ?_, fun k ↦ ?_, fun k l hl ↦ (hwritten k).trans (h.outstanding k l hl), by simp,
    fun u hu ↦ ⟨fun p k pc hu' hconfirmed ↦ ?_, (h.threads u hu).carried⟩, h.ids, h.pending,
    by simp, h.nodup⟩
  · obtain ⟨drops, hold, hdrops⟩ := h.counts k
    refine ⟨drops, ?_, hdrops⟩
    unfold obligations at hold ⊢
    rw [hpc] at hold
    exact hold
  · have hold := h.keepers k
    unfold MasterAnswer.keepers at hold ⊢
    simp only [hpc, syncKeeps, Bool.false_eq_true, if_false, decide_eq_true_eq] at hold ⊢
    by_cases hki : k = i
    · subst hki
      rw [update_self, if_pos rfl]
      dsimp only
      omega
    · rw [update_of_ne hki, if_neg (Ne.symm hki)]
      omega
  · exact (hwritten k).trans ((h.threads u hu).written p k pc hu' hconfirmed)

theorem AnswerInv.written_slot {full : Prop} {t : Traced} (h : AnswerInv full t) {c : Command}
    {request : Request} {pid : Pid} {i : Idx} (hpc : t.state.sync = .write c request pid i) :
    AnswerInv full { t with state := { t.state with
      slots := update t.state.slots i { t.state.slots i with
        seg.reqMToS := request
        written := c.id }
      sync := .kill c request pid i } } := by
  obtain ⟨hnone, hthreads⟩ := h.sync_alone (i := i) (by simp [hpc, syncKeeps])
  have hsem (k : Idx) : (update t.state.slots i { t.state.slots i with
      seg.reqMToS := request
      written := c.id } k).seg.semMToSRequest = (t.state.slots k).seg.semMToSRequest :=
    update_kept (·.seg.semMToSRequest : Slot → ℕ) (by rfl) k
  have hother {k : Idx} (hki : k ≠ i) : (update t.state.slots i { t.state.slots i with
      seg.reqMToS := request
      written := c.id } k).written = (t.state.slots k).written := by rw [update_of_ne hki]
  refine ⟨fun k ↦ ?_, fun k ↦ ?_, fun k l hl ↦ ?_, fun c' request' pid' i' hs ↦ ?_,
    fun u hu ↦ ⟨fun p k pc hu' hconfirmed ↦ ?_, (h.threads u hu).carried⟩, h.ids, h.pending,
    by simp, h.nodup⟩
  · obtain ⟨drops, hold, hdrops⟩ := h.counts k
    refine ⟨drops, ?_, hdrops⟩
    unfold obligations at hold ⊢
    rw [hpc] at hold
    exact hold
  · have hold := h.keepers k
    unfold MasterAnswer.keepers at hold ⊢
    rw [hpc] at hold
    dsimp only
    rw [hsem]
    exact hold
  · have hki : k ≠ i := by
      rintro rfl
      simp [hnone] at hl
    exact (hother hki).trans (h.outstanding k l hl)
  · obtain ⟨rfl, -, -, rfl⟩ := SyncPc.kill.inj hs
    dsimp only
    rw [update_self]
  · have hki : k ≠ i := by
      rintro rfl
      have hno := hthreads u hu
      simp [threadKeeps, hu', keeping_of_confirmed hconfirmed] at hno
    exact (hother hki).trans ((h.threads u hu).written p k pc hu' hconfirmed)

theorem AnswerInv.sent {full : Prop} {t : Traced} (h : AnswerInv full t) {c : Command}
    {request : Request} {pid : Pid} {i : Idx} (hpc : t.state.sync = .kill c request pid i) :
    AnswerInv full { t with
      state := { t.state with sync := .sigwaitinfo }
      outstanding := update t.outstanding i (some c.id) } := by
  obtain ⟨hnone, -⟩ := h.sync_alone (i := i) (by simp [hpc, syncKeeps])
  refine ⟨fun k ↦ ?_, fun k ↦ ?_, fun k l hl ↦ ?_, by simp,
    fun u hu ↦ ⟨(h.threads u hu).written, (h.threads u hu).carried⟩, h.ids, h.pending, by simp,
    h.nodup⟩
  · obtain ⟨drops, hold, hdrops⟩ := h.counts k
    refine ⟨drops, ?_, hdrops⟩
    have hentered : entered (update t.outstanding i (some c.id)) (some k) +
        tally (t.outstanding i) k = entered t.outstanding (some k) + tally (some c.id) k :=
      entered_update t.outstanding i (some c.id) (some k)
    unfold obligations at hold ⊢
    rw [hpc] at hold
    rw [hnone] at hentered
    simp only [syncHolds, tally_none] at hold hentered ⊢
    omega
  · have hold := h.keepers k
    unfold MasterAnswer.keepers at hold ⊢
    simp only [hpc, syncKeeps, Bool.false_eq_true, if_false, decide_eq_true_eq] at hold ⊢
    by_cases hki : k = i
    · subst hki
      simp only [update_self, hnone, Option.isSome_none, Option.isSome_some, Bool.false_eq_true,
        if_false, if_true] at hold ⊢
      omega
    · simp only [update_of_ne hki]
      rwa [if_neg (Ne.symm hki)] at hold
  · dsimp only at hl
    by_cases hki : k = i
    · subst hki
      rw [update_self] at hl
      exact (h.kill c request pid k hpc).trans (Option.some.inj hl)
    · rw [update_of_ne hki] at hl
      exact h.outstanding k l hl

theorem AnswerInv.created {full : Prop} {t : Traced} (h : AnswerInv full t) {c : Command}
    {cell : Pid} (hpc : t.state.sync = .create c) :
    AnswerInv full { t with state := { t.state with
      cell := cell
      threads := t.state.threads ++ [⟨c, c.id, .readArgument⟩]
      sync := .sigwaitinfo } } := by
  have hnew : ThreadOk t.state ⟨c, c.id, .readArgument⟩ := ⟨by simp, by simp⟩
  refine ⟨fun k ↦ ?_, fun i ↦ ?_, h.outstanding, by simp, fun u hu ↦ ?_, h.ids, h.pending, by simp,
    h.nodup⟩
  · obtain ⟨drops, hold, hdrops⟩ := h.counts k
    refine ⟨drops, ?_, hdrops⟩
    unfold obligations at hold ⊢
    rw [hpc] at hold
    simp only [List.map_append, List.map_cons, List.map_nil, List.count_append, threadHolds,
      syncHolds, tally_none]
    rw [count_singleton]
    simp only [syncHolds] at hold
    omega
  · have hold := h.keepers i
    unfold MasterAnswer.keepers at hold ⊢
    rw [hpc] at hold
    simpa [List.countP_append, threadKeeps, syncKeeps] using hold
  · rcases List.mem_append.mp hu with hold | hnewer
    · exact ⟨(h.threads u hold).written, (h.threads u hold).carried⟩
    · rw [List.mem_singleton.mp hnewer]
      exact ⟨hnew.written, hnew.carried⟩

theorem AnswerInv.notified {full : Prop} {t : Traced} (h : AnswerInv full t) {c : Command}
    (hpc : t.state.sync = .notify c) :
    AnswerInv full { t with
      state := { t.state with pendingConfigurator := true, sync := .sigwaitinfo }
      answers := t.answers ++ [c.id] } := by
  refine ⟨fun k ↦ ?_, fun i ↦ ?_, h.outstanding, by simp,
    fun u hu ↦ ⟨(h.threads u hu).written, (h.threads u hu).carried⟩, h.ids, h.pending, by simp,
    h.nodup⟩
  · obtain ⟨drops, hold, hdrops⟩ := h.counts k
    refine ⟨drops, ?_, hdrops⟩
    have hnew := count_toList (some c.id) k
    rw [Option.toList_some] at hnew
    unfold obligations at hold ⊢
    rw [hpc] at hold
    simp only [syncHolds, tally_none, List.count_append, hnew] at hold ⊢
    omega
  · have hold := h.keepers i
    unfold MasterAnswer.keepers at hold ⊢
    rw [hpc] at hold
    exact hold

theorem syncStep_inv {full : Prop} {t : Traced} {created killed : Bool} {s : State}
    (h : AnswerInv full t) (hfull : full → obligationsKept t (.sync created killed) = true)
    (hs : syncStep created killed t.state = some s) :
    AnswerInv full ⟨s, t.taken ++ (takenBy t.state (.sync created killed)).toList,
      t.answers ++ (answeredBy t.state (.sync created killed)).toList,
      outstandingAfter t.state t.outstanding (.sync created killed)⟩ := by
  have hmove {pc : SyncPc} {u : State} (hslots : u.slots = t.state.slots)
      (hthreads : u.threads = t.state.threads) (hlatest : u.latest = t.state.latest)
      (hpending : u.pendingMaster = t.state.pendingMaster) (hpc : u.sync = pc)
      (hholds : syncHolds pc = syncHolds t.state.sync) (hkeeps : ∀ i, syncKeeps i pc = false)
      (hkill : ∀ c request pid i, pc ≠ .kill c request pid i)
      (hreading : ∀ c, pc ≠ .readRequest c) : AnswerInv full { t with state := u } := by
    refine h.keep (fun i ↦ ?_) hthreads (hpc ▸ hholds) (fun i hi ↦ ?_)
      (fun c request pid i hc ↦ ?_) (hlatest ▸ le_rfl) ?_ fun c hc ↦ ?_
    · rw [hslots]
      exact ⟨rfl, rfl⟩
    · simp [hpc, hkeeps i] at hi
    · exact absurd (hpc.symm.trans hc) (hkill c request pid i)
    · rw [hpending, hlatest]
      exact h.pending
    · exact absurd (hpc.symm.trans hc) (hreading c)
  cases syncStep_move hs with
  | received hpc hp =>
    simp only [takenBy, answeredBy, outstandingAfter, hpc, Option.toList_none, List.append_nil]
    refine h.keep (fun _ ↦ ⟨rfl, rfl⟩) rfl (by simp [syncHolds, hpc]) (by simp [syncKeeps])
      (by simp) le_rfl (by simp) fun c hc ↦ ?_
    rw [← SyncPc.readRequest.inj hc]
    exact ⟨h.pending hp, le_rfl, by simp⟩
  | connectRead hpc hrequest =>
    simp only [takenBy, answeredBy, outstandingAfter, hpc, hrequest, sendable, if_true,
      Option.toList_none, Option.toList_some, List.append_nil]
    exact h.dispatched hpc rfl (by simp [syncKeeps]) (by simp) (by simp)
  | requestRead hpc hrequest hsendable =>
    simp only [takenBy, answeredBy, outstandingAfter, hpc, hsendable, if_true, Option.toList_none,
      Option.toList_some, List.append_nil]
    exact h.dispatched hpc rfl (by simp [syncKeeps]) (by simp) (by simp)
  | ignored hpc hsendable =>
    simp only [takenBy, answeredBy, outstandingAfter, hpc, hsendable, Bool.false_eq_true, if_false,
      Option.toList_none, List.append_nil]
    exact hmove rfl rfl rfl rfl rfl (by simp [syncHolds, hpc]) (by simp [syncKeeps]) (by simp)
      (by simp)
  | threadCreated hpc hcreated =>
    simp only [takenBy, answeredBy, outstandingAfter, hpc, Option.toList_none, List.append_nil]
    exact h.created hpc
  | @outOfTable c hpc hnone =>
    simp only [takenBy, answeredBy, outstandingAfter, hpc, Option.toList_none, List.append_nil]
    refine h.release (some c.id) (fun _ ↦ ⟨rfl, rfl⟩) rfl (by simp [syncHolds, hpc])
      (fun hf ↦ ?_) (by simp [syncKeeps]) (by simp) le_rfl h.pending (by simp)
    have hkept := hfull hf
    simp [obligationsKept, hpc, hnone] at hkept
  | acquired hpc hpos =>
    simp only [takenBy, answeredBy, outstandingAfter, hpc, Option.toList_none, List.append_nil]
    exact h.acquired hpc hpos
  | written hpc =>
    simp only [takenBy, answeredBy, outstandingAfter, hpc, Option.toList_none, List.append_nil]
    exact h.written_slot hpc
  | sent hpc hkill =>
    simp only [takenBy, answeredBy, outstandingAfter, hpc, hkill, if_true, Option.toList_none,
      List.append_nil]
    exact h.sent hpc
  | unsent hpc hkill =>
    simp only [takenBy, answeredBy, outstandingAfter, hpc, hkill, Bool.false_eq_true, if_false,
      Option.toList_none, List.append_nil]
    exact hmove rfl rfl rfl rfl rfl (by simp [syncHolds, hpc]) (by simp [syncKeeps]) (by simp)
      (by simp)
  | notified hpc =>
    simp only [takenBy, answeredBy, outstandingAfter, hpc, Option.toList_none, Option.toList_some,
      List.append_nil]
    exact h.notified hpc
  | threadFailed hpc | startFound hpc | slaveFound hpc | slaveUnknown hpc | cycleUnset hpc
  | cycleSet hpc | refused hpc =>
    simp only [takenBy, answeredBy, outstandingAfter, hpc, Option.toList_none, List.append_nil]
    exact hmove rfl rfl rfl rfl rfl (by simp [syncHolds, hpc]) (by simp [syncKeeps]) (by simp)
      (by simp)

theorem step_inv {full : Prop} {t u : Traced} {e : Event} (h : AnswerInv full t)
    (hok : responsesSent t e = true) (hfull : full → obligationsKept t e = true)
    (hstep : step t e = some u) : AnswerInv full u := by
  obtain ⟨s, hs, rfl⟩ := Option.map_eq_some_iff.mp hstep
  have hkept {s : State} (hslots : ∀ i,
        (s.slots i).seg.semMToSRequest = (t.state.slots i).seg.semMToSRequest ∧
          (s.slots i).written = (t.state.slots i).written)
      (hthreads : s.threads = t.state.threads) (hsync : s.sync = t.state.sync)
      (hlatest : s.latest = t.state.latest) (hpending : s.pendingMaster = t.state.pendingMaster) :
      AnswerInv full { t with state := s } := by
    refine h.keep hslots hthreads (hsync ▸ rfl) (fun i ↦ hsync ▸ id) (fun _ _ _ _ ↦ hsync ▸ id)
      (hlatest ▸ le_rfl) ?_ ?_
    · rw [hpending, hlatest]
      exact h.pending
    · rw [hsync, hpending, hlatest]
      exact h.reading
  cases e with
  | sync created killed => exact syncStep_inv h hfull hs
  | thread j mustChange killed =>
    simp only [takenBy, Option.toList_none, List.append_nil]
    exact threadStep_inv h hok hfull hs
  | deliver pid signal =>
    have hf := deliverStep_frame pid signal t.state
    obtain rfl := Option.some.inj hs
    simp only [takenBy, answeredBy, outstandingAfter, Option.toList_none, List.append_nil]
    refine hkept (fun i ↦ ⟨?_, ?_⟩) (deliverStep_threads _ _ _) hf.sync hf.latest hf.pendingMaster
    · rw [deliverStep_seg]
    · exact deliverStep_written pid signal t.state i
  | slave i w | configure i requestedParameters communicationCycleUs =>
    obtain rfl := Option.some.inj hs
    simp only [takenBy, answeredBy, outstandingAfter, Option.toList_none, List.append_nil]
    refine hkept (fun k ↦ ⟨?_, ?_⟩) rfl rfl rfl rfl
    · exact update_kept (·.seg.semMToSRequest : Slot → ℕ) (by rfl) k
    · exact update_kept Slot.written (by rfl) k
  | send =>
    obtain ⟨-, hs⟩ := Option.ite_none_right_eq_some.mp hs
    obtain rfl := Option.some.inj hs
    simp only [takenBy, answeredBy, outstandingAfter, Option.toList_none, List.append_nil]
    refine h.keep (fun _ ↦ ⟨rfl, rfl⟩) rfl rfl (fun _ ↦ id) (fun _ _ _ _ ↦ id) (Nat.le_succ _)
      (fun _ hmem ↦ ?_) fun c hc ↦ ?_
    · exact absurd (h.ids _ hmem) (Nat.not_succ_le_self _)
    · obtain ⟨hfresh, hle, -⟩ := h.reading c hc
      exact ⟨hfresh, hle.trans (Nat.le_succ _), fun _ ↦ (Nat.lt_succ_of_le hle).ne⟩
  | _ =>
    obtain ⟨-, hs⟩ := Option.ite_none_right_eq_some.mp hs
    obtain rfl := Option.some.inj hs
    simp only [takenBy, answeredBy, outstandingAfter, Option.toList_none, List.append_nil]
    exact hkept (fun _ ↦ ⟨rfl, rfl⟩) rfl rfl rfl rfl

theorem initial_inv (full : Prop) : AnswerInv full initial := by
  refine ⟨fun k ↦ ?_, fun i ↦ ?_, by simp [initial], by simp [initial, Master.initial],
    by simp [initial, Master.initial], by simp [initial], by simp [initial, Master.initial],
    by simp [initial, Master.initial], List.nodup_nil⟩
  · have hentered : entered initial.outstanding (some k) = 0 :=
      entered_const (Option.some_ne_none k).symm
    refine ⟨0, ?_, fun _ ↦ rfl⟩
    unfold obligations
    rw [hentered]
    rfl
  · exact le_of_eq rfl

theorem answeredOnce_of_kept {t : Traced}
    (h : Reaches step (fun t e ↦ obligationsKept t e = true) initial t) : AnsweredOnce t := by
  have hinv : AnswerInv True t := h.invariant (initial_inv True) fun _ _ _ hinv hok ↦
    step_inv hinv (responsesSent_of_kept hok) fun _ ↦ hok
  exact hinv.answeredOnce

def fourCommands : List Event :=
  connectedRun ++ [Event.type .startSlaveCycle, Event.name 100, Event.send] ++
    List.replicate 6 (Event.sync true true) ++ [Event.take, Event.report,
      Event.type .connectSlave, Event.name 132, Event.send] ++
    List.replicate 5 (Event.sync false true) ++ [Event.take, Event.report,
      Event.type .disconnectSlave, Event.name 100, Event.send] ++
    List.replicate 6 (Event.sync true true)

theorem fourCommands_answered :
    ∃ t, t.taken = [1, 2, 3, 4] ∧ t.answers = [1, 2, 3] ∧ t.outstanding 4 = some 4 ∧
      AnsweredOnce t := by
  have hrun : (run (guarded step fun t e ↦ obligationsKept t e = true) initial fourCommands).map
      (fun t ↦ (t.taken, t.answers, t.outstanding 4)) =
      some ([1, 2, 3, 4], [1, 2, 3], some 4) := by
    decide +kernel
  obtain ⟨t, ht, hview⟩ := Option.map_eq_some_iff.mp hrun
  simp only [Prod.mk.injEq] at hview
  exact ⟨t, hview.1, hview.2.1, hview.2.2, answeredOnce_of_kept (.of_run ht)⟩

/-- The configurator gives up on CONNECT 100 before the slave answers, and sends it again after
it has been connected. -/
def connectedTwice : List Event :=
  [Event.type .connectSlave, Event.name 100, Event.send] ++
    List.replicate 3 (Event.sync true true) ++ List.replicate 7 (Event.thread 0 false true) ++
    [Event.timeout, Event.slave 4 acknowledged, Event.deliver 100 .response] ++
    List.replicate 12 (Event.thread 0 false true) ++
    [Event.type .connectSlave, Event.name 100, Event.send] ++
    List.replicate 3 (Event.sync true true) ++ List.replicate 2 (Event.thread 1 false true)

theorem connect_unanswered : ¬ ∀ t, Reaches step unrestricted initial t → AnsweredOnce t := by
  intro hall
  have hrun : (run step initial connectedTwice).map
      (fun t ↦ (t.taken, t.answers, decide (Processed t 2))) = some ([1, 2], [1], false) := by
    decide +kernel
  obtain ⟨t, ht, hview⟩ := Option.map_eq_some_iff.mp hrun
  simp only [Prod.mk.injEq] at hview
  obtain ⟨htaken, hanswers, hprocessed⟩ := hview
  have hended : ¬ Processed t 2 := of_decide_eq_false hprocessed
  have hanswered := (hall t (.of_unrestricted_run ht)).ended 2 (by simp [htaken]) hended
  simp [hanswers] at hanswered

end RealTimeCyclic.MasterAnswer
