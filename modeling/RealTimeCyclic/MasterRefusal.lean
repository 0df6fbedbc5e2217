import RealTimeCyclic.MasterBlocking

namespace RealTimeCyclic.MasterRefusal

open Shm SlotThread Probing Function Master Transition
open MasterBlocking (busy)

/-- The master, and whether it has answered NACK since it took the command. -/
structure Processing where
  state : State
  refused : Bool

def busyThread : ThreadPc → Bool
  | .readArgument | .lookup _ | .scan _ | .claim _ _ => true
  | .serve _ _ pc => busy pc
  | .returned => false

/-- The parties to one command: the sync thread while it has it, the slot threads that
act for it, the others as far as they wait for signals and serve their slaves, and the
slaves. -/
def processes (c : Command) (s : State) : Event → Bool
  | .sync _ _ => s.sync.command = some c
  | .thread j _ _ =>
    match s.threads[j]? with
    | some thread => thread.acting = c.id ∨ busyThread thread.pc = false
    | none => false
  | .deliver _ _ | .slave _ _ => true
  | _ => false

def refuses (s : State) : Event → Bool
  | .sync _ _ =>
    match s.sync with
    | .nack _ => true
    | _ => false
  | .thread j _ _ =>
    match s.threads[j]? with
    | some thread =>
      match thread.pc with
      | .serve _ _ (.forward _ .nack _) => true
      | _ => false
    | none => false
  | _ => false

def step (c : Command) (p : Processing) (e : Event) : Option Processing :=
  if processes c p.state e then
    (Master.step p.state e).map fun s ↦ ⟨s, p.refused || refuses p.state e⟩
  else none

def serving (c : Command) (thread : Thread) : Bool :=
  thread.acting = c.id ∧ busyThread thread.pc

/-- Neither the sync thread nor a slot thread has the command. -/
structure Settled (c : Command) (s : State) : Prop where
  sync : s.sync.command ≠ some c
  threads : ∀ u ∈ s.threads, serving c u = false

/-- Who owns which slot, which slots are connected and which semaphores are taken. -/
structure SameTable (s t : State) : Prop where
  pid : ∀ i, (t.slots i).seg.pid = (s.slots i).seg.pid
  isConnected : ∀ i, (t.slots i).seg.isConnected = (s.slots i).seg.isConnected
  semMToSRequest : ∀ i, (t.slots i).seg.semMToSRequest = (s.slots i).seg.semMToSRequest

def Restored (c : Command) (s : State) (p : Processing) : Prop :=
  p.refused = true → Settled c p.state → SameTable s p.state

/-- DISCONNECT, START and STOP reach the slave; CONNECT and CHANGE_SLAVE_NAME are
responded to with ACK; and no second thread takes a signal for a response that is
being handled. -/
def refusalsKept (c : Command) (p : Processing) : Event → Bool
  | .sync _ killed =>
    match p.state.sync with
    | .kill _ _ _ _ => killed
    | _ => true
  | .thread j _ _ =>
    match p.state.threads[j]? with
    | some thread =>
      match thread.pc with
      | .serve _ i (.getvalueMToS _) =>
        (p.state.slots i).seg.semMToSRequest = 0 → (p.state.slots i).written = c.id →
          ∀ u ∈ p.state.threads, serving c u = false
      | .serve _ i (.responseValue false _) => (p.state.slots i).seg.resSToM = .ack
      | _ => true
    | none => true
  | _ => true

def joining (request : Request) : Bool := request = .connectSlave ∨ request = .changeSlaveName

def dispatching (c : Command) : SyncPc → Bool
  | .readRequest c' | .create c' | .checkCycle c' _ _ | .nack c' | .notify c' | .fault c' => c' = c
  | .lookup c' request | .semWait c' request _ _ => c' = c ∧ joining request = false
  | _ => false

def passedOn (c : Command) : SyncPc → Bool
  | .kill _ _ _ _ => true
  | pc => pc.command ≠ some c

def answering : Pc → Bool
  | .responseConnected | .responseSwitch _ | .responseValue true _ | .forward _ _ _ | .notify _
  | .post => true
  | _ => false

def concluding : Pc → Bool
  | .notify _ | .post => true
  | _ => false

def accepting (request : Request) : Pc → Bool
  | .sendSemWait r | .sendWrite r | .sendKill r => joining r
  | .responseConnected | .responseSwitch _ => joining request
  | .responseValue isConnected _ => !isConnected
  | .forward _ response _ => response = .ack
  | _ => true

def renewing : Pc → Bool
  | .sendWrite _ | .resetMemset _ | .resetInit _ | .resetDrainMToS _ | .resetPostMToS _ => true
  | _ => false

def renews (i : Idx) : ThreadPc → Bool
  | .serve _ k pc => k = i ∧ renewing pc
  | _ => false

/-- The table but for a semaphore taken for the command. -/
structure Borrowed (s t : State) (i : Idx) : Prop where
  pid : ∀ k, (t.slots k).seg.pid = (s.slots k).seg.pid
  isConnected : ∀ k, (t.slots k).seg.isConnected = (s.slots k).seg.isConnected
  taken : (t.slots i).seg.semMToSRequest + 1 = (s.slots i).seg.semMToSRequest
  others : ∀ k, k ≠ i → (t.slots k).seg.semMToSRequest = (s.slots k).seg.semMToSRequest

/-- The request for the command is the last one to the slave of slot `i`, and to no other. -/
structure Requested (c : Command) (t : State) (i : Idx) : Prop where
  written : ∀ k, (t.slots k).written = c.id ↔ k = i
  request : joining (t.slots i).seg.reqMToS = false

def Quiet (c : Command) (t : State) : Prop := ∀ u ∈ t.threads, serving c u = false

/-- A command that cannot be refused any more. -/
structure Accepted (c : Command) (p : Processing) : Prop where
  refused : p.refused = false
  sync : passedOn c p.state.sync = true
  threads : ∀ u ∈ p.state.threads, serving c u = true → ∀ pid i pc, u.pc = .serve pid i pc →
    accepting (p.state.slots i).seg.reqMToS pc = true
  slots : ∀ i, (p.state.slots i).written = c.id → joining (p.state.slots i).seg.reqMToS = true ∨
    0 < (p.state.slots i).seg.semMToSRequest ∨
    ∃ u ∈ p.state.threads, serving c u = true ∧ renews i u.pc = true
  alone : ∀ (j k : ℕ) (u w : Thread), j ≠ k → p.state.threads[j]? = some u →
    p.state.threads[k]? = some w → serving c u = true → serving c w = false

/-- Where a command taken in state `s` stands. -/
inductive Stage (c : Command) (s : State) (p : Processing) : Prop
  | dispatched (hsync : dispatching c p.state.sync = true)
      (hrefused : p.refused = true → p.state.sync = .notify c) (hsame : SameTable s p.state)
      (hwritten : ∀ i, (p.state.slots i).written ≠ c.id) (hquiet : Quiet c p.state)
  | taken {request : Request} {pid : Pid} {i : Idx} (hsync : p.state.sync = .write c request pid i)
      (hrequest : joining request = false) (hrefused : p.refused = false)
      (hless : Borrowed s p.state i) (hwritten : ∀ i, (p.state.slots i).written ≠ c.id)
      (hquiet : Quiet c p.state)
  | outstanding {i : Idx} (hsync : passedOn c p.state.sync = true) (hrefused : p.refused = false)
      (hless : Borrowed s p.state i) (hrequest : Requested c p.state i) (hquiet : Quiet c p.state)
  | handled {j : ℕ} {u : Thread} {pid : Pid} {i : Idx} {pc : Pc}
      (hthread : p.state.threads[j]? = some u) (hacting : u.acting = c.id)
      (hpc : u.pc = .serve pid i pc) (hanswering : answering pc = true)
      (hrefused : p.refused = true → concluding pc = true)
      (hsync : passedOn c p.state.sync = true) (hless : Borrowed s p.state i)
      (hrequest : Requested c p.state i)
      (halone : ∀ (k : ℕ) (w : Thread), k ≠ j → p.state.threads[k]? = some w → serving c w = false)
  | restored (hsync : passedOn c p.state.sync = true) (hsame : SameTable s p.state)
      (hreleased : ∀ i, (p.state.slots i).written = c.id →
        0 < (p.state.slots i).seg.semMToSRequest) (hquiet : Quiet c p.state)
  | accepted (h : Accepted c p)

theorem serving_of_acting {c : Command} {u : Thread} {pid : Pid} {i : Idx} {pc : Pc}
    (hacting : u.acting = c.id) (hpc : u.pc = .serve pid i pc) : serving c u = busy pc := by
  simp [serving, hacting, hpc, busyThread]

theorem busy_of_answering {pc : Pc} (h : answering pc = true) : busy pc = true := by
  cases pc <;> simp_all [answering, busy]

theorem command_of_dispatching {c : Command} {pc : SyncPc} (h : dispatching c pc = true) :
    pc.command = some c := by
  cases pc <;> simp_all [dispatching, SyncPc.command]

theorem Stage.restored_of_settled {c : Command} {s : State} {p : Processing} (h : Stage c s p) :
    Restored c s p := by
  intro hp hsettled
  cases h with
  | dispatched hsync => exact absurd (command_of_dispatching hsync) hsettled.sync
  | taken hsync => exact absurd (by rw [hsync]; rfl) hsettled.sync
  | outstanding _ hrefused => simp [hrefused] at hp
  | @handled j u pid i pc hthread hacting hpc hanswering =>
    have hno := hsettled.threads u (List.mem_of_getElem? hthread)
    simp [serving_of_acting hacting hpc, busy_of_answering hanswering] at hno
  | restored _ hsame => exact hsame
  | accepted h => simp [h.refused] at hp

theorem step_waiting {current : ℕ} {mustChange killed : Bool} {v v' : View} {effect : Effect}
    (h : SlotThread.step current mustChange killed v = some (v', effect))
    (hbusy : busy v.pc = false) :
    v'.seg.pid = v.seg.pid ∧ v'.seg.isConnected = v.seg.isConnected ∧
      v'.seg.semMToSRequest = v.seg.semMToSRequest ∧ v'.seg.reqMToS = v.seg.reqMToS ∧
      effect ≠ .requested ∧ (busy v'.pc = false ∨ v'.pc = .responseConnected ∧
        v.seg.semMToSRequest = 0 ∧ ∃ signal, v.pc = .getvalueMToS signal) := by
  cases step_move h with
  | jumped hjump =>
    cases hjump with
    | responseDecoded hpc hzero => exact ⟨rfl, rfl, rfl, rfl, by simp, .inr ⟨rfl, hzero, _, hpc⟩⟩
    | _ => simp_all [busy]
  | errorsHandled hpc hseg =>
    have hsame := SameControl.of_errors hseg
    exact ⟨hsame.pid, hsame.isConnected, hsame.semMToSRequest, hsame.reqMToS, by simp, .inl rfl⟩
  | received hpc =>
    have hsame := receiveParameters_sameControl v.seg
    exact ⟨hsame.pid, hsame.isConnected, hsame.semMToSRequest, hsame.reqMToS, by simp, .inl rfl⟩
  | acknowledgeSent hpc =>
    refine ⟨rfl, rfl, rfl, rfl, ?_, .inl rfl⟩
    cases killed
    all_goals simp
  | woken hpc hwake | acknowledged hpc => exact ⟨rfl, rfl, rfl, rfl, by simp, .inl rfl⟩
  | _ => simp_all [busy]

theorem step_answering {current : ℕ} {mustChange killed : Bool} {v v' : View} {effect : Effect}
    (h : SlotThread.step current mustChange killed v = some (v', effect))
    (hpc : answering v.pc = true) (hrequest : joining v.seg.reqMToS = false) :
    effect ≠ .requested ∧
      ((v'.seg = v.seg ∧ answering v'.pc = true ∧
          (concluding v.pc = true ∨ (∃ request k, v.pc = .forward request .nack k) →
            concluding v'.pc = true)) ∨
        (v'.seg = v.seg ∧ concluding v.pc = false ∧ (∀ request k, v.pc ≠ .forward request .nack k) ∧
          ∃ k, v'.pc = .resetMemset k) ∨
        (v.pc = .post ∧ v'.pc = .sigSemWait ∧
          v'.seg = { v.seg with semMToSRequest := v.seg.semMToSRequest + 1 })) := by
  cases step_move h with
  | jumped hjump =>
    cases hjump with
    | responseRecognized hswitch hjoining =>
      rename_i isConnected
      cases isConnected with
      | false => simp [joining, hjoining rfl] at hrequest
      | true => simp_all [answering, concluding]
    | _ => simp_all [answering, concluding]
  | posted hpc => exact ⟨by simp, .inr (.inr ⟨hpc, rfl, rfl⟩)⟩
  | answered hpc | notified hpc => simp_all [answering, concluding]
  | _ => simp_all [answering]

theorem step_joining_connected {current : ℕ} {mustChange killed : Bool} {v : View}
    (hpc : v.pc = .responseSwitch true) (hrequest : joining v.seg.reqMToS = true) :
    SlotThread.step current mustChange killed v = some (⟨v.seg, .post, v.wake⟩, .silent) := by
  obtain ⟨seg, pc, wake⟩ := v
  obtain rfl : pc = .responseSwitch true := hpc
  rcases of_decide_eq_true hrequest with hconnect | hrename
  · simp [SlotThread.step, show seg.reqMToS = .connectSlave from hconnect]
  · simp [SlotThread.step, show seg.reqMToS = .changeSlaveName from hrename]

theorem step_accepting {current acting : ℕ} {mustChange killed : Bool} {v v' : View}
    {effect : Effect}
    (h : SlotThread.step current mustChange killed v = some (v', effect))
    (hbusy : busy v.pc = true) (haccepting : accepting v.seg.reqMToS v.pc = true)
    (hack : ∀ request, v.pc = .responseValue false request → v.seg.resSToM = .ack)
    (hslot : current = acting → joining v.seg.reqMToS = true ∨ 0 < v.seg.semMToSRequest ∨
      renewing v.pc = true) :
    accepting v'.seg.reqMToS v'.pc = true ∧ v'.pc ≠ .responseConnected ∧
      ((if effect = .requested then acting else current) = acting →
        joining v'.seg.reqMToS = true ∨ 0 < v'.seg.semMToSRequest ∨ renewing v'.pc = true) := by
  have hrename : joining .changeSlaveName = true := rfl
  cases step_move h with
  | jumped hjump =>
    cases hjump with
    | responseRecognized hpc hjoining =>
      rename_i isConnected
      cases isConnected with
      | false => simp_all [accepting, busy, joining]
      | true =>
        rw [step_joining_connected hpc (by simpa [accepting, hpc] using haccepting)] at h
        cases h
    | _ => simp_all [accepting, busy, renewing]
  | _ => simp_all [accepting, busy, renewing]

/-- The slots agree in what matters for a command. -/
structure SameSlots (s t : State) : Prop extends SameTable s t where
  reqMToS : ∀ i, (t.slots i).seg.reqMToS = (s.slots i).seg.reqMToS
  written : ∀ i, (t.slots i).written = (s.slots i).written

theorem SameSlots.of_eq {s t : State} (h : t.slots = s.slots) : SameSlots s t := by
  refine ⟨⟨fun i ↦ ?_, fun i ↦ ?_, fun i ↦ ?_⟩, fun i ↦ ?_, fun i ↦ ?_⟩
  all_goals rw [h]

theorem SameTable.update {s t : State} {i : Idx} {slot : Slot}
    (hslots : t.slots = update s.slots i slot) (hpid : slot.seg.pid = (s.slots i).seg.pid)
    (hconnected : slot.seg.isConnected = (s.slots i).seg.isConnected)
    (hsem : slot.seg.semMToSRequest = (s.slots i).seg.semMToSRequest) : SameTable s t := by
  refine ⟨fun k ↦ ?_, fun k ↦ ?_, fun k ↦ ?_⟩
  all_goals rw [hslots]
  · exact update_kept (·.seg.pid : Slot → Pid) hpid k
  · exact update_kept (·.seg.isConnected : Slot → Bool) hconnected k
  · exact update_kept (·.seg.semMToSRequest : Slot → ℕ) hsem k

theorem SameSlots.update {s t : State} {i : Idx} {slot : Slot}
    (hslots : t.slots = update s.slots i slot) (hpid : slot.seg.pid = (s.slots i).seg.pid)
    (hconnected : slot.seg.isConnected = (s.slots i).seg.isConnected)
    (hsem : slot.seg.semMToSRequest = (s.slots i).seg.semMToSRequest)
    (hrequest : slot.seg.reqMToS = (s.slots i).seg.reqMToS)
    (hwritten : slot.written = (s.slots i).written) : SameSlots s t := by
  refine ⟨.update hslots hpid hconnected hsem, fun k ↦ ?_, fun k ↦ ?_⟩
  all_goals rw [hslots]
  · exact update_kept (·.seg.reqMToS : Slot → Request) hrequest k
  · exact update_kept Slot.written hwritten k

theorem SameTable.trans {s t u : State} (h : SameTable s t) (h' : SameTable t u) :
    SameTable s u :=
  ⟨fun i ↦ (h'.pid i).trans (h.pid i), fun i ↦ (h'.isConnected i).trans (h.isConnected i),
    fun i ↦ (h'.semMToSRequest i).trans (h.semMToSRequest i)⟩

theorem SameTable.borrow {s t u : State} {i : Idx} {slot : Slot} (h : SameTable s t)
    (hslots : u.slots = Function.update t.slots i slot) (hpid : slot.seg.pid = (t.slots i).seg.pid)
    (hconnected : slot.seg.isConnected = (t.slots i).seg.isConnected)
    (hsem : slot.seg.semMToSRequest + 1 = (t.slots i).seg.semMToSRequest) : Borrowed s u i := by
  refine ⟨fun k ↦ ?_, fun k ↦ ?_, ?_, fun k hk ↦ ?_⟩
  all_goals rw [hslots]
  · exact (update_kept (·.seg.pid : Slot → Pid) hpid k).trans (h.pid k)
  · exact (update_kept (·.seg.isConnected : Slot → Bool) hconnected k).trans (h.isConnected k)
  · rw [update_self, hsem, h.semMToSRequest]
  · rw [update_of_ne hk, h.semMToSRequest]

theorem Borrowed.post {s t u : State} {i : Idx} {slot : Slot} (h : Borrowed s t i)
    (hslots : u.slots = Function.update t.slots i slot) (hpid : slot.seg.pid = (t.slots i).seg.pid)
    (hconnected : slot.seg.isConnected = (t.slots i).seg.isConnected)
    (hsem : slot.seg.semMToSRequest = (t.slots i).seg.semMToSRequest + 1) : SameTable s u := by
  refine ⟨fun k ↦ ?_, fun k ↦ ?_, fun k ↦ ?_⟩
  all_goals rw [hslots]
  · exact (update_kept (·.seg.pid : Slot → Pid) hpid k).trans (h.pid k)
  · exact (update_kept (·.seg.isConnected : Slot → Bool) hconnected k).trans (h.isConnected k)
  · by_cases hki : k = i
    · rw [hki, update_self, hsem, h.taken]
    · rw [update_of_ne hki, h.others k hki]

theorem Borrowed.keep {s t u : State} {i : Idx} (h : Borrowed s t i) (h' : SameTable t u) :
    Borrowed s u i := by
  refine ⟨fun k ↦ (h'.pid k).trans (h.pid k), fun k ↦ (h'.isConnected k).trans (h.isConnected k),
    ?_, fun k hk ↦ (h'.semMToSRequest k).trans (h.others k hk)⟩
  rw [h'.semMToSRequest, h.taken]

theorem Requested.keep {c : Command} {t u : State} {i : Idx} (h : Requested c t i)
    (h' : SameSlots t u) : Requested c u i :=
  ⟨fun k ↦ h'.written k ▸ h.written k, h'.reqMToS i ▸ h.request⟩

/-- The threads at work for the command are the same. -/
structure SameServing (c : Command) (s t : State) : Prop where
  old : ∀ (k : ℕ) (w : Thread), t.threads[k]? = some w → serving c w = true →
    s.threads[k]? = some w
  new : ∀ (k : ℕ) (w : Thread), s.threads[k]? = some w → serving c w = true →
    t.threads[k]? = some w

theorem SameServing.of_eq {c : Command} {s t : State} (h : t.threads = s.threads) :
    SameServing c s t :=
  ⟨fun _ _ hw _ ↦ h ▸ hw, fun _ _ hw _ ↦ h ▸ hw⟩

theorem SameServing.set {c : Command} {s t : State} {j : ℕ} {thread u : Thread}
    (ht : s.threads[j]? = some thread) (hthreads : t.threads = s.threads.set j u)
    (hthread : serving c thread = false) (hu : serving c u = false) : SameServing c s t := by
  refine ⟨fun k w hw hserving ↦ ?_, fun k w hw hserving ↦ ?_⟩
  · rw [hthreads] at hw
    rcases getElem?_set_cases hw with ⟨-, rfl⟩ | ⟨-, hold⟩
    · simp [hu] at hserving
    · exact hold
  · have hne : j ≠ k := by
      rintro rfl
      obtain rfl := Option.some.inj (ht.symm.trans hw)
      simp [hthread] at hserving
    rw [hthreads, List.getElem?_set_ne hne]
    exact hw

theorem Quiet.keep {c : Command} {s t : State} (h : Quiet c s) (h' : SameServing c s t) :
    Quiet c t := by
  intro u hu
  by_contra hserving
  obtain ⟨k, hk⟩ := List.getElem?_of_mem hu
  have hold := h'.old k u hk (by simpa using hserving)
  exact hserving (h u (List.mem_of_getElem? hold))

theorem Accepted.keep {c : Command} {p q : Processing} (h : Accepted c p)
    (hslots : SameSlots p.state q.state) (hthreads : SameServing c p.state q.state)
    (hsync : passedOn c q.state.sync = true) (hrefused : q.refused = p.refused) :
    Accepted c q := by
  refine ⟨hrefused.trans h.refused, hsync, fun u hu hserving pid i pc hpc ↦ ?_, fun i hi ↦ ?_,
    fun j k u w hjk hu hw hserving ↦ ?_⟩
  · obtain ⟨k, hk⟩ := List.getElem?_of_mem hu
    have hold := List.mem_of_getElem? (hthreads.old k u hk hserving)
    rw [hslots.reqMToS]
    exact h.threads u hold hserving pid i pc hpc
  · rw [hslots.reqMToS, hslots.semMToSRequest]
    rcases h.slots i (hslots.written i ▸ hi) with hjoining | hpos | ⟨u, hu, hserving, hrenews⟩
    · exact .inl hjoining
    · exact .inr (.inl hpos)
    · obtain ⟨k, hk⟩ := List.getElem?_of_mem hu
      exact .inr (.inr ⟨u, List.mem_of_getElem? (hthreads.new k u hk hserving), hserving, hrenews⟩)
  · by_contra hboth
    have hno := h.alone j k u w hjk (hthreads.old j u hu hserving)
      (hthreads.old k w hw (by simpa using hboth)) hserving
    exact hboth hno

theorem Stage.keep {c : Command} {s : State} {p q : Processing} (h : Stage c s p)
    (hslots : SameSlots p.state q.state) (hthreads : SameServing c p.state q.state)
    (hsync : q.state.sync = p.state.sync ∨
      (∃ c' request pid i, p.state.sync = .kill c' request pid i) ∧
        passedOn c q.state.sync = true)
    (hrefused : q.refused = p.refused) : Stage c s q := by
  have hpassed (hp : passedOn c p.state.sync = true) : passedOn c q.state.sync = true := by
    rcases hsync with heq | ⟨-, hq⟩
    · exact heq ▸ hp
    · exact hq
  cases h with
  | dispatched hd hnotify hsame hwritten hquiet =>
    have heq : q.state.sync = p.state.sync := by
      rcases hsync with heq | ⟨⟨c', request, pid, i, hkill⟩, -⟩
      · exact heq
      · simp [hkill, dispatching] at hd
    refine .dispatched (heq ▸ hd) (fun hq ↦ ?_) (hsame.trans hslots.toSameTable)
      (fun i ↦ hslots.written i ▸ hwritten i) (hquiet.keep hthreads)
    rw [heq]
    exact hnotify (hrefused ▸ hq)
  | taken hwrite hrequest hno hless hwritten hquiet =>
    have heq : q.state.sync = p.state.sync := by
      rcases hsync with heq | ⟨⟨c', request, pid, i, hkill⟩, -⟩
      · exact heq
      · simp [hkill] at hwrite
    exact .taken (heq.trans hwrite) hrequest (hrefused.trans hno) (hless.keep hslots.toSameTable)
      (fun i ↦ hslots.written i ▸ hwritten i) (hquiet.keep hthreads)
  | outstanding hp hno hless hrequest hquiet =>
    exact .outstanding (hpassed hp) (hrefused.trans hno) (hless.keep hslots.toSameTable)
      (hrequest.keep hslots) (hquiet.keep hthreads)
  | @handled j u pid i pc hthread hacting hpc hanswering hconcluding hp hless hrequest halone =>
    have hserving : serving c u = true :=
      (serving_of_acting hacting hpc).trans (busy_of_answering hanswering)
    refine .handled (hthreads.new j u hthread hserving) hacting hpc hanswering
      (fun hq ↦ hconcluding (hrefused ▸ hq)) (hpassed hp) (hless.keep hslots.toSameTable)
      (hrequest.keep hslots) fun k w hk hw ↦ ?_
    by_contra hother
    exact hother (halone k w hk (hthreads.old k w hw (by simpa using hother)))
  | restored hp hsame hreleased hquiet =>
    refine .restored (hpassed hp) (hsame.trans hslots.toSameTable) (fun i hi ↦ ?_)
      (hquiet.keep hthreads)
    rw [hslots.semMToSRequest]
    exact hreleased i (hslots.written i ▸ hi)
  | accepted ha => exact .accepted (ha.keep hslots hthreads (hpassed ha.sync) hrefused)

theorem joining_of_sendable {request : Request} (h : sendable request = true)
    (hconnect : request ≠ .connectSlave) : joining request = false := by
  cases request <;> simp_all [sendable, joining]

theorem Stage.sync {c : Command} {s t : State} {p : Processing} {created killed : Bool}
    (h : Stage c s p) (hok : refusalsKept c p (.sync created killed) = true)
    (hcommand : p.state.sync.command = some c) (hs : syncStep created killed p.state = some t) :
    Stage c s ⟨t, p.refused || refuses p.state (.sync created killed)⟩ := by
  have hmove := syncStep_move hs
  have hkilled (hp : passedOn c p.state.sync = true) :
      Stage c s ⟨t, p.refused || refuses p.state (.sync created killed)⟩ := by
    obtain ⟨c', request, pid, i, hkill⟩ :
        ∃ c' request pid i, p.state.sync = .kill c' request pid i := by
      cases hpc : p.state.sync <;> simp_all [passedOn, SyncPc.command]
    have hyes : killed = true := by simpa [refusalsKept, hkill] using hok
    have hsent : syncStep created killed p.state = some { p.state with sync := .sigwaitinfo } := by
      simp [syncStep, hkill, hyes]
    obtain rfl := Option.some.inj (hsent.symm.trans hs)
    exact h.keep (.of_eq rfl) (.of_eq rfl) (.inr ⟨⟨c', request, pid, i, hkill⟩, rfl⟩)
      (by simp [refuses, hkill])
  cases h with
  | dispatched hd hnotify hsame hwritten hquiet =>
    have hnext {u : State} (hslots : u.slots = p.state.slots)
        (hthreads : u.threads = p.state.threads) (hpc : dispatching c u.sync = true)
        (hrefused : (p.refused || refuses p.state (.sync created killed)) = true →
          u.sync = .notify c) :
        Stage c s ⟨u, p.refused || refuses p.state (.sync created killed)⟩ := by
      have hsameSlots : SameSlots p.state u := .of_eq hslots
      exact .dispatched hpc hrefused (hsame.trans hsameSlots.toSameTable)
        (fun i ↦ hsameSlots.written i ▸ hwritten i) (hquiet.keep (.of_eq hthreads))
    have hunrefused {u : State} (hpc : p.state.sync ≠ .notify c ∧ ∀ c', p.state.sync ≠ .nack c')
        (hrefused : (p.refused || refuses p.state (.sync created killed)) = true) :
        u.sync = .notify c := by
      rcases Bool.or_eq_true_iff.mp hrefused with hold | hnew
      · exact absurd (hnotify hold) hpc.1
      · cases hsync : p.state.sync <;> simp_all [refuses]
    have hended {u : State} (hslots : u.slots = p.state.slots)
        (hthreads : u.threads = p.state.threads) (hpc : passedOn c u.sync = true) :
        Stage c s ⟨u, p.refused || refuses p.state (.sync created killed)⟩ := by
      have hsameSlots : SameSlots p.state u := .of_eq hslots
      refine .restored hpc (hsame.trans hsameSlots.toSameTable) (fun i hi ↦ ?_)
        (hquiet.keep (.of_eq hthreads))
      exact absurd ((hsameSlots.written i).symm.trans hi) (hwritten i)
    cases hmove with
    | received hpc | written hpc | sent hpc | unsent hpc => simp [hpc, dispatching] at hd
    | requestRead hpc hconnect hsendable =>
      have hrequest := joining_of_sendable hsendable hconnect
      obtain rfl : _ = c := by simpa [hpc, dispatching] using hd
      exact hnext rfl rfl (by simp [dispatching, hrequest]) (hunrefused (by simp [hpc]))
    | connectRead hpc | threadFailed hpc | slaveFound hpc | cycleUnset hpc =>
      refine hnext rfl rfl ?_ (hunrefused (by simp [hpc]))
      simpa [hpc, dispatching] using hd
    | startFound hpc | slaveUnknown hpc | outOfTable hpc =>
      obtain ⟨rfl, -⟩ : _ = c ∧ joining _ = false := by simpa [hpc, dispatching] using hd
      exact hnext rfl rfl (by simp [dispatching]) (hunrefused (by simp [hpc]))
    | cycleSet hpc =>
      obtain rfl : _ = c := by simpa [hpc, dispatching] using hd
      exact hnext rfl rfl (by simp [dispatching, joining]) (hunrefused (by simp [hpc]))
    | ignored hpc | notified hpc => exact hended rfl rfl rfl
    | @threadCreated c' hpc =>
      obtain rfl : c' = c := by simpa [hpc, dispatching] using hd
      refine .accepted ⟨?_, rfl, fun u hu hserving pid i pc hserve ↦ ?_,
        fun i hi ↦ absurd hi (hwritten i), fun j k u w hjk hu hw hserving ↦ ?_⟩
      · simpa [hpc, refuses] using hnotify
      · rcases List.mem_append.mp hu with hold | hnew
        · simp [hquiet u hold] at hserving
        · simp [List.mem_singleton.mp hnew] at hserve
      · by_contra hother
        have hlast {l : ℕ} {x : Thread} (hx : (p.state.threads ++
            [⟨c', c'.id, .readArgument⟩])[l]? = some x) (hx' : serving c' x = true) :
            p.state.threads.length ≤ l := by
          by_contra hlt
          rw [List.getElem?_append_left (Nat.lt_of_not_le hlt)] at hx
          simp [hquiet x (List.mem_of_getElem? hx)] at hx'
        have hbound {l : ℕ} {x : Thread} (hx : (p.state.threads ++
            [⟨c', c'.id, .readArgument⟩])[l]? = some x) : l < p.state.threads.length + 1 := by
          simpa using (List.getElem?_eq_some_iff.mp hx).1
        have hj := hlast hu hserving
        have hk := hlast hw (by simpa using hother)
        have hj' := hbound hu
        have hk' := hbound hw
        omega
    | @acquired c' request pid i hpc hpos =>
      obtain ⟨rfl, hrequest⟩ : c' = c ∧ joining request = false := by
        simpa [hpc, dispatching] using hd
      refine .taken rfl hrequest (by simpa [hpc, refuses] using hnotify)
        (hsame.borrow rfl rfl rfl (Nat.sub_add_cancel hpos)) (fun k ↦ ?_) hquiet
      dsimp only
      by_cases hki : k = i
      · rw [hki, update_self]
        exact hwritten i
      · rw [update_of_ne hki]
        exact hwritten k
    | refused hpc =>
      obtain rfl : _ = c := by simpa [hpc, dispatching] using hd
      exact hnext rfl rfl (by simp [dispatching]) fun _ ↦ rfl
  | @taken request pid i hwrite hrequest hno hless hwritten hquiet =>
    have hwrote : syncStep created killed p.state = some { p.state with
        slots := update p.state.slots i { p.state.slots i with
          seg.reqMToS := request
          written := c.id }
        sync := .kill c request pid i } := by
      simp [syncStep, hwrite]
    obtain rfl := Option.some.inj (hwrote.symm.trans hs)
    refine .outstanding rfl (by simpa [hwrite, refuses] using hno)
      (hless.keep (.update rfl rfl rfl rfl)) ⟨fun k ↦ ?_, ?_⟩ hquiet
    · dsimp only
      by_cases hki : k = i
      · simp [hki]
      · rw [update_of_ne hki]
        exact iff_of_false (hwritten k) hki
    · dsimp only
      rw [update_self]
      exact hrequest
  | outstanding hp | handled _ _ _ _ _ hp | restored hp => exact hkilled hp
  | accepted ha => exact hkilled ha.sync

theorem Stage.decoded {c : Command} {s : State} {p q : Processing} {j : ℕ} {thread u : Thread}
    {pid : Pid} {i : Idx} (h : Stage c s p) (hquiet : Quiet c p.state)
    (ht : p.state.threads[j]? = some thread) (hslots : SameSlots p.state q.state)
    (hsync : q.state.sync = p.state.sync) (hthreads : q.state.threads = p.state.threads.set j u)
    (hacting : u.acting = c.id) (hpc : u.pc = .serve pid i .responseConnected)
    (hwritten : (p.state.slots i).written = c.id)
    (hzero : (p.state.slots i).seg.semMToSRequest = 0) (hrefused : q.refused = p.refused) :
    Stage c s q := by
  have hlt : j < p.state.threads.length := (List.getElem?_eq_some_iff.mp ht).1
  have hother (k : ℕ) (w : Thread) (hk : k ≠ j) (hw : q.state.threads[k]? = some w) :
      serving c w = false := by
    rw [hthreads, List.getElem?_set_ne (Ne.symm hk)] at hw
    exact hquiet w (List.mem_of_getElem? hw)
  have hu : q.state.threads[j]? = some u := by
    rw [hthreads, List.getElem?_set_self hlt]
  cases h with
  | dispatched _ _ _ hunwritten => exact absurd hwritten (hunwritten i)
  | taken _ _ _ _ hunwritten => exact absurd hwritten (hunwritten i)
  | @outstanding i' hp hno hless hrequest =>
    obtain rfl : i = i' := (hrequest.written i).mp hwritten
    exact .handled hu hacting hpc rfl (fun hq ↦ by simp [hrefused, hno] at hq) (hsync ▸ hp)
      (hless.keep hslots.toSameTable) (hrequest.keep hslots) hother
  | handled hthread hacting' hpc' hanswering =>
    have hno := hquiet _ (List.mem_of_getElem? hthread)
    simp [serving_of_acting hacting' hpc', busy_of_answering hanswering] at hno
  | restored _ _ hreleased => exact absurd hzero (hreleased i hwritten).ne'
  | accepted ha =>
    have hslot (k : Idx) (hk : (p.state.slots k).written = c.id) :
        joining (p.state.slots k).seg.reqMToS = true ∨
          0 < (p.state.slots k).seg.semMToSRequest := by
      rcases ha.slots k hk with hjoining | hpos | ⟨w, hw, hserving, -⟩
      · exact .inl hjoining
      · exact .inr hpos
      · simp [hquiet w hw] at hserving
    refine .accepted ⟨hrefused.trans ha.refused, hsync ▸ ha.sync,
      fun w hw hserving pid' i' pc' hpc' ↦ ?_, fun k hk ↦ ?_, fun k l w x hkl hw hx hserving ↦ ?_⟩
    · obtain ⟨k, hk⟩ := List.getElem?_of_mem hw
      by_cases hkj : k = j
      · obtain rfl : u = w := Option.some.inj (hu.symm.trans (hkj ▸ hk))
        obtain ⟨-, rfl, rfl⟩ := ThreadPc.serve.inj (hpc.symm.trans hpc')
        rw [hslots.reqMToS]
        exact (hslot i hwritten).resolve_right hzero.not_gt
      · simp [hother k w hkj hk] at hserving
    · rw [hslots.reqMToS, hslots.semMToSRequest]
      exact (hslot k (hslots.written k ▸ hk)).imp_right .inl
    · refine hother l x (fun hlj ↦ ?_) hx
      simp [hother k w (hlj ▸ hkl) hw] at hserving

theorem Accepted.slot {c : Command} {p : Processing} (h : Accepted c p) {j : ℕ} {thread : Thread}
    (ht : p.state.threads[j]? = some thread) (hserving : serving c thread = true) {i : Idx}
    (hi : (p.state.slots i).written = c.id) :
    joining (p.state.slots i).seg.reqMToS = true ∨ 0 < (p.state.slots i).seg.semMToSRequest ∨
      renews i thread.pc = true := by
  rcases h.slots i hi with hjoining | hpos | ⟨w, hw, hw', hrenews⟩
  · exact .inl hjoining
  · exact .inr (.inl hpos)
  · obtain ⟨k, hk⟩ := List.getElem?_of_mem hw
    have hkj : k = j := by
      by_contra hkj
      have hno := h.alone k j w thread hkj hk ht hw'
      simp [hserving] at hno
    obtain rfl : thread = w := Option.some.inj (ht.symm.trans (hkj ▸ hk))
    exact .inr (.inr hrenews)

theorem Accepted.of_thread {c : Command} {p q : Processing} (h : Accepted c p) {j : ℕ}
    {thread u : Thread} (ht : p.state.threads[j]? = some thread)
    (hserving : serving c thread = true) (hthreads : q.state.threads = p.state.threads.set j u)
    (hsync : q.state.sync = p.state.sync) (hrefused : q.refused = false)
    (hu : ∀ pid i pc, u.pc = .serve pid i pc → busy pc = true →
      accepting (q.state.slots i).seg.reqMToS pc = true)
    (hslots : ∀ i, (q.state.slots i).written = c.id → joining (q.state.slots i).seg.reqMToS = true ∨
      0 < (q.state.slots i).seg.semMToSRequest ∨ (serving c u = true ∧ renews i u.pc = true)) :
    Accepted c q := by
  have hlt : j < p.state.threads.length := (List.getElem?_eq_some_iff.mp ht).1
  have hother (k : ℕ) (w : Thread) (hk : k ≠ j) (hw : q.state.threads[k]? = some w) :
      serving c w = false := by
    rw [hthreads, List.getElem?_set_ne (Ne.symm hk)] at hw
    exact h.alone j k thread w (Ne.symm hk) ht hw hserving
  have hself : q.state.threads[j]? = some u := by
    rw [hthreads, List.getElem?_set_self hlt]
  refine ⟨hrefused, hsync ▸ h.sync, fun w hw hw' pid i pc hpc ↦ ?_, fun i hi ↦ ?_,
    fun k l w x hkl hw hx hw' ↦ ?_⟩
  · obtain ⟨k, hk⟩ := List.getElem?_of_mem hw
    by_cases hkj : k = j
    · obtain rfl : u = w := Option.some.inj (hself.symm.trans (hkj ▸ hk))
      refine hu pid i pc hpc ?_
      simp only [serving, hpc, busyThread, decide_eq_true_eq] at hw'
      exact hw'.2
    · simp [hother k w hkj hk] at hw'
  · rcases hslots i hi with hjoining | hpos | hrenews
    · exact .inl hjoining
    · exact .inr (.inl hpos)
    · exact .inr (.inr ⟨u, List.mem_of_getElem? hself, hrenews⟩)
  · refine hother l x (fun hlj ↦ ?_) hx
    simp [hother k w (hlj ▸ hkl) hw] at hw'

theorem Stage.of_serving {c : Command} {s : State} {p : Processing} (h : Stage c s p) {j : ℕ}
    {thread : Thread} (ht : p.state.threads[j]? = some thread)
    (hserving : serving c thread = true) :
    Accepted c p ∨ ∃ pid i pc, thread.pc = .serve pid i pc ∧ answering pc = true ∧
      (p.refused = true → concluding pc = true) ∧ passedOn c p.state.sync = true ∧
      Borrowed s p.state i ∧ Requested c p.state i ∧
      ∀ (k : ℕ) (w : Thread), k ≠ j → p.state.threads[k]? = some w → serving c w = false := by
  have hmem := List.mem_of_getElem? ht
  cases h with
  | dispatched _ _ _ _ hquiet | taken _ _ _ _ _ hquiet | outstanding _ _ _ _ hquiet
  | restored _ _ _ hquiet =>
    simp [hquiet thread hmem] at hserving
  | @handled j' u pid i pc hthread hacting hpc hanswering hconcluding hp hless hrequest halone =>
    obtain rfl : j = j' := by
      by_contra hne
      simp [halone j thread hne ht] at hserving
    obtain rfl : thread = u := Option.some.inj (ht.symm.trans hthread)
    exact .inr ⟨pid, i, pc, hpc, hanswering, hconcluding, hp, hless, hrequest, halone⟩
  | accepted ha => exact .inl ha

theorem Stage.answered {c : Command} {s t : State} {p : Processing} {j : ℕ} {thread : Thread}
    {pid : Pid} {i : Idx} {pc : Pc} {mustChange killed refuses : Bool} {v : View} {effect : Effect}
    (ht : p.state.threads[j]? = some thread) (hacting : thread.acting = c.id)
    (hanswering : answering pc = true) (hconcluding : p.refused = true → concluding pc = true)
    (hsync : passedOn c p.state.sync = true) (hless : Borrowed s p.state i)
    (hrequest : Requested c p.state i)
    (halone : ∀ (k : ℕ) (w : Thread), k ≠ j → p.state.threads[k]? = some w → serving c w = false)
    (hstep : SlotThread.step (p.state.slots i).written mustChange killed
      ⟨(p.state.slots i).seg, pc, (p.state.slots i).wake⟩ = some (v, effect))
    (hslots : t.slots = update p.state.slots i ((p.state.slots i).stepped thread.acting v effect))
    (hthreads : t.threads = p.state.threads.set j (thread.stepped (p.state.slots i) pid i v))
    (hsync' : t.sync = p.state.sync)
    (hrefuses : refuses = true → ∃ request k, pc = .forward request .nack k) :
    Stage c s ⟨t, p.refused || refuses⟩ := by
  have hlt : j < p.state.threads.length := (List.getElem?_eq_some_iff.mp ht).1
  have hself : t.threads[j]? = some (thread.stepped (p.state.slots i) pid i v) := by
    rw [hthreads, List.getElem?_set_self hlt]
  have hother (k : ℕ) (w : Thread) (hk : k ≠ j) (hw : t.threads[k]? = some w) :
      serving c w = false := by
    rw [hthreads, List.getElem?_set_ne (Ne.symm hk)] at hw
    exact halone k w hk hw
  have hwritten : (p.state.slots i).written = c.id := (hrequest.written i).mpr rfl
  have hacting' : (thread.stepped (p.state.slots i) pid i v).acting = c.id := by
    simp [Thread.stepped, hacting, hwritten]
  obtain ⟨heffect, hcases⟩ := step_answering hstep hanswering hrequest.request
  have hsame (hseg : v.seg = (p.state.slots i).seg) : SameSlots p.state t := by
    refine .update hslots ?_ ?_ ?_ ?_ ?_
    all_goals simp [Slot.stepped, hseg, heffect]
  rcases hcases with ⟨hseg, hnext, hconclude⟩ | ⟨hseg, hno, hforward, k, hreset⟩ |
    ⟨rfl, hnext, hseg⟩
  · refine .handled hself hacting' rfl hnext (fun hr ↦ hconclude ?_) (hsync' ▸ hsync)
      (hless.keep (hsame hseg).toSameTable) (hrequest.keep (hsame hseg)) hother
    rcases Bool.or_eq_true_iff.mp hr with hold | hnew
    · exact .inl (hconcluding hold)
    · exact .inr (hrefuses hnew)
  · have hrefused : (p.refused || refuses) = false := by
      refine Bool.eq_false_iff.mpr fun hr ↦ ?_
      rcases Bool.or_eq_true_iff.mp hr with hold | hnew
      · simp [hconcluding hold] at hno
      · obtain ⟨request, k, hpc⟩ := hrefuses hnew
        exact hforward request k hpc
    have hserving : serving c (thread.stepped (p.state.slots i) pid i v) = true :=
      (serving_of_acting hacting' rfl).trans (by rw [hreset]; rfl)
    refine .accepted ⟨hrefused, hsync' ▸ hsync, fun w hw hw' pid' i' pc' hpc' ↦ ?_, fun l hl ↦ ?_,
      fun l m w x hlm hw hx hw' ↦ ?_⟩
    · obtain ⟨l, hl⟩ := List.getElem?_of_mem hw
      by_cases hlj : l = j
      · obtain rfl := Option.some.inj (hself.symm.trans (hlj ▸ hl))
        obtain ⟨-, -, rfl⟩ := ThreadPc.serve.inj hpc'
        rw [hreset]
        rfl
      · simp [hother l w hlj hl] at hw'
    · obtain rfl : l = i := (hrequest.written l).mp (((hsame hseg).written l).symm.trans hl)
      refine .inr (.inr ⟨_, List.mem_of_getElem? hself, hserving, ?_⟩)
      simp [renews, Thread.stepped, hreset, renewing]
    · refine hother m x (fun hmj ↦ ?_) hx
      simp [hother l w (hmj ▸ hlm) hw] at hw'
  · refine .restored (hsync' ▸ hsync) ?_ (fun k hk ↦ ?_) fun w hw ↦ ?_
    · refine hless.post hslots ?_ ?_ ?_
      all_goals simp [Slot.stepped, hseg]
    · obtain rfl : k = i := by
        by_contra hki
        rw [hslots, update_of_ne hki] at hk
        exact hki ((hrequest.written k).mp hk)
      rw [hslots, update_self]
      simp [Slot.stepped, hseg]
    · obtain ⟨k, hk⟩ := List.getElem?_of_mem hw
      by_cases hkj : k = j
      · obtain rfl := Option.some.inj (hself.symm.trans (hkj ▸ hk))
        rw [serving_of_acting hacting' rfl, hnext]
        rfl
      · exact hother k w hkj hk

theorem Accepted.served {c : Command} {p q : Processing} (h : Accepted c p) {j : ℕ}
    {thread : Thread} {pid : Pid} {i : Idx} {pc : Pc} {mustChange killed : Bool} {v : View}
    {effect : Effect} (ht : p.state.threads[j]? = some thread)
    (hserving : serving c thread = true) (hpc : thread.pc = .serve pid i pc)
    (hack : ∀ request, pc = .responseValue false request → (p.state.slots i).seg.resSToM = .ack)
    (hstep : SlotThread.step (p.state.slots i).written mustChange killed
      ⟨(p.state.slots i).seg, pc, (p.state.slots i).wake⟩ = some (v, effect))
    (hslots : q.state.slots =
      update p.state.slots i ((p.state.slots i).stepped thread.acting v effect))
    (hthreads : q.state.threads = p.state.threads.set j (thread.stepped (p.state.slots i) pid i v))
    (hsync : q.state.sync = p.state.sync) (hrefused : q.refused = false) : Accepted c q := by
  obtain ⟨hacting, hbusy⟩ : thread.acting = c.id ∧ busy pc = true := by
    simpa [serving, hpc, busyThread] using hserving
  have haccepting := h.threads thread (List.mem_of_getElem? ht) hserving pid i pc hpc
  obtain ⟨hnext, hresponse, hslot⟩ := step_accepting hstep hbusy haccepting hack
    fun hwritten : (p.state.slots i).written = c.id ↦ by
      simpa [hpc, renews] using h.slot ht hserving hwritten
  have hu : (thread.stepped (p.state.slots i) pid i v).acting = c.id := by
    simp [Thread.stepped, hresponse, hacting]
  refine h.of_thread ht hserving hthreads hsync hrefused (fun pid' k pc' hpc' _ ↦ ?_) fun k hk ↦ ?_
  · obtain ⟨-, rfl, rfl⟩ := ThreadPc.serve.inj hpc'
    rw [hslots, update_self]
    exact hnext
  · rw [hslots] at hk ⊢
    by_cases hki : k = i
    · subst hki
      rw [update_self] at hk ⊢
      rw [serving_of_acting hu rfl]
      rcases hslot (by simpa [Slot.stepped, hacting] using hk) with hjoining | hpos | hrenewing
      · exact .inl hjoining
      · exact .inr (.inl hpos)
      · refine .inr (.inr ⟨?_, by simp [renews, Thread.stepped, hrenewing]⟩)
        cases hvpc : v.pc <;> simp_all [renewing, busy]
    · rw [update_of_ne hki] at hk ⊢
      rcases h.slot ht hserving hk with hjoining | hpos | hrenews
      · exact .inl hjoining
      · exact .inr (.inl hpos)
      · simp [renews, hpc, Ne.symm hki] at hrenews

theorem Stage.waited {c : Command} {s : State} {p q : Processing} (h : Stage c s p) {j : ℕ}
    {thread : Thread} {pid : Pid} {i : Idx} {pc : Pc} {mustChange killed : Bool} {v : View}
    {effect : Effect} (ht : p.state.threads[j]? = some thread) (hpc : thread.pc = .serve pid i pc)
    (hbusy : busy pc = false)
    (hquiet : (∃ signal, pc = .getvalueMToS signal) → (p.state.slots i).seg.semMToSRequest = 0 →
      (p.state.slots i).written = c.id → Quiet c p.state)
    (hstep : SlotThread.step (p.state.slots i).written mustChange killed
      ⟨(p.state.slots i).seg, pc, (p.state.slots i).wake⟩ = some (v, effect))
    (hslots : q.state.slots =
      update p.state.slots i ((p.state.slots i).stepped thread.acting v effect))
    (hthreads : q.state.threads = p.state.threads.set j (thread.stepped (p.state.slots i) pid i v))
    (hsync : q.state.sync = p.state.sync) (hrefused : q.refused = p.refused) : Stage c s q := by
  obtain ⟨hpid, hconnected, hsem, hrequest, heffect, hnext⟩ := step_waiting hstep hbusy
  have hsame : SameSlots p.state q.state :=
    .update hslots hpid hconnected hsem hrequest (if_neg heffect)
  have hthread : serving c thread = false := by simp [serving, hpc, busyThread, hbusy]
  have hkeep (hu : serving c (thread.stepped (p.state.slots i) pid i v) = false) : Stage c s q :=
    h.keep hsame (.set ht hthreads hthread hu) (.inl hsync) hrefused
  rcases hnext with hidle | ⟨hresponse, hzero, hsignal⟩
  · exact hkeep (by simp [serving, Thread.stepped, busyThread, hidle])
  · have hacting : (thread.stepped (p.state.slots i) pid i v).acting = (p.state.slots i).written :=
      if_pos hresponse
    by_cases hwritten : (p.state.slots i).written = c.id
    · exact h.decoded (hquiet hsignal hzero hwritten) ht hsame hsync hthreads
        (hacting.trans hwritten) (congrArg _ hresponse) hwritten hzero hrefused
    · exact hkeep (by simp [serving, hacting, hwritten])

theorem forward_of_refuses {s : State} {j : ℕ} {mustChange killed : Bool} {thread : Thread}
    (ht : s.threads[j]? = some thread)
    (h : refuses s (.thread j mustChange killed) = true) :
    ∃ pid i request k, thread.pc = .serve pid i (.forward request .nack k) := by
  cases hpc : thread.pc with
  | serve pid i pc =>
    cases pc with
    | forward request response k =>
      cases response with
      | nack => exact ⟨pid, i, request, k, rfl⟩
      | _ => simp [refuses, ht, hpc] at h
    | _ => simp [refuses, ht, hpc] at h
  | _ => simp [refuses, ht, hpc] at h

theorem Stage.thread {c : Command} {s t : State} {p : Processing} {j : ℕ}
    {mustChange killed : Bool} (h : Stage c s p)
    (hok : refusalsKept c p (.thread j mustChange killed) = true)
    (hprocesses : processes c p.state (.thread j mustChange killed) = true)
    (hs : threadStep j mustChange killed p.state = some t) :
    Stage c s ⟨t, p.refused || refuses p.state (.thread j mustChange killed)⟩ := by
  have hf := threadStep_frame hs
  obtain ⟨thread, ht, hmove⟩ := threadStep_move hs
  have hacting : thread.acting = c.id ∨ busyThread thread.pc = false := by
    simpa [processes, ht] using hprocesses
  -- before it serves a slot the thread is at work for the command that created it
  have hmoved {pc : ThreadPc} (hpc : ∀ pid i pc', thread.pc ≠ .serve pid i pc')
      (hbusy : busyThread thread.pc = true) (hnext : ∀ pid i pc', pc = .serve pid i pc' →
        pc' = .sendSemWait .connectSlave)
      (hthreads : t.threads = p.state.threads.set j { thread with pc := pc })
      (hslots : ∀ i, (t.slots i).seg.reqMToS = (p.state.slots i).seg.reqMToS ∧
        (t.slots i).seg.semMToSRequest = (p.state.slots i).seg.semMToSRequest ∧
        (t.slots i).written = (p.state.slots i).written) :
      Stage c s ⟨t, p.refused || refuses p.state (.thread j mustChange killed)⟩ := by
    have hserving : serving c thread = true := by
      simpa [serving, hbusy] using hacting
    have hrefuses : refuses p.state (.thread j mustChange killed) = false := by
      refine Bool.eq_false_iff.mpr fun hr ↦ ?_
      obtain ⟨pid, i, request, k, hthread⟩ := forward_of_refuses ht hr
      exact hpc pid i _ hthread
    rw [hrefuses, Bool.or_false]
    rcases h.of_serving ht hserving with ha | ⟨pid, i, pc', hserve, -⟩
    · refine .accepted (ha.of_thread ht hserving hthreads hf.sync ha.refused
        (fun pid i pc' hserve _ ↦ ?_) fun i hi ↦ ?_)
      · rw [hnext pid i pc' hserve]
        rfl
      · rw [(hslots i).1, (hslots i).2.1]
        rcases ha.slot ht hserving ((hslots i).2.2 ▸ hi) with hjoining | hpos | hrenews
        · exact .inl hjoining
        · exact .inr (.inl hpos)
        · cases hthread : thread.pc <;> simp_all [renews]
    · exact absurd hserve (hpc pid i pc')
  cases hmove with
  | argumentRead hpc | alreadyConnected hpc | unassigned hpc | placed hpc | outOfMemory hpc =>
    exact hmoved (by simp [hpc]) (by simp [hpc, busyThread]) (by simp) rfl fun _ ↦ ⟨rfl, rfl, rfl⟩
  | @claimed pid i hpc =>
    refine hmoved (by simp [hpc]) (by simp [hpc, busyThread]) (by simp) rfl fun k ↦ ?_
    exact ⟨update_kept (·.seg.reqMToS : Slot → Request) (by rfl) k,
      update_kept (·.seg.semMToSRequest : Slot → ℕ) (by rfl) k,
      update_kept Slot.written (by rfl) k⟩
  | @served pid i pc v effect hpc hstep =>
    have hack (request : Request) (hvalue : pc = .responseValue false request) :
        (p.state.slots i).seg.resSToM = .ack := by
      subst hvalue
      simpa [refusalsKept, ht, hpc] using hok
    have hforward (hr : refuses p.state (.thread j mustChange killed) = true) :
        ∃ request k, pc = .forward request .nack k := by
      obtain ⟨pid', i', request, k, hthread⟩ := forward_of_refuses ht hr
      obtain ⟨-, -, rfl⟩ := ThreadPc.serve.inj (hpc.symm.trans hthread)
      exact ⟨request, k, rfl⟩
    have hslots := answer_slots { p.state with
        slots := update p.state.slots i ((p.state.slots i).stepped thread.acting v effect)
        threads := p.state.threads.set j (thread.stepped (p.state.slots i) pid i v) } effect
    have hthreads := answer_threads { p.state with
        slots := update p.state.slots i ((p.state.slots i).stepped thread.acting v effect)
        threads := p.state.threads.set j (thread.stepped (p.state.slots i) pid i v) } effect
    cases hbusy : busy pc with
    | false =>
      have hrefuses : refuses p.state (.thread j mustChange killed) = false := by
        refine Bool.eq_false_iff.mpr fun hr ↦ ?_
        obtain ⟨request, k, rfl⟩ := hforward hr
        cases hbusy
      refine h.waited ht hpc hbusy (fun hsignal hzero hwritten ↦ ?_) hstep hslots hthreads
        hf.sync (by rw [hrefuses, Bool.or_false])
      obtain ⟨signal, rfl⟩ := hsignal
      simpa [refusalsKept, ht, hpc, hzero, hwritten, Quiet] using hok
    | true =>
      have hactingC : thread.acting = c.id :=
        hacting.resolve_right (by simp [hpc, busyThread, hbusy])
      have hserving : serving c thread = true := (serving_of_acting hactingC hpc).trans hbusy
      rcases h.of_serving ht hserving with ha | ⟨pid', i', pc', hserve, hanswering, hconcluding,
        hpassed, hless, hrequest, halone⟩
      · have hrefuses : refuses p.state (.thread j mustChange killed) = false := by
          refine Bool.eq_false_iff.mpr fun hr ↦ ?_
          obtain ⟨request, k, rfl⟩ := hforward hr
          have haccepting := ha.threads thread (List.mem_of_getElem? ht) hserving pid i _ hpc
          simp [accepting] at haccepting
        exact .accepted (ha.served ht hserving hpc hack hstep hslots hthreads hf.sync
          (by rw [hrefuses, Bool.or_false, ha.refused]))
      · obtain ⟨rfl, rfl, rfl⟩ := ThreadPc.serve.inj (hpc.symm.trans hserve)
        exact .answered ht hactingC hanswering hconcluding hpassed hless hrequest halone hstep
          hslots hthreads hf.sync hforward

theorem step_stage {c : Command} {s : State} {p q : Processing} {e : Event} (h : Stage c s p)
    (hok : refusalsKept c p e = true) (hstep : step c p e = some q) : Stage c s q := by
  obtain ⟨hprocesses, hstep⟩ := Option.ite_none_right_eq_some.mp hstep
  obtain ⟨t, hs, rfl⟩ := Option.map_eq_some_iff.mp hstep
  cases e with
  | sync created killed => exact h.sync hok (of_decide_eq_true hprocesses) hs
  | thread j mustChange killed => exact h.thread hok hprocesses hs
  | deliver pid signal =>
    obtain rfl := Option.some.inj hs
    refine h.keep ⟨⟨fun i ↦ ?_, fun i ↦ ?_, fun i ↦ ?_⟩, fun i ↦ ?_, deliverStep_written _ _ _⟩
      (.of_eq (deliverStep_threads _ _ _)) (.inl (deliverStep_frame _ _ _).sync) (Bool.or_false _)
    all_goals rw [deliverStep_seg]
  | slave i w =>
    obtain rfl := Option.some.inj hs
    exact h.keep (.update rfl rfl rfl rfl rfl rfl) (.of_eq rfl) (.inl rfl) (Bool.or_false _)
  | _ => cases hprocesses

def known (s : State) (k : ℕ) : Prop :=
  (∃ i, (s.slots i).written = k) ∨ ∃ u ∈ s.threads, u.acting = k

/-- Commands are told apart by their numbers. -/
structure KnownInv (s : State) : Prop where
  known : ∀ k, known s k → k ≤ s.latest.id ∧ (s.pendingMaster = true → k < s.latest.id)
  command : ∀ c, s.sync.command = some c →
    c.id ≤ s.latest.id ∧ (s.pendingMaster = true → c.id < s.latest.id)
  reading : ∀ c k, s.sync = .readRequest c → MasterRefusal.known s k → k < c.id

theorem KnownInv.keep {s t : State} (h : KnownInv s) (hlatest : t.latest = s.latest)
    (hpending : t.pendingMaster = s.pendingMaster)
    (hknown : ∀ k, MasterRefusal.known t k →
      MasterRefusal.known s k ∨ ∃ c, s.sync.command = some c ∧ c.id = k)
    (hcommand : ∀ c, t.sync.command = some c → s.sync.command = some c)
    (hreading : ∀ c, t.sync = .readRequest c → s.sync = .readRequest c ∧
      ∀ k, MasterRefusal.known t k → MasterRefusal.known s k) : KnownInv t := by
  refine ⟨fun k hk ↦ ?_, fun c hc ↦ ?_, fun c k hc hk ↦ ?_⟩
  · rw [hlatest, hpending]
    rcases hknown k hk with hold | ⟨c, hc, rfl⟩
    · exact h.known k hold
    · exact h.command c hc
  · rw [hlatest, hpending]
    exact h.command c (hcommand c hc)
  · obtain ⟨hs, hold⟩ := hreading c hc
    exact h.reading c k hs (hold k hk)

theorem known_of_update {s t : State} {i : Idx} {slot : Slot} {k : ℕ}
    (hslots : t.slots = update s.slots i slot) (h : ∃ l, (t.slots l).written = k) :
    slot.written = k ∨ ∃ l, (s.slots l).written = k := by
  obtain ⟨l, hl⟩ := h
  rw [hslots] at hl
  by_cases hli : l = i
  · rw [hli, update_self] at hl
    exact .inl hl
  · rw [update_of_ne hli] at hl
    exact .inr ⟨l, hl⟩

theorem syncStep_known {created killed : Bool} {s t : State} (h : KnownInv s)
    (hs : syncStep created killed s = some t) : KnownInv t := by
  have hmove {u : State} (hslots : u.slots = s.slots) (hthreads : u.threads = s.threads)
      (hlatest : u.latest = s.latest) (hpending : u.pendingMaster = s.pendingMaster)
      (hcommand : ∀ c, u.sync.command = some c → s.sync.command = some c)
      (hreading : ∀ c, u.sync ≠ .readRequest c) : KnownInv u := by
    refine h.keep hlatest hpending (fun k hk ↦ .inl ?_) hcommand fun c hc ↦ absurd hc (hreading c)
    unfold known at hk ⊢
    rwa [hslots, hthreads] at hk
  cases syncStep_move hs with
  | received hpc hpending =>
    refine ⟨fun k hk ↦ ⟨(h.known k hk).1, by simp⟩, fun c hc ↦ ?_, fun c k hc hk ↦ ?_⟩
    · exact Option.some.inj hc ▸ ⟨le_rfl, by simp⟩
    · exact SyncPc.readRequest.inj hc ▸ (h.known k hk).2 hpending
  | threadCreated hpc =>
    refine h.keep rfl rfl (fun k hk ↦ ?_) (by simp [SyncPc.command]) (by simp)
    rcases hk with hslot | ⟨u, hu, rfl⟩
    · exact .inl (.inl hslot)
    · rcases List.mem_append.mp hu with hold | hnew
      · exact .inl (.inr ⟨u, hold, rfl⟩)
      · rw [List.mem_singleton.mp hnew]
        exact .inr ⟨_, by rw [hpc]; rfl, rfl⟩
  | acquired hpc =>
    refine h.keep rfl rfl (fun k hk ↦ .inl ?_) (by simp [SyncPc.command, hpc]) (by simp)
    rcases hk with hslot | hthread
    · rcases known_of_update rfl hslot with hi | hold
      · exact .inl ⟨_, hi⟩
      · exact .inl hold
    · exact .inr hthread
  | written hpc =>
    refine h.keep rfl rfl (fun k hk ↦ ?_) (by simp [SyncPc.command, hpc]) (by simp)
    rcases hk with hslot | hthread
    · rcases known_of_update rfl hslot with hi | hold
      · exact .inr ⟨_, by rw [hpc]; rfl, hi⟩
      · exact .inl (.inl hold)
    · exact .inl (.inr hthread)
  | _ hpc => exact hmove rfl rfl rfl rfl (by simp [SyncPc.command, hpc]) (by simp)

theorem threadStep_known {j : ℕ} {mustChange killed : Bool} {s t : State} (h : KnownInv s)
    (hs : threadStep j mustChange killed s = some t) : KnownInv t := by
  have hf := threadStep_frame hs
  have hold (hknown : ∀ k, known t k → known s k) : KnownInv t :=
    h.keep hf.latest hf.pendingMaster (fun k hk ↦ .inl (hknown k hk)) (fun c ↦ hf.sync ▸ id)
      fun c hc ↦ ⟨hf.sync ▸ hc, hknown⟩
  obtain ⟨thread, ht, hmove⟩ := threadStep_move hs
  have hmem := List.mem_of_getElem? ht
  have hthread {u : Thread} {k : ℕ} (hk : ∃ w ∈ s.threads.set j u, w.acting = k)
      (hu : u.acting = k → known s k) : known s k := by
    obtain ⟨w, hw, hwk⟩ := hk
    rcases List.mem_or_eq_of_mem_set hw with hw | rfl
    · exact .inr ⟨w, hw, hwk⟩
    · exact hu hwk
  cases hmove with
  | @claimed pid i hpc =>
    refine hold fun k hk ↦ ?_
    rcases hk with hslot | hthreads
    · rcases known_of_update rfl hslot with hi | hslots
      · exact .inl ⟨i, hi⟩
      · exact .inl hslots
    · exact hthread hthreads fun hk ↦ .inr ⟨thread, hmem, hk⟩
  | @served pid i pc v effect hpc hstep =>
    refine hold fun k hk ↦ ?_
    rcases hk with hslot | hthreads
    · rcases known_of_update (answer_slots _ _) hslot with hi | hslots
      · simp only [Slot.stepped] at hi
        split_ifs at hi
        · exact .inr ⟨thread, hmem, hi⟩
        · exact .inl ⟨i, hi⟩
      · exact .inl hslots
    · rw [answer_threads] at hthreads
      refine hthread hthreads fun hk ↦ ?_
      simp only [Thread.stepped] at hk
      split_ifs at hk
      · exact .inl ⟨i, hk⟩
      · exact .inr ⟨thread, hmem, hk⟩
  | _ =>
    refine hold fun k hk ↦ ?_
    rcases hk with hslot | hthreads
    · exact .inl hslot
    · exact hthread hthreads fun hk ↦ .inr ⟨thread, hmem, hk⟩

theorem step_known {s t : State} {e : Event} (h : KnownInv s) (hs : Master.step s e = some t) :
    KnownInv t := by
  have hkept {u : State} (hwritten : ∀ i, (u.slots i).written = (s.slots i).written)
      (hthreads : u.threads = s.threads) (hlatest : u.latest = s.latest)
      (hpending : u.pendingMaster = s.pendingMaster) (hsync : u.sync = s.sync) : KnownInv u := by
    have hknown (k : ℕ) (hk : known u k) : known s k := by
      unfold known at hk ⊢
      simpa only [hwritten, hthreads] using hk
    exact h.keep hlatest hpending (fun k hk ↦ .inl (hknown k hk)) (fun c ↦ hsync ▸ id)
      fun c hc ↦ ⟨hsync ▸ hc, hknown⟩
  cases e with
  | sync created killed => exact syncStep_known h hs
  | thread j mustChange killed => exact threadStep_known h hs
  | deliver pid signal =>
    obtain rfl := Option.some.inj hs
    have hf := deliverStep_frame pid signal s
    exact hkept (deliverStep_written _ _ _) (deliverStep_threads _ _ _) hf.latest hf.pendingMaster
      hf.sync
  | slave i w | configure i requestedParameters communicationCycleUs =>
    obtain rfl := Option.some.inj hs
    exact hkept (update_kept Slot.written (by rfl)) rfl rfl rfl rfl
  | send =>
    obtain ⟨-, hs⟩ := Option.ite_none_right_eq_some.mp hs
    obtain rfl := Option.some.inj hs
    refine ⟨fun k hk ↦ ?_, fun c hc ↦ ?_, h.reading⟩
    · have hle := (h.known k hk).1
      exact ⟨hle.trans (Nat.le_succ _), fun _ ↦ Nat.lt_succ_of_le hle⟩
    · have hle := (h.command c hc).1
      exact ⟨hle.trans (Nat.le_succ _), fun _ ↦ Nat.lt_succ_of_le hle⟩
  | _ =>
    obtain ⟨-, hs⟩ := Option.ite_none_right_eq_some.mp hs
    obtain rfl := Option.some.inj hs
    exact hkept (fun _ ↦ rfl) rfl rfl rfl rfl

theorem initial_known : KnownInv initial := by
  refine ⟨fun k hk ↦ ⟨?_, by simp [initial]⟩, by simp [initial, SyncPc.command], by simp [initial]⟩
  rcases hk with ⟨i, rfl⟩ | ⟨u, hu, -⟩
  · exact le_rfl
  · simp [initial] at hu

theorem KnownInv.stage {c : Command} {s : State} (h : KnownInv s) (hc : s.sync = .readRequest c) :
    Stage c s ⟨s, false⟩ := by
  refine .dispatched (by simp [hc, dispatching]) (by simp) ⟨fun _ ↦ rfl, fun _ ↦ rfl, fun _ ↦ rfl⟩
    (fun i hi ↦ ?_) fun u hu ↦ ?_
  · exact (h.reading c c.id hc (.inl ⟨i, hi⟩)).ne rfl
  · by_contra hserving
    obtain ⟨hacting, -⟩ : u.acting = c.id ∧ busyThread u.pc = true := by
      simpa [serving] using hserving
    exact (h.reading c c.id hc (.inr ⟨u, hu, hacting⟩)).ne rfl

theorem restored_of_kept {c : Command} {s : State} {p : Processing}
    (hs : Reaches Master.step unrestricted initial s) (hc : s.sync = .readRequest c)
    (h : Reaches (step c) (fun p e ↦ refusalsKept c p e = true) ⟨s, false⟩ p) :
    Restored c s p := by
  have hknown : KnownInv s := hs.invariant initial_known fun _ _ _ hinv _ ↦ step_known hinv
  have hstage : Stage c s p := h.invariant (hknown.stage hc) fun _ _ _ ↦ step_stage
  exact hstage.restored_of_settled

theorem Settled.of_idle {c : Command} {s : State} (hsync : s.sync = .sigwaitinfo)
    (hthreads : s.threads.map (serving c) = [false]) : Settled c s := by
  refine ⟨by simp [hsync, SyncPc.command], fun u hu ↦ ?_⟩
  have hmem := List.mem_map_of_mem (f := serving c) hu
  rw [hthreads] at hmem
  exact List.mem_singleton.mp hmem

def stopSent : List Event :=
  connectedRun ++ [Event.type .stopSlaveCycle, Event.name 100, Event.send, Event.sync true true]

def stop : Command := ⟨2, .stopSlaveCycle, 100⟩

/-- The slave refuses. -/
def stopRefused : List Event :=
  List.replicate 5 (Event.sync true true) ++
    [Event.slave 4 { acknowledged with resSToM := .nack }, Event.deliver 100 .response] ++
    List.replicate 10 (Event.thread 0 false true)

theorem stopRefused_sameTable :
    ∃ (s : State) (p : Processing), s.sync = .readRequest stop ∧ p.refused = true ∧
      SameTable s p.state := by
  have hrun : ((run Master.step initial stopSent).bind fun s ↦
      (run (guarded (step stop) fun p e ↦ refusalsKept stop p e = true) ⟨s, false⟩
        stopRefused).map fun p ↦ (s.sync, p.refused, p.state.sync,
          p.state.threads.map (serving stop))) =
      some (.readRequest stop, true, .sigwaitinfo, [false]) := by
    decide +kernel
  obtain ⟨s, hs, hrest⟩ := Option.bind_eq_some_iff.mp hrun
  obtain ⟨p, hp, hview⟩ := Option.map_eq_some_iff.mp hrest
  simp only [Prod.mk.injEq] at hview
  obtain ⟨hreading, hrefused, hsync, hthreads⟩ := hview
  have hsettled : Settled stop p.state := .of_idle hsync hthreads
  exact ⟨s, p, hreading, hrefused,
    restored_of_kept (.of_unrestricted_run hs) hreading (.of_run hp) hrefused hsettled⟩

/-- STOP for a slave whose cycle is started. -/
def startedStopSent : List Event :=
  startedRun ++ [Event.type .stopSlaveCycle, Event.name 100, Event.send, Event.sync true true]

def secondStop : Command := ⟨3, .stopSlaveCycle, 100⟩

/-- The signal cannot be sent. -/
def stopUnsent : List Event := List.replicate 7 (Event.sync true false)

theorem semaphore_kept : ¬ ∀ c s p, Reaches Master.step unrestricted initial s →
    s.sync = .readRequest c → Reaches (step c) unrestricted ⟨s, false⟩ p → Restored c s p := by
  intro hall
  have hrun : ((run Master.step initial startedStopSent).bind fun s ↦
      (run (step secondStop) ⟨s, false⟩ stopUnsent).map fun p ↦ (s.sync, p.refused, p.state.sync,
        p.state.threads.map (serving secondStop), (s.slots 4).seg.semMToSRequest,
        (p.state.slots 4).seg.semMToSRequest)) =
      some (.readRequest secondStop, true, .sigwaitinfo, [false], 1, 0) := by
    decide +kernel
  obtain ⟨s, hs, hrest⟩ := Option.bind_eq_some_iff.mp hrun
  obtain ⟨p, hp, hview⟩ := Option.map_eq_some_iff.mp hrest
  simp only [Prod.mk.injEq] at hview
  obtain ⟨hreading, hrefused, hsync, hthreads, hbefore, hafter⟩ := hview
  have hsettled : Settled secondStop p.state := .of_idle hsync hthreads
  have hsame := hall secondStop s p (.of_unrestricted_run hs) hreading (.of_unrestricted_run hp)
    hrefused hsettled
  have hsem := hsame.semMToSRequest 4
  rw [hbefore, hafter] at hsem
  cases hsem

end RealTimeCyclic.MasterRefusal
