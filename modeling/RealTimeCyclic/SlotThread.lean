import RealTimeCyclic.Library.Transition
import RealTimeCyclic.Shm

namespace RealTimeCyclic.SlotThread

open Shm

/-- What a `SIGUSR1` was sent for. The signal carries no such word: no branch
of the program depends on it. An acknowledgement may be sent for a signal that
was no parameter request. -/
inductive Signal
  | command
  | response
  | parameter (k : ℕ)
  | acknowledge (k : Option ℕ)
  deriving DecidableEq, Repr

def Signal.parameterRequest : Signal → Option ℕ
  | .parameter k => some k
  | _ => none

/-- Where `slave_processor_detached_thread` stands after it has claimed its
slot. A program point lies before the operation it is named after. -/
inductive Pc
  -- send_connect_slave_request, send_change_name_slave_request
  | sendSemWait (request : Request)
  | sendWrite (request : Request)
  | sendKill (request : Request)
  -- the loop, up to the choice of a handler
  | sigSemWait
  | requestErrors (signal : Signal)
  | getvalueSToM (signal : Signal)
  | getvalueMToS (signal : Signal)
  -- handle_slave_request
  | requestConnected (signal : Signal)
  | requestSwitch (signal : Signal)
  | requestAck (signal : Signal)
  | requestKill (signal : Signal)
  -- handle_slave_response
  | responseConnected
  | responseSwitch (isConnected : Bool)
  | responseValue (isConnected : Bool) (request : Request)
  | mustChangeName (request : Request) (k : ℕ)
  | renamePost
  | setConnected (request : Request) (k : ℕ)
  | forward (request : Request) (response : Response) (k : ℕ)
  | notify (k : ℕ)
  | post
  -- reset_slave_shmseg, with the command acknowledged afterwards, if any
  | resetMemset (k : Option ℕ)
  | resetInit (k : Option ℕ)
  | resetDrainMToS (k : Option ℕ)
  | resetPostMToS (k : Option ℕ)
  | resetDrainSToM (k : Option ℕ)
  | resetPostSToM (k : Option ℕ)
  | resetAnswer (k : Option ℕ)
  | resetNotify (k : ℕ)
  | exited
  deriving DecidableEq, Repr

/-- The slot as its thread sees it. `wake` lists the increments of
`sig_semaphore` not yet consumed, oldest first. -/
structure View where
  seg : Shmseg
  pc : Pc
  wake : List Signal

/-- What a step does outside the slot, or does to a request semaphore. -/
inductive Effect
  | silent
  | acquired
  | requested
  | signalled (signal : Signal)
  | handled (signal : Signal)
  | answered (response : Response) (k : ℕ)
  | notified
  deriving DecidableEq, Repr

def stringError : String :=
  "Did not receive requested string parameter from slave process [%d]!"

def intError : String :=
  "Did not receive requested int parameter from slave process [%d]!"

def boolError : String :=
  "Did not receive requested bool parameter from slave process [%d]!"

def receiveString (seg : Shmseg) : Shmseg × List String :=
  if seg.requestedParameters &&& stringParameterBit ≠ 0 then
    if seg.stringValue.headD 0 = stringValueUndefined then (seg, [stringError])
    else ({ seg with lastKnownStringValue := seg.stringValue, stringValue := [] }, [])
  else (seg, [])

def receiveInt (r : Shmseg × List String) : Shmseg × List String :=
  if r.1.requestedParameters &&& intParameterBit ≠ 0 then
    if r.1.intValue = intValueUndefined then (r.1, r.2 ++ [intError])
    else ({ r.1 with lastKnownIntValue := r.1.intValue, intValue := intValueUndefined }, r.2)
  else r

def receiveBool (r : Shmseg × List String) : Shmseg × List String :=
  if r.1.requestedParameters &&& boolParameterBit ≠ 0 then
    -- The unsigned byte is promoted to int before it is compared with -1.
    if (r.1.boolValue.toNat : Int) = boolValueUndefined then (r.1, r.2 ++ [boolError])
    else ({ r.1 with lastKnownBoolValue := r.1.boolValue, boolValue := 255 }, r.2)
  else r

/-- The three parameters of `handle_slave_request`, with the errors logged for
requested values that are still undefined. -/
def receiveParameters (seg : Shmseg) : Shmseg × List String :=
  receiveBool (receiveInt (receiveString seg))

theorem receiveString_payload (seg : Shmseg) : ∃ value lastKnown,
    (receiveString seg).1 =
      { seg with stringValue := value, lastKnownStringValue := lastKnown } := by
  unfold receiveString
  split_ifs <;> exact ⟨_, _, rfl⟩

theorem receiveInt_payload (r : Shmseg × List String) : ∃ value lastKnown,
    (receiveInt r).1 = { r.1 with intValue := value, lastKnownIntValue := lastKnown } := by
  unfold receiveInt
  split_ifs <;> exact ⟨_, _, rfl⟩

theorem receiveBool_payload (r : Shmseg × List String) : ∃ value lastKnown,
    (receiveBool r).1 = { r.1 with boolValue := value, lastKnownBoolValue := lastKnown } := by
  unfold receiveBool
  split_ifs <;> exact ⟨_, _, rfl⟩

theorem receiveParameters_sameControl (seg : Shmseg) :
    SameControl (receiveParameters seg).1 seg := by
  obtain ⟨_, _, hstring⟩ := receiveString_payload seg
  obtain ⟨_, _, hint⟩ := receiveInt_payload (receiveString seg)
  obtain ⟨_, _, hbool⟩ := receiveBool_payload (receiveInt (receiveString seg))
  rw [receiveParameters, hbool, hint, hstring]
  exact ⟨rfl, rfl, rfl, rfl, rfl, rfl, rfl, rfl, rfl⟩

theorem receiveParameters_name (seg : Shmseg) :
    (receiveParameters seg).1.name = seg.name := by
  obtain ⟨_, _, hstring⟩ := receiveString_payload seg
  obtain ⟨_, _, hint⟩ := receiveInt_payload (receiveString seg)
  obtain ⟨_, _, hbool⟩ := receiveBool_payload (receiveInt (receiveString seg))
  rw [receiveParameters, hbool, hint, hstring]

theorem receiveParameters_communicationCycleUs (seg : Shmseg) :
    (receiveParameters seg).1.communicationCycleUs = seg.communicationCycleUs := by
  obtain ⟨_, _, hstring⟩ := receiveString_payload seg
  obtain ⟨_, _, hint⟩ := receiveInt_payload (receiveString seg)
  obtain ⟨_, _, hbool⟩ := receiveBool_payload (receiveInt (receiveString seg))
  rw [receiveParameters, hbool, hint, hstring]

/-- One atomic step of the thread. `current` identifies the command for which
`sem_m_to_s_request` was last taken, `mustChange` is the outcome of
`must_change_name` and `killed` says whether `kill` succeeds. -/
def step (current : ℕ) (mustChange killed : Bool) (v : View) : Option (View × Effect) :=
  match v.pc with
  | .sendSemWait request =>
    if 0 < v.seg.semMToSRequest then
      some ({ v with
        seg.semMToSRequest := v.seg.semMToSRequest - 1
        pc := .sendWrite request }, .acquired)
    else none
  | .sendWrite request =>
    some ({ v with seg.reqMToS := request, pc := .sendKill request }, .requested)
  | .sendKill request =>
    if killed then some ({ v with pc := .sigSemWait }, .signalled .command)
    else if request = .connectSlave then some ({ v with pc := .resetMemset none }, .silent)
    else some ({ v with pc := .sigSemWait }, .silent)
  | .sigSemWait =>
    match v.wake with
    | [] => none
    | signal :: wake => some ({ v with wake := wake, pc := .requestErrors signal }, .silent)
  | .requestErrors signal =>
    let seg := if slaveRequestHasErrors v.seg then handleSlaveRequestErrors v.seg else v.seg
    some ({ v with seg := seg, pc := .getvalueSToM signal }, .silent)
  | .getvalueSToM signal =>
    if v.seg.semSToMRequest = 0 then some ({ v with pc := .requestConnected signal }, .silent)
    else some ({ v with pc := .getvalueMToS signal }, .silent)
  | .getvalueMToS _ =>
    if v.seg.semMToSRequest = 0 then some ({ v with pc := .responseConnected }, .silent)
    else some ({ v with pc := .sigSemWait }, .silent)
  | .requestConnected signal =>
    if v.seg.isConnected then some ({ v with pc := .requestSwitch signal }, .silent)
    else some ({ v with pc := .sigSemWait }, .silent)
  | .requestSwitch signal =>
    if v.seg.reqSToM = .signalMasterParameter then
      some ({ v with seg := (receiveParameters v.seg).1, pc := .requestAck signal },
        .handled signal)
    else some ({ v with pc := .sigSemWait }, .silent)
  | .requestAck signal =>
    some ({ v with seg.resMToS := .ack, pc := .requestKill signal }, .silent)
  | .requestKill signal =>
    some ({ v with pc := .sigSemWait },
      if killed then .signalled (.acknowledge signal.parameterRequest) else .silent)
  | .responseConnected => some ({ v with pc := .responseSwitch v.seg.isConnected }, .silent)
  | .responseSwitch isConnected =>
    match isConnected, v.seg.reqMToS with
    | true, .disconnectSlave | true, .stopSlaveCycle | true, .startSlaveCycle
    | false, .connectSlave | false, .changeSlaveName =>
      some ({ v with pc := .responseValue isConnected v.seg.reqMToS }, .silent)
    | _, _ => some ({ v with pc := .post }, .silent)
  | .responseValue isConnected request =>
    match v.seg.resSToM with
    | .nack => some ({ v with pc := .forward request .nack current }, .silent)
    | .ack =>
      if isConnected then
        if request = .disconnectSlave then
          some ({ v with pc := .resetMemset (some current) }, .silent)
        else some ({ v with pc := .forward request .ack current }, .silent)
      else some ({ v with pc := .mustChangeName request current }, .silent)
    | .other _ =>
      if request = .disconnectSlave then some ({ v with pc := .post }, .silent)
      else some ({ v with pc := .forward request .nack current }, .silent)
  | .mustChangeName request k =>
    if mustChange then some ({ v with pc := .renamePost }, .silent)
    else some ({ v with pc := .setConnected request k }, .silent)
  | .renamePost =>
    some ({ v with
      seg.semMToSRequest := v.seg.semMToSRequest + 1
      pc := .sendSemWait .changeSlaveName }, .silent)
  | .setConnected request k =>
    some ({ v with seg.isConnected := true, pc := .forward request .ack k }, .silent)
  | .forward _ response k => some ({ v with pc := .notify k }, .answered response k)
  | .notify _ => some ({ v with pc := .post }, .notified)
  | .post =>
    some ({ v with
      seg.semMToSRequest := v.seg.semMToSRequest + 1
      pc := .sigSemWait }, .silent)
  | .resetMemset k => some ({ v with seg := .zero, pc := .resetInit k }, .silent)
  | .resetInit k =>
    some ({ v with seg := initSlaveShmsegSharedMemory v.seg, pc := .resetDrainMToS k }, .silent)
  | .resetDrainMToS k =>
    if 0 < v.seg.semMToSRequest then
      some ({ v with seg.semMToSRequest := v.seg.semMToSRequest - 1 }, .silent)
    else some ({ v with pc := .resetPostMToS k }, .silent)
  | .resetPostMToS k =>
    some ({ v with
      seg.semMToSRequest := v.seg.semMToSRequest + 1
      pc := .resetDrainSToM k }, .silent)
  | .resetDrainSToM k =>
    if 0 < v.seg.semSToMRequest then
      some ({ v with seg.semSToMRequest := v.seg.semSToMRequest - 1 }, .silent)
    else some ({ v with pc := .resetPostSToM k }, .silent)
  | .resetPostSToM k =>
    some ({ v with
      seg.semSToMRequest := v.seg.semSToMRequest + 1
      pc := .resetAnswer k }, .silent)
  | .resetAnswer (some k) => some ({ v with pc := .resetNotify k }, .answered .ack k)
  | .resetAnswer none => some ({ v with pc := .exited }, .silent)
  | .resetNotify _ => some ({ v with pc := .exited }, .notified)
  | .exited => none

def Pc.cleared : Pc → Bool
  | .resetInit _ | .resetDrainMToS _ | .resetPostMToS _ | .resetDrainSToM _ | .resetPostSToM _
  | .resetAnswer _ | .resetNotify _ => true
  | _ => false

section Move

variable (current : ℕ) (mustChange killed : Bool) (seg : Shmseg) (pc : Pc) (wake : List Signal)

/-- The steps that only move the thread on. -/
inductive Jump : Pc → Prop
  | connectUnsent (hpc : pc = .sendKill .connectSlave) (hkill : killed = false) :
      Jump (.resetMemset none)
  | renameUnsent {request : Request} (hpc : pc = .sendKill request) (hkill : killed = false)
      (hrequest : request ≠ .connectSlave) : Jump .sigSemWait
  | requestDecoded {signal : Signal} (hpc : pc = .getvalueSToM signal)
      (hzero : seg.semSToMRequest = 0) : Jump (.requestConnected signal)
  | requestExcluded {signal : Signal} (hpc : pc = .getvalueSToM signal)
      (hpos : 0 < seg.semSToMRequest) : Jump (.getvalueMToS signal)
  | responseDecoded {signal : Signal} (hpc : pc = .getvalueMToS signal)
      (hzero : seg.semMToSRequest = 0) : Jump .responseConnected
  | nothingUnhandled {signal : Signal} (hpc : pc = .getvalueMToS signal)
      (hpos : 0 < seg.semMToSRequest) : Jump .sigSemWait
  | requestAccepted {signal : Signal} (hpc : pc = .requestConnected signal)
      (hconnected : seg.isConnected = true) : Jump (.requestSwitch signal)
  | requestRefused {signal : Signal} (hpc : pc = .requestConnected signal) : Jump .sigSemWait
  | requestUnrecognized {signal : Signal} (hpc : pc = .requestSwitch signal) : Jump .sigSemWait
  | connectedRead (hpc : pc = .responseConnected) : Jump (.responseSwitch seg.isConnected)
  | responseRecognized {isConnected : Bool} (hpc : pc = .responseSwitch isConnected)
      (hrequest : isConnected = false →
        seg.reqMToS = .connectSlave ∨ seg.reqMToS = .changeSlaveName) :
      Jump (.responseValue isConnected seg.reqMToS)
  | responseUnrecognized {isConnected : Bool} (hpc : pc = .responseSwitch isConnected) :
      Jump .post
  | responseNack {isConnected : Bool} {request : Request}
      (hpc : pc = .responseValue isConnected request) (hresponse : seg.resSToM ≠ .ack)
      (hrequest : seg.resSToM = .nack ∨ request ≠ .disconnectSlave) :
      Jump (.forward request .nack current)
  | responseIgnored {isConnected : Bool} (hpc : pc = .responseValue isConnected .disconnectSlave)
      (hresponse : seg.resSToM ≠ .ack ∧ seg.resSToM ≠ .nack) : Jump .post
  | responseAck {request : Request} (hpc : pc = .responseValue true request)
      (hresponse : seg.resSToM = .ack) (hrequest : request ≠ .disconnectSlave) :
      Jump (.forward request .ack current)
  | disconnected (hpc : pc = .responseValue true .disconnectSlave)
      (hresponse : seg.resSToM = .ack) : Jump (.resetMemset (some current))
  | nameOffered {request : Request} (hpc : pc = .responseValue false request)
      (hresponse : seg.resSToM = .ack) : Jump (.mustChangeName request current)
  | nameTaken {request : Request} {k : ℕ} (hpc : pc = .mustChangeName request k)
      (hname : mustChange = true) : Jump .renamePost
  | nameFree {request : Request} {k : ℕ} (hpc : pc = .mustChangeName request k)
      (hname : mustChange = false) : Jump (.setConnected request k)
  | drainedMToS {k : Option ℕ} (hpc : pc = .resetDrainMToS k) (hzero : seg.semMToSRequest = 0) :
      Jump (.resetPostMToS k)
  | drainedSToM {k : Option ℕ} (hpc : pc = .resetDrainSToM k) (hzero : seg.semSToMRequest = 0) :
      Jump (.resetPostSToM k)
  | exited (hpc : pc = .resetAnswer none) : Jump .exited

/-- What a step of the thread can do. -/
inductive Move : View → Effect → Prop
  | jumped {pc' : Pc} (hjump : Jump current mustChange killed seg pc pc') :
      Move ⟨seg, pc', wake⟩ .silent
  | acquired {request : Request} (hpc : pc = .sendSemWait request)
      (hpos : 0 < seg.semMToSRequest) :
      Move ⟨{ seg with semMToSRequest := seg.semMToSRequest - 1 }, .sendWrite request, wake⟩
        .acquired
  | requested {request : Request} (hpc : pc = .sendWrite request) :
      Move ⟨{ seg with reqMToS := request }, .sendKill request, wake⟩ .requested
  | sent {request : Request} (hpc : pc = .sendKill request) (hkill : killed = true) :
      Move ⟨seg, .sigSemWait, wake⟩ (.signalled .command)
  | woken {signal : Signal} {wake' : List Signal} (hpc : pc = .sigSemWait)
      (hwake : wake = signal :: wake') : Move ⟨seg, .requestErrors signal, wake'⟩ .silent
  | errorsHandled {seg' : Shmseg} {signal : Signal} (hpc : pc = .requestErrors signal)
      (hseg : seg' = handleSlaveRequestErrors seg ∨ seg' = seg) :
      Move ⟨seg', .getvalueSToM signal, wake⟩ .silent
  | received {signal : Signal} (hpc : pc = .requestSwitch signal) :
      Move ⟨(receiveParameters seg).1, .requestAck signal, wake⟩ (.handled signal)
  | acknowledged {signal : Signal} (hpc : pc = .requestAck signal) :
      Move ⟨{ seg with resMToS := .ack }, .requestKill signal, wake⟩ .silent
  | acknowledgeSent {signal : Signal} (hpc : pc = .requestKill signal) :
      Move ⟨seg, .sigSemWait, wake⟩
        (if killed then .signalled (.acknowledge signal.parameterRequest) else .silent)
  | renaming (hpc : pc = .renamePost) :
      Move ⟨{ seg with semMToSRequest := seg.semMToSRequest + 1 },
        .sendSemWait .changeSlaveName, wake⟩ .silent
  | connected {request : Request} {k : ℕ} (hpc : pc = .setConnected request k) :
      Move ⟨{ seg with isConnected := true }, .forward request .ack k, wake⟩ .silent
  | answered {request : Request} {response : Response} {k : ℕ}
      (hpc : pc = .forward request response k) : Move ⟨seg, .notify k, wake⟩ (.answered response k)
  | notified {k : ℕ} (hpc : pc = .notify k) : Move ⟨seg, .post, wake⟩ .notified
  | posted (hpc : pc = .post) :
      Move ⟨{ seg with semMToSRequest := seg.semMToSRequest + 1 }, .sigSemWait, wake⟩ .silent
  | zeroed {k : Option ℕ} (hpc : pc = .resetMemset k) : Move ⟨.zero, .resetInit k, wake⟩ .silent
  | initialized {k : Option ℕ} (hpc : pc = .resetInit k) :
      Move ⟨initSlaveShmsegSharedMemory seg, .resetDrainMToS k, wake⟩ .silent
  | loweredMToS {k : Option ℕ} (hpc : pc = .resetDrainMToS k) (hpos : 0 < seg.semMToSRequest) :
      Move ⟨{ seg with semMToSRequest := seg.semMToSRequest - 1 }, pc, wake⟩ .silent
  | postedMToS {k : Option ℕ} (hpc : pc = .resetPostMToS k) :
      Move ⟨{ seg with semMToSRequest := seg.semMToSRequest + 1 }, .resetDrainSToM k, wake⟩ .silent
  | loweredSToM {k : Option ℕ} (hpc : pc = .resetDrainSToM k) (hpos : 0 < seg.semSToMRequest) :
      Move ⟨{ seg with semSToMRequest := seg.semSToMRequest - 1 }, pc, wake⟩ .silent
  | postedSToM {k : Option ℕ} (hpc : pc = .resetPostSToM k) :
      Move ⟨{ seg with semSToMRequest := seg.semSToMRequest + 1 }, .resetAnswer k, wake⟩ .silent
  | resetAnswered {k : ℕ} (hpc : pc = .resetAnswer (some k)) :
      Move ⟨seg, .resetNotify k, wake⟩ (.answered .ack k)
  | resetNotified {k : ℕ} (hpc : pc = .resetNotify k) : Move ⟨seg, .exited, wake⟩ .notified

end Move

theorem step_move {current : ℕ} {mustChange killed : Bool} {v v' : View} {effect : Effect}
    (h : step current mustChange killed v = some (v', effect)) :
    Move current mustChange killed v.seg v.pc v.wake v' effect := by
  simp only [step] at h
  cases hpc : v.pc with
  | sendSemWait request =>
    simp only [hpc] at h
    split_ifs at h with hpos
    cases h
    exact .acquired rfl hpos
  | sendWrite request =>
    simp only [hpc] at h
    cases h
    exact .requested rfl
  | sendKill request =>
    simp only [hpc] at h
    split_ifs at h with hkill hrequest
    all_goals cases h
    · exact .sent rfl hkill
    · exact .jumped (.connectUnsent (by rw [hrequest]) (by simpa using hkill))
    · exact .jumped (.renameUnsent rfl (by simpa using hkill) hrequest)
  | sigSemWait =>
    simp only [hpc] at h
    split at h
    · cases h
    · rename_i signal wake hwake
      cases h
      exact .woken rfl hwake
  | requestErrors signal =>
    simp only [hpc] at h
    cases h
    refine .errorsHandled rfl ?_
    split
    · exact .inl rfl
    · exact .inr rfl
  | getvalueSToM signal =>
    simp only [hpc] at h
    split_ifs at h with hzero
    all_goals cases h
    · exact .jumped (.requestDecoded rfl hzero)
    · exact .jumped (.requestExcluded rfl (Nat.pos_of_ne_zero hzero))
  | getvalueMToS signal =>
    simp only [hpc] at h
    split_ifs at h with hzero
    all_goals cases h
    · exact .jumped (.responseDecoded rfl hzero)
    · exact .jumped (.nothingUnhandled rfl (Nat.pos_of_ne_zero hzero))
  | requestConnected signal =>
    simp only [hpc] at h
    split_ifs at h with hconnected
    all_goals cases h
    · exact .jumped (.requestAccepted rfl hconnected)
    · exact .jumped (.requestRefused rfl)
  | requestSwitch signal =>
    simp only [hpc] at h
    split_ifs at h
    all_goals cases h
    · exact .received rfl
    · exact .jumped (.requestUnrecognized rfl)
  | requestAck signal =>
    simp only [hpc] at h
    cases h
    exact .acknowledged rfl
  | requestKill signal =>
    simp only [hpc] at h
    cases h
    exact .acknowledgeSent rfl
  | responseConnected =>
    simp only [hpc] at h
    cases h
    exact .jumped (.connectedRead rfl)
  | responseSwitch isConnected =>
    simp only [hpc] at h
    split at h
    all_goals cases h
    all_goals first
      | exact .jumped (.responseUnrecognized rfl)
      | exact .jumped (.responseRecognized rfl (by simp_all))
  | responseValue isConnected request =>
    simp only [hpc] at h
    split at h
    · rename_i hnack
      cases h
      exact .jumped (.responseNack rfl (by simp [hnack]) (.inl hnack))
    · rename_i hack
      split_ifs at h with hconnected hrequest
      all_goals cases h
      · exact .jumped (.disconnected (by rw [hconnected, hrequest]) hack)
      · exact .jumped (.responseAck (by rw [hconnected]) hack hrequest)
      · exact .jumped (.nameOffered (by simp_all) hack)
    · rename_i hother
      split_ifs at h with hrequest
      all_goals cases h
      · exact .jumped (.responseIgnored (by rw [hrequest]) (by simp [hother]))
      · exact .jumped (.responseNack rfl (by simp [hother]) (.inr hrequest))
  | mustChangeName request k =>
    simp only [hpc] at h
    split_ifs at h with hname
    all_goals cases h
    · exact .jumped (.nameTaken rfl hname)
    · exact .jumped (.nameFree rfl (by simpa using hname))
  | renamePost =>
    simp only [hpc] at h
    cases h
    exact .renaming rfl
  | setConnected request k =>
    simp only [hpc] at h
    cases h
    exact .connected rfl
  | forward request response k =>
    simp only [hpc] at h
    cases h
    exact .answered rfl
  | notify k =>
    simp only [hpc] at h
    cases h
    exact .notified rfl
  | post =>
    simp only [hpc] at h
    cases h
    exact .posted rfl
  | resetMemset k =>
    simp only [hpc] at h
    cases h
    exact .zeroed rfl
  | resetInit k =>
    simp only [hpc] at h
    cases h
    exact .initialized rfl
  | resetDrainMToS k =>
    simp only [hpc] at h
    split_ifs at h with hpos
    all_goals cases h
    · exact .loweredMToS rfl hpos
    · exact .jumped (.drainedMToS rfl (Nat.eq_zero_of_not_pos hpos))
  | resetPostMToS k =>
    simp only [hpc] at h
    cases h
    exact .postedMToS rfl
  | resetDrainSToM k =>
    simp only [hpc] at h
    split_ifs at h with hpos
    all_goals cases h
    · exact .loweredSToM rfl hpos
    · exact .jumped (.drainedSToM rfl (Nat.eq_zero_of_not_pos hpos))
  | resetPostSToM k =>
    simp only [hpc] at h
    cases h
    exact .postedSToM rfl
  | resetAnswer k =>
    cases k
    all_goals
      simp only [hpc] at h
      cases h
    · exact .jumped (.exited rfl)
    · exact .resetAnswered rfl
  | resetNotify k =>
    simp only [hpc] at h
    cases h
    exact .resetNotified rfl
  | exited => simp [hpc] at h

theorem step_pid {current : ℕ} {mustChange killed : Bool} {v v' : View} {effect : Effect}
    (h : step current mustChange killed v = some (v', effect)) :
    (v'.seg.pid = v.seg.pid ∧ (v'.pc.cleared = true → v.pc.cleared = true)) ∨
      (∃ k, v.pc = .resetMemset k ∧ v'.seg.pid = 0) ∨
      (∃ k, v.pc = .resetInit k ∧ v'.seg.pid = noPid) := by
  cases step_move h with
  | zeroed hpc => exact .inr (.inl ⟨_, hpc, rfl⟩)
  | initialized hpc => exact .inr (.inr ⟨_, hpc, rfl⟩)
  | jumped hjump =>
    refine .inl ⟨rfl, ?_⟩
    cases hjump <;> simp_all [Pc.cleared]
  | errorsHandled hpc hseg => exact .inl ⟨(SameControl.of_errors hseg).pid, by simp [Pc.cleared]⟩
  | received hpc =>
    exact .inl ⟨(receiveParameters_sameControl v.seg).pid, by simp [Pc.cleared]⟩
  | _ =>
    refine .inl ⟨rfl, ?_⟩
    simp_all [Pc.cleared]

def Completes (current : ℕ) (mustChange : Bool) (v : View) (seg : Shmseg) : Prop :=
  ∃ n v', Transition.run (fun v (_ : Unit) ↦ (step current mustChange true v).map Prod.fst) v
    (List.replicate n ()) = some v' ∧ v'.seg = seg ∧ v'.pc = .sigSemWait

theorem Completes.cons {current : ℕ} {mustChange : Bool} {v v' : View} {seg : Shmseg}
    {effect : Effect} (hs : step current mustChange true v = some (v', effect))
    (h : Completes current mustChange v' seg) : Completes current mustChange v seg := by
  obtain ⟨n, w, hrun, hend⟩ := h
  refine ⟨n + 1, w, ?_, hend⟩
  rw [List.replicate_succ, Transition.run, hs]
  exact hrun

end RealTimeCyclic.SlotThread
