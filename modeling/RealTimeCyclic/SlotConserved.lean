import RealTimeCyclic.SlotParameter
import RealTimeCyclic.SlotPointer

namespace RealTimeCyclic.SlotConserved

open Shm Slave SlotThread Slot Transition SlotCommand
open SlotParameter (ParameterInv parametersDecoded)
open SlotPointer (PointerInv)

def occupied : Pc → Bool
  | .resetInit _ | .resetDrainMToS _ | .resetPostMToS _ | .resetDrainSToM _ | .resetPostSToM _
  | .resetAnswer _ | .resetNotify _ | .exited => false
  | _ => true

def listening : Pc → Bool
  | .sendSemWait _ | .resetMemset _ => false
  | pc => occupied pc

def away (s : State) : ℕ :=
  syncCommands s.sync + handlerCommands s.handler + s.toSlave.count .command +
    s.toMaster.count .response + s.wake.count .response

def slotSending : Pc → ℕ
  | .sendWrite _ | .sendKill _ => 1
  | _ => 0

def handlerSending : HandlerPc → ℕ
  | .kill _ _ _ => 0
  | pc => handlerCommands pc

def sending (s : State) : ℕ :=
  syncCommands s.sync + slotSending s.slot + s.toSlave.count .command + handlerSending s.handler

def Executed (s : State) : Prop :=
  ∃ request response, (s.history.acquired, request, response) ∈ s.history.runs

/-- The semaphore of the commands is at one or one command is open, and every command that
is not on its way to the slave has been carried out. -/
structure ConservedInv (pid : Pid) (s : State) : Prop where
  owner : occupied s.slot = true → s.seg.pid = pid
  listening : 0 < away s → listening s.slot = true
  conserved : s.seg.semMToSRequest + commands s = 1
  begun : s.seg.semMToSRequest = 0 → 0 < s.history.acquired
  executed : s.history.acquired = 0 ∨ 0 < sending s ∨ Executed s

/-- The configurator takes the semaphore only while the thread of the slot is in its loop. -/
def commandsListened (s : State) : Event → Bool
  | .sync _ =>
    match s.sync with
    | .semWait _ => listening s.slot
    | _ => true
  | _ => true

theorem slotSending_le (pc : Pc) : slotSending pc ≤ slotCommands pc := by
  cases pc <;> simp [slotSending, slotCommands]

theorem handlerSending_le (pc : HandlerPc) : handlerSending pc ≤ handlerCommands pc := by
  cases pc <;> simp [handlerSending, handlerCommands]

theorem commands_eq (s : State) : commands s = away s + slotCommands s.slot := by
  unfold commands away
  omega

theorem occupied_of_listening {pc : Pc} (h : SlotConserved.listening pc = true) :
    occupied pc = true := by
  cases pc <;> simp_all [SlotConserved.listening, occupied]

theorem ConservedInv.owned {pid : Pid} {s : State} (h : ConservedInv pid s) (haway : 0 < away s) :
    s.seg.pid = pid :=
  h.owner (occupied_of_listening (h.listening haway))

section Conserved

variable {pid : Pid} {s t : State}

theorem syncCommands_of_idle {pc : SyncPc} (h : pc.holding = false) : syncCommands pc = 0 := by
  cases pc <;> simp_all [SyncPc.holding, syncCommands]

theorem syncStep_conserved {request : Request} (hs : syncStep pid request s = some t) :
    t.seg.semMToSRequest + commands t = s.seg.semMToSRequest + commands s := by
  cases syncStep_move hs with
  | moved hold hnew =>
    simp only [commands, syncCommands_of_idle hold, syncCommands_of_idle hnew]
  | claimed hold hfree hexited =>
    rw [commands, commands, syncCommands_of_idle hold, hexited]
    rfl
  | acquired hold hpos =>
    rename_i request
    have hidle := syncCommands_of_idle hold
    have hheld : syncCommands (.write request) = 1 := rfl
    simp only [commands, hidle, hheld]
    omega
  | written hpc => simp only [commands, hpc, syncCommands]
  | killed hpc =>
    simp only [commands, hpc, syncCommands, List.count_append, List.count_singleton_self]
    omega

theorem deliverStep_conserved (howned : 0 < away s → s.seg.pid = pid)
    (hs : deliverStep pid s = some t) :
    t.seg.semMToSRequest + commands t = s.seg.semMToSRequest + commands s := by
  unfold deliverStep at hs
  split at hs
  · cases hs
  · rename_i signal toMaster hsignals
    split_ifs at hs with hpid
    all_goals obtain rfl := Option.some.inj hs
    · simp only [commands, hsignals, List.count_append, List.count_cons, List.count_nil]
      omega
    · have hne : signal ≠ .response := by
        rintro rfl
        exact hpid (howned (by simp [away, hsignals]))
      simp [commands, hsignals, hne]

theorem cycleStep_conserved {usleep : Bool} {rand : ℕ} {now : Timeval}
    (hs : cycleStep usleep rand now s = some t) :
    t.seg.semMToSRequest + commands t = s.seg.semMToSRequest + commands s := by
  have hframe := cycleStep_frame hs
  have hmaster : t.toMaster.count .response = s.toMaster.count .response := by
    rcases hframe.toMaster with hsame | hsent
    · rw [hsame]
    · simp [hsent, List.count_append]
  simp only [commands, hframe.semMToSRequest, hframe.sync, hframe.slot, hframe.handler,
    hframe.toSlave, hframe.wake, hmaster]

theorem handlerStep_conserved (hc : CommandInv True True s) (hp : ParameterInv s)
    (hdecoded : parametersDecoded s .handler = true) (howned : 0 < away s → s.seg.pid = pid)
    (hs : handlerStep pid s = some t) :
    t.seg.semMToSRequest + commands t = s.seg.semMToSRequest + commands s := by
  have hb := hc.budget
  have hcommand := hp.handler
  cases handlerStep_move hs with
  | crashed => rfl
  | received hpc hsignals =>
    simp only [commands, hpc, hsignals, handlerCommands, List.count_cons, beq_iff_eq]
    omega
  | attached hpc | found hpc => simp only [commands, hpc, handlerCommands]
  | unassigned hpc hptr hpid =>
    rename_i signal
    have hne : signal ≠ .command := by
      rintro rfl
      exact hpid (howned (by simp [away, hpc, handlerCommands]))
    simp [commands, hpc, handlerCommands, hne]
  | responseDecoded hpc hzero =>
    rename_i signal
    have hne : signal ≠ .command := by
      simpa [parametersDecoded, hpc, hzero] using hdecoded
    simp [commands, hpc, handlerCommands, hne]
  | responseExcluded hpc => simp only [commands, hpc, handlerCommands]
  | requestDecoded hpc =>
    simp only [hpc, SlotParameter.HandlerOk] at hcommand
    simp [commands, hpc, handlerCommands, hcommand]
  | nothingUnhandled hpc hpos =>
    simp only [hpc, SlotParameter.HandlerOk] at hcommand
    simp only [commands, hpc, handlerCommands, hcommand, if_true] at hb
    omega
  | responseRead hpc | responsePosted hpc | cleared hpc => simp only [commands, hpc, handlerCommands]
  | dispatched hpc hdispatch => cases hdispatch <;> simp only [commands, hpc, handlerCommands]
  | served hserve =>
    rw [hserve.frame.semMToSRequest]
    cases hserve <;> simp_all [commands, handlerCommands]
  | responded hpc => simp only [commands, hpc, handlerCommands]
  | answered hpc =>
    rename_i request response k
    have hidle : handlerCommands
        (if request = .disconnectSlave then .clearPointer else .sigwaitinfo) = 0 := by
      split_ifs <;> rfl
    have hheld : handlerCommands (.kill request response k) = 1 := rfl
    simp only [commands, hpc, hidle, hheld, List.count_append, List.count_singleton_self]
    omega

theorem slotStep_conserved {mustChange : Bool} (hc : CommandInv True True s) (hp : ParameterInv s)
    (hdecoded : parametersDecoded s (.slot mustChange) = true)
    (hs : slotStep mustChange s = some t) :
    t.seg.semMToSRequest + commands t = s.seg.semMToSRequest + commands s := by
  have hb := hc.budget
  have hslot := hp.slot
  obtain ⟨v, effect, hmove, rfl⟩ := slotStep_move hs
  cases hmove with
  | jumped hjump =>
    cases hjump with
    | connectUnsent hpc hkill | renameUnsent hpc hkill => cases hkill
    | requestDecoded hpc hzero =>
      rename_i signal
      have hne : signal ≠ .response := by
        simpa [parametersDecoded, hpc, hzero] using hdecoded
      simp [State.effect, commands, hpc, slotCommands, hne]
    | responseDecoded hpc hzero =>
      simp only [hpc, SlotParameter.SlotOk] at hslot
      simp [State.effect, commands, hpc, slotCommands, hslot]
    | nothingUnhandled hpc hpos =>
      simp only [hpc, SlotParameter.SlotOk] at hslot
      simp only [commands, hpc, slotCommands, hslot, if_true] at hb
      omega
    | _ hpc => simp only [State.effect, commands, hpc, slotCommands]
  | errorsHandled hpc hseg =>
    simp only [State.effect, commands, hpc, slotCommands, (SameControl.of_errors hseg).semMToSRequest]
  | received hpc =>
    rename_i signal
    have hsem := (receiveParameters_sameControl s.seg).semMToSRequest
    cases signal <;> simp only [State.effect, commands, hpc, slotCommands, hsem]
  | zeroed hpc =>
    simp only [commands, hpc, slotCommands] at hb ⊢
    simp only [State.effect, Shmseg.zero]
    omega
  | loweredMToS hpc hpos =>
    simp only [commands, hpc, slotCommands] at hb
    omega
  | woken hpc hwake =>
    simp only [State.effect, commands, hpc, hwake, slotCommands, List.count_cons, beq_iff_eq]
    omega
  | sent hpc =>
    simp only [State.effect, commands, hpc, slotCommands, List.count_append,
      List.count_singleton_self]
    omega
  | acknowledgeSent hpc => simp [State.effect, commands, hpc, slotCommands]
  | requested hpc | acknowledged hpc | connected hpc | answered hpc | notified hpc
  | initialized hpc | loweredSToM hpc | postedSToM hpc | resetAnswered hpc | resetNotified hpc =>
    simp only [State.effect, commands, hpc, slotCommands, init_semMToSRequest]
  | _ hpc =>
    simp only [State.effect, commands, hpc, slotCommands]
    omega

end Conserved

section Kept

variable {pid : Pid} {s t : State}

theorem ConservedInv.keep (h : ConservedInv pid s) (hslot : t.slot = s.slot)
    (hpid : t.seg.pid = s.seg.pid) (hsem : t.seg.semMToSRequest = s.seg.semMToSRequest)
    (hcommands : t.seg.semMToSRequest + commands t = s.seg.semMToSRequest + commands s)
    (hacquired : t.history.acquired = s.history.acquired)
    (hexecuted : t.history.acquired = 0 ∨ 0 < sending t ∨ Executed t) : ConservedInv pid t where
  owner := by
    rw [hslot, hpid]
    exact h.owner
  listening haway := by
    rw [hslot]
    apply h.listening
    rw [hsem, commands_eq, commands_eq, hslot] at hcommands
    omega
  conserved := hcommands.trans h.conserved
  begun hzero := by
    rw [hacquired]
    exact h.begun (hsem.symm.trans hzero)
  executed := hexecuted

theorem ConservedInv.still_executed (h : ConservedInv pid s)
    (hacquired : t.history.acquired = s.history.acquired)
    (hruns : s.history.runs ⊆ t.history.runs) (hsending : sending s ≤ sending t) :
    t.history.acquired = 0 ∨ 0 < sending t ∨ Executed t := by
  rcases h.executed with hzero | hpos | ⟨request, response, hrun⟩
  · exact .inl (hacquired.trans hzero)
  · exact .inr (.inl (by omega))
  · exact .inr (.inr ⟨request, response, hacquired ▸ hruns hrun⟩)

theorem acquired_semWait {request request' : Request} (hold : s.sync.holding = false)
    (hs : syncStep pid request s = some t) (hpc : t.sync = .write request') :
    s.sync = .semWait request' := by
  unfold syncStep at hs
  cases hsync : s.sync with
  | semWait request =>
    simp only [hsync] at hs
    split_ifs at hs
    obtain rfl := Option.some.inj hs
    exact congrArg SyncPc.semWait (SyncPc.write.inj hpc)
  | write request | kill request =>
    rw [hsync] at hold
    cases hold
  | lookup request =>
    cases request
    all_goals
      simp only [hsync] at hs
      split_ifs at hs
    all_goals
      obtain rfl := Option.some.inj hs
      cases hpc
  | sigwaitinfo =>
    simp only [hsync] at hs
    split at hs
    case h_5 => cases hs
    all_goals
      obtain rfl := Option.some.inj hs
      cases hpc
  | checkCycle =>
    simp only [hsync] at hs
    split_ifs at hs
    all_goals
      obtain rfl := Option.some.inj hs
      cases hpc
  | fault =>
    simp only [hsync] at hs
    cases hs

theorem syncStep_kept {request : Request} (h : ConservedInv pid s)
    (hlistened : commandsListened s (.sync request) = true)
    (hs : syncStep pid request s = some t) : ConservedInv pid t := by
  have hcommands := syncStep_conserved hs
  cases syncStep_move hs with
  | moved hold hnew =>
    refine h.keep rfl rfl rfl hcommands rfl (h.still_executed rfl (List.Subset.refl _) ?_)
    simp only [sending, syncCommands_of_idle hold, syncCommands_of_idle hnew, le_refl]
  | claimed hold hfree hexited =>
    have haway : away s = 0 := by
      by_contra hne
      have hl := h.listening (Nat.pos_of_ne_zero hne)
      rw [hexited] at hl
      cases hl
    refine ⟨fun _ ↦ rfl, fun hpos ↦ ?_, hcommands.trans h.conserved, h.begun, ?_⟩
    · simp only [away, syncCommands] at haway hpos
      omega
    · refine h.still_executed rfl (List.Subset.refl _) ?_
      simp only [sending, syncCommands_of_idle hold, hexited, slotSending]
      omega
  | acquired hold hpos =>
    have hpc := acquired_semWait hold hs rfl
    simp only [commandsListened, hpc] at hlistened
    exact ⟨h.owner, fun _ ↦ hlistened, hcommands.trans h.conserved, fun _ ↦ Nat.succ_pos _,
      .inr (.inl (by simp [sending, syncCommands]))⟩
  | written hpc =>
    refine h.keep rfl rfl rfl hcommands rfl (h.still_executed rfl (List.Subset.refl _) ?_)
    simp only [sending, hpc, syncCommands, le_refl]
  | killed hpc =>
    refine h.keep rfl rfl rfl hcommands rfl (h.still_executed rfl (List.Subset.refl _) ?_)
    simp only [sending, hpc, syncCommands, List.count_append, List.count_singleton_self]
    omega

theorem deliverStep_kept (h : ConservedInv pid s) (hs : deliverStep pid s = some t) :
    ConservedInv pid t := by
  have hcommands := deliverStep_conserved h.owned hs
  obtain ⟨toMaster, wake, rfl⟩ := deliverStep_eq_some hs
  exact h.keep rfl rfl rfl hcommands rfl (h.still_executed rfl (List.Subset.refl _) le_rfl)

theorem cycleStep_kept {usleep : Bool} {rand : ℕ} {now : Timeval} (h : ConservedInv pid s)
    (hs : cycleStep usleep rand now s = some t) : ConservedInv pid t := by
  have hframe := cycleStep_frame hs
  refine h.keep hframe.slot hframe.pid hframe.semMToSRequest (cycleStep_conserved hs)
    hframe.acquired ?_
  refine h.still_executed hframe.acquired ?_ ?_
  · rw [hframe.runs]
    exact List.Subset.refl _
  · simp only [sending, hframe.sync, hframe.slot, hframe.toSlave, hframe.handler, le_refl]

/-- The slave does not let go of a command before it has carried it out. -/
theorem handlerStep_executed (hc : CommandInv True True s) (hp : ParameterInv s)
    (hdecoded : parametersDecoded s .handler = true) (h : ConservedInv pid s)
    (hs : handlerStep pid s = some t) :
    t.history.acquired = 0 ∨ 0 < sending t ∨ Executed t := by
  have hserving := hc.handler
  cases handlerStep_move hs with
  | responded hpc =>
    rename_i request response k
    simp only [hpc, HandlerOk] at hserving
    obtain ⟨⟨-, rfl, -⟩, -⟩ := hserving
    exact .inr (.inr ⟨request, response, List.mem_cons_self⟩)
  | received hpc hsignals =>
    refine h.still_executed rfl (List.Subset.refl _) ?_
    simp only [sending, hpc, hsignals, handlerSending, handlerCommands, List.count_cons,
      beq_iff_eq]
    omega
  | unassigned hpc hptr hpid =>
    rename_i signal
    have hne : signal ≠ .command := by
      rintro rfl
      exact hpid (h.owned (by simp [away, hpc, handlerCommands]))
    refine h.still_executed rfl (List.Subset.refl _) ?_
    simp [sending, hpc, handlerSending, handlerCommands, hne]
  | responseDecoded hpc hzero =>
    rename_i signal
    have hne : signal ≠ .command := by
      simpa [parametersDecoded, hpc, hzero] using hdecoded
    refine h.still_executed rfl (List.Subset.refl _) ?_
    simp [sending, hpc, handlerSending, handlerCommands, hne]
  | nothingUnhandled hpc hpos =>
    have hb := hc.budget
    have hcommand := hp.handler
    simp only [hpc, SlotParameter.HandlerOk] at hcommand
    simp only [commands, hpc, handlerCommands, hcommand, if_true] at hb
    omega
  | requestDecoded hpc =>
    refine h.still_executed rfl (List.Subset.refl _) ?_
    simp only [sending, hpc, handlerSending, handlerCommands]
    split_ifs <;> omega
  | dispatched hpc hdispatch =>
    refine h.still_executed rfl (List.Subset.refl _) ?_
    cases hdispatch <;> simp only [sending, hpc, handlerSending, handlerCommands, le_refl]
  | served hserve =>
    refine h.still_executed rfl (List.Subset.refl _) ?_
    cases hserve <;> simp_all [sending, handlerSending, handlerCommands]
  | answered hpc =>
    refine h.still_executed rfl (List.Subset.refl _) ?_
    simp only [sending, hpc, handlerSending]
    omega
  | crashed => exact h.still_executed rfl (List.Subset.refl _) le_rfl
  | attached hpc | found hpc | responseExcluded hpc | responseRead hpc | responsePosted hpc
  | cleared hpc =>
    refine h.still_executed rfl (List.Subset.refl _) ?_
    simp only [sending, hpc, handlerSending, handlerCommands, le_refl]

theorem handlerStep_slot (hs : handlerStep pid s = some t) :
    t.slot = s.slot ∧ t.seg.pid = s.seg.pid ∧ t.seg.semMToSRequest = s.seg.semMToSRequest ∧
      t.history.acquired = s.history.acquired := by
  cases handlerStep_move hs with
  | served hserve => exact ⟨rfl, hserve.frame.pid, hserve.frame.semMToSRequest, rfl⟩
  | _ => exact ⟨rfl, rfl, rfl, rfl⟩

theorem handlerStep_kept (hc : CommandInv True True s) (hp : ParameterInv s)
    (hdecoded : parametersDecoded s .handler = true) (h : ConservedInv pid s)
    (hs : handlerStep pid s = some t) : ConservedInv pid t := by
  obtain ⟨hslot, hpid, hsem, hacquired⟩ := handlerStep_slot hs
  exact h.keep hslot hpid hsem (handlerStep_conserved hc hp hdecoded h.owned hs) hacquired
    (handlerStep_executed hc hp hdecoded h hs)

theorem slotStep_occupied {mustChange : Bool} (hs : slotStep mustChange s = some t)
    (hoccupied : occupied t.slot = true) :
    occupied s.slot = true ∧ t.seg.pid = s.seg.pid := by
  obtain ⟨v, effect, hmove, rfl⟩ := slotStep_move hs
  rw [State.effect_slot] at hoccupied
  rw [State.effect_seg]
  cases hmove with
  | jumped hjump =>
    refine ⟨?_, rfl⟩
    cases hjump <;> simp_all [occupied]
  | zeroed | initialized => cases hoccupied
  | errorsHandled hpc hseg =>
    exact ⟨by rw [hpc]; rfl, (SameControl.of_errors hseg).pid⟩
  | received hpc =>
    exact ⟨by rw [hpc]; rfl, (receiveParameters_sameControl s.seg).pid⟩
  | _ => exact ⟨by simp_all [occupied], rfl⟩

theorem slotStep_listening {mustChange : Bool} (hs : slotStep mustChange s = some t) :
    SlotConserved.listening t.slot = true ∨
      away t ≤ away s ∧ (SlotConserved.listening s.slot = false ∨ 0 < slotCommands s.slot) := by
  obtain ⟨v, effect, hmove, rfl⟩ := slotStep_move hs
  cases hmove with
  | jumped hjump =>
    cases hjump with
    | connectUnsent hpc hkill => cases hkill
    | disconnected hpc => exact .inr ⟨le_rfl, .inr (by rw [hpc]; exact Nat.one_pos)⟩
    | drainedMToS hpc | drainedSToM hpc | exited hpc =>
      exact .inr ⟨le_rfl, .inl (by rw [hpc]; rfl)⟩
    | _ => exact .inl rfl
  | zeroed hpc | initialized hpc | loweredMToS hpc | postedMToS hpc | loweredSToM hpc
  | postedSToM hpc | resetAnswered hpc | resetNotified hpc =>
    exact .inr ⟨le_rfl, .inl (by rw [hpc]; rfl)⟩
  | received hpc =>
    left
    rw [State.effect_slot]
    rfl
  | acquired | requested | sent | woken | errorsHandled | acknowledged | acknowledgeSent
  | connected | answered | notified | posted => exact .inl rfl
  | _ hpc => exact .inr ⟨le_rfl, .inr (by rw [hpc]; exact Nat.one_pos)⟩

theorem slotStep_sending {mustChange : Bool} (hs : slotStep mustChange s = some t) :
    0 < sending t ∨ t.history.acquired = s.history.acquired ∧
      t.history.runs = s.history.runs ∧ sending s ≤ sending t := by
  obtain ⟨v, effect, hmove, rfl⟩ := slotStep_move hs
  cases hmove with
  | acquired hpc => exact .inl (by simp [State.effect, sending, slotSending])
  | requested hpc => exact .inl (by simp [State.effect, sending, slotSending])
  | sent hpc => exact .inl (by simp [State.effect, sending])
  | jumped hjump =>
    refine .inr ⟨rfl, rfl, ?_⟩
    cases hjump with
    | connectUnsent hpc hkill | renameUnsent hpc hkill => cases hkill
    | _ hpc => simp only [State.effect, sending, hpc, slotSending, le_refl]
  | received hpc =>
    rename_i signal
    right
    cases signal <;> exact ⟨rfl, rfl, by simp only [State.effect, sending, hpc, slotSending, le_refl]⟩
  | acknowledgeSent hpc => exact .inr ⟨rfl, rfl, by simp [State.effect, sending, hpc, slotSending]⟩
  | _ hpc => exact .inr ⟨rfl, rfl, by simp only [State.effect, sending, hpc, slotSending, le_refl]⟩

theorem slotStep_semMToSRequest {mustChange : Bool} (hs : slotStep mustChange s = some t) :
    0 < t.history.acquired ∨ t.history.acquired = s.history.acquired ∧
      (s.seg.semMToSRequest ≤ t.seg.semMToSRequest ∨ 0 < slotCommands s.slot) := by
  obtain ⟨v, effect, hmove, rfl⟩ := slotStep_move hs
  cases hmove with
  | acquired hpc => exact .inl (Nat.succ_pos _)
  | errorsHandled hpc hseg =>
    exact .inr ⟨rfl, .inl (SameControl.of_errors hseg).semMToSRequest.ge⟩
  | received hpc =>
    rename_i signal
    have hsem := (receiveParameters_sameControl s.seg).semMToSRequest.ge
    right
    cases signal <;> exact ⟨rfl, .inl hsem⟩
  | acknowledgeSent hpc => exact .inr ⟨rfl, .inl le_rfl⟩
  | zeroed hpc | loweredMToS hpc => exact .inr ⟨rfl, .inr (by rw [hpc]; exact Nat.one_pos)⟩
  | _ hpc => exact .inr ⟨rfl, .inl (by simp [State.effect])⟩

theorem slotStep_kept {mustChange : Bool} (hc : CommandInv True True s) (hp : ParameterInv s)
    (hdecoded : parametersDecoded s (.slot mustChange) = true) (h : ConservedInv pid s)
    (hs : slotStep mustChange s = some t) : ConservedInv pid t := by
  refine ⟨fun hoccupied ↦ ?_, fun haway ↦ ?_, ?_, fun hzero ↦ ?_, ?_⟩
  · obtain ⟨hold, hpid⟩ := slotStep_occupied hs hoccupied
    exact hpid.trans (h.owner hold)
  · rcases slotStep_listening hs with hl | ⟨hle, hslot⟩
    · exact hl
    · have hb := hc.budget
      rw [commands_eq] at hb
      have hlistening := h.listening (by omega)
      rcases hslot with hdeaf | hslot
      · rw [hdeaf] at hlistening
        cases hlistening
      · omega
  · exact (slotStep_conserved hc hp hdecoded hs).trans h.conserved
  · rcases slotStep_semMToSRequest hs with hpos | ⟨hacquired, hsem⟩
    · exact hpos
    · have hb := hc.budget
      rw [commands_eq] at hb
      rw [hacquired]
      exact h.begun (by omega)
  · rcases slotStep_sending hs with hpos | ⟨hacquired, hruns, hle⟩
    · exact .inr (.inl hpos)
    · exact h.still_executed hacquired (hruns ▸ List.Subset.refl _) hle

theorem step_kept {e : Event} (hc : CommandInv True True s) (hp : ParameterInv s)
    (hdecoded : parametersDecoded s e = true) (hlistened : commandsListened s e = true)
    (h : ConservedInv pid s) (hs : step pid s e = some t) : ConservedInv pid t := by
  cases e with
  | configure requestedParameters communicationCycleUs =>
    exact Option.some.inj hs ▸ ⟨h.owner, h.listening, h.conserved, h.begun, h.executed⟩
  | sync request => exact syncStep_kept h hlistened hs
  | slot mustChange => exact slotStep_kept hc hp hdecoded h hs
  | deliver => exact deliverStep_kept h hs
  | handler =>
    obtain ⟨-, hs⟩ := Option.ite_none_right_eq_some.mp hs
    exact handlerStep_kept hc hp hdecoded h hs
  | cycle usleep rand now =>
    obtain ⟨-, hs⟩ := Option.ite_none_right_eq_some.mp hs
    exact cycleStep_kept h hs

end Kept

end RealTimeCyclic.SlotConserved
