import RealTimeCyclic.MasterMove

namespace RealTimeCyclic.MasterDispatch

open Shm SlotThread Probing Function Master Transition

/-- A run with what was sent, each dispatch on `control_shmp->request` and each pid
a handler or a slot thread has taken from `control_shmp->affected_slave_pid`. -/
structure Traced where
  state : State
  sent : List Command
  requests : List (Command × Request)
  pids : List (Command × Pid)

def initial : Traced := ⟨Master.initial, [], [], []⟩

def sentBy (s : State) : Event → Option Command
  | .send => some ⟨s.latest.id + 1, s.control.request, s.control.affectedSlavePid⟩
  | _ => none

def requestRead (s : State) : Event → Option (Command × Request)
  | .sync _ _ =>
    match s.sync with
    | .readRequest c => some (c, s.control.request)
    | _ => none
  | _ => none

def pidRead (s : State) : Event → Option (Command × Pid)
  | .sync _ _ =>
    match s.sync with
    | .create c | .lookup c _ => some (c, s.control.affectedSlavePid)
    | _ => none
  | .thread j _ _ =>
    match s.threads[j]? with
    | some thread => if thread.pc = .readArgument then some (thread.command, s.cell) else none
    | none => none
  | _ => none

/-- The argument of a thread is in the frame of the call that created it. Once that call has
returned, the sync thread may leave anything there. -/
inductive Move
  | event (e : Event)
  | overwrite (pid : Pid)

def step (t : Traced) : Move → Option Traced
  | .event e =>
    (Master.step t.state e).map fun s ↦
      ⟨s, t.sent ++ (sentBy t.state e).toList, t.requests ++ (requestRead t.state e).toList,
        t.pids ++ (pidRead t.state e).toList⟩
  | .overwrite pid => some { t with state := { t.state with cell := pid } }

/-- The master executes the pairs that were sent, each at most once. -/
structure ExecutesSent (t : Traced) : Prop where
  request : ∀ c request, (c, request) ∈ t.requests → c ∈ t.sent ∧ request = c.request
  pid : ∀ c pid, (c, pid) ∈ t.pids → c ∈ t.sent ∧ pid = c.pid
  once : (t.requests.map Prod.fst).Nodup

def reading : SyncPc → List Command
  | .readRequest c => [c]
  | _ => []

def addressing : SyncPc → List Command
  | .create c | .lookup c _ => [c]
  | _ => []

def unreadRequests (s : State) : List Command :=
  (if s.pendingMaster then [s.latest] else []) ++ reading s.sync

def unreadPids (s : State) : List Command := unreadRequests s ++ addressing s.sync

/-- A word of the control memory that is still to be read is only overwritten with
the same value, and so is the argument of a thread that has not read it. -/
def wordsKept (s : State) : Move → Bool
  | .event (.type request) => ∀ c ∈ unreadRequests s, request = c.request
  | .event (.name pid) => ∀ c ∈ unreadPids s, pid = c.pid
  | .event (.sync _ _) =>
    match s.sync with
    | .create c => ∀ u ∈ s.threads, u.pc = .readArgument → u.command.pid = c.pid
    | _ => true
  | .event _ => true
  | .overwrite pid => ∀ u ∈ s.threads, u.pc = .readArgument → u.command.pid = pid

structure DispatchInv (t : Traced) : Prop where
  executes : ExecutesSent t
  request : ∀ c ∈ unreadRequests t.state, t.state.control.request = c.request
  pid : ∀ c ∈ unreadPids t.state, t.state.control.affectedSlavePid = c.pid
  argument : ∀ u ∈ t.state.threads, u.pc = .readArgument →
    u.command ∈ t.sent ∧ t.state.cell = u.command.pid
  sent : ∀ c ∈ unreadPids t.state, c ∈ t.sent
  ids : ∀ c ∈ t.sent, c.id ≤ t.state.latest.id
  fresh : ∀ c ∈ unreadRequests t.state, c ∉ t.requests.map Prod.fst
  nodup : (unreadRequests t.state).Nodup

theorem DispatchInv.keep {t : Traced} (h : DispatchInv t) {s : State}
    (hrequest : s.control.request = t.state.control.request)
    (haffected : s.control.affectedSlavePid = t.state.control.affectedSlavePid)
    (hlatest : s.latest = t.state.latest) (hcell : s.cell = t.state.cell)
    (hthreads : ∀ u ∈ s.threads, u.pc = .readArgument → u ∈ t.state.threads)
    (hrequests : (unreadRequests s).Sublist (unreadRequests t.state))
    (hpids : unreadPids s ⊆ unreadPids t.state) : DispatchInv { t with state := s } := by
  refine ⟨⟨h.executes.request, h.executes.pid, h.executes.once⟩, fun c hc ↦ ?_, fun c hc ↦ ?_,
    fun u hu hr ↦ ?_, fun c hc ↦ ?_, fun c hc ↦ ?_, fun c hc ↦ ?_, h.nodup.sublist hrequests⟩
  · exact hrequest.trans (h.request c (hrequests.subset hc))
  · exact haffected.trans (h.pid c (hpids hc))
  · exact hcell ▸ h.argument u (hthreads u hu hr) hr
  · exact h.sent c (hpids hc)
  · exact hlatest ▸ h.ids c hc
  · exact h.fresh c (hrequests.subset hc)

theorem mem_unreadPids {s : State} {c : Command} (h : c ∈ unreadRequests s) : c ∈ unreadPids s :=
  List.mem_append_left _ h

theorem DispatchInv.dispatched {t : Traced} (h : DispatchInv t) {c : Command} {pc : SyncPc}
    (hpc : t.state.sync = .readRequest c)
    (hnew : unreadRequests { t.state with sync := pc } =
      if t.state.pendingMaster then [t.state.latest] else [])
    (hpids : unreadPids { t.state with sync := pc } ⊆ unreadPids t.state) :
    DispatchInv { t with
      state := { t.state with sync := pc }
      requests := t.requests ++ [(c, t.state.control.request)] } := by
  have hunread : unreadRequests t.state =
      (if t.state.pendingMaster then [t.state.latest] else []) ++ [c] := by
    simp [unreadRequests, reading, hpc]
  have hc : c ∈ unreadRequests t.state := by simp [hunread]
  have hnodup := h.nodup
  rw [hunread, ← hnew, List.nodup_append] at hnodup
  have hsub {c' : Command} (hc' : c' ∈ unreadRequests { t.state with sync := pc }) :
      c' ∈ unreadRequests t.state := by
    rw [hunread, ← hnew]
    exact List.mem_append_left _ hc'
  have he := h.executes
  refine ⟨⟨fun c' request hmem ↦ ?_, he.pid, ?_⟩, fun c' hc' ↦ h.request c' (hsub hc'),
    fun c' hc' ↦ h.pid c' (hpids hc'), h.argument, fun c' hc' ↦ h.sent c' (hpids hc'), h.ids,
    fun c' hc' hmem ↦ ?_, hnodup.1⟩
  · rcases List.mem_append.mp hmem with hold | hnew
    · exact he.request c' request hold
    · obtain ⟨rfl, rfl⟩ := Prod.mk.inj (List.mem_singleton.mp hnew)
      exact ⟨h.sent c' (mem_unreadPids hc), h.request c' hc⟩
  · rw [List.map_append, List.nodup_append]
    refine ⟨he.once, List.nodup_singleton _, fun a ha b hb hab ↦ ?_⟩
    have hac : a = c := hab.trans (List.mem_singleton.mp hb)
    exact h.fresh c hc (hac ▸ ha)
  · rw [List.map_append, List.mem_append] at hmem
    rcases hmem with hold | hnew'
    · exact h.fresh c' (hsub hc') hold
    · exact hnodup.2.2 c' hc' c (List.mem_singleton_self c) (List.mem_singleton.mp hnew')

theorem DispatchInv.taken {t : Traced} (h : DispatchInv t) {c : Command} {pid : Pid}
    (hc : c ∈ t.sent) (hpid : pid = c.pid) :
    DispatchInv { t with pids := t.pids ++ [(c, pid)] } := by
  have he := h.executes
  refine ⟨⟨he.request, fun c' pid' hmem ↦ ?_, he.once⟩, h.request, h.pid, h.argument, h.sent, h.ids,
    h.fresh, h.nodup⟩
  rcases List.mem_append.mp hmem with hold | hnew
  · exact he.pid c' pid' hold
  · obtain ⟨rfl, rfl⟩ := Prod.mk.inj (List.mem_singleton.mp hnew)
    exact ⟨hc, hpid⟩

/-- The pair in the control memory is sent under a new number. A signal that is still
pending is not sent a second time, so that its command is served no more. -/
theorem DispatchInv.sending {t : Traced} (h : DispatchInv t) {pc : ConfiguratorPc} :
    let c : Command := ⟨t.state.latest.id + 1, t.state.control.request,
      t.state.control.affectedSlavePid⟩
    DispatchInv { t with
      state := { t.state with pendingMaster := true, latest := c, configurator := pc }
      sent := t.sent ++ [c] } := by
  intro c
  have hnew : c ∉ t.sent := fun hc ↦ absurd (h.ids c hc) (Nat.not_succ_le_self _)
  have hreading : unreadRequests t.state =
      (if t.state.pendingMaster then [t.state.latest] else []) ++ reading t.state.sync := rfl
  have hold {c' : Command} (hc' : c' ∈ reading t.state.sync) : c' ∈ unreadRequests t.state :=
    hreading ▸ List.mem_append_right _ hc'
  have hrequests {c' : Command} (hc' : c' ∈ [c] ++ reading t.state.sync) :
      c' = c ∨ c' ∈ unreadRequests t.state :=
    (List.mem_append.mp hc').imp List.mem_singleton.mp hold
  have hpids {c' : Command}
      (hc' : c' ∈ ([c] ++ reading t.state.sync) ++ addressing t.state.sync) :
      c' = c ∨ c' ∈ unreadPids t.state := by
    rcases List.mem_append.mp hc' with hc' | hc'
    · exact (hrequests hc').imp_right mem_unreadPids
    · exact .inr (List.mem_append_right _ hc')
  have he := h.executes
  refine ⟨⟨fun c' r hc' ↦ ?_, fun c' p hc' ↦ ?_, he.once⟩, fun c' hc' ↦ ?_, fun c' hc' ↦ ?_,
    fun u hu hr ↦ ?_, fun c' hc' ↦ ?_, fun c' hc' ↦ ?_, fun c' hc' hmem ↦ ?_, ?_⟩
  · exact (he.request c' r hc').imp_left (List.mem_append_left _)
  · exact (he.pid c' p hc').imp_left (List.mem_append_left _)
  · rcases hrequests hc' with rfl | hc'
    · rfl
    · exact h.request c' hc'
  · rcases hpids hc' with rfl | hc'
    · rfl
    · exact h.pid c' hc'
  · exact (h.argument u hu hr).imp_left (List.mem_append_left _)
  · rcases hpids hc' with rfl | hc'
    · exact List.mem_append_right _ (List.mem_singleton_self _)
    · exact List.mem_append_left _ (h.sent c' hc')
  · rcases List.mem_append.mp hc' with hc' | hc'
    · exact (h.ids c' hc').trans (Nat.le_succ _)
    · rw [List.mem_singleton.mp hc']
  · rcases hrequests hc' with rfl | hc'
    · obtain ⟨⟨c', r⟩, hpair, rfl⟩ := List.mem_map.mp hmem
      exact hnew (he.request _ r hpair).1
    · exact h.fresh c' hc' hmem
  · have hnodup := h.nodup
    rw [hreading, List.nodup_append] at hnodup
    refine List.nodup_cons.mpr ⟨fun hc ↦ ?_, hnodup.2.1⟩
    exact hnew (h.sent c (mem_unreadPids (hold hc)))

theorem syncStep_inv {t : Traced} {created killed : Bool} {s : State} (h : DispatchInv t)
    (hok : wordsKept t.state (.event (.sync created killed)) = true)
    (hs : syncStep created killed t.state = some s) :
    DispatchInv ⟨s, t.sent, t.requests ++ (requestRead t.state (.sync created killed)).toList,
      t.pids ++ (pidRead t.state (.sync created killed)).toList⟩ := by
  have hmoved {u : State}
      (hrequests : unreadRequests u = if t.state.pendingMaster then [t.state.latest] else [])
      (hpids : unreadPids u = if t.state.pendingMaster then [t.state.latest] else []) :
      (unreadRequests u).Sublist (unreadRequests t.state) ∧ unreadPids u ⊆ unreadPids t.state := by
    rw [hrequests, hpids]
    exact ⟨List.sublist_append_left _ _, fun c hc ↦ mem_unreadPids (List.mem_append_left _ hc)⟩
  have hread {c : Command} (hc : c ∈ unreadPids t.state) :=
    h.taken (h.sent c hc) (h.pid c hc)
  cases syncStep_move hs with
  | received hpc hp =>
    simp only [requestRead, pidRead, hpc, Option.toList_none, List.append_nil]
    refine h.keep rfl rfl rfl rfl (fun u hu _ ↦ hu) ?_ ?_
    · simp [unreadRequests, reading, hpc, hp]
    · simp [unreadPids, unreadRequests, reading, addressing, hpc, hp]
  | connectRead hpc hrequest | requestRead hpc hrequest | ignored hpc hrequest =>
    simp only [requestRead, pidRead, hpc, Option.toList_none, Option.toList_some, List.append_nil]
    exact h.dispatched hpc (by simp [unreadRequests, reading])
      (by simp [unreadPids, unreadRequests, reading, addressing, hpc])
  | threadCreated hpc hcreated =>
    rename_i c
    have hc : c ∈ unreadPids t.state := by simp [unreadPids, addressing, hpc]
    simp only [wordsKept, hpc, decide_eq_true_eq] at hok
    obtain ⟨hsub, hpids⟩ := hmoved (u := { t.state with sync := .sigwaitinfo })
      (by simp [unreadRequests, reading])
      (by simp [unreadPids, unreadRequests, reading, addressing])
    have hkept := (hread hc).keep (s := { t.state with sync := .sigwaitinfo }) rfl rfl rfl rfl
      (fun u hu _ ↦ hu) hsub hpids
    simp only [requestRead, pidRead, hpc, Option.toList_none, Option.toList_some, List.append_nil]
    refine ⟨⟨hkept.executes.request, hkept.executes.pid, hkept.executes.once⟩, hkept.request,
      hkept.pid, fun u hu hr ↦ ?_, hkept.sent, hkept.ids, hkept.fresh, hkept.nodup⟩
    have hpid := h.pid c hc
    rcases List.mem_append.mp hu with hold | hnew
    · exact ⟨(h.argument u hold hr).1, hpid.trans (hok u hold hr).symm⟩
    · rw [List.mem_singleton.mp hnew]
      exact ⟨h.sent c hc, hpid⟩
  | threadFailed hpc hcreated =>
    rename_i c
    have hc : c ∈ unreadPids t.state := by simp [unreadPids, addressing, hpc]
    simp only [wordsKept, hpc, decide_eq_true_eq] at hok
    obtain ⟨hsub, hpids⟩ := hmoved (u := { t.state with sync := .nack c })
      (by simp [unreadRequests, reading])
      (by simp [unreadPids, unreadRequests, reading, addressing])
    have hkept := (hread hc).keep (s := { t.state with sync := .nack c }) rfl rfl rfl rfl
      (fun u hu _ ↦ hu) hsub hpids
    simp only [requestRead, pidRead, hpc, Option.toList_none, Option.toList_some, List.append_nil]
    refine ⟨⟨hkept.executes.request, hkept.executes.pid, hkept.executes.once⟩, hkept.request,
      hkept.pid, fun u hu hr ↦ ?_, hkept.sent, hkept.ids, hkept.fresh, hkept.nodup⟩
    exact ⟨(h.argument u hu hr).1, (h.pid c hc).trans (hok u hu hr).symm⟩
  | startFound hpc | slaveFound hpc | slaveUnknown hpc | outOfTable hpc =>
    simp only [requestRead, pidRead, hpc, Option.toList_none, Option.toList_some, List.append_nil]
    refine (hread (by simp [unreadPids, addressing, hpc])).keep rfl rfl rfl rfl
      (fun u hu _ ↦ hu) ?_ ?_
    · refine (hmoved ?_ ?_).1 <;> simp [unreadPids, unreadRequests, reading, addressing]
    · refine (hmoved ?_ ?_).2 <;> simp [unreadPids, unreadRequests, reading, addressing]
  | cycleUnset hpc | cycleSet hpc | acquired hpc | written hpc | sent hpc | unsent hpc
  | refused hpc | notified hpc =>
    simp only [requestRead, pidRead, hpc, Option.toList_none, List.append_nil]
    refine h.keep rfl rfl rfl rfl (fun u hu _ ↦ hu) ?_ ?_
    · refine (hmoved ?_ ?_).1 <;> simp [unreadPids, unreadRequests, reading, addressing]
    · refine (hmoved ?_ ?_).2 <;> simp [unreadPids, unreadRequests, reading, addressing]

theorem threadStep_inv {t : Traced} {j : ℕ} {mustChange killed : Bool} {s : State}
    (h : DispatchInv t) (hs : threadStep j mustChange killed t.state = some s) :
    DispatchInv ⟨s, t.sent, t.requests,
      t.pids ++ (pidRead t.state (.thread j mustChange killed)).toList⟩ := by
  have hf := threadStep_frame hs
  have hrequests : unreadRequests s = unreadRequests t.state := by
    simp only [unreadRequests, hf.pendingMaster, hf.latest, hf.sync]
  have hpids : unreadPids s = unreadPids t.state := by
    simp only [unreadPids, hrequests, hf.sync]
  obtain ⟨thread, ht, hmove⟩ := threadStep_move hs
  have hset {u : Thread} (hu : u.pc ≠ .readArgument) {w : Thread}
      (hw : w ∈ t.state.threads.set j u) (hr : w.pc = .readArgument) : w ∈ t.state.threads := by
    rcases List.mem_or_eq_of_mem_set hw with hold | rfl
    · exact hold
    · exact absurd hr hu
  have hkeep {t' : Traced} (h' : DispatchInv t') (heq : t'.state = t.state)
      (hthreads : ∀ u ∈ s.threads, u.pc = .readArgument → u ∈ t.state.threads) :
      DispatchInv { t' with state := s } :=
    h'.keep (heq ▸ hf.request) (heq ▸ hf.affected) (heq ▸ hf.latest) (heq ▸ hf.cell)
      (heq ▸ hthreads) (by rw [heq, hrequests]) (by rw [heq, hpids]; exact fun _ ↦ id)
  cases hmove with
  | argumentRead hpc =>
    obtain ⟨hsent, hcell⟩ := h.argument thread (List.mem_of_getElem? ht) hpc
    simp only [pidRead, ht, hpc, if_true, Option.toList_some]
    exact hkeep (h.taken hsent hcell) rfl fun u hu hr ↦ hset (by simp) hu hr
  | served hpc =>
    simp only [pidRead, ht, hpc, reduceCtorEq, if_false, Option.toList_none, List.append_nil]
    refine hkeep h rfl fun u hu hr ↦ hset ?_ (answer_threads _ _ ▸ hu) hr
    simp [Thread.stepped]
  | alreadyConnected hpc | unassigned hpc | placed hpc | outOfMemory hpc | claimed hpc =>
    simp only [pidRead, ht, hpc, reduceCtorEq, if_false, Option.toList_none, List.append_nil]
    exact hkeep h rfl fun u hu hr ↦ hset (by simp) hu hr

theorem DispatchInv.overwritten {t : Traced} (h : DispatchInv t) {pid : Pid}
    (hok : wordsKept t.state (.overwrite pid) = true) :
    DispatchInv { t with state := { t.state with cell := pid } } := by
  have hkept := of_decide_eq_true hok
  exact ⟨⟨h.executes.request, h.executes.pid, h.executes.once⟩, h.request, h.pid,
    fun u hu hr ↦ ⟨(h.argument u hu hr).1, (hkept u hu hr).symm⟩, h.sent, h.ids, h.fresh, h.nodup⟩

theorem event_inv {t u : Traced} {e : Event} (h : DispatchInv t)
    (hok : wordsKept t.state (.event e) = true) (hstep : step t (.event e) = some u) :
    DispatchInv u := by
  obtain ⟨s, hs, rfl⟩ := Option.map_eq_some_iff.mp hstep
  cases e with
  | sync created killed =>
    simp only [sentBy, Option.toList_none, List.append_nil]
    exact syncStep_inv h hok hs
  | thread j mustChange killed =>
    simp only [sentBy, requestRead, Option.toList_none, List.append_nil]
    exact threadStep_inv h hs
  | deliver pid signal =>
    have hf := deliverStep_frame pid signal t.state
    obtain rfl := Option.some.inj hs
    simp only [sentBy, requestRead, pidRead, Option.toList_none, List.append_nil]
    refine h.keep hf.request hf.affected hf.latest hf.cell ?_ ?_ ?_
    · exact deliverStep_threads pid signal t.state ▸ fun u hu _ ↦ hu
    · simp only [unreadRequests, hf.pendingMaster, hf.latest, hf.sync, List.Sublist.refl]
    · simp only [unreadPids, unreadRequests, hf.pendingMaster, hf.latest, hf.sync, List.Subset.refl]
  | type request =>
    obtain ⟨-, hs⟩ := Option.ite_none_right_eq_some.mp hs
    simp only [sentBy, requestRead, pidRead, Option.toList_none, List.append_nil,
      ← Option.some.inj hs]
    have hkept := of_decide_eq_true hok
    exact ⟨⟨h.executes.request, h.executes.pid, h.executes.once⟩, hkept, h.pid, h.argument, h.sent,
      h.ids, h.fresh, h.nodup⟩
  | name pid =>
    obtain ⟨-, hs⟩ := Option.ite_none_right_eq_some.mp hs
    simp only [sentBy, requestRead, pidRead, Option.toList_none, List.append_nil,
      ← Option.some.inj hs]
    have hkept := of_decide_eq_true hok
    exact ⟨⟨h.executes.request, h.executes.pid, h.executes.once⟩, h.request, hkept, h.argument,
      h.sent, h.ids, h.fresh, h.nodup⟩
  | send =>
    obtain ⟨-, hs⟩ := Option.ite_none_right_eq_some.mp hs
    simp only [sentBy, requestRead, pidRead, Option.toList_none, Option.toList_some,
      List.append_nil, ← Option.some.inj hs]
    exact h.sending
  | _ =>
    simp only [sentBy, requestRead, pidRead, Option.toList_none, List.append_nil]
    first
    | obtain rfl := Option.some.inj hs
    | obtain ⟨-, hs⟩ := Option.ite_none_right_eq_some.mp hs
      obtain rfl := Option.some.inj hs
    exact h.keep rfl rfl rfl rfl (fun u hu _ ↦ hu) (.refl _) (List.Subset.refl _)

theorem step_inv {t u : Traced} {e : Move} (h : DispatchInv t)
    (hok : wordsKept t.state e = true) (hstep : step t e = some u) : DispatchInv u := by
  cases e with
  | event e => exact event_inv h hok hstep
  | overwrite pid =>
    obtain rfl := Option.some.inj hstep
    exact h.overwritten hok

theorem initial_inv : DispatchInv initial := by
  refine ⟨⟨?_, ?_, ?_⟩, ?_, ?_, ?_, ?_, ?_, ?_, ?_⟩
  all_goals simp [initial, Master.initial, unreadPids, unreadRequests, reading, addressing]

theorem executesSent_of_kept {t : Traced}
    (h : Reaches step (fun t e ↦ wordsKept t.state e = true) initial t) : ExecutesSent t := by
  have hinv : DispatchInv t := h.invariant initial_inv fun _ _ _ ↦ step_inv
  exact hinv.executes

def command (request : Request) (pid : Pid) : List Event := [.type request, .name pid, .send]

def threeCommands : List Move :=
  connectedRun.map .event ++ [.overwrite 0] ++
    ([Event.configure 4 7 1000] ++ command .startSlaveCycle 100 ++
      List.replicate 7 (Event.sync true true) ++ [Event.timeout] ++
      command .disconnectSlave 100 ++ List.replicate 3 (Event.sync true true)).map .event

theorem threeCommands_executed :
    ∃ t, t.requests.map Prod.snd = [.connectSlave, .startSlaveCycle, .disconnectSlave] ∧
      t.pids.map Prod.snd = [100, 100, 100, 100] ∧ ExecutesSent t := by
  have hrun : (run (guarded step fun t e ↦ wordsKept t.state e = true) initial threeCommands).map
      (fun t ↦ (t.requests.map Prod.snd, t.pids.map Prod.snd)) =
      some ([.connectSlave, .startSlaveCycle, .disconnectSlave], [100, 100, 100, 100]) := by
    decide +kernel
  obtain ⟨t, ht, hview⟩ := Option.map_eq_some_iff.mp hrun
  simp only [Prod.mk.injEq] at hview
  exact ⟨t, hview.1, hview.2, executesSent_of_kept (.of_run ht)⟩

/-- The sync thread waits for the semaphore of slave 100, which answers its first STOP late.
CONNECT 132 is sent and given up meanwhile, and the user prints the slave data before the
thread reads the request. -/
def overtypedConnect : List Event :=
  startedRun ++ command .stopSlaveCycle 100 ++ List.replicate 6 (Event.sync true true) ++
    [Event.timeout] ++ command .stopSlaveCycle 100 ++ List.replicate 3 (Event.sync true true) ++
    [Event.timeout] ++ command .connectSlave 132 ++
    [Event.timeout, Event.type .printSlaveData, Event.abandon, Event.slave 4 acknowledged,
      Event.deliver 100 .response] ++
    List.replicate 10 (Event.thread 0 false true) ++ List.replicate 5 (Event.sync true true)

theorem connect_overtyped : ¬ ∀ t, Reaches step unrestricted initial t → ExecutesSent t := by
  intro hall
  have hrun : (run step initial (overtypedConnect.map .event)).map (fun t ↦ t.requests[4]?) =
      some (some (⟨5, .connectSlave, 132⟩, .printSlaveData)) := by
    decide +kernel
  obtain ⟨t, ht, hrequest⟩ := Option.map_eq_some_iff.mp hrun
  have hsent := (hall t (.of_unrestricted_run ht)).request _ _ (List.mem_of_getElem? hrequest)
  cases hsent.2

end RealTimeCyclic.MasterDispatch
