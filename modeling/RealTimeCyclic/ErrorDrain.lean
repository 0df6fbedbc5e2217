import RealTimeCyclic.Library.Transition
import RealTimeCyclic.Library.Window
import RealTimeCyclic.Shm

namespace RealTimeCyclic.ErrorDrain

open Shm Transition Window

/-- How far the thread that serves a slave is in draining its errors, with the index
of the loop in `handle_slave_request_errors`. -/
inductive Drain
  | idle
  | loop (i : ℕ)
  | reset (i : ℕ)
  deriving DecidableEq

def Drain.index : Drain → ℕ
  | .idle => 0
  | .loop i | .reset i => i

/-- A line `Received from slave process [pid]: …` in the log of the master. -/
structure Logged where
  pid : Pid
  errorString : Option SlaveError
  deriving DecidableEq

structure State where
  seg : Shmseg
  drain : Drain
  log : List Logged

def initial (pid : Pid) : State where
  seg := { Shmseg.initial with pid := pid }
  drain := .idle
  log := []

inductive Event
  | setError (error : SlaveError)
  | test
  | loop
  | reset
  deriving DecidableEq

def loopStep (i : ℕ) (s : State) : State :=
  if i < s.seg.shmsegErrorCurrentSize then
    { seg := { s.seg with shmsegError := s.seg.shmsegError.set i none }
      drain := .loop (i + 1)
      log := s.log ++ [⟨s.seg.pid, s.seg.shmsegError.getD i none⟩] }
  else { s with drain := .reset i }

/-- `set_error` of the slave against the test and the drain in the master. -/
def next (s : State) : Event → Option State
  | .setError error => some { s with seg := setError error s.seg }
  | .test =>
    if s.drain = .idle then
      some (if slaveRequestHasErrors s.seg then { s with drain := .loop 0 } else s)
    else none
  | .loop =>
    match s.drain with
    | .loop i => some (loopStep i s)
    | _ => none
  | .reset =>
    match s.drain with
    | .reset _ =>
      some { s with seg := { s.seg with shmsegErrorCurrentSize := 0 }, drain := .idle }
    | _ => none

/-- An error passed to `set_error`, and whether the buffer was full. -/
structure Raised where
  error : SlaveError
  full : Bool

def note (s : State) : Event → List Raised → List Raised
  | .setError error, raised =>
    raised ++ [⟨error, shmsegErrorSize ≤ s.seg.shmsegErrorCurrentSize⟩]
  | .test, raised | .loop, raised | .reset, raised => raised

abbrev Run := Observed State (List Raised)

def step : Run → Event → Option Run := observe next note

def stored (raised : List Raised) : List SlaveError :=
  (raised.filter fun r ↦ !r.full).map Raised.error

def State.inBuffer (s : State) : List (Option SlaveError) :=
  window s.seg.shmsegError s.drain.index s.seg.shmsegErrorCurrentSize

def State.account (s : State) : List Logged :=
  s.log ++ s.inBuffer.map (Logged.mk s.seg.pid)

/-- Every stored error is logged once, in order, or still in the buffer. -/
structure NoneLost (o : Run) : Prop where
  size : o.state.seg.shmsegErrorCurrentSize ≤ shmsegErrorSize
  account : o.state.account = (stored o.notes).map fun error ↦ ⟨o.state.seg.pid, some error⟩

/-- The size is reset only while it is what the last test of the loop has found. -/
def kept (s : State) : Event → Bool
  | .reset => s.seg.shmsegErrorCurrentSize ≤ s.drain.index
  | .setError _ | .test | .loop => true

structure BufferInv (s : State) : Prop where
  length : s.seg.shmsegError.length = shmsegErrorSize
  size : s.seg.shmsegErrorCurrentSize ≤ shmsegErrorSize
  index : s.drain.index ≤ s.seg.shmsegErrorCurrentSize

def accepted (s : State) : Event → List SlaveError
  | .setError error => if s.seg.shmsegErrorCurrentSize < shmsegErrorSize then [error] else []
  | .test | .loop | .reset => []

theorem stored_note (s : State) (e : Event) (raised : List Raised) :
    stored (note s e raised) = stored raised ++ accepted s e := by
  cases e with
  | setError error =>
    rw [stored, note, List.filter_append, List.map_append, ← stored]
    by_cases hroom : s.seg.shmsegErrorCurrentSize < shmsegErrorSize
    · rw [accepted, if_pos hroom]
      simp [not_le.mpr hroom]
    · rw [accepted, if_neg hroom]
      simp [not_lt.mp hroom]
  | _ => exact (List.append_nil _).symm

theorem next_inv {s t : State} {e : Event} (h : BufferInv s) (hs : next s e = some t) :
    BufferInv t ∧ t.seg.pid = s.seg.pid := by
  cases e with
  | setError error =>
    obtain rfl := Option.some.inj hs
    refine ⟨?_, (setError_sameControl error s.seg).pid⟩
    unfold setError
    split_ifs with hroom
    · exact ⟨by rw [List.length_set, h.length], hroom, h.index.trans (Nat.le_succ _)⟩
    · exact h
  | test =>
    obtain ⟨hidle, hs⟩ := Option.ite_none_right_eq_some.mp hs
    obtain rfl := Option.some.inj hs
    split_ifs
    · exact ⟨⟨h.length, h.size, Nat.zero_le _⟩, rfl⟩
    · exact ⟨h, rfl⟩
  | loop =>
    simp only [next] at hs
    split at hs
    · rename_i i hdrain
      obtain rfl := Option.some.inj hs
      unfold loopStep
      split_ifs with hi
      · exact ⟨⟨by rw [List.length_set, h.length], h.size, hi⟩, rfl⟩
      · have hindex := h.index
        rw [hdrain] at hindex
        exact ⟨⟨h.length, h.size, hindex⟩, rfl⟩
    · cases hs
  | reset =>
    simp only [next] at hs
    split at hs
    · obtain rfl := Option.some.inj hs
      exact ⟨⟨h.length, Nat.zero_le _, Nat.le_refl 0⟩, rfl⟩
    · cases hs

section Account

variable {s t : State} {i : ℕ}

theorem setError_account (h : BufferInv s) (error : SlaveError) :
    ({ s with seg := setError error s.seg } : State).account =
      s.account ++ (accepted s (.setError error)).map fun error ↦ ⟨s.seg.pid, some error⟩ := by
  unfold setError accepted
  split_ifs with hroom
  · simp only [State.account, State.inBuffer]
    rw [window_push h.index (h.length ▸ hroom), List.map_append, List.append_assoc,
      List.map_singleton, List.map_singleton]
  · exact (List.append_nil _).symm

theorem loopStep_account (h : BufferInv s) (hdrain : s.drain = .loop i) :
    (loopStep i s).account = s.account := by
  unfold loopStep
  split_ifs with hi
  · have hpop := window_pop (a := none) hi (h.length ▸ h.size) none
    simp only [State.account, State.inBuffer, hdrain, Drain.index]
    rw [hpop, List.map_cons, List.append_assoc, List.singleton_append]
  · simp only [State.account, State.inBuffer, hdrain, Drain.index]

/-- What the reset finds in the buffer behind the index of the loop is dropped. -/
theorem reset_account (hs : next s .reset = some t) : t.account = s.log := by
  simp only [next] at hs
  split at hs
  · obtain rfl := Option.some.inj hs
    simp only [State.account, State.inBuffer, Drain.index]
    rw [window_self, List.map_nil, List.append_nil]
  · cases hs

theorem length_account (h : BufferInv s) :
    s.account.length = s.log.length + (s.seg.shmsegErrorCurrentSize - s.drain.index) := by
  rw [State.account, List.length_append, List.length_map, State.inBuffer,
    length_window (h.length ▸ h.size)]

end Account

theorem next_account {s t : State} {e : Event} (h : BufferInv s) (hs : next s e = some t) :
    t.account = s.account ++ ((accepted s e).map fun error ↦ ⟨s.seg.pid, some error⟩) ∨
      e = .reset ∧ t.account = s.log := by
  cases e with
  | setError error =>
    obtain rfl := Option.some.inj hs
    exact .inl (setError_account h error)
  | test =>
    obtain ⟨hidle, hs⟩ := Option.ite_none_right_eq_some.mp hs
    obtain rfl := Option.some.inj hs
    left
    rw [accepted, List.map_nil, List.append_nil]
    split_ifs
    · simp only [State.account, State.inBuffer, hidle, Drain.index]
    · rfl
  | loop =>
    simp only [next] at hs
    split at hs
    · rename_i i hdrain
      obtain rfl := Option.some.inj hs
      left
      rw [accepted, List.map_nil, List.append_nil]
      exact loopStep_account h hdrain
    · cases hs
  | reset => exact .inr ⟨rfl, reset_account hs⟩

theorem log_of_kept {s : State} (h : BufferInv s) (hok : kept s .reset = true) :
    s.account = s.log := by
  have hsize : s.seg.shmsegErrorCurrentSize = s.drain.index :=
    (of_decide_eq_true hok).antisymm h.index
  rw [State.account, State.inBuffer, hsize, window_self, List.map_nil, List.append_nil]

section Uninterrupted

variable {s : State}

def drained (i : ℕ) (seg : Shmseg) : Shmseg :=
  { seg with shmsegError := seg.shmsegError.mapIdx fun j e ↦ if j < i then none else e }

theorem drained_zero (seg : Shmseg) : drained 0 seg = seg := by
  have herrors : (seg.shmsegError.mapIdx fun j e ↦ if j < 0 then none else e) =
      seg.shmsegError := by
    refine List.ext_getElem (by simp) fun j hj hj' ↦ ?_
    rw [List.getElem_mapIdx, if_neg (Nat.not_lt_zero j)]
  simp only [drained, herrors]

theorem drained_succ (seg : Shmseg) (i : ℕ) :
    { drained i seg with shmsegError := (drained i seg).shmsegError.set i none } =
      drained (i + 1) seg := by
  have herrors : (seg.shmsegError.mapIdx fun j e ↦ if j < i then none else e).set i none =
      seg.shmsegError.mapIdx fun j e ↦ if j < i + 1 then none else e := by
    refine List.ext_getElem (by simp) fun j hj hj' ↦ ?_
    rw [List.getElem_set, List.getElem_mapIdx, List.getElem_mapIdx]
    split_ifs <;> first | rfl | omega
  simp only [drained, herrors]

theorem drain_loops (h : BufferInv s) (hidle : s.drain = .idle)
    (herrors : slaveRequestHasErrors s.seg = true) {i : ℕ}
    (hi : i ≤ s.seg.shmsegErrorCurrentSize) :
    ∃ t, run next s (.test :: List.replicate i .loop) = some t ∧ t.seg = drained i s.seg ∧
      t.drain = .loop i ∧ t.account = s.account ∧ BufferInv t := by
  induction i with
  | zero =>
    have ht : next s .test = some { s with drain := .loop 0 } := by
      rw [next, if_pos hidle, if_pos herrors]
    have hrun : run next s [.test] = some { s with drain := .loop 0 } := by
      rw [run, ht, Option.bind_some, run]
    refine ⟨_, hrun, (drained_zero s.seg).symm, rfl, ?_, (next_inv h ht).1⟩
    simp only [State.account, State.inBuffer, hidle, Drain.index]
  | succ i ih =>
    obtain ⟨t, ht, hseg, hdrain, haccount, hinv⟩ := ih (by omega)
    have hloop : next t .loop = some (loopStep i t) := by
      rw [next, hdrain]
    have hsize : i < t.seg.shmsegErrorCurrentSize := by
      rw [hseg]
      exact hi
    refine ⟨loopStep i t, ?_, ?_, ?_, (loopStep_account hinv hdrain).trans haccount,
      (next_inv hinv hloop).1⟩
    · rw [List.replicate_succ', ← List.cons_append, run_append, ht, Option.bind_some, run, hloop]
      rfl
    · rw [loopStep, if_pos hsize, ← drained_succ, ← hseg]
    · rw [loopStep, if_pos hsize]

/-- Left alone, the steps are `handle_slave_request_errors` in one piece. -/
theorem drain_uninterrupted (h : BufferInv s) (hidle : s.drain = .idle)
    (herrors : slaveRequestHasErrors s.seg = true) :
    run next s (.test :: List.replicate s.seg.shmsegErrorCurrentSize .loop ++ [.loop, .reset]) =
      some { seg := handleSlaveRequestErrors s.seg, drain := .idle, log := s.account } := by
  obtain ⟨t, ht, hseg, hdrain, haccount, hinv⟩ := drain_loops h hidle herrors le_rfl
  have hsize : t.seg.shmsegErrorCurrentSize = s.seg.shmsegErrorCurrentSize := by
    rw [hseg]
    rfl
  have hlog : s.account = t.log := by
    rw [← haccount]
    exact log_of_kept hinv (decide_eq_true (by rw [hsize, hdrain, Drain.index]))
  have hlast : next t .loop = some { t with drain := .reset s.seg.shmsegErrorCurrentSize } := by
    rw [next, hdrain]
    dsimp only
    rw [loopStep, hsize, if_neg (lt_irrefl _)]
  rw [run_append, ht, Option.bind_some, run, hlast, Option.bind_some, run, hlog, hseg]
  rfl

end Uninterrupted

section Run

variable {o o' : Run} {e : Event}

def Lost (o : Run) : Prop := o.state.account.length < (stored o.notes).length

theorem step_inv (h : BufferInv o.state) (hs : step o e = some o') : BufferInv o'.state := by
  obtain ⟨t, ht, rfl⟩ := observe_eq_some hs
  exact (next_inv h ht).1

theorem step_noneLost (h : BufferInv o.state) (hnone : NoneLost o)
    (hok : kept o.state e = true) (hs : step o e = some o') : NoneLost o' := by
  obtain ⟨t, ht, rfl⟩ := observe_eq_some hs
  obtain ⟨hinv, hpid⟩ := next_inv h ht
  refine ⟨hinv.size, ?_⟩
  dsimp only
  rw [stored_note, List.map_append, hpid, ← hnone.account]
  rcases next_account h ht with haccount | ⟨rfl, haccount⟩
  · exact haccount
  · rw [haccount, log_of_kept h hok, accepted, List.map_nil, List.append_nil]

theorem lost_of_reset (h : BufferInv o.state) (hnone : NoneLost o)
    (hok : ¬ kept o.state e = true) (hs : step o e = some o') : Lost o' := by
  obtain ⟨t, ht, rfl⟩ := observe_eq_some hs
  cases e with
  | reset =>
    have hlength := length_account h
    have hbehind : ¬ o.state.seg.shmsegErrorCurrentSize ≤ o.state.drain.index :=
      fun hle ↦ hok (decide_eq_true hle)
    rw [hnone.account, List.length_map] at hlength
    unfold Lost
    dsimp only
    rw [reset_account ht, note]
    omega
  | _ => exact absurd rfl hok

theorem step_lost (h : BufferInv o.state) (hlost : Lost o) (hs : step o e = some o') :
    Lost o' := by
  obtain ⟨t, ht, rfl⟩ := observe_eq_some hs
  unfold Lost at hlost ⊢
  dsimp only
  rw [stored_note, List.length_append]
  rcases next_account h ht with haccount | ⟨rfl, haccount⟩
  · rw [haccount, List.length_append, List.length_map]
    omega
  · have hlength := length_account h
    rw [haccount]
    omega

end Run

theorem initial_inv (pid : Pid) : BufferInv (initial pid) where
  length := List.length_replicate
  size := Nat.zero_le _
  index := Nat.le_refl 0

/-- No error is lost in a run if and only if none was stored between a last test of the
loop and the reset that follows. -/
theorem noneLost_iff_kept {pid : Pid} {es : List Event} {o : Run}
    (h : run step ⟨initial pid, []⟩ es = some o) :
    NoneLost o ↔
      run (guarded step fun o e ↦ kept o.state e = true) ⟨initial pid, []⟩ es = some o := by
  apply run_guarded_iff (fun o ↦ BufferInv o.state) NoneLost Lost (fun _ _ _ ↦ step_inv)
    (fun _ _ _ ↦ step_noneLost) (fun _ _ _ ↦ lost_of_reset) (fun _ _ _ ↦ step_lost) _
    (initial_inv pid) _ h
  · intro o hlost hnone
    unfold Lost at hlost
    rw [hnone.account, List.length_map] at hlost
    exact absurd hlost (lt_irrefl _)
  · exact ⟨Nat.zero_le _, rfl⟩

def raise (format : String) : Event := .setError ⟨format, none⟩

/-- An error is set while the one before it is logged, and one after the reset. -/
theorem during_loop_logged : ∃ o : Run, o.state.log.length = 2 ∧ NoneLost o := by
  have hrun : (run (guarded step fun o e ↦ kept o.state e = true) ⟨initial 100, []⟩
      [raise "usleep() failed!", .test, .loop, raise "Slave cycle already started!", .loop, .loop,
        .reset, raise "Slave cycle already stopped!", .test]).map
      (fun o ↦ o.state.log.length) = some 2 := by
    decide +kernel
  obtain ⟨o, ho, hlog⟩ := Option.map_eq_some_iff.mp hrun
  exact ⟨o, hlog, (noneLost_iff_kept (run_of_guarded ho)).mpr ho⟩

/-- The second error is stored after the last test of the loop. The fourth one takes its
place in the buffer. -/
theorem before_reset_lost :
    ¬ ∀ o, Reaches step unrestricted ⟨initial 100, []⟩ o → NoneLost o := by
  intro hall
  have hrun : (run step ⟨initial 100, []⟩
      [raise "usleep() failed!", .test, .loop, .loop, raise "Slave cycle already started!", .reset,
        raise "Slave cycle already stopped!", raise "Unrecognized request received!"]).map
      (fun o ↦ (o.state.account.length, (stored o.notes).length)) = some (3, 4) := by
    decide +kernel
  obtain ⟨o, ho, hview⟩ := Option.map_eq_some_iff.mp hrun
  simp only [Prod.mk.injEq] at hview
  have haccount := congrArg List.length (hall o (.of_unrestricted_run ho)).account
  rw [List.length_map, hview.1, hview.2] at haccount
  cases haccount

end RealTimeCyclic.ErrorDrain
