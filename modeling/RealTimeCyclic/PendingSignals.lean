import RealTimeCyclic.Library.Probing
import RealTimeCyclic.Library.Transition
import RealTimeCyclic.Shm
import Mathlib.Logic.Function.Basic

namespace RealTimeCyclic.PendingSignals

open Shm Probing Function Transition

/-- A running call of `async_signal_handler`. It is interrupted by further calls
because `SIGUSR1` is not blocked in it. -/
inductive Handler
  | lookup (pid : Pid)
  | post (pid : Pid) (i : Idx)
  deriving DecidableEq

def Handler.pid : Handler → Pid
  | .lookup pid | .post pid _ => pid

/-- The signal `SIGUSR1` of the master process. `pending` is the sender of the one
pending instance; `sent` and `posted` count the signals of a process and the
increments of a semaphore. -/
structure State where
  pending : Option Pid
  handlers : List Handler
  sigSemaphore : Idx → ℕ
  sent : Pid → ℕ
  posted : Idx → ℕ

def initial : State where
  pending := none
  handlers := []
  sigSemaphore _ := 0
  sent _ := 0
  posted _ := 0

inductive Event
  | kill (pid : Pid)
  | deliver
  | handle
  | semWait (i : Idx)
  deriving DecidableEq

abbrev Owners := Idx → Pid

def getAssignedShmsegIdx (owners : Owners) (pid : Pid) : Option Idx :=
  probe (fun i ↦ owners i = pid) (homeIdx pid)

def handleStep (owners : Owners) (s : State) : Option State :=
  match s.handlers with
  | [] => none
  | .lookup pid :: handlers =>
    match getAssignedShmsegIdx owners pid with
    | some i => some { s with handlers := .post pid i :: handlers }
    | none => some { s with handlers := handlers }
  | .post _ i :: handlers =>
    some { s with
      handlers := handlers
      sigSemaphore := update s.sigSemaphore i (s.sigSemaphore i + 1)
      posted := update s.posted i (s.posted i + 1) }

/-- A signal that is sent while one is pending is discarded. -/
def step (owners : Owners) (s : State) : Event → Option State
  | .kill pid =>
    some { s with
      pending := s.pending.or (some pid)
      sent := update s.sent pid (s.sent pid + 1) }
  | .deliver =>
    match s.pending with
    | none => none
    | some pid => some { s with pending := none, handlers := .lookup pid :: s.handlers }
  | .handle => handleStep owners s
  | .semWait i =>
    if 0 < s.sigSemaphore i then
      some { s with sigSemaphore := update s.sigSemaphore i (s.sigSemaphore i - 1) }
    else none

def State.outstanding (s : State) (pid : Pid) : ℕ :=
  s.pending.toList.count pid + (s.handlers.map Handler.pid).count pid

variable (owners : Owners)

def NoneMissed (s : State) : Prop :=
  ∀ pid i, getAssignedShmsegIdx owners pid = some i →
    s.sent pid = s.posted i + s.outstanding pid

/-- The owner of a slot signals the master while no other signal is pending. -/
def unmerged (s : State) : Event → Bool
  | .kill pid => (getAssignedShmsegIdx owners pid).isSome → s.pending = none
  | _ => true

def Missed (s : State) (pid : Pid) (i : Idx) : Prop := s.posted i + s.outstanding pid < s.sent pid

def HandlersOk (s : State) : Prop :=
  ∀ pid i, .post pid i ∈ s.handlers → getAssignedShmsegIdx owners pid = some i

variable {owners : Owners} {s t : State} {e : Event} {pid : Pid} {i : Idx}

theorem owner_of_assigned (h : getAssignedShmsegIdx owners pid = some i) : owners i = pid :=
  of_decide_eq_true (probe_some h)

theorem step_handlersOk (h : HandlersOk owners s) (hs : step owners s e = some t) :
    HandlersOk owners t := by
  cases e with
  | kill pid =>
    rw [← Option.some.inj hs]
    exact h
  | deliver =>
    simp only [step] at hs
    split at hs
    · cases hs
    · rw [← Option.some.inj hs]
      intro pid i hi
      exact h pid i (by simpa using hi)
  | handle =>
    simp only [step, handleStep] at hs
    split at hs
    · cases hs
    · rename_i hhandlers
      split at hs
      · rename_i hassigned
        rw [← Option.some.inj hs]
        intro pid' i' hi
        rcases List.mem_cons.mp hi with heq | hold
        · obtain ⟨rfl, rfl⟩ := Handler.post.inj heq
          exact hassigned
        · exact h pid' i' (hhandlers ▸ List.mem_cons_of_mem _ hold)
      · rw [← Option.some.inj hs]
        intro pid' i' hi
        exact h pid' i' (hhandlers ▸ List.mem_cons_of_mem _ hi)
    · rename_i hhandlers
      rw [← Option.some.inj hs]
      intro pid' i' hi
      exact h pid' i' (hhandlers ▸ List.mem_cons_of_mem _ hi)
  | semWait i =>
    obtain ⟨-, hs⟩ := Option.ite_none_right_eq_some.mp hs
    rw [← Option.some.inj hs]
    exact h

theorem step_balance (h : HandlersOk owners s) (hs : step owners s e = some t)
    (hassigned : getAssignedShmsegIdx owners pid = some i) (he : ∀ pid', e ≠ .kill pid') :
    t.sent pid = s.sent pid ∧
      t.posted i + t.outstanding pid = s.posted i + s.outstanding pid := by
  cases e with
  | kill pid' => exact absurd rfl (he pid')
  | deliver =>
    simp only [step] at hs
    split at hs
    · cases hs
    · rename_i sender hpending
      rw [← Option.some.inj hs]
      refine ⟨rfl, ?_⟩
      simp only [State.outstanding, hpending, Handler.pid, List.map_cons, List.count_cons,
        Option.toList_some, Option.toList_none, List.count_nil]
      omega
  | handle =>
    simp only [step, handleStep] at hs
    split at hs
    · cases hs
    · rename_i sender handlers hhandlers
      split at hs
      · rw [← Option.some.inj hs]
        refine ⟨rfl, ?_⟩
        simp [State.outstanding, hhandlers, Handler.pid]
      · rename_i hnone
        have hne : sender ≠ pid := by
          rintro rfl
          rw [hassigned] at hnone
          cases hnone
        rw [← Option.some.inj hs]
        refine ⟨rfl, ?_⟩
        simp [State.outstanding, hhandlers, Handler.pid, hne]
    · rename_i sender j handlers hhandlers
      have hsender : getAssignedShmsegIdx owners sender = some j :=
        h sender j (hhandlers ▸ List.mem_cons_self)
      rw [← Option.some.inj hs]
      refine ⟨rfl, ?_⟩
      simp only [State.outstanding, hhandlers, Handler.pid, List.map_cons, List.count_cons]
      by_cases hpid : sender = pid
      · subst hpid
        obtain rfl := Option.some.inj (hsender.symm.trans hassigned)
        simp
        omega
      · have hij : i ≠ j := by
          rintro rfl
          exact hpid ((owner_of_assigned hsender).symm.trans (owner_of_assigned hassigned))
        simp [update_of_ne hij, hpid]
  | semWait j =>
    obtain ⟨-, hs⟩ := Option.ite_none_right_eq_some.mp hs
    rw [← Option.some.inj hs]
    exact ⟨rfl, rfl⟩

theorem kill_balance (s : State) (sender pid : Pid) :
    ({ s with
      pending := s.pending.or (some sender)
      sent := update s.sent sender (s.sent sender + 1) } : State).outstanding pid =
      s.outstanding pid + if s.pending = none ∧ sender = pid then 1 else 0 := by
  cases hp : s.pending with
  | none =>
    by_cases hpid : sender = pid
    · simp [State.outstanding, hp, hpid]
      omega
    · simp [State.outstanding, hp, hpid]
  | some other => simp [State.outstanding, hp]

theorem step_noneMissed (hhandlers : HandlersOk owners s) (h : NoneMissed owners s)
    (hok : unmerged owners s e = true) (hs : step owners s e = some t) : NoneMissed owners t := by
  intro pid i hassigned
  have hbalance := h pid i hassigned
  cases e with
  | kill sender =>
    rw [← Option.some.inj hs, kill_balance]
    dsimp only
    by_cases hpid : sender = pid
    · subst hpid
      have hpending := of_decide_eq_true hok (hassigned ▸ rfl)
      rw [update_self, if_pos ⟨hpending, rfl⟩]
      omega
    · rw [update_of_ne (Ne.symm hpid), if_neg fun hand ↦ hpid hand.2]
      exact hbalance
  | _ =>
    obtain ⟨hsent, hkept⟩ := step_balance hhandlers hs hassigned (by simp)
    rw [hsent, hkept]
    exact hbalance

/-- A signal once lost stays lost. -/
theorem step_missed (hhandlers : HandlersOk owners s)
    (hassigned : getAssignedShmsegIdx owners pid = some i) (h : Missed s pid i)
    (hs : step owners s e = some t) : Missed t pid i := by
  unfold Missed at h ⊢
  cases e with
  | kill sender =>
    rw [← Option.some.inj hs, kill_balance]
    dsimp only
    by_cases hpid : sender = pid
    · subst hpid
      rw [update_self]
      split_ifs <;> omega
    · rw [update_of_ne (Ne.symm hpid), if_neg fun hand ↦ hpid hand.2]
      exact h
  | _ =>
    obtain ⟨hsent, hkept⟩ := step_balance hhandlers hs hassigned (by simp)
    rw [hsent, hkept]
    exact h

theorem missed_of_merged (h : NoneMissed owners s) (hmerged : unmerged owners s e = false)
    (hs : step owners s e = some t) :
    ∃ pid i, getAssignedShmsegIdx owners pid = some i ∧ Missed t pid i := by
  cases e with
  | kill pid =>
    have hboth := of_decide_eq_false hmerged
    push Not at hboth
    obtain ⟨hsome, hpending⟩ := hboth
    obtain ⟨i, hassigned⟩ := Option.isSome_iff_exists.mp hsome
    refine ⟨pid, i, hassigned, ?_⟩
    have hbalance := h pid i hassigned
    rw [Missed, ← Option.some.inj hs, kill_balance]
    dsimp only
    rw [update_self, if_neg fun hand ↦ hpending hand.1]
    omega
  | _ => cases hmerged

/-- No signal is missed in a run if and only if none was sent by the owner of a
slot while another was pending. -/
theorem noneMissed_iff_unmerged {es : List Event}
    (h : run (step owners) initial es = some s) :
    NoneMissed owners s ↔
      run (guarded (step owners) fun s e ↦ unmerged owners s e = true) initial es = some s := by
  apply run_guarded_iff (HandlersOk owners) (NoneMissed owners)
    (fun s ↦ ∃ pid i, getAssignedShmsegIdx owners pid = some i ∧ Missed s pid i)
    (fun _ _ _ ↦ step_handlersOk) (fun _ _ _ ↦ step_noneMissed) _ _ _ _ _ h
  · intro s e t _ hnone hmerged hs
    exact missed_of_merged hnone (Bool.eq_false_iff.mpr hmerged) hs
  · intro s e t hhandlers hlost hs
    obtain ⟨pid, i, hassigned, hmissed⟩ := hlost
    exact ⟨pid, i, hassigned, step_missed hhandlers hassigned hmissed hs⟩
  · intro s hlost hnone
    obtain ⟨pid, i, hassigned, hmissed⟩ := hlost
    exact hmissed.ne' (hnone pid i hassigned)
  · intro pid i hi
    cases hi
  · intro pid i _
    rfl

def twoOwners (i : Idx) : Pid := if i = 4 then 100 else if i = 5 then 101 else noPid

theorem alternating_noneMissed : ∃ s, s.posted 4 = 2 ∧ s.posted 5 = 1 ∧
    NoneMissed twoOwners s := by
  have hrun : (run (guarded (step twoOwners) fun s e ↦ unmerged twoOwners s e = true) initial
      [.kill 100, .deliver, .handle, .kill 101, .handle, .deliver, .kill 100, .handle, .handle,
        .deliver, .handle, .handle]).map (fun s ↦ (s.posted 4, s.posted 5)) = some (2, 1) := by
    decide +kernel
  obtain ⟨s, hs, hposted⟩ := Option.map_eq_some_iff.mp hrun
  simp only [Prod.mk.injEq] at hposted
  exact ⟨s, hposted.1, hposted.2, (noneMissed_iff_unmerged (run_of_guarded hs)).mpr hs⟩

/-- Two slaves answer at the same time. -/
theorem second_missed : ¬ ∀ s, Reaches (step twoOwners) unrestricted initial s →
    NoneMissed twoOwners s := by
  intro hall
  have hrun : (run (step twoOwners) initial [.kill 100, .kill 101]).map
      (fun s ↦ (s.sent 101, s.posted 5, s.outstanding 101)) = some (1, 0, 0) := by
    decide +kernel
  obtain ⟨s, hs, hview⟩ := Option.map_eq_some_iff.mp hrun
  simp only [Prod.mk.injEq] at hview
  have hbalance := hall s (.of_unrestricted_run hs) 101 5 (by decide +kernel)
  omega

end RealTimeCyclic.PendingSignals
