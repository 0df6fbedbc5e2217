import RealTimeCyclic.ProcessBuffer
import RealTimeCyclic.ProcessSafety
import RealTimeCyclic.SlaveLife

namespace RealTimeCyclic.ProcessSlots

open Shm Slave SlotThread Probing Function Transition Processes SlaveLife

section Lives

variable {pids : Idx → Pid} {s : State} {i : Idx} {u v : Slot.State}

/-- No slot is reset, and no DISCONNECT is taken up, while the cycle of its slave is started. -/
def livesKept (s : State) (e : Event) : Bool :=
  match concerns s e with
  | some (i, e') => lifeKept (view s i) e'
  | none => true

theorem lifeKept_unnumbered (u : Slot.State) (e : Slot.Event) :
    lifeKept { u with slot := unnumbered u.slot } e = lifeKept u e := by
  cases e with
  | slot mustChange =>
    unfold lifeKept
    cases u.slot <;> rfl
  | _ => rfl

theorem admitted_of_livesKept {e : Event} (happart : apart pids s e = true)
    (hkept : livesKept s e = true) (i : Idx) :
    Admitted pids i (fun u e' ↦ lifeKept u e' = true) s e := by
  apply admitted_of_kept lifeKept_unnumbered happart
  intro k e' hconcerns
  simpa [livesKept, hconcerns] using hkept

theorem SameSlot.leads {l : Life} (h : SameSlot u v) (hu : Leads l u) : Leads l v := by
  rw [h.rest] at hu
  exact ⟨hu.lived, hu.shown⟩

/-- The slots stay apart, the names fit, and nothing happens to a slot in mid-cycle. -/
def withinLimits (pids : Idx → Pid) (s : State) (e : Event) : Bool :=
  apart pids s e && livesKept s e && ProcessBuffer.namesFit s e

/-- Whatever happens to the other slaves, each slave leads its own life, and shows it whenever
it waits for a signal. -/
theorem lives_refined (hpids : Homes pids) {name : Idx → CString.Mem}
    {availableParameters : Idx → ℕ} (hnames : ∀ i, (CString.str (name i)).length < slaveNameSize)
    (h : Reaches (ProcessBuffer.step pids) (fun s e ↦ withinLimits pids s e = true)
      (initial name availableParameters) s) (i : Idx) : ∃ l, Leads l (view s i) := by
  have hlimits {s : State} {e : Event} (hok : withinLimits pids s e = true) :
      (apart pids s e = true ∧ livesKept s e = true) ∧ ProcessBuffer.namesFit s e = true := by
    simpa [withinLimits] using hok
  have hideal := ProcessBuffer.Reaches.unbounded hpids hnames h fun s e hok ↦
    ⟨(hlimits hok).1.1, (hlimits hok).2⟩
  have hadmitted := hideal.mono fun s e hok i ↦
    admitted_of_livesKept (hlimits hok).1.1 (hlimits hok).1.2 i
  obtain ⟨u, hu, hsame⟩ := reaches_slot hpids (fun _ _ _ ↦ rfl) hadmitted i
  have hinv : ∃ l, LifeInv l u :=
    hu.invariant ⟨_, initial_inv (name i) (availableParameters i)⟩ fun _ _ _ ↦ step_inv
  obtain ⟨l, hl⟩ := hinv
  exact ⟨l, hsame.leads hl.leads⟩

theorem twoSlaves_lives : ∃ s : State,
    executed (view s 4) = [(.connectSlave, .ack), (.startSlaveCycle, .ack)] ∧
      executed (view s 7) = [(.connectSlave, .ack)] ∧ ∀ i, ∃ l, Leads l (view s i) := by
  have hrun : (run (guarded (ProcessBuffer.step slavePid)
      fun s e ↦ withinLimits slavePid s e = true) (initial (fun _ ↦ [97]) fun _ ↦ 7)
      twoSlaves).map (fun s ↦ (executed (view s 4), executed (view s 7))) =
      some ([(.connectSlave, .ack), (.startSlaveCycle, .ack)], [(.connectSlave, .ack)]) := by
    decide +kernel
  obtain ⟨s, hs, hview⟩ := Option.map_eq_some_iff.mp hrun
  simp only [Prod.mk.injEq] at hview
  exact ⟨s, hview.1, hview.2,
    lives_refined slavePid_homes (fun _ ↦ by decide) (.of_run hs)⟩

end Lives

end RealTimeCyclic.ProcessSlots
