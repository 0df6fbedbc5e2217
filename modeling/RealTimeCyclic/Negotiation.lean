import RealTimeCyclic.SlaveName
import Mathlib.Data.Fintype.Card
import Mathlib.Logic.Function.Basic

namespace RealTimeCyclic.Negotiation

open Shm CString Slave SlaveRequest SlaveName Function Transition

/-- `must_change_name`. -/
def mustChangeName (shm : Idx → Shmseg) (i : Idx) : Bool :=
  (List.finRange maxSlaves).any fun j ↦
    !(j = i || (shm j).pid = noPid) && str (shm i).name = str (shm j).name

/-- What `handle_slave_response` leaves behind: the segment, the request it has sent on to
the slave and the response forwarded to the configurator. -/
structure Handled where
  seg : Shmseg
  sent : Option Request := none
  forwarded : Option Response := none

def post (seg : Shmseg) : Shmseg := { seg with semMToSRequest := seg.semMToSRequest + 1 }

/-- `handle_slave_response` for a connected slave. -/
def handleConnectedResponse (seg : Shmseg) : Handled :=
  match seg.reqMToS, seg.resSToM with
  | .disconnectSlave, .nack => { seg := post seg, forwarded := some .nack }
  | .disconnectSlave, .ack => { seg := .initial, forwarded := some .ack }
  | .disconnectSlave, _ => { seg := post seg }
  | .startSlaveCycle, .ack | .stopSlaveCycle, .ack => { seg := post seg, forwarded := some .ack }
  | .startSlaveCycle, _ | .stopSlaveCycle, _ => { seg := post seg, forwarded := some .nack }
  | _, _ => { seg := post seg }

/-- `handle_slave_response` for a slave that is not connected yet.
`send_change_name_slave_request` takes the semaphore that has just been posted. -/
def handleConnectingResponse (mustChange : Bool) (seg : Shmseg) : Handled :=
  match seg.reqMToS, seg.resSToM with
  | .connectSlave, .ack | .changeSlaveName, .ack =>
    if mustChange then
      { seg := { seg with reqMToS := .changeSlaveName }, sent := some .changeSlaveName }
    else { seg := post { seg with isConnected := true }, forwarded := some .ack }
  | .connectSlave, _ | .changeSlaveName, _ => { seg := post seg, forwarded := some .nack }
  | _, _ => { seg := post seg }

def handleSlaveResponse (mustChange : Bool) (seg : Shmseg) : Handled :=
  if seg.isConnected then handleConnectedResponse seg
  else handleConnectingResponse mustChange seg

structure Outcome where
  self : SlaveContext
  shm : Idx → Shmseg
  renames : ℕ
  forwarded : Option Response

/-- The exchange over slot `i`, as long as `fuel` lasts: the slave serves the request,
the master handles the answer and may send the next request. -/
def negotiate (i : Idx) : ℕ → SlaveContext → (Idx → Shmseg) → Option Outcome
  | 0, _, _ => none
  | fuel + 1, self, shm =>
    (handleMasterRequest true self (shm i)).bind fun answer ↦
      let shm := update shm i answer.2
      let handled := handleSlaveResponse (mustChangeName shm i) (shm i)
      let shm := update shm i handled.seg
      if handled.sent.isSome then
        (negotiate i fuel answer.1 shm).map fun outcome ↦
          { outcome with renames := outcome.renames + 1 }
      else some ⟨answer.1, shm, 0, handled.forwarded⟩

def Taken (shm : Idx → Shmseg) (i : Idx) (name : List UInt8) : Prop :=
  ∃ j, j ≠ i ∧ (shm j).pid ≠ noPid ∧ name = str (shm j).name

def othersOccupied (shm : Idx → Shmseg) (i : Idx) : ℕ :=
  (Finset.univ.filter fun j ↦ j ≠ i ∧ (shm j).pid ≠ noPid).card

theorem mustChangeName_iff {shm : Idx → Shmseg} {i : Idx} :
    mustChangeName shm i = true ↔ Taken shm i (str (shm i).name) := by
  unfold mustChangeName Taken
  simp only [List.any_eq_true, List.mem_finRange, true_and, Bool.and_eq_true, Bool.not_eq_true',
    Bool.or_eq_false_iff, decide_eq_false_iff_not, decide_eq_true_eq, and_assoc, ne_eq]

theorem taken_congr {shm shm' : Idx → Shmseg} {i : Idx} {name : List UInt8}
    (h : ∀ j, j ≠ i → shm' j = shm j) : Taken shm' i name ↔ Taken shm i name := by
  refine exists_congr fun j ↦ and_congr_right fun hj ↦ ?_
  rw [h j hj]

/-- Among one name more than there are other owners, one is free. -/
theorem exists_not_taken {shm : Idx → Shmseg} {i : Idx} {name : ℕ → List UInt8}
    (hname : Injective name) : ∃ l ≤ othersOccupied shm i, ¬ Taken shm i (name l) := by
  by_contra! hall
  let owners := Finset.univ.filter fun j ↦ j ≠ i ∧ (shm j).pid ≠ noPid
  have hsub : (Finset.range (othersOccupied shm i + 1)).image name ⊆
      owners.image fun j ↦ str (shm j).name := by
    intro text htext
    obtain ⟨l, hl, rfl⟩ := Finset.mem_image.mp htext
    obtain ⟨j, hj, hpid, hstr⟩ := hall l (Finset.mem_range_succ_iff.mp hl)
    exact Finset.mem_image.mpr ⟨j, Finset.mem_filter.mpr ⟨Finset.mem_univ j, hj, hpid⟩, hstr.symm⟩
  have hcard := (Finset.card_le_card hsub).trans Finset.card_image_le
  rw [Finset.card_image_of_injective _ hname, Finset.card_range] at hcard
  exact absurd hcard (Nat.not_succ_le_self _)

theorem first_not_taken {shm : Idx → Shmseg} {i : Idx} {name : ℕ → List UInt8}
    (hname : Injective name) :
    ∃ m ≤ othersOccupied shm i, ¬ Taken shm i (name m) ∧ ∀ k < m, Taken shm i (name k) := by
  classical
  obtain ⟨l, hl, hfree⟩ : ∃ l ≤ othersOccupied shm i, ¬ Taken shm i (name l) :=
    exists_not_taken hname
  have hex : ∃ m, ¬ Taken shm i (name m) := ⟨l, hfree⟩
  exact ⟨Nat.find hex, (Nat.find_min' hex hfree).trans hl, Nat.find_spec hex,
    fun k hk ↦ not_not.mp (Nat.find_min hex hk)⟩

/-- The slave is about to answer under its `j`-th name. -/
structure Pending (base : List UInt8) (j : ℕ) (c : SlaveContext) (seg : Shmseg) : Prop where
  connecting : seg.isConnected = false
  answers : ∃ c' seg', handleMasterRequest true c seg = some (c', seg') ∧ Named base j c' seg' ∧
    seg'.isConnected = false ∧ seg'.resSToM = .ack ∧
    (seg'.reqMToS = .connectSlave ∨ seg'.reqMToS = .changeSlaveName)

def RenamesFit (base : List UInt8) (j : ℕ) (shm : Idx → Shmseg) (i : Idx) : Prop :=
  ∀ k, (∀ l ≤ k, Taken shm i (renamed base (j + l))) →
    j + k + 1 ≤ 4294967295 ∧ (renamed base (j + k + 1)).length < slaveNameSize

theorem RenamesFit.of_bound {base : List UInt8} {j : ℕ} {shm : Idx → Shmseg} {i : Idx}
    (hmax : j + othersOccupied shm i ≤ 4294967295)
    (hlen : (renamed base (j + othersOccupied shm i)).length < slaveNameSize) :
    RenamesFit base j shm i := by
  intro k hk
  have hinj : Injective fun l ↦ renamed base (j + l) :=
    (renamed_injective base).comp (add_right_injective j)
  obtain ⟨l, hl, hfree⟩ : ∃ l ≤ othersOccupied shm i, ¬ Taken shm i (renamed base (j + l)) :=
    exists_not_taken hinj
  have hlt : k < l := not_le.mp fun hle ↦ hfree (hk l hle)
  exact ⟨by omega, (length_renamed_mono (by omega)).trans_lt hlen⟩

section Negotiate

variable {base : List UInt8} {i : Idx} {j : ℕ} {self : SlaveContext} {shm : Idx → Shmseg}

theorem Pending.rename {seg : Shmseg} (h : Named base j self seg) (hbase : base ≠ [])
    (h0 : (0 : UInt8) ∉ base) (hconnecting : seg.isConnected = false)
    (hj : j + 1 ≤ 4294967295) (hlen : (renamed base (j + 1)).length < slaveNameSize) :
    Pending base (j + 1) self { seg with reqMToS := .changeSlaveName } := by
  have hnamed : Named base j self { seg with reqMToS := .changeSlaveName } :=
    ⟨h.index, h.context, h.segment⟩
  obtain ⟨hnext, hack⟩ := hnamed.rename hbase h0 (by omega) hlen
  have hcontrol := handleChangeName_sameControl self { seg with reqMToS := .changeSlaveName }
  exact ⟨hconnecting, _, _, rfl, ⟨hnext.index, hnext.context, hnext.segment⟩,
    hcontrol.isConnected.trans hconnecting, hack, .inr hcontrol.reqMToS⟩

theorem handle_ack {mustChange : Bool} {seg : Shmseg} (hconnecting : seg.isConnected = false)
    (hack : seg.resSToM = .ack)
    (hreq : seg.reqMToS = .connectSlave ∨ seg.reqMToS = .changeSlaveName) :
    handleSlaveResponse mustChange seg =
      if mustChange then
        { seg := { seg with reqMToS := .changeSlaveName }, sent := some .changeSlaveName }
      else { seg := post { seg with isConnected := true }, forwarded := some .ack } := by
  unfold handleSlaveResponse handleConnectingResponse
  rw [if_neg (by simp [hconnecting]), hack]
  rcases hreq with hreq | hreq <;> rw [hreq]

/-- Where the exchange ends: under the `j`-th name, which no other owner has. -/
structure Settled (base : List UInt8) (j : ℕ) (shm : Idx → Shmseg) (i : Idx)
    (o : Outcome) : Prop where
  forwarded : o.forwarded = some .ack
  connected : (o.shm i).isConnected = true
  named : Named base j o.self (o.shm i)
  others : ∀ k, k ≠ i → o.shm k = shm k
  free : ¬ Taken shm i (renamed base j)

theorem mustChangeName_named {self : SlaveContext} {seg : Shmseg} (h0 : (0 : UInt8) ∉ base)
    (h : Named base j self seg) :
    mustChangeName (update shm i seg) i = true ↔ Taken shm i (renamed base j) := by
  rw [mustChangeName_iff, update_self, str_of_sameBytes h.segment (zero_not_mem_renamed h0 j)]
  exact taken_congr fun k hk ↦ update_of_ne hk ..

theorem negotiate_taken (fuel : ℕ) (hbase : base ≠ []) (h0 : (0 : UInt8) ∉ base)
    (h : Pending base j self (shm i)) (htaken : Taken shm i (renamed base j))
    (hj : j + 1 ≤ 4294967295) (hlen : (renamed base (j + 1)).length < slaveNameSize) :
    ∃ self' seg', Pending base (j + 1) self' seg' ∧
      negotiate i (fuel + 1) self shm = (negotiate i fuel self' (update shm i seg')).map
        fun o ↦ { o with renames := o.renames + 1 } := by
  obtain ⟨self', seg', hanswer, hnamed, hconnecting, hack, hreq⟩ := h.answers
  refine ⟨self', { seg' with reqMToS := .changeSlaveName },
    .rename hnamed hbase h0 hconnecting hj hlen, ?_⟩
  rw [negotiate, hanswer, Option.bind_some]
  dsimp only
  rw [(mustChangeName_named h0 hnamed).mpr htaken, update_self, handle_ack hconnecting hack hreq,
    update_idem]
  rfl

theorem negotiate_free (fuel : ℕ) (h0 : (0 : UInt8) ∉ base) (h : Pending base j self (shm i))
    (hfree : ¬ Taken shm i (renamed base j)) :
    ∃ o, negotiate i (fuel + 1) self shm = some o ∧ o.renames = 0 ∧ Settled base j shm i o := by
  obtain ⟨self', seg', hanswer, hnamed, hconnecting, hack, hreq⟩ := h.answers
  have hmust : mustChangeName (update shm i seg') i = false := by
    rw [← Bool.not_eq_true, mustChangeName_named h0 hnamed]
    exact hfree
  refine ⟨⟨self', update shm i (post { seg' with isConnected := true }), 0, some .ack⟩,
    ?_, rfl, rfl, ?_, ?_, fun k hk ↦ update_of_ne hk .., hfree⟩
  · rw [negotiate, hanswer, Option.bind_some]
    dsimp only
    rw [hmust, update_self, handle_ack hconnecting hack hreq, update_idem]
    rfl
  · dsimp only
    rw [update_self]
    rfl
  · dsimp only
    rw [update_self]
    exact ⟨hnamed.index, hnamed.context, hnamed.segment⟩

theorem RenamesFit.next {seg : Shmseg} (h : RenamesFit base j shm i)
    (htaken : Taken shm i (renamed base j)) :
    RenamesFit base (j + 1) (update shm i seg) i := by
  intro k hk
  have hall : ∀ l ≤ k + 1, Taken shm i (renamed base (j + l)) := by
    intro l hl
    cases l with
    | zero => exact htaken
    | succ l =>
      have hnext := hk l (Nat.le_of_succ_le_succ hl)
      rw [taken_congr fun k hk ↦ update_of_ne hk .., Nat.add_assoc, Nat.add_comm 1] at hnext
      exact hnext
  have hadd : j + (k + 1) + 1 = j + 1 + k + 1 := by omega
  exact hadd ▸ h (k + 1) hall

/-- The induction is on the number of names that are taken; each rename uses one up. -/
theorem negotiate_settles (m fuel : ℕ) (hbase : base ≠ []) (h0 : (0 : UInt8) ∉ base)
    (h : Pending base j self (shm i)) (htaken : ∀ l < m, Taken shm i (renamed base (j + l)))
    (hfree : ¬ Taken shm i (renamed base (j + m))) (hfit : RenamesFit base j shm i) :
    ∃ o, negotiate i (fuel + m + 1) self shm = some o ∧ o.renames = m ∧
      Settled base (j + m) shm i o := by
  induction m generalizing j self shm with
  | zero => exact negotiate_free fuel h0 h hfree
  | succ m ih =>
    have hfirst : Taken shm i (renamed base j) := htaken 0 m.succ_pos
    have hroom := hfit 0 fun l hl ↦ by
      obtain rfl := Nat.le_zero.mp hl
      exact hfirst
    obtain ⟨self', seg', hpending, hround⟩ :=
      negotiate_taken (fuel + m + 1) hbase h0 h hfirst hroom.1 hroom.2
    have hnext : Pending base (j + 1) self' (update shm i seg' i) := by rwa [update_self]
    have hsame {name : List UInt8} : Taken (update shm i seg') i name ↔ Taken shm i name :=
      taken_congr fun k hk ↦ update_of_ne hk ..
    have htaken' : ∀ l < m, Taken (update shm i seg') i (renamed base (j + 1 + l)) := by
      intro l hl
      rw [hsame, Nat.add_assoc, Nat.add_comm 1]
      exact htaken (l + 1) (Nat.succ_lt_succ hl)
    have hfree' : ¬ Taken (update shm i seg') i (renamed base (j + 1 + m)) := by
      rw [hsame, Nat.add_assoc, Nat.add_comm 1]
      exact hfree
    obtain ⟨o, ho, hrenames, hsettled⟩ := ih hnext htaken' hfree' (hfit.next hfirst)
    refine ⟨{ o with renames := o.renames + 1 }, ?_, congrArg (· + 1) hrenames, ?_⟩
    · refine hround.trans ?_
      rw [ho]
      rfl
    · rw [Nat.add_assoc, Nat.add_comm 1] at hsettled
      refine ⟨hsettled.forwarded, hsettled.connected, hsettled.named, fun k hk ↦ ?_, hfree⟩
      exact (hsettled.others k hk).trans (update_of_ne hk ..)

theorem Pending.connect {self : SlaveContext} {seg : Shmseg} (h0 : (0 : UInt8) ∉ base)
    (hindex : self.changeNameIdx.toNat = j) (hname : SameBytes self.name (renamed base j))
    (hreq : seg.reqMToS = .connectSlave) (hconnecting : seg.isConnected = false)
    (hempty : SameBytes seg.name []) : Pending base j self seg := by
  refine ⟨hconnecting, self, { handleConnectSlaveRequest self seg with resSToM := .ack },
    ?_, ⟨hindex, hname, ?_⟩, hconnecting, rfl, .inl hreq⟩
  · rw [handleMasterRequest, hreq]
    rfl
  · refine sameBytes_strcpy hname (zero_not_mem_renamed h0 j) fun k _ ↦ ?_
    exact (hempty k).trans (load_nil k)

end Negotiate

/-- The slave comes from a history of its own, with `renames ops` names used up. -/
theorem negotiation_bounded {name : Mem} {availableParameters : ℕ} {ops : List Op}
    {s : SlaveName.State} {shm : Idx → Shmseg} {i : Idx} {fuel : ℕ} (hname : str name ≠ [])
    (hrun : run SlaveName.step (SlaveName.initial name availableParameters) ops = some s)
    (hindex : renames ops ≤ 4294967295)
    (hlen : (renamed (str name) (renames ops)).length < slaveNameSize)
    (hreq : (shm i).reqMToS = .connectSlave) (hconnecting : (shm i).isConnected = false)
    (hempty : SameBytes (shm i).name []) (hfit : RenamesFit (str name) (renames ops) shm i)
    (hfuel : othersOccupied shm i < fuel) :
    ∃ o, negotiate i fuel { s.self with shmseg := true } shm = some o ∧
      o.renames ≤ othersOccupied shm i ∧ o.forwarded = some .ack ∧
      (o.shm i).isConnected = true ∧ (∀ j, j ≠ i → o.shm j = shm j) ∧
      ∀ j, j ≠ i → (o.shm j).pid ≠ noPid → str (o.shm i).name ≠ str (o.shm j).name := by
  have h0 := zero_not_mem_str name
  have hinv := run_inv initial_inv hname h0 hrun (by omega) (by rwa [Nat.zero_add])
  rw [Nat.zero_add] at hinv
  have hpending : Pending (str name) (renames ops) { s.self with shmseg := true } (shm i) :=
    .connect h0 hinv.index hinv.context hreq hconnecting hempty
  have hinj : Injective fun l ↦ renamed (str name) (renames ops + l) :=
    (renamed_injective (str name)).comp (add_right_injective (renames ops))
  obtain ⟨m, hm, hfree, htaken⟩ : ∃ m ≤ othersOccupied shm i,
      ¬ Taken shm i (renamed (str name) (renames ops + m)) ∧
      ∀ k < m, Taken shm i (renamed (str name) (renames ops + k)) := first_not_taken hinj
  obtain ⟨o, ho, hrenames, hsettled⟩ :=
    negotiate_settles m (fuel - m - 1) hname h0 hpending htaken hfree hfit
  have hfuel' : fuel - m - 1 + m + 1 = fuel := by omega
  rw [hfuel'] at ho
  refine ⟨o, ho, by omega, hsettled.forwarded, hsettled.connected, hsettled.others, ?_⟩
  intro j hj hpid heq
  rw [hsettled.others j hj] at hpid heq
  rw [str_of_sameBytes hsettled.named.segment (zero_not_mem_renamed h0 _)] at heq
  exact hsettled.free ⟨j, hj, hpid, heq⟩

def namesakes : Idx → Shmseg := fun k ↦
  if k = 0 then { Shmseg.initial with name := [97], pid := 1000 }
  else if k = 1 then { Shmseg.initial with name := [97, 95, 49], pid := 1001 }
  else if k = 2 then
    { Shmseg.initial with pid := 1002, reqMToS := .connectSlave, semMToSRequest := 0 }
  else .initial

theorem namesakes_negotiated :
    ∃ o, negotiate 2 3 { SlaveContext.initial [97] 7 with shmseg := true } namesakes = some o ∧
      o.renames ≤ othersOccupied namesakes 2 ∧ o.forwarded = some .ack ∧
      (o.shm 2).isConnected = true ∧ (∀ j, j ≠ 2 → o.shm j = namesakes j) ∧
      ∀ j, j ≠ 2 → (o.shm j).pid ≠ noPid → str (o.shm 2).name ≠ str (o.shm j).name := by
  have hothers : othersOccupied namesakes 2 = 2 := by decide +kernel
  have hfit : RenamesFit (str [97]) (renames []) namesakes 2 := by
    refine .of_bound (by rw [hothers]; decide) ?_
    rw [hothers]
    exact (length_renamed_le (by decide) (by decide)).trans_lt (by decide)
  have hrun : run SlaveName.step (SlaveName.initial [97] 7) [] =
      some (SlaveName.initial [97] 7) := rfl
  exact negotiation_bounded (by decide) hrun (by decide) (by decide) rfl rfl (.refl _) hfit
    (by rw [hothers]; decide)

section Thread

open SlotThread

variable {current : ℕ} {mustChange : Bool} {v : View} {seg : Shmseg}

theorem completes_post (hpc : v.pc = .post) : Completes current mustChange v (post v.seg) := by
  refine .cons (by rw [SlotThread.step, hpc]) ⟨0, _, rfl, rfl, rfl⟩

theorem completes_forward {request : Request} {response : Response} {k : ℕ}
    (hpc : v.pc = .forward request response k) :
    Completes current mustChange v (post v.seg) := by
  refine .cons (by rw [SlotThread.step, hpc]) (.cons rfl ?_)
  exact completes_post rfl

theorem completes_mustChange {request : Request} {k : ℕ}
    (hpc : v.pc = .mustChangeName request k) : Completes current mustChange v
      (if mustChange then { v.seg with reqMToS := .changeSlaveName }
        else post { v.seg with isConnected := true }) := by
  cases mustChange with
  | false =>
    refine .cons (by rw [SlotThread.step, hpc]; rfl) (.cons rfl ?_)
    exact completes_forward rfl
  | true =>
    -- the semaphore has just been posted, so the request does not wait for it
    refine ⟨5, { v with seg.reqMToS := .changeSlaveName, pc := .sigSemWait }, ?_, rfl, rfl⟩
    simp [List.replicate, run, SlotThread.step, hpc]

theorem handle_refused (hconnecting : seg.isConnected = false)
    (h : ¬ (seg.resSToM = .ack ∧
      (seg.reqMToS = .connectSlave ∨ seg.reqMToS = .changeSlaveName))) :
    (handleSlaveResponse mustChange seg).seg = post seg := by
  unfold handleSlaveResponse handleConnectingResponse
  rw [if_neg (by simp [hconnecting])]
  split <;> first | rfl | exact absurd ⟨‹_›, by simp [*]⟩ h

theorem completes_value (hpc : v.pc = .responseValue false v.seg.reqMToS)
    (hconnecting : v.seg.isConnected = false)
    (hreq : v.seg.reqMToS = .connectSlave ∨ v.seg.reqMToS = .changeSlaveName) :
    Completes current mustChange v (handleSlaveResponse mustChange v.seg).seg := by
  by_cases hres : v.seg.resSToM = .ack
  · have hs : SlotThread.step current mustChange true v =
        some ({ v with pc := .mustChangeName v.seg.reqMToS current }, .silent) := by
      simp [SlotThread.step, hpc, hres]
    rw [handle_ack hconnecting hres hreq, apply_ite Handled.seg]
    exact .cons hs (completes_mustChange rfl)
  · have hne : v.seg.reqMToS ≠ .disconnectSlave := by
      rcases hreq with hreq | hreq <;> rw [hreq] <;> decide
    have hs : SlotThread.step current mustChange true v =
        some ({ v with pc := .forward v.seg.reqMToS .nack current }, .silent) := by
      cases hr : v.seg.resSToM <;> first | contradiction | simp [SlotThread.step, hpc, hr, hne]
    rw [handle_refused hconnecting fun h ↦ hres h.1]
    exact .cons hs (completes_forward rfl)

/-- The steps of the slot's thread add up to `handle_slave_response`. -/
theorem thread_completes (hpc : v.pc = .responseConnected)
    (hconnecting : v.seg.isConnected = false) :
    Completes current mustChange v (handleSlaveResponse mustChange v.seg).seg := by
  have hread : SlotThread.step current mustChange true v =
      some ({ v with pc := .responseSwitch false }, .silent) := by
    simp [SlotThread.step, hpc, hconnecting]
  refine .cons hread ?_
  by_cases hreq : v.seg.reqMToS = .connectSlave ∨ v.seg.reqMToS = .changeSlaveName
  · have hs : SlotThread.step current mustChange true { v with pc := .responseSwitch false } =
        some ({ v with pc := .responseValue false v.seg.reqMToS }, .silent) := by
      rcases hreq with hreq | hreq <;> simp [SlotThread.step, hreq]
    exact .cons hs (completes_value rfl hconnecting hreq)
  · have hs : SlotThread.step current mustChange true { v with pc := .responseSwitch false } =
        some ({ v with pc := .post }, .silent) := by
      obtain ⟨hconnect, hrename⟩ := not_or.mp hreq
      cases hr : v.seg.reqMToS <;> first | contradiction | simp [SlotThread.step, hr]
    rw [handle_refused hconnecting fun h ↦ hreq h.2]
    exact .cons hs (completes_post rfl)

end Thread

end RealTimeCyclic.Negotiation
