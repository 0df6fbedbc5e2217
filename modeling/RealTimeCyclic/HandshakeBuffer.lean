import RealTimeCyclic.HandshakeNames
import RealTimeCyclic.NameBuffer

namespace RealTimeCyclic.HandshakeBuffer

open Shm CString Slave SlotThread Function Handshake Transition HandshakeNames NameBuffer

/-- All stores of `handle_change_name_slave_request` to the shared name. -/
def changeNameStores (self : SlaveContext) (seg : Shmseg) : List (ℕ × UInt8) :=
  let erase := if self.changeNameIdx ≠ 0 then eraseStores (slaveNameSize - 1) self.name else []
  let (self', _, response) := NameBuffer.handleChangeNameSlaveRequest self seg
  if response = .ack then erase ++ strcpyStores (context.bytes self') else erase

/-- A name is written through its 128 bytes into the fields behind it. -/
def handlerStep (t : Slot) : Option Slot :=
  match t.handler, t.seg.reqMToS with
  | .requestSwitch, .connectSlave =>
    some { t with handler := .connect (strcpyStores (context.bytes t.self)) }
  | .requestSwitch, .changeSlaveName =>
    let (self, _, response) := NameBuffer.handleChangeNameSlaveRequest t.self t.seg
    some { t with
      self := self
      handler := .changeName (changeNameStores t.self t.seg) response }
  | .connect ((k, b) :: stores), _ =>
    some { t with seg := segment.store t.seg k b, handler := .connect stores }
  | .changeName ((k, b) :: stores) response, _ =>
    some { t with seg := segment.store t.seg k b, handler := .changeName stores response }
  | _, _ => Handshake.handlerStep t

def scanStep (i : Idx) (s : State) : Option Slot :=
  match (s i).scan with
  | .slot _ => Handshake.scanStep i s
  | .byte j n =>
    if segment.load (s i).seg n ≠ segment.load (s j).seg n then
      some { s i with scan := .slot (j + 1) }
    else if segment.load (s i).seg n = 0 then (s i).threadStep true true
    else some { s i with scan := .byte j (n + 1) }

def threadStep (i : Idx) (killed : Bool) (s : State) : Option Slot :=
  match (s i).thread with
  | .mustChangeName _ _ => scanStep i s
  | _ => (s i).threadStep false killed

def slotStep (s : State) : Event → Option Slot
  | .thread i killed => threadStep i killed s
  | .handler i => handlerStep (s i)
  | e => Handshake.slotStep s e

def step (s : State) (e : Event) : Option State :=
  (slotStep s e).map (update s e.idx)

/-- Every name has room for its terminator: the one a slave comes with and the one it is
given. -/
def namesFit (s : State) : Event → Bool
  | .connect _ _ self => (self.name.drop (slaveNameSize - 1)).all (· = 0)
  | .handler i =>
    match (s i).handler, (s i).seg.reqMToS with
    | .requestSwitch, .changeSlaveName => renameFits (s i).self (s i).seg
    | _, _ => true
  | _ => true

def StoresEnd (stores : List (ℕ × UInt8)) : Prop :=
  ∀ q ∈ stores, q.1 < slaveNameSize ∧ (slaveNameSize - 1 ≤ q.1 → q.2 = 0)

/-- The names of a slot end in their buffers. -/
structure SlotEnds (t : Slot) : Prop where
  segment : Ends t.seg.name
  context : Ends t.self.name
  connect : ∀ stores, t.handler = .connect stores → StoresEnd stores
  changeName : ∀ stores response, t.handler = .changeName stores response → StoresEnd stores

section Stores

variable {k : ℕ} {b : UInt8} {stores : List (ℕ × UInt8)}

theorem StoresEnd.lt (h : StoresEnd ((k, b) :: stores)) : k < slaveNameSize :=
  (h _ List.mem_cons_self).1

theorem StoresEnd.store {m : Mem} (h : StoresEnd ((k, b) :: stores)) (hm : Ends m) :
    Ends (CString.store m k b) :=
  hm.store (h _ List.mem_cons_self).2

theorem StoresEnd.tail (h : StoresEnd ((k, b) :: stores)) : StoresEnd stores :=
  fun q hq ↦ h q (List.mem_cons_of_mem _ hq)

end Stores

theorem strcpyStores_end {src : Mem} (h : Ends src) : StoresEnd (strcpyStores src) := by
  intro q hq
  obtain ⟨⟨b, k⟩, hmem, rfl⟩ := List.mem_map.mp hq
  have hlt := h.str_length
  obtain ⟨hk, hb⟩ := List.mem_zipIdx' hmem
  rw [List.length_append, List.length_singleton] at hk
  refine ⟨by dsimp only [Prod.swap]; omega, fun hlast ↦ ?_⟩
  have hend : k = (str src).length := by
    dsimp only [Prod.swap] at hlast
    omega
  subst hend
  simpa using hb

theorem eraseStores_end (i : ℕ) (hi : i < slaveNameSize) (name : Mem) :
    StoresEnd (eraseStores i name) := by
  induction i generalizing name with
  | zero =>
    intro q hq
    cases hq
  | succ i ih =>
    have hfirst : ((i + 1, 0) : ℕ × UInt8).1 < slaveNameSize ∧
        (slaveNameSize - 1 ≤ ((i + 1, 0) : ℕ × UInt8).1 → ((i + 1, 0) : ℕ × UInt8).2 = 0) :=
      ⟨hi, fun _ ↦ rfl⟩
    intro q hq
    unfold eraseStores at hq
    split_ifs at hq
    · exact List.mem_singleton.mp hq ▸ hfirst
    · rcases List.mem_cons.mp hq with rfl | hq
      · exact hfirst
      · exact ih (Nat.lt_of_succ_lt hi) _ q hq

theorem changeNameStores_end {self : SlaveContext} {seg : Shmseg} (hself : Ends self.name)
    (hseg : Ends seg.name) (hfits : renameFits self seg = true) :
    StoresEnd (Handshake.changeNameStores self seg) := by
  have herase : StoresEnd (if self.changeNameIdx ≠ 0 then
      eraseStores (slaveNameSize - 1) self.name else []) := by
    split_ifs
    · exact eraseStores_end _ (by decide) _
    · intro q hq
      cases hq
  have hcopy := strcpyStores_end (changeName_ends hself hseg hfits).1
  unfold Handshake.changeNameStores
  dsimp only
  split_ifs at herase ⊢ <;>
  first
  | exact herase
  | exact fun q hq ↦ (List.mem_append.mp hq).elim (herase q) (hcopy q)

theorem changeNameStores_of_fits {self : SlaveContext} {seg : Shmseg} (hself : Ends self.name)
    (hseg : Ends seg.name) (hfits : renameFits self seg = true) :
    changeNameStores self seg = Handshake.changeNameStores self seg := by
  have hread := (changeName_ends hself hseg hfits).1.str_context
  unfold changeNameStores Handshake.changeNameStores strcpyStores
  rw [handleChangeName_of_fits hself hseg hfits]
  dsimp only
  rw [hread]

section Slot

variable {t t' : Slot}

theorem SlotEnds.keep (h : SlotEnds t) (hseg : t'.seg.name = t.seg.name ∨ t'.seg.name = [])
    (hself : t'.self.name = t.self.name) (hhandler : t'.handler = t.handler) : SlotEnds t' := by
  refine ⟨?_, hself ▸ h.context, hhandler ▸ h.connect, hhandler ▸ h.changeName⟩
  rcases hseg with hseg | hseg
  · exact hseg ▸ h.segment
  · rw [hseg]
    exact fun k _ ↦ load_nil k

theorem SlotEnds.of_names (hseg : Ends t.seg.name) (hself : Ends t.self.name)
    (hhandler : storing t.handler = false) : SlotEnds t := by
  refine ⟨hseg, hself, fun stores hpc ↦ ?_, fun stores response hpc ↦ ?_⟩
  · rw [hpc] at hhandler
    cases hhandler
  · rw [hpc] at hhandler
    cases hhandler

theorem threadStep_ends {mustChange killed : Bool} (hok : ThreadOk t) (h : SlotEnds t)
    (hs : t.threadStep mustChange killed = some t') : SlotEnds t' := by
  obtain ⟨v, effect, hmove, rfl⟩ := threadStep_move hs
  refine h.keep ?_ rfl rfl
  cases hmove with
  | errorsHandled hpc herrors => rcases herrors with rfl | rfl <;> exact .inl rfl
  | zeroed hpc => exact .inr rfl
  | received hpc => simp [ThreadOk, hpc] at hok
  | _ => exact .inl rfl

theorem scanStep_ends {s : State} {i : Idx} (hok : ThreadOk (s i)) (h : SlotEnds (s i))
    (hs : Handshake.scanStep i s = some t') : SlotEnds t' := by
  have hmoved (scan : Scan) : SlotEnds { s i with scan := scan } := h.keep (.inl rfl) rfl rfl
  unfold Handshake.scanStep at hs
  split at hs
  · split_ifs at hs
    · exact Option.some.inj hs ▸ hmoved _
    · exact Option.some.inj hs ▸ hmoved _
    · exact threadStep_ends hok h hs
  · split_ifs at hs
    · exact Option.some.inj hs ▸ hmoved _
    · exact threadStep_ends hok h hs
    · exact Option.some.inj hs ▸ hmoved _

theorem handlerStep_ends (h : SlotEnds t)
    (hfits : t.handler = .requestSwitch → t.seg.reqMToS = .changeSlaveName →
      renameFits t.self t.seg = true)
    (hs : Handshake.handlerStep t = some t') : SlotEnds t' := by
  unfold Handshake.handlerStep at hs
  cases hpc : t.handler with
  | requestSwitch =>
    simp only [hpc] at hs
    split at hs
    · obtain rfl := Option.some.inj hs
      refine ⟨h.segment, h.context, fun stores hstores ↦ ?_, by rintro _ _ ⟨⟩⟩
      obtain rfl := HandlerPc.connect.inj hstores
      exact strcpyStores_end h.context
    · rename_i hrequest
      have hfits := hfits hpc hrequest
      obtain rfl := Option.some.inj hs
      refine ⟨h.segment, (changeName_ends h.context h.segment hfits).1, by rintro _ ⟨⟩,
        fun stores response hstores ↦ ?_⟩
      obtain ⟨rfl, -⟩ := HandlerPc.changeName.inj hstores
      exact changeNameStores_end h.context h.segment hfits
    · obtain rfl := Option.some.inj hs
      exact .of_names h.segment h.context rfl
    · obtain rfl := Option.some.inj hs
      exact .of_names (setError_ends _ h.segment) h.context rfl
  | connect stores =>
    cases stores with
    | nil =>
      simp only [hpc] at hs
      obtain rfl := Option.some.inj hs
      exact .of_names h.segment h.context rfl
    | cons store stores =>
      simp only [hpc] at hs
      obtain rfl := Option.some.inj hs
      have hends := h.connect _ hpc
      refine ⟨hends.store h.segment, h.context, fun stores' hstores ↦ ?_, by rintro _ _ ⟨⟩⟩
      obtain rfl := HandlerPc.connect.inj hstores
      exact hends.tail
  | changeName stores response =>
    cases stores with
    | nil =>
      simp only [hpc] at hs
      obtain rfl := Option.some.inj hs
      refine .of_names ?_ h.context rfl
      dsimp only
      split_ifs
      · exact h.segment
      · exact setError_ends _ h.segment
    | cons store stores =>
      simp only [hpc] at hs
      obtain rfl := Option.some.inj hs
      have hends := h.changeName _ _ hpc
      refine ⟨hends.store h.segment, h.context, by rintro _ ⟨⟩,
        fun stores' response' hstores ↦ ?_⟩
      obtain ⟨rfl, -⟩ := HandlerPc.changeName.inj hstores
      exact hends.tail
  | sigwaitinfo | firstSignalEverSetup =>
    simp only [hpc] at hs
    split_ifs at hs
    all_goals
      obtain rfl := Option.some.inj hs
      exact .of_names h.segment h.context rfl
  | kill request =>
    simp only [hpc] at hs
    obtain rfl := Option.some.inj hs
    refine .of_names h.segment h.context ?_
    dsimp only
    split_ifs <;> rfl
  | getvalueSToM | getvalueMToS =>
    simp only [hpc] at hs
    obtain rfl := Option.some.inj hs
    refine .of_names h.segment h.context ?_
    dsimp only
    split_ifs <;> rfl
  | responsePost | respond request response | clearPointer =>
    simp only [hpc] at hs
    obtain rfl := Option.some.inj hs
    exact .of_names h.segment h.context rfl

theorem all_drop_iff {name : Mem} :
    (name.drop (slaveNameSize - 1)).all (· = 0) = true ↔ Ends name := by
  unfold Ends
  generalize slaveNameSize - 1 = m
  rw [List.all_eq_true]
  refine ⟨fun h k hk ↦ ?_, fun h b hb ↦ ?_⟩
  · rcases lt_or_ge k name.length with hlt | hge
    · have hmem : load name k ∈ name.drop m := by
        rw [load, List.getD_eq_getElem name 0 hlt, List.mem_drop_iff_getElem]
        exact ⟨k - m, by omega, by congr 1; omega⟩
      exact of_decide_eq_true (h _ hmem)
    · exact load_eq_zero hge
  · obtain ⟨k, hk, rfl⟩ := List.mem_drop_iff_getElem.mp hb
    have hzero := h (m + k) (Nat.le_add_right m k)
    rw [load, List.getD_eq_getElem name 0 (by omega)] at hzero
    exact decide_eq_true hzero

end Slot

section Run

variable {s t : State} {e : Event}

/-- What makes the buffers as good as ones without end. -/
structure Fitting (s : State) : Prop where
  names : NamesInv s
  ends : ∀ i, SlotEnds (s i)

theorem renameFits_of_namesFit {i : Idx} (h : namesFit s (.handler i) = true)
    (hpc : (s i).handler = .requestSwitch) (hrequest : (s i).seg.reqMToS = .changeSlaveName) :
    renameFits (s i).self (s i).seg = true := by
  simpa only [namesFit, hpc, hrequest] using h

theorem slotStep_ends {t' : Slot} (h : Fitting s) (hfits : namesFit s e = true)
    (hs : Handshake.slotStep s e = some t') : SlotEnds t' := by
  have hends := h.ends e.idx
  cases e with
  | connect i pid self =>
    obtain ⟨-, hs⟩ := Option.ite_none_right_eq_some.mp hs
    obtain rfl := Option.some.inj hs
    exact .of_names hends.segment (all_drop_iff.mp hfits) rfl
  | disconnect i | deliver i | request i =>
    obtain ⟨-, hs⟩ := Option.ite_none_right_eq_some.mp hs
    obtain rfl := Option.some.inj hs
    exact hends.keep (.inl rfl) rfl rfl
  | sync i =>
    cases hsync : (s i).sync with
    | idle => simp [Handshake.slotStep, syncStep, hsync] at hs
    | write | kill =>
      simp only [Handshake.slotStep, syncStep, hsync] at hs
      obtain rfl := Option.some.inj hs
      exact hends.keep (.inl rfl) rfl rfl
  | thread i killed =>
    simp only [Handshake.slotStep, Handshake.threadStep] at hs
    split at hs
    · exact scanStep_ends (h.names.thread i) hends hs
    · exact threadStep_ends (h.names.thread i) hends hs
  | handler i =>
    exact handlerStep_ends hends (renameFits_of_namesFit hfits) hs

theorem Fitting.next (h : Fitting s) (hfits : namesFit s e = true)
    (hs : Handshake.step s e = some t) : Fitting t := by
  refine ⟨step_inv h.names hs, fun i ↦ ?_⟩
  obtain ⟨u, hu, rfl⟩ := Option.map_eq_some_iff.mp hs
  rcases eq_or_ne i e.idx with rfl | hi
  · rw [update_self]
    exact slotStep_ends h hfits hu
  · rw [update_of_ne hi]
    exact h.ends i

theorem initial_fitting : Fitting initial :=
  ⟨initial_inv, fun _ ↦ .of_names (fun k _ ↦ load_nil k)
    (show Ends (SlaveContext.initial [] 0).name from all_drop_iff.mp (by decide)) rfl⟩

theorem scanStep_of_fits {i : Idx} {request : Request} {k : ℕ} (h : Fitting s)
    (hpc : (s i).thread = .mustChangeName request k) : scanStep i s = Handshake.scanStep i s := by
  unfold scanStep
  cases hscan : (s i).scan with
  | slot j => rfl
  | byte j n =>
    have hlt : n < slaveNameSize := by
      by_contra hge
      have hlast := h.names.scan i request k j n hpc hscan (slaveNameSize - 1)
        (by rw [slaveNameSize] at hge ⊢; omega)
      exact hlast (h.ends i).segment.last
    have hload (seg : Shmseg) : segment.load seg n = load seg.name n := if_pos hlt
    dsimp only
    unfold Handshake.scanStep
    simp only [hscan, hload]

theorem handlerStep_of_fits {t : Slot} (h : SlotEnds t)
    (hfits : t.handler = .requestSwitch → t.seg.reqMToS = .changeSlaveName →
      renameFits t.self t.seg = true) : handlerStep t = Handshake.handlerStep t := by
  unfold handlerStep
  split
  · rename_i hpc hrequest
    simp only [Handshake.handlerStep, hpc, hrequest, strcpyStores, h.context.str_context]
  · rename_i hpc hrequest
    have hfits := hfits hpc hrequest
    simp only [Handshake.handlerStep, hpc, hrequest,
      handleChangeName_of_fits h.context h.segment hfits,
      changeNameStores_of_fits h.context h.segment hfits]
  · rename_i k b stores hpc
    rw [Layout.Buffer.store_of_lt (h.connect _ hpc).lt]
    simp only [Handshake.handlerStep, hpc]
    rfl
  · rename_i k b stores response hpc
    rw [Layout.Buffer.store_of_lt (h.changeName _ _ hpc).lt]
    simp only [Handshake.handlerStep, hpc]
    rfl
  · rfl

/-- As long as the names fit, nothing behind the buffers is touched. -/
theorem step_of_fits (h : Fitting s) (hfits : namesFit s e = true) :
    step s e = Handshake.step s e := by
  have hslot : slotStep s e = Handshake.slotStep s e := by
    cases e with
    | thread i killed =>
      unfold slotStep Handshake.slotStep threadStep Handshake.threadStep
      dsimp only
      cases hpc : (s i).thread with
      | mustChangeName request k => exact scanStep_of_fits h hpc
      | _ => rfl
    | handler i =>
      exact handlerStep_of_fits (h.ends i) (renameFits_of_namesFit hfits)
    | _ => rfl
  rw [step, hslot, Handshake.step]

variable {ok : State → Event → Prop}

theorem fitting_of_reached (h : Reaches Handshake.step ok initial s)
    (hok : ∀ s e, ok s e → namesFit s e = true) : Fitting s :=
  h.invariant initial_fitting fun s e _ hf hk hs ↦ hf.next (hok s e hk) hs

/-- The runs in which the names fit are those of buffers without end. -/
theorem Reaches.unbounded (h : Reaches step ok initial s)
    (hok : ∀ s e, ok s e → namesFit s e = true) : Reaches Handshake.step ok initial s :=
  h.of_agree fun s e hs hk ↦ step_of_fits (fitting_of_reached hs hok) (hok s e hk)

theorem Reaches.bounded (h : Reaches Handshake.step ok initial s)
    (hok : ∀ s e, ok s e → namesFit s e = true) : Reaches step ok initial s :=
  h.of_agree fun s e hs hk ↦
    (step_of_fits (fitting_of_reached (Reaches.unbounded hs hok) hok) (hok s e hk)).symm

end Run

def DistinctStrings (s : State) : Prop :=
  ∀ i j, i ≠ j → (s i).seg.isConnected = true → (s j).seg.isConnected = true →
    ¬ SameString (segment.bytes (s i).seg) (segment.bytes (s j).seg)

theorem distinctStrings_of_fits {s : State}
    (h : Reaches step (fun s e ↦ namesFit s e = true) initial s) : DistinctStrings s := by
  have hideal := Reaches.unbounded h fun _ _ hk ↦ hk
  have hends := (fitting_of_reached hideal fun _ _ hk ↦ hk).ends
  have hnames := distinctNames (hideal.mono fun _ _ _ ↦ trivial)
  intro i j hij hi hj hsame
  refine hnames i j hij hi hj ?_
  exact (hends i).segment.sameString_segment.symm.trans
    (hsame.trans (hends j).segment.sameString_segment)

/-- The first of two namesakes keeps its name within the buffer, as does the second one. -/
theorem namesakes_distinctStrings :
    ∃ s, connectedNames s = [some [97, 95, 49], some [97]] ∧ DistinctStrings s := by
  have hrun : (run (guarded step fun s e ↦ namesFit s e = true) initial namesakesRun).map
      connectedNames = some [some [97, 95, 49], some [97]] := by
    decide +kernel
  obtain ⟨s, hs, hnames⟩ := Option.map_eq_some_iff.mp hrun
  exact ⟨s, hnames, distinctStrings_of_fits (.of_run hs)⟩

def joins (i : Idx) (pid : Pid) : List Event :=
  .connect i pid (.initial (List.replicate 127 97) 7) :: List.replicate 3 (.thread i true)

def answers (i : Idx) (handler thread : ℕ) : List Event :=
  List.replicate handler (.handler i) ++ .deliver i :: List.replicate thread (.thread i true)

/-- Three slaves connect one after the other. The last digit of the new names lies in the field
behind them, where the request for the parameters goes. -/
def longNamesRun : List Event :=
  joins 4 100 ++ answers 4 136 44 ++ joins 5 101 ++ answers 5 136 144 ++ answers 5 138 172 ++
    .request 5 :: joins 6 102 ++ answers 6 136 144 ++ answers 6 138 301 ++ [.request 6]

theorem longNames_collide :
    ¬ ∀ s, Reaches step unrestricted initial s → DistinctStrings s := by
  intro h
  have hrun : (run step initial longNamesRun).map (fun s ↦
      [(s 5).seg.isConnected, (s 6).seg.isConnected,
        decide (str (segment.bytes (s 5).seg) = str (segment.bytes (s 6).seg))]) =
      some [true, true, true] := by
    decide +kernel
  obtain ⟨s, hs, hshared⟩ := Option.map_eq_some_iff.mp hrun
  simp only [List.cons.injEq, decide_eq_true_eq, and_true] at hshared
  obtain ⟨hfirst, hsecond, hstrings⟩ := hshared
  exact h s (.of_unrestricted_run hs) 5 6 (by decide) hfirst hsecond
    (sameString_of_str_eq hstrings)

end RealTimeCyclic.HandshakeBuffer
