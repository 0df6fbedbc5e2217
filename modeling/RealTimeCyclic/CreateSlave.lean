import RealTimeCyclic.Configurator
import RealTimeCyclic.SlaveName

namespace RealTimeCyclic.CreateSlave

open Shm CString Slave SlaveRequest SlaveName Transition

def isSpace (c : UInt8) : Bool := c = 32 || (9 ≤ c && c ≤ 13)

/-- What `getline` returns, as a `size_t`. -/
def readCharacters : Option (List UInt8) → ℕ
  | none => 2 ^ 64 - 1
  | some bytes => bytes.length

/-- The buffer after `getline`. At the end of the input it is still as `calloc` left
it. -/
def line (input : Option (List UInt8)) : Mem := input.getD []

def token (text : List UInt8) : List UInt8 :=
  (text.dropWhile isSpace).takeWhile fun c ↦ !isSpace c

/-- The name input of `CREATE_SLAVE`: the name passed to the slave, or `none` when the
command ends there. `slave_name` is zeroed before `sscanf` with `%127s`. -/
def slaveName (input : Option (List UInt8)) : Option Mem :=
  if readCharacters input < 2 then none
  else if load (line input) 0 = 32 then none
  else some ((token (str (line input))).take 127)

/-- What `sprintf` writes in `handle_change_name_slave_request`, its terminator
included. -/
def sprintfText (self : SlaveContext) (seg : Shmseg) : List UInt8 :=
  let (_, shmName) := if self.changeNameIdx ≠ 0
    then eraseSuffix (slaveNameSize - 1) self.name seg.name
    else (self.name, seg.name)
  str shmName ++ [95] ++ decimal (self.changeNameIdx + 1).toNat ++ [0]

theorem handleChangeName_text {self : SlaveContext} {seg : Shmseg}
    (h : self.changeNameIdx ≠ 4294967295) :
    ∃ name, (handleChangeNameSlaveRequest self seg).1.name =
      storeAll name 0 (sprintfText self seg) := by
  unfold handleChangeNameSlaveRequest sprintfText
  dsimp only
  rw [if_neg ((wraps_iff _).not.mpr h)]
  exact ⟨_, rfl⟩

theorem sprintfText_named {base : List UInt8} {j : ℕ} {self : SlaveContext} {seg : Shmseg}
    (h : Named base j self seg) (hbase : base ≠ []) (h0 : (0 : UInt8) ∉ base)
    (hj : j + 1 < 4294967296) (hlen : (renamed base j).length < slaveNameSize) :
    sprintfText self seg = renamed base (j + 1) ++ [0] := by
  have hsucc : (self.changeNameIdx + 1).toNat = j + 1 := by
    rw [toNat_succ (by rw [h.index]; exact hj), h.index]
  unfold sprintfText
  rcases herase : (if self.changeNameIdx ≠ 0
    then eraseSuffix (slaveNameSize - 1) self.name seg.name
    else (self.name, seg.name)) with ⟨name, shmName⟩
  have hsegment := (h.erase hbase hlen herase).2
  dsimp only
  rw [str_of_sameBytes hsegment h0, hsucc, renamed_text j.succ_ne_zero]

/-- A slave started under this name can be renamed as often as its index allows, after
any history. -/
structure Usable (name : Mem) : Prop where
  nonempty : str name ≠ []
  fits : ∀ availableParameters ops s, run step (initial name availableParameters) ops = some s →
    s.self.shmseg = true → renames ops < 4294967295 →
    (sprintfText s.self s.seg).length ≤ slaveNameSize

theorem length_max_index (base : List UInt8) :
    (renamed base 4294967295).length = base.length + 11 := by
  have hdigits : (decimal 4294967295).length = 10 := by decide +kernel
  rw [renamed_of_ne (by decide), List.length_append, List.length_cons, hdigits]

theorem usable_of_short {name : Mem} (hname : str name ≠ []) (hlen : (str name).length ≤ 116) :
    Usable name := by
  refine ⟨hname, fun availableParameters ops s hs hattached hk ↦ ?_⟩
  have hfit {j : ℕ} (hj : j ≤ 4294967295) : (renamed (str name) j).length < slaveNameSize := by
    have hmono := (length_renamed_mono hj).trans_eq (length_max_index (str name))
    exact hmono.trans_lt (by rw [slaveNameSize]; omega)
  have hinv := run_inv initial_inv hname (zero_not_mem_str name) hs (by omega) (hfit (by omega))
  have hnamed : Named (str name) (0 + renames ops) s.self s.seg :=
    ⟨hinv.index, hinv.context, hinv.segment hattached⟩
  rw [sprintfText_named hnamed hname (zero_not_mem_str name) (by omega) (hfit (by omega)),
    List.length_append, List.length_singleton]
  exact hfit (by omega)

theorem short_of_usable {name : Mem} (h : Usable name) (hlen : (str name).length < slaveNameSize) :
    (str name).length ≤ 116 := by
  by_contra hlong
  have hex : ∃ k, slaveNameSize ≤ (renamed (str name) k).length := by
    refine ⟨4294967295, ?_⟩
    rw [length_max_index, slaveNameSize]
    omega
  obtain ⟨n, hn⟩ : ∃ n, Nat.find hex = n + 1 := by
    refine Nat.exists_eq_succ_of_ne_zero fun h0 ↦ ?_
    have hspec := Nat.find_spec hex
    rw [h0, renamed_zero] at hspec
    omega
  have hspec := Nat.find_spec hex
  rw [hn] at hspec
  have hfit : (renamed (str name) n).length < slaveNameSize :=
    not_le.mp (Nat.find_min hex (by omega))
  have hmax : Nat.find hex ≤ 4294967295 := by
    refine Nat.find_min' hex ?_
    rw [length_max_index, slaveNameSize]
    omega
  obtain ⟨s, hs, hattached, hinv⟩ := renamed_run 0 1 h.nonempty (by omega) hfit
  have hnamed : Named (str name) n s.self s.seg :=
    ⟨hinv.index, hinv.context, hinv.segment hattached⟩
  have hshort := h.fits 0 _ s hs hattached (by rw [renames_replicate]; omega)
  rw [sprintfText_named hnamed h.nonempty (zero_not_mem_str name) (by omega) hfit,
    List.length_append, List.length_singleton] at hshort
  omega

theorem zero_not_mem_token (m : Mem) : (0 : UInt8) ∉ token (str m) := fun h ↦
  zero_not_mem_str m ((List.dropWhile_sublist _).subset ((List.takeWhile_sublist _).subset h))

theorem str_slaveName {input : Option (List UInt8)} {name : Mem}
    (h : slaveName input = some name) : str name = (token (str (line input))).take 127 := by
  obtain ⟨-, h⟩ := Option.ite_none_left_eq_some.mp h
  obtain ⟨-, h⟩ := Option.ite_none_left_eq_some.mp h
  obtain rfl := Option.some.inj h
  exact str_of_sameBytes (.refl _) fun h0 ↦ zero_not_mem_token _ (List.mem_of_mem_take h0)

/-- A line is safe when its first word has 1 to 116 characters. -/
theorem usable_iff_word {input : Option (List UInt8)} {name : Mem}
    (h : slaveName input = some name) :
    Usable name ↔ 0 < (token (str (line input))).length ∧
      (token (str (line input))).length ≤ 116 := by
  have hlen : (str name).length = min 127 (token (str (line input))).length := by
    rw [str_slaveName h, List.length_take]
  have hshort : (str name).length < slaveNameSize := by
    rw [hlen, slaveNameSize]
    omega
  constructor
  · intro hu
    have hpos := List.length_pos_iff.mpr hu.nonempty
    have hle := short_of_usable hu hshort
    omega
  · rintro ⟨hpos, hle⟩
    exact usable_of_short (List.length_pos_iff.mp (by omega)) (by omega)

theorem word_usable : Usable [97, 98] :=
  (usable_iff_word (show slaveName (some [97, 98, 10]) = some [97, 98] from rfl)).mpr
    (by decide)

/-- At the end of the input `getline` returns -1, which is no small `size_t`. -/
theorem endOfInput_accepted :
    ¬ ∀ input name, slaveName input = some name → Usable name := fun hall ↦
  (hall none [] rfl).nonempty rfl

end RealTimeCyclic.CreateSlave
