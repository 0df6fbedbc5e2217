import RealTimeCyclic.Library.Latch
import RealTimeCyclic.Library.Words
import RealTimeCyclic.CreateSlave

namespace RealTimeCyclic.LogFilter

open CString CreateSlave Latch Words

/-- `log_level_t`. -/
inductive LogLevel
  | debug
  | error
  | info

def LogLevel.all : List LogLevel := [.debug, .error, .info]

def LogLevel.bit : LogLevel → ℕ
  | .debug => 1 <<< 0
  | .error => 1 <<< 1
  | .info => 1 <<< 2

def ascii (s : String) : List UInt8 := s.toList.map fun c ↦ c.toNat.toUInt8

def LogLevel.tag : LogLevel → List UInt8
  | .debug => ascii "[DEBUG]"
  | .error => ascii "[ERROR]"
  | .info => ascii "[INFO]"

/-- `read_log_level_input`. -/
def readLogLevelInput (input : Option (List UInt8)) : ℕ :=
  let logLevel := 0
  let logLevel := if load (line input) 0 = 49 then logLevel ||| LogLevel.debug.bit else logLevel
  let logLevel := if load (line input) 1 = 49 then logLevel ||| LogLevel.error.bit else logLevel
  if load (line input) 2 = 49 then logLevel ||| LogLevel.info.bit else logLevel

/-- The buffers of `print_log_data`, each with the string in it. They are not initialised. -/
structure Buffers where
  logLineMonth : List UInt8
  logLineDay : List UInt8
  logLineTime : List UInt8
  logLineUser : List UInt8
  logLineProcessName : List UInt8
  logLineLevel : List UInt8

def stores : List (List UInt8 → Buffers → Buffers) :=
  [fun w b ↦ { b with logLineMonth := w }, fun w b ↦ { b with logLineDay := w },
    fun w b ↦ { b with logLineTime := w }, fun w b ↦ { b with logLineUser := w },
    fun w b ↦ { b with logLineProcessName := w }, fun w b ↦ { b with logLineLevel := w }]

def sscanf (line : Mem) (b : Buffers) : Buffers := scan isSpace stores (str line) b

def prints (logLevel : ℕ) (b : Buffers) : Bool :=
  if logLevel &&& LogLevel.debug.bit ≠ 0 ∧ b.logLineLevel = LogLevel.debug.tag then true
  else if logLevel &&& LogLevel.error.bit ≠ 0 ∧ b.logLineLevel = LogLevel.error.tag then true
  else if logLevel &&& LogLevel.info.bit ≠ 0 ∧ b.logLineLevel = LogLevel.info.tag then true
  else false

def printLogData (logLevel : ℕ) : Buffers → List Mem → List (List UInt8)
  | _, [] => []
  | b, line :: lines =>
    let b := sscanf line b
    if prints logLevel b then str line :: printLogData logLevel b lines
    else printLogData logLevel b lines

def sixth (line : Mem) : Option (List UInt8) := (words isSpace (str line))[5]?

def selected (logLevel : ℕ) (level : List UInt8) : Bool :=
  LogLevel.all.any fun l ↦ logLevel &&& l.bit ≠ 0 ∧ level = l.tag

def passes (logLevel : ℕ) (line : Mem) : Bool := (sixth line).any (selected logLevel)

/-- The lines that pass are printed, in the order of the file, and each is judged
without the ones before it. -/
structure DecidedAlone (logLevel : ℕ) (b : Buffers) (lines : List Mem) : Prop where
  printed : printLogData logLevel b lines = (lines.filter (passes logLevel)).map str
  alone : ∀ before line after, lines = before ++ line :: after →
    printLogData logLevel b (before ++ [line]) =
      printLogData logLevel b before ++ if passes logLevel line then [str line] else []

def lastLevel (b : Buffers) (lines : List Mem) : List UInt8 :=
  ((lines.filterMap sixth).getLast?).getD b.logLineLevel

theorem sscanf_level (line : Mem) (b : Buffers) :
    (sscanf line b).logLineLevel = (sixth line).getD b.logLineLevel := by
  rw [sscanf, scan_eq_foldl, sixth, stores]
  -- fewer than six tokens leave the level alone
  rcases words isSpace (str line) with
    - | ⟨month, - | ⟨day, - | ⟨time, - | ⟨user, - | ⟨processName, - | ⟨level, ws⟩⟩⟩⟩⟩⟩
  all_goals simp

theorem prints_eq_selected (logLevel : ℕ) (b : Buffers) :
    prints logLevel b = selected logLevel b.logLineLevel := by
  unfold prints selected LogLevel.all
  simp only [List.any_cons, List.any_nil]
  split_ifs <;> simp_all

theorem printLogData_eq_latched (logLevel : ℕ) (b : Buffers) (lines : List Mem) :
    printLogData logLevel b lines =
      (latched sixth (selected logLevel) b.logLineLevel lines).map str := by
  induction lines generalizing b with
  | nil => rfl
  | cons line lines ih =>
    rw [printLogData, latched, ih, prints_eq_selected, sscanf_level]
    split_ifs
    · rfl
    · rfl

theorem noneKept_iff {logLevel : ℕ} {b : Buffers} {lines : List Mem} :
    NoneKept sixth (selected logLevel) b.logLineLevel lines ↔
      ∀ before line after, lines = before ++ line :: after →
        (words isSpace (str line)).length < 6 →
          selected logLevel (lastLevel b before) = false := by
  have hshort (line : Mem) : sixth line = none ↔ (words isSpace (str line)).length < 6 :=
    List.getElem?_eq_none_iff.trans Nat.lt_succ_iff.symm
  simp only [NoneKept, hshort, held, lastLevel]

/-- A file is filtered line by line if and only if no line with fewer than six tokens
comes after the tag of a level set in the mask. -/
theorem decidedAlone_iff (input : Option (List UInt8)) (b : Buffers) (lines : List Mem) :
    DecidedAlone (readLogLevelInput input) b lines ↔
      ∀ before line after, lines = before ++ line :: after →
        (words isSpace (str line)).length < 6 →
          selected (readLogLevelInput input) (lastLevel b before) = false := by
  rw [← noneKept_iff]
  constructor
  · intro h
    have hprinted := congrArg List.length h.printed
    rw [printLogData_eq_latched, List.length_map, List.length_map] at hprinted
    have hfilter := (filter_sublist sixth (selected (readLogLevelInput input)) b.logLineLevel
      lines).eq_of_length hprinted.symm
    exact (latched_eq_filter_iff _ _).mp hfilter.symm
  · intro h
    refine ⟨?_, fun before line after heq ↦ ?_⟩
    · rw [printLogData_eq_latched, (latched_eq_filter_iff _ _).mpr h]
      rfl
    · rw [printLogData_eq_latched, printLogData_eq_latched, latched_concat, List.map_append, passes]
      cases hsixth : sixth line with
      | none =>
        rw [Option.getD_none, h before line after heq hsixth]
        rfl
      | some level =>
        rw [Option.getD_some, Option.any_some]
        split_ifs
        · rfl
        · rfl

theorem shortLine_printed : ¬ ∀ input b lines, DecidedAlone (readLogLevelInput input) b lines := by
  intro hall
  have hlisting := (hall (some (ascii "010\n")) ⟨[], [], [], [], [], []⟩
    [ascii "Jan 1 10:00:00 root master[7]: [ERROR] sem_wait() call failed!\n",
      ascii "last message repeated\n"]).printed
  revert hlisting
  decide +kernel

end RealTimeCyclic.LogFilter
