import RealTimeCyclic.Library.Numeral
import RealTimeCyclic.Library.Reader
import RealTimeCyclic.LogFilter
import RealTimeCyclic.StartDialogue

namespace RealTimeCyclic.Terminal

open Shm CString Slave Configurator Reading
open CreateSlave (isSpace line readCharacters slaveName)
open LogFilter (ascii readLogLevelInput)
open StartDialogue (parameterBits)

/-- What `sscanf` makes of a number. C does not define it for one that does not fit. -/
structure Conversion where
  int : Int → Int
  long : Int → Int
  int_of_fits : ∀ n, -2 ^ 31 ≤ n → n < 2 ^ 31 → int n = n
  long_of_fits : ∀ n, -2 ^ 63 ≤ n → n < 2 ^ 63 → long n = n

/-- What a command meets besides the input: what its system calls return, what it reads in
the segments, and what its variables hold that are not initialised. -/
structure Outcome where
  fork : Fork
  forks : ℕ → Fork
  signalled : Bool
  found : Bool
  killed : Bool
  answer : Option Response
  killedAt : Idx → Bool
  answerAt : Idx → Option Response
  seg : Idx → Segment
  availableParameters : ℕ
  parameterResponse : ℕ → UInt8

/-- The command line of a slave. -/
structure Argv where
  slaveName : Mem
  availableParameters : Mem
  deriving DecidableEq

/-- A command as it is read, with the slaves it starts and the log level it prints with. -/
structure Turn where
  command : Command
  argv : List Argv
  logLevel : Option ℕ

section Input

/-- A line with its line feed, if it has one. -/
def getline : Reader UInt8 (Option (List UInt8)) := fun input ↦
  match input with
  | [] => (none, [])
  | c :: input =>
    (some ((c :: input).takeWhile (· ≠ 10) ++ ((c :: input).dropWhile (· ≠ 10)).take 1),
      ((c :: input).dropWhile (· ≠ 10)).drop 1)

def readNumber (conversion : Int → Int) : Reader UInt8 (Option Int) := do
  let input ← getline
  return (scanInt isSpace (str (line input))).map conversion

def readReqCode (c : Conversion) : Reader UInt8 Int := do
  return (← readNumber c.int).getD (-1)

def readPid (c : Conversion) : Reader UInt8 (Option Pid) := do
  let input ← getline
  if readCharacters input < 1 ∨ load (line input) 0 < 48 ∨ 57 < load (line input) 0 then
    return none
  else
    return (scanInt isSpace (str (line input))).map c.int

/-- The answer to a question of START_SLAVE_CYCLE. -/
def readParameterResponse (parameterResponse : UInt8) : Reader UInt8 (Option UInt8) := do
  let input ← getline
  if readCharacters input < 1 then return none
  else return some ((str (line input)).head?.getD parameterResponse)

def affirmative (parameterResponse : UInt8) : Bool :=
  parameterResponse = 121 ∨ parameterResponse = 89

def askParameters (o : Outcome) : List ℕ → ℕ → Reader UInt8 (ℕ × Bool)
  | [], requested => pure (requested, true)
  | bit :: bits, requested =>
    if o.availableParameters &&& bit ≠ 0 then do
      match ← readParameterResponse (o.parameterResponse bit) with
      | none => return (requested, false)
      | some parameterResponse =>
        askParameters o bits
          (if affirmative parameterResponse then requested ||| bit else requested)
    else askParameters o bits requested

def flag (c : UInt8) : UInt8 := if c = 49 then 49 else 48

def xyz (line : Mem) : Mem := [flag (load line 0), flag (load line 1), flag (load line 2)]

def readSlave (o : Outcome) (s : Configurator.State) : Reader UInt8 Turn :=
  if maxSlaves ≤ s.createdSlavesNumber then return ⟨.createSlave false o.fork, [], none⟩
  else do
    match slaveName (← getline) with
    | none => return ⟨.createSlave false o.fork, [], none⟩
    | some name =>
      let availableParameters := xyz (line (← getline))
      return ⟨.createSlave true o.fork,
        if o.fork = .failed then [] else [⟨name, availableParameters⟩], none⟩

def readCycle (c : Conversion) (o : Outcome) : Reader UInt8 Turn := do
  let inserted ← readPid c
  match chosen (notStartedPids o.seg) inserted with
  | none => return ⟨.startSlaveCycle o.seg inserted o.availableParameters 0 none, [], none⟩
  | some _ =>
    let (requested, read) ← askParameters o parameterBits 0
    let intervalMs ← if read then readNumber c.long else pure none
    return ⟨.startSlaveCycle o.seg inserted o.availableParameters requested intervalMs, [], none⟩

def testArgv : Argv := ⟨ascii "asd", ascii "111"⟩

def readAutomaticTest (c : Conversion) (o : Outcome) : Reader UInt8 Turn := do
  let numSlaves := ((← readNumber c.int).getD 0).toNat
  let forks := (List.range numSlaves).map o.forks
  return ⟨.automaticTest forks o.killedAt o.answerAt o.seg,
    (forks.filter (· ≠ .failed)).map fun _ ↦ testArgv, none⟩

def readCommand (c : Conversion) (o : Outcome) (s : Configurator.State) :
    Int → Reader UInt8 Turn
  | 0 => return ⟨.startMaster o.fork o.signalled o.found, [], none⟩
  | 1 => return ⟨.stopMaster o.seg o.killed, [], none⟩
  | 2 => readSlave o s
  | 3 => return ⟨.deleteSlave (← readPid c) o.killed, [], none⟩
  | 4 => return ⟨.connectSlave (← readPid c) o.killed o.answer, [], none⟩
  | 5 => return ⟨.disconnectSlave o.seg (← readPid c) o.answer, [], none⟩
  | 6 => readCycle c o
  | 7 => return ⟨.stopSlaveCycle o.seg (← readPid c), [], none⟩
  | 8 => return ⟨.printSlaveData o.seg, [], none⟩
  | 9 => return ⟨.printLogData, [], some (readLogLevelInput (← getline))⟩
  | 10 => readAutomaticTest c o
  | code => return ⟨.unrecognized code, [], none⟩

def readTurn (c : Conversion) (o : Outcome) (s : Configurator.State) : Reader UInt8 Turn := do
  readCommand c o s (← readReqCode c)

/-- The configurator at its terminal, with the turns it has taken. -/
structure State where
  configurator : Configurator.State
  input : List UInt8
  turns : List Turn

def step (c : Conversion) (s : State) (o : Outcome) : Option State :=
  let (turn, input) := readTurn c o s.configurator s.input
  (Configurator.step s.configurator turn.command).map fun configurator ↦
    ⟨configurator, input, s.turns ++ [turn]⟩

def initial (input : List UInt8) : State := ⟨Configurator.initial, input, []⟩

def init (argv : Argv) : SlaveContext :=
  let availableParameters := 0
  let availableParameters := if load argv.availableParameters 0 = 49
    then availableParameters ||| stringParameterBit else availableParameters
  let availableParameters := if load argv.availableParameters 1 = 49
    then availableParameters ||| intParameterBit else availableParameters
  let availableParameters := if load argv.availableParameters 2 = 49
    then availableParameters ||| boolParameterBit else availableParameters
  .initial argv.slaveName availableParameters

end Input

section Typing

/-- A menu command as its user means it. -/
inductive Choice
  | startMaster
  | stopMaster
  | createSlave (name : List UInt8) (availableParameters : ℕ)
  | deleteSlave (pid : ℕ)
  | connectSlave (pid : ℕ)
  | disconnectSlave (pid : ℕ)
  | startSlaveCycle (pid requested intervalMs : ℕ)
  | stopSlaveCycle (pid : ℕ)
  | printSlaveData
  | printLogData (logLevel : ℕ)
  | automaticTest (numSlaves : ℕ)

def typeNumber (n : ℕ) : List UInt8 := decimal n ++ [10]

def typeFlags (mask : ℕ) : List UInt8 :=
  parameterBits.map fun bit ↦ if mask &&& bit ≠ 0 then 49 else 48

def typeAnswers (availableParameters requested : ℕ) (bits : List ℕ) : List UInt8 :=
  bits.flatMap fun bit ↦
    if availableParameters &&& bit ≠ 0 then
      [if requested &&& bit ≠ 0 then 121 else 110, 10]
    else []

def Choice.text (o : Outcome) : Choice → List UInt8
  | .startMaster => typeNumber 0
  | .stopMaster => typeNumber 1
  | .createSlave name availableParameters =>
    typeNumber 2 ++ ((name ++ [10]) ++ (typeFlags availableParameters ++ [10]))
  | .deleteSlave pid => typeNumber 3 ++ typeNumber pid
  | .connectSlave pid => typeNumber 4 ++ typeNumber pid
  | .disconnectSlave pid => typeNumber 5 ++ typeNumber pid
  | .startSlaveCycle pid requested intervalMs =>
    typeNumber 6 ++ (typeNumber pid ++
      (typeAnswers o.availableParameters requested parameterBits ++ typeNumber intervalMs))
  | .stopSlaveCycle pid => typeNumber 7 ++ typeNumber pid
  | .printSlaveData => typeNumber 8
  | .printLogData logLevel => typeNumber 9 ++ (typeFlags logLevel ++ [10])
  | .automaticTest numSlaves => typeNumber 10 ++ typeNumber numSlaves

def Choice.turn (o : Outcome) : Choice → Turn
  | .startMaster => ⟨.startMaster o.fork o.signalled o.found, [], none⟩
  | .stopMaster => ⟨.stopMaster o.seg o.killed, [], none⟩
  | .createSlave name availableParameters =>
    ⟨.createSlave true o.fork,
      if o.fork = .failed then [] else [⟨name, typeFlags availableParameters⟩], none⟩
  | .deleteSlave pid => ⟨.deleteSlave (some pid) o.killed, [], none⟩
  | .connectSlave pid => ⟨.connectSlave (some pid) o.killed o.answer, [], none⟩
  | .disconnectSlave pid => ⟨.disconnectSlave o.seg (some pid) o.answer, [], none⟩
  | .startSlaveCycle pid requested intervalMs =>
    ⟨.startSlaveCycle o.seg (some pid) o.availableParameters requested (some intervalMs), [], none⟩
  | .stopSlaveCycle pid => ⟨.stopSlaveCycle o.seg (some pid), [], none⟩
  | .printSlaveData => ⟨.printSlaveData o.seg, [], none⟩
  | .printLogData logLevel => ⟨.printLogData, [], some logLevel⟩
  | .automaticTest numSlaves =>
    ⟨.automaticTest ((List.range numSlaves).map o.forks) o.killedAt o.answerAt o.seg,
      (((List.range numSlaves).map o.forks).filter (· ≠ .failed)).map fun _ ↦ testArgv, none⟩

def Choice.slaves (o : Outcome) : Choice → List (List UInt8 × ℕ)
  | .createSlave name availableParameters =>
    if o.fork = .failed then [] else [(name, availableParameters)]
  | .automaticTest numSlaves =>
    (((List.range numSlaves).map o.forks).filter (· ≠ .failed)).map fun _ ↦ (ascii "asd", 7)
  | _ => []

def State.slaves (s : State) : List (List UInt8 × ℕ) :=
  (s.turns.flatMap Turn.argv).map fun argv ↦
    (str (init argv).name, (init argv).availableParameters)

/-- A name of one word, of a length that `%127s` takes. -/
structure Word (name : List UInt8) : Prop where
  nonempty : name ≠ []
  short : name.length ≤ 127
  plain : ∀ c ∈ name, isSpace c = false ∧ c ≠ 0

end Typing

section Reads

variable {c : Conversion} {o : Outcome} {s : Configurator.State} {text : List UInt8}

theorem str_line {text : List UInt8} (h : (0 : UInt8) ∉ text) :
    str (line (some text)) = text := by
  refine List.takeWhile_eq_self_iff.mpr fun c hc ↦ decide_eq_true ?_
  rintro rfl
  exact h hc

theorem Word.token {name : List UInt8} (h : Word name) :
    CreateSlave.token (name ++ [10]) = name := by
  have hstop : [10].takeWhile (fun c ↦ !isSpace c) = [] := rfl
  obtain ⟨c, name, rfl⟩ := List.exists_cons_of_ne_nil h.nonempty
  have hdrop : (c :: name ++ [10]).dropWhile isSpace = c :: name ++ [10] :=
    List.dropWhile_cons_of_neg (by simp [(h.plain c List.mem_cons_self).1])
  rw [CreateSlave.token, hdrop,
    List.takeWhile_append_of_pos fun c hc ↦ by simp [(h.plain c hc).1], hstop, List.append_nil]

theorem Word.slaveName {name : List UInt8} (h : Word name) :
    slaveName (some (name ++ [10])) = some name := by
  have hpos := List.length_pos_iff.mpr h.nonempty
  have hstr : str (line (some (name ++ [10]))) = name ++ [10] := by
    apply str_line
    rw [List.mem_append, not_or]
    exact ⟨fun h0 ↦ (h.plain 0 h0).2 rfl, by decide⟩
  have hfirst : load (line (some (name ++ [10]))) 0 ≠ 32 := by
    intro hspace
    have hmem : load name 0 ∈ name := load_mem hpos
    rw [line, Option.getD_some, load_append_left hpos] at hspace
    have hplain := (h.plain _ hmem).1
    rw [hspace] at hplain
    cases hplain
  have hlong : ¬ readCharacters (some (name ++ [10])) < 2 := by
    rw [readCharacters, List.length_append, List.length_singleton]
    omega
  rw [CreateSlave.slaveName, if_neg hlong, if_neg hfirst, hstr, h.token,
    List.take_of_length_le h.short]

end Reads

end RealTimeCyclic.Terminal
