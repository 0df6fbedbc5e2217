import RealTimeCyclic.Terminal

namespace RealTimeCyclic.Terminal

open Shm CString Slave Configurator Reading Transition
open CreateSlave (isSpace line slaveName)
open LogFilter (ascii)

section Session

variable {c : Conversion} {s t : State} {o : Outcome} {os : List Outcome}

def typed (session : List (Outcome × Choice)) : List UInt8 :=
  session.flatMap fun q ↦ q.2.text q.1

theorem str_init_name (argv : Argv) : str (init argv).name = str argv.slaveName :=
  str_of_sameBytes (sameBytes_storeAll fun k _ ↦ load_nil k) (zero_not_mem_str _)

/-- The conversions of a C library that keeps a long within its bounds and cuts an int out of
it. -/
def saturating : Conversion where
  int n := Int.bmod (max (-2 ^ 63) (min n (2 ^ 63 - 1))) (2 ^ 32)
  long n := max (-2 ^ 63) (min n (2 ^ 63 - 1))
  int_of_fits n hlow hhigh := by
    rw [min_eq_left (by omega), max_eq_right (by omega)]
    exact Int.bmod_eq_of_le (by omega) (by omega)
  long_of_fits n hlow hhigh := by
    rw [min_eq_left (by omega), max_eq_right (by omega)]

def outcome (fork : Fork) : Outcome where
  fork := fork
  forks _ := .failed
  signalled := true
  found := true
  killed := true
  answer := some .ack
  killedAt _ := true
  answerAt _ := some .ack
  seg i := if i = 9 then ⟨41, 41, 41, true, false⟩ else .free
  availableParameters := 5
  parameterResponse _ := 0

def oneSlave : List (Outcome × Choice) :=
  [(outcome (.child 99), .startMaster), (outcome (.child 40), .createSlave [97, 98] 5),
    (outcome .failed, .connectSlave 41), (outcome .failed, .startSlaveCycle 41 4 500),
    (outcome .failed, .printLogData 6)]

end Session

section Exhausted

variable {c : Conversion} {s t : State} {o : Outcome} {os os' : List Outcome}

def emptyTurn : Turn := ⟨.unrecognized (-1), [], none⟩

theorem step_eq_some (hs : step c s o = some t) :
    Configurator.step s.configurator (readTurn c o s.configurator s.input).1.command =
        some t.configurator ∧
      t.input = (readTurn c o s.configurator s.input).2 ∧
      t.turns = s.turns ++ [(readTurn c o s.configurator s.input).1] := by
  obtain ⟨configurator, hconfigurator, rfl⟩ := Option.map_eq_some_iff.mp hs
  exact ⟨hconfigurator, rfl, rfl⟩

/-- What has become of the configurator. -/
inductive Process
  | running (s : State)
  -- `main` has returned
  | returned
  -- a null pointer was followed
  | crashed

def Process.alive : Process → Bool
  | .running _ => true
  | _ => false

def accesses : Configurator.Effect → Bool
  | .read | .requestParameter _ _ | .setCommunicationCycle _ _ => true
  | _ => false

/-- A command goes through `self.shmp` before a memory is attached, or through the stream of a
log that could not be opened. -/
def crashes (opened : Bool) (command : Command) (s t : Configurator.State) : Bool :=
  match command with
  | .printLogData => !opened
  | _ => !s.shmp && (t.log.drop s.log.length).any fun entry ↦ accesses entry.effect

/-- One turn of the main loop, with what `fopen` says if it is called. -/
def Process.step (c : Conversion) (p : Process) (e : Outcome × Bool) : Option Process :=
  match p with
  | .running s =>
    (Terminal.step c s e.1).map fun t ↦
      if crashes e.2 (readTurn c e.1 s.configurator s.input).1.command s.configurator
          t.configurator then
        .crashed
      else if t.configurator.exited then .returned
      else .running t
  | ended => some ended

def Idle (c : Conversion) (p : Process) : Prop :=
  ∃ t, p = .running t ∧ ∀ e es, run (Process.step c) p (e :: es) =
    some (.running ⟨{ t.configurator with request := .other (-1) }, [],
      t.turns ++ List.replicate (es.length + 1) emptyTurn⟩)

end Exhausted

section Slaves

variable {c : Conversion} {o : Outcome} {s : Configurator.State}

/-- The command line of a slave that `init` takes in: the name fits and is one word, and the
parameters are the ones that were chosen. -/
structure Fits (argv : Argv) : Prop where
  short : (str argv.slaveName).length < slaveNameSize
  plain : ∀ c ∈ str argv.slaveName, isSpace c = false
  name : str (init argv).name = str argv.slaveName
  known : (init argv).availableParameters < 8
  parameters : argv.availableParameters = typeFlags (init argv).availableParameters

theorem init_xyz (name line : Mem) :
    (init ⟨name, xyz line⟩).availableParameters < 8 ∧
      xyz line = typeFlags (init ⟨name, xyz line⟩).availableParameters := by
  have hname : (init ⟨name, xyz line⟩).availableParameters =
      (init ⟨[], xyz line⟩).availableParameters := rfl
  rw [hname]
  unfold xyz flag
  split_ifs <;> decide

theorem fits_slave {input : Option (List UInt8)} {name : Mem} (line : Mem)
    (h : slaveName input = some name) : Fits ⟨name, xyz line⟩ := by
  have hname := CreateSlave.str_slaveName h
  refine ⟨?_, fun b hb ↦ ?_, str_init_name _, (init_xyz name line).1, (init_xyz name line).2⟩
  · change (str name).length < slaveNameSize
    rw [hname, List.length_take, slaveNameSize]
    omega
  · change b ∈ str name at hb
    rw [hname] at hb
    simpa using List.mem_takeWhile_imp (List.mem_of_mem_take hb)

theorem fits_testArgv : Fits testArgv := by
  refine ⟨?_, ?_, str_init_name _, ?_, ?_⟩ <;> decide +kernel

def Turn.Fits (turn : Turn) : Prop := ∀ argv ∈ turn.argv, Terminal.Fits argv

def State.Fits (s : State) : Prop := ∀ turn ∈ s.turns, turn.Fits

theorem slave_fits (o : Outcome) (s : Configurator.State) : Yields (readSlave o s) Turn.Fits := by
  have hnone : Turn.Fits ⟨.createSlave false o.fork, [], none⟩ := by
    rintro argv ⟨⟩
  unfold readSlave
  by_cases hfull : maxSlaves ≤ s.createdSlavesNumber
  · rw [if_pos hfull]
    exact .pure hnone
  · rw [if_neg hfull]
    refine Yields.next fun input ↦ ?_
    cases hname : slaveName input with
    | none => exact .pure hnone
    | some name =>
      refine Yields.next fun flags ↦ .pure fun argv hargv ↦ ?_
      change argv ∈ (if o.fork = .failed then [] else [⟨name, xyz (line flags)⟩]) at hargv
      split_ifs at hargv
      · cases hargv
      · rw [List.mem_singleton.mp hargv]
        exact fits_slave _ hname

theorem cycle_fits (c : Conversion) (o : Outcome) : Yields (readCycle c o) Turn.Fits := by
  refine Yields.next fun inserted ↦ ?_
  cases chosen (notStartedPids o.seg) inserted with
  | none => exact .pure (by rintro argv ⟨⟩)
  | some pid =>
    refine Yields.next fun asked ↦ ?_
    obtain ⟨requested, read⟩ := asked
    cases read with
    | true => exact Yields.next fun _ ↦ .pure (by rintro argv ⟨⟩)
    | false => exact .pure (by rintro argv ⟨⟩)

theorem automaticTest_fits (c : Conversion) (o : Outcome) :
    Yields (readAutomaticTest c o) Turn.Fits := by
  refine Yields.next fun numSlaves ↦ .pure fun argv hargv ↦ ?_
  obtain ⟨fork, -, rfl⟩ := List.mem_map.mp hargv
  exact fits_testArgv

theorem command_fits (c : Conversion) (o : Outcome) (s : Configurator.State) (code : Int) :
    Yields (readCommand c o s code) Turn.Fits := by
  unfold readCommand
  split
  case h_3 => exact slave_fits o s
  case h_7 => exact cycle_fits c o
  case h_11 => exact automaticTest_fits c o
  case h_4 | h_5 | h_6 | h_8 | h_10 => exact Yields.next fun _ ↦ .pure (by rintro argv ⟨⟩)
  all_goals exact .pure (by rintro argv ⟨⟩)

theorem turn_fits (c : Conversion) (o : Outcome) (s : Configurator.State) :
    Yields (readTurn c o s) Turn.Fits :=
  Yields.next (command_fits c o s)

/-- Whatever is typed, the slaves are started with names that fit. -/
theorem slaves_fit {input : List UInt8} {t : State}
    (h : Reaches (step c) unrestricted (initial input) t) : t.Fits := by
  refine h.invariant ?_ fun s o t hinv _ hs turn hturn ↦ ?_
  · rintro turn ⟨⟩
  · obtain ⟨-, -, hturns⟩ := step_eq_some hs
    rw [hturns] at hturn
    rcases List.mem_append.mp hturn with hold | hnew
    · exact hinv turn hold
    · rw [List.mem_singleton.mp hnew]
      exact turn_fits c o s.configurator s.input

theorem oneSlave_fits : ∃ t : State, t.slaves = [([97, 98], 5)] ∧ t.Fits := by
  have hrun : (run (step saturating) (initial (typed oneSlave)) (oneSlave.map Prod.fst)).map
      State.slaves = some [([97, 98], 5)] := by
    decide +kernel
  obtain ⟨t, ht, hslaves⟩ := Option.map_eq_some_iff.mp hrun
  exact ⟨t, hslaves, slaves_fit (.of_unrestricted_run ht)⟩

end Slaves

end RealTimeCyclic.Terminal
