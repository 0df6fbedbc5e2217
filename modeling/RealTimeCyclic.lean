import RealTimeCyclic.Library.Transition
import RealTimeCyclic.Library.CString
import RealTimeCyclic.Library.Decimal
import RealTimeCyclic.Shm
import RealTimeCyclic.Slave
import RealTimeCyclic.SlotThread
import RealTimeCyclic.Slot
import RealTimeCyclic.SlotCommand
import RealTimeCyclic.SlotPointer
import RealTimeCyclic.SlotParameter
import RealTimeCyclic.SlotDispatch
import RealTimeCyclic.Library.Probing
import RealTimeCyclic.Master
import RealTimeCyclic.MasterConnect
import RealTimeCyclic.MasterSignal
import RealTimeCyclic.Configurator
import RealTimeCyclic.MasterResponse
import RealTimeCyclic.ConfiguratorSafety
import RealTimeCyclic.PendingSignals
import RealTimeCyclic.Handshake
import RealTimeCyclic.HandshakeNames
import RealTimeCyclic.Library.Layout
import RealTimeCyclic.NameBuffer
import RealTimeCyclic.HandshakeBuffer
import RealTimeCyclic.SlotSemaphore
import RealTimeCyclic.Library.ProbeTable
import RealTimeCyclic.LocalRegistry
import RealTimeCyclic.MasterDispatch
import RealTimeCyclic.SlotPermit
import RealTimeCyclic.SlotTable
import RealTimeCyclic.MasterBlocking
import RealTimeCyclic.MasterPristine
import RealTimeCyclic.Library.Tally
import RealTimeCyclic.MasterAnswer
import RealTimeCyclic.MasterRefusal
import RealTimeCyclic.StartDialogue
import RealTimeCyclic.Joint
import RealTimeCyclic.JointSlots
import RealTimeCyclic.JointPhase
import RealTimeCyclic.JointAgreement
import RealTimeCyclic.SlaveRequest
import RealTimeCyclic.SlaveName
import RealTimeCyclic.CreateSlave
import RealTimeCyclic.Negotiation
import RealTimeCyclic.Library.Sentinel
import RealTimeCyclic.ParameterHandOver
import RealTimeCyclic.StartRefusal
import RealTimeCyclic.CycleSleep
import RealTimeCyclic.SlotPeriod
import RealTimeCyclic.SlotOverrun
import RealTimeCyclic.Library.Window
import RealTimeCyclic.Library.Words
import RealTimeCyclic.Library.Latch
import RealTimeCyclic.Library.Overlay
import RealTimeCyclic.ErrorDrain
import RealTimeCyclic.LogFilter
import RealTimeCyclic.SlaveListing
import RealTimeCyclic.Library.Progress
import RealTimeCyclic.SlotTurns
import RealTimeCyclic.SlotStop
import RealTimeCyclic.SlotTransfer
import RealTimeCyclic.HandshakeProgress
import RealTimeCyclic.HandshakeData
import RealTimeCyclic.HandshakeLockstep
import RealTimeCyclic.Library.Simulation
import RealTimeCyclic.Processes
import RealTimeCyclic.ProcessSlots
import RealTimeCyclic.ProcessRefinement
import RealTimeCyclic.ProcessSafety
import RealTimeCyclic.MasterPatient
import RealTimeCyclic.ProcessPatient
import RealTimeCyclic.Library.Numeral
import RealTimeCyclic.Library.Reader
import RealTimeCyclic.Terminal
import RealTimeCyclic.TerminalSession
import RealTimeCyclic.SlaveLife
import RealTimeCyclic.ProcessBuffer
import RealTimeCyclic.ProcessLife
import RealTimeCyclic.Library.Queue
import RealTimeCyclic.SlotConserved
import RealTimeCyclic.SlotAnswer
