import NetShare.WorkqueueFifo
import NetShare.WorkqueueWait
import NetShare.AppConfig
import NetShare.SessionWorkers
import NetShare.RequestChecks
import NetShare.Teardown
import NetShare.ConnectionsAlone
import NetShare.Dialogue
import NetShare.DamagedConfig
import NetShare.PacketOwnership
import NetShare.SocketReceiver
import NetShare.DriverSockets
import NetShare.ConfigRace
import NetShare.MalformedAddress
import NetShare.WorkerConfigs
import NetShare.ConfigSettings
import NetShare.PopReturn
import NetShare.SendLoop
import NetShare.SentStatistics
import NetShare.SinglePop
import NetShare.NameBuffers
import NetShare.SpinCounter
import NetShare.TextConfig
import NetShare.AdapterNames
import NetShare.ReferenceCounts
import NetShare.SessionEnd
import NetShare.SessionDrain
import NetShare.IncomingFlow
import NetShare.ConfigFormat
import NetShare.Lines
import NetShare.QueueHistory
import NetShare.ControlSockets
import NetShare.NamesVector
import NetShare.ConfigStore
import NetShare.TraceFile
import NetShare.TraceText
import NetShare.DialogueRefinement
import NetShare.StatisticsThread
import NetShare.ApplicationGet
import NetShare.Lifecycle
