import Mtop.Library.CxxString
import Mtop.Library.Double
import Mtop.Library.Json
import Mtop.Library.JsonNumber
import Mtop.Library.JsonText
import Mtop.Library.StdSort
import Mtop.Library.GroupFold
import Mtop.Library.Run
import Mtop.Snapshot
import Mtop.Model.Detector
import Mtop.Model.Workload
import Mtop.Model.WorkloadGroups
import Mtop.Model.WorkloadTotals
import Mtop.Model.WorkloadFamily
import Mtop.Model.WorkloadRepresentative
import Mtop.Model.WorkloadIdentity
import Mtop.Model.WorkloadOrder
import Mtop.Model.MemoryRisk
import Mtop.Output.JsonWriter
import Mtop.Ui.Labels
import Mtop.Output.SnapshotJson
import Mtop.Output.SnapshotDoc
import Mtop.Output.Session
import Mtop.Config
import Mtop.Output.SnapshotMode
import Mtop.Output.SnapshotLines
import Mtop.Platform.CaptureTruth
import Mtop.Library.DoubleText
import Mtop.Library.CxxInt
import Mtop.Ui.Click
import Mtop.Ui.Fixed
import Mtop.Ui.Target
import Mtop.ConfigEffect
import Mtop.Model.RiskOrder
import Mtop.Ui.RiskAgreement
import Mtop.Platform.DeviceArrival
import Mtop.Platform.RootRun
import Mtop.Ui.TreeCollapse
import Mtop.ConfigOrder
import Mtop.Platform.Placeholders
import Mtop.Ui.InputStream
import Mtop.Platform.IoColumn
import Mtop.Platform.ListedSample
import Mtop.Platform.TaskIntruders
import Mtop.Ui.Popups
import Mtop.Model.Headroom
import Mtop.Model.WorkloadSignals
import Mtop.Model.WorkloadLeader
import Mtop.Ui.AlphaFilter
import Mtop.Ui.MouseReport
import Mtop.Platform.CoreShares
import Mtop.Library.Slices
import Mtop.Ui.PlotAxis
import Mtop.Ui.PlotLevels
import Mtop.Library.CyclicSearch
import Mtop.Ui.Search
import Mtop.Ui.PagingRun
import Mtop.Ui.ListingOrder
import Mtop.Ui.Histories
import Mtop.Ui.Footer
import Mtop.Ui.PromptRun
import Mtop.Platform.CpuTruth
import Mtop.Platform.ProcessShares
import Mtop.Platform.GpuRun
import Mtop.Platform.SampleFrame
import Mtop.Ui.SignalPrompt
import Mtop.Model.DetectorReach
import Mtop.Library.Utf8
import Mtop.Output.SnapshotUtf8
import Mtop.Ui.Pause
import Mtop.CliRuns
import Mtop.Ui.Sizes
import Mtop.Ui.Meter
import Mtop.Ui.SearchTour
import Mtop.Ui.HeaderClick
import Mtop.Ui.PidEntry
