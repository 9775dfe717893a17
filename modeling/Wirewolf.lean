import Wirewolf.Core.LTS
import Wirewolf.Core.Reading
import Wirewolf.Core.Wire
import Wirewolf.Core.OrdMap
import Wirewolf.Core.Serial
import Wirewolf.Core.Overlay
import Wirewolf.Core.Listing
import Wirewolf.Core.Tiling
import Wirewolf.Core.UMap
import Wirewolf.Core.Grouping
import Wirewolf.Core.Text
import Wirewolf.Core.Json
import Wirewolf.Core.Numeral
import Wirewolf.Core.Latin1
import Wirewolf.Core.BinarySearch
import Wirewolf.Core.Ranking
import Wirewolf.Core.Mailbox
import Wirewolf.Core.Sorting
import Wirewolf.Core.Sample
import Wirewolf.Core.Smoothing
import Wirewolf.Core.Cursor
import Wirewolf.Core.Checked
import Wirewolf.Core.Blocks
import Wirewolf.Core.Runs
import Wirewolf.Core.Calendar
import Wirewolf.L1Encoding.IpPacket
import Wirewolf.L1Encoding.IpReads
import Wirewolf.L1Encoding.IpWire
import Wirewolf.L1Encoding.Verdict
import Wirewolf.L1Encoding.AlertJson
import Wirewolf.L1Encoding.Normalizer
import Wirewolf.L1Encoding.Md5
import Wirewolf.L1Encoding.Md5Padding
import Wirewolf.L1Encoding.TlsHello
import Wirewolf.L1Encoding.TlsWire
import Wirewolf.L1Encoding.TlsReads
import Wirewolf.L1Encoding.ProxyFile
import Wirewolf.L1Encoding.ProxyReaders
import Wirewolf.L1Encoding.Config
import Wirewolf.L1Encoding.NormalShape
import Wirewolf.L1Encoding.AlertObject
import Wirewolf.L1Encoding.CommandLine
import Wirewolf.L2Stream.Connection
import Wirewolf.L2Stream.Placement
import Wirewolf.L2Stream.Reassembly
import Wirewolf.L2Stream.Wrap
import Wirewolf.L2Stream.Base
import Wirewolf.L2Stream.Overlap
import Wirewolf.L2Stream.FirstSeen
import Wirewolf.L3Table.Behavior
import Wirewolf.L3Table.Table
import Wirewolf.L3Table.Removal
import Wirewolf.L3Table.Tagging
import Wirewolf.L3Table.FlowRecord
import Wirewolf.L3Table.FlowStats
import Wirewolf.L3Table.StateString
import Wirewolf.L3Table.Markov
import Wirewolf.L3Table.MarkovFile
import Wirewolf.L3Table.Smoothing
import Wirewolf.L3Table.Merging
import Wirewolf.L3Table.Splitting
import Wirewolf.L3Table.PayloadGate
import Wirewolf.L3Table.TrainLabels
import Wirewolf.L3Table.Caps
import Wirewolf.L3Table.Isolation
import Wirewolf.L3Table.Suspicion
import Wirewolf.L4Filter.ThreatFeed
import Wirewolf.L4Filter.Detectors
import Wirewolf.L4Filter.Signatures
import Wirewolf.L4Filter.Fingerprint
import Wirewolf.L4Filter.Worker
import Wirewolf.L4Filter.Decision
import Wirewolf.L4Filter.Escalation
import Wirewolf.L4Filter.ContentExits
import Wirewolf.L4Filter.Accounting
import Wirewolf.L4Filter.Heartbleed
import Wirewolf.L4Filter.Domains
import Wirewolf.L4Filter.ContactList
import Wirewolf.L4Filter.RatFraming
import Wirewolf.L4Filter.DetectorReads
import Wirewolf.L4Llm.Prompt
import Wirewolf.L4Llm.Worker
import Wirewolf.L4Llm.NamedAlert
import Wirewolf.L4Llm.Context
import Wirewolf.L4Llm.PlainText
import Wirewolf.L4Llm.Evidence
import Wirewolf.L5Pipeline.Alerts
import Wirewolf.L5Pipeline.Responders
import Wirewolf.L5Pipeline.Flush
import Wirewolf.L5Pipeline.Truncation
import Wirewolf.L5Pipeline.Volumetric
import Wirewolf.L5Pipeline.Footprint
import Wirewolf.L5Pipeline.Beaconing
import Wirewolf.L5Pipeline.Maintenance
import Wirewolf.L5Pipeline.Allowlist
import Wirewolf.L5Pipeline.Queue
import Wirewolf.L5Pipeline.QueueOrder
import Wirewolf.L5Pipeline.Conservation
import Wirewolf.L5Pipeline.Dedup
import Wirewolf.L5Pipeline.Offline
import Wirewolf.L5Pipeline.ZeroLoss
import Wirewolf.L5Pipeline.Scheduling
import Wirewolf.L5Pipeline.Inline
import Wirewolf.L5Pipeline.AlertStream
import Wirewolf.L5Pipeline.Training
import Wirewolf.L5Pipeline.Capture
import Wirewolf.L5Pipeline.Binetflow
import Wirewolf.L5Pipeline.Detection
import Wirewolf.L5Pipeline.Deployment
import Wirewolf.L5Pipeline.Containment
import Wirewolf.L5Pipeline.Polling
import Wirewolf.L5Pipeline.Starting
import Wirewolf.L5Pipeline.Lifecycle
import Wirewolf.L5Pipeline.DottedQuad
import Wirewolf.L5Pipeline.Provenance
