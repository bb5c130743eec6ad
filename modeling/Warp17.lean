import Warp17.SerialArithmetic
import Warp17.StreamSlices
import Warp17.GuardedRuns
import Warp17.SequenceComparison
import Warp17.MbufChains
import Warp17.ControlBlock
import Warp17.ReceiveBuffer
import Warp17.ReceiveReassembly
import Warp17.SendQueue
import Warp17.ConnectionRuns
import Warp17.RetransmissionQueue
import Warp17.TransitionPaths
import Warp17.SendInvariants
import Warp17.SessionTimers
import Warp17.SendSequence
import Warp17.TransmittedNumbers
import Warp17.RetryLimits
import Warp17.UnacceptableSegments
import Warp17.IntrusiveLists
import Warp17.TimerWheel
import Warp17.TimerExpiry
import Warp17.WordLoops
import Warp17.ClientSessions
import Warp17.WhileLoops
import Warp17.RateLimits
import Warp17.RateSlots
import Warp17.RateSplit
import Warp17.RunMessages
import Warp17.StateTraces
import Warp17.Tallies
import Warp17.ControlBlockPool
import Warp17.StateCensus
import Warp17.BucketTables
import Warp17.ListenerLookup
import Warp17.SessionGauges
import Warp17.GaugeTransitions
import Warp17.GaugeTotals
import Warp17.L4Checksum
import Warp17.RingBuffers
import Warp17.TraceRing
import Warp17.SlotTables
import Warp17.ArpTable
import Warp17.RouteTable
import Warp17.CoreMessages
import Warp17.BoundedCalls
import Warp17.TestCaseConfig
import Warp17.ImixGroups
import Warp17.ManagementApi
import Warp17.GroupsInUse
import Warp17.TestScheduling
import Warp17.TestVerdicts
import Warp17.ReplyCounters
import Warp17.StatsRequests
import Warp17.LatencyAggregation
import Warp17.RecentLatencies
import Warp17.RawApplication
import Warp17.RawExchange
import Warp17.SegmentLoop
import Warp17.SendWindow
import Warp17.SendRates
import Warp17.TestStateMachine
import Warp17.DelayTimers
import Warp17.DelimiterScan
import Warp17.HttpParser
import Warp17.HttpDelivery
import Warp17.NumberText
import Warp17.QueueMaps
import Warp17.CoreAssignment
import Warp17.PortSetup
import Warp17.UnicastRanges
import Warp17.Ipv4Options
import Warp17.ContentLengths
import Warp17.SendPointers
import Warp17.MessageWriting
import Warp17.MessageBuilding
import Warp17.RawSizes
import Warp17.CyclicReads
import Warp17.ImixRoundRobin
import Warp17.ImixNesting
import Warp17.ReceiveLengths
import Warp17.TestSessions
import Warp17.WindowEvents
import Warp17.TailQueues
import Warp17.ClientQueues
import Warp17.AcceptanceWindow
import Warp17.ChainTrimming
import Warp17.PackedWords
import Warp17.MbufUserData
import Warp17.SegmentCloning
import Warp17.CloneTimestamps
import Warp17.TxTimestamps
import Warp17.TimestampCksum
import Warp17.SentStream
import Warp17.FinAfterData
import Warp17.WordBytes
import Warp17.ToeplitzHashing
import Warp17.ReceiveSteering
import Warp17.EthernetFrames
import Warp17.ArpFrames
import Warp17.ArpNetwork
import Warp17.SegmentFrames
import Warp17.ReceivePaths
import Warp17.StreamReading
import Warp17.StreamTransfer
import Warp17.StreamDelivery
import Warp17.MessageParsing
import Warp17.HttpExchange
