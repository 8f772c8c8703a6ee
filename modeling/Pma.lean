import Pma.Bm
import Pma.ChangePolling
import Pma.CommaGroups
import Pma.Control
import Pma.CrList
import Pma.DbmCompute
import Pma.DbmLinks
import Pma.DbmReplica
import Pma.DdcShortest
import Pma.DevicePolling
import Pma.FahDeadTimer
import Pma.FahReprotect
import Pma.HostileLengths
import Pma.IfRate
import Pma.InterfaceConfig
import Pma.InterfaceRefresh
import Pma.LidbOverflow
import Pma.LidbPairs
import Pma.LidbPolicyKey
import Pma.LidbRecompute
import Pma.LogIsolation
import Pma.LogSemaphores
import Pma.LsdAdvertised
import Pma.LsdAgeing
import Pma.LsdConvergence
import Pma.LsdExchangeProgress
import Pma.LsdExchangeSnapshot
import Pma.LsdFloodBack
import Pma.LsdFloodLink
import Pma.LsdHelloChain
import Pma.LsdNeighbor
import Pma.LsdOrigination
import Pma.LsdOwnership
import Pma.LsdPacket
import Pma.LsdbAdjacent
import Pma.LsdbTraverse
import Pma.LsdbUpdate
import Pma.LsdbXml
import Pma.ModuleLengths
import Pma.ModuleLifeCycle
import Pma.ModuleTable
import Pma.NeighborList
import Pma.Pem
import Pma.PmaList
import Pma.PmsAck
import Pma.PolicyParse
import Pma.RouteTable
import Pma.RouteUpload
import Pma.RouterList
import Pma.ThreadDaemon
import Pma.ThreadPoolRuns
import Pma.TimerBounds
import Pma.TimerRefinement
import Pma.TimerSchedule
import Pma.Vty
import Pma.NullTerminated
import Pma.Threads
import Pma.ThreadLists
import Pma.Agenda
import Pma.ThreadRefinement
import Pma.ThreadRuns
import Pma.ThreadTimers
import Pma.Records
import Pma.Netlink
import Pma.NetlinkDump
import Pma.NetlinkInside
import Pma.LinkLists
import Pma.LinkListLinks
import Pma.LinkListSequences
import Pma.LinkListRefinement
import Pma.LinkListRuns
import Pma.InterfaceQueries
import Pma.InterfaceLists
import Pma.SortedViews
import Pma.SnmpTable
import Pma.SnmpNames
import Pma.SnmpCells
import Pma.SnmpWalk
