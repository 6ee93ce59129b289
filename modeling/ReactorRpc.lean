import ReactorRpc.Registration
import ReactorRpc.BufferSubscripts
import ReactorRpc.ConcurrentSend
import ReactorRpc.EndToEnd
import ReactorRpc.MessageLoop
import ReactorRpc.ThreadPool
import ReactorRpc.LoopWakeup
import ReactorRpc.ConnectionAgreement
import ReactorRpc.AsyncCalls
import ReactorRpc.ServerClose
import ReactorRpc.Discovery
import ReactorRpc.RegistryRefresh
import ReactorRpc.DiskCache
import ReactorRpc.Failover
import ReactorRpc.GetAddresses
import ReactorRpc.RoundRobin
import ReactorRpc.AddressParsing
import ReactorRpc.CallReports
import ReactorRpc.Dispatchers
import ReactorRpc.CallSystem
import ReactorRpc.MathCalls
import ReactorRpc.ServerDescriptors
import ReactorRpc.BufferMemory
import ReactorRpc.DiscoverySystem
import ReactorRpc.BenchmarkWorker
import ReactorRpc.BenchmarkRounds
import ReactorRpc.BenchmarkSystem
import ReactorRpc.ServerProgress
