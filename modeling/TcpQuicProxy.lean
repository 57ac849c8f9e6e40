import TcpQuicProxy.LinuxRelay.EndToEnd
import TcpQuicProxy.LinuxRelay.SharedBudget
import TcpQuicProxy.Dial.ResolverLock
import TcpQuicProxy.Dial.MappedForm
import TcpQuicProxy.Ingress.Target
import TcpQuicProxy.LinuxRelay.GracefulEnd
import TcpQuicProxy.Handover.FailedStart
import TcpQuicProxy.Tunnel.PendingRelay
import TcpQuicProxy.Ingress.Credentials
import TcpQuicProxy.Config.MemoryCap
import TcpQuicProxy.Tunnel.AcceptRace
import TcpQuicProxy.Admin.TokenAuth
import TcpQuicProxy.Admin.AclRestart
import TcpQuicProxy.Admin.AclThreads
import TcpQuicProxy.Router.Rejected
import TcpQuicProxy.Router.Users
import TcpQuicProxy.LinuxRelay.ParkedSend
import TcpQuicProxy.LinuxRelay.Teardown
import TcpQuicProxy.RelayControl.Commands
import TcpQuicProxy.RelayControl.StoppedWorker
import TcpQuicProxy.RelayControl.Escalation
import TcpQuicProxy.StreamLifetime.Shutdown
import TcpQuicProxy.StreamLifetime.Sinks
import TcpQuicProxy.StreamLifetime.Completions
import TcpQuicProxy.StreamLifetime.Router
import TcpQuicProxy.StreamLifetime.Persistence
import TcpQuicProxy.Handover.ClientUpload
import TcpQuicProxy.Router.ConnectionId
import TcpQuicProxy.Ingress.PeerListeners
import TcpQuicProxy.Quic.Session
import TcpQuicProxy.Config.MeasuredRtt
import TcpQuicProxy.StreamLifetime.LedgerOrder
import TcpQuicProxy.LinuxRelay.HandoffFacts
