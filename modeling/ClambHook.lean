import ClambHook.Prompt.Agreement
import ClambHook.WireGuard.Forged
import ClambHook.Events.Polling
import ClambHook.TemporaryRules.Agreement
import ClambHook.WireGuard.Routing
import ClambHook.Policy.Select
import ClambHook.Http.Pinning
import ClambHook.TrafficStore.FlowIds
import ClambHook.TcpNat.RoundTrip
import ClambHook.RuleFeed.Reload
import ClambHook.ApiServer.Listen
import ClambHook.Runtime.Answers
import ClambHook.Runtime.Remembered
import ClambHook.Proxy.Transparent
import ClambHook.Developer.Redaction
import ClambHook.IpStack.DnsHints
import ClambHook.IpStack.Datagrams
import ClambHook.License.Monotone
import ClambHook.Protocol.UdpSupport
import ClambHook.IpStack.TunRoute
import ClambHook.License.Grace
import ClambHook.Developer.Chunking
import ClambHook.Rules.Listed
import ClambHook.TunnelStack.Closing
import ClambHook.Events.Retained
import ClambHook.Socks.Wire
import ClambHook.Converter.Chains
import ClambHook.Policy.Schedule
import ClambHook.IpStack.Download
import ClambHook.OpenVpn.Rejection
import ClambHook.Socks.Negotiate
import ClambHook.Net.Fifo
import ClambHook.Json.Members
import ClambHook.RuleFeed.Networks
import ClambHook.Developer.BodyReplace
import ClambHook.Developer.Utf8
