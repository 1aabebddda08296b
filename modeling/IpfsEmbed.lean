import IpfsEmbed.Net.Multiaddr
import IpfsEmbed.Net.Rtt
import IpfsEmbed.Net.AddressBook
import IpfsEmbed.Net.Run
import IpfsEmbed.Net.Effects
import IpfsEmbed.Net.StepCases
import IpfsEmbed.Net.Registry
import IpfsEmbed.Net.AddressMap
import IpfsEmbed.Net.Discovery
import IpfsEmbed.Net.EventBus
import IpfsEmbed.Net.Connections
import IpfsEmbed.Net.DialRound
import IpfsEmbed.Net.RttDecay
import IpfsEmbed.Net.RttHistory
import IpfsEmbed.Net.ActionQueue
import IpfsEmbed.Net.Panics
import IpfsEmbed.Net.Isolation
import IpfsEmbed.Net.Identify
import IpfsEmbed.Net.Metrics
