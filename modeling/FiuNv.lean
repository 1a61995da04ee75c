import FiuNv.Foundation.Run
import FiuNv.Foundation.Writes
import FiuNv.Foundation.NorFlash
import FiuNv.Foundation.Ring
import FiuNv.Foundation.Bytes
import FiuNv.Foundation.BlockPool
import FiuNv.Foundation.Segments
import FiuNv.Foundation.PriorityMap
import FiuNv.Foundation.DeltaList
import FiuNv.Host.SessionLaws
import FiuNv.Host.Registers
import FiuNv.Host.Encoding
import FiuNv.Host.Gate
import FiuNv.Host.Protocol
import FiuNv.Host.Unordered
import FiuNv.Relay.OutputLaws
import FiuNv.Relay.LoadNibble
import FiuNv.Relay.Image
import FiuNv.Settings.Flash
import FiuNv.Settings.Sectors
import FiuNv.Settings.Boot
import FiuNv.Udp.Packet
import FiuNv.Udp.Echo
import FiuNv.Udp.Multicast
import FiuNv.Udp.StaleBytes
import FiuNv.Udp.Bounds
import FiuNv.Udp.Reply
import FiuNv.Udp.Buffers
import FiuNv.Udp.Announce
import FiuNv.Udp.Batch
import FiuNv.Can.Receive
import FiuNv.Device.DispatchLaws
import FiuNv.Device.SessionSteps
import FiuNv.Device.Transports
import FiuNv.Device.Records
import FiuNv.Device.ErrorLatch
import FiuNv.Device.LooseContact
import FiuNv.Device.WorkStatus
import FiuNv.Device.SessionIsolation
import FiuNv.Device.CanTask
import FiuNv.Device.Restart
import FiuNv.Device.Acceptance
import FiuNv.Device.WorkMode
import FiuNv.Device.History
import FiuNv.Device.Resistance
import FiuNv.Device.ChannelList
import FiuNv.Device.Wiring
import FiuNv.Device.Protocol
import FiuNv.Device.Queue
import FiuNv.Ethernet.Memory
import FiuNv.Ethernet.Transmit
import FiuNv.Ethernet.Receive
import FiuNv.Ethernet.Reception
import FiuNv.Ethernet.Heap
import FiuNv.Os.Queue
import FiuNv.Lwip.Mailbox
import FiuNv.Lwip.Timeouts
import FiuNv.Lwip.UdpPcbs
import FiuNv.Board.Expander
import FiuNv.Board.Temperature
