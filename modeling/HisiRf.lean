import HisiRf.Backend.ErrorExit
import HisiRf.Backend.Cancellation
import HisiRf.Backend.Reconnect
import HisiRf.Scan.Timeout
import HisiRf.Worker.CancelDelivery
import HisiRf.Netif.CloseNotice
import HisiRf.Netif.Submission
import HisiRf.Supplicant.SlotDelivery
import HisiRf.Supplicant.Gates
import HisiRf.Netif.InitialSession
import HisiRf.Supplicant.FailClosed
import HisiRf.Netif.RxOrigin
import HisiRf.Worker.WakeUps
import HisiRf.Osal.EventWrites
import HisiRf.Supplicant.ScanTransactions
import HisiRf.Authenticator.Beacon
import HisiRf.Authenticator.EventOrder
import HisiRf.Osal.MessageReuse
import HisiRf.Timer.SwtmrSilence
import HisiRf.BleCrypto.Leases
import HisiRf.Composition.Coexistence
import HisiRf.Netif.Tokens
import HisiRf.Supplicant.NativePoll
import HisiRf.Netif.RxRebuild
import HisiRf.Osal.WaitTimeout
import HisiRf.Osal.Snprintf
import HisiRf.Scan.Elements
import HisiRf.Crypto.Points
import HisiRf.Osal.AtomicCounter
import HisiRf.Radio.Rings
import HisiRf.Netif.PacketBuffer
