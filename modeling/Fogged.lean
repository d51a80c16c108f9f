import Fogged.Spec.AndroidVpnCorrect
import Fogged.Spec.ByIndexCorrect
import Fogged.Spec.CdnDownlink
import Fogged.Spec.CdnFrames
import Fogged.Spec.ClientHelloConfined
import Fogged.Spec.ConnectionRuns
import Fogged.Spec.DecoyChain
import Fogged.Spec.HomeScreenCorrect
import Fogged.Spec.LaunchCorrect
import Fogged.Spec.MuxPair
import Fogged.Spec.MuxPoolStalls
import Fogged.Spec.MuxTable
import Fogged.Spec.PortChain
import Fogged.Spec.QuicFailover
import Fogged.Spec.QuicRecovery
import Fogged.Spec.RealityFreshness
import Fogged.Spec.RelayCorrect
import Fogged.Spec.SecureStorageCorrect
import Fogged.Spec.ServerList
import Fogged.Spec.SessionCacheCorrect
import Fogged.Spec.Socks5Auth
import Fogged.Spec.Socks5Request
import Fogged.Spec.SpeedTestCorrect
import Fogged.Spec.StatusLines
import Fogged.Spec.TakePending
import Fogged.Spec.UdpDatagram
import Fogged.Spec.UpdateOffer
import Fogged.Spec.VisionPadding
import Fogged.Spec.VisionProgress
import Fogged.Spec.VlessCorrect
import Fogged.Spec.VpnConfigCorrect
import Fogged.Spec.WhitelistCorrect
