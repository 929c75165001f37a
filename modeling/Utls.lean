import Utls.Lib.Bytes
import Utls.Lib.Exec
import Utls.Types
import Utls.Extension
import Utls.ClientHello
import Utls.Conn
import Utls.Marshal
import Utls.ApplyConfig
import Utls.SessionController
import Utls.LoadSession
import Utls.Preset
import Utls.Build
import Utls.Binders
import Utls.Handshake12
import Utls.Objects
import Utls.Sync
import Utls.Builds
import Utls.BytesSent
import Utls.EchSeal
import Utls.EchBuild
import Utls.EchSent
import Utls.HelloParse
import Utls.InnerHello
import Utls.InnerRoundTrip
import Utls.EchAad
import Utls.EchPsk
import Utls.EmptyPsk
import Utls.SentHello
import Utls.EchBinder
import Utls.GoPath
import Utls.PskBinder
import Utls.Handshake13
import Utls.HelloRetry
import Utls.FirstBuild
import Utls.EarlyData
import Utls.ExtensionWrite
import Utls.ExtensionRead
import Utls.ExtensionOrder
import Utls.HelloForm
import Utls.SpecOnWire
import Utls.HelloRoundTrip
import Utls.SessionState
import Utls.SessionStorage
import Utls.Lib.Coalesce
import Utls.Lib.Slices
import Utls.QuicEvents
import Utls.QuicHandshake
import Utls.ServerHello
import Utls.KeyShares
import Utls.KeyAgreement
import Utls.Lib.Lru
import Utls.SessionCache
import Utls.PskExtension
import Utls.EchConfigList
import Utls.Lib.RWMutex
import Utls.TicketKeys
import Utls.TrustAnchors
import Utls.InnerDecode
import Utls.Lib.Cipher
import Utls.Lib.Counter
import Utls.RecordLayer
import Utls.EchTranscript
import Utls.EchRetry
import Utls.SecondHello
import Utls.ExtensionShuffle
import Utls.Versions
import Utls.GreaseCoherence
import Utls.HpkeNonce
import Utls.GreaseEchShape
import Utls.ImportKeyShares
import Utls.Lib.Removal
import Utls.RandomizedCiphers
import Utls.RandomizedSpec
import Utls.ReadBuffers
import Utls.ExtensionCodec
import Utls.Lib.Varint
import Utls.TransportParameters
import Utls.Roller
import Utls.CompressedCert
import Utls.RecordSequence
