import TinkGo.Basic
import TinkGo.CryptoFmt
import TinkGo.Keyset
import TinkGo.PrimitiveSet
import TinkGo.Registry
import TinkGo.Mac.Wrapper
import TinkGo.Mac.Protocol
import TinkGo.Mac.Rotation
import TinkGo.Mac.Dispatch
import TinkGo.Proto.Wire
import TinkGo.Proto.Hmac
import TinkGo.Mac.Hmac
import TinkGo.Mac.HmacKeyManager
import TinkGo.Mac.Factory
import TinkGo.Aead.XChaCha20Poly1305
