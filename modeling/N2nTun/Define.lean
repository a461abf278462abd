import N2nTun.Lib.Bytes

/-!
# Constants and message types

The constants of `n2n_define.h` and the records of `n2n_typedefs.h` that the
wire format and the supernode work on.  Fixed-size arrays are vectors.  The one
exception is the authentication token, whose declared size the decoders do not
check: it is the memory that starts at `auth.token`, so that an overlong copy
stays visible.

## Main definitions

* `Common` — the fields every packet starts with.
* `Register`, `RegisterSuper`, … — the messages, one record each.
* `Sock`, `Auth`, `IpSubnet` — what the messages are made of.
-/

namespace N2n

/-! ### Sizes and limits -/

/-- `N2N_PKT_VERSION`. -/
def pktVersion : UInt8 := 3

/-- `N2N_DEFAULT_TTL`. -/
def defaultTtl : UInt8 := 2

/-- `N2N_COMMUNITY_SIZE`. -/
def communitySize : ℕ := 20

/-- `N2N_AUTH_MAX_TOKEN_SIZE`. -/
def authMaxTokenSize : ℕ := 48

/-- `N2N_PRIVATE_PUBLIC_KEY_SIZE`. -/
def privatePublicKeySize : ℕ := 32

/-- `N2N_AUTH_CHALLENGE_SIZE`. -/
def authChallengeSize : ℕ := 16

/-- `N2N_PKT_BUF_SIZE`, the size of the edge's packet buffers. -/
def pktBufSize : ℕ := 4096

/-- `N2N_SN_PKTBUF_SIZE`, the size of the supernode's packet buffers. -/
def snPktbufSize : ℕ := 4096

/-- `N2N_REG_SUP_HASH_CHECK_LEN`. -/
def regSupHashCheckLen : ℕ := 16

/-- `REG_SUPER_ACK_PAYLOAD_ENTRY_SIZE`: two words, an address field and a MAC. -/
def regSuperAckPayloadEntrySize : ℕ := 2 + 2 + 16 + 6

/-- `REG_SUPER_ACK_PAYLOAD_SPACE`: `DEFAULT_MTU` less the sizes in memory of
`n2n_common_t` (24) and, with its padding, of `n2n_REGISTER_SUPER_ACK_t` (100). -/
def regSuperAckPayloadSpace : ℕ := 1290 - (24 + 100)

/-! ### Flags -/

/-- `N2N_FLAGS_SOCKET`. -/
def flagsSocket : UInt16 := 0x0040

/-- `N2N_FLAGS_FROM_SUPERNODE`. -/
def flagsFromSupernode : UInt16 := 0x0020

/-- `N2N_FLAGS_TYPE_MASK`. -/
def flagsTypeMask : UInt16 := 0x001f

/-- `N2N_FLAGS_BITS_MASK`. -/
def flagsBitsMask : UInt16 := 0xffe0

/-! ### Message types, `n2n_pc_t` -/

/-- `MSG_TYPE_REGISTER`. -/
def msgTypeRegister : UInt8 := 1

/-- `MSG_TYPE_PACKET`. -/
def msgTypePacket : UInt8 := 3

/-- `MSG_TYPE_REGISTER_ACK`. -/
def msgTypeRegisterAck : UInt8 := 4

/-- `MSG_TYPE_REGISTER_SUPER`. -/
def msgTypeRegisterSuper : UInt8 := 5

/-- `MSG_TYPE_UNREGISTER_SUPER`. -/
def msgTypeUnregisterSuper : UInt8 := 6

/-- `MSG_TYPE_REGISTER_SUPER_ACK`. -/
def msgTypeRegisterSuperAck : UInt8 := 7

/-- `MSG_TYPE_REGISTER_SUPER_NAK`. -/
def msgTypeRegisterSuperNak : UInt8 := 8

/-- `MSG_TYPE_PEER_INFO`. -/
def msgTypePeerInfo : UInt8 := 10

/-- `MSG_TYPE_QUERY_PEER`. -/
def msgTypeQueryPeer : UInt8 := 11

/-- `MSG_TYPE_MAX_TYPE`. -/
def msgTypeMaxType : UInt16 := 11

/-- `MSG_TYPE_RE_REGISTER_SUPER`. -/
def msgTypeReRegisterSuper : UInt8 := 12

/-! ### Records -/

/-- `n2n_mac_t`. -/
abbrev Mac := List.Vector UInt8 6

/-- `n2n_community_t`: a community name, padded with zeros. -/
abbrev CommunityName := List.Vector UInt8 20

/-- `n2n_desc_t`. -/
abbrev Desc := List.Vector UInt8 16

/-- `n2n_version_t`. -/
abbrev Version := List.Vector UInt8 20

/-- `null_mac`. -/
def nullMac : Mac := List.Vector.replicate 6 0

/-- `is_null_mac`. -/
def isNullMac (mac : Mac) : Bool := mac == nullMac

/-- `AF_INET`. -/
def afInet : UInt8 := 2

/-- `AF_INET6`. -/
def afInet6 : UInt8 := 10

/-- `(uint8_t)AF_INVALID`. -/
def afInvalid : UInt8 := 255

/-- `SOCK_STREAM`. -/
def sockStream : UInt8 := 1

/-- `SOCK_DGRAM`. -/
def sockDgram : UInt8 := 2

/-- `n2n_sock_t`.  The address is the union's longer member; an IPv4 address
is its first four bytes. -/
structure Sock where
  family : UInt8
  type : UInt8
  port : UInt16
  addr : List.Vector UInt8 16
  deriving DecidableEq

/-- A socket after `memset(…, 0, …)`. -/
def Sock.zero : Sock := ⟨0, 0, 0, List.Vector.replicate 16 0⟩

/-- `sock_equal`: the type of the socket is not compared, and for an IPv4 socket
only the IPv4 address is. -/
def sockEqual (a b : Sock) : Bool :=
  if a.port ≠ b.port then false
  else if a.family ≠ b.family then false
  else if a.family = afInet then a.addr.toList.take 4 == b.addr.toList.take 4
  else a.addr == b.addr

/-- `n2n_ip_subnet_t`. -/
structure IpSubnet where
  netAddr : UInt32
  netBitlen : UInt8
  deriving DecidableEq

/-- `n2n_auth_t`, its `token` being the memory that starts at the array. -/
structure Auth where
  scheme : UInt16
  tokenSize : UInt16
  token : List UInt8
  deriving DecidableEq

/-- An `n2n_auth_t` after `memset(…, 0, …)`. -/
def Auth.zero : Auth := ⟨0, 0, List.replicate authMaxTokenSize 0⟩

/-- What `memcpy(…, auth, sizeof(n2n_auth_t))` copies. -/
def Auth.copied (a : Auth) : Auth := { a with token := a.token.take authMaxTokenSize }

/-- `n2n_common_t`. -/
structure Common where
  ttl : UInt8
  pc : UInt8
  flags : UInt16
  community : CommunityName
  deriving DecidableEq

/-- `n2n_REGISTER_t`. -/
structure Register where
  cookie : UInt32
  srcMac : Mac
  dstMac : Mac
  sock : Sock
  devAddr : IpSubnet
  devDesc : Desc
  deriving DecidableEq

/-- `n2n_REGISTER_ACK_t`. -/
structure RegisterAck where
  cookie : UInt32
  srcMac : Mac
  dstMac : Mac
  sock : Sock
  deriving DecidableEq

/-- `n2n_PACKET_t`. -/
structure Packet where
  srcMac : Mac
  dstMac : Mac
  sock : Sock
  transform : UInt8
  compression : UInt8
  deriving DecidableEq

/-- `n2n_REGISTER_SUPER_t`. -/
structure RegisterSuper where
  cookie : UInt32
  edgeMac : Mac
  sock : Sock
  devAddr : IpSubnet
  devDesc : Desc
  auth : Auth
  keyTime : UInt32
  deriving DecidableEq

/-- `n2n_REGISTER_SUPER_ACK_t`. -/
structure RegisterSuperAck where
  cookie : UInt32
  srcMac : Mac
  devAddr : IpSubnet
  lifetime : UInt16
  sock : Sock
  auth : Auth
  numSn : UInt8
  keyTime : UInt32
  deriving DecidableEq

/-- `n2n_REGISTER_SUPER_NAK_t`. -/
structure RegisterSuperNak where
  cookie : UInt32
  srcMac : Mac
  auth : Auth
  deriving DecidableEq

/-- `n2n_UNREGISTER_SUPER_t`. -/
structure UnregisterSuper where
  auth : Auth
  srcMac : Mac
  deriving DecidableEq

/-- `n2n_PEER_INFO_t`; `uptime` is a `time_t`. -/
structure PeerInfoMsg where
  aflags : UInt16
  srcMac : Mac
  mac : Mac
  sock : Sock
  preferredSock : Sock
  load : UInt32
  version : Version
  uptime : UInt64
  deriving DecidableEq

/-- `n2n_QUERY_PEER_t`. -/
structure QueryPeer where
  aflags : UInt16
  srcMac : Mac
  targetMac : Mac
  deriving DecidableEq

end N2n
