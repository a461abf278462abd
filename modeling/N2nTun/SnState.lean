import Mathlib.Data.Stream.Defs
import N2nTun.Lib.Table
import N2nTun.HeaderEncryption
import N2nTun.SnTcp
import N2nTun.TimeStamp

/-!
# The state of a supernode

The part of `n2n_sn_t` that the processing of packets works on, and the surroundings
it works in: what the kernel answers, the clock and the random numbers.  Pointers to
communities and peers are addresses in their tables.

A history records what has been sent, what has been written to each TCP connection
and which time stamps were accepted; no function of the program reads it.

## Main definitions

* `PeerInfo`, `Community`, `Sn` — the tables.
* `Env` — the surroundings.
* `World` — the supernode, its surroundings and the history.
-/

namespace N2n

open Bytes

/-! ### The tables -/

/-- `struct peer_info`, as far as a supernode uses it. -/
structure PeerInfo where
  macAddr : Mac
  devAddr : IpSubnet
  devDesc : Desc
  sock : Sock
  socketFd : ℤ
  preferredSock : Sock
  lastCookie : UInt32
  auth : Auth
  purgeable : Bool
  lastSeen : ℤ
  lastValidTimeStamp : UInt64
  /-- the MAC under which `HASH_ADD_PEER` has hashed the entry -/
  hashKey : Mac
  deriving DecidableEq

/-- A peer after `calloc`. -/
def PeerInfo.zero : PeerInfo where
  macAddr := nullMac
  devAddr := ⟨0, 0⟩
  devDesc := List.Vector.replicate 16 0
  sock := Sock.zero
  socketFd := 0
  preferredSock := Sock.zero
  lastCookie := 0
  auth := Auth.zero
  purgeable := false
  lastSeen := 0
  lastValidTimeStamp := 0
  hashKey := nullMac

/-- The MAC is written, and the entry is (again) hashed under it. -/
def PeerInfo.keyed (mac : Mac) (peer : PeerInfo) : PeerInfo :=
  { peer with macAddr := mac, hashKey := mac }

@[simp] theorem PeerInfo.keyed_sock (mac : Mac) (peer : PeerInfo) :
    (peer.keyed mac).sock = peer.sock := rfl

@[simp] theorem PeerInfo.keyed_auth (mac : Mac) (peer : PeerInfo) :
    (peer.keyed mac).auth = peer.auth := rfl

/-- The key of `HASH_FIND_PEER`. -/
def PeerInfo.hasMac (mac : Mac) (peer : PeerInfo) : Bool := peer.macAddr == mac

/-- `node_supernode_association_t`. -/
structure Assoc where
  mac : Mac
  sock : Sock
  lastSeen : ℤ
  deriving DecidableEq

/-- `sn_user_t`. -/
structure SnUser where
  publicKey : List UInt8
  sharedSecret : List UInt8
  sharedSecretCtx : SpeckContext
  deriving DecidableEq

/-- `header_encryption`. -/
inductive HeaderMode where
  | unknown
  | none
  | enabled
  deriving DecidableEq

/-- `struct sn_community`.  The `key` is the name the entry had when it was added to the
table of communities. -/
structure Community where
  community : CommunityName
  key : List UInt8
  isFederation : Bool
  purgeable : Bool
  headerEncryption : HeaderMode
  keys : HeaderKeys
  dynamicKey : List UInt8
  edges : Table PeerInfo
  assoc : Table Assoc
  allowedUsers : List SnUser
  numberEncPackets : ℤ
  autoIpNet : IpSubnet
  deriving DecidableEq

/-- A community after `calloc`. -/
def Community.zero : Community where
  community := List.Vector.replicate 20 0
  key := []
  isFederation := false
  purgeable := false
  headerEncryption := .unknown
  keys := .null
  dynamicKey := List.replicate authChallengeSize 0
  edges := .empty
  assoc := .empty
  allowedUsers := []
  numberEncPackets := 0
  autoIpNet := ⟨0, 0⟩

/-- The C string at the start of some bytes. -/
def cstr (p : List UInt8) : List UInt8 := p.takeWhile (· != 0)

/-- The key of `HASH_FIND_COMMUNITY`: the hash was taken of the key, and the name is
compared. -/
def Community.hasName (name : List UInt8) (comm : Community) : Bool :=
  comm.key == name && comm.community.toList.take name.length == name

/-- The user with the public key at the start of an authentication token. -/
def Community.findUser (comm : Community) (token : List UInt8) : Option SnUser :=
  comm.allowedUsers.reverse.find? (·.publicKey == slice token 0 privatePublicKeySize)

/-- `comm->allowed_users` is not `NULL`. -/
def Community.hasUsers (comm : Community) : Bool := !comm.allowedUsers.isEmpty

/-- A compiled rule for names of communities: the result of `re_matchp` on a name, and
the length of the match. -/
structure Rule where
  matchp : List UInt8 → ℤ × ℤ

/-- `n2n_sn_t`. -/
structure Sn where
  macAddr : Mac
  sock : ℤ
  tcpConnections : Table TcpConnection
  udpKcpCtrlConnections : List Sock
  udpKcpDataConnections : List Sock
  minAutoIpNet : IpSubnet
  maxAutoIpNet : IpSubnet
  lockCommunities : Bool
  communities : Table Community
  rules : List Rule
  federation : ℕ
  auth : Auth
  dynamicKeyTime : UInt32
  overrideSpoofingProtection : Bool
  startTime : ℤ
  version : Version

/-- A write to the community at an address. -/
def Sn.modifyComm (sss : Sn) (comm : ℕ) (f : Community → Community) : Sn :=
  { sss with communities := sss.communities.modify comm f }

/-- The edges of the community at an address. -/
def Sn.edges (sss : Sn) (comm : ℕ) : Table PeerInfo :=
  match sss.communities.get? comm with
  | some c => c.edges
  | none => .empty

/-- A write to the edges of a community. -/
def Sn.modifyEdges (sss : Sn) (comm : ℕ) (f : Table PeerInfo → Table PeerInfo) : Sn :=
  sss.modifyComm comm fun c => { c with edges := f c.edges }

/-- The descriptor is neither negative nor the socket of UDP. -/
def Sn.isTcp (sss : Sn) (fd : ℤ) : Bool := 0 ≤ fd && fd != sss.sock

/-- `HASH_FIND_INT` in the connections. -/
def Sn.findConn (sss : Sn) (fd : ℤ) : Option (ℕ × TcpConnection) :=
  sss.tcpConnections.find? (·.socketFd == fd)

/-- The descriptor belongs to a connection that has not been closed. -/
def Sn.isOpen (sss : Sn) (fd : ℤ) : Bool :=
  sss.tcpConnections.values.any fun conn => conn.socketFd == fd && !conn.inactive

/-! ### Surroundings -/

/-- What the kernel answers to `sendto`: an error, or how many bytes it takes at most;
and whether `errno` is set, which matters if nothing is sent. -/
structure SendResult where
  taken : Option ℕ
  errno : Bool
  deriving DecidableEq

/-- The bytes of `p` that are sent. -/
def SendResult.written (r : SendResult) (p : List UInt8) : List UInt8 := p.take (r.taken.getD 0)

/-- What `sendto` returns for `p`. -/
def SendResult.sent (r : SendResult) (p : List UInt8) : ℤ :=
  match r.taken with
  | none => -1
  | some n => (min n p.length : ℕ)

/-- `(sent <= 0) && (errno)`. -/
def SendResult.failed (r : SendResult) (p : List UInt8) : Bool :=
  r.sent p ≤ 0 && (r.errno || r.taken.isNone)

/-- The answers that are still to come: of `sendto`, of `ikcp_send` (whether the session
accepts the message), of `gettimeofday`, `n2n_rand`, `n2n_rand_sqr` and `time`. -/
structure Env where
  sends : Stream' SendResult
  kcpSends : Stream' Bool
  tods : Stream' Tod
  rands : Stream' UInt64
  randSqrs : Stream' ℕ
  times : Stream' ℤ

/-! ### Packets on their way out -/

/-- A packet: the bytes before the header was encrypted, and the bytes that are sent. -/
structure Pkt where
  plain : List UInt8
  bytes : List UInt8
  deriving DecidableEq

/-- A packet with a plain header. -/
def Pkt.ofPlain (p : List UInt8) : Pkt := ⟨p, p⟩

/-- Whom a packet is sent to: an entry of the table of edges of a community, the socket
of an association of a community, or back to where the received packet came from. -/
inductive Target where
  | entry (comm : ℕ)
  | assoc (comm : ℕ)
  | sender
  deriving DecidableEq

/-- A call of `sendto_sock`. -/
structure Emission where
  target : Target
  dest : Sock
  socketFd : ℤ
  pkt : Pkt
  deriving DecidableEq

/-- The supernode in its surroundings, the static variable of `time_stamp`, and the
history: the calls of `sendto_sock`, what has been written to the TCP connection on a
descriptor, the stamps of the packets accepted without jitter for a MAC of a community
since the edge with this MAC was registered, and the key times since the communities were
loaded, the first one and those accepted from other supernodes. -/
structure World where
  sss : Sn
  env : Env
  previouslyIssuedTimeStamp : UInt64
  emitted : List Emission
  written : ℤ → List UInt8
  accepted : ℕ → Mac → List UInt64
  keyTimes : List UInt32

namespace World

/-- `time_stamp`. -/
def timeStamp (w : World) : World × UInt64 :=
  let stamp := N2n.timeStamp w.previouslyIssuedTimeStamp w.env.tods.head
  ({ w with
    env := { w.env with tods := w.env.tods.tail }
    previouslyIssuedTimeStamp := stamp }, stamp)

/-- `n2n_rand`. -/
def rand (w : World) : World × UInt64 :=
  ({ w with env := { w.env with rands := w.env.rands.tail } }, w.env.rands.head)

/-- `n2n_rand_sqr`. -/
def randSqr (w : World) : World × ℕ :=
  ({ w with env := { w.env with randSqrs := w.env.randSqrs.tail } }, w.env.randSqrs.head)

/-- `time(NULL)`. -/
def time (w : World) : World × ℤ :=
  ({ w with env := { w.env with times := w.env.times.tail } }, w.env.times.head)

/-- A key time is accepted. -/
def noteKeyTime (w : World) (keyTime : UInt32) : World :=
  { w with keyTimes := w.keyTimes ++ [keyTime] }

/-- The communities are loaded, with a first key time. -/
def restartKeyTimes (w : World) (keyTime : UInt32) : World := { w with keyTimes := [keyTime] }

/-- A change of the supernode. -/
def setSss (w : World) (f : Sn → Sn) : World := { w with sss := f w.sss }

end World

/-! ### A supernode to start from -/

/-- A supernode that listens on descriptor 3 and serves nobody. -/
def idleSn : Sn where
  macAddr := ⟨[2, 0, 0, 0, 0, 255], rfl⟩
  sock := 3
  tcpConnections := .empty
  udpKcpCtrlConnections := []
  udpKcpDataConnections := []
  minAutoIpNet := ⟨0x0a800000, 24⟩
  maxAutoIpNet := ⟨0x0aff0000, 24⟩
  lockCommunities := false
  communities := .empty
  rules := []
  federation := 0
  auth := ⟨1, 16, List.replicate authMaxTokenSize 0⟩
  dynamicKeyTime := 0
  overrideSpoofingProtection := false
  startTime := 0
  version := List.Vector.replicate 20 0

/-- An IPv4 socket on the host 192.0.2.`h`. -/
def hostSock (h : UInt8) (port : UInt16) : Sock :=
  ⟨afInet, 0, port, ⟨[192, 0, 2, h] ++ List.replicate 12 0, rfl⟩⟩

/-- Surroundings in which everything succeeds and the clock shows 100 seconds. -/
def quietEnv : Env where
  sends := Stream'.const ⟨some 65536, false⟩
  kcpSends := Stream'.const true
  tods := Stream'.const ⟨100, 0⟩
  rands := Stream'.const 1
  randSqrs := Stream'.const 0
  times := Stream'.const 100

/-- The supernode `sss`, with nothing sent yet. -/
def World.start (sss : Sn) : World := 
  ⟨sss, quietEnv, 0, [], fun _ => [], fun _ _ => [], [sss.dynamicKeyTime]⟩

end N2n
