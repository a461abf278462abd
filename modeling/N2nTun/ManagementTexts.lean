import N2nTun.EdgeManagement
import N2nTun.Lib.Printf
import N2nTun.SnSelection

/-!
# The texts of the management replies

What `snprintf` makes for the replies of `management.c`, `edge_management.c` and `sn_management.c`:
the formats, and the fields of the program that go into them.  The length of such a text is what
`send_reply` gets.

## Main definitions

* `AddressTexts` — what the C library and the build say.
* `macaddrStr`, `sockToCstr`, `ipSubnetToStr`, `snSelectionCriterionStr` — texts of their own
  buffers.
* `PeerRow`, `EdgeView`, `SnView` — what the rows show.
* `genJson1str`, `eventPeer`, `EdgeView.edgesRow`, … — the formats.

## Main results

* `EdgeView.edgesRow_fits_iff`, … — when a row that shows a description or a version fits.
* `EdgeView.edgesRowFits_of_length_le`, … — **one that ends within 2900 bytes always has room.**
* `eventTest_fits_iff`, `eventPeer_fits_iff` — when an event fits.
-/

namespace N2n

open Bytes Tokens Printf

/-! ### Addresses -/

/-- What `getnameinfo` puts into `host[40]` and `serv[6]`. -/
structure HostServ where
  host : List UInt8
  serv : List UInt8
  host_length : host.length < 40
  serv_length : serv.length < 6

/-- What the C library makes of addresses, and `PACKAGE_VERSION`, which the build defines. -/
structure AddressTexts where
  /-- `inet_ntop` of an IPv6 address; empty if it fails -/
  inetNtop : List.Vector UInt8 16 → List UInt8
  /-- `getnameinfo` of the socket of a subscriber -/
  getnameinfo : Sock → Option HostServ
  packageVersion : List UInt8

/-- `macaddr_str`. -/
def macaddrStr (mac : Mac) : List UInt8 :=
  snprintf 32 (printf ["%02X:%02X:%02X:%02X:%02X:%02X"] (mac.toList.map hexByte))

/-- What the rows show of a MAC address. -/
def macText (mac : Mac) : List UInt8 := if isNullMac mac then [] else macaddrStr mac

/-- `sock_to_cstr`. -/
def sockToCstr (lib : AddressTexts) (sock : Sock) : List UInt8 :=
  if sock.family = afInet6 then
    snprintf 64 (printf ["[%s]:%hu"] [lib.inetNtop sock.addr, decimal sock.port.toNat])
  else
    snprintf 64 (printf ["%hu.%hu.%hu.%hu:%hu"]
      ((sock.addr.toList.take 4).map (fun a => decimal a.toNat) ++ [decimal sock.port.toNat]))

/-- `ip_subnet_to_str`. -/
def ipSubnetToStr (ipaddr : IpSubnet) : List UInt8 :=
  snprintf 20 (printf ["%hhu.%hhu.%hhu.%hhu/%hhu"]
    [decimal (ipaddr.netAddr >>> 24 &&& 0xff).toNat, decimal (ipaddr.netAddr >>> 16 &&& 0xff).toNat,
      decimal (ipaddr.netAddr >>> 8 &&& 0xff).toNat, decimal (ipaddr.netAddr &&& 0xff).toNat,
      decimal ipaddr.netBitlen.toNat])

/-- What the rows show of a subnet. -/
def subnetText (ipaddr : IpSubnet) : List UInt8 :=
  if ipaddr.netAddr = 0 then [] else ipSubnetToStr ipaddr

/-- `inaddrtoa`, for the four bytes of an address. -/
def inaddrtoa (addr : List.Vector UInt8 4) : List UInt8 :=
  snprintf 16 (printf ["%u.%u.%u.%u"] (addr.toList.map fun a => decimal a.toNat))

/-- `sn_selection_criterion_str`: empty for the very large values, and for a strategy that does not
exist. -/
def snSelectionCriterionStr (strategy : Option SnSelectionStrategy) (current : Bool)
    (criterion : UInt64) : List UInt8 :=
  if criterion < (0xffffffffffffffff : UInt64) >>> 2 then
    let value := signed criterion.toInt64.toInt
    match strategy with
    | some .load => snprintf 16 (printf ["load = %8ld"] [padded 8 value])
    | some .rtt => snprintf 16 (printf ["rtt = %6ld ms"] [padded 6 value])
    | some .mac =>
      snprintf 16 (if 0 < criterion.toInt64 then ascii (if current then "active" else "standby")
        else [])
    | none => []
  else []

/-! ### The programs -/

/-- `struct peer_info`, as far as the rows show it.  `dev_desc` and `version` come from the network,
where they need not end in a zero: they are shown together with the memory behind them. -/
structure PeerRow where
  macAddr : Mac
  devAddr : IpSubnet
  devDesc : Desc
  behindDesc : List UInt8
  sock : Sock
  socketFd : Int32
  purgeable : Bool
  lastSeen : Int64
  lastP2p : Int64
  lastSentQuery : Int64
  selectionCriterion : UInt64
  /-- `local` -/
  isLocal : UInt8
  uptime : Int64
  version : Version
  behindVersion : List UInt8

namespace PeerRow

variable (peer : PeerRow)

/-- What `%s` shows of `dev_desc`. -/
def desc : List UInt8 := cstr (peer.devDesc.toList ++ peer.behindDesc)

/-- What `%s` shows of `version`. -/
def versionText : List UInt8 := cstr (peer.version.toList ++ peer.behindVersion)

end PeerRow

/-- The edge, as far as the rows show it. -/
structure EdgeView where
  /-- `conf.community_name`, which is set with a zero at its end -/
  communityName : CommunityName
  /-- `conf.header_encryption` -/
  headerEncryption : HeaderMode
  /-- `conf.supernodes` -/
  supernodes : List PeerRow
  /-- `conf.sn_selection_strategy` -/
  strategy : Option SnSelectionStrategy
  /-- `conf.preferred_sock` -/
  preferredSock : Sock
  /-- where `curr_sn` is in the list -/
  currSn : ℕ
  snWait : Bool
  pendingPeers : List PeerRow
  knownPeers : List PeerRow
  macAddr : Mac
  ipAddr : List.Vector UInt8 4
  deviceMask : List.Vector UInt8 4
  startTime : UInt64
  lastSup : Int64
  lastP2p : Int64
  /-- `transop.tx_cnt` and `transop.rx_cnt` -/
  transop : UInt64 × UInt64
  /-- `stats.tx_p2p` and `stats.rx_p2p` -/
  p2p : UInt32 × UInt32
  /-- `stats.tx_sup` and `stats.rx_sup` -/
  sup : UInt32 × UInt32
  /-- `stats.tx_sup_broadcast` and `stats.rx_sup_broadcast` -/
  supBroadcast : UInt32 × UInt32

/-- A community of a supernode, as far as the rows show it. -/
structure CommunityView where
  community : CommunityName
  isFederation : UInt8
  purgeable : Bool
  autoIpNet : IpSubnet
  edges : List PeerRow

/-- The supernode, as far as the rows show it. -/
structure SnView where
  sock : Int32
  communities : List CommunityView
  startTime : UInt64
  lastFwd : Int64
  lastRegSuper : Int64
  fwd : UInt64
  broadcast : UInt64
  regSuper : UInt64
  regSuperNak : UInt64
  errors : UInt64

/-! ### Formats -/

/-- The formats of the replies: first those that both programs have, and that of the event, then
those for the rows of an edge, and of a supernode. -/
inductive ReplyFormat where
  | json1str
  | json1uint
  | helpRow
  | helpEventsRow
  | eventPeer
  | edgeSupernodes
  | edgeEdges
  | edgeInfo
  | edgeTimestamps
  | edgePacketstats
  | snTimestamps
  | snPacketstats
  | snRegSuper
  | snCommunities
  | snEdges

namespace ReplyFormat

/-- The lines of a format. -/
def lines : ReplyFormat → List String
  | .json1str =>
    ["\x7b", "\"_tag\":\"%s\",", "\"_type\":\"%s\",", "\"%s\":\"%s\"\x7d\n"]
  | .json1uint =>
    ["\x7b", "\"_tag\":\"%s\",", "\"_type\":\"%s\",", "\"%s\":%u\x7d\n"]
  | .helpRow =>
    ["\x7b", "\"_tag\":\"%s\",", "\"_type\":\"row\",", "\"cmd\":\"%s\",", "\"help\":\"%s\"\x7d\n"]
  | .helpEventsRow =>
    ["\x7b", "\"_tag\":\"%s\",", "\"_type\":\"row\",", "\"topic\":\"%s\",", "\"tag\":\"%s\",",
      "\"sockaddr\":\"%s:%s\",", "\"help\":\"%s\"\x7d\n"]
  | .eventPeer =>
    ["\x7b", "\"_tag\":\"%s\",", "\"_type\":\"event\",", "\"action\":%i,", "\"macaddr\":\"%s\",",
      "\"sockaddr\":\"%s\"\x7d\n"]
  | .edgeSupernodes =>
    ["\x7b", "\"_tag\":\"%s\",", "\"_type\":\"row\",", "\"version\":\"%s\",", "\"purgeable\":%i,",
      "\"current\":%i,", "\"macaddr\":\"%s\",", "\"sockaddr\":\"%s\",", "\"selection\":\"%s\",",
      "\"last_seen\":%li,", "\"uptime\":%li\x7d\n"]
  | .edgeEdges =>
    ["\x7b", "\"_tag\":\"%s\",", "\"_type\":\"row\",", "\"mode\":\"%s\",", "\"ip4addr\":\"%s\",",
      "\"purgeable\":%i,", "\"local\":%i,", "\"macaddr\":\"%s\",", "\"sockaddr\":\"%s\",",
      "\"desc\":\"%s\",", "\"last_p2p\":%li,\n", "\"last_sent_query\":%li,\n",
      "\"last_seen\":%li\x7d\n"]
  | .edgeInfo =>
    ["\x7b", "\"_tag\":\"%s\",", "\"_type\":\"row\",", "\"version\":\"%s\",", "\"macaddr\":\"%s\",",
      "\"ip4addr\":\"%s\",", "\"ip4netmask\":\"%s\",", "\"sockaddr\":\"%s\"\x7d\n"]
  | .edgeTimestamps =>
    ["\x7b", "\"_tag\":\"%s\",", "\"_type\":\"row\",", "\"start_time\":%lu,", "\"last_super\":%ld,",
      "\"last_p2p\":%ld\x7d\n"]
  | .edgePacketstats =>
    ["\x7b", "\"_tag\":\"%s\",", "\"_type\":\"row\",", "\"type\":\"%s\",", "\"tx_pkt\":%lu,",
      "\"rx_pkt\":%lu\x7d\n"]
  | .snTimestamps =>
    ["\x7b", "\"_tag\":\"%s\",", "\"_type\":\"row\",", "\"start_time\":%lu,", "\"last_fwd\":%ld,",
      "\"last_reg_super\":%ld\x7d\n"]
  | .snPacketstats =>
    ["\x7b", "\"_tag\":\"%s\",", "\"_type\":\"row\",", "\"type\":\"%s\",", "\"tx_pkt\":%lu\x7d\n"]
  | .snRegSuper =>
    ["\x7b", "\"_tag\":\"%s\",", "\"_type\":\"row\",", "\"type\":\"reg_super\",", "\"rx_pkt\":%lu,",
      "\"nak\":%lu\x7d\n"]
  | .snCommunities =>
    ["\x7b", "\"_tag\":\"%s\",", "\"_type\":\"row\",", "\"community\":\"%s\",", "\"purgeable\":%i,",
      "\"is_federation\":%i,", "\"ip4addr\":\"%s\"\x7d\n"]
  | .snEdges =>
    ["\x7b", "\"_tag\":\"%s\",", "\"_type\":\"row\",", "\"community\":\"%s\",",
      "\"ip4addr\":\"%s\",", "\"purgeable\":%i,", "\"macaddr\":\"%s\",", "\"sockaddr\":\"%s\",",
      "\"proto\":\"%s\",", "\"desc\":\"%s\",", "\"last_seen\":%li\x7d\n"]

/-- The text of a format and its arguments. -/
def text (f : ReplyFormat) (args : List (List UInt8)) : List UInt8 := printf f.lines args

/-- How many characters a format has outside of its conversions. -/
def fixed : ReplyFormat → ℕ
  | .json1str => 29
  | .json1uint => 27
  | .helpRow => 45
  | .helpEventsRow => 71
  | .eventPeer => 65
  | .edgeSupernodes => 128
  | .edgeEdges => 154
  | .edgeInfo => 95
  | .edgeTimestamps => 66
  | .edgePacketstats => 56
  | .snTimestamps => 70
  | .snPacketstats => 46
  | .snRegSuper => 62
  | .snCommunities => 84
  | .snEdges => 128

/-- How many arguments a format has. -/
def arity : ReplyFormat → ℕ
  | .json1str => 4
  | .json1uint => 4
  | .helpRow => 3
  | .helpEventsRow => 6
  | .eventPeer => 4
  | .edgeSupernodes => 9
  | .edgeEdges => 11
  | .edgeInfo => 6
  | .edgeTimestamps => 4
  | .edgePacketstats => 4
  | .snTimestamps => 4
  | .snPacketstats => 3
  | .snRegSuper => 3
  | .snCommunities => 5
  | .snEdges => 9

theorem shape (f : ReplyFormat) : fixedLength false (chars f.lines) = f.fixed ∧
    conversions false (chars f.lines) = f.arity := by
  cases f <;> decide +kernel

theorem length_text {f : ReplyFormat} {args : List (List UInt8)} (h : args.length = f.arity) :
    (f.text args).length = f.fixed + total args := length_printf f.shape.1 f.shape.2 h

theorem fixed_le (f : ReplyFormat) : f.fixed ≤ 154 := by
  cases f <;> decide

end ReplyFormat

/-! ### The replies of both programs -/

/-- `gen_json_1str`. -/
def genJson1str (tag type key val : List UInt8) : List UInt8 :=
  ReplyFormat.text .json1str
    [tag, type, key, val]

/-- `gen_json_1uint`. -/
def genJson1uint (tag type key : List UInt8) (val : UInt32) : List UInt8 :=
  ReplyFormat.text .json1uint
    [tag, type, key, decimal val.toNat]

/-- `mgmt_help_row`. -/
def mgmtHelpRow (tag cmd help : List UInt8) : List UInt8 :=
  ReplyFormat.text .helpRow
    [tag, cmd, help]

/-- `mgmt_help_events_row`: a question mark for a topic without a subscriber. -/
def mgmtHelpEventsRow (lib : AddressTexts) (tag cmd subTag : List UInt8) (subSock : Option Sock)
    (help : List UInt8) : List UInt8 :=
  let name : HostServ :=
    (subSock.bind lib.getnameinfo).getD ⟨ascii "?", ascii "?", by decide, by decide⟩
  ReplyFormat.text .helpEventsRow
    [tag, cmd, subTag, name.host, name.serv, help]

/-! ### Events -/

/-- An event, with `data0` and `data1`. -/
inductive MgmtEvent where
  | debug
  | test (arg : List UInt8)
  | peer (action : Int32) (peer : PeerRow)

/-- The topic of an event. -/
def MgmtEvent.topic : MgmtEvent → EventTopic
  | .debug => .debug
  | .test _ => .test
  | .peer _ _ => .peer

/-- `event_test`. -/
def eventTest (tag arg : List UInt8) : List UInt8 :=
  genJson1str tag (ascii "event") (ascii "test") arg

/-- `event_peer`. -/
def eventPeer (lib : AddressTexts) (tag : List UInt8) (action : Int32) (peer : PeerRow) :
    List UInt8 :=
  ReplyFormat.text .eventPeer
    [tag, signed action.toInt, macText peer.macAddr, sockToCstr lib peer.sock]

/-- `mgmt_events`: the text that an event is given; `event_debug` gives none. -/
def MgmtEvent.text (lib : AddressTexts) (tag : List UInt8) : MgmtEvent → List UInt8
  | .debug => []
  | .test arg => eventTest tag arg
  | .peer action p => eventPeer lib tag action p

/-! ### The rows of an edge -/

namespace EdgeView

variable (v : EdgeView) (lib : AddressTexts) (tag : List UInt8)

/-- A row of `mgmt_supernodes`, for the supernode at a place of the list. -/
def supernodesRow (i : ℕ) (peer : PeerRow) : List UInt8 :=
  let current := i == v.currSn
  ReplyFormat.text .edgeSupernodes
    [tag, peer.versionText, decimal peer.purgeable.toNat,
      decimal (if current then (if v.snWait then 2 else 1) else 0), macText peer.macAddr,
      sockToCstr lib peer.sock, snSelectionCriterionStr v.strategy current peer.selectionCriterion,
      signed peer.lastSeen.toInt, signed peer.uptime.toInt]

/-- `mgmt_edges_row`. -/
def edgesRow (mode : String) (peer : PeerRow) : List UInt8 :=
  ReplyFormat.text .edgeEdges
    [tag, ascii mode, subnetText peer.devAddr, decimal peer.purgeable.toNat,
      decimal peer.isLocal.toNat, macText peer.macAddr, sockToCstr lib peer.sock, peer.desc,
      signed peer.lastP2p.toInt, signed peer.lastSentQuery.toInt, signed peer.lastSeen.toInt]

/-- `mgmt_edge_info`. -/
def infoRow : List UInt8 :=
  ReplyFormat.text .edgeInfo
    [tag, lib.packageVersion, macText v.macAddr, inaddrtoa v.ipAddr, inaddrtoa v.deviceMask,
      sockToCstr lib v.preferredSock]

/-- `mgmt_timestamps`. -/
def timestampsRow : List UInt8 :=
  ReplyFormat.text .edgeTimestamps
    [tag, decimal v.startTime.toNat, signed v.lastSup.toInt, signed v.lastP2p.toInt]

/-- A row of `mgmt_packetstats`: the four formats differ in the type. -/
def packetstatsRow (type : String) (tx rx : UInt64) : List UInt8 :=
  ReplyFormat.text .edgePacketstats
    [tag, ascii type, decimal tx.toNat, decimal rx.toNat]

/-- `mgmt_packetstats`. -/
def packetstats : List (List UInt8) :=
  [packetstatsRow tag "transop" v.transop.1 v.transop.2,
    packetstatsRow tag "p2p" v.p2p.1.toUInt64 v.p2p.2.toUInt64,
    packetstatsRow tag "super" v.sup.1.toUInt64 v.sup.2.toUInt64,
    packetstatsRow tag "super_broadcast" v.supBroadcast.1.toUInt64 v.supBroadcast.2.toUInt64]

/-- `mgmt_communities`. -/
def communities : List (List UInt8) :=
  if v.headerEncryption ≠ .none then
    [genJson1str tag (ascii "error") (ascii "error") (ascii "noaccess")]
  else [genJson1str tag (ascii "row") (ascii "community") (cstr v.communityName.toList)]

/-- The rows that a command lists. -/
def rows : String → List (List UInt8)
  | "communities" => v.communities tag
  | "edges" =>
    v.pendingPeers.map (edgesRow lib tag "pSp") ++ v.knownPeers.map (edgesRow lib tag "p2p")
  | "supernodes" => v.supernodes.mapIdx fun i peer => v.supernodesRow lib tag i peer
  | "info" => [v.infoRow lib tag]
  | "timestamps" => [v.timestampsRow tag]
  | "packetstats" => v.packetstats tag
  | _ => []

end EdgeView

/-! ### The rows of a supernode -/

namespace SnView

variable (v : SnView) (lib : AddressTexts) (tag : List UInt8)

/-- `mgmt_timestamps`. -/
def timestampsRow : List UInt8 :=
  ReplyFormat.text .snTimestamps
    [tag, decimal v.startTime.toNat, signed v.lastFwd.toInt, signed v.lastRegSuper.toInt]

/-- A row of `mgmt_packetstats`: three of the formats differ in the type. -/
def packetstatsRow (type : String) (tx : UInt64) : List UInt8 :=
  ReplyFormat.text .snPacketstats
    [tag, ascii type, decimal tx.toNat]

/-- The row of `mgmt_packetstats` for the registrations. -/
def regSuperRow : List UInt8 :=
  ReplyFormat.text .snRegSuper
    [tag, decimal v.regSuper.toNat, decimal v.regSuperNak.toNat]

/-- `mgmt_packetstats`. -/
def packetstats : List (List UInt8) :=
  [packetstatsRow tag "forward" v.fwd, packetstatsRow tag "broadcast" v.broadcast,
    v.regSuperRow tag, packetstatsRow tag "errors" v.errors]

/-- What the rows show of the name of a community. -/
def communityText (community : CommunityView) : List UInt8 :=
  if community.isFederation ≠ 0 then ascii "-/-"
  else
    -- a name that fills its field ends with `is_federation`
    cstr (community.community.toList ++ [community.isFederation])

/-- A row of `mgmt_communities`. -/
def communitiesRow (community : CommunityView) : List UInt8 :=
  ReplyFormat.text .snCommunities
    [tag, communityText community, decimal community.purgeable.toNat,
      decimal community.isFederation.toNat, subnetText community.autoIpNet]

/-- A row of `mgmt_edges`. -/
def edgesRow (community : CommunityView) (peer : PeerRow) : List UInt8 :=
  ReplyFormat.text .snEdges
    [tag, communityText community, subnetText peer.devAddr, decimal peer.purgeable.toNat,
      macText peer.macAddr, sockToCstr lib peer.sock,
      ascii (if 0 ≤ peer.socketFd ∧ peer.socketFd ≠ v.sock then "TCP" else "UDP"), peer.desc,
      signed peer.lastSeen.toInt]

/-- The rows that a command lists. -/
def rows : String → List (List UInt8)
  | "communities" => v.communities.map (communitiesRow tag)
  | "edges" => v.communities.flatMap fun c => c.edges.map (v.edgesRow lib tag c)
  | "timestamps" => [v.timestampsRow tag]
  | "packetstats" => v.packetstats tag
  | _ => []

end SnView

/-! ### How long the texts are -/

/-- `buf->size` when `STRBUF_INIT` puts a buffer into so many bytes: the size itself takes eight. -/
def strbufSize (buflen : ℕ) : ℕ := buflen - 8

/-- The size of the buffer that the replies of both programs are written to. -/
def replySize : ℕ := strbufSize mgmtBufSize

/-- The size of the buffer of `mgmt_event_post2`. -/
def eventSize : ℕ := strbufSize 100

/-- An argument that no format can make too long. -/
def Short (a : List UInt8) : Prop := a.length ≤ 100

instance (a : List UInt8) : Decidable (Short a) := inferInstanceAs (Decidable (a.length ≤ 100))

theorem short_snprintf {size : ℕ} (h : size ≤ 100) (text : List UInt8) :
    Short (snprintf size text) := (length_snprintf_le size text).trans ((Nat.sub_le _ _).trans h)

theorem short_decimal {n : ℕ} (h : n < 2 ^ 64) : Short (decimal n) :=
  (length_decimal_le (k := 20) (by omega) (by decide)).trans (by decide)

theorem short_signed {v : ℤ} (h : v.natAbs < 10 ^ 20) : Short (signed v) :=
  (length_signed_le h (by decide)).trans (by decide)

theorem short_int64 (v : Int64) : Short (signed v.toInt) := by
  have hlt := v.toInt_lt
  have hge := v.le_toInt
  exact short_signed (by omega)

theorem short_macText (mac : Mac) : Short (macText mac) := by
  unfold macText
  split_ifs
  · exact Nat.zero_le _
  · exact short_snprintf (by decide) _

theorem short_sockToCstr (lib : AddressTexts) (sock : Sock) : Short (sockToCstr lib sock) := by
  unfold sockToCstr
  split_ifs <;> exact short_snprintf (by decide) _

theorem short_subnetText (ipaddr : IpSubnet) : Short (subnetText ipaddr) := by
  unfold subnetText
  split_ifs
  · exact Nat.zero_le _
  · exact short_snprintf (by decide) _

theorem short_criterion (strategy : Option SnSelectionStrategy) (current : Bool)
    (criterion : UInt64) : Short (snSelectionCriterionStr strategy current criterion) := by
  unfold snSelectionCriterionStr
  by_cases hsmall : criterion < (0xffffffffffffffff : UInt64) >>> 2
  · rw [if_pos hsmall]
    cases strategy with
    | none => exact Nat.zero_le _
    | some strategy => cases strategy <;> exact short_snprintf (by decide) _
  · rw [if_neg hsmall]
    exact Nat.zero_le _

/-- The name of a community that is shown fills its field at most. -/
theorem short_communityText (community : CommunityView) :
    Short (SnView.communityText community) := by
  unfold SnView.communityText
  split_ifs
  · exact (by decide : (ascii "-/-").length ≤ 100)
  · unfold Short cstr
    refine (List.takeWhile_prefix _).length_le.trans ?_
    simp

/-- A text of short arguments fits. -/
theorem fits_of_short {f : ReplyFormat} {args : List (List UInt8)} (hlen : args.length = f.arity)
    (h : ∀ a ∈ args, Short a) : (f.text args).length ≤ replySize := by
  have htext := ReplyFormat.length_text hlen
  have htotal := total_le h
  have hfixed := f.fixed_le
  have harity : f.arity ≤ 11 := by cases f <;> decide
  have hsize : replySize = 4088 := rfl
  omega

section

variable {tag : List UInt8} (lib : AddressTexts)

theorem fits_genJson1str {type key val : List UInt8} (htag : Short tag) (htype : Short type)
    (hkey : Short key) (hval : Short val) : (genJson1str tag type key val).length ≤ replySize :=
  fits_of_short rfl (by simp [*])

theorem fits_genJson1uint {type key : List UInt8} (htag : Short tag) (htype : Short type)
    (hkey : Short key) (val : UInt32) : (genJson1uint tag type key val).length ≤ replySize := by
  have hval : Short (decimal val.toNat) :=
    short_decimal (val.toNat_lt.trans_le (by decide))
  exact fits_of_short rfl (by simp [*])

theorem fits_mgmtHelpRow {cmd help : List UInt8} (htag : Short tag) (hcmd : Short cmd)
    (hhelp : Short help) : (mgmtHelpRow tag cmd help).length ≤ replySize :=
  fits_of_short rfl (by simp [*])

theorem fits_mgmtHelpEventsRow {cmd subTag help : List UInt8} (htag : Short tag)
    (hcmd : Short cmd) (hsub : Short subTag) (subSock : Option Sock) (hhelp : Short help) :
    (mgmtHelpEventsRow lib tag cmd subTag subSock help).length ≤ replySize := by
  unfold mgmtHelpEventsRow
  generalize (subSock.bind lib.getnameinfo).getD _ = name
  have hhost : Short name.host := name.host_length.le.trans (by decide)
  have hserv : Short name.serv := name.serv_length.le.trans (by decide)
  exact fits_of_short rfl (by simp [*])

/-- A test event fits if the tag and the text of the event have 54 bytes together. -/
theorem eventTest_fits_iff (arg : List UInt8) :
    (eventTest tag arg).length ≤ eventSize ↔ tag.length + arg.length ≤ 54 := by
  have hlen : (eventTest tag arg).length = 29 + total [tag, ascii "event", ascii "test", arg] :=
    ReplyFormat.length_text rfl
  have hargs : total [tag, ascii "event", ascii "test", arg] =
      tag.length + (5 + (4 + (arg.length + 0))) := rfl
  have hsize : eventSize = 92 := rfl
  omega

/-- A peer event fits if what it shows has 27 bytes together. -/
theorem eventPeer_fits_iff (action : Int32) (peer : PeerRow) :
    (eventPeer lib tag action peer).length ≤ eventSize ↔
      tag.length + (signed action.toInt).length + (macText peer.macAddr).length +
        (sockToCstr lib peer.sock).length ≤ 27 := by
  have hlen : (eventPeer lib tag action peer).length =
      65 + total [tag, signed action.toInt, macText peer.macAddr, sockToCstr lib peer.sock] :=
    ReplyFormat.length_text rfl
  simp only [total_cons, total_nil] at hlen
  have hsize : eventSize = 92 := rfl
  omega

end

/-! ### The rows that always fit -/

section

variable {tag : List UInt8}

theorem short_toNat (n : UInt64) : Short (decimal n.toNat) := short_decimal n.toNat_lt

theorem EdgeView.fits_timestampsRow (v : EdgeView) (htag : Short tag) :
    (v.timestampsRow tag).length ≤ replySize :=
  fits_of_short rfl (by simp [htag, short_toNat, short_int64])

theorem EdgeView.fits_packetstatsRow {type : String} (htag : Short tag)
    (htype : Short (ascii type)) (tx rx : UInt64) :
    (packetstatsRow tag type tx rx).length ≤ replySize :=
  fits_of_short rfl (by simp [htag, htype, short_toNat])

theorem EdgeView.fits_packetstats (v : EdgeView) (htag : Short tag) :
    ∀ text ∈ v.packetstats tag, text.length ≤ replySize := by
  unfold packetstats
  simp only [List.forall_mem_cons, List.not_mem_nil, false_imp_iff, implies_true, and_true]
  exact ⟨fits_packetstatsRow htag (by decide) _ _,
    fits_packetstatsRow htag (by decide) _ _,
    fits_packetstatsRow htag (by decide) _ _,
    fits_packetstatsRow htag (by decide) _ _⟩

theorem EdgeView.fits_communities (v : EdgeView) (htag : Short tag) :
    ∀ text ∈ v.communities tag, text.length ≤ replySize := by
  have hname : Short (cstr v.communityName.toList) := by
    unfold Short cstr
    refine (List.takeWhile_prefix _).length_le.trans ?_
    simp
  unfold communities
  split_ifs
  · exact List.forall_mem_singleton.mpr
      (fits_genJson1str htag (by decide) (by decide) (by decide))
  · exact List.forall_mem_singleton.mpr
      (fits_genJson1str htag (by decide) (by decide) hname)

theorem SnView.fits_timestampsRow (v : SnView) (htag : Short tag) :
    (v.timestampsRow tag).length ≤ replySize :=
  fits_of_short rfl (by simp [htag, short_toNat, short_int64])

theorem SnView.fits_packetstatsRow {type : String} (htag : Short tag)
    (htype : Short (ascii type)) (tx : UInt64) : (packetstatsRow tag type tx).length ≤ replySize :=
  fits_of_short rfl (by simp [htag, htype, short_toNat])

theorem SnView.fits_packetstats (v : SnView) (htag : Short tag) :
    ∀ text ∈ v.packetstats tag, text.length ≤ replySize := by
  have hreg : (v.regSuperRow tag).length ≤ replySize :=
    fits_of_short rfl (by simp [htag, short_toNat])
  unfold packetstats
  simp only [List.forall_mem_cons, List.not_mem_nil, false_imp_iff, implies_true, and_true]
  exact ⟨fits_packetstatsRow htag (by decide) _,
    fits_packetstatsRow htag (by decide) _, hreg,
    fits_packetstatsRow htag (by decide) _⟩

theorem SnView.fits_communitiesRow (htag : Short tag) (community : CommunityView) :
    (communitiesRow tag community).length ≤ replySize := by
  have hpurgeable : Short (decimal community.purgeable.toNat) :=
    short_decimal ((Bool.toNat_lt _).trans (by decide))
  have hfederation : Short (decimal community.isFederation.toNat) :=
    short_decimal (community.isFederation.toNat_lt.trans (by decide))
  exact fits_of_short rfl
    (by simp [htag, hpurgeable, hfederation, short_communityText, short_subnetText])

end

/-! ### The rows that show what came from elsewhere -/

section

variable (lib : AddressTexts) (tag : List UInt8) (peer : PeerRow)

/-- The row of a supernode has room for its version. -/
def EdgeView.SupernodesRowFits (v : EdgeView) (i : ℕ) : Prop :=
  peer.versionText.length +
    total [tag, decimal peer.purgeable.toNat,
      decimal (if i = v.currSn then (if v.snWait then 2 else 1) else 0), macText peer.macAddr,
      sockToCstr lib peer.sock,
      snSelectionCriterionStr v.strategy (i == v.currSn) peer.selectionCriterion,
      signed peer.lastSeen.toInt, signed peer.uptime.toInt] ≤ 3960

/-- The row of an edge has room for its description. -/
def EdgeView.EdgesRowFits (mode : String) : Prop :=
  peer.desc.length +
    total [tag, ascii mode, subnetText peer.devAddr, decimal peer.purgeable.toNat,
      decimal peer.isLocal.toNat, macText peer.macAddr, sockToCstr lib peer.sock,
      signed peer.lastP2p.toInt, signed peer.lastSentQuery.toInt, signed peer.lastSeen.toInt] ≤ 3934

/-- The row about the edge itself has room for the version. -/
def EdgeView.InfoFits (v : EdgeView) : Prop :=
  lib.packageVersion.length +
    total [tag, macText v.macAddr, inaddrtoa v.ipAddr, inaddrtoa v.deviceMask,
      sockToCstr lib v.preferredSock] ≤ 3993

/-- The row of an edge of a supernode has room for its description. -/
def SnView.EdgesRowFits (v : SnView) (community : CommunityView) : Prop :=
  peer.desc.length +
    total [tag, communityText community, subnetText peer.devAddr, decimal peer.purgeable.toNat,
      macText peer.macAddr, sockToCstr lib peer.sock,
      ascii (if 0 ≤ peer.socketFd ∧ peer.socketFd ≠ v.sock then "TCP" else "UDP"),
      signed peer.lastSeen.toInt] ≤ 3960

variable {lib tag peer}

theorem EdgeView.supernodesRow_fits_iff {v : EdgeView} {i : ℕ} :
    (v.supernodesRow lib tag i peer).length ≤ replySize ↔ v.SupernodesRowFits lib tag peer i := by
  have hlen : (v.supernodesRow lib tag i peer).length = 128 + total _ :=
    ReplyFormat.length_text rfl
  have hsize : replySize = 4088 := rfl
  unfold SupernodesRowFits
  simp only [total_cons, total_nil, beq_iff_eq] at hlen ⊢
  omega

theorem EdgeView.edgesRow_fits_iff {mode : String} :
    (edgesRow lib tag mode peer).length ≤ replySize ↔ EdgesRowFits lib tag peer mode := by
  have hlen : (edgesRow lib tag mode peer).length = 154 + total _ :=
    ReplyFormat.length_text rfl
  have hsize : replySize = 4088 := rfl
  unfold EdgesRowFits
  simp only [total_cons, total_nil] at hlen ⊢
  omega

theorem EdgeView.infoRow_fits_iff {v : EdgeView} :
    (v.infoRow lib tag).length ≤ replySize ↔ v.InfoFits lib tag := by
  have hlen : (v.infoRow lib tag).length = 95 + total _ :=
    ReplyFormat.length_text rfl
  have hsize : replySize = 4088 := rfl
  unfold InfoFits
  simp only [total_cons, total_nil] at hlen ⊢
  omega

theorem SnView.edgesRow_fits_iff {v : SnView} {community : CommunityView} :
    (v.edgesRow lib tag community peer).length ≤ replySize ↔
      v.EdgesRowFits lib tag peer community := by
  have hlen : (v.edgesRow lib tag community peer).length = 128 + total _ :=
    ReplyFormat.length_text rfl
  have hsize : replySize = 4088 := rfl
  unfold EdgesRowFits
  simp only [total_cons, total_nil] at hlen ⊢
  omega

/-- **A description that ends within 2900 bytes has room**, whatever the other fields are. -/
theorem EdgeView.edgesRowFits_of_length_le {mode : String} (htag : Short tag)
    (hmode : Short (ascii mode)) (hdesc : peer.desc.length ≤ 2900) :
    EdgesRowFits lib tag peer mode := by
  have hpurgeable : Short (decimal peer.purgeable.toNat) :=
    short_decimal ((Bool.toNat_lt _).trans (by decide))
  have hlocal : Short (decimal peer.isLocal.toNat) :=
    short_decimal (peer.isLocal.toNat_lt.trans (by decide))
  have hothers : ∀ a ∈ [tag, ascii mode, subnetText peer.devAddr, decimal peer.purgeable.toNat,
      decimal peer.isLocal.toNat, macText peer.macAddr, sockToCstr lib peer.sock,
      signed peer.lastP2p.toInt, signed peer.lastSentQuery.toInt, signed peer.lastSeen.toInt],
      Short a := by
    simp only [List.forall_mem_cons, List.not_mem_nil, false_imp_iff, implies_true, and_true]
    exact ⟨htag, hmode, short_subnetText _, hpurgeable, hlocal, short_macText _,
      short_sockToCstr lib _, short_int64 _, short_int64 _, short_int64 _⟩
  have htotal := total_le hothers
  unfold EdgesRowFits
  simp only [List.length_cons, List.length_nil] at htotal
  omega

/-- So has a version. -/
theorem EdgeView.supernodesRowFits_of_length_le {v : EdgeView} {i : ℕ} (htag : Short tag)
    (hversion : peer.versionText.length ≤ 2900) : v.SupernodesRowFits lib tag peer i := by
  have hpurgeable : Short (decimal peer.purgeable.toNat) :=
    short_decimal ((Bool.toNat_lt _).trans (by decide))
  have hcurrent : Short (decimal (if i = v.currSn then (if v.snWait then 2 else 1) else 0)) := by
    split_ifs <;> exact short_decimal (by decide)
  have hothers : ∀ a ∈ [tag, decimal peer.purgeable.toNat,
      decimal (if i = v.currSn then (if v.snWait then 2 else 1) else 0), macText peer.macAddr,
      sockToCstr lib peer.sock,
      snSelectionCriterionStr v.strategy (i == v.currSn) peer.selectionCriterion,
      signed peer.lastSeen.toInt, signed peer.uptime.toInt], Short a := by
    simp only [List.forall_mem_cons, List.not_mem_nil, false_imp_iff, implies_true, and_true]
    exact ⟨htag, hpurgeable, hcurrent, short_macText _, short_sockToCstr lib _,
      short_criterion _ _ _, short_int64 _, short_int64 _⟩
  have htotal := total_le hothers
  unfold SupernodesRowFits
  simp only [List.length_cons, List.length_nil] at htotal
  omega

end

end N2n
