import N2nTun.CommunityAdmission

/-!
# How a supernode starts

`main` of the supernode up to its loop: the defaults with the federation, the options, the
community file, the sockets.  The federation is created, keyed and put into the table of
communities before the options are read, and an option for its name then writes over the name.

## Main definitions

* `StartEnv`, `SnOption` — what `main` is started with.
* `Sn.initDefaults`, `Sn.addFederationToCommunities`, `Startup.setOption` — its parts.
* `snMain` — the supernode when it enters the loop.
* `Sn.Started` — what is known of the tables until then.

## Main results

* `Startup.setOption_started` — an option may change the name of the federation, and no more.
* `World.loadCommunityText_started` — nor does the file.
* `snMain_started`, `snMain_named` — **what the loop starts with**, and that the runs of the
  supernode start so.
-/

namespace N2n

open Bytes Tokens Machines

/-! ### The environment -/

/-- The surroundings of `main`: the environment variable, the version of the package, the random
token and MAC, the resolver, the files, what a community file is read with, and the descriptor
of the main socket, if all sockets can be opened. -/
structure StartEnv where
  env : Env
  federation : Option (List UInt8)
  packageVersion : List UInt8
  token : List UInt8
  macAddr : Mac
  supernode2sock : List UInt8 → ℤ × Sock
  files : List UInt8 → Option (List UInt8)
  fileEnv : FileEnv
  sock : Option ℤ

/-- The options, as far as they concern the communities and what is sent; those that print a
help text, or whose argument is no range of networks, end the program. -/
inductive SnOption where
  /-- `-l` -/
  | supernode (arg : List UInt8)
  /-- `-a`, with the addresses and the length that `sscanf` and `inet_addr` read -/
  | autoIp (netMin netMax : UInt32) (bitlen : UInt8)
  /-- `-F` -/
  | federation (name : List UInt8)
  /-- `-m` -/
  | macAddr (mac : Mac)
  /-- `-M` -/
  | overrideSpoofingProtection
  /-- `-V` -/
  | version (text : List UInt8)
  /-- `-c` -/
  | communities (path : List UInt8)
  | other
  | help

/-! ### The federation -/

/-- `FEDERATION_NAME`. -/
def defaultFederation : List UInt8 := ascii "*Federation"

/-- What `snprintf` makes of a name with the format `*%s` and 19 bytes. -/
def starName (name : List UInt8) : List UInt8 := (0x2a :: cstr name).take 18

theorem starName_length (name : List UInt8) : (starName name).length ≤ 18 := by
  simp [starName]

/-- The name is printed into the buffer, whose last byte is then cleared.  What lies behind the
end of the name stays. -/
def printFederation (buffer : CommunityName) (name : List UInt8) : CommunityName :=
  ⟨starName name ++ 0 :: ((buffer.toList.take 19).drop ((starName name).length + 1) ++ [0]), by
    have h := starName_length name
    have hbuffer : buffer.toList.length = 20 := buffer.toList_length
    simp [hbuffer]
    omega⟩

/-- The federation of `sn_init_defaults`. -/
def StartEnv.initFederation (env : StartEnv) : Community :=
  let name := match env.federation with
    | some name => printFederation (List.Vector.replicate 20 0) name
    | none => commInitName defaultFederation
  { Community.zero with
    community := name
    isFederation := true
    purgeable := false
    headerEncryption := .enabled
    keys := packetHeaderSetupKey name.toList }

/-- The MAC with its bits for multicast and for local administration set right. -/
def localMac (mac : Mac) : Mac :=
  mac.set 0 ((mac.get 0 &&& 0xfe) ||| 0x02)

/-- `sn_init_defaults`, but for the federation. -/
def Sn.initDefaults (env : StartEnv) : Sn where
  macAddr := localMac env.macAddr
  sock := -1
  tcpConnections := .empty
  udpKcpCtrlConnections := []
  udpKcpDataConnections := []
  minAutoIpNet := ⟨0x0a800000, 24⟩
  maxAutoIpNet := ⟨0x0affff00, 24⟩
  lockCommunities := false
  communities := .empty
  rules := []
  federation := 0
  auth := ⟨1, 16, overwrite (List.replicate authMaxTokenSize 0) 0 (slice env.token 0 16)⟩
  dynamicKeyTime := 0
  overrideSpoofingProtection := false
  startTime := 0
  version := commInitName env.packageVersion

/-- `add_federation_to_communities`. -/
def Sn.addFederationToCommunities (sss : Sn) (federation : Community) : Sn :=
  { sss with
    communities := sss.communities.add { federation with key := cstr federation.community.toList }
    federation := sss.communities.next }

/-! ### The options -/

/-- The supernode while the options are read, and `community_file`. -/
structure Startup where
  w : World
  communityFile : Option (List UInt8)

/-- A change of the supernode. -/
def Startup.setSss (s : Startup) (f : Sn → Sn) : Startup := { s with w := s.w.setSss f }

/-- `N2N_EDGE_SN_HOST_SIZE`. -/
def edgeSnHostSize : ℕ := 48

/-- `-l`: an anchor of the federation. -/
def Startup.addAnchor (s : Startup) (socket : Sock) : Startup :=
  match s.w.addSn socket nullMac .add with
  | (w, none, _) => { s with w := w }
  | (w, some p, _) =>
    let (w, stamp) := w.timeStamp
    { s with
      w := w.modifySn p fun anchor =>
        { anchor with
          sock := socket
          macAddr := nullMac
          purgeable := false
          lastValidTimeStamp := initialTimeStamp stamp } }

/-- The checks of `-a`, on addresses in network order. -/
def badNetworkRange (netMin netMax : UInt32) (bitlen : UInt8) : Bool :=
  let mask := bitlen2mask bitlen
  netMin == 0xffffffff || netMin == 0 || netMax == 0xffffffff || netMax == 0 ||
    ntohl netMax < ntohl netMin || ntohl netMin &&& ~~~ mask != 0 ||
      ntohl netMax &&& ~~~ mask != 0 || 30 < bitlen || bitlen == 0

/-- `setOption`; without a result it asks for a help text, and the program ends. -/
def Startup.setOption (env : StartEnv) (s : Startup) : SnOption → Option Startup
  | .supernode arg =>
    if edgeSnHostSize ≤ arg.length || !arg.contains 0x3a then none
    else
      let r := env.supernode2sock arg
      -- a name that cannot be resolved yet is accepted
      if r.1 < -2 then none
      else some (s.addAnchor (if r.1 = 0 then r.2 else { Sock.zero with family := afInvalid }))
  | .autoIp netMin netMax bitlen =>
    if badNetworkRange netMin netMax bitlen then none
    else
      some (s.setSss fun sss =>
        { sss with
          minAutoIpNet := ⟨ntohl netMin, bitlen⟩
          maxAutoIpNet := ⟨ntohl netMax, bitlen⟩ })
  | .federation name =>
    -- the keys and the table of communities stay as they are
    some (s.setSss fun sss => sss.modifyComm sss.federation fun c =>
      { c with community := printFederation c.community name, purgeable := false })
  | .macAddr mac => some (s.setSss fun sss => { sss with macAddr := localMac mac })
  | .overrideSpoofingProtection =>
    some (s.setSss fun sss => { sss with overrideSpoofingProtection := true })
  | .version text => some (s.setSss fun sss => { sss with version := commInitName text })
  | .communities path => some { s with communityFile := some path }
  | .other => some s
  | .help => none

/-! ### The program -/

/-- `sn_init_defaults` and `add_federation_to_communities`. -/
def StartEnv.init (env : StartEnv) : World :=
  ⟨(Sn.initDefaults env).addFederationToCommunities env.initFederation, env.env, 0, [],
    fun _ => [], fun _ _ => [], [0]⟩

/-- The community file is loaded, if there is one. -/
def Startup.loadCommunities (env : StartEnv) (s : Startup) : World :=
  match s.communityFile.bind env.files with
  | some file => (s.w.loadCommunityText env.fileEnv file).1
  | none => s.w

/-- `main` behind the options, and `run_sn_loop` up to the loop. -/
def Startup.enterLoop (env : StartEnv) (s : Startup) (sock : ℤ) : World :=
  let w := (s.loadCommunities env).setSss (·.calculateSharedSecrets env.fileEnv.secret)
  let w := w.setSss fun sss => { sss with sock := sock }
  let w := w.setSss fun sss =>
    sss.modifyEdges sss.federation (·.mapValues fun scan => { scan with socketFd := sock })
  let (w, now) := w.time
  w.setSss fun sss => { sss with startTime := now }

/-- `main`, up to the loop, with the options in the order in which they are read from the
configuration file and the command line.  Without a result the program has ended. -/
def snMain (env : StartEnv) (options : List SnOption) : Option World :=
  match options.foldlM (Startup.setOption env) ⟨env.init, none⟩, env.sock with
  | some s, some sock => some (s.enterLoop env sock)
  | _, _ => none

/-! ### What is known of the tables -/

/-- A community that is not the federation, before the loop begins. -/
structure Community.Plain (c : Community) : Prop where
  isFederation : c.isFederation = false
  edges : c.edges.entries = []
  keys : c.keys.Ready
  key : c.key.headD 0 ≠ 0x2a

/-- The federation is in the table under `key`, has the keys for it and the name `name`; there
are no edges yet but its own, and no connections. -/
structure Sn.Started (key name : List UInt8) (sss : Sn) : Prop where
  conns : sss.tcpConnections.entries = []
  federation : ∃ c, sss.communities.get? sss.federation = some c ∧ c.isFederation = true ∧
    c.purgeable = false ∧ c.key = key ∧ c.name = name ∧
      c.keys = packetHeaderSetupKey (commInitName key).toList
  others : ∀ p c, sss.communities.get? p = some c → p ≠ sss.federation → c.Plain

section Tables

variable {key name : List UInt8} {sss sss' : Sn}

theorem Sn.Started.of_eq (h : sss.Started key name)
    (hconns : sss'.tcpConnections = sss.tcpConnections)
    (hcomms : sss'.communities = sss.communities) (hfed : sss'.federation = sss.federation) :
    sss'.Started key name := by
  refine ⟨?_, ?_, ?_⟩
  · rw [hconns]
    exact h.conns
  · rw [hcomms, hfed]
    exact h.federation
  · rw [hcomms, hfed]
    exact h.others

/-- A write to the federation that keeps its key. -/
theorem Sn.Started.modifyFederation (h : sss.Started key name) {name' : List UInt8}
    {f : Community → Community}
    (hf : ∀ c, (f c).isFederation = c.isFederation ∧
      (c.purgeable = false → (f c).purgeable = false) ∧ (f c).key = c.key ∧
      (c.name = name → (f c).name = name') ∧ (f c).keys = c.keys) :
    (sss.modifyComm sss.federation f).Started key name' := by
  obtain ⟨c, hget, hfed, hpurgeable, hkey, hname, hkeys⟩ := h.federation
  obtain ⟨hfed', hpurgeable', hkey', hname', hkeys'⟩ := hf c
  refine ⟨h.conns, ⟨f c, ?_, hfed'.trans hfed, hpurgeable' hpurgeable, hkey'.trans hkey,
    hname' hname, hkeys'.trans hkeys⟩, fun p c' hget' hp => ?_⟩
  · show (sss.communities.modify sss.federation f).get? sss.federation = _
    rw [Table.get?_modify, if_pos rfl, hget]
    rfl
  · replace hp : p ≠ sss.federation := hp
    replace hget' : (sss.communities.modify sss.federation f).get? p = some c' := hget'
    rw [Table.get?_modify, if_neg hp] at hget'
    exact h.others p c' hget' hp

/-- The edges of the federation change. -/
theorem Sn.Started.modifyEdges (h : sss.Started key name) (f : Table PeerInfo → Table PeerInfo) :
    (sss.modifyEdges sss.federation f).Started key name :=
  h.modifyFederation fun _ => ⟨rfl, id, rfl, id, rfl⟩

/-- A write to another community. -/
theorem Sn.Started.modifyOther (h : sss.Started key name) {p : ℕ} (hp : p ≠ sss.federation)
    {f : Community → Community} (hf : ∀ c : Community, c.Plain → (f c).Plain) :
    (sss.modifyComm p f).Started key name := by
  refine ⟨h.conns, ?_, fun q c' hget hq => ?_⟩
  · obtain ⟨c, hget, hc⟩ := h.federation
    refine ⟨c, ?_, hc⟩
    show (sss.communities.modify p f).get? sss.federation = _
    rw [Table.get?_modify, if_neg hp.symm, hget]
  · replace hget : (sss.communities.modify p f).get? q = some c' := hget
    rw [Table.get?_modify] at hget
    split_ifs at hget
    · obtain ⟨c, hc, rfl⟩ := Option.map_eq_some_iff.mp hget
      exact hf c (h.others q c hc hq)
    · exact h.others q c' hget hq

/-- A write to all communities that leaves the federation as it is. -/
theorem Sn.Started.mapValues (h : sss.Started key name) {f : Community → Community}
    (hfed : ∀ c : Community, c.isFederation = true → f c = c)
    (hf : ∀ c : Community, c.Plain → (f c).Plain) :
    { sss with communities := sss.communities.mapValues f }.Started key name := by
  refine ⟨h.conns, ?_, fun p c' hget hp => ?_⟩
  · obtain ⟨c, hget, hc, hrest⟩ := h.federation
    refine ⟨c, ?_, hc, hrest⟩
    show (sss.communities.mapValues f).get? sss.federation = _
    rw [Table.get?_mapValues, hget, Option.map_some, hfed c hc]
  · replace hget : (sss.communities.mapValues f).get? p = some c' := hget
    rw [Table.get?_mapValues] at hget
    obtain ⟨c, hc, rfl⟩ := Option.map_eq_some_iff.mp hget
    exact hf c (h.others p c hc hp)

/-- Another community is removed. -/
theorem Sn.Started.del (h : sss.Started key name) {p : ℕ} (hp : p ≠ sss.federation) :
    { sss with communities := sss.communities.del p }.Started key name := by
  refine ⟨h.conns, ?_, fun q c hget hq => ?_⟩
  · obtain ⟨c, hget, hc⟩ := h.federation
    refine ⟨c, ?_, hc⟩
    show (sss.communities.del p).get? sss.federation = _
    rw [Table.get?_del, if_neg hp.symm, hget]
  · replace hget : (sss.communities.del p).get? q = some c := hget
    rw [Table.get?_del] at hget
    split_ifs at hget
    exact h.others q c hget hq

/-- A community from the file is added. -/
theorem Sn.Started.add (h : sss.Started key name) (word : List UInt8)
    (hword : (cstr (commInitName word).toList).headD 0 ≠ 0x2a) :
    { sss with communities := sss.communities.add (loadedCommunity word) }.Started key name := by
  obtain ⟨c, hget, hc⟩ := h.federation
  have hlt := sss.communities.fresh _ (Table.get?_eq_some.mp hget)
  refine ⟨h.conns, ⟨c, ?_, hc⟩, fun p c' hget' hp => ?_⟩
  · show (sss.communities.add (loadedCommunity word)).get? sss.federation = _
    rw [Table.get?_add, if_neg (ne_of_lt hlt), hget]
  · replace hget' : (sss.communities.add (loadedCommunity word)).get? p = some c' := hget'
    rw [Table.get?_add] at hget'
    split_ifs at hget'
    · obtain rfl := Option.some.inj hget'
      exact ⟨rfl, rfl, packetHeaderSetupKey_ready _, hword⟩
    · exact h.others p c' hget' hp

/-- The pointer to the federation is in use. -/
theorem Sn.Started.pointer (h : sss.Started key name) : sss.federation < sss.communities.next := by
  obtain ⟨c, hget, -⟩ := h.federation
  exact sss.communities.fresh _ (Table.get?_eq_some.mp hget)

/-- There is no connection that could be closed. -/
theorem Sn.Started.close (h : sss.Started key name) (fd : ℤ) :
    (closeTcpConnection sss (sss.findConn fd)).Started key name := by
  have hnone : sss.findConn fd = none := by
    unfold Sn.findConn Table.find?
    rw [h.conns]
    rfl
  rw [hnone]
  exact h

end Tables

/-! ### The community file -/

section Load

variable {key name : List UInt8}

/-- The new key contexts of a community are ready. -/
theorem Community.Plain.withDynamicKey {c : Community} (h : c.Plain) (keyTime : UInt32)
    (fed : CommunityName) : (c.withDynamicKey keyTime fed).Plain := by
  unfold Community.withDynamicKey
  split_ifs
  · exact h
  · exact ⟨h.isFederation, h.edges, h.keys.changeDynamicKey _, h.key⟩

theorem Sn.Started.calculateDynamicKeys {sss : Sn} (h : sss.Started key name) :
    sss.calculateDynamicKeys.Started key name := by
  refine h.mapValues (fun c hc => ?_) fun c hc => hc.withDynamicKey _ _
  unfold Community.withDynamicKey
  rw [hc]
  rfl

theorem Sn.Started.calculateSharedSecrets {sss : Sn} (h : sss.Started key name)
    (secret : List UInt8 → List UInt8) : (sss.calculateSharedSecrets secret).Started key name := by
  refine h.mapValues (fun c hc => if_pos hc) fun c hc => ?_
  rw [if_neg (by simp [hc.isFederation])]
  exact ⟨hc.isFederation, hc.edges, hc.keys, hc.key⟩

/-- Nothing is lost by the RE_REGISTER_SUPERs. -/
theorem World.sendReRegisterSuper_started {w : World} (h : w.sss.Started key name) :
    w.sendReRegisterSuper.sss.Started key name :=
  sendReRegisterSuper_invariant (fun _ fd h => h.close fd) h

/-- The federation stays when the communities are removed. -/
theorem Sn.Started.unload {sss : Sn} (h : sss.Started key name) (es : List (ℕ × Community))
    (hes : ∀ e ∈ es, e.2.isFederation = true ∨ e.1 ≠ sss.federation ∧ e.2.edges.entries = []) :
    (es.foldl (fun sss e => sss.unloadCommunity e.1 e.2) sss).Started key name := by
  induction es generalizing sss with
  | nil => exact h
  | cons e es ih =>
    rw [List.foldl_cons]
    have hrest : ∀ e' ∈ es, e'.2.isFederation = true ∨
        e'.1 ≠ sss.federation ∧ e'.2.edges.entries = [] :=
      fun e' he' => hes e' (List.mem_cons_of_mem _ he')
    unfold Sn.unloadCommunity
    split_ifs with hfed
    · exact ih h hrest
    · obtain ⟨hp, hedges⟩ := (hes e List.mem_cons_self).resolve_left hfed
      rw [hedges]
      exact ih (h.del hp) hrest

/-- The other supernodes are asked, and their entries change. -/
theorem World.reRegisterSupernodes_started {w : World} (h : w.sss.Started key name) :
    w.reRegisterSupernodes.sss.Started key name := by
  refine (reRegisterSupernodes_invariant (I := fun sss => sss.Started key name ∧
    sss.federation = w.sss.federation) ?_ ?_ ⟨h, rfl⟩).1
  · rintro sss fd ⟨h, hfed⟩
    exact ⟨h.close fd, (closeTcpConnection_federation sss _).trans hfed⟩
  · rintro sss f ⟨h, hfed⟩
    refine ⟨?_, hfed⟩
    rw [← hfed]
    exact h.modifyEdges f

/-- The load up to the first line. -/
theorem World.beforeLines_started {w : World} (h : w.sss.Started key name) :
    w.beforeLines.sss.Started key name := by
  have hsent := sendReRegisterSuper_started h
  have hunload := hsent.unload w.sendReRegisterSuper.sss.communities.entries ?_
  · exact reRegisterSupernodes_started (hunload.of_eq rfl rfl rfl)
  · intro e he
    have hget := Table.get?_eq_some.mpr he
    by_cases hp : e.1 = w.sendReRegisterSuper.sss.federation
    · obtain ⟨c, hc, hfed, -⟩ := hsent.federation
      rw [hp, hc] at hget
      exact .inl (Option.some.inj hget ▸ hfed)
    · exact .inr ⟨hp, (hsent.others e.1 e.2 hget hp).edges⟩

/-- No line names the federation. -/
def CommunityLine.Named : CommunityLine → Prop
  | .community word _ => (cstr (commInitName word).toList).headD 0 ≠ 0x2a
  | _ => True

/-- The lines of a text. -/
theorem attachRules_named {inetAddr : List UInt8 → UInt32} (rules : List Rule) (s : LineState)
    (lines : List (List UInt8)) :
    ∀ x ∈ attachRules rules (readLines inetAddr s lines), x.Named := by
  intro x hx
  cases x with
  | rule _ => trivial
  | user _ _ => trivial
  | community word net =>
    have hident : (loadedCommunity word).ident ∈ textIdents (readLines inetAddr s lines) := by
      rw [← attachRules_idents rules]
      exact List.mem_flatMap.mpr ⟨_, hx, List.mem_singleton_self _⟩
    have hname := List.mem_map_of_mem (f := fun i => cstr i.2.toList) hident
    rw [textIdents_names] at hname
    exact communityNames_head hname

/-- What is known in the loop over the lines: users are not added to the federation. -/
structure Loading.Started (key name : List UInt8) (l : Loading) : Prop where
  sss : l.sss.Started key name
  last : ∀ p, l.lastAddedComm = some p → p ≠ l.sss.federation

/-- **One line.** -/
theorem Loading.Started.line {l : Loading} (h : l.Started key name) {x : CommunityLine}
    (hx : x.Named) : (l.line x).Started key name := by
  have hrule : ∀ rule, (l.addRule rule).Started key name :=
    fun _ => ⟨h.sss.of_eq rfl rfl rfl, fun p hp => by cases hp⟩
  cases x with
  | rule rule => exact hrule rule
  | user publicKey rule =>
    cases hlast : l.lastAddedComm with
    | none =>
      rw [Loading.line, hlast]
      exact hrule rule
    | some p =>
      rw [Loading.line, hlast]
      refine ⟨h.sss.modifyOther (h.last p hlast) fun c hc => ?_, fun q hq => ?_⟩
      · exact ⟨hc.isFederation, hc.edges, packetHeaderSetupKey_ready _, hc.key⟩
      · exact h.last q (hlast.trans hq)
  | community word net =>
    have hp : l.sss.communities.next ≠ l.sss.federation := h.sss.pointer.ne'
    obtain ⟨net', hsss⟩ := l.addCommunity_sss word net
    refine ⟨?_, ?_⟩
    · rw [Loading.line, hsss]
      refine (h.sss.add word hx).modifyOther hp ?_
      exact fun c hc => ⟨hc.isFederation, hc.edges, hc.keys, hc.key⟩
    · rintro p ⟨⟩
      rw [Loading.line, hsss]
      exact hp

theorem Loading.Started.lines {l : Loading} (h : l.Started key name) (xs : List CommunityLine)
    (hxs : ∀ x ∈ xs, x.Named) : (xs.foldl Loading.line l).Started key name := by
  induction xs generalizing l with
  | nil => exact h
  | cons x xs ih =>
    exact ih (h.line (hxs x List.mem_cons_self)) fun y hy => hxs y (List.mem_cons_of_mem _ hy)

/-- **The file leaves the federation as it is.** -/
theorem World.loadCommunityText_started {w : World} (h : w.sss.Started key name) (env : FileEnv)
    (file : List UInt8) : (w.loadCommunityText env file).1.sss.Started key name := by
  have hbefore : Loading.Started key name ⟨w.beforeLines.sss, none, 0⟩ :=
    ⟨beforeLines_started h, fun p hp => by cases hp⟩
  have hnamed := @attachRules_named env.inetAddr
    (env.rules (linePatterns (env.read (fileLines file)))) ⟨false, env.publicKey⟩ (fileLines file)
  have hl := hbefore.lines _ hnamed
  unfold loadCommunityText loadCommunityLines
  dsimp only
  rw [loadAllowedSnCommunity_eq]
  dsimp only
  split_ifs
  · exact hl.sss
  · exact ((hl.sss.calculateSharedSecrets env.secret).calculateDynamicKeys).of_eq rfl rfl rfl

end Load

/-! ### The options -/

section Options

/-- The name of the federation before the options are read. -/
def StartEnv.initialName (env : StartEnv) : List UInt8 :=
  match env.federation with
  | some name => starName name
  | none => defaultFederation

/-- The name that an option gives. -/
def SnOption.name? : SnOption → Option (List UInt8)
  | .federation name => some (starName name)
  | _ => none

/-- The name of the federation behind the options: the last one that was given. -/
def StartEnv.finalName (env : StartEnv) (options : List SnOption) : List UInt8 :=
  options.foldl (fun name option => option.name?.getD name) env.initialName

/-- There is no NUL in the name. -/
theorem starName_ne_zero (name : List UInt8) : ∀ c ∈ starName name, (c != 0) = true := by
  intro c hc
  rcases List.mem_cons.mp (List.mem_of_mem_take hc) with rfl | hc
  · decide
  · exact List.mem_takeWhile_imp (p := (· != 0)) hc

theorem cstr_append_zero {p : List UInt8} (h : ∀ c ∈ p, (c != 0) = true) (q : List UInt8) :
    cstr (p ++ 0 :: q) = p := by
  unfold cstr
  rw [List.takeWhile_append_of_pos h]
  simp

/-- The name that has been printed. -/
theorem cstr_printFederation (buffer : CommunityName) (name : List UInt8) :
    cstr (printFederation buffer name).toList = starName name :=
  cstr_append_zero (starName_ne_zero name) _

/-- In an empty buffer there is nothing behind the name. -/
theorem printFederation_zero (name : List UInt8) :
    printFederation (List.Vector.replicate 20 0) name = commInitName (starName name) := by
  have hlen := starName_length name
  have hcstr : cstr (starName name) = starName name :=
    List.takeWhile_eq_self_iff.mpr (starName_ne_zero name)
  have htake : (starName name).take 19 = starName name := List.take_of_length_le (by omega)
  apply Subtype.ext
  show starName name ++ 0 :: (((List.replicate 20 (0 : UInt8)).take 19).drop
      ((starName name).length + 1) ++ [0]) =
    (cstr (starName name)).take 19 ++
      List.replicate (20 - ((cstr (starName name)).take 19).length) 0
  rw [hcstr, htake, List.take_replicate, List.drop_replicate, ← List.replicate_succ',
    ← List.replicate_succ]
  congr 2
  omega

/-- The federation begins under its first name. -/
theorem StartEnv.init_started (env : StartEnv) :
    env.init.sss.Started env.initialName env.initialName := by
  have hname : env.initFederation.community = commInitName env.initialName := by
    unfold initFederation initialName
    cases env.federation with
    | none => rfl
    | some name => exact printFederation_zero name
  have hcstr : cstr (commInitName env.initialName).toList = env.initialName := by
    rw [cstr_commInitName]
    unfold initialName
    cases env.federation with
    | none => decide
    | some name =>
      have hlen := starName_length name
      rw [show cstr (starName name) = starName name from
        List.takeWhile_eq_self_iff.mpr (starName_ne_zero name)]
      exact List.take_of_length_le (by omega)
  have hkeys : env.initFederation.keys = packetHeaderSetupKey env.initFederation.community.toList :=
    rfl
  refine ⟨rfl, ⟨_, rfl, rfl, rfl, ?_, ?_, ?_⟩, fun p c hget hp => ?_⟩
  · show cstr env.initFederation.community.toList = _
    rw [hname, hcstr]
  · show cstr env.initFederation.community.toList = _
    rw [hname, hcstr]
  · show env.initFederation.keys = _
    rw [hkeys, hname]
  · -- there is no other community
    replace hp : p ≠ (Table.empty : Table Community).next := hp
    replace hget : (Table.empty.add _).get? p = some c := hget
    rw [Table.get?_add, if_neg hp] at hget
    cases hget

variable {env : StartEnv} {s s' : Startup} {key name : List UInt8}

/-- An anchor is an entry of the federation. -/
theorem Startup.addAnchor_started (h : s.w.sss.Started key name) (socket : Sock) :
    (s.addAnchor socket).w.sss.Started key name := by
  have hadd : (s.w.addSn socket nullMac .add).1.sss.Started key name := by
    have hentry := h.modifyEdges fun _ => (addSnToListByMacOrSock
      (s.w.sss.edges s.w.sss.federation) socket nullMac .add
        (initialTimeStamp s.w.timeStamp.2)).1
    unfold World.addSn
    dsimp only
    split_ifs
    · exact hentry
    · exact hentry
  unfold Startup.addAnchor
  split
  · rename_i w _ heq
    rw [heq] at hadd
    exact hadd
  · rename_i w p _ heq
    rw [heq] at hadd
    let f : PeerInfo → PeerInfo := fun anchor =>
      { anchor with
        sock := socket
        macAddr := nullMac
        purgeable := false
        lastValidTimeStamp := initialTimeStamp w.timeStamp.2 }
    exact hadd.modifyEdges (·.modify p f)

/-- **An option may change the name of the federation, but neither its keys nor what it is found
by.** -/
theorem Startup.setOption_started (h : s.w.sss.Started key name) {option : SnOption}
    (hs : s.setOption env option = some s') :
    s'.w.sss.Started key (option.name?.getD name) := by
  cases option with
  | supernode arg =>
    unfold setOption at hs
    dsimp only at hs
    split_ifs at hs with hlong hmalformed hresolved
    · obtain rfl := Option.some.inj hs
      exact addAnchor_started h _
    · obtain rfl := Option.some.inj hs
      exact addAnchor_started h _
  | autoIp netMin netMax bitlen =>
    unfold setOption at hs
    dsimp only at hs
    split_ifs at hs
    obtain rfl := Option.some.inj hs
    exact h.of_eq rfl rfl rfl
  | federation name' =>
    obtain rfl := Option.some.inj hs
    exact h.modifyFederation fun c =>
      ⟨rfl, fun _ => rfl, rfl, fun _ => cstr_printFederation c.community name', rfl⟩
  | help => cases hs
  | _ =>
    obtain rfl := Option.some.inj hs
    exact h.of_eq rfl rfl rfl

/-- All options. -/
theorem Startup.setOptions_started (h : s.w.sss.Started key name) {options : List SnOption}
    (hs : options.foldlM (Startup.setOption env) s = some s') :
    s'.w.sss.Started key (options.foldl (fun name option => option.name?.getD name) name) := by
  induction options generalizing s name with
  | nil =>
    obtain rfl := Option.some.inj hs
    exact h
  | cons option options ih =>
    rw [List.foldlM_cons] at hs
    obtain ⟨s₁, hoption, hs⟩ := Option.bind_eq_some_iff.mp hs
    exact ih (setOption_started h hoption) hs

/-- **What the loop starts with**: the federation has the keys for its first name and is found
by that, and has the name that was given last. -/
theorem snMain_started {options : List SnOption} {w : World} (h : snMain env options = some w) :
    w.sss.Started env.initialName (env.finalName options) := by
  unfold snMain at h
  split at h
  · rename_i s sock hs _
    obtain rfl := Option.some.inj h
    have hoptions := Startup.setOptions_started env.init_started hs
    have hloaded : (s.loadCommunities env).sss.Started env.initialName
        (env.finalName options) := by
      unfold Startup.loadCommunities
      cases s.communityFile.bind env.files with
      | none => exact hoptions
      | some file => exact World.loadCommunityText_started hoptions env.fileEnv file
    have hsecrets := hloaded.calculateSharedSecrets env.fileEnv.secret
    -- the descriptor of the socket goes to the anchors
    have hsock : { (s.loadCommunities env).sss.calculateSharedSecrets env.fileEnv.secret with
        sock := sock }.Started env.initialName (env.finalName options) :=
      hsecrets.of_eq rfl rfl rfl
    exact (hsock.modifyEdges (·.mapValues fun scan => { scan with socketFd := sock })).of_eq
      rfl rfl rfl
  · cases h

/-- The anchors have the socket of UDP. -/
theorem Startup.enterLoop_sockets {sock : ℤ} (h : (s.enterLoop env sock).sss.Started key name)
    {p : ℕ} {c : Community} (hget : (s.enterLoop env sock).sss.communities.get? p = some c)
    (hc : c.isFederation = true) : ∀ e ∈ c.edges, e.socketFd = (s.enterLoop env sock).sss.sock := by
  obtain rfl : p = (s.enterLoop env sock).sss.federation := by
    by_contra hp
    rw [(h.others p c hget hp).isFederation] at hc
    cases hc
  let sss := (s.loadCommunities env).sss.calculateSharedSecrets env.fileEnv.secret
  let f : Table PeerInfo → Table PeerInfo :=
    (·.mapValues fun scan => { scan with socketFd := sock })
  replace hget : (sss.communities.modify sss.federation fun c => { c with edges := f c.edges }).get?
    sss.federation = some c := hget
  rw [Table.get?_modify, if_pos rfl] at hget
  obtain ⟨c₀, -, rfl⟩ := Option.map_eq_some_iff.mp hget
  intro e he
  obtain ⟨e₀, -, rfl⟩ := Table.mem_mapValues.mp he
  rfl

/-! ### The first state of the runs -/

/-- A name that the federation may have. -/
structure StarNamed (name : List UInt8) : Prop where
  head : name.headD 0 = 0x2a
  length : name.length ≤ 18
  chars : ∀ c ∈ name, (c != 0) = true

theorem starNamed_starName (name : List UInt8) : StarNamed (starName name) :=
  ⟨rfl, starName_length name, starName_ne_zero name⟩

theorem StartEnv.starNamed_initialName (env : StartEnv) : StarNamed env.initialName := by
  unfold initialName
  cases env.federation with
  | none => exact ⟨by decide +kernel, by decide +kernel, by decide +kernel⟩
  | some name => exact starNamed_starName name

theorem StartEnv.starNamed_finalName (env : StartEnv) (options : List SnOption) :
    StarNamed (env.finalName options) := by
  unfold finalName
  have hname := env.starNamed_initialName
  generalize env.initialName = name at hname
  induction options generalizing name with
  | nil => exact hname
  | cons option options ih =>
    refine ih _ ?_
    cases option with
    | federation name' => exact starNamed_starName name'
    | _ => exact hname

/-- The name begins with the first byte of the buffer. -/
theorem Community.head_of_name {c : Community} (h : c.name.headD 0 = 0x2a) :
    c.community.toList.headD 0 = 0x2a := by
  unfold Community.name cstr at h
  cases hlist : c.community.toList with
  | nil =>
    rw [hlist] at h
    cases h
  | cons b bs =>
    rw [hlist, List.takeWhile_cons] at h
    split_ifs at h
    · exact h
    · cases h

/-- **The runs start with what `main` leaves.** -/
theorem snMain_named {options : List SnOption} {w : World} (h : snMain env options = some w) :
    SnNamed w := by
  have hstarted := snMain_started h
  obtain ⟨c, hget, hfed, hpurgeable, -, hname, hkeys⟩ := hstarted.federation
  have hsame : ∀ c', w.sss.communities.get? w.sss.federation = some c' → c' = c :=
    fun c' hget' => Option.some.inj (hget'.symm.trans hget)
  have honly : ∀ p c', w.sss.communities.get? p = some c' → c'.isFederation = true →
      p = w.sss.federation := by
    intro p c' hget' hc'
    by_contra hp
    rw [(hstarted.others p c' hget' hp).isFederation] at hc'
    cases hc'
  refine ⟨⟨⟨hstarted.conns, ⟨c, hget, hfed⟩, honly, ?_, ?_, ?_⟩, ?_⟩, ?_⟩
  · -- the anchors
    unfold snMain at h
    split at h
    · obtain rfl := Option.some.inj h
      exact fun p c' hget' hc' => Startup.enterLoop_sockets hstarted hget' hc'
    · cases h
  · intro p c' hget' hc'
    refine (hstarted.others p c' hget' ?_).edges
    rintro rfl
    rw [hsame c' hget', hfed] at hc'
    cases hc'
  · intro p c' hget' _
    by_cases hp : p = w.sss.federation
    · subst hp
      rw [hsame c' hget', hkeys]
      exact packetHeaderSetupKey_ready _
    · exact (hstarted.others p c' hget' hp).keys
  · intro c' hget'
    rw [hsame c' hget']
    exact hpurgeable
  · intro p c' hget' hc'
    obtain rfl := honly p c' hget' hc'
    refine ⟨rfl, Community.head_of_name ?_⟩
    rw [hsame c' hget', hname]
    exact (env.starNamed_finalName options).head

end Options

end N2n
