import N2nTun.SnHandlers

/-!
# Loading the communities

`load_allowed_sn_community`, given the lines of the file as `sscanf` and `re_compile` have
taken them apart.  All communities but the federation are removed first.

## Main definitions

* `CommunityLine` — a line of the file.
* `World.loadAllowedSnCommunity` — the communities are loaded.
* `World.beforeLines` — the load up to the first line.

## Main results

* `Sn.unloadAll_invariant` — what the removal of the communities keeps.
-/

namespace N2n

open Bytes

/-- A line of the community file that is neither a comment nor too short. -/
inductive CommunityLine where
  /-- a name, with the sub-network if there is a valid one -/
  | community (name : List UInt8) (net : Option IpSubnet)
  /-- a regular expression -/
  | rule (rule : Rule)
  /-- a user; without a community to add the user to, the line is a regular expression -/
  | user (publicKey : List UInt8) (rule : Rule)

/-- The state of the loop over the lines: the supernode, the community that users are added
to, and the number of communities and rules. -/
structure Loading where
  sss : Sn
  lastAddedComm : Option ℕ
  num : ℕ

/-- A community from the file: the first packet will show whether its headers are
encrypted. -/
def loadedCommunity (name : List UInt8) : Community :=
  { Community.zero with
    community := commInitName name
    key := cstr (commInitName name).toList
    keys := packetHeaderSetupKey (commInitName name).toList }

/-- A user is added: the headers of the community are encrypted. -/
def Community.addUser (comm : Community) (publicKey : List UInt8) : Community :=
  { comm with
    allowedUsers := comm.allowedUsers ++ [⟨publicKey, [], ⟨[]⟩⟩]
    headerEncryption := .enabled
    keys := packetHeaderSetupKey comm.community.toList }

/-- A regular expression is added. -/
def Loading.addRule (l : Loading) (rule : Rule) : Loading :=
  ⟨{ l.sss with rules := l.sss.rules ++ [rule] }, none, l.num + 1⟩

/-- A community is added. -/
def Loading.addCommunity (l : Loading) (name : List UInt8) (net : Option IpSubnet) : Loading :=
  let p := l.sss.communities.next
  let sss := { l.sss with communities := l.sss.communities.add (loadedCommunity name) }
  let sss := match net with
    | some net => sss.modifyComm p fun c => { c with autoIpNet := net }
    | none => sss.withSubnet p (commInitName name)
  ⟨sss, some p, l.num + 1⟩

/-- One line of the file. -/
def Loading.line (l : Loading) : CommunityLine → Loading
  | .community name net => l.addCommunity name net
  | .rule rule => l.addRule rule
  | .user publicKey rule =>
    match l.lastAddedComm with
    | some p => { l with sss := l.sss.modifyComm p (·.addUser publicKey) }
    | none => l.addRule rule

/-- An edge is removed, with its connection. -/
def Sn.unloadEdge (sss : Sn) (comm p : ℕ) (socketFd : ℤ) : Sn :=
  if sss.isTcp socketFd then closeTcpConnection sss (sss.findConn socketFd)
  else sss.modifyEdges comm (·.del p)

/-- A community is removed, with its edges. -/
def Sn.unloadCommunity (sss : Sn) (comm : ℕ) (c : Community) : Sn :=
  if c.isFederation then sss
  else
    let sss := c.edges.entries.foldl (fun sss e => sss.unloadEdge comm e.1 e.2.socketFd) sss
    { sss with communities := sss.communities.del comm }

/-- **What the removal of an edge and of a community keep** is kept by the removal of all
communities. -/
theorem Sn.unloadAll_invariant {I : Sn → Prop}
    (hedge : ∀ sss comm p fd, I sss → I (sss.unloadEdge comm p fd))
    (hdel : ∀ (sss : Sn) comm, I sss → I { sss with communities := sss.communities.del comm })
    (es : List (ℕ × Community)) {sss : Sn} (h : I sss) :
    I (es.foldl (fun sss e => sss.unloadCommunity e.1 e.2) sss) := by
  have hedges : ∀ (comm : ℕ) (es : List (ℕ × PeerInfo)) (sss : Sn), I sss →
      I (es.foldl (fun sss e => sss.unloadEdge comm e.1 e.2.socketFd) sss) := by
    intro comm es
    induction es with
    | nil => exact fun _ h => h
    | cons e es ih => exact fun sss h => ih _ (hedge sss comm e.1 e.2.socketFd h)
  induction es generalizing sss with
  | nil => exact h
  | cons e es ih =>
    have hcomm : I (sss.unloadCommunity e.1 e.2) := by
      unfold Sn.unloadCommunity
      split_ifs
      · exact h
      · exact hdel _ e.1 (hedges e.1 _ sss h)
    exact ih hcomm

/-- `calculate_shared_secrets`, given `generate_shared_secret` with the key of the
federation. -/
def Sn.calculateSharedSecrets (sss : Sn) (secret : List UInt8 → List UInt8) : Sn :=
  { sss with
    communities := sss.communities.mapValues fun c =>
      if c.isFederation then c
      else
        { c with
          allowedUsers := c.allowedUsers.map fun user =>
            { user with
              sharedSecret := secret user.publicKey
              sharedSecretCtx := speckInit (secret user.publicKey) } } }

/-- `load_allowed_sn_community`, if the file can be opened. -/
def World.loadAllowedSnCommunity (w : World) (lines : List CommunityLine)
    (secret : List UInt8 → List UInt8) : World × ℤ :=
  let w := w.sendReRegisterSuper
  let w := w.setSss fun sss =>
    sss.communities.entries.foldl (fun sss e => sss.unloadCommunity e.1 e.2) sss
  let w := w.setSss fun sss => { sss with rules := [] }
  let (w, now) := w.time
  let keyTime := UInt32.ofInt now
  let w := (w.restartKeyTimes keyTime).setSss fun sss => { sss with dynamicKeyTime := keyTime }
  let w := w.reRegisterSupernodes
  let l := lines.foldl Loading.line ⟨w.sss, none, 0⟩
  if l.num = 0 then ({ w with sss := l.sss }, -2)
  else
    let sss := (l.sss.calculateSharedSecrets secret).calculateDynamicKeys
    ({ w with sss := { sss with lockCommunities := true } }, 0)

/-- All communities but the federation are removed, and the rules; a new key time begins. -/
def World.unloaded (w : World) : World :=
  let w := w.setSss fun sss =>
    sss.communities.entries.foldl (fun sss e => sss.unloadCommunity e.1 e.2) sss
  let w := w.setSss fun sss => { sss with rules := [] }
  let (w, now) := w.time
  let keyTime := UInt32.ofInt now
  (w.restartKeyTimes keyTime).setSss fun sss => { sss with dynamicKeyTime := keyTime }

/-- `load_allowed_sn_community` up to the loop over the lines. -/
def World.beforeLines (w : World) : World := w.sendReRegisterSuper.unloaded.reRegisterSupernodes

/-- The loop over the lines, and what comes behind it. -/
theorem World.loadAllowedSnCommunity_eq (w : World) (lines : List CommunityLine)
    (secret : List UInt8 → List UInt8) :
    w.loadAllowedSnCommunity lines secret =
      let l := lines.foldl Loading.line ⟨w.beforeLines.sss, none, 0⟩
      if l.num = 0 then ({ w.beforeLines with sss := l.sss }, -2)
      else
        let sss := (l.sss.calculateSharedSecrets secret).calculateDynamicKeys
        ({ w.beforeLines with sss := { sss with lockCommunities := true } }, 0) := rfl

/-- What a line keeps, the lines keep. -/
theorem Loading.lines_invariant {I : Loading → Prop} (hline : ∀ l x, I l → I (l.line x))
    (lines : List CommunityLine) {l : Loading} (h : I l) : I (lines.foldl Loading.line l) := by
  induction lines generalizing l with
  | nil => exact h
  | cons x lines ih => exact ih (hline l x h)

end N2n
