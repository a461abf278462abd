import N2nTun.SnHandlers
import N2nTun.Uninitialised.Outcome

/-!
# Which supernode an edge is at

A supernode keeps, for each edge that has registered with another supernode, the socket of that
supernode and the time.  An association is made when a registration is passed on to us, and it
is what `try_forward` looks at.

`update_node_supernode_association` makes an association, and would renew one only if `calloc`
had failed to make it: the `else` belongs to the wrong `if`.

## Main definitions

* `AssocCall`, `World.associate` — calls of `update_node_supernode_association`.
* `Community.assocOf` — the association of a MAC.
* `LastSeenThrough` — an edge is taken to be where it was seen last.

## Main results

* `associate_assocOf` — the first call for a MAC is the one that counts.
* `lastSeenThrough_iff` — **when an edge is taken to be where it was seen last.**
-/

namespace N2n

/-- The arguments of a call of `update_node_supernode_association`. -/
structure AssocCall where
  edgeMac : Mac
  sender : Sock
  now : ℤ

/-- What a call is to leave behind for its MAC. -/
def AssocCall.seen (call : AssocCall) : Sock × ℤ := (call.sender, call.now)

/-- The calls for a MAC. -/
def callsFor (calls : List AssocCall) (mac : Mac) : List AssocCall :=
  calls.filter (·.edgeMac == mac)

/-- Calls of `update_node_supernode_association`, one after the other. -/
def World.associate (w : World) (comm : ℕ) (calls : List AssocCall) : World :=
  calls.foldl (fun w call =>
    w.updateNodeSupernodeAssociation comm call.edgeMac call.sender call.now) w

/-- The association of a MAC: the socket of the supernode, and when the edge was seen there. -/
def Community.assocOf (c : Community) (mac : Mac) : Option (Sock × ℤ) :=
  (c.assoc.find? (·.mac == mac)).map fun assoc => (assoc.2.sock, assoc.2.lastSeen)

/-- One call for the community. -/
def Community.associate (c : Community) (call : AssocCall) : Community :=
  match c.assoc.find? (·.mac == call.edgeMac) with
  | some _ => c
  | none => { c with assoc := c.assoc.add ⟨call.edgeMac, call.sender, call.now⟩ }

theorem World.associate_cons (w : World) (comm : ℕ) (call : AssocCall) (calls : List AssocCall) :
    w.associate comm (call :: calls) =
      (w.setSss (·.modifyComm comm (·.associate call))).associate comm calls := rfl

/-- **One call**: it counts for its MAC if there was no association. -/
theorem Community.assocOf_associate (c : Community) (call : AssocCall) (mac : Mac) :
    (c.associate call).assocOf mac =
      (c.assocOf mac).or (if call.edgeMac = mac then some call.seen else none) := by
  unfold Community.associate
  cases hfind : c.assoc.find? (·.mac == call.edgeMac) with
  | some assoc =>
    dsimp only
    split_ifs with hmac
    · subst hmac
      rw [Community.assocOf, hfind]
      rfl
    · rw [Option.or_none]
  | none =>
    unfold Community.assocOf
    dsimp only
    rw [Table.find?_add]
    dsimp only
    by_cases hmac : call.edgeMac = mac
    · subst hmac
      rw [hfind, if_pos (beq_self_eq_true _), if_pos rfl]
      rfl
    · rw [if_neg (by simpa using hmac), if_neg hmac, Option.or_none]

/-- The edges are left alone. -/
theorem Community.associate_edges (c : Community) (call : AssocCall) :
    (c.associate call).edges = c.edges := by
  unfold Community.associate
  split <;> rfl

/-- **A sequence of calls**: of all calls for a MAC the first one counts, if there was no
association before. -/
theorem World.associate_get? {comm : ℕ} (calls : List AssocCall) {w : World} {c : Community}
    (hget : w.sss.communities.get? comm = some c) :
    ∃ c', (w.associate comm calls).sss.communities.get? comm = some c' ∧ c'.edges = c.edges ∧
      ∀ mac, c'.assocOf mac =
        (c.assocOf mac).or ((callsFor calls mac).head?.map AssocCall.seen) := by
  induction calls generalizing w c with
  | nil => exact ⟨c, hget, rfl, fun mac => (Option.or_none).symm⟩
  | cons call calls ih =>
    have hget' : (w.setSss (·.modifyComm comm (·.associate call))).sss.communities.get? comm =
        some (c.associate call) := Table.get?_modify_self hget
    obtain ⟨c', hc', hedges, hassoc⟩ := ih hget'
    refine ⟨c', by rw [World.associate_cons]; exact hc',
      hedges.trans (c.associate_edges call), fun mac => ?_⟩
    rw [hassoc mac, c.assocOf_associate call mac, Option.or_assoc]
    unfold callsFor
    rw [List.filter_cons]
    by_cases hmac : call.edgeMac = mac <;> simp [hmac]

/-! ### The law -/

/-- After the calls an edge is taken to be where the latest call for its MAC says, or where it was
before if there was none; and a packet for an edge that has not registered here goes there. -/
structure LastSeenThrough (w : World) (comm : ℕ) (c : Community) (calls : List AssocCall)
    (mac : Mac) : Prop where
  assocOf : ∃ c', (w.associate comm calls).sss.communities.get? comm = some c' ∧
    c'.assocOf mac = ((callsFor calls mac).getLast?.map AssocCall.seen).or (c.assocOf mac)
  forward : ∀ call cmn pkt now, (callsFor calls mac).getLast? = some call →
    c.edges.find? (·.hasMac mac) = none →
    ((w.associate comm calls).tryForward comm cmn mac false pkt now).emitted =
      (w.associate comm calls).emitted ++
        [⟨.assoc comm, call.sender, (w.associate comm calls).sss.sock, pkt⟩]

/-- The condition: the association that was there before, or else the first call for the MAC,
says what the latest call says. -/
def SeenOnce (c : Community) (calls : List AssocCall) (mac : Mac) : Prop :=
  ∀ call, (callsFor calls mac).getLast? = some call →
    (c.assocOf mac).or ((callsFor calls mac).head?.map AssocCall.seen) = some call.seen

/-- A packet for an edge with an association goes to the supernode. -/
theorem World.tryForward_assoc {w : World} {comm : ℕ} {c : Community} {mac : Mac} {sock : Sock}
    {time : ℤ} (hget : w.sss.communities.get? comm = some c)
    (hedge : c.edges.find? (·.hasMac mac) = none) (hassoc : c.assocOf mac = some (sock, time))
    (cmn : Common) (pkt : Pkt) (now : ℤ) :
    (w.tryForward comm cmn mac false pkt now).emitted =
      w.emitted ++ [⟨.assoc comm, sock, w.sss.sock, pkt⟩] := by
  obtain ⟨⟨p, assoc⟩, hfind, heq⟩ := Option.map_eq_some_iff.mp hassoc
  obtain ⟨rfl, -⟩ := Prod.mk.inj heq
  have hedges : w.sss.edges comm = c.edges := by rw [Sn.edges, hget]
  unfold World.tryForward
  rw [hedges, hedge, hget]
  simp only [Bool.false_eq_true, if_false, Option.bind_some, hfind]
  exact World.sendFrame_emitted _ _ _ _ _

/-- **An edge is taken to be where it was seen last exactly if all calls that count for it say the
same as the latest one.** -/
theorem lastSeenThrough_iff (w : World) (comm : ℕ) (c : Community)
    (hget : w.sss.communities.get? comm = some c) (calls : List AssocCall) (mac : Mac) :
    LastSeenThrough w comm c calls mac ↔ SeenOnce c calls mac := by
  obtain ⟨c', hget', hedges, hassoc⟩ := World.associate_get? calls hget
  unfold SeenOnce
  rw [← hassoc mac]
  constructor
  · intro h call hlast
    obtain ⟨c'', hget'', hlaw⟩ := h.assocOf
    obtain rfl := Option.some.inj (hget'.symm.trans hget'')
    rw [hlaw, hlast]
    rfl
  · intro h
    refine ⟨⟨c', hget', ?_⟩, fun call cmn pkt now hlast hedge => ?_⟩
    · cases hlast : (callsFor calls mac).getLast? with
      | some call => exact h call hlast
      | none =>
        rw [hassoc mac, List.getLast?_eq_none_iff.mp hlast]
        simp
    · exact World.tryForward_assoc hget' (hedges ▸ hedge) (h call hlast) cmn pkt now

/-- A supernode with one community and no edges. -/
def assocSn : World :=
  .start { idleSn with communities := Table.empty.add Community.zero }

theorem length_seenMac : ([2, 0, 0, 0, 0, 1] : List UInt8).length = 6 :=
  rfl

/-- The edge 02:…:01 is seen at the supernode 192.0.2.`h`. -/
def seenAt (h : UInt8) (now : ℤ) : AssocCall :=
  ⟨⟨[2, 0, 0, 0, 0, 1], length_seenMac⟩, hostSock h 7654, now⟩

/-- The edge is seen at one supernode only, at one time. -/
theorem lastSeenThrough_once :
    LastSeenThrough assocSn 0 Community.zero [seenAt 8 100] (seenAt 8 100).edgeMac :=
  (lastSeenThrough_iff assocSn 0 Community.zero rfl [seenAt 8 100] (seenAt 8 100).edgeMac).mpr
    fun _ hlast => by
      obtain rfl := Option.some.inj hlast
      decide

/-- The edge moves from one supernode to another, and is still taken to be at the first one. -/
theorem not_lastSeenThrough_moved :
    ¬ LastSeenThrough assocSn 0 Community.zero [seenAt 8 100, seenAt 9 130]
      (seenAt 8 100).edgeMac := by
  intro h
  obtain ⟨c', hget, hassoc⟩ := h.assocOf
  have hkept : ((assocSn.associate 0 [seenAt 8 100, seenAt 9 130]).sss.communities.get? 0).map
      (·.assocOf (seenAt 8 100).edgeMac) = some (some (hostSock 8 7654, 100)) := by
    decide
  rw [hget, Option.map_some, hassoc] at hkept
  exact absurd hkept (by decide)

end N2n
