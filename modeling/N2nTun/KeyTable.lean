import N2nTun.SnHandlers

/-!
# Tables keyed by MAC

`uthash` takes any key: an entry whose MAC another entry has already is added all the same, and
an entry whose MAC is written while it is in the table stays where the old MAC was hashed. That
neither happens rests on the functions that change a MAC, each of which has looked the MAC up
and takes the entry out before the write.

## Main definitions

* `PeersKeyed` — the entries are hashed under their MACs, and no two have the same one.

## Main results

* `addSnToList_keyed`, `updateEdge_keyed` — the functions that change a MAC keep that.
-/

namespace N2n

/-- Entries are hashed under their own MACs, and no two of them have the same one, of those that
count: all in a community, those that are known in the federation. -/
structure PeersKeyed (t : Table PeerInfo) (counts : Mac → Prop) : Prop where
  hashed : ∀ e ∈ t, e.hashKey = e.macAddr
  distinct : t.DistinctOn PeerInfo.macAddr counts

/-- A MAC that is not null. -/
def KnownMac (mac : Mac) : Prop := isNullMac mac = false

namespace PeersKeyed

variable {t : Table PeerInfo} {counts : Mac → Prop} {p : ℕ}

theorem empty : PeersKeyed .empty counts := ⟨by rintro e ⟨⟩, .empty⟩

/-- Entries may go, and those that stay keep their keys. -/
theorem of_kept {t' : Table PeerInfo} (h : PeersKeyed t counts)
    (hkept : ∀ q e', t'.get? q = some e' →
      ∃ e, t.get? q = some e ∧ e'.macAddr = e.macAddr ∧ e'.hashKey = e.hashKey) :
    PeersKeyed t' counts where
  hashed := by
    intro e' he'
    obtain ⟨q, hq⟩ := Table.mem_iff_get?.mp he'
    obtain ⟨e, he, hmac, hkey⟩ := hkept q e' hq
    rw [hmac, hkey]
    exact h.hashed e (Table.mem_of_get? he)
  distinct := h.distinct.of_kept fun q e' he' => by
    obtain ⟨e, he, hmac, -⟩ := hkept q e' he'
    exact ⟨e, he, hmac⟩

/-- A write that leaves the MAC alone. -/
theorem modify (h : PeersKeyed t counts) (p : ℕ) {f : PeerInfo → PeerInfo}
    (hmac : ∀ e, (f e).macAddr = e.macAddr) (hkey : ∀ e, (f e).hashKey = e.hashKey) :
    PeersKeyed (t.modify p f) counts := by
  refine h.of_kept fun q e' he' => ?_
  rw [Table.get?_modify] at he'
  split_ifs at he'
  · obtain ⟨e, he, rfl⟩ := Option.map_eq_some_iff.mp he'
    exact ⟨e, he, hmac e, hkey e⟩
  · exact ⟨e', he', rfl, rfl⟩

/-- A new entry under a MAC that was looked up. -/
theorem add (h : PeersKeyed t counts) {a : PeerInfo} (ha : a.hashKey = a.macAddr)
    (hnew : counts a.macAddr → ∀ e ∈ t, e.macAddr ≠ a.macAddr) : PeersKeyed (t.add a) counts where
  hashed := by
    intro e he
    rcases Table.mem_add.mp he with he | rfl
    · exact h.hashed e he
    · exact ha
  distinct := h.distinct.add hnew

/-- An entry gets a MAC that was looked up. -/
theorem rekey (h : PeersKeyed t counts) (p : ℕ) {mac : Mac}
    (hnew : counts mac → ∀ e ∈ t, e.macAddr ≠ mac) :
    PeersKeyed (t.rekey p (·.keyed mac)) counts where
  hashed := by
    intro e he
    rcases Table.mem_rekey he with he | ⟨a, -, rfl⟩
    · exact h.hashed e he
    · rfl
  distinct := h.distinct.rekey p (fun _ => rfl) hnew

end PeersKeyed

/-- What `HASH_FIND_PEER` does not find is not there. -/
theorem ne_of_find?_hasMac {t : Table PeerInfo} {mac : Mac}
    (h : t.find? (·.hasMac mac) = none) : ∀ e ∈ t, e.macAddr ≠ mac := by
  intro e he hmac
  have hno := Table.find?_eq_none.mp h e he
  simp [PeerInfo.hasMac, hmac] at hno

/-- **`add_sn_to_list_by_mac_or_sock` keeps the known MACs distinct**: a MAC goes to an entry,
new or found by its socket, only after the search for it has failed. -/
theorem addSnToList_keyed {l : Table PeerInfo} (h : PeersKeyed l KnownMac) (sock : Sock)
    (mac : Mac) (skipAdd : SkipAdd) (stamp : UInt64) :
    PeersKeyed (addSnToListByMacOrSock l sock mac skipAdd stamp).1 KnownMac := by
  have hnew : (if isNullMac mac then none else l.find? (·.hasMac mac)) = none → KnownMac mac →
      ∀ e ∈ l, e.macAddr ≠ mac := by
    intro hfind hknown
    rw [if_neg (by rw [hknown]; exact Bool.false_ne_true)] at hfind
    exact ne_of_find?_hasMac hfind
  unfold addSnToListByMacOrSock
  split
  · exact h
  · rename_i hfind
    split
    · dsimp only
      split_ifs
      · exact h
      · exact h.rekey _ (hnew hfind)
    · split_ifs
      · exact h.add rfl (hnew hfind)
      · exact h

/-- **`update_edge` keeps the MACs distinct**: the entry with the tunnel address gets the MAC of
the registration only if no entry has it. -/
theorem updateEdge_keyed {sss : Sn} {cmn : Common} {reg : RegisterSuper} {comm : Community}
    {counts : Mac → Prop} (h : PeersKeyed comm.edges counts) (senderSock : Sock) (socketFd : ℤ)
    (answer : Auth) (skipAdd : SkipAdd) (stamp : UInt64) (now : ℤ) :
    PeersKeyed (updateEdge sss cmn reg comm senderSock socketFd answer skipAdd stamp now).edges
      counts := by
  have hlookup : PeersKeyed (lookupEdge comm.edges reg).1 counts := by
    unfold lookupEdge
    split
    · exact h
    · rename_i hfind
      split
      · exact h.rekey _ fun _ => ne_of_find?_hasMac hfind
      · exact h
  have hadd : (lookupEdge comm.edges reg).2 = none →
      ∀ e ∈ (lookupEdge comm.edges reg).1, e.macAddr ≠ reg.edgeMac := by
    unfold lookupEdge
    split
    · exact fun hnone => absurd hnone (by simp)
    · rename_i hfind
      split
      · exact fun hnone => absurd hnone (by simp)
      · exact fun _ => ne_of_find?_hasMac hfind
  unfold updateEdge
  dsimp only
  split
  · rename_i hnone
    split_ifs
    · exact hlookup.add rfl fun _ => hadd hnone
    · exact hlookup
    · exact hlookup
  · split_ifs
    · exact hlookup.modify _ (fun _ => rfl) fun _ => rfl
    · exact hlookup.modify _ (fun _ => rfl) fun _ => rfl
    · exact hlookup

/-- The associations of a community have distinct MACs. -/
def AssocDistinct (t : Table Assoc) : Prop := t.DistinctOn Assoc.mac fun _ => True

theorem purgeAssoc_distinct {assoc : Table Assoc} (h : AssocDistinct assoc) (now : ℤ) :
    AssocDistinct (purgeAssoc assoc now) := by
  unfold purgeAssoc
  generalize assoc.entries = entries
  induction entries generalizing assoc with
  | nil => exact h
  | cons e entries ih =>
    rw [List.foldl_cons]
    refine ih ?_
    split
    · split_ifs
      · exact Table.DistinctOn.del h e.1
      · exact h
    · exact h

/-- An association is added for a MAC that was looked up. -/
theorem addAssoc_distinct {assoc : Table Assoc} (h : AssocDistinct assoc) {a : Assoc}
    (hfind : assoc.find? (·.mac == a.mac) = none) : AssocDistinct (assoc.add a) :=
  Table.DistinctOn.add h fun _ e he hmac => by
    have hno := Table.find?_eq_none.mp hfind e he
    simp [hmac] at hno

end N2n
