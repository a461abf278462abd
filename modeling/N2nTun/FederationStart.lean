import N2nTun.SnStart

/-!
# The name of the federation at the start

Supernodes that are started with the same name for their federation should have the same keys
for it, and find it under this name. They do if the name that counts in the end is the name that
the federation had before the options were read: the name alone is written over later.

## Main definitions

* `FederationLaw` — the law.

## Main results

* `federationLaw_iff` — **the law holds exactly if the options do not change the name.**
* `FederationLaw.keys_eq` — two supernodes that keep the law for one name have the same keys.
-/

namespace N2n

open Bytes Tokens

/-- **The law**: the federation has the name, the keys that are made from it, and is found by it
in the table of communities. -/
def FederationLaw (sss : Sn) (name : List UInt8) : Prop :=
  ∃ c, sss.communities.get? sss.federation = some c ∧ c.name = name ∧
    c.keys = packetHeaderSetupKey (commInitName name).toList ∧
      sss.findCommunity (commInitName name) = some sss.federation

/-- One name, one set of keys. -/
theorem FederationLaw.keys_eq {sss sss' : Sn} {name : List UInt8} (h : FederationLaw sss name)
    (h' : FederationLaw sss' name) {c c' : Community}
    (hget : sss.communities.get? sss.federation = some c)
    (hget' : sss'.communities.get? sss'.federation = some c') : c'.keys = c.keys := by
  obtain ⟨c₀, hget₀, -, hkeys, -⟩ := h
  obtain ⟨c₀', hget₀', -, hkeys', -⟩ := h'
  obtain rfl := Option.some.inj (hget.symm.trans hget₀)
  obtain rfl := Option.some.inj (hget'.symm.trans hget₀')
  exact hkeys'.trans hkeys.symm

/-- A name that the federation may have is stored as it is. -/
theorem StarNamed.cstr_commInitName {name : List UInt8} (h : StarNamed name) :
    cstr (commInitName name).toList = name := by
  have hlen := h.length
  rw [N2n.cstr_commInitName, show cstr name = name from List.takeWhile_eq_self_iff.mpr h.chars]
  exact List.take_of_length_le (by omega)

/-- A community begins with its name. -/
theorem Community.take_name (c : Community) : c.community.toList.take c.name.length = c.name :=
  (List.prefix_iff_eq_take.mp (List.takeWhile_prefix _)).symm

/-- **The federation is found by its name exactly if that is its first name.** -/
theorem findCommunity_started {key name : List UInt8} {sss : Sn} (h : sss.Started key name)
    (hname : StarNamed name) :
    sss.findCommunity (commInitName name) = some sss.federation ↔ name = key := by
  obtain ⟨c, hget, -, -, hkey, hc, -⟩ := h.federation
  unfold Sn.findCommunity
  rw [hname.cstr_commInitName]
  constructor
  · intro hfind
    obtain ⟨⟨p, c'⟩, hfind, rfl⟩ := Option.map_eq_some_iff.mp hfind
    obtain ⟨hget', hhas⟩ := Table.find?_eq_some hfind
    obtain rfl := Option.some.inj (hget'.symm.trans hget)
    have hsame : c'.key = name := eq_of_beq (Bool.and_eq_true_iff.mp hhas).1
    exact hsame.symm.trans hkey
  · rintro rfl
    -- the federation has the name, so that something is found
    have hhas : c.hasName name = true := by
      have htake := c.take_name
      rw [hc] at htake
      simp [Community.hasName, hkey, htake]
    cases hfind : sss.communities.find? (·.hasName name) with
    | none =>
      have hnot := Table.find?_eq_none.mp hfind c (Table.mem_of_get? hget)
      rw [hhas] at hnot
      cases hnot
    | some e =>
      obtain ⟨hget', hhas'⟩ := Table.find?_eq_some hfind
      have hkey' : e.2.key = name := eq_of_beq (Bool.and_eq_true_iff.mp hhas').1
      refine congrArg some ?_
      by_contra hp
      -- no other community has a name of this kind
      exact (h.others e.1 e.2 hget' hp).key (hkey' ▸ hname.head)

/-- **The law of the federation's name.** When a supernode enters its loop, its federation has
the keys for the name that was given last and is found by it exactly if this is the name that
it had before the options were read. -/
theorem federationLaw_iff {env : StartEnv} {options : List SnOption} {w : World}
    (h : snMain env options = some w) :
    FederationLaw w.sss (env.finalName options) ↔ env.finalName options = env.initialName := by
  have hstarted := snMain_started h
  have hfind := findCommunity_started hstarted (env.starNamed_finalName options)
  obtain ⟨c, hget, -, -, -, hname, hkeys⟩ := hstarted.federation
  constructor
  · rintro ⟨-, -, -, -, hfound⟩
    exact hfind.mp hfound
  · intro heq
    refine ⟨c, hget, hname, ?_, hfind.mpr heq⟩
    rw [heq]
    exact hkeys

theorem length_plainMac : ([2, 0, 0, 0, 0, 1] : List UInt8).length = 6 :=
  rfl

/-- A start in quiet surroundings, without the environment variable. -/
def plainStart : StartEnv where
  env := quietEnv
  federation := none
  packageVersion := ascii "3.1.1"
  token := List.replicate 16 7
  macAddr := ⟨[2, 0, 0, 0, 0, 1], length_plainMac⟩
  supernode2sock _ := (0, hostSock 9 7654)
  files _ := some officeText
  fileEnv := plainFileEnv
  sock := some 3

/-- An anchor, a community file, and the default name once more. -/
def plainOptions : List SnOption :=
  [.supernode (ascii "192.0.2.9:7654"), .communities (ascii "community.list"),
    .federation (ascii "Federation")]

/-- The law holds. -/
theorem federationLaw_plain :
    ∃ w, snMain plainStart plainOptions = some w ∧
      FederationLaw w.sss (plainStart.finalName plainOptions) := by
  have hsome : (snMain plainStart plainOptions).isSome = true := by decide +kernel
  obtain ⟨w, hw⟩ := Option.isSome_iff_exists.mp hsome
  exact ⟨w, hw, (federationLaw_iff hw).mpr (by decide +kernel)⟩

/-- **The law fails** with the option `-F home`: nothing is found by the name. -/
theorem not_federationLaw_home :
    ∃ w, snMain plainStart [.federation (ascii "home")] = some w ∧
      ¬FederationLaw w.sss (plainStart.finalName [.federation (ascii "home")]) := by
  have hfind : (snMain plainStart [.federation (ascii "home")]).map
      (fun w => w.sss.findCommunity (commInitName (ascii "*home"))) = some none := by
    decide +kernel
  obtain ⟨w, hw, hnone⟩ := Option.map_eq_some_iff.mp hfind
  have hname : plainStart.finalName [.federation (ascii "home")] = ascii "*home" := by decide
  refine ⟨w, hw, ?_⟩
  rintro ⟨-, -, -, -, hfound⟩
  rw [hname, hnone] at hfound
  cases hfound

end N2n
