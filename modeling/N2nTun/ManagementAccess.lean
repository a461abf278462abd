import N2nTun.Lib.Machine
import N2nTun.SnManagement

/-!
# Access control on the management ports

A read request, and a request to write or to subscribe without the password, changes nothing, so it
may be inserted into any run of the program.  Two kinds of them have no defined behaviour: a request
whose options consist of colons, since `strncpy` copies the tag from `NULL` then, and a datagram
that fills the buffer, since a zero is written behind it.

## Main definitions

* `ChangesNothing` — packets that change nothing, and runs that differ in such packets.
* `EdgeMgmt.AccessLaw`, `SnMgmt.AccessLaw` — the law of the two ports.
* `MgmtPacket.Sound` — the packets that have a defined behaviour.

## Main results

* `accessLaw_iff` — **the law holds for a kind of packets if and only if they are sound.**
-/

namespace N2n

open Machines Tokens

/-- A packet for a management port, and the community file at the time. -/
structure MgmtPacket where
  sender : Sock
  buf : List UInt8
  file : Option CommunityFile

/-- What happens to a program: something else, or a packet on its management port. -/
inductive MgmtInput (α : Type*) where
  | other (f : α → Option α)
  | packet (p : MgmtPacket)

/-- One input; `none` if the behaviour is undefined. -/
def MgmtInput.step {α : Type*} (onPacket : α → MgmtPacket → Option α) (s : α) :
    MgmtInput α → Option α
  | .other f => f s
  | .packet p => onPacket s p

/-- The input is a packet of a kind. -/
def MgmtInput.IsPacket {α : Type*} (kind : MgmtPacket → Prop) : MgmtInput α → Prop
  | .other _ => False
  | .packet p => kind p

/-- Packets of a kind change nothing, and two runs that differ in such packets end in the same
state. -/
def ChangesNothing {α : Type*} (onPacket : α → MgmtPacket → Option α)
    (kind : MgmtPacket → Prop) : Prop :=
  (∀ s p, kind p → onPacket s p = some s) ∧
    ∀ es es₁ es₂ : List (MgmtInput α), Inserted (MgmtInput.IsPacket kind) es es₁ →
      Inserted (MgmtInput.IsPacket kind) es es₂ →
      ∀ s, es₁.foldlM (MgmtInput.step onPacket) s = es₂.foldlM (MgmtInput.step onPacket) s

/-- It is enough to know what one packet does. -/
theorem changesNothing_iff {α : Type*} {onPacket : α → MgmtPacket → Option α}
    {kind : MgmtPacket → Prop} :
    ChangesNothing onPacket kind ↔ ∀ s p, kind p → onPacket s p = some s := by
  refine ⟨And.left, fun h => ⟨h, fun es es₁ es₂ h₁ h₂ s => ?_⟩⟩
  have hstep : ∀ (s : α) (e : MgmtInput α), MgmtInput.IsPacket kind e →
      MgmtInput.step onPacket s e = some s := by
    intro s e he
    cases e with
    | other f => cases he
    | packet p => exact h s p he
  exact (h₁.foldlM_eq hstep s).trans (h₂.foldlM_eq hstep s).symm

/-- The behaviour is defined: the datagram does not fill the buffer, and where the request is
complete, its options do not consist of colons. -/
def MgmtPacket.Sound (p : MgmtPacket) : Prop :=
  p.buf.length < mgmtBufSize ∧ ¬ Tagless (cmdlineOf p.buf)

/-- The bytes of a text that a buffer starts with. -/
theorem EdgeMgmt.startsWith_getD {text : String} {buf : List UInt8}
    (h : startsWith text buf = true) {i : ℕ} (hi : i < (ascii text).length) :
    buf.getD i 0 = (ascii text).getD i 0 := by
  obtain ⟨rest, rfl⟩ := List.isPrefixOf_iff_prefix.mp h
  exact List.getD_append _ _ _ i hi

/-! ### The edge -/

namespace EdgeMgmt

variable {σ : Type*}

/-- A packet on the port. -/
def onPacket (passwordHash : UInt64) (s : EdgeMgmt σ) (p : MgmtPacket) : Option (EdgeMgmt σ) :=
  (s.readFromMgmtSocket passwordHash p.sender p.buf).map Prod.fst

/-- A request of the JSON protocol that reads, or comes without the password. -/
def Powerless (passwordHash : UInt64) (p : MgmtPacket) : Prop :=
  isJson p.buf = true ∧ Unprivileged passwordHash (cmdlineOf p.buf)

/-- The law of the port, for requests that are in `Q`. -/
def AccessLaw (σ : Type*) (passwordHash : UInt64) (Q : MgmtPacket → Prop) : Prop :=
  ChangesNothing (onPacket passwordHash (σ := σ)) fun p => Powerless passwordHash p ∧ Q p

/-- A request of the JSON protocol is no command for a console. -/
theorem readFromMgmtSocket_json (s : EdgeMgmt σ) (passwordHash : UInt64) (sender : Sock)
    {udpBuf : List UInt8} (hlen : udpBuf.length < mgmtBufSize) (hjson : isJson udpBuf = true) :
    s.readFromMgmtSocket passwordHash sender udpBuf =
      s.handleMgmtJson passwordHash sender udpBuf := by
  have hparts := hjson
  unfold isJson at hparts
  rw [Bool.and_eq_true, Bool.and_eq_true, beq_iff_eq, decide_eq_true_eq, decide_eq_true_eq]
    at hparts
  obtain ⟨⟨hfirst, -⟩, hsecond⟩ := hparts
  -- the second byte is a space, which it is in no command
  have hspace : ∀ text, 1 < (ascii text).length → (ascii text).getD 1 0 ≠ 0x20 →
      startsWith text udpBuf = false := by
    intro text hlong hne
    by_contra htrue
    rw [Bool.not_eq_false] at htrue
    exact hne ((startsWith_getD htrue hlong).symm.trans hsecond)
  have hquestion : startsWith "?" udpBuf = false := by
    by_contra htrue
    rw [Bool.not_eq_false] at htrue
    rw [startsWith_getD htrue (by decide)] at hfirst
    exact absurd hfirst (by decide)
  unfold readFromMgmtSocket
  rw [if_neg (Nat.not_le.mpr hlen), hspace "help" (by decide) (by decide), hquestion,
    hspace "stop" (by decide) (by decide), hspace "+verb" (by decide) (by decide),
    hspace "-verb" (by decide) (by decide), hjson]
  rfl

/-- **A request without the power to change anything changes nothing if and only if it is
sound.** -/
theorem onPacket_iff (s : EdgeMgmt σ) {passwordHash : UInt64} {p : MgmtPacket}
    (hp : Powerless passwordHash p) : onPacket passwordHash s p = some s ↔ p.Sound := by
  obtain ⟨hjson, hline⟩ := hp
  unfold MgmtPacket.Sound onPacket
  by_cases hlen : p.buf.length < mgmtBufSize
  · rw [s.readFromMgmtSocket_json passwordHash p.sender hlen hjson, s.handleMgmtJson_iff hline]
    simp [hlen]
  · unfold readFromMgmtSocket
    rw [if_pos (Nat.not_lt.mp hlen)]
    simp [hlen]

end EdgeMgmt

/-! ### The supernode -/

namespace SnMgmt

/-- A packet on the port. -/
def onPacket (passwordHash : UInt64) (s : SnMgmt) (p : MgmtPacket) : Option SnMgmt :=
  (s.mgmtInput p.file passwordHash p.sender p.buf).map Prod.fst

/-- A request of the JSON protocol that reads, or comes without the password.  A question mark asks
for help, whatever follows. -/
def Powerless (passwordHash : UInt64) (p : MgmtPacket) : Prop :=
  isJson p.buf = true ∧ EdgeMgmt.startsWith "?" p.buf = false ∧
    Unprivileged passwordHash (cmdlineOf p.buf)

/-- The law of the port, for requests that are in `Q`. -/
def AccessLaw (passwordHash : UInt64) (Q : MgmtPacket → Prop) : Prop :=
  ChangesNothing (onPacket passwordHash) fun p => Powerless passwordHash p ∧ Q p

theorem mgmtInput_json (s : SnMgmt) (file : Option CommunityFile) (passwordHash : UInt64)
    (sender : Sock) {mgmtBuf : List UInt8} (hlen : mgmtBuf.length < mgmtBufSize)
    (hjson : isJson mgmtBuf = true) (hquestion : EdgeMgmt.startsWith "?" mgmtBuf = false) :
    s.mgmtInput file passwordHash sender mgmtBuf =
      s.handleMgmtJson file passwordHash sender mgmtBuf := by
  have hsecond : mgmtBuf.getD 1 0 = 0x20 := by
    unfold isJson at hjson
    rw [Bool.and_eq_true, beq_iff_eq] at hjson
    exact hjson.2
  have hspace : ∀ text, 1 < (ascii text).length → (ascii text).getD 1 0 ≠ 0x20 →
      EdgeMgmt.startsWith text mgmtBuf = false := by
    intro text hlong hne
    by_contra htrue
    rw [Bool.not_eq_false] at htrue
    exact hne ((EdgeMgmt.startsWith_getD htrue hlong).symm.trans hsecond)
  have hne : mgmtBuf ≠ [] := by
    rintro rfl
    exact absurd hsecond (by decide)
  unfold mgmtInput processMgmt
  rw [if_neg hne, if_neg (Nat.not_le.mpr hlen), hspace "help" (by decide) (by decide), hquestion,
    hspace "reload_communities" (by decide) (by decide), hjson]
  rfl

theorem onPacket_iff (s : SnMgmt) {passwordHash : UInt64} {p : MgmtPacket}
    (hp : Powerless passwordHash p) : onPacket passwordHash s p = some s ↔ p.Sound := by
  obtain ⟨hjson, hquestion, hline⟩ := hp
  unfold MgmtPacket.Sound onPacket
  by_cases hlen : p.buf.length < mgmtBufSize
  · rw [s.mgmtInput_json p.file passwordHash p.sender hlen hjson hquestion,
      s.handleMgmtJson_iff p.file hline]
    simp [hlen]
  · have hne : p.buf ≠ [] := by
      intro hnil
      rw [hnil] at hlen
      exact hlen (by decide)
    unfold mgmtInput processMgmt
    rw [if_neg hne, if_pos (Nat.not_lt.mp hlen)]
    simp [hlen]

end SnMgmt

/-! ### The law -/

/-- **The law of both ports holds for a kind of packets if and only if they are sound.** -/
theorem accessLaw_iff (σ : Type*) [Inhabited σ] (passwordHash : UInt64) (Q : MgmtPacket → Prop) :
    (EdgeMgmt.AccessLaw σ passwordHash Q ↔
      ∀ p, EdgeMgmt.Powerless passwordHash p → Q p → p.Sound) ∧
    (SnMgmt.AccessLaw passwordHash Q ↔
      ∀ p, SnMgmt.Powerless passwordHash p → Q p → p.Sound) := by
  unfold EdgeMgmt.AccessLaw SnMgmt.AccessLaw
  rw [changesNothing_iff, changesNothing_iff]
  constructor
  · constructor
    · intro h p hp hQ
      let s : EdgeMgmt σ := ⟨⟨true, 2⟩, fun _ => .from .zero, default⟩
      exact (s.onPacket_iff hp).mp (h s p ⟨hp, hQ⟩)
    · exact fun h s p hp => (s.onPacket_iff hp.1).mpr (h p hp.1 hp.2)
  · constructor
    · intro h p hp hQ
      let s : SnMgmt := ⟨⟨true, 2⟩, false, .start idleSn⟩
      exact (s.onPacket_iff hp).mp (h s p ⟨hp, hQ⟩)
    · exact fun h s p hp => (s.onPacket_iff hp.1).mpr (h p hp.1 hp.2)

/-- A read request with one colon for its options. -/
def colonPacket : MgmtPacket := ⟨.zero, ascii "r : edges", none⟩

/-- It ends either program, so the law does not hold for all requests. -/
theorem not_accessLaw_colon :
    ¬ EdgeMgmt.AccessLaw Unit (pearsonHash64 (ascii "n2n")) (fun _ => True) ∧
      ¬ SnMgmt.AccessLaw (pearsonHash64 (ascii "n2n")) fun _ => True := by
  have hread : Unprivileged (pearsonHash64 (ascii "n2n")) (cmdlineOf colonPacket.buf) := by
    have htype : lineType (cmdlineOf colonPacket.buf) = some .read := by decide
    rintro (h | h) <;>
    · rw [htype] at h
      cases h
  constructor
  · intro h
    let s : EdgeMgmt Unit := ⟨⟨true, 2⟩, fun _ => .from .zero, ()⟩
    have hsame := h.1 s colonPacket ⟨⟨by decide, hread⟩, trivial⟩
    exact absurd (congrArg Option.isSome hsame) (by decide)
  · intro h
    let s : SnMgmt := ⟨⟨true, 2⟩, false, .start idleSn⟩
    have hsame := h.1 s colonPacket ⟨⟨by decide, by decide, hread⟩, trivial⟩
    exact absurd (congrArg Option.isSome hsame) (by decide)

end N2n
