import N2nTun.SnHandlers

/-!
# The identity of a socket

Two comparisons of `n2n_sock_t` live side by side: `sock_equal`, by family, port and address,
and `memcmp` over the whole structure, which also sees the type byte and the address bytes that
an IPv4 socket does not use. Whether they agree depends on who made the two values:
`fill_n2nsock` clears the type, `decode_sock` sets it, and `decode_sock_payload` leaves what the
stack held, and takes the unused bytes from the wire.

## Main definitions

* `fillN2nSock`, `SockMade` — the constructors of the program, and the values they make.
* `Endpoint` — the address and port a value stands for.
* `memcmpSock` — the byte-wise comparison.

## Main results

* `sockEqual_iff_endpoint` — `sock_equal` compares endpoints.
* `memcmpSock_agrees_iff` — when `memcmp` does the same.
-/

namespace N2n

open Bytes

/-- `AF_INET` and `AF_INET6` addresses as the operating system hands them over, ports in host
order. -/
inductive SockAddr where
  | v4 (port : UInt16) (addr : List.Vector UInt8 4)
  | v6 (port : UInt16) (addr : List.Vector UInt8 16)
  deriving DecidableEq

/-- `fill_n2nsock`: the structure is cleared first, so its type is 0. -/
def fillN2nSock : SockAddr → Sock
  | .v4 port addr => ⟨afInet, 0, port, v4Addr addr⟩
  | .v6 port addr => ⟨afInet6, 0, port, addr⟩

/-- The memory of an `n2n_sock_t`, the port in the order of a little-endian host. -/
def Sock.bytes (sock : Sock) : List UInt8 :=
  [sock.family, sock.type, sock.port.toUInt8, (sock.port >>> 8).toUInt8] ++ sock.addr.toList

/-- `memcmp(&a, &b, sizeof(n2n_sock_t)) == 0`. -/
def memcmpSock (a b : Sock) : Bool := a.bytes == b.bytes

/-- A port from its two bytes. -/
theorem port_ext {a b : UInt16} (hlow : a.toUInt8 = b.toUInt8)
    (hhigh : (a >>> 8).toUInt8 = (b >>> 8).toUInt8) : a = b := by
  have hlow := congrArg UInt8.toNat hlow
  have hhigh := congrArg UInt8.toNat hhigh
  have h8 : (8 : UInt16).toNat % 16 = 8 := rfl
  simp only [UInt16.toNat_toUInt8, UInt16.toNat_shiftRight, h8, Nat.shiftRight_eq_div_pow]
    at hlow hhigh
  have ha := a.toNat_lt
  have hb := b.toNat_lt
  exact UInt16.toNat_inj.mp (by omega)

/-- The structure has no padding: equal bytes are equal values. -/
theorem memcmpSock_iff (a b : Sock) : memcmpSock a b = true ↔ a = b := by
  refine ⟨fun h => ?_, fun h => by rw [memcmpSock, h, beq_self_eq_true]⟩
  obtain ⟨family, type, port, addr⟩ := a
  obtain ⟨family', type', port', addr'⟩ := b
  simp only [memcmpSock, Sock.bytes, beq_iff_eq, List.cons_append, List.nil_append,
    List.cons.injEq] at h
  obtain ⟨rfl, rfl, hlow, hhigh, haddr⟩ := h
  rw [port_ext hlow hhigh, List.Vector.toList_injective haddr]

/-! ### Values and what they stand for -/

/-- The ways in which the program makes an `n2n_sock_t`: from the sender's address, from a
socket in a message (into a cleared structure), from an entry of the supernode list (into a
local variable that holds `stack`). -/
inductive SockMade where
  | filled (sa : SockAddr)
  | decoded (base : List UInt8) (c : Cursor)
  | listed (stack : Sock) (entry : List.Vector UInt8 20)

namespace SockMade

/-- The value that is made. -/
def sock : SockMade → Sock
  | filled sa => fillN2nSock sa
  | decoded base c => (decodeSock Sock.zero base c).out
  | listed stack entry => (decodeSockPayload stack entry.toList ⟨20, 0⟩).out

/-- The type byte: 0 from the operating system's address, bit `0x4000` of the flags from a
message, whatever the variable held from a list. -/
def typeByte : SockMade → UInt8
  | filled _ => 0
  | decoded base c => if (decodeUint16 0 base c).out &&& 0x4000 ≠ 0 then sockStream else sockDgram
  | listed stack _ => stack.type

/-- The address bytes that an IPv4 socket does not use: clear, or as the list has them. -/
def spareBytes : SockMade → List UInt8
  | filled _ => List.replicate 12 0
  | decoded _ _ => List.replicate 12 0
  | listed _ entry => entry.toList.drop 8

end SockMade

/-- What a socket stands for: an address of 4 or 16 bytes, and a port. -/
structure Endpoint where
  family : UInt8
  port : UInt16
  addr : List UInt8
  deriving DecidableEq

/-- The endpoint of a sockaddr. -/
def SockAddr.endpoint : SockAddr → Endpoint
  | .v4 port addr => ⟨afInet, port, addr.toList⟩
  | .v6 port addr => ⟨afInet6, port, addr.toList⟩

/-- The endpoint of a socket in a message. -/
def endpointAt (base : List UInt8) (c : Cursor) : Endpoint :=
  let f := decodeUint16 0 base c
  let port := decodeUint16 0 base f.cur
  if f.out &&& 0x8000 ≠ 0 then
    ⟨afInet6, port.out, (decodeVec (List.Vector.replicate 16 0) base port.cur).out.toList⟩
  else ⟨afInet, port.out, (decodeVec (List.Vector.replicate 4 0) base port.cur).out.toList⟩

/-- The endpoint of an entry of the supernode list: family, blank, port (low byte first),
address. -/
def endpointOfEntry (entry : List.Vector UInt8 20) : Endpoint :=
  let family := entry.get 0
  let addr := entry.toList.drop 4
  ⟨family, be16 (entry.get 3) (entry.get 2), if family = afInet then addr.take 4 else addr⟩

/-- The endpoint that a value was made for. -/
def SockMade.endpoint : SockMade → Endpoint
  | filled sa => sa.endpoint
  | decoded base c => endpointAt base c
  | listed _ entry => endpointOfEntry entry

/-- The endpoint of a value, as `sock_equal` reads it. -/
def Sock.endpoint (sock : Sock) : Endpoint :=
  ⟨sock.family, sock.port,
    if sock.family = afInet then sock.addr.toList.take 4 else sock.addr.toList⟩

theorem sockEqual_iff (a b : Sock) : sockEqual a b = true ↔ a.endpoint = b.endpoint := by
  unfold sockEqual Sock.endpoint
  by_cases hport : a.port = b.port
  · by_cases hfamily : a.family = b.family
    · by_cases hinet : a.family = afInet
      · simp [hport, hfamily, hfamily ▸ hinet]
      · have hinet' : ¬ b.family = afInet := hfamily ▸ hinet
        simp [hport, hfamily, hinet', List.Vector.toList_injective.eq_iff]
    · simp [hport, hfamily]
  · simp [hport]

theorem take_v4Addr (a : List.Vector UInt8 4) : (v4Addr a).toList.take 4 = a.toList := by
  show (a.toList ++ List.replicate 12 0).take 4 = a.toList
  rw [List.take_append_of_le_length (by simp), List.take_of_length_le (by simp)]

theorem endpoint_v4 (type : UInt8) (port : UInt16) (a : List.Vector UInt8 4) :
    (Sock.mk afInet type port (v4Addr a)).endpoint = ⟨afInet, port, a.toList⟩ :=
  congrArg (Endpoint.mk _ _) (take_v4Addr a)

theorem endpoint_v6 (type : UInt8) (port : UInt16) (a : List.Vector UInt8 16) :
    (Sock.mk afInet6 type port a).endpoint = ⟨afInet6, port, a.toList⟩ := rfl

theorem drop_v4Addr (a : List.Vector UInt8 4) :
    (v4Addr a).toList.drop 4 = List.replicate 12 0 := by
  show (a.toList ++ List.replicate 12 0).drop 4 = _
  rw [List.drop_append_of_le_length (by simp), List.drop_of_length_le (by simp), List.nil_append]

/-- The value made of an entry of the supernode list: the blank byte is skipped, the type is the
one the variable had. -/
theorem listed_sock (stack : Sock) (entry : List.Vector UInt8 20) :
    (decodeSockPayload stack entry.toList ⟨20, 0⟩).out =
      ⟨entry.get 0, stack.type, be16 (entry.get 3) (entry.get 2), sliceVec entry.toList 4 16⟩ := by
  have hget : ∀ i : Fin 20, entry.toList.getD i 0 = entry.get i := by
    intro i
    rw [List.getD_eq_getElem _ _ (by simp), List.Vector.get_eq_get_toList]
    rfl
  have hrem : (20 - 1 + 2 ^ 64 - 1) % 2 ^ 64 = 18 := by norm_num
  rw [← hget 0, ← hget 2, ← hget 3]
  simp only [decodeSockPayload, decodeUint8, decodeVec, decodeField, Cursor.advance,
    if_neg (show ¬ 20 < 1 by decide), hrem]
  rfl

theorem toList_sliceVec_entry (entry : List.Vector UInt8 20) :
    (sliceVec entry.toList 4 16).toList = entry.toList.drop 4 := by
  show slice entry.toList 4 16 = entry.toList.drop 4
  rw [slice_eq_take_drop (by simp), List.take_of_length_le (by simp)]

/-- The endpoint, the type and the unused bytes are all there is. -/
theorem Sock.ext_endpoint {a b : Sock} (hend : a.endpoint = b.endpoint) (htype : a.type = b.type)
    (hspare : a.family = afInet → a.addr.toList.drop 4 = b.addr.toList.drop 4) : a = b := by
  obtain ⟨family, type, port, addr⟩ := a
  obtain ⟨family', type', port', addr'⟩ := b
  simp only [endpoint, Endpoint.mk.injEq] at hend htype hspare
  obtain ⟨rfl, rfl, haddr⟩ := hend
  subst htype
  by_cases hinet : family = afInet
  · rw [if_pos hinet, if_pos hinet] at haddr
    have htoList : addr.toList = addr'.toList := by
      rw [← List.take_append_drop 4 addr.toList, haddr, hspare hinet, List.take_append_drop]
    rw [List.Vector.toList_injective htoList]
  · rw [if_neg hinet, if_neg hinet] at haddr
    rw [List.Vector.toList_injective haddr]

/-- Every constructor makes a value for its endpoint. -/
theorem SockMade.endpoint_sock (a : SockMade) : a.sock.endpoint = a.endpoint := by
  cases a with
  | filled sa =>
    cases sa with
    | v4 port addr => exact endpoint_v4 0 port addr
    | v6 port addr => exact endpoint_v6 0 port addr
  | decoded base c =>
    simp only [sock, endpoint, endpointAt, decodeSock]
    by_cases hv6 : (decodeUint16 0 base c).out &&& 0x8000 ≠ 0
    · rw [if_pos hv6, if_pos hv6]
      exact endpoint_v6 _ _ _
    · rw [if_neg hv6, if_neg hv6]
      exact endpoint_v4 _ _ _
  | listed stack entry =>
    simp only [sock, endpoint, listed_sock, Sock.endpoint, endpointOfEntry, toList_sliceVec_entry]

theorem SockMade.type_sock (a : SockMade) : a.sock.type = a.typeByte := by
  cases a with
  | filled sa => cases sa <;> rfl
  | decoded base c =>
    simp only [sock, typeByte, decodeSock, apply_ite (fun d : Decoded Sock => d.out.type),
      ite_self]
  | listed stack entry => rfl

theorem afInet6_ne : afInet6 ≠ afInet := by decide

/-- The unused bytes of an IPv4 value. -/
theorem SockMade.spare_sock (a : SockMade) (h : a.endpoint.family = afInet) :
    a.sock.addr.toList.drop 4 = a.spareBytes := by
  cases a with
  | filled sa =>
    cases sa with
    | v4 port addr => exact drop_v4Addr addr
    | v6 port addr => exact absurd h afInet6_ne
  | decoded base c =>
    simp only [endpoint, endpointAt] at h
    simp only [sock, decodeSock]
    by_cases hv6 : (decodeUint16 0 base c).out &&& 0x8000 ≠ 0
    · rw [if_pos hv6] at h
      exact absurd h afInet6_ne
    · rw [if_neg hv6]
      exact drop_v4Addr _
  | listed stack entry =>
    simp only [sock, listed_sock, toList_sliceVec_entry, spareBytes, List.drop_drop]

/-- **`memcmp` agrees with `sock_equal` on two values exactly when they stand for different
endpoints, or were made with the same type byte and, for IPv4, the same unused bytes.** -/
theorem memcmpSock_agrees_iff (a b : SockMade) :
    memcmpSock a.sock b.sock = sockEqual a.sock b.sock ↔
      (a.endpoint = b.endpoint → a.typeByte = b.typeByte ∧
        (a.endpoint.family = afInet → a.spareBytes = b.spareBytes)) := by
  rw [Bool.eq_iff_iff, memcmpSock_iff, sockEqual_iff, a.endpoint_sock, b.endpoint_sock]
  refine ⟨fun h hend => ?_, fun h => ⟨fun heq => ?_, fun hend => ?_⟩⟩
  · have heq := h.mpr hend
    rw [← a.type_sock, ← b.type_sock, heq]
    refine ⟨rfl, fun hinet => ?_⟩
    rw [← a.spare_sock hinet, ← b.spare_sock (hend ▸ hinet), heq]
  · rw [← a.endpoint_sock, ← b.endpoint_sock, heq]
  · obtain ⟨htype, hspare⟩ := h hend
    refine Sock.ext_endpoint ?_ ?_ fun hinet => ?_
    · rw [a.endpoint_sock, b.endpoint_sock, hend]
    · rw [a.type_sock, b.type_sock, htype]
    · have hinet : a.endpoint.family = afInet := a.endpoint_sock ▸ hinet
      rw [a.spare_sock hinet, b.spare_sock (hend ▸ hinet), hspare hinet]

/-- **The same peer is not recognised**: 1.2.3.4:7654 as the sender of a packet and as the
socket in a message. -/
theorem not_memcmpSock_agrees : ¬ ∀ a b : SockMade,
    memcmpSock a.sock b.sock = sockEqual a.sock b.sock := by
  intro h
  have hsame := h (.filled (.v4 7654 ⟨[1, 2, 3, 4], rfl⟩))
    (.decoded [0, 0, 0x1d, 0xe6, 1, 2, 3, 4] ⟨8, 0⟩)
  exact absurd hsame (by decide)

end N2n
