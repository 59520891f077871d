import CcMuduo.InetAddress

/-!
# The renderings of an address

Two members render an address with its port. Both start with the dotted quad of `inet_ntop`.
`sockets::toIpPort` prints the colon and the port behind it, as far as its buffer goes, and so tells
any two addresses apart. `InetAddress::toIpPort` brings the port into host order too, but returns before
it prints it.
-/

namespace CcMuduo

open Foundation

/-- A `uint16_t` in network order: its two bytes as they lie in memory. -/
structure NetworkShort where
  high : Fin 256
  low : Fin 256
  deriving DecidableEq, Repr

/-- `sockaddr_in` of the family `AF_INET`. -/
structure SockaddrIn where
  sinAddr : Fin 4 → Fin 256
  sinPort : NetworkShort

/-- `networkToHost16`, which is `ntohs`. -/
def networkToHost16 (net16 : NetworkShort) : Fin 65536 :=
  ⟨256 * net16.high + net16.low, by omega⟩

/-- `hostToNetwork16`, which is `htons`. -/
def hostToNetwork16 (host16 : Fin 65536) : NetworkShort :=
  ⟨⟨host16 / 256, by omega⟩, ⟨host16 % 256, by omega⟩⟩

/-- Host order and network order carry the same values. -/
theorem networkToHost16_hostToNetwork16 (host16 : Fin 65536) :
    networkToHost16 (hostToNetwork16 host16) = host16 :=
  Fin.ext (Nat.div_add_mod _ _)

/-- A port in network order is determined by its value. -/
theorem networkToHost16_injective : Function.Injective networkToHost16 := by
  intro a b h
  have hvalue := congrArg Fin.val h
  obtain ⟨⟨ah, hah⟩, ⟨al, hal⟩⟩ := a
  obtain ⟨⟨bh, hbh⟩, ⟨bl, hbl⟩⟩ := b
  simp only [networkToHost16] at hvalue
  simp only [NetworkShort.mk.injEq, Fin.mk.injEq]
  omega

/-- The canonical dotted quad that `inet_ntop` writes. -/
def inetNtop (bytes : Fin 4 → Fin 256) : List Char :=
  ['.'].intercalate ((List.ofFn bytes).map fun byte => decimal byte)

/-- The four numerals of a dotted quad. -/
theorem inetNtop_eq (bytes : Fin 4 → Fin 256) :
    inetNtop bytes = decimal (bytes 0) ++ '.' :: decimal (bytes 1) ++ '.' :: decimal (bytes 2) ++
      '.' :: decimal (bytes 3) := by
  simp [inetNtop, List.ofFn_succ]

/-- A dotted quad ends in front of a colon, and determines the address. -/
theorem inetNtop_append_inj {a b : Fin 4 → Fin 256} {r r' : List Char}
    (h : inetNtop a ++ ':' :: r = inetNtop b ++ ':' :: r') : a = b ∧ r = r' := by
  simp only [inetNtop_eq, List.append_assoc, List.cons_append] at h
  obtain ⟨h₀, h⟩ := decimal_append_inj (by decide) h
  obtain ⟨h₁, h⟩ := decimal_append_inj (by decide) h
  obtain ⟨h₂, h⟩ := decimal_append_inj (by decide) h
  obtain ⟨h₃, h⟩ := decimal_append_inj (by decide) h
  refine ⟨funext fun i => Fin.ext ?_, h⟩
  match i with
  | 0 => exact h₀
  | 1 => exact h₁
  | 2 => exact h₂
  | 3 => exact h₃

/-- A dotted quad determines the address. -/
theorem inetNtop_injective : Function.Injective inetNtop := fun _ _ h =>
  (inetNtop_append_inj (congrArg (fun quad => quad ++ [':']) h)).1

/-- What `snprintf` leaves of a text in `size` bytes, the last of which ends it. -/
def snprintf (size : ℕ) (text : List Char) : List Char := text.take (size - 1)

/-- `INET_ADDRSTRLEN`. -/
def inetAddrstrlen : ℕ := 16

namespace Sockets

/-- `sockets::toIp` into a buffer of `size` bytes; `none` when its assertion fails. -/
def toIp (size : ℕ) (addr : SockaddrIn) : Option (List Char) :=
  if inetAddrstrlen ≤ size then some (inetNtop addr.sinAddr) else none

/-- `sockets::toIpPort` into a buffer of `size` bytes. -/
def toIpPort (size : ℕ) (addr : SockaddrIn) : Option (List Char) := do
  let buf ← toIp size addr
  let stop := buf.length
  let port := networkToHost16 addr.sinPort
  return buf ++ snprintf (size - stop) (':' :: decimal port)

end Sockets

namespace InetAddress

/-- The address built from a `sockaddr_in`. -/
def ofSockaddr (addr : SockaddrIn) : InetAddress where
  bytes := addr.sinAddr
  port := networkToHost16 addr.sinPort

/-- `getSockAddr`. -/
def getSockAddr (addr : InetAddress) : SockaddrIn where
  sinAddr := addr.bytes
  sinPort := hostToNetwork16 addr.port

/-- Every address comes from a `sockaddr_in`. -/
theorem ofSockaddr_getSockAddr (addr : InetAddress) : ofSockaddr addr.getSockAddr = addr := by
  rw [ofSockaddr, getSockAddr, networkToHost16_hostToNetwork16]

/-- `InetAddress::toIpPort` renders nothing but the dotted quad. -/
theorem toIpPort_ofSockaddr (addr : SockaddrIn) : (ofSockaddr addr).toIpPort = inetNtop addr.sinAddr :=
  (inetNtop_eq addr.sinAddr).symm

end InetAddress

/-- The size of the largest rendering, with the byte that ends it. -/
def ipPortStrlen : ℕ := inetAddrstrlen + 6

/-- A buffer that holds every rendering gets the dotted quad, a colon, and the port in host order. -/
theorem sockets_toIpPort_eq {size : ℕ} (hsize : ipPortStrlen ≤ size) (addr : SockaddrIn) :
    Sockets.toIpPort size addr =
      some (inetNtop addr.sinAddr ++ ':' :: decimal (networkToHost16 addr.sinPort)) := by
  have hquad : (inetNtop addr.sinAddr).length ≤ 15 := by
    rw [← InetAddress.toIpPort_ofSockaddr]
    exact (InetAddress.ofSockaddr addr).toIpPort_length_le
  have hport : (decimal (networkToHost16 addr.sinPort)).length ≤ 5 :=
    decimal_length_le (by decide) (by omega)
  simp only [ipPortStrlen, inetAddrstrlen] at hsize
  rw [Sockets.toIpPort, Sockets.toIp, if_pos (by simp only [inetAddrstrlen]; omega)]
  simp only [Option.bind_eq_bind, Option.bind_some, snprintf]
  rw [List.take_of_length_le (by simp only [List.length_cons]; omega)]
  rfl

/-- In a buffer that holds every rendering, `sockets::toIpPort` tells any two addresses apart. -/
theorem sockets_toIpPort_injective {size : ℕ} (hsize : ipPortStrlen ≤ size) :
    Function.Injective (Sockets.toIpPort size) := by
  intro a b h
  rw [sockets_toIpPort_eq hsize, sockets_toIpPort_eq hsize, Option.some.injEq] at h
  obtain ⟨haddr, hport⟩ := inetNtop_append_inj h
  obtain ⟨aAddr, aPort⟩ := a
  obtain ⟨bAddr, bPort⟩ := b
  simp only at haddr hport
  rw [haddr, networkToHost16_injective (Fin.ext (decimal_injective hport))]

/-- `InetAddress::toIpPort` agrees with `sockets::toIpPort` on no address, and renders two addresses
alike whatever their ports are. -/
theorem toIpPort_without_port (size : ℕ) (hsize : ipPortStrlen ≤ size) (addr : SockaddrIn) :
    some (InetAddress.ofSockaddr addr).toIpPort ≠ Sockets.toIpPort size addr ∧
      (∀ other, (InetAddress.ofSockaddr other).toIpPort = (InetAddress.ofSockaddr addr).toIpPort ↔
        other.sinAddr = addr.sinAddr) ∧
      ∃ other, InetAddress.ofSockaddr other ≠ InetAddress.ofSockaddr addr ∧
        (InetAddress.ofSockaddr other).toIpPort = (InetAddress.ofSockaddr addr).toIpPort := by
  refine ⟨?_, fun other => ?_, ?_⟩
  · rw [sockets_toIpPort_eq hsize, InetAddress.toIpPort_ofSockaddr, ne_eq, Option.some.injEq,
      List.self_eq_append_right]
    exact List.cons_ne_nil _ _
  · simp only [InetAddress.toIpPort_ofSockaddr, inetNtop_injective.eq_iff]
  · have hnext (low : Fin 256) : low + 1 ≠ low := by omega
    refine ⟨⟨addr.sinAddr, ⟨addr.sinPort.high, addr.sinPort.low + 1⟩⟩, fun h => ?_, rfl⟩
    have hport := networkToHost16_injective (congrArg InetAddress.port h)
    exact hnext addr.sinPort.low (congrArg NetworkShort.low hport)

/-- The address `127.0.0.1` with a port below 256. -/
def loopback (low : Fin 256) : SockaddrIn where
  sinAddr i :=
    if i.val = 0 then ⟨127, by decide⟩ else if i.val = 3 then ⟨1, by decide⟩ else ⟨0, by decide⟩
  sinPort := ⟨⟨0, by decide⟩, low⟩

/-- Port 80 of `127.0.0.1` in a buffer of 64 bytes. -/
theorem toIpPort_without_port_http :
    some (InetAddress.ofSockaddr (loopback 80)).toIpPort ≠ Sockets.toIpPort 64 (loopback 80) ∧
      (∀ other, (InetAddress.ofSockaddr other).toIpPort =
          (InetAddress.ofSockaddr (loopback 80)).toIpPort ↔
        other.sinAddr = (loopback 80).sinAddr) ∧
      ∃ other, InetAddress.ofSockaddr other ≠ InetAddress.ofSockaddr (loopback 80) ∧
        (InetAddress.ofSockaddr other).toIpPort = (InetAddress.ofSockaddr (loopback 80)).toIpPort :=
  toIpPort_without_port 64 (by decide) (loopback 80)

/-- Two ports of `127.0.0.1` are one string to `InetAddress::toIpPort` and two to
`sockets::toIpPort`. -/
theorem toIpPort_loopback :
    (InetAddress.ofSockaddr (loopback 80)).toIpPort = "127.0.0.1".toList ∧
      (InetAddress.ofSockaddr (loopback 81)).toIpPort = "127.0.0.1".toList ∧
      Sockets.toIpPort 64 (loopback 80) = some "127.0.0.1:80".toList ∧
      Sockets.toIpPort 64 (loopback 81) = some "127.0.0.1:81".toList := by
  decide +kernel

end CcMuduo
