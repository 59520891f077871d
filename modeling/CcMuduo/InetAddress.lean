import CcMuduo.Foundation.Decimal

/-!
# Internet addresses

The two texts an address has. `toIpPort` reads the port and returns without printing it.
-/

namespace CcMuduo

open Foundation

/-- An address: the four bytes of `sin_addr` and the port. -/
structure InetAddress where
  bytes : Fin 4 → Fin 256
  port : Fin 65536

namespace InetAddress

variable (addr : InetAddress)

/-- `toIp`: `inet_ntop` writes the dotted quad. -/
def toIp : List Char :=
  decimal (addr.bytes 0) ++ '.' :: decimal (addr.bytes 1) ++ '.' :: decimal (addr.bytes 2) ++
    '.' :: decimal (addr.bytes 3)

/-- `toIpPort`: the port is read and forgotten. -/
def toIpPort : List Char :=
  let _port := addr.port
  addr.toIp

/-- `toPort`. -/
def toPort : ℕ := addr.port

/-- A dotted quad has fifteen characters at most. -/
theorem toIpPort_length_le : addr.toIpPort.length ≤ 15 := by
  have hbyte (i : Fin 4) : (decimal (addr.bytes i)).length ≤ 3 :=
    decimal_length_le (by decide) (by omega)
  have h₀ := hbyte 0
  have h₁ := hbyte 1
  have h₂ := hbyte 2
  have h₃ := hbyte 3
  simp only [toIpPort, toIp, List.length_append, List.length_cons]
  omega

end InetAddress

end CcMuduo
