import BazelPro.C.Memory

/-!
# Datagram sockets

POSIX `recvfrom` and `sendto` on an IPv4 datagram socket, as far as a program can observe
them through the buffers it passes. The address length is a value-result argument: on entry it
bounds how much of the sender's address is copied, on return it is the address's true length,
also when that is more than what was copied.
-/

namespace BazelPro.C

/-- The bytes of a `struct sockaddr_in`; the first two hold `AF_INET`. -/
structure SockaddrIn where
  bytes : List Byte
  length_bytes : bytes.length = 16
  family : bytes.take 2 = [2, 0]

/-- A datagram on the wire: what was sent, and by whom. -/
structure Datagram where
  payload : List Byte
  sender : SockaddrIn

/-- A datagram that a program hands to `sendto`: the bytes, and the address they go to. -/
structure Sent where
  bytes : List Byte
  dest : List Byte
  deriving DecidableEq

/-- What a receive changes in the caller's memory. -/
structure Received where
  buffer : Mem
  addr : Mem
  addrlen : Nat
  recvLen : Nat

/-- `recvfrom(sock, buffer, size, 0, &addr, &addrlen)` when `d` is the next datagram. A longer
datagram is truncated to `size` bytes. -/
def recvfrom (buffer : Mem) (size : Nat) (addr : Mem) (addrlen : Nat) (d : Datagram) :
    Received where
  buffer := storeAt buffer 0 (d.payload.take size)
  addr := storeAt addr 0 (d.sender.bytes.take addrlen)
  addrlen := d.sender.bytes.length
  recvLen := min d.payload.length size

/-- With room for the whole address, the address buffer ends up holding the sender. -/
theorem recvfrom_addr (buffer : Mem) (size : Nat) (addr : Mem) (d : Datagram) :
    load (recvfrom buffer size addr 16 d).addr 0 16 = d.sender.bytes := by
  have htake : d.sender.bytes.take 16 = d.sender.bytes :=
    List.take_of_length_le (by simp [d.sender.length_bytes])
  have := load_storeAt addr 0 d.sender.bytes
  rw [d.sender.length_bytes] at this
  simpa [recvfrom, htake] using this

/-- With no room at all, the address buffer is left as it was. -/
theorem recvfrom_addr_zero (buffer : Mem) (size : Nat) (addr : Mem) (d : Datagram) :
    (recvfrom buffer size addr 0 d).addr = addr := by
  simp [recvfrom]

@[simp] theorem recvfrom_addrlen (buffer : Mem) (size : Nat) (addr : Mem) (addrlen : Nat)
    (d : Datagram) : (recvfrom buffer size addr addrlen d).addrlen = 16 :=
  d.sender.length_bytes

end BazelPro.C
