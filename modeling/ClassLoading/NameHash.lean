/-!
# Name hashes

The 32-bit FNV-1a hash that finds a name in the slot table. Each byte is mixed into the low end of
the state, which is then multiplied by a prime, so bytes can be fed in any number of parts.
Different names can share a hash.
-/

namespace ClassLoading.NameHash

def initial : UInt32 := 0x811C9DC5

def prime : UInt32 := 0x01000193

def step (state : UInt32) (b : UInt8) : UInt32 :=
  (state ^^^ b.toUInt32) * prime

/-- The state after some more bytes. -/
def update (state : UInt32) (bytes : List UInt8) : UInt32 :=
  bytes.foldl step state

def hash (bytes : List UInt8) : UInt32 :=
  update initial bytes

end ClassLoading.NameHash
