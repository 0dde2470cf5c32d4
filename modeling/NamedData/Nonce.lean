import NamedData.Packet

namespace NamedData

/-- Where new nonces come from. The whole tape of draws is fixed from outside,
so a run is a function of it. -/
structure NonceSource where
  draw : Nat → Nonce
  drawn : Nat := 0

namespace NonceSource

def next (source : NonceSource) : Nonce × NonceSource :=
  (source.draw source.drawn, { source with drawn := source.drawn + 1 })

/-- A replacement never repeats the nonce it replaces: a draw that does is
stepped on by one. -/
def replace (source : NonceSource) (previous : Nonce) : Nonce × NonceSource :=
  let (nonce, source) := source.next
  (if nonce = previous then nonce + 1 else nonce, source)

/-- Successive multiples of an odd constant, mixed. No value comes twice within
2^32 draws, since every step of the mixing can be undone. -/
def scrambled (seed : Nonce) : NonceSource where
  draw index :=
    let state := seed + UInt32.ofNat index * 0x9E3779B9
    let state := (state ^^^ (state >>> 16)) * 0x85EBCA6B
    let state := (state ^^^ (state >>> 13)) * 0xC2B2AE35
    state ^^^ (state >>> 16)

end NonceSource

/-- An Interest sent again on its own account carries a nonce of its own. -/
def Interest.refreshed (interest : Interest) (source : NonceSource) : Interest × NonceSource :=
  let (nonce, source) := source.replace interest.nonce
  ({ interest with nonce }, source)

end NamedData
