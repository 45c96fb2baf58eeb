import OwlStructure.Memo.Recent
import OwlStructure.Signature

/-!
Caches of signatures and of anonymous individuals. The two collectors keep their results apart and
share a capacity, which is at least one; their counts are added up.
-/
namespace OwlStructure

/-- The books of a cache. -/
structure CacheStats where
  hits : Nat
  misses : Nat
  evictions : Nat
  deriving DecidableEq, Repr

namespace CacheStats

/-- The share of lookups that found a result; zero before the first lookup. -/
def hitRate (s : CacheStats) : Float :=
  let total := s.hits + s.misses
  if total = 0 then 0.0 else Float.ofNat s.hits / Float.ofNat total

end CacheStats

structure SignatureCache (α : Type u) [HasEntities α] where
  capacity : Nat
  signatures : Recent (signature : α → SortedSet Entity)
  anonymous : Recent (anonymousIndividuals : α → SortedSet AnonymousIndividual)

namespace SignatureCache

variable {α : Type u} [HasEntities α]

def defaultCapacity : Nat := 4096

/-- An empty cache. A capacity of zero counts as one. -/
def empty (capacity : Nat) : SignatureCache α := ⟨max capacity 1, .empty, .empty⟩

variable [DecidableEq α]

def signatureOf (c : SignatureCache α) (o : Shared α) : SortedSet Entity × SignatureCache α :=
  let (result, signatures) := c.signatures.lookup c.capacity o
  (result, { c with signatures })

def anonymousOf (c : SignatureCache α) (o : Shared α) :
    SortedSet AnonymousIndividual × SignatureCache α :=
  let (result, anonymous) := c.anonymous.lookup c.capacity o
  (result, { c with anonymous })

omit [DecidableEq α]

def size (c : SignatureCache α) : Nat := c.signatures.size + c.anonymous.size

def isEmpty (c : SignatureCache α) : Bool := c.size == 0

def stats (c : SignatureCache α) : CacheStats :=
  ⟨c.signatures.hits + c.anonymous.hits, c.signatures.misses + c.anonymous.misses,
    c.signatures.evictions + c.anonymous.evictions⟩

/-- Drops the results of objects that are not alive; gives their number as well. -/
def purge (c : SignatureCache α) (alive : Nat → Bool) : Nat × SignatureCache α :=
  let kept : SignatureCache α :=
    { c with signatures := c.signatures.retain alive, anonymous := c.anonymous.retain alive }
  (c.size - kept.size, kept)

def clear (c : SignatureCache α) : SignatureCache α :=
  { c with signatures := c.signatures.clear, anonymous := c.anonymous.clear }

end SignatureCache

end OwlStructure
