import Bracket.Lowering.Error

/-!
# The order of acquisition and release

Resources are acquired from left to right and released from right to left.  If
one cannot be acquired, only those before it are released.
-/

namespace Bracket

/-- The positions of resources in the order of acquisition and in the order of
release. -/
structure Plan where
  acquire : List Nat
  release : List Nat
  deriving DecidableEq, Repr

namespace Plan

/-- The plan for a number of resources. -/
def ofLength (n : Nat) : Plan := ⟨List.range n, (List.range n).reverse⟩

/-- The plan for the resources of a scoped statement, which has at least one. -/
def ofItems (items : List Item) : Except LoweringError Plan :=
  if items.isEmpty then .error .emptyStatement else .ok (ofLength items.length)

def length (p : Plan) : Nat := p.acquire.length

def isEmpty (p : Plan) : Bool := p.acquire.isEmpty

/-- The releases after the resource at `failed` could not be acquired. -/
def releasesAfterFailure (p : Plan) (failed : Nat) : List Nat :=
  p.release.filter (· < failed)

end Plan

end Bracket
