import ContractHost.Store.Account
import Std.Data.ExtTreeSet

/-!
# Pending storage of an account

A frame that writes the storage of an account keeps what it wrote to itself.  `StorageDiff` holds
the keys it wrote and, for those it did not set to zero, the values.  So a key that was written but
has no value was deleted, and that is how a deletion is passed on when the diff is merged into
another (`StorageDiff.merge`).  In the diffs that a host builds, every key with a value is a key
that was written.
-/

namespace ContractHost

/-- What one frame wrote to the storage of one account. -/
structure StorageDiff where
  /-- The values it wrote, other than zero. -/
  values : Slots := ∅
  /-- The keys it wrote. -/
  written : Std.ExtTreeSet Word := ∅
deriving DecidableEq

namespace StorageDiff

/-- The value that the diff dictates for a slot, or `none` if it says nothing about it. -/
def lookup (diff : StorageDiff) (key : Word) : Option Word :=
  match diff.values[key]? with
  | some value => some value
  | none => if diff.written.contains key then some Word.zero else none

/-- The diff after one more write. -/
def write (diff : StorageDiff) (key value : Word) : StorageDiff where
  values := if value.isZero then diff.values.erase key else diff.values.insert key value
  written := diff.written.insert key

/-- Takes over what another diff says about a key it wrote. -/
def adopt (diff newer : StorageDiff) (key : Word) : StorageDiff where
  values :=
    match newer.values[key]? with
    | some value => diff.values.insert key value
    | none => diff.values.erase key
  written := diff.written.insert key

/-- The diff after everything that a newer one wrote.  Values of keys that the newer diff did not
write are ignored. -/
def merge (diff newer : StorageDiff) : StorageDiff :=
  newer.written.toList.foldl (fun merged key => merged.adopt newer key) diff

end StorageDiff

end ContractHost
