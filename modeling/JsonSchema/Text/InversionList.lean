/-!
# Sets of characters as inversion lists

An inversion list holds, in increasing order, the code points at which membership changes, the first
of them being the first member. A code point belongs to the set when an odd number of entries is at
most that code point.
-/

namespace JsonSchema.Text

structure InversionList where
  changes : Array Nat

namespace InversionList

/-- The number of entries from `low` on, and before `high`, that are at most `code`, plus `low`;
every entry before `low` is at most `code` and every entry from `high` on is larger. -/
def countUpTo (changes : Array Nat) (code low high : Nat) : Nat :=
  if h : low < high then
    let middle := (low + high) / 2
    if changes[middle]?.all (· ≤ code) then countUpTo changes code (middle + 1) high
    else countUpTo changes code low middle
  else low
termination_by high - low

def contains (set : InversionList) (code : Nat) : Bool :=
  countUpTo set.changes code 0 set.changes.size % 2 = 1

def meets (set : InversionList) (low high : Nat) : Bool :=
  let upToLow := countUpTo set.changes low 0 set.changes.size
  let upToHigh := countUpTo set.changes high 0 set.changes.size
  low ≤ high && (upToLow % 2 = 1 || upToLow < upToHigh)

end InversionList

end JsonSchema.Text
