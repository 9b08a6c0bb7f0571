/-
Indices into lists.

An index counts from the first element, one below zero from the end. It has
to fit into a signed machine word; one that does not is refused for its size,
whatever the length of the list.
-/
import DefTree.Fault

namespace DefTree.Index

def wordLimit : Int := 9223372036854775808

def isWord (n : Int) : Bool := -wordLimit ≤ n && n < wordLimit

def fromStart (n : Int) (length : Nat) : Int := if n < 0 then n + length else n

def position (n : Int) (length : Nat) : Except Fault Nat :=
  if !isWord n then .error .hugeIndex
  else if 0 ≤ fromStart n length ∧ fromStart n length < length then .ok (fromStart n length).toNat
  else .error .outOfRange

theorem position_lt {n : Int} {length k : Nat} (h : position n length = .ok k) : k < length := by
  unfold position at h
  split at h
  · cases h
  · split at h
    · next hr =>
      cases h
      omega
    · cases h

end DefTree.Index
