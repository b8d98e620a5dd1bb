/-! How often a repetition may match. The upper bound is either looked at when the
repetition is over, or keeps it from going on. -/
namespace TokenGrammar

/-- When an upper bound is enforced. -/
inductive Limit where
  /-- Match as often as possible, then compare the count with the bound. -/
  | afterwards
  /-- Ask for no further match once the bound is reached. -/
  | capped
  deriving BEq, DecidableEq, Repr, Inhabited

structure Bounds where
  least : Nat := 0
  most : Option Nat := none
  limit : Limit := .afterwards
  deriving BEq, DecidableEq, Repr, Inhabited

namespace Bounds

def atLeast (n : Nat) : Bounds where
  least := n

/-- At most `n` matches, counted afterwards. -/
def atMost (n : Nat) : Bounds where
  most := some n

def withLimit (b : Bounds) (limit : Limit) : Bounds := { b with limit := limit }

/-- Up to `n` matches, leaving further ones unread. -/
def upTo (n : Nat) : Bounds := (atMost n).withLimit .capped

def exactly (n : Nat) : Bounds := ⟨n, some n, .capped⟩

/-- Whether no further match is asked for after `collected` of them. -/
def isFull (b : Bounds) (collected : Nat) : Bool :=
  match b.limit, b.most with
  | .capped, some m => decide (m ≤ collected)
  | _, _ => false

def allows (b : Bounds) (collected : Nat) : Bool :=
  match b.most with
  | some m => decide (collected ≤ m)
  | none => true

@[simp] theorem isFull_atMost (n k : Nat) : (atMost n).isFull k = false := rfl
@[simp] theorem isFull_upTo (n k : Nat) : (upTo n).isFull k = decide (n ≤ k) := rfl
@[simp] theorem isFull_exactly (n k : Nat) : (exactly n).isFull k = decide (n ≤ k) := rfl
@[simp] theorem allows_atLeast (n k : Nat) : (atLeast n).allows k = true := rfl
@[simp] theorem allows_atMost (n k : Nat) : (atMost n).allows k = decide (k ≤ n) := rfl

theorem isSome_most_of_isFull {b : Bounds} {k : Nat} (h : b.isFull k = true) :
    b.most.isSome = true := by
  unfold isFull at h
  split at h
  case h_1 m _ hm => simp [hm]
  case h_2 => cases h

theorem isSome_most_of_not_allows {b : Bounds} {k : Nat} (h : ¬b.allows k = true) :
    b.most.isSome = true := by
  unfold allows at h
  split at h
  case h_1 m hm => simp [hm]
  case h_2 => exact absurd rfl h

end Bounds
end TokenGrammar
