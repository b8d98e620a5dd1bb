import TokenGrammar.Value

/-! Functions on values that can be written down: what a described grammar may do with its
values, and which of them it accepts. -/
namespace TokenGrammar

inductive Mapper (T : Type) where
  | identity
  | const (v : Value T)
  | first
  | second
  | length
  | weight
  | add (k : Int64)
  | present
  | content
  | tag (name : String)
  | items
  | reverse
  | spine
  /-- Nest the operators and operands behind a first operand to the left. -/
  | foldLeft
  deriving Inhabited

inductive Predicate (T : Type) where
  | always (b : Bool)
  | equals (v : Value T)
  | oneOf (ts : List T)
  | weightBelow (k : Int64)
  | evenWeight
  | lengthAtLeast (k : Int64)
  | isPresent
  | negation (p : Predicate T)
  deriving Inhabited

inductive Combiner where
  | pair
  | first
  | second
  | add
  | append
  | cons
  deriving BEq, DecidableEq, Repr, Inhabited

namespace Mapper
variable {T : Type}

/-- Put one more operand, with its operator if it comes with one, behind what is there. -/
def nest (acc : Value T) : Value T → Value T
  | .pair op rhs => .pair (.pair op acc) rhs
  | v => .pair acc v

/-- A value on which the function has no meaning is left alone. -/
def apply [Weighted T] : Mapper T → Value T → Value T
  | identity, v => v
  | const w, _ => w
  | first, .pair v _ => v
  | second, .pair _ w => w
  | length, v => .int (Int64.ofNat v.length)
  | weight, v => .int v.weight
  | add k, v => .int (v.weight + k)
  | present, v => .present v
  | content, .present v => v
  | tag name, v => .pair (.text name) v
  | items, v => .list v.items
  | reverse, .list vs => .list vs.reverse
  | spine, v => .list v.spine
  | foldLeft, .pair v w => w.items.foldl nest v
  | first, v | second, v | content, v | reverse, v | foldLeft, v => v

end Mapper

namespace Predicate
variable {T : Type} [BEq T] [Weighted T]

def accepts : Predicate T → Value T → Bool
  | always b, _ => b
  | equals w, v => v == w
  | oneOf ts, .token t => ts.any (t == ·)
  | oneOf _, _ => false
  | weightBelow k, v => decide (v.weight < k)
  | evenWeight, v => v.weight % 2 == 0
  | lengthAtLeast k, v => decide (k ≤ Int64.ofNat v.length)
  | isPresent, .present _ => true
  | isPresent, _ => false
  | negation p, v => !p.accepts v

end Predicate

namespace Combiner
variable {T : Type}

def apply [Weighted T] : Combiner → Value T → Value T → Value T
  | pair, v, w => .pair v w
  | first, v, _ => v
  | second, _, w => w
  | add, v, w => .int (v.weight + w.weight)
  | append, v, w => .list (v.items ++ w.items)
  | cons, v, w => .list (v :: w.items)

end Combiner
end TokenGrammar
