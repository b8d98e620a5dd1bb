import TokenGrammar.Token

/-! Values of grammars that are only known when the program runs. They are built from
tokens, numbers and texts by pairing, listing and leaving out. -/
namespace TokenGrammar

inductive Value (T : Type) where
  | unit
  | bool (b : Bool)
  | int (n : Int64)
  | text (s : String)
  | token (t : T)
  | absent
  | present (v : Value T)
  | pair (v w : Value T)
  | list (vs : List (Value T))
  deriving Inhabited

namespace Value
variable {T : Type}

mutual

/-- Equality of structure, with the tokens' own equality at the leaves. -/
protected def beq [BEq T] : Value T → Value T → Bool
  | unit, unit => true
  | bool a, bool b => a == b
  | int m, int n => m == n
  | text s, text t => s == t
  | token s, token t => s == t
  | absent, absent => true
  | present v, present w => v.beq w
  | pair a b, pair c d => a.beq c && b.beq d
  | list vs, list ws => beqAll vs ws
  | _, _ => false

def beqAll [BEq T] : List (Value T) → List (Value T) → Bool
  | [], [] => true
  | v :: vs, w :: ws => v.beq w && beqAll vs ws
  | _, _ => false

end

instance [BEq T] : BEq (Value T) := ⟨Value.beq⟩

mutual

/-- The sum of all numbers in a value, tokens counting with their weight. -/
def weight [Weighted T] : Value T → Int64
  | int n => n
  | token t => Weighted.weight t
  | present v => v.weight
  | pair v w => v.weight + w.weight
  | list vs => weightAll vs
  | _ => 0

def weightAll [Weighted T] : List (Value T) → Int64
  | [] => 0
  | v :: vs => v.weight + weightAll vs

end

def length : Value T → Nat
  | list vs => vs.length
  | _ => 0

mutual

def lastToken? : Value T → Option T
  | token t => some t
  | present v => v.lastToken?
  | pair _ w => w.lastToken?
  | list vs => lastTokenOf? vs
  | _ => none

def lastTokenOf? : List (Value T) → Option T
  | [] => none
  | [v] => v.lastToken?
  | _ :: vs => lastTokenOf? vs

end

/-- The items of a list; anything else is its own only item. -/
def items : Value T → List (Value T)
  | list vs => vs
  | v => [v]

/-- The parts of pairs nested to the left, from left to right. -/
def spine : Value T → List (Value T)
  | pair v w => v.spine ++ [w]
  | v => [v]

def ofOption : Option (Value T) → Value T
  | some v => present v
  | none => absent

def ofPair (r : Value T × Value T) : Value T := pair r.1 r.2

def ofTokens (ts : List T) : Value T := list (ts.map token)

end Value
end TokenGrammar
