/-! The ways in which reading a token sequence can fail. A failure names its cause, the
tokens involved and the place; its wording is kept apart from it. -/
namespace TokenGrammar

inductive Failure (T : Type) where
  /-- A fixed token was asked for and another one stood there. -/
  | unexpectedToken (expected actual : T) (position : Nat)
  /-- A token was asked for behind the last one. -/
  | unexpectedEnd (position : Nat)
  /-- A value was read and then turned down. -/
  | rejected
  /-- Something was found that must not follow. -/
  | unexpectedMatch (position : Nat)
  /-- The input goes on where it had to be over. -/
  | trailing (actual : T) (position : Nat)
  deriving BEq, DecidableEq, Repr, Inhabited

abbrev Outcome (T α : Type) := Except (Failure T) α

namespace Failure
variable {T : Type}

/-- Where the failure arose. A rejected value has no place of its own. -/
def position? : Failure T → Option Nat
  | unexpectedToken _ _ p => some p
  | unexpectedEnd p => some p
  | rejected => none
  | unexpectedMatch p => some p
  | trailing _ p => some p

/-- Whether more input could have helped. -/
def isEnd : Failure T → Bool
  | unexpectedEnd _ => true
  | _ => false

@[simp] theorem isEnd_iff (e : Failure T) : e.isEnd = true ↔ ∃ p, e = unexpectedEnd p := by
  cases e <;> simp [isEnd]

@[simp] theorem position?_eq_none (e : Failure T) : e.position? = none ↔ e = rejected := by
  cases e <;> simp [position?]

end Failure
end TokenGrammar
