import TokenGrammar.Failure

/-! A place in a token sequence. A cursor carries the whole sequence it reads and the
number of tokens that lie behind it; reading gives the next token and a new cursor. -/
namespace TokenGrammar

/-- A token sequence together with the number of tokens already read. -/
structure Cursor (T : Type) where
  source : List T
  position : Nat
  deriving BEq, DecidableEq, Repr

namespace Cursor
variable {T : Type}

def start (source : List T) : Cursor T := ⟨source, 0⟩

def peek? (c : Cursor T) : Option T := c.source[c.position]?

def remaining (c : Cursor T) : List T := c.source.drop c.position

def isAtEnd (c : Cursor T) : Bool := decide (c.source.length ≤ c.position)

def advance (c : Cursor T) : Cursor T := ⟨c.source, c.position + 1⟩

/-- A cursor that takes the remaining tokens for a whole sequence. -/
def restart (c : Cursor T) : Cursor T := start c.remaining

def consume (c : Cursor T) : Outcome T (T × Cursor T) :=
  match c.peek? with
  | some t => .ok (t, c.advance)
  | none => .error (.unexpectedEnd c.position)

@[simp] theorem source_start (ts : List T) : (start ts).source = ts := rfl
@[simp] theorem position_start (ts : List T) : (start ts).position = 0 := rfl
@[simp] theorem source_advance (c : Cursor T) : c.advance.source = c.source := rfl
@[simp] theorem position_advance (c : Cursor T) : c.advance.position = c.position + 1 := rfl

@[simp] theorem remaining_start (ts : List T) : (start ts).remaining = ts := by
  simp [remaining]

@[simp] theorem length_remaining (c : Cursor T) :
    c.remaining.length = c.source.length - c.position := List.length_drop

theorem head?_remaining (c : Cursor T) : c.remaining.head? = c.peek? := by
  simp [remaining, peek?, List.head?_drop]

theorem remaining_eq_nil_iff {c : Cursor T} : c.remaining = [] ↔ c.peek? = none := by
  rw [← head?_remaining, List.head?_eq_none_iff]

theorem remaining_advance (c : Cursor T) : c.advance.remaining = c.remaining.tail := by
  simp [remaining, List.tail_drop]

theorem isAtEnd_iff (c : Cursor T) : c.isAtEnd = true ↔ c.peek? = none := by
  simp [isAtEnd, peek?]

theorem consume_eq_ok {c : Cursor T} {r : T × Cursor T} :
    c.consume = .ok r ↔ c.peek? = some r.1 ∧ r.2 = c.advance := by
  unfold consume
  cases c.peek? <;> grind

theorem consume_eq_error {c : Cursor T} {e : Failure T} :
    c.consume = .error e ↔ c.peek? = none ∧ e = .unexpectedEnd c.position := by
  unfold consume
  cases c.peek? <;> grind

end Cursor
end TokenGrammar
