import TokenGrammar.Grammar

/-! Nested brackets: a rule that refers to itself behind a token. -/
namespace TokenGrammar
namespace Rules

/-- The atom at depth zero, or what is nested between two brackets, one deeper. -/
def bracketed {T : Type} (atom before after : T) : Rules T (fun _ : Unit => Nat) where
  body _ := .shared (.orElse (.map (fun _ => 0) (.token atom))
    (.map (· + 1) (.enclosed before (.rule ()) after)))
  label _ := "nested"

def nested : Rules String (fun _ : Unit => Nat) := bracketed "x" "(" ")"

def groups : Grammar String (fun _ : Unit => Nat) (List Nat) :=
  .star (.log "group" (.rule ()))

def allNested : Grammar String (fun _ : Unit => Nat) (List Nat × Unit) :=
  .seq (.star (.rule ())) .endOfInput

end Rules
end TokenGrammar
