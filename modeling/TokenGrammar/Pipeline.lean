import TokenGrammar.Callback
import TokenGrammar.Run

/-! Outcomes passed through stages. A stage maps, checks or extends the value of an outcome;
a failure passes every stage unchanged and calls none of its functions. -/
namespace TokenGrammar

inductive Sequel (T : Type) where
  | fixed (o : Outcome T (Value T))
  | mapped (f : Mapper T)

def Sequel.after {T : Type} [Weighted T] : Sequel T → Value T → Outcome T (Value T)
  | fixed o, _ => o
  | mapped f, v => .ok (f.apply v)

inductive Stage (T : Type) where
  | map (f : Mapper T)
  | filter (accept : Predicate T)
  | chain (next : Sequel T) (combine : Combiner)

namespace Stage
variable {T : Type} [BEq T] [Weighted T]

def apply (o : Outcome T (Value T)) : Stage T → Run T (Value T)
  | map f => (Run.ofOutcome o).mapped f.apply
  | filter accept => (Run.ofOutcome o).filtered accept.accepts
  | chain next combine =>
    (Run.ofOutcome o).chained (fun v => Run.ofOutcome (next.after v)) combine.apply

/-- What each stage in turn makes of the outcome before it. -/
def trail : Outcome T (Value T) → List (Stage T) → List (Run T (Value T))
  | _, [] => []
  | o, s :: rest =>
    let x := s.apply o
    x :: match x.outcome? with
      | some o' => trail o' rest
      | none => []

theorem apply_error (e : Failure T) (s : Stage T) : s.apply (.error e) = Run.fail e := by
  cases s <;> rfl

end Stage
end TokenGrammar
