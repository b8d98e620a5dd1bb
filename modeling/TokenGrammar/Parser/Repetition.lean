import TokenGrammar.Bounds
import TokenGrammar.Parser

/-! Greedy repetition and separated lists. Both loops are given the number of attempts
they may make; an answer does not depend on it, and a loop that needs more has none. -/
namespace TokenGrammar
namespace Parser
variable {T α β : Type}

/-- What the attempts of a repetition gathered, and why they ended: after a failed attempt,
or for want of room. -/
structure Harvest (T α : Type) where
  items : List α
  rest : Cursor T
  cause? : Option (Failure T)

def Harvest.cons (a : α) (h : Harvest T α) : Harvest T α := ⟨a :: h.items, h.rest, h.cause?⟩

/-- Repeat a parser until it fails or the bounds ask for no more. The second number counts
the items gathered before. -/
def attempts (b : Bounds) (p : Parser T α) : Nat → Nat → Cursor T → Run T (Harvest T α)
  | 0, collected, c =>
    if b.isFull collected then pure ⟨[], c, none⟩ else Run.exhausted
  | budget + 1, collected, c =>
    if b.isFull collected then pure ⟨[], c, none⟩ else do
      match ← (p c).attempt with
      | .ok r =>
        let later ← attempts b p budget (collected + 1) r.2
        pure (later.cons r.1)
      | .error e =>
        Run.emit (.stopped e c.position collected)
        pure ⟨[], c, some e⟩

section Attempts
variable {b : Bounds} {p : Parser T α} {budget k : Nat} {c : Cursor T} {r : α × Cursor T}
  {e : Failure T}

theorem attempts_of_full (h : b.isFull k = true) :
    attempts b p budget k c = pure ⟨[], c, none⟩ := by
  cases budget <;> simp [attempts, h]

theorem attempts_of_error (hk : b.isFull k = false) (h : (p c).outcome? = some (.error e)) :
    attempts b p (budget + 1) k c = ⟨some (.ok ⟨[], c, some e⟩),
      (p c).events ++ [.stopped e c.position k], (p c).reads⟩ := by
  simp only [attempts, hk, Run.bind_of_ok (Run.attempt_of_error h), Run.emit_bind]
  simp

theorem attempts_of_ok (hk : b.isFull k = false) (h : (p c).outcome? = some (.ok r)) :
    attempts b p (budget + 1) k c =
      let later := attempts b p budget (k + 1) r.2
      ⟨later.outcome?.map (Except.map (Harvest.cons r.1)), (p c).events ++ later.events,
        (p c).reads ++ later.reads⟩ := by
  simp [attempts, hk, Run.bind_of_ok (Run.attempt_of_ok h)]

theorem attempts_of_none (hk : b.isFull k = false) (h : (p c).outcome? = none) :
    attempts b p (budget + 1) k c = ⟨none, (p c).events, (p c).reads⟩ := by
  simp only [attempts, hk, Run.bind_of_none (Run.attempt_of_none h)]
  simp

end Attempts

/-- The items of a harvest, provided that their number is within the bounds. Too few items
are blamed on the attempt that failed. -/
def Harvest.judge (b : Bounds) (h : Harvest T α) : Outcome T (List α × Cursor T) :=
  if h.items.length < b.least then .error (h.cause?.getD .rejected)
  else if b.allows h.items.length then .ok (h.items, h.rest)
  else .error .rejected

def repeated (b : Bounds) (p : Parser T α) (budget : Nat) : Parser T (List α) := fun c => do
  let h ← attempts b p budget 0 c
  Run.ofOutcome (h.judge b)

/-- Pairs of a separator and an item, until no separator follows. Behind a separator the
item is owed. -/
def separated (item : Parser T α) (sep : Parser T β) :
    Nat → Cursor T → Run T (List α × Cursor T)
  | 0, _ => Run.exhausted
  | budget + 1, c => do
    match ← (sep c).attempt with
    | .ok s =>
      let r ← item s.2
      let later ← separated item sep budget r.2
      pure (r.1 :: later.1, later.2)
    | .error _ => pure ([], c)

def sepBy1 (item : Parser T α) (sep : Parser T β) (budget : Nat) : Parser T (List α) :=
  fun c => do
    let r ← item c
    let later ← separated item sep budget r.2
    pure (r.1 :: later.1, later.2)

end Parser
end TokenGrammar
