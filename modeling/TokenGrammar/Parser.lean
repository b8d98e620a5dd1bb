import TokenGrammar.Cursor
import TokenGrammar.Run

/-! Parsers as functions of a cursor. A parser answers with a value and the cursor behind
what it read, or fails; its run records what it did on the way. -/
namespace TokenGrammar

abbrev Parser (T α : Type) := Cursor T → Run T (α × Cursor T)

namespace Parser
variable {T α β γ : Type}

def anyToken : Parser T T := fun c => do
  Run.ask c.position
  Run.ofOutcome c.consume

/-- A token equal to the expected one. The value is the token that was read. -/
def token [BEq T] (expected : T) : Parser T T := fun c => do
  let r ← anyToken c
  if r.1 == expected then pure r
  else Run.fail (.unexpectedToken expected r.1 c.position)

def succeed (a : α) : Parser T α := fun c => pure (a, c)

/-- An arbitrary step that no observer sees. -/
def custom (step : Cursor T → Outcome T (α × Cursor T)) : Parser T α :=
  fun c => Run.ofOutcome (step c)

def map (f : α → β) (p : Parser T α) : Parser T β :=
  fun c => (p c).mapped (Prod.map f id)

/-- Present the value in another form, as a matter of bookkeeping that no observer sees. -/
def reshape (f : α → β) (p : Parser T α) : Parser T β := fun c => do
  let r ← p c
  pure (f r.1, r.2)

def filter (accept : α → Bool) (p : Parser T α) : Parser T α :=
  fun c => (p c).filtered (fun r => accept r.1)

def satisfy (accept : T → Bool) : Parser T T := filter accept anyToken

def chain (p : Parser T α) (next : α → Parser T β) (combine : α → β → γ) : Parser T γ :=
  fun c => (p c).chained (fun r => next r.1 r.2) (fun r s => (combine r.1 s.1, s.2))

def seq (p : Parser T α) (q : Parser T β) : Parser T (α × β) := fun c => do
  let r ← p c
  let s ← q r.2
  pure ((r.1, s.1), s.2)

def orElse (p q : Parser T α) : Parser T α := fun c => do
  match ← (p c).attempt with
  | .ok r => pure r
  | .error _ => q c

def choice (p : Parser T α) (others : List (Parser T α)) : Parser T α :=
  others.foldl orElse p

def optional (p : Parser T α) : Parser T (Option α) := fun c => do
  match ← (p c).attempt with
  | .ok r => pure (some r.1, r.2)
  | .error _ => pure (none, c)

def notFollowedBy (p : Parser T α) : Parser T Unit := fun c => do
  match ← (p c).attempt with
  | .ok _ => Run.fail (.unexpectedMatch c.position)
  | .error _ => pure ((), c)

def endOfInput : Parser T Unit := notFollowedBy anyToken

def lookAhead (p : Parser T α) : Parser T α := fun c => do
  let r ← p c
  pure (r.1, c)

def between (p : Parser T α) (q : Parser T β) (r : Parser T γ) : Parser T β := fun c => do
  let o ← p c
  let i ← q o.2
  let e ← r i.2
  pure (i.1, e.2)

/-- Report a success together with the tokens it covers. -/
def log (message : String) (p : Parser T α) : Parser T α := fun c => do
  let r ← p c
  Run.emit (.logged message c.position r.2.position)
  pure r

def tap (label : String) (p : Parser T α) : Parser T α := fun c => do
  let r ← p c
  Run.emit (.tapped label)
  pure r

/-- Parse a beginning of the tokens. -/
def run (p : Parser T α) (ts : List T) : Run T α := do
  let r ← p (Cursor.start ts)
  pure r.1

/-- Parse the tokens and insist that none is left over. The check reads the sequence of the
cursor that the parser answered with. -/
def runComplete (p : Parser T α) (ts : List T) : Run T α := do
  let r ← p (Cursor.start ts)
  match r.2.peek? with
  | none => pure r.1
  | some t => Run.fail (.trailing t r.2.position)

theorem anyToken_of_peek? {c : Cursor T} {t : T} (h : c.peek? = some t) :
    anyToken c = ⟨some (.ok (t, c.advance)), [], [c.position]⟩ := by
  rw [anyToken, Cursor.consume, h, Run.ask_bind]
  rfl

theorem anyToken_of_end {c : Cursor T} (h : c.peek? = none) :
    anyToken c = ⟨some (.error (.unexpectedEnd c.position)), [], [c.position]⟩ := by
  rw [anyToken, Cursor.consume, h, Run.ask_bind]
  rfl

theorem token_of_eq [BEq T] {expected t : T} {c : Cursor T} (h : c.peek? = some t)
    (heq : (t == expected) = true) :
    token expected c = ⟨some (.ok (t, c.advance)), [], [c.position]⟩ := by
  have hany := anyToken_of_peek? h
  rw [token, hany, Run.bind_of_ok rfl]
  simp [heq]

theorem token_of_ne [BEq T] {expected t : T} {c : Cursor T} (h : c.peek? = some t)
    (hne : (t == expected) = false) : token expected c =
      ⟨some (.error (.unexpectedToken expected t c.position)), [], [c.position]⟩ := by
  have hany := anyToken_of_peek? h
  rw [token, hany, Run.bind_of_ok rfl]
  simp [hne, Run.fail, Run.ofOutcome]

theorem token_of_end [BEq T] {expected : T} {c : Cursor T} (h : c.peek? = none) :
    token expected c = ⟨some (.error (.unexpectedEnd c.position)), [], [c.position]⟩ := by
  rw [token, anyToken_of_end h, Run.bind_of_error rfl]

theorem satisfy_of_accepts {accept : T → Bool} {c : Cursor T} {t : T} (h : c.peek? = some t)
    (ht : accept t = true) : satisfy accept c =
      ⟨some (.ok (t, c.advance)), [.called .predicate], [c.position]⟩ := by
  rw [satisfy, filter, anyToken_of_peek? h, Run.filtered, Run.bind_of_ok rfl, Run.emit_bind]
  simp [ht]

theorem satisfy_of_rejects {accept : T → Bool} {c : Cursor T} {t : T} (h : c.peek? = some t)
    (ht : accept t = false) : satisfy accept c =
      ⟨some (.error .rejected), [.called .predicate], [c.position]⟩ := by
  rw [satisfy, filter, anyToken_of_peek? h, Run.filtered, Run.bind_of_ok rfl, Run.emit_bind]
  simp [ht, Run.fail, Run.ofOutcome]

theorem satisfy_of_end {accept : T → Bool} {c : Cursor T} (h : c.peek? = none) :
    satisfy accept c = ⟨some (.error (.unexpectedEnd c.position)), [], [c.position]⟩ := by
  rw [satisfy, filter, anyToken_of_end h, Run.filtered, Run.bind_of_error rfl]

section Branches
variable {p q : Parser T α} {c : Cursor T} {r : α × Cursor T} {e : Failure T}

theorem orElse_of_ok (h : (p c).outcome? = some (.ok r)) : orElse p q c = p c := by
  simp [orElse, Run.bind_of_ok (Run.attempt_of_ok h), ← h]

theorem orElse_of_error (h : (p c).outcome? = some (.error e)) : orElse p q c =
    ⟨(q c).outcome?, (p c).events ++ (q c).events, (p c).reads ++ (q c).reads⟩ := by
  simp [orElse, Run.bind_of_ok (Run.attempt_of_error h)]

theorem optional_of_ok (h : (p c).outcome? = some (.ok r)) : optional p c =
    ⟨some (.ok (some r.1, r.2)), (p c).events, (p c).reads⟩ := by
  simp [optional, Run.bind_of_ok (Run.attempt_of_ok h)]

theorem optional_of_error (h : (p c).outcome? = some (.error e)) : optional p c =
    ⟨some (.ok (none, c)), (p c).events, (p c).reads⟩ := by
  simp [optional, Run.bind_of_ok (Run.attempt_of_error h)]

theorem notFollowedBy_of_ok (h : (p c).outcome? = some (.ok r)) : notFollowedBy p c =
    ⟨some (.error (.unexpectedMatch c.position)), (p c).events, (p c).reads⟩ := by
  simp [notFollowedBy, Run.bind_of_ok (Run.attempt_of_ok h), Run.fail, Run.ofOutcome]

theorem notFollowedBy_of_error (h : (p c).outcome? = some (.error e)) : notFollowedBy p c =
    ⟨some (.ok ((), c)), (p c).events, (p c).reads⟩ := by
  simp [notFollowedBy, Run.bind_of_ok (Run.attempt_of_error h)]

end Branches

end Parser
end TokenGrammar
