import TokenGrammar.Failure

/-! What one parse does. Besides its outcome a run has a history: the events that an
observer sees, in order, and the places where it asked for a token. A run whose budget
is spent before it is over has a history and no outcome. -/
namespace TokenGrammar

inductive Callback where
  | mapper
  | predicate
  | continuation
  | combiner
  deriving BEq, DecidableEq, Repr

/-- What an observer sees of a run. -/
inductive Event (T : Type) where
  | called (callback : Callback)
  | tapped (label : String)
  | entered (rule : String)
  /-- A parser with this message read the tokens from `start` up to `stop`. -/
  | logged (message : String) (start stop : Nat)
  /-- A repetition ended because its next attempt, made at `position`, failed. -/
  | stopped (cause : Failure T) (position collected : Nat)
  deriving BEq, DecidableEq, Repr

/-- A computation over tokens with its history. -/
@[ext] structure Run (T α : Type) where
  /-- The answer, unless the budget was spent first. -/
  outcome? : Option (Outcome T α)
  events : List (Event T)
  reads : List Nat

namespace Run
variable {T α β γ : Type}

protected def pure (a : α) : Run T α := ⟨some (.ok a), [], []⟩

/-- Go on with the value; a failed or unfinished run stays as it is. -/
protected def bind (x : Run T α) (f : α → Run T β) : Run T β :=
  match x.outcome? with
  | some (.ok a) =>
    let y := f a
    ⟨y.outcome?, x.events ++ y.events, x.reads ++ y.reads⟩
  | some (.error e) => ⟨some (.error e), x.events, x.reads⟩
  | none => ⟨none, x.events, x.reads⟩

instance : Monad (Run T) where
  pure := Run.pure
  bind := Run.bind

def ofOutcome (o : Outcome T α) : Run T α := ⟨some o, [], []⟩

def fail (e : Failure T) : Run T α := ofOutcome (.error e)

def exhausted : Run T α := ⟨none, [], []⟩

def emit (e : Event T) : Run T Unit := ⟨some (.ok ()), [e], []⟩

def ask (position : Nat) : Run T Unit := ⟨some (.ok ()), [], [position]⟩

/-- Turn a failure into a value, so that the run can go on after it. -/
def attempt (x : Run T α) : Run T (Outcome T α) :=
  ⟨x.outcome?.map .ok, x.events, x.reads⟩

def mapped (f : α → β) (x : Run T α) : Run T β := do
  let a ← x
  emit (.called .mapper)
  pure (f a)

def filtered (accept : α → Bool) (x : Run T α) : Run T α := do
  let a ← x
  emit (.called .predicate)
  if accept a then pure a else fail .rejected

def chained (next : α → Run T β) (combine : α → β → γ) (x : Run T α) : Run T γ := do
  let a ← x
  emit (.called .continuation)
  let b ← next a
  emit (.called .combiner)
  pure (combine a b)

theorem pure_def (a : α) : (pure a : Run T α) = ⟨some (.ok a), [], []⟩ := rfl

theorem bind_of_ok {x : Run T α} {a : α} (h : x.outcome? = some (.ok a)) (f : α → Run T β) :
    x >>= f = ⟨(f a).outcome?, x.events ++ (f a).events, x.reads ++ (f a).reads⟩ := by
  simp [bind, Run.bind, h]

theorem bind_of_error {x : Run T α} {e : Failure T} (h : x.outcome? = some (.error e))
    (f : α → Run T β) : x >>= f = ⟨some (.error e), x.events, x.reads⟩ := by
  simp [bind, Run.bind, h]

theorem bind_of_none {x : Run T α} (h : x.outcome? = none) (f : α → Run T β) :
    x >>= f = ⟨none, x.events, x.reads⟩ := by
  simp [bind, Run.bind, h]

instance : LawfulMonad (Run T) := LawfulMonad.mk' _
  (fun x => by
    rcases h : x.outcome? with _ | _ | _ <;>
      ext1 <;> simp [Functor.map, Run.bind, Run.pure, h])
  (fun a f => by ext1 <;> simp [bind, pure, Run.bind, Run.pure])
  (fun x f g => by
    rcases h : x.outcome? with _ | _ | a <;> simp only [bind, Run.bind, h]
    rcases h' : (f a).outcome? with _ | _ | b <;> simp [List.append_assoc])

@[simp] theorem outcome?_pure (a : α) : (pure a : Run T α).outcome? = some (.ok a) := rfl
@[simp] theorem events_pure (a : α) : (pure a : Run T α).events = [] := rfl
@[simp] theorem reads_pure (a : α) : (pure a : Run T α).reads = [] := rfl

@[simp] theorem outcome?_map (f : α → β) (x : Run T α) :
    (f <$> x).outcome? = x.outcome?.map (Except.map f) := by
  rcases h : x.outcome? with _ | _ | _ <;> simp [Functor.map, Run.bind, Run.pure, h, Except.map]

@[simp] theorem events_map (f : α → β) (x : Run T α) : (f <$> x).events = x.events := by
  rcases h : x.outcome? with _ | _ | _ <;> simp [Functor.map, Run.bind, Run.pure, h]

@[simp] theorem reads_map (f : α → β) (x : Run T α) : (f <$> x).reads = x.reads := by
  rcases h : x.outcome? with _ | _ | _ <;> simp [Functor.map, Run.bind, Run.pure, h]

@[simp] theorem outcome?_attempt (x : Run T α) : x.attempt.outcome? = x.outcome?.map .ok := rfl
@[simp] theorem events_attempt (x : Run T α) : x.attempt.events = x.events := rfl
@[simp] theorem reads_attempt (x : Run T α) : x.attempt.reads = x.reads := rfl

theorem ask_bind (p : Nat) (f : Unit → Run T α) :
    (ask p >>= f) = ⟨(f ()).outcome?, (f ()).events, p :: (f ()).reads⟩ := rfl

theorem emit_bind (e : Event T) (f : Unit → Run T α) :
    (emit e >>= f) = ⟨(f ()).outcome?, e :: (f ()).events, (f ()).reads⟩ := rfl

theorem attempt_of_ok {x : Run T α} {a : α} (h : x.outcome? = some (.ok a)) :
    x.attempt.outcome? = some (.ok (.ok a)) := by simp [h]

theorem attempt_of_error {x : Run T α} {e : Failure T} (h : x.outcome? = some (.error e)) :
    x.attempt.outcome? = some (.ok (.error e)) := by simp [h]

theorem attempt_of_none {x : Run T α} (h : x.outcome? = none) : x.attempt.outcome? = none := by
  simp [h]

@[simp] theorem ofOutcome_ok (a : α) : (ofOutcome (.ok a) : Run T α) = pure a := rfl
@[simp] theorem ofOutcome_error (e : Failure T) : (ofOutcome (.error e) : Run T α) = fail e := rfl

@[simp] theorem fail_bind (e : Failure T) (f : α → Run T β) : (fail e >>= f) = fail e := rfl
@[simp] theorem exhausted_bind (f : α → Run T β) : (exhausted >>= f) = exhausted := rfl
@[simp] theorem attempt_pure (a : α) : (pure a : Run T α).attempt = pure (.ok a) := rfl
@[simp] theorem attempt_fail (e : Failure T) :
    (fail e : Run T α).attempt = pure (.error e) := rfl
@[simp] theorem attempt_exhausted : (exhausted : Run T α).attempt = exhausted := rfl

end Run
end TokenGrammar
