import TokenGrammar.Grammar

/-! What holds of every run. A run ensures a property of its events and one of its outcome if
all its events have the first and its outcome, where there is one, has the second. There is one
rule for each way of building runs, and one for the loop of a repetition. -/
namespace TokenGrammar
namespace Run
variable {T α β γ : Type}

/-- All events satisfy `E`, and the outcome satisfies `Q` if the run came to its end. -/
structure Ensures (E : Event T → Prop) (Q : Outcome T α → Prop) (x : Run T α) : Prop where
  event : ∀ e ∈ x.events, E e
  outcome : ∀ o, x.outcome? = some o → Q o

namespace Ensures
variable {E E' : Event T → Prop} {x : Run T α}

theorem mono {Q Q' : Outcome T α → Prop} (h : x.Ensures E Q) (hE : ∀ e, E e → E' e)
    (hQ : ∀ o, Q o → Q' o) : x.Ensures E' Q' :=
  ⟨fun e he => hE e (h.event e he), fun o ho => hQ o (h.outcome o ho)⟩

theorem of_eq {Q : Outcome T α → Prop} {o : Outcome T α} {es : List (Event T)}
    {reads : List Nat} (h : x = ⟨some o, es, reads⟩) (hes : ∀ e ∈ es, E e) (ho : Q o) :
    x.Ensures E Q := by
  subst h
  exact ⟨hes, fun _ h => Option.some.inj h ▸ ho⟩

theorem ofOutcome {Q : Outcome T α → Prop} {o : Outcome T α} (h : Q o) :
    (Run.ofOutcome o).Ensures E Q := of_eq rfl (by simp) h

theorem pure {Q : Outcome T α → Prop} {a : α} (h : Q (.ok a)) :
    (Pure.pure a : Run T α).Ensures E Q := ofOutcome h

theorem fail {Q : Outcome T α → Prop} {e : Failure T} (h : Q (.error e)) :
    (Run.fail e : Run T α).Ensures E Q := ofOutcome h

theorem exhausted {Q : Outcome T α → Prop} : (Run.exhausted : Run T α).Ensures E Q := by
  constructor
  · intro e he
    simp [Run.exhausted] at he
  · intro o ho
    cases ho

theorem emit {e : Event T} (h : E e) : (Run.emit e).Ensures E (fun o => o = .ok ()) :=
  of_eq rfl (by simpa using h) rfl

/-- A sequence ensures of its outcome what the second part ensures after each possible value of
the first, provided that a failure of the first part passes for one of the whole. -/
theorem bind {P : Outcome T α → Prop} {Q : Outcome T β → Prop} {f : α → Run T β}
    (hx : x.Ensures E P) (hf : ∀ a, P (.ok a) → (f a).Ensures E Q)
    (he : ∀ e, P (.error e) → Q (.error e)) : (x >>= f).Ensures E Q := by
  rcases hox : x.outcome? with _ | e | a
  · rw [bind_of_none hox]
    exact ⟨hx.event, by simp⟩
  · have hP : P (.error e) := hx.outcome _ hox
    rw [bind_of_error hox]
    exact ⟨hx.event, by simpa using he e hP⟩
  · have hy : (f a).Ensures E Q := hf a (hx.outcome _ hox)
    rw [bind_of_ok hox]
    constructor
    · intro e hmem
      rcases List.mem_append.mp hmem with h | h
      · exact hx.event e h
      · exact hy.event e h
    · exact hy.outcome

theorem bind_ok {P : α → Prop} {Q : Outcome T β → Prop} {f : α → Run T β}
    (hx : x.Ensures E (fun o => ∃ a, o = .ok a ∧ P a)) (hf : ∀ a, P a → (f a).Ensures E Q) :
    (x >>= f).Ensures E Q := by
  apply hx.bind
  · intro a ha
    obtain ⟨a', ha', hP⟩ := ha
    cases ha'
    exact hf a hP
  · intro e he
    obtain ⟨a, ha, -⟩ := he
    cases ha

theorem attempt_bind {P : Outcome T α → Prop} {Q : Outcome T β → Prop}
    {f : Outcome T α → Run T β} (hx : x.Ensures E P)
    (hf : ∀ o, P o → (f o).Ensures E Q) : (x.attempt >>= f).Ensures E Q := by
  have ha : x.attempt.Ensures E (fun o => ∃ o', o = .ok o' ∧ P o') := by
    constructor
    · exact hx.event
    · intro o ho
      obtain ⟨o', ho', rfl⟩ := Option.map_eq_some_iff.mp ho
      exact ⟨o', rfl, hx.outcome o' ho'⟩
  exact ha.bind_ok hf

theorem emit_bind {Q : Outcome T β → Prop} {e : Event T} {f : Unit → Run T β} (h : E e)
    (hf : (f ()).Ensures E Q) : (Run.emit e >>= f).Ensures E Q :=
  (emit h).bind (fun _ _ => hf) (fun _ he => by cases he)

end Ensures
end Run

namespace Parser
variable {T α : Type} {E : Event T → Prop}

/-- The rule of a repetition. `I` holds of every cursor at which an attempt is made, `P` of every
attempt's outcome, and `Q` relates the number of items gathered before and the cursor to what
the rest of the loop gathers from there. -/
theorem attempts_ensures {b : Bounds} {p : Parser T α} {I : Cursor T → Prop}
    {P : Cursor T → Outcome T (α × Cursor T) → Prop} {Q : Nat → Cursor T → Harvest T α → Prop}
    (hp : ∀ c, I c → (p c).Ensures E (P c))
    (hinv : ∀ c r, I c → P c (.ok r) → I r.2)
    (hfull : ∀ k c, I c → b.isFull k = true → Q k c ⟨[], c, none⟩)
    (hstop : ∀ k c e, I c → P c (.error e) →
      E (.stopped e c.position k) ∧ Q k c ⟨[], c, some e⟩)
    (hmore : ∀ k c r h, I c → P c (.ok r) → Q (k + 1) r.2 h → Q k c (h.cons r.1))
    (budget k : Nat) (c : Cursor T) (hc : I c) :
    (attempts b p budget k c).Ensures E (fun o => ∃ h, o = .ok h ∧ Q k c h) := by
  induction budget generalizing k c with
  | zero =>
    unfold attempts
    split
    case isTrue h => exact Run.Ensures.pure ⟨_, rfl, hfull k c hc h⟩
    case isFalse => exact Run.Ensures.exhausted
  | succ budget ih =>
    unfold attempts
    split
    case isTrue h => exact Run.Ensures.pure ⟨_, rfl, hfull k c hc h⟩
    case isFalse =>
      refine (hp c hc).attempt_bind fun o ho => ?_
      cases o with
      | ok r =>
        have hlater := ih (k + 1) r.2 (hinv c r hc ho)
        apply hlater.bind_ok
        intro h hQ
        exact Run.Ensures.pure ⟨_, rfl, hmore k c r h hc ho hQ⟩
      | error e =>
        obtain ⟨hE, hQ⟩ := hstop k c e hc ho
        exact Run.Ensures.emit_bind hE (Run.Ensures.pure ⟨_, rfl, hQ⟩)

end Parser
end TokenGrammar
