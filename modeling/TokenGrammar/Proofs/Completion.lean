import TokenGrammar.Proofs.Answers

/-! Two ways to insist that the input is over. A complete parse looks at the token in front of the
cursor that its parser answered with; a check for the end of the input behind the parser tries to
read that token. Both ask at the same cursor, in the sequence that this cursor belongs to, so they
accept the same inputs with the same events, and differ only in how they call what is left over. -/
namespace TokenGrammar

namespace Run
variable {T α β : Type}

theorem events_bind_of_silent (x : Run T α) {f : α → Run T β} (hf : ∀ a, (f a).events = []) :
    (x >>= f).events = x.events := by
  rcases h : x.outcome? with _ | e | a
  · rw [bind_of_none h]
  · rw [bind_of_error h]
  · rw [bind_of_ok h]
    simp [hf]

theorem outcome?_bind_of_ended (x : Run T α) {f : α → Run T β} {g : α → Outcome T β}
    (hf : ∀ a, (f a).outcome? = some (g a)) :
    (x >>= f).outcome? = x.outcome?.map fun o => o.bind g := by
  rcases h : x.outcome? with _ | e | a
  · rw [bind_of_none h]
    rfl
  · rw [bind_of_error h]
    rfl
  · rw [bind_of_ok h]
    exact hf a

end Run

namespace Parser
open Run
variable {T α : Type}

theorem endOfInput_of_peek? {c : Cursor T} {t : T} (h : c.peek? = some t) :
    endOfInput c = ⟨some (.error (.unexpectedMatch c.position)), [], [c.position]⟩ := by
  have hany : anyToken c = ⟨some (.ok (t, c.advance)), [], [c.position]⟩ := anyToken_of_peek? h
  rw [endOfInput, notFollowedBy_of_ok (by rw [hany]), hany]

theorem endOfInput_of_end {c : Cursor T} (h : c.peek? = none) :
    endOfInput c = ⟨some (.ok ((), c)), [], [c.position]⟩ := by
  have hany : anyToken c = ⟨some (.error (.unexpectedEnd c.position)), [], [c.position]⟩ :=
    anyToken_of_end h
  rw [endOfInput, notFollowedBy_of_error (by rw [hany]), hany]

section Completion
variable (p : Parser T α) (ts : List T)

theorem run_seq_endOfInput : run (seq p endOfInput) ts =
    p (.start ts) >>= fun r => endOfInput r.2 >>= fun s => pure (r.1, s.1) := by
  simp only [run, seq, bind_assoc, pure_bind]

theorem outcome?_run : (run p ts).outcome? =
    (p (.start ts)).outcome?.map fun o => o.bind fun r => .ok r.1 :=
  outcome?_bind_of_ended _ fun _ => rfl

theorem outcome?_runComplete : (runComplete p ts).outcome? =
    (p (.start ts)).outcome?.map fun o => o.bind fun r =>
      match r.2.peek? with
      | none => .ok r.1
      | some t => .error (.trailing t r.2.position) := by
  refine outcome?_bind_of_ended _ fun r => ?_
  cases r.2.peek? with
  | none => rfl
  | some t => rfl

theorem outcome?_run_seq_endOfInput : (run (seq p endOfInput) ts).outcome? =
    (p (.start ts)).outcome?.map fun o => o.bind fun r =>
      match r.2.peek? with
      | none => .ok (r.1, ())
      | some _ => .error (.unexpectedMatch r.2.position) := by
  rw [run_seq_endOfInput]
  refine outcome?_bind_of_ended _ fun r => ?_
  cases hpeek : r.2.peek? with
  | none => rw [endOfInput_of_end hpeek]; rfl
  | some t => rw [endOfInput_of_peek? hpeek]; rfl

theorem events_runComplete : (runComplete p ts).events = (p (.start ts)).events := by
  refine events_bind_of_silent _ fun r => ?_
  cases r.2.peek? with
  | none => rfl
  | some t => rfl

theorem events_run_seq_endOfInput :
    (run (seq p endOfInput) ts).events = (p (.start ts)).events := by
  rw [run_seq_endOfInput]
  refine events_bind_of_silent _ fun r => ?_
  cases hpeek : r.2.peek? with
  | none => rw [endOfInput_of_end hpeek]; rfl
  | some t => rw [endOfInput_of_peek? hpeek]; rfl

end Completion

/-- A complete parse accepts what the parser accepts with a check for the end of the input behind
it, fails as the parser does, and otherwise minds the token that the check would have read. Both
look at the sequence that the parser came to, which need not be the one that it was given. They
have the same events, and neither comes to its end without the other. Where a complete parse
succeeds the plain one does with the same value, and this fails only as the parser itself does. -/
theorem complete_iff_end_follows (p : Parser T α) (ts : List T) :
    let x := runComplete p ts
    let y := run (seq p endOfInput) ts
    (∀ v, x.outcome? = some (.ok v) ↔ y.outcome? = some (.ok (v, ()))) ∧
    (∀ e, Answers p (.start ts) (.error e) →
      x.outcome? = some (.error e) ∧ y.outcome? = some (.error e)) ∧
    (∀ v c, Answers p (.start ts) (.ok (v, c)) →
      (∀ q, (∃ t, x.outcome? = some (.error (.trailing t q))) ↔
        y.outcome? = some (.error (.unexpectedMatch q))) ∧
      (∀ e, x.outcome? = some (.error e) ↔
        ∃ t, c.source[c.position]? = some t ∧ e = .trailing t c.position) ∧
      ∀ e, y.outcome? = some (.error e) ↔
        c.position < c.source.length ∧ e = .unexpectedMatch c.position) ∧
    x.events = y.events ∧
    (x.outcome?.isSome = true ↔ y.outcome?.isSome = true) ∧
    (∀ v, x.outcome? = some (.ok v) → (run p ts).outcome? = some (.ok v)) ∧
    ∀ e, (run p ts).outcome? = some (.error e) ↔ Answers p (.start ts) (.error e) := by
  have hx := outcome?_runComplete p ts
  have hy := outcome?_run_seq_endOfInput p ts
  have hrun := outcome?_run p ts
  have hevents : (runComplete p ts).events = (run (seq p endOfInput) ts).events := by
    rw [events_runComplete, events_run_seq_endOfInput]
  intro x y
  rcases h : (p (.start ts)).outcome? with _ | e | ⟨v, c⟩
  · rw [h] at hx hy hrun
    simp [x, y, Answers, h, hx, hy, hrun, hevents]
  · rw [h] at hx hy hrun
    simp [x, y, Answers, h, hx, hy, hrun, hevents, Except.bind]
  · rw [h] at hx hy hrun
    cases hpeek : c.peek? with
    | none =>
      have hend : c.source.length ≤ c.position := List.getElem?_eq_none_iff.mp hpeek
      simp [x, y, Answers, h, hx, hy, hrun, hevents, Except.bind, hpeek, hend]
    | some t =>
      obtain ⟨hlt, rfl⟩ := List.getElem?_eq_some_iff.mp hpeek
      simp [x, y, Answers, h, hx, hy, hrun, hevents, Except.bind, hpeek, hlt, eq_comm]

/-- A parser that goes on inside another sequence leaves a token there that neither check misses,
one that goes on behind the last token of another sequence leaves none, whatever it was given, and
one that fails is not asked what it left. -/
theorem complete_iff_end_follows_elsewhere :
    let inside : Parser String Unit := custom fun _ => .ok ((), ⟨["a", "b"], 1⟩)
    let behind : Parser String Unit := custom fun _ => .ok ((), ⟨["a", "b"], 2⟩)
    let broken : Parser String Unit := custom fun _ => .error (.trailing "z" 9)
    Answers inside (.start []) (.ok ((), ⟨["a", "b"], 1⟩)) ∧
      (runComplete inside []).outcome? = some (.error (.trailing "b" 1)) ∧
      (run (seq inside endOfInput) []).outcome? = some (.error (.unexpectedMatch 1)) ∧
      (run (seq behind endOfInput) ["c"]).outcome? = some (.ok ((), ())) ∧
      (runComplete behind ["c"]).outcome? = some (.ok ()) ∧
      (run behind ["c"]).outcome? = some (.ok ()) ∧
      Answers broken (.start ["c"]) (.error (.trailing "z" 9)) ∧
      (run (seq broken endOfInput) ["c"]).outcome? = some (.error (.trailing "z" 9)) := by
  intro inside behind broken
  have hinside : Answers inside (.start []) (.ok ((), ⟨["a", "b"], 1⟩)) := rfl
  obtain ⟨-, -, hleft, -⟩ := complete_iff_end_follows inside []
  obtain ⟨-, hcomplete, hcheck⟩ := hleft _ _ hinside
  have hbehind : (run (seq behind endOfInput) ["c"]).outcome? = some (.ok ((), ())) := rfl
  obtain ⟨hsame, -, -, -, -, hplain, -⟩ := complete_iff_end_follows behind ["c"]
  have hbroken : Answers broken (.start ["c"]) (.error (.trailing "z" 9)) := rfl
  obtain ⟨-, hfails, -⟩ := complete_iff_end_follows broken ["c"]
  exact ⟨hinside, (hcomplete _).mpr ⟨"b", rfl, rfl⟩, (hcheck _).mpr ⟨by decide, rfl⟩, hbehind,
    (hsame ()).mpr hbehind, hplain () ((hsame ()).mpr hbehind), hbroken, (hfails _ hbroken).2⟩

end Parser
end TokenGrammar
