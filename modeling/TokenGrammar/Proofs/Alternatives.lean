import TokenGrammar.Proofs.Answers

/-! Ordered choice among any number of alternatives. However they are bracketed, and through
whatever shared handles, they are tried in order and all from where the choice started, up to the
first of them that does not fail or else the last; and what that one comes to is the outcome. -/
namespace TokenGrammar
namespace Parser
variable {T α β : Type} {p q : Parser T α} {ps qs : List (Parser T α)} {c : Cursor T}

def Fails (p : Parser T α) (c : Cursor T) : Prop := ∃ e, Answers p c (.error e)

theorem orElse_of_not_fails (h : ¬Fails p c) : orElse p q c = p c := by
  rcases hp : (p c).outcome? with _ | e | r
  · rw [orElse, Run.bind_of_none (Run.attempt_of_none hp)]
    exact Run.ext hp.symm rfl rfl
  · exact absurd ⟨e, hp⟩ h
  · exact orElse_of_ok hp

theorem orElse_assoc (p q r : Parser T α) : orElse (orElse p q) r = orElse p (orElse q r) := by
  funext c
  by_cases hp : Fails p c
  · obtain ⟨e, hp⟩ := hp
    have hpq := orElse_of_error (q := q) hp
    have hright := orElse_of_error (q := orElse q r) hp
    by_cases hq : Fails q c
    · obtain ⟨f, hq⟩ := hq
      have hboth : (orElse p q c).outcome? = some (.error f) := by rw [hpq]; exact hq
      rw [orElse_of_error hboth, hright, orElse_of_error hq, hpq]
      simp
    · have hboth : ¬Fails (orElse p q) c := by
        rintro ⟨f, hf⟩
        rw [Answers, hpq] at hf
        exact hq ⟨f, hf⟩
      rw [orElse_of_not_fails hboth, hpq, hright, orElse_of_not_fails hq]
  · have hleft := orElse_of_not_fails (q := q) hp
    have hboth : ¬Fails (orElse p q) c := by
      rintro ⟨f, hf⟩
      rw [Answers, hleft] at hf
      exact hp ⟨f, hf⟩
    rw [orElse_of_not_fails hboth, hleft, orElse_of_not_fails hp]

instance : Std.Associative (orElse : Parser T α → Parser T α → Parser T α) := ⟨orElse_assoc⟩

theorem choice_cons : choice p (q :: qs) = orElse p (choice q qs) := List.foldl_assoc

theorem choice_append : choice p (ps ++ q :: qs) = orElse (choice p ps) (choice q qs) := by
  rw [choice, List.foldl_append, List.foldl_cons]
  exact List.foldl_assoc

/-- A choice runs its alternatives up to the first that does not fail or else the last, each of them
once and from the same cursor, and comes to what that one comes to. -/
theorem choice_stops {before after : List (Parser T α)} (hall : p :: ps = before ++ q :: after)
    (hbefore : ∀ x ∈ before, Fails x c) (hq : ¬Fails q c ∨ after = []) :
    choice p ps c = ⟨(q c).outcome?, ((before ++ [q]).map (· c)).flatMap Run.events,
      ((before ++ [q]).map (· c)).flatMap Run.reads⟩ := by
  induction before generalizing p ps with
  | nil =>
    rw [List.nil_append, List.cons.injEq] at hall
    obtain ⟨rfl, rfl⟩ := hall
    have hfirst : choice p ps c = p c := by
      cases ps with
      | nil => rfl
      | cons x xs =>
        rw [choice_cons]
        exact orElse_of_not_fails (hq.resolve_right (List.cons_ne_nil x xs))
    rw [hfirst]
    simp
  | cons x before ih =>
    rw [List.cons_append, List.cons.injEq] at hall
    obtain ⟨rfl, rfl⟩ := hall
    obtain ⟨e, hp⟩ := hbefore p (by simp)
    obtain ⟨y, ys, hrest⟩ := List.exists_cons_of_ne_nil (l := before ++ q :: after) (by simp)
    have hlater := ih hrest.symm fun z hz => hbefore z (by simp [hz])
    rw [hrest, choice_cons, orElse_of_error hp, hlater]
    simp

section Distribution
variable {r : α × Cursor T}

theorem outcome?_seq_of_ok {q : Parser T β} (h : Answers p c (.ok r)) :
    (seq p q c).outcome? = (q r.2).outcome?.map (Except.map fun s => ((r.1, s.1), s.2)) := by
  rw [seq, Run.bind_of_ok h]
  simp

theorem outcome?_seq_orElse (p : Parser T α) (q q' : Parser T β) (c : Cursor T) :
    (seq p (orElse q q') c).outcome? = (orElse (seq p q) (seq p q') c).outcome? := by
  rcases hp : (p c).outcome? with _ | e | r
  · have hnone (x : Parser T β) : (seq p x c).outcome? = none := by
      rw [seq, Run.bind_of_none hp]
    have hends : ¬Fails (seq p q) c := by simp [Fails, Answers, hnone]
    rw [orElse_of_not_fails hends, hnone, hnone]
  · have herror (x : Parser T β) : (seq p x c).outcome? = some (.error e) := by
      rw [seq, Run.bind_of_error hp]
    rw [orElse_of_error (herror q), herror, herror]
  · by_cases hq : Fails q r.2
    · obtain ⟨f, hq⟩ := hq
      have hfirst : (seq p q c).outcome? = some (.error f) := by
        rw [outcome?_seq_of_ok hp, hq]
        rfl
      rw [outcome?_seq_of_ok hp, orElse_of_error hq, orElse_of_error hfirst, outcome?_seq_of_ok hp]
    · have hfirst : ¬Fails (seq p q) c := by
        rintro ⟨f, hf⟩
        rw [Answers, outcome?_seq_of_ok hp] at hf
        obtain ⟨e | s, hs, heq⟩ := Option.map_eq_some_iff.mp hf
        · exact hq ⟨e, hs⟩
        · cases heq
      rw [outcome?_seq_of_ok hp, orElse_of_not_fails hq, orElse_of_not_fails hfirst,
        outcome?_seq_of_ok hp]

theorem outcome?_map (f : α → β) :
    (map f p c).outcome? = (p c).outcome?.map (Except.map (Prod.map f id)) := by
  rcases h : (p c).outcome? with _ | e | r
  · rw [map, Run.mapped, Run.bind_of_none h]
    rfl
  · rw [map, Run.mapped, Run.bind_of_error h]
    rfl
  · rw [map, Run.mapped, Run.bind_of_ok h]
    rfl

theorem fails_map_iff {f : α → β} : Fails (map f p) c ↔ Fails p c := by
  simp only [Fails, Answers, outcome?_map]
  rcases (p c).outcome? with _ | _ | _ <;> simp [Except.map]

theorem outcome?_map_orElse (f : α → β) (p q : Parser T α) (c : Cursor T) :
    (map f (orElse p q) c).outcome? = (orElse (map f p) (map f q) c).outcome? := by
  by_cases hp : Fails p c
  · obtain ⟨e, hp⟩ := hp
    have hmap : (map f p c).outcome? = some (.error e) := by
      rw [outcome?_map, hp]
      rfl
    rw [outcome?_map, orElse_of_error hp, orElse_of_error hmap, outcome?_map]
  · have hmap : ¬Fails (map f p) c := mt fails_map_iff.mp hp
    rw [outcome?_map, orElse_of_not_fails hp, orElse_of_not_fails hmap, outcome?_map]

end Distribution

end Parser

namespace Grammar
open TokenGrammar.Parser
variable {T N : Type} {O : N → Type} {α β : Type}

/-- Alternatives, bracketed in some way and handed on through shared handles here and there. The
operator on shared grammars makes `shared (either (shared a) (shared b))` of two groups. -/
inductive Bracketing (T : Type) {N : Type} (O : N → Type) (α : Type) : Type 1 where
  | one (g : Grammar T O α)
  | either (a b : Bracketing T O α)
  | shared (a : Bracketing T O α)

namespace Bracketing

def alternatives : Bracketing T O α → List (Grammar T O α)
  | one g => [g]
  | either a b => a.alternatives ++ b.alternatives
  | shared a => a.alternatives

def grammar : Bracketing T O α → Grammar T O α
  | one g => g
  | either a b => .orElse a.grammar b.grammar
  | shared a => .shared a.grammar

theorem exists_choice [BEq T] (call : (n : N) → Parser T (O n)) (budget : Nat)
    (a : Bracketing T O α) : ∃ g gs, a.alternatives = g :: gs ∧
    a.grammar.parser call budget =
      Parser.choice (g.parser call budget) (gs.map fun h => h.parser call budget) := by
  induction a with
  | one g => exact ⟨g, [], rfl, rfl⟩
  | either a b iha ihb =>
    obtain ⟨g, gs, ha, hleft⟩ := iha
    obtain ⟨h, hs, hb, hright⟩ := ihb
    refine ⟨g, gs ++ h :: hs, by simp [alternatives, ha, hb], ?_⟩
    rw [grammar, parser, hleft, hright, List.map_append, List.map_cons, choice_append]
  | shared a ih => exact ih

variable [BEq T] {call : (n : N) → Parser T (O n)} {budget : Nat}

theorem parser_eq_of_alternatives {a b : Bracketing T O α}
    (h : a.alternatives = b.alternatives) :
    a.grammar.parser call budget = b.grammar.parser call budget := by
  obtain ⟨g, gs, ha, hleft⟩ := a.exists_choice call budget
  obtain ⟨k, ks, hb, hright⟩ := b.exists_choice call budget
  rw [ha, hb, List.cons.injEq] at h
  obtain ⟨rfl, rfl⟩ := h
  rw [hleft, hright]

theorem parser_stops {a : Bracketing T O α} {before after : List (Grammar T O α)}
    {g : Grammar T O α} {c : Cursor T} (ha : a.alternatives = before ++ g :: after)
    (hbefore : ∀ h ∈ before, Fails (h.parser call budget) c)
    (hg : ¬Fails (g.parser call budget) c ∨ after = []) :
    a.grammar.parser call budget c = ⟨(g.parser call budget c).outcome?,
      ((before ++ [g]).map fun h => h.parser call budget c).flatMap Run.events,
      ((before ++ [g]).map fun h => h.parser call budget c).flatMap Run.reads⟩ := by
  obtain ⟨k, ks, hall, hchoice⟩ := a.exists_choice call budget
  have hparsers := congrArg (List.map fun h => h.parser call budget) (hall.symm.trans ha)
  rw [List.map_cons, List.map_append, List.map_cons] at hparsers
  rw [hchoice, choice_stops hparsers (by simpa using hbefore) (by simpa using hg)]
  simp [Function.comp_def]

end Bracketing

/-- Whatever parsers the rules stand for: in every bracketing a choice runs its alternatives in
order, each of them once and from where the choice started. Behind some that fail, the first one
that succeeds gives the value and the cursor, and nothing is seen of those behind it; if all of them
fail, all have been run and the last one gives the failure. So only the order of the alternatives
matters. A choice may be moved in front of a parser before it, and out of a map. -/
theorem alternatives_in_order [BEq T] (call : (n : N) → Parser T (O n)) (budget : Nat)
    (c : Cursor T) :
    let run (g : Grammar T O α) := g.parser call budget c
    (∀ (a : Bracketing T O α) before g after r, a.alternatives = before ++ g :: after →
      (∀ h ∈ before, ∃ e, (run h).outcome? = some (.error e)) →
      (run g).outcome? = some (.ok r) →
      run a.grammar = ⟨some (.ok r), ((before ++ [g]).map run).flatMap Run.events,
        ((before ++ [g]).map run).flatMap Run.reads⟩) ∧
    (∀ (a : Bracketing T O α) before g e, a.alternatives = before ++ [g] →
      (∀ h ∈ before, ∃ e, (run h).outcome? = some (.error e)) →
      (run g).outcome? = some (.error e) →
      run a.grammar = ⟨some (.error e), (a.alternatives.map run).flatMap Run.events,
        (a.alternatives.map run).flatMap Run.reads⟩) ∧
    (∀ a b : Bracketing T O α, a.alternatives = b.alternatives → run a.grammar = run b.grammar) ∧
    (∀ {β : Type} (p : Grammar T O β) (g h : Grammar T O α),
      ((seq p (orElse g h)).parser call budget c).outcome? =
        ((orElse (seq p g) (seq p h)).parser call budget c).outcome?) ∧
    (∀ {β : Type} (f : α → β) (g h : Grammar T O α),
      ((map f (orElse g h)).parser call budget c).outcome? =
        ((orElse (map f g) (map f h)).parser call budget c).outcome?) := by
  intro run
  refine ⟨fun a before g after r ha hbefore hg => ?_, fun a before g e ha hbefore hg => ?_,
    fun a b h => congrFun (Bracketing.parser_eq_of_alternatives h) c,
    fun p g h => outcome?_seq_orElse _ _ _ c, fun f g h => outcome?_map_orElse f _ _ c⟩
  · have hends : ¬Fails (g.parser call budget) c := by
      rintro ⟨e, he⟩
      cases Answers.unique he hg
    have hrun := Bracketing.parser_stops ha hbefore (.inl hends)
    rw [← hg]
    exact hrun
  · have hrun := Bracketing.parser_stops ha hbefore (.inr rfl)
    rw [← hg, ha]
    exact hrun

/-- The first alternative reads a token before it fails, the second one goes on in another sequence,
and the third would have read the token, too. -/
theorem alternatives_in_order_elsewhere :
    let call : Unit → Parser String String := fun _ => .custom fun _ => .ok ("", .start ["b"])
    let run (g : Grammar String (fun _ : Unit => String) String) :=
      g.parser call 0 ⟨["x", "z"], 0⟩
    let xy : Grammar String (fun _ : Unit => String) String :=
      .map Prod.fst (.seq (.log "x" (.token "x")) (.token "y"))
    let a : Bracketing String (fun _ : Unit => String) String :=
      .shared (.either (.shared (.either (.one xy) (.one (.rule ())))) (.shared (.one (.token "x"))))
    let b : Bracketing String (fun _ : Unit => String) String :=
      .either (.one xy) (.either (.one (.rule ())) (.one (.token "x")))
    let e : Failure String := .unexpectedToken "z" "x" 0
    (∃ f, (run xy).outcome? = some (.error f)) ∧
      (run (.rule ())).outcome? = some (.ok ("", .start ["b"])) ∧
      run a.grammar = ⟨some (.ok ("", .start ["b"])), [.logged "x" 0 1], [0, 1]⟩ ∧
      a.alternatives = b.alternatives ∧ run a.grammar = run b.grammar ∧
      (run (.token "z")).outcome? = some (.error e) ∧
      run (Bracketing.either (.one xy) (.one (.token "z"))).grammar =
        ⟨some (.error e), [.logged "x" 0 1], [0, 1, 0]⟩ := by
  intro call run xy a b e
  obtain ⟨hfirst, hall, hsame, -⟩ := alternatives_in_order (α := String) call 0 ⟨["x", "z"], 0⟩
  have hxy : ∃ f, (run xy).outcome? = some (.error f) := ⟨.unexpectedToken "y" "z" 1, rfl⟩
  have hbefore : ∀ h ∈ [xy], ∃ f, (run h).outcome? = some (.error f) := by simpa using hxy
  exact ⟨hxy, rfl, hfirst a [xy] (.rule ()) [.token "x"] _ rfl hbefore rfl, rfl, hsame a b rfl, rfl,
    hall (.either (.one xy) (.one (.token "z"))) [xy] (.token "z") e rfl hbefore rfl⟩

end Grammar
end TokenGrammar
