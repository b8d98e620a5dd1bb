import TokenGrammar.Proofs.Answers

/-! Looking ahead as a logic. Parsers that only ask what does not follow, and sequences and choices
of such parsers, are read as formulas: to follow by nothing of a kind is a negation, a sequence is a
conjunction and a choice a disjunction. A formula succeeds exactly if it holds, and then no token
has been read; otherwise its failure says where it was asked, and nothing of what its atoms did. -/
namespace TokenGrammar

/-- A formula about what lies ahead, with parsers for its atoms. Its value says nothing. -/
inductive Lookahead (T : Type) : Type → Type 1 where
  | absent {α : Type} (p : Parser T α) : Lookahead T Unit
  | not {α : Type} (F : Lookahead T α) : Lookahead T Unit
  | and {α β : Type} (F : Lookahead T α) (G : Lookahead T β) : Lookahead T (α × β)
  | or {α : Type} (F G : Lookahead T α) : Lookahead T α
  /-- The same formula with another value, as both parts of a choice need values of one type. -/
  | map {α β : Type} (f : α → β) (F : Lookahead T α) : Lookahead T β

/-- The run does not leave the cursor, and tells whether something holds there. -/
def Run.Tells {T α : Type} (x : Run T (α × Cursor T)) (c : Cursor T) (P : Prop) : Prop :=
  (P ∧ ∃ a, x.outcome? = some (.ok (a, c))) ∨
    (¬P ∧ x.outcome? = some (.error (.unexpectedMatch c.position)))

namespace Run
variable {T α : Type} {x : Run T (α × Cursor T)} {c : Cursor T} {P : Prop}

theorem Tells.ends (h : x.Tells c P) : ∃ o, x.outcome? = some o := by
  obtain ⟨-, a, ha⟩ | ⟨-, he⟩ := h
  · exact ⟨.ok (a, c), ha⟩
  · exact ⟨.error (.unexpectedMatch c.position), he⟩

theorem Tells.ok_iff (h : x.Tells c P) : (∃ r, x.outcome? = some (.ok r)) ↔ P := by
  obtain ⟨hP, a, ha⟩ | ⟨hP, he⟩ := h
  · simp [hP, ha]
  · simp [hP, he]

theorem Tells.cursor_of_ok (h : x.Tells c P) {r : α × Cursor T}
    (hr : x.outcome? = some (.ok r)) : r.2 = c := by
  obtain ⟨-, a, ha⟩ | ⟨-, he⟩ := h
  · rw [ha] at hr
    cases hr
    rfl
  · rw [he] at hr
    cases hr

theorem Tells.error_iff (h : x.Tells c P) {e : Failure T} :
    x.outcome? = some (.error e) ↔ ¬P ∧ e = .unexpectedMatch c.position := by
  obtain ⟨hP, a, ha⟩ | ⟨hP, he⟩ := h
  · simp [hP, ha]
  · simp [hP, he, eq_comm]

end Run

namespace Parser
open Run
variable {T α β : Type} {p : Parser T α} {q : Parser T β} {c : Cursor T} {P Q : Prop}

theorem tells_notFollowedBy (hends : ∃ o, Answers p c o) :
    (notFollowedBy p c).Tells c (¬∃ r, Answers p c (.ok r)) := by
  obtain ⟨e | r, ho⟩ := hends
  · refine .inl ⟨?_, (), by rw [notFollowedBy_of_error ho]⟩
    rintro ⟨r, hr⟩
    cases ho.unique hr
  · exact .inr ⟨not_not_intro ⟨r, ho⟩, by rw [notFollowedBy_of_ok ho]⟩

theorem tells_not (hp : (p c).Tells c P) : (notFollowedBy p c).Tells c (¬P) := by
  have hnot := tells_notFollowedBy hp.ends
  rwa [show (∃ r, Answers p c (.ok r)) ↔ P from hp.ok_iff] at hnot

theorem tells_and (hp : (p c).Tells c P) (hq : (q c).Tells c Q) :
    (seq p q c).Tells c (P ∧ Q) := by
  obtain ⟨hP, a, ha⟩ | ⟨hP, he⟩ := hp
  · obtain ⟨hQ, b, hb⟩ | ⟨hQ, he⟩ := hq
    · refine .inl ⟨⟨hP, hQ⟩, (a, b), ?_⟩
      rw [seq, bind_of_ok ha, bind_of_ok hb]
      rfl
    · refine .inr ⟨fun h => hQ h.2, ?_⟩
      rw [seq, bind_of_ok ha, bind_of_error he]
  · refine .inr ⟨fun h => hP h.1, ?_⟩
    rw [seq, bind_of_error he]

theorem tells_or {q : Parser T α} (hp : (p c).Tells c P) (hq : (q c).Tells c Q) :
    (orElse p q c).Tells c (P ∨ Q) := by
  obtain ⟨hP, a, ha⟩ | ⟨hP, he⟩ := hp
  · exact .inl ⟨.inl hP, a, by rw [orElse_of_ok ha, ha]⟩
  · obtain ⟨hQ, b, hb⟩ | ⟨hQ, hf⟩ := hq
    · exact .inl ⟨.inr hQ, b, by rw [orElse_of_error he, hb]⟩
    · exact .inr ⟨not_or.mpr ⟨hP, hQ⟩, by rw [orElse_of_error he, hf]⟩

theorem tells_map (f : α → β) (hp : (p c).Tells c P) : (map f p c).Tells c P := by
  obtain ⟨hP, a, ha⟩ | ⟨hP, he⟩ := hp
  · refine .inl ⟨hP, f a, ?_⟩
    rw [map, mapped, bind_of_ok ha]
    rfl
  · refine .inr ⟨hP, ?_⟩
    rw [map, mapped, bind_of_error he]

/-- From the cursor both succeed with one cursor, or both fail alike, or neither ends. -/
def AlikeAt (c : Cursor T) (p : Parser T α) (q : Parser T β) : Prop :=
  (p c).outcome?.map (Except.map Prod.snd) = (q c).outcome?.map (Except.map Prod.snd)

theorem alikeAt_of_tells (hp : (p c).Tells c P) (hq : (q c).Tells c Q) (h : P ↔ Q) :
    AlikeAt c p q := by
  obtain ⟨hP, a, ha⟩ | ⟨hP, he⟩ := hp
  · obtain ⟨hQ, b, hb⟩ | ⟨hQ, hf⟩ := hq
    · rw [AlikeAt, ha, hb]
      rfl
    · exact absurd (h.mp hP) hQ
  · obtain ⟨hQ, b, hb⟩ | ⟨hQ, hf⟩ := hq
    · exact absurd (h.mpr hQ) hP
    · rw [AlikeAt, he, hf]
      rfl

end Parser

namespace Lookahead
open TokenGrammar.Parser
variable {T α β : Type} {c : Cursor T}

def parser {α : Type} : Lookahead T α → Parser T α
  | absent p => notFollowedBy p
  | not F => notFollowedBy F.parser
  | and F G => seq F.parser G.parser
  | or F G => orElse F.parser G.parser
  | map f F => Parser.map f F.parser

/-- Whether the formula holds at a cursor, where an atom stands for the success of its parser. -/
def Holds (c : Cursor T) {α : Type} : Lookahead T α → Prop
  | absent p => ¬∃ r, Answers p c (.ok r)
  | not F => ¬F.Holds c
  | and F G => F.Holds c ∧ G.Holds c
  | or F G => F.Holds c ∨ G.Holds c
  | map _ F => F.Holds c

def AtomsEnd (c : Cursor T) {α : Type} : Lookahead T α → Prop
  | absent p => ∃ o, Answers p c o
  | not F => F.AtomsEnd c
  | and F G => F.AtomsEnd c ∧ G.AtomsEnd c
  | or F G => F.AtomsEnd c ∧ G.AtomsEnd c
  | map _ F => F.AtomsEnd c

theorem tells (F : Lookahead T α) (h : F.AtomsEnd c) : (F.parser c).Tells c (F.Holds c) := by
  induction F with
  | absent p => exact tells_notFollowedBy h
  | not F ih => exact tells_not (ih h)
  | and F G ihF ihG => exact tells_and (ihF h.1) (ihG h.2)
  | or F G ihF ihG => exact tells_or (ihF h.1) (ihG h.2)
  | map f F ih => exact tells_map f (ih h)

/-- A formula about what lies ahead succeeds exactly if it holds, and then with the cursor that it
was asked at; if it does not hold, it minds a match at this cursor. So formulas that say the same
come to the same cursor or failure, and negations may be moved inwards and cancelled in pairs. -/
theorem formulas_decide (F : Lookahead T α) (c : Cursor T) (hF : F.AtomsEnd c) :
    ((∃ r, Answers F.parser c (.ok r)) ↔ F.Holds c) ∧
    (∀ r, Answers F.parser c (.ok r) → r.2 = c) ∧
    (∀ e, Answers F.parser c (.error e) ↔ ¬F.Holds c ∧ e = .unexpectedMatch c.position) ∧
    (∀ {β : Type} (G : Lookahead T β), G.AtomsEnd c → (F.Holds c ↔ G.Holds c) →
      AlikeAt c F.parser G.parser) ∧
    (∀ G : Lookahead T α, G.AtomsEnd c →
      AlikeAt c (not (or F G)).parser (and (not F) (not G)).parser) ∧
    AlikeAt c (not (not (not F))).parser (not F).parser := by
  have htells := F.tells hF
  refine ⟨htells.ok_iff, fun r hr => htells.cursor_of_ok hr, fun e => htells.error_iff,
    fun G hG hsame => alikeAt_of_tells htells (G.tells hG) hsame, fun G hG => ?_, ?_⟩
  · have hleft := (not (or F G)).tells ⟨hF, hG⟩
    have hright := (and (not F) (not G)).tells ⟨hF, hG⟩
    exact alikeAt_of_tells hleft hright not_or
  · have hleft := (not (not (not F))).tells hF
    have hright := (not F).tells hF
    exact alikeAt_of_tells hleft hright Classical.not_not

/-- An atom that would go on in another sequence, and one that reads two tokens before it fails. -/
theorem formulas_decide_between_letters :
    let c : Cursor String := ⟨["a", "b", "c"], 1⟩
    let elsewhere : Parser String Unit := custom fun _ => .ok ((), .start [])
    let F : Lookahead String Unit := .absent (seq (token "b") (seq (token "c") (token "d")))
    let G : Lookahead String Unit := .absent elsewhere
    F.AtomsEnd c ∧ G.AtomsEnd c ∧ F.Holds c ∧ ¬G.Holds c ∧
      (∃ r, Answers F.parser c (.ok r) ∧ r.2 = c) ∧
      Answers G.parser c (.error (.unexpectedMatch 1)) ∧
      (F.Holds c ↔ (not G).Holds c) ∧ AlikeAt c F.parser (not G).parser ∧
      AlikeAt c (not (or F G)).parser (and (not F) (not G)).parser ∧
      AlikeAt c (not (not (not F))).parser (not F).parser := by
  intro c elsewhere F G
  have hF : F.AtomsEnd c := ⟨.error (.unexpectedEnd 3), rfl⟩
  have hG : G.AtomsEnd c := ⟨.ok ((), .start []), rfl⟩
  have hholds : F.Holds c := by
    rintro ⟨r, hr⟩
    cases hr
  have hnot : ¬G.Holds c := fun h => h ⟨((), .start []), rfl⟩
  obtain ⟨hok, hcursor, -, hsame, hmorgan, hthrice⟩ := formulas_decide F c hF
  obtain ⟨-, -, herror, -⟩ := formulas_decide G c hG
  obtain ⟨r, hr⟩ := hok.mpr hholds
  have hiff : F.Holds c ↔ (not G).Holds c := ⟨fun _ => hnot, fun _ => hholds⟩
  exact ⟨hF, hG, hholds, hnot, ⟨r, hr, hcursor r hr⟩, (herror _).mpr ⟨hnot, rfl⟩, hiff,
    hsame (not G) hG hiff, hmorgan G hG, hthrice⟩

end Lookahead
end TokenGrammar
