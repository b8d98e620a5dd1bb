import TokenGrammar.Proofs.Soundness

/-! What failures tell. A failure of a standard grammar names the token that really stands at its
place, or the true end of the input, or a lookahead or check that the grammar really contains;
and so does the failure that ended a repetition. -/
namespace TokenGrammar

namespace Run
variable {T α β : Type}

theorem bind_eq_error {x : Run T α} {f : α → Run T β} {e : Failure T} :
    (x >>= f).outcome? = some (.error e) ↔ x.outcome? = some (.error e) ∨
      ∃ a, x.outcome? = some (.ok a) ∧ (f a).outcome? = some (.error e) := by
  rcases h : x.outcome? with _ | e' | a
  · simp [bind_of_none h]
  · simp [bind_of_error h]
  · simp [bind_of_ok h]

end Run

namespace Rules
variable {T N : Type} {O : N → Type} {α : Type} [BEq T]
open Grammar

/-- What is true of a failure of the grammar, in a run that starts at the cursor. -/
def Truthful (R : Rules T O) (g : Grammar T O α) (c : Cursor T) : Failure T → Prop
  | .unexpectedToken expected actual place =>
    c.position ≤ place ∧ place < c.source.length ∧ c.source[place]? = some actual ∧
      (actual == expected) = false
  | .unexpectedEnd place => place = c.source.length
  | .unexpectedMatch place =>
    c.position ≤ place ∧ place ≤ c.source.length ∧ R.Contains isLookahead g
  | .rejected => R.Contains isCheck g
  | .trailing _ _ => False

variable {R : Rules T O} {g : Grammar T O α}

theorem Truthful.back {c c' : Cursor T} {e : Failure T} (hr : c.Reaches c')
    (h : R.Truthful g c' e) : R.Truthful g c e := by
  cases e with
  | unexpectedToken expected actual place =>
    obtain ⟨hle, hlt, htoken, hne⟩ := h
    rw [hr.source] at hlt htoken
    exact ⟨Nat.le_trans hr.le hle, hlt, htoken, hne⟩
  | unexpectedEnd place =>
    have hplace : place = c'.source.length := h
    rw [hr.source] at hplace
    exact hplace
  | unexpectedMatch place =>
    obtain ⟨hle, hle', hcontains⟩ := h
    rw [hr.source] at hle'
    exact ⟨Nat.le_trans hr.le hle, hle', hcontains⟩
  | rejected => exact h
  | trailing actual place => exact h

theorem Truthful.position_le {c : Cursor T} {e : Failure T} {place : Nat} (hc : c.InBounds)
    (h : R.Truthful g c e) (hplace : e.position? = some place) : c.position ≤ place := by
  cases e with
  | unexpectedToken | unexpectedMatch =>
    cases hplace
    exact h.1
  | unexpectedEnd =>
    cases hplace
    have hend : place = c.source.length := h
    rw [hend]
    exact hc
  | rejected => cases hplace
  | trailing => exact h.elim

theorem admits_truthful (R : Rules T O) (g : Grammar T O α) :
    R.Admits (fun c e => R.Truthful g c e) g where
  back _ _ _ hr h := h.back hr
  ending c hc h := by
    have hlength : c.source.length ≤ c.position := List.getElem?_eq_none_iff.mp h
    exact Nat.le_antisymm hc hlength
  other expected c t h hne :=
    ⟨Nat.le_refl _, Cursor.position_lt_of_peek? h, h, hne⟩
  matched h c hc := ⟨Nat.le_refl _, hc, h⟩
  rejected h c := h

theorem runComplete_eq_trailing (hR : ∀ n, (R.body n).IsStandard) (hg : g.IsStandard)
    (budget : Nat) (ts : List T) (actual : T) (place : Nat) :
    ((R.parse budget g).runComplete ts).outcome? = some (.error (.trailing actual place)) ↔
      ∃ a, (R.parse budget g (.start ts)).outcome? = some (.ok (a, ⟨ts, place⟩)) ∧
        place < ts.length ∧ ts[place]? = some actual := by
  have hsound := parse_sound (ν := fun _ => True) hR (fun _ _ => trivial) budget g hg
    (R.admits_truthful g) (.start ts) (Nat.zero_le _)
  unfold Parser.runComplete
  rw [Run.bind_eq_error]
  constructor
  · rintro (he | ⟨⟨a, c⟩, ho, hlast⟩)
    · exact (hsound.outcome _ he).elim
    · have hmove : Cursor.Moves _ (.start ts) c := hsound.outcome _ ho
      cases hpeek : c.peek? with
      | none => simp [hpeek] at hlast
      | some t =>
        simp only [hpeek] at hlast
        cases hlast
        have hsource : c.source = ts := hmove.reaches.source
        have hlt : c.position < ts.length := hsource ▸ Cursor.position_lt_of_peek? hpeek
        subst hsource
        exact ⟨a, ho, hlt, hpeek⟩
  · rintro ⟨a, ho, -, hactual⟩
    refine .inr ⟨_, ho, ?_⟩
    have hpeek : (⟨ts, place⟩ : Cursor T).peek? = some actual := hactual
    simp only [hpeek]
    rfl

/-- No failure says anything false: neither the one that a parse ends in, nor one that ended a
repetition on the way. Only a complete parse complains of trailing input, and does so exactly
if there is some. -/
theorem failures_truthful (R : Rules T O) (hR : ∀ n, (R.body n).IsStandard) (g : Grammar T O α)
    (hg : g.IsStandard) (budget : Nat) (ts : List T) :
    (∀ p ≤ ts.length, ∀ e, (R.parse budget g ⟨ts, p⟩).outcome? = some (.error e) →
      R.Truthful g ⟨ts, p⟩ e) ∧
    (∀ p ≤ ts.length, ∀ e place collected,
      .stopped e place collected ∈ (R.parse budget g ⟨ts, p⟩).events →
      R.Truthful g ⟨ts, p⟩ e ∧ ∀ q, e.position? = some q → place ≤ q) ∧
    (∀ actual place,
      ((R.parse budget g).runComplete ts).outcome? = some (.error (.trailing actual place)) ↔
        ∃ a, (R.parse budget g (.start ts)).outcome? = some (.ok (a, ⟨ts, place⟩)) ∧
          place < ts.length ∧ ts[place]? = some actual) := by
  have hsound := parse_sound (ν := fun _ => True) hR (fun _ _ => trivial) budget g hg
    (R.admits_truthful g)
  refine ⟨fun p hp e ho => ?_, fun p hp e place collected he => ?_, ?_⟩
  · exact (hsound ⟨ts, p⟩ hp).outcome _ ho
  · obtain ⟨c', hr, rfl, htrue⟩ := (hsound ⟨ts, p⟩ hp).event _ he
    exact ⟨htrue.back hr, fun q hq => htrue.position_le hr.inBounds hq⟩
  · exact runComplete_eq_trailing hR hg budget ts

/-- Behind a group of brackets the end of the input is asked for. The second group, which is left
open, stopped the repetition, and it is what stands in place of the end. -/
theorem groups_failures_truthful :
    let x := nested.parse 9 allNested ⟨["(", "x", ")", "("], 0⟩
    x.outcome? = some (.error (.unexpectedMatch 3)) ∧
      nested.Truthful allNested ⟨["(", "x", ")", "("], 0⟩ (.unexpectedMatch 3) ∧
      .stopped (.unexpectedEnd 4) 3 1 ∈ x.events ∧
      nested.Truthful allNested ⟨["(", "x", ")", "("], 0⟩ (.unexpectedEnd 4) := by
  have htruthful := failures_truthful nested nested_isStandard allNested ⟨trivial, trivial⟩ 9
    ["(", "x", ")", "("]
  have hfailed := htruthful.1 0 (Nat.zero_le _) (.unexpectedMatch 3) rfl
  have hmem : .stopped (.unexpectedEnd 4) 3 1 ∈
      (nested.parse 9 allNested ⟨["(", "x", ")", "("], 0⟩).events :=
    List.mem_of_getElem? (i := 6) rfl
  have hstopped := htruthful.2.1 0 (Nat.zero_le _) _ _ _ hmem
  exact ⟨rfl, hfailed, hmem, hstopped.1⟩

end Rules
end TokenGrammar
