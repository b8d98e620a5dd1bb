import TokenGrammar.Proofs.Settling

/-! What a parser comes to, told by what its parts come to. Parsers are taken with all budgets at
once here; a larger budget changes no run that came to its end. Then a parser that is put together
from others comes to an outcome exactly if these do, and no budget is left in the statements. -/
namespace TokenGrammar
namespace Run
variable {T α β : Type} {F : Nat → Run T α}

/-- A larger budget changes no run that came to its end. -/
def Steady (F : Nat → Run T α) : Prop := ∀ m n, m ≤ n → (F m).KeptBy (F n)

theorem Steady.const (x : Run T α) : Steady (fun _ => x) := fun _ _ _ => .refl x

theorem Steady.settles (hF : Steady F) {m : Nat} {o : Outcome T α}
    (h : (F m).outcome? = some o) : Settles F o := by
  refine ⟨m, fun n hn => ?_⟩
  have hkept : F n = F m := hF m n hn (by simp [h])
  rw [hkept, h]

theorem settles_const_iff {x : Run T α} {o : Outcome T α} :
    Settles (fun _ => x) o ↔ x.outcome? = some o := by
  constructor
  · rintro ⟨m, hm⟩
    exact hm m (Nat.le_refl m)
  · exact .const

/-- A sequence comes to a failure of its first part, or else to what the second part comes to behind
the value of the first. -/
theorem settles_bind_iff (hF : Steady F) {G : Nat → α → Run T β} {o : Outcome T β} :
    Settles (fun n => F n >>= G n) o ↔ (∃ e, Settles F (.error e) ∧ o = .error e) ∨
      ∃ a, Settles F (.ok a) ∧ Settles (fun n => G n a) o := by
  constructor
  · rintro ⟨m, hm⟩
    have hfirst : (F m >>= G m).outcome? = some o := hm m (Nat.le_refl m)
    rcases ho : (F m).outcome? with _ | e | a
    · rw [bind_of_none ho] at hfirst
      cases hfirst
    · rw [bind_of_error ho] at hfirst
      exact .inl ⟨e, hF.settles ho, (Option.some.inj hfirst).symm⟩
    · refine .inr ⟨a, hF.settles ho, m, fun n hn => ?_⟩
      have hkept : F n = F m := hF m n hn (by simp [ho])
      have hboth : (F n >>= G n).outcome? = some o := hm n hn
      rw [hkept, bind_of_ok ho] at hboth
      exact hboth
  · rintro (⟨e, he, rfl⟩ | ⟨a, ha, ho⟩)
    · exact he.bind_error
    · exact ha.bind_ok ho

theorem Steady.attempt (hF : Steady F) : Steady (fun n => (F n).attempt) :=
  fun m n h => (hF m n h).attempt

theorem settles_attempt_bind_iff (hF : Steady F) {G : Nat → Outcome T α → Run T β}
    {o : Outcome T β} : Settles (fun n => (F n).attempt >>= G n) o ↔
      ∃ o', Settles F o' ∧ Settles (fun n => G n o') o := by
  rw [settles_bind_iff hF.attempt]
  have hsome (o' : Outcome T (Outcome T α)) : Settles (fun n => (F n).attempt) o' ↔
      ∃ o'', Settles F o'' ∧ o' = .ok o'' := by
    constructor
    · rintro ⟨m, hm⟩
      have hattempt : (F m).attempt.outcome? = some o' := hm m (Nat.le_refl m)
      obtain ⟨o'', ho'', rfl⟩ := Option.map_eq_some_iff.mp hattempt
      exact ⟨o'', hF.settles ho'', rfl⟩
    · rintro ⟨o'', ⟨m, hm⟩, rfl⟩
      refine ⟨m, fun n hn => ?_⟩
      show (F n).attempt.outcome? = some (.ok o'')
      rw [outcome?_attempt, hm n hn]
      rfl
  simp [hsome]

theorem settles_map_iff (hF : Steady F) {f : α → β} {G : α → Run T β}
    (hG : ∀ a, (G a).outcome? = some (.ok (f a))) {o : Outcome T β} :
    Settles (fun n => F n >>= G) o ↔ ∃ o', Settles F o' ∧ o = o'.map f := by
  rw [settles_bind_iff hF]
  simp only [settles_const_iff, hG, Option.some.injEq]
  constructor
  · rintro (⟨e, he, rfl⟩ | ⟨a, ha, rfl⟩)
    · exact ⟨.error e, he, rfl⟩
    · exact ⟨.ok a, ha, rfl⟩
  · rintro ⟨e | a, ho', rfl⟩
    · exact .inl ⟨e, ho', rfl⟩
    · exact .inr ⟨a, ho', rfl⟩

end Run

namespace Parser
open Run
variable {T α β γ : Type} {P : Nat → Parser T α} {Q : Nat → Parser T β} {c d : Cursor T}

def Answers (p : Parser T α) (c : Cursor T) (o : Outcome T (α × Cursor T)) : Prop :=
  (p c).outcome? = some o

/-- With enough budget the parsers come to this outcome from the cursor. -/
def Comes (P : Nat → Parser T α) (c : Cursor T) (o : Outcome T (α × Cursor T)) : Prop :=
  Settles (fun n => P n c) o

/-- From every cursor both come to the same outcome, or neither comes to its end. -/
def Agree (P Q : Nat → Parser T α) : Prop := ∀ c o, Comes P c o ↔ Comes Q c o

def Steady (P : Nat → Parser T α) : Prop := ∀ m n, m ≤ n → KeptBy (P m) (P n)

theorem Steady.run (hP : Steady P) (c : Cursor T) : Run.Steady (fun n => P n c) :=
  fun m n h => hP m n h c

theorem Steady.const (p : Parser T α) : Steady (fun _ => p) := fun _ _ _ c => .refl (p c)

theorem Comes.unique {o o' : Outcome T (α × Cursor T)} (h : Comes P c o) (h' : Comes P c o') :
    o = o' := Settles.unique h h'

theorem Steady.comes (hP : Steady P) (n : Nat) {o : Outcome T (α × Cursor T)}
    (h : (P n c).outcome? = some o) : Comes P c o := (hP.run c).settles h

theorem comes_const (p : Parser T α) : Comes (fun _ => p) = Answers p := by
  funext c o
  exact propext settles_const_iff

theorem Answers.unique {p : Parser T α} {o o' : Outcome T (α × Cursor T)} (h : Answers p c o)
    (h' : Answers p c o') : o = o' := Option.some.inj (h.symm.trans h')

theorem Steady.repeated (hP : Steady P) (b : Bounds) :
    Steady (fun n => Parser.repeated b (P n) n) :=
  fun m n h c => (attempts_keptBy (hP m n h) b h 0 c).bind fun _ => .refl _

theorem Steady.separated (hP : Steady P) (hQ : Steady Q) :
    Run.Steady (fun n => Parser.separated (P n) (Q n) n c) :=
  fun m n h => separated_keptBy (hP m n h) (hQ m n h) h c

theorem Steady.chain {Q : Nat → α → Parser T β} (hP : Steady P)
    (hQ : ∀ a, Steady (fun n => Q n a)) (f : α → β → γ) :
    Steady (fun n => Parser.chain (P n) (Q n) f) :=
  fun m n h c => (hP m n h c).chained _ fun r => hQ r.1 m n h r.2

theorem comes_map_iff {f : α → β} (hP : Steady P) {o : Outcome T (β × Cursor T)} :
    Comes (fun n => map f (P n)) c o ↔ ∃ o', Comes P c o' ∧ o = o'.map (Prod.map f id) :=
  settles_map_iff (hP.run c) fun _ => rfl

theorem comes_chain_iff {Q : Nat → α → Parser T β} {f : α → β → γ} (hP : Steady P)
    (hQ : ∀ a, Steady (fun n => Q n a)) {o : Outcome T (γ × Cursor T)} :
    Comes (fun n => chain (P n) (Q n) f) c o ↔ (∃ e, Comes P c (.error e) ∧ o = .error e) ∨
      ∃ r, Comes P c (.ok r) ∧ ∃ o', Comes (fun n => Q n r.1) r.2 o' ∧
        o = o'.map fun s => (f r.1 s.1, s.2) :=
  (settles_bind_iff (hP.run c)).trans <| or_congr_right <| exists_congr fun r =>
    and_congr_right fun _ => settles_map_iff ((hQ r.1).run r.2) fun _ => rfl

theorem comes_seq_iff (hP : Steady P) (hQ : Steady Q) {o : Outcome T ((α × β) × Cursor T)} :
    Comes (fun n => seq (P n) (Q n)) c o ↔ (∃ e, Comes P c (.error e) ∧ o = .error e) ∨
      ∃ r, Comes P c (.ok r) ∧ ∃ o', Comes Q r.2 o' ∧ o = o'.map fun s => ((r.1, s.1), s.2) :=
  (settles_bind_iff (hP.run c)).trans <| or_congr_right <| exists_congr fun r =>
    and_congr_right fun _ => settles_map_iff (hQ.run r.2) fun _ => rfl

theorem comes_between_iff {R : Nat → Parser T γ} (hP : Steady P) (hQ : Steady Q) (hR : Steady R)
    {o : Outcome T (β × Cursor T)} :
    Comes (fun n => between (P n) (Q n) (R n)) c o ↔ (∃ e, Comes P c (.error e) ∧ o = .error e) ∨
      ∃ r, Comes P c (.ok r) ∧ ((∃ e, Comes Q r.2 (.error e) ∧ o = .error e) ∨
        ∃ s, Comes Q r.2 (.ok s) ∧ ∃ o', Comes R s.2 o' ∧ o = o'.map fun t => (s.1, t.2)) :=
  (settles_bind_iff (hP.run c)).trans <| or_congr_right <| exists_congr fun r =>
    and_congr_right fun _ => (settles_bind_iff (hQ.run r.2)).trans <| or_congr_right <|
      exists_congr fun s => and_congr_right fun _ => settles_map_iff (hR.run s.2) fun _ => rfl

theorem comes_orElse_iff {P' : Nat → Parser T α} (hP : Steady P)
    {o : Outcome T (α × Cursor T)} :
    Comes (fun n => orElse (P n) (P' n)) c o ↔
      (∃ r, Comes P c (.ok r) ∧ o = .ok r) ∨ ∃ e, Comes P c (.error e) ∧ Comes P' c o := by
  refine (settles_attempt_bind_iff (hP.run c)).trans ?_
  constructor
  · rintro ⟨e | r, ho', ho⟩
    · exact .inr ⟨e, ho', ho⟩
    · exact .inl ⟨r, ho', (Option.some.inj (settles_const_iff.mp ho)).symm⟩
  · rintro (⟨r, hr, rfl⟩ | ⟨e, he, ho⟩)
    · exact ⟨.ok r, hr, .pure r⟩
    · exact ⟨.error e, he, ho⟩

theorem comes_notFollowedBy_iff (hP : Steady P) {o : Outcome T (Unit × Cursor T)} :
    Comes (fun n => notFollowedBy (P n)) c o ↔
      (∃ r, Comes P c (.ok r) ∧ o = .error (.unexpectedMatch c.position)) ∨
      ∃ e, Comes P c (.error e) ∧ o = .ok ((), c) := by
  refine (settles_attempt_bind_iff (hP.run c)).trans ?_
  constructor
  · rintro ⟨e | r, ho', ho⟩
    · exact .inr ⟨e, ho', (Option.some.inj (settles_const_iff.mp ho)).symm⟩
    · exact .inl ⟨r, ho', (Option.some.inj (settles_const_iff.mp ho)).symm⟩
  · rintro (⟨r, hr, rfl⟩ | ⟨e, he, rfl⟩)
    · exact ⟨.ok r, hr, .const rfl⟩
    · exact ⟨.error e, he, .const rfl⟩

theorem answers_token_iff [BEq T] {expected t : T} :
    Answers (token expected) c (.ok (t, d)) ↔
      c.peek? = some t ∧ (t == expected) = true ∧ d = c.advance := by
  cases hpeek : c.peek? with
  | none => simp [Answers, token_of_end hpeek]
  | some u =>
    cases heq : u == expected with
    | true =>
      rw [Answers, token_of_eq hpeek heq]
      constructor
      · rintro ⟨⟩
        exact ⟨rfl, heq, rfl⟩
      · rintro ⟨⟨⟩, -, rfl⟩
        rfl
    | false =>
      rw [Answers, token_of_ne hpeek heq]
      constructor
      · rintro ⟨⟩
      · rintro ⟨⟨⟩, htrue, -⟩
        simp [heq] at htrue

theorem token_fails [BEq T] {expected : T}
    (h : ∀ t, c.peek? = some t → (t == expected) = false) :
    ∃ e, Answers (token expected) c (.error e) := by
  cases hpeek : c.peek? with
  | none => exact ⟨_, by rw [Answers, token_of_end hpeek]⟩
  | some t => exact ⟨_, by rw [Answers, token_of_ne hpeek (h t hpeek)]⟩

/-- A complete parse comes to the failure of its parser, or to its value at the end of the sequence
that it got to, or else minds the token there. -/
theorem settles_runComplete_iff (hP : Steady P) {ts : List T} {o : Outcome T α} :
    Settles (fun n => runComplete (P n) ts) o ↔
      (∃ e, Comes P (.start ts) (.error e) ∧ o = .error e) ∨
      ∃ r, Comes P (.start ts) (.ok r) ∧
        o = match r.2.peek? with
          | none => .ok r.1
          | some t => .error (.trailing t r.2.position) := by
  refine (settles_bind_iff (hP.run (.start ts))).trans (or_congr_right (exists_congr fun r =>
    and_congr_right fun _ => settles_const_iff.trans ?_))
  cases r.2.peek? with
  | none => simp [eq_comm]
  | some t => simp [Run.fail, Run.ofOutcome, eq_comm]

theorem settles_runComplete_ok_iff (hP : Steady P) {ts : List T} {a : α} :
    Settles (fun n => runComplete (P n) ts) (.ok a) ↔
      ∃ d, Comes P (.start ts) (.ok (a, d)) ∧ d.peek? = none := by
  rw [settles_runComplete_iff hP]
  constructor
  · rintro (⟨e, -, heq⟩ | ⟨⟨a', d⟩, ha, heq⟩)
    · cases heq
    · cases hpeek : d.peek? with
      | none =>
        rw [hpeek] at heq
        cases heq
        exact ⟨d, ha, hpeek⟩
      | some t =>
        rw [hpeek] at heq
        cases heq
  · rintro ⟨d, ha, hpeek⟩
    exact .inr ⟨(a, d), ha, by rw [hpeek]⟩

end Parser

namespace Rules
open TokenGrammar.Parser
variable {T N : Type} {O : N → Type} {α β : Type} [BEq T] {R : Rules T O} {c d : Cursor T}

theorem steady_parse (R : Rules T O) (g : Grammar T O α) : Parser.Steady (fun n => R.parse n g) :=
  fun _ _ h => R.parse_keptBy h g

theorem comes_rule_iff {n : N} {o : Outcome T (O n × Cursor T)} :
    Comes (fun k => R.parse k (.rule n)) c o ↔ Comes (fun k => R.parse k (R.body n)) c o := by
  constructor
  · rintro ⟨m, hm⟩
    have hbody : (R.parse m (R.body n) c).outcome? = some o := hm (m + 1) (Nat.le_succ m)
    exact (R.steady_parse (R.body n)).comes m hbody
  · exact rule_settles

/-- With enough budget the grammar reads a value from the one cursor up to the other. -/
def Takes (R : Rules T O) (g : Grammar T O α) (c : Cursor T) (a : α) (d : Cursor T) : Prop :=
  Comes (fun n => R.parse n g) c (.ok (a, d))

def Refuses (R : Rules T O) (g : Grammar T O α) (c : Cursor T) : Prop :=
  ∃ f, Comes (fun n => R.parse n g) c (.error f)

section Combinators
variable {g : Grammar T O α} {h : Grammar T O β} {r : α × β} {a : α} {t u : T}

theorem takes_seq_iff : R.Takes (.seq g h) c r d ↔
    ∃ d', R.Takes g c r.1 d' ∧ R.Takes h d' r.2 d := by
  refine (comes_seq_iff (R.steady_parse g) (R.steady_parse h)).trans ?_
  constructor
  · rintro (⟨f, -, heq⟩ | ⟨⟨a, d'⟩, ha, o' | ⟨b, d''⟩, hb, heq⟩)
    · cases heq
    · cases heq
    · cases heq
      exact ⟨d', ha, hb⟩
  · rintro ⟨d', ha, hb⟩
    exact .inr ⟨(r.1, d'), ha, _, hb, rfl⟩

theorem refuses_seq (hg : R.Refuses g c) : R.Refuses (.seq g h) c := by
  obtain ⟨f, hf⟩ := hg
  exact ⟨f, hf.bind_error⟩

theorem takes_map_iff {f : α → β} {b : β} : R.Takes (.map f g) c b d ↔
    ∃ a, R.Takes g c a d ∧ b = f a := by
  refine (comes_map_iff (R.steady_parse g)).trans ?_
  constructor
  · rintro ⟨e | ⟨a, d'⟩, ha, heq⟩
    · cases heq
    · cases heq
      exact ⟨a, ha, rfl⟩
  · rintro ⟨a, ha, rfl⟩
    exact ⟨.ok (a, d), ha, rfl⟩

theorem refuses_map {f : α → β} (hg : R.Refuses g c) : R.Refuses (.map f g) c := by
  obtain ⟨e, he⟩ := hg
  exact ⟨e, he.bind_error⟩

theorem takes_orElse_iff {g' : Grammar T O α} : R.Takes (.orElse g g') c a d ↔
    R.Takes g c a d ∨ R.Refuses g c ∧ R.Takes g' c a d := by
  refine (comes_orElse_iff (R.steady_parse g)).trans ?_
  constructor
  · rintro (⟨r, hr, heq⟩ | ⟨f, hf, ha⟩)
    · cases heq
      exact .inl hr
    · exact .inr ⟨⟨f, hf⟩, ha⟩
  · rintro (ha | ⟨⟨f, hf⟩, ha⟩)
    · exact .inl ⟨(a, d), ha, rfl⟩
    · exact .inr ⟨f, hf, ha⟩

theorem refuses_orElse {g' : Grammar T O α} (hg : R.Refuses g c) (hg' : R.Refuses g' c) :
    R.Refuses (.orElse g g') c := by
  obtain ⟨f, hf⟩ := hg
  obtain ⟨f', hf'⟩ := hg'
  exact ⟨f', hf.attempt_bind hf'⟩

variable [LawfulBEq T]

theorem takes_token_iff : R.Takes (.token t) c u d ↔
    c.peek? = some u ∧ u = t ∧ d = c.advance := by
  have htoken : R.Takes (.token t) c u d ↔ Parser.Answers (token t) c (.ok (u, d)) :=
    Run.settles_const_iff
  rw [htoken, answers_token_iff, beq_iff_eq]

theorem refuses_token (h : c.peek? ≠ some t) : R.Refuses (.token t) c := by
  have hother (u : T) (hu : c.peek? = some u) : (u == t) = false := by
    refine beq_eq_false_iff_ne.mpr ?_
    rintro rfl
    exact h hu
  obtain ⟨f, hf⟩ := token_fails hother
  exact ⟨f, .const hf⟩

theorem takes_enclosed_iff : R.Takes (.enclosed t g u) c a d ↔
    ∃ d', c.peek? = some t ∧ R.Takes g c.advance a d' ∧ d'.peek? = some u ∧ d = d'.advance := by
  refine (comes_between_iff (R.steady_parse (.token t)) (R.steady_parse g)
    (R.steady_parse (.token u))).trans ?_
  constructor
  · rintro (⟨f, -, heq⟩ | ⟨⟨v, c'⟩, hv, ⟨f, -, heq⟩ | ⟨⟨a', d'⟩, ha, o' | ⟨w, d''⟩, hw, heq⟩⟩)
    · cases heq
    · cases heq
    · cases heq
    · cases heq
      obtain ⟨hopen, rfl, rfl⟩ := takes_token_iff.mp hv
      obtain ⟨hclose, rfl, rfl⟩ := takes_token_iff.mp hw
      exact ⟨d', hopen, ha, hclose, rfl⟩
  · rintro ⟨d', hopen, ha, hclose, rfl⟩
    refine .inr ⟨(t, c.advance), takes_token_iff.mpr ⟨hopen, rfl, rfl⟩, .inr ?_⟩
    exact ⟨(a, d'), ha, _, takes_token_iff.mpr ⟨hclose, rfl, rfl⟩, rfl⟩

end Combinators

end Rules
end TokenGrammar
