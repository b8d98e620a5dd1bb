import Mathlib.Data.List.Basic
import Mathlib.Order.Nat
import TokenGrammar.Grammar.Nested
import TokenGrammar.Proofs.Rows

/-! Scanning up to a terminator. Any number of tokens are read, each of them only if the terminator
does not stand in front of it; so the scan ends at the first place where the terminator stands, or
else at the end of the sequence. Each attempt reads a token, so nothing is asked of the terminator
but that it comes to an end at each place. -/
namespace TokenGrammar

/-- All tokens up to the first place where the terminator stands. -/
def Grammar.tokensUntil {T N α : Type} {O : N → Type} (stop : Grammar T O α) :
    Grammar T O (List T) :=
  .star (.map Prod.snd (.seq (.notFollowedBy stop) .anyToken))

namespace Parser
open Run
variable {T α : Type}

/-- A token in front of which the parser does not succeed. -/
def tokenUnless (stop : Parser T α) : Parser T T := map Prod.snd (seq (notFollowedBy stop) anyToken)

theorem parse_tokensUntil {N : Type} {O : N → Type} [BEq T] (R : Rules T O)
    (stop : Grammar T O α) (n : Nat) : R.parse n stop.tokensUntil =
      repeated (.atLeast 0) (tokenUnless (R.parse n stop)) n := rfl

section Attempt
variable {stop : Parser T α} {c : Cursor T} {e : Failure T}

theorem tokenUnless_of_ok {r : α × Cursor T} (h : (stop c).outcome? = some (.ok r)) :
    tokenUnless stop c =
      ⟨some (.error (.unexpectedMatch c.position)), (stop c).events, (stop c).reads⟩ := by
  rw [tokenUnless, map, mapped, seq, notFollowedBy_of_ok h, bind_of_error rfl, bind_of_error rfl]

theorem tokenUnless_of_error {t : T} (h : (stop c).outcome? = some (.error e))
    (hpeek : c.peek? = some t) : tokenUnless stop c = ⟨some (.ok (t, c.advance)),
      (stop c).events ++ [.called .mapper], (stop c).reads ++ [c.position]⟩ := by
  have hpair : seq (notFollowedBy stop) anyToken c =
      ⟨some (.ok (((), t), c.advance)), (stop c).events, (stop c).reads ++ [c.position]⟩ := by
    rw [seq, notFollowedBy_of_error h, bind_of_ok rfl, anyToken_of_peek? hpeek]
    simp [bind_of_ok]
  rw [tokenUnless, map, hpair, mapped, bind_of_ok rfl, emit_bind]
  simp

theorem tokenUnless_of_end (h : (stop c).outcome? = some (.error e)) (hpeek : c.peek? = none) :
    tokenUnless stop c = ⟨some (.error (.unexpectedEnd c.position)), (stop c).events,
      (stop c).reads ++ [c.position]⟩ := by
  have hpair : seq (notFollowedBy stop) anyToken c =
      ⟨some (.error (.unexpectedEnd c.position)), (stop c).events,
        (stop c).reads ++ [c.position]⟩ := by
    rw [seq, notFollowedBy_of_error h, bind_of_ok rfl, anyToken_of_end hpeek]
    simp [bind_of_error]
  rw [tokenUnless, map, hpair, mapped, bind_of_error rfl]

end Attempt

theorem Steady.tokenUnless {P : Nat → Parser T α} (hP : Steady P) :
    Steady (fun n => tokenUnless (P n)) :=
  fun m n h c => .mapped _ (((hP m n h c).attempt.bind fun _ => .refl _).bind fun _ => .refl _)

theorem yields_tokenUnless {P : Nat → Parser T α} {stop : Parser T α} {c : Cursor T}
    (h : Run.Yields (fun n => P n c) (stop c)) :
    Run.Yields (fun n => tokenUnless (P n) c) (tokenUnless stop c) := by
  obtain ⟨hended, n, hn⟩ := h
  refine ⟨?_, n, ?_⟩
  · obtain ⟨o, ho⟩ := Option.isSome_iff_exists.mp hended
    cases o with
    | ok r => rw [tokenUnless_of_ok ho]; rfl
    | error e =>
      cases hpeek : c.peek? with
      | none => rw [tokenUnless_of_end ho hpeek]; rfl
      | some t => rw [tokenUnless_of_error ho hpeek]; rfl
  · show tokenUnless (P n) c = tokenUnless stop c
    simp only [tokenUnless, map, seq, notFollowedBy, hn]

theorem streak_of_tokens {Does : Cursor T → Run T (T × Cursor T) → Prop}
    {attempt : Cursor T → Run T (T × Cursor T)} {ts : List T} {p q : Nat} (hpq : p ≤ q)
    (hq : q ≤ ts.length) (hdoes : ∀ i, p ≤ i → i < q → Does ⟨ts, i⟩ (attempt ⟨ts, i⟩))
    (hreads : ∀ i t, p ≤ i → i < q → ts[i]? = some t →
      (attempt ⟨ts, i⟩).outcome? = some (.ok (t, ⟨ts, i + 1⟩))) :
    Streak Does ⟨ts, p⟩ ((List.range' p (q - p)).map fun i => attempt ⟨ts, i⟩)
      (ts.extract p q) ⟨ts, q⟩ := by
  obtain ⟨n, rfl⟩ := Nat.exists_eq_add_of_le hpq
  rw [List.extract_eq_take_drop, Nat.add_sub_cancel_left]
  induction n generalizing p with
  | zero => exact .nil _
  | succ n ih =>
    have hlt : p < ts.length := by omega
    have hsucc : p + (n + 1) = p + 1 + n := by omega
    have hlater := ih (p := p + 1) (by omega) (by omega)
      (fun i hi hin => hdoes i (by omega) (by omega))
      (fun i t hi hin => hreads i t (by omega) (by omega))
    have hfirst := hreads p ts[p] (Nat.le_refl p) (by omega) (List.getElem?_eq_getElem hlt)
    rw [List.range'_succ, List.map_cons, List.drop_eq_getElem_cons hlt, List.take_succ_cons, hsucc]
    exact .cons (hdoes p (Nat.le_refl p) (by omega)) hfirst hlater

def HaltsAt (stop : Parser T α) (ts : List T) (i : Nat) : Prop :=
  i = ts.length ∨ ∃ r, Answers stop ⟨ts, i⟩ (.ok r)

section Attempts
variable {stop : Parser T α} {ts : List T} {i : Nat}

theorem tokenUnless_of_not_haltsAt {t : T} (hended : (stop ⟨ts, i⟩).outcome?.isSome = true)
    (h : ¬HaltsAt stop ts i) (ht : ts[i]? = some t) : tokenUnless stop ⟨ts, i⟩ =
      ⟨some (.ok (t, ⟨ts, i + 1⟩)), (stop ⟨ts, i⟩).events ++ [.called .mapper],
        (stop ⟨ts, i⟩).reads ++ [i]⟩ := by
  obtain ⟨o, ho⟩ := Option.isSome_iff_exists.mp hended
  cases o with
  | ok r => exact absurd (.inr ⟨r, ho⟩) h
  | error e => exact tokenUnless_of_error ho ht

/-- Where both reasons to halt meet, the terminator is the one that is named. -/
theorem tokenUnless_of_haltsAt (hended : (stop ⟨ts, i⟩).outcome?.isSome = true)
    (h : HaltsAt stop ts i) : ∃ e, (tokenUnless stop ⟨ts, i⟩).outcome? = some (.error e) ∧
      (tokenUnless stop ⟨ts, i⟩).events = (stop ⟨ts, i⟩).events ∧
      ((∃ r, Answers stop ⟨ts, i⟩ (.ok r)) ∧ e = .unexpectedMatch i ∨
        (¬∃ r, Answers stop ⟨ts, i⟩ (.ok r)) ∧ i = ts.length ∧ e = .unexpectedEnd ts.length) := by
  obtain ⟨o, ho⟩ := Option.isSome_iff_exists.mp hended
  cases o with
  | ok r =>
    rw [tokenUnless_of_ok ho]
    exact ⟨_, rfl, rfl, .inl ⟨⟨r, ho⟩, rfl⟩⟩
  | error e =>
    have hnone : ¬∃ r, Answers stop ⟨ts, i⟩ (.ok r) := by
      rintro ⟨r, hr⟩
      cases Answers.unique ho hr
    have hi : i = ts.length := h.resolve_right hnone
    have hpeek : (⟨ts, i⟩ : Cursor T).peek? = none :=
      List.getElem?_eq_none (Nat.le_of_eq hi.symm)
    rw [tokenUnless_of_end ho hpeek]
    exact ⟨_, rfl, rfl, .inr ⟨hnone, hi, by rw [hi]⟩⟩

end Attempts

theorem scan_of_haltsAt {P : Nat → Parser T α} (hP : Steady P) {stop : Parser T α} {ts : List T}
    {p q : Nat} (hpq : p ≤ q) (hq : q ≤ ts.length) (hstop : ∀ i, p ≤ i → i ≤ ts.length →
      Run.Yields (fun n => P n ⟨ts, i⟩) (stop ⟨ts, i⟩))
    (hway : ∀ i, p ≤ i → i < q → ¬HaltsAt stop ts i) (hhalts : HaltsAt stop ts q) :
    ∃ x e, Run.Yields (fun n => repeated (.atLeast 0) (tokenUnless (P n)) n ⟨ts, p⟩) x ∧
      x.outcome? = some (.ok (ts.extract p q, ⟨ts, q⟩)) ∧
      x.events = (List.range' p (q - p)).flatMap
          (fun i => (stop ⟨ts, i⟩).events ++ [.called .mapper]) ++
        (stop ⟨ts, q⟩).events ++ [.stopped e q (q - p)] ∧
      ((∃ r, Answers stop ⟨ts, q⟩ (.ok r)) ∧ e = .unexpectedMatch q ∨
        (¬∃ r, Answers stop ⟨ts, q⟩ (.ok r)) ∧ q = ts.length ∧ e = .unexpectedEnd ts.length) := by
  have hdoes (i : Nat) (hi : p ≤ i) (hin : i ≤ ts.length) :
      Run.Yields (fun n => tokenUnless (P n) ⟨ts, i⟩) (tokenUnless stop ⟨ts, i⟩) :=
    yields_tokenUnless (hstop i hi hin)
  have hreads (i : Nat) (t : T) (hi : p ≤ i) (hiq : i < q) (ht : ts[i]? = some t) :=
    tokenUnless_of_not_haltsAt (hstop i hi (by omega)).1 (hway i hi hiq) ht
  have hstreak : Streak (fun d y => Run.Yields (fun n => tokenUnless (P n) d) y) ⟨ts, p⟩
      ((List.range' p (q - p)).map fun i => tokenUnless stop ⟨ts, i⟩) (ts.extract p q) ⟨ts, q⟩ :=
    streak_of_tokens hpq hq (fun i hi hiq => hdoes i hi (by omega))
      fun i t hi hiq ht => congrArg Run.outcome? (hreads i t hi hiq ht)
  obtain ⟨e, he, hevents, hcause⟩ := tokenUnless_of_haltsAt (hstop q hpq hq).1 hhalts
  have hrepeats := Repeats.failed (b := .atLeast 0) hstreak (fun m hm => by cases hm)
    (hdoes q hpq hq) he
  have hcount : (ts.extract p q).length = q - p := by
    rw [List.extract_eq_take_drop, List.length_take, List.length_drop]
    omega
  have hattempts : ((List.range' p (q - p)).map fun i => tokenUnless stop ⟨ts, i⟩).flatMap
      Run.events = (List.range' p (q - p)).flatMap
        fun i => (stop ⟨ts, i⟩).events ++ [.called .mapper] := by
    rw [List.flatMap_map]
    refine List.flatMap_congr fun i hi => ?_
    obtain ⟨hi, hiq⟩ := List.mem_range'_1.mp hi
    rw [hreads i ts[i] hi (by omega) (List.getElem?_eq_getElem (by omega))]
  refine ⟨_, e, (repeated_yields_iff hP.tokenUnless).mpr hrepeats, ?_, ?_, hcause⟩
  · simp [Bounds.atLeast]
  · simp only [hattempts, hevents, hcount]

/-- From a place in the sequence or behind it, a scan ends at the first place from there on where
the terminator stands, or else at the end. It succeeds with the tokens up to that place, and it has
asked for the terminator once in front of each of them and once where it ended. Its last event names
this place and the number of tokens, with the match there as the cause or, without one, the end. -/
theorem scan_ends_first {P : Nat → Parser T α} (hP : Steady P) (stop : Parser T α) (ts : List T)
    (p : Nat) (hp : p ≤ ts.length) (hstop : ∀ i, p ≤ i → i ≤ ts.length →
      Run.Yields (fun n => P n ⟨ts, i⟩) (stop ⟨ts, i⟩)) :
    ∃ q x e, IsLeast {i | p ≤ i ∧ HaltsAt stop ts i} q ∧
      Run.Yields (fun n => repeated (.atLeast 0) (tokenUnless (P n)) n ⟨ts, p⟩) x ∧
      x.outcome? = some (.ok (ts.extract p q, ⟨ts, q⟩)) ∧
      x.events = (List.range' p (q - p)).flatMap
          (fun i => (stop ⟨ts, i⟩).events ++ [.called .mapper]) ++
        (stop ⟨ts, q⟩).events ++ [.stopped e q (q - p)] ∧
      ((∃ r, Answers stop ⟨ts, q⟩ (.ok r)) ∧ e = .unexpectedMatch q ∨
        (¬∃ r, Answers stop ⟨ts, q⟩ (.ok r)) ∧ q = ts.length ∧ e = .unexpectedEnd ts.length) := by
  classical
  have hsome : {i | p ≤ i ∧ HaltsAt stop ts i}.Nonempty := ⟨ts.length, hp, .inl rfl⟩
  obtain ⟨q, hq⟩ : ∃ q, IsLeast {i | p ≤ i ∧ HaltsAt stop ts i} q :=
    ⟨_, hsome.isLeast_natFind⟩
  have hlength : q ≤ ts.length := hq.2 ⟨hp, .inl rfl⟩
  have hway (i : Nat) (hi : p ≤ i) (hiq : i < q) : ¬HaltsAt stop ts i := fun h =>
    absurd (hq.2 ⟨hi, h⟩) (Nat.not_le.mpr hiq)
  obtain ⟨x, e, hscan⟩ := scan_of_haltsAt hP hq.1.1 hlength hstop hway hq.1.2
  exact ⟨q, x, e, hq, hscan⟩

/-- Where the terminator is a group in brackets of any depth, a bracket that nothing closes does not
end the scan, and the group behind it does. -/
theorem scan_ends_first_at_group :
    let stop : Parser String Nat := Rules.nested.parse 3 (.rule ())
    let ts := ["a", "(", "(", "x", ")"]
    Steady (fun n => Rules.nested.parse n (.rule ())) ∧
    (∀ i, 0 ≤ i → i ≤ ts.length →
      Run.Yields (fun n => Rules.nested.parse n (.rule ()) ⟨ts, i⟩) (stop ⟨ts, i⟩)) ∧
    ∃ x, Run.Yields (fun n => Rules.nested.parse n (.tokensUntil (.rule ())) ⟨ts, 0⟩) x ∧
      x.outcome? = some (.ok (["a", "("], ⟨ts, 2⟩)) ∧
      .stopped (.unexpectedMatch 2) 2 2 ∈ x.events := by
  intro stop ts
  have hP : Steady (fun n => Rules.nested.parse n (.rule ())) := Rules.nested.steady_parse _
  have hstop (i : Nat) (_ : 0 ≤ i) (hi : i ≤ ts.length) :
      Run.Yields (fun n => Rules.nested.parse n (.rule ()) ⟨ts, i⟩) (stop ⟨ts, i⟩) := by
    refine ⟨?_, 3, rfl⟩
    have hcases : i = 0 ∨ i = 1 ∨ i = 2 ∨ i = 3 ∨ i = 4 ∨ i = 5 := by
      simp only [ts, List.length_cons, List.length_nil] at hi
      omega
    rcases hcases with rfl | rfl | rfl | rfl | rfl | rfl <;> rfl
  obtain ⟨q, x, e, hq, hx, hok, hevents, hcause⟩ :=
    scan_ends_first hP stop ts 0 (Nat.zero_le _) hstop
  have hgroup : ∃ r, Answers stop ⟨ts, 2⟩ (.ok r) := ⟨_, rfl⟩
  have hfirst : IsLeast {i | 0 ≤ i ∧ HaltsAt stop ts i} 2 := by
    refine ⟨⟨Nat.zero_le 2, .inr hgroup⟩, fun i hi => ?_⟩
    by_contra hlt
    have hcases : i = 0 ∨ i = 1 := by omega
    rcases hcases with rfl | rfl <;> rcases hi.2 with hlength | ⟨r, hr⟩
    · cases hlength
    · cases hr
    · cases hlength
    · cases hr
  obtain rfl : q = 2 := Nat.le_antisymm (hq.2 hfirst.1) (hfirst.2 hq.1)
  rcases hcause with ⟨-, rfl⟩ | ⟨hnone, -⟩
  · simp only [parse_tokensUntil]
    refine ⟨hP, hstop, x, hx, hok, ?_⟩
    rw [hevents]
    simp
  · exact absurd hgroup hnone

end Parser
end TokenGrammar
