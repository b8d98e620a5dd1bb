import TokenGrammar.Proofs.Rows

/-! Two ways of keeping to an upper bound. A repetition may match as often as possible and be
rejected if that was too often, or it may stop once it is full. Both are compared on what the
repetition without bounds gathers: the second answers a beginning of that, the first all of it or
nothing. -/
namespace TokenGrammar
namespace Parser
variable {T α : Type} {p : Parser T α} {c rest : Cursor T} {as : List α} {e : Failure T}

section Row
variable (hrow : Row (Answers p) c as rest)
include hrow

theorem comes_afterwards (he : Answers p rest (.error e)) (least m : Nat) :
    Comes (repeated ⟨least, some m, .afterwards⟩ p) c
      (if as.length < least then .error e
        else if m < as.length then .error .rejected
        else .ok (as, rest)) := by
  refine comes_repeated_const_iff.mpr ⟨⟨as, rest, some e⟩, ⟨hrow, by simp [Bounds.cap?], he⟩, ?_⟩
  simp [Harvest.judge_eq]

theorem comes_capped_of_lt (he : Answers p rest (.error e)) (least : Nat) {m : Nat}
    (hlt : as.length < m) :
    Comes (repeated ⟨least, some m, .capped⟩ p) c
      (if as.length < least then .error e else .ok (as, rest)) := by
  have hroom : ∀ k ∈ (⟨least, some m, .capped⟩ : Bounds).cap?, as.length < k := by
    simpa [Bounds.cap?] using hlt
  refine comes_repeated_const_iff.mpr ⟨⟨as, rest, some e⟩, ⟨hrow, hroom, he⟩, ?_⟩
  have hfew : ¬m < as.length := by omega
  simp [Harvest.judge_eq, hfew]

theorem comes_capped_of_le (least : Nat) {m : Nat} (hle : m ≤ as.length) :
    ∃ d, Row (Answers p) c (as.take m) d ∧ Row (Answers p) d (as.drop m) rest ∧
      Comes (repeated ⟨least, some m, .capped⟩ p) c
        (if m < least then .error .rejected else .ok (as.take m, d)) := by
  obtain ⟨d, hfirst, hsecond⟩ := hrow.cut m
  have hlength : (as.take m).length = m := List.length_take_of_le hle
  have hfull : Stops ⟨least, some m, .capped⟩ (Answers p) (as.take m).length d none := by
    rw [hlength]
    rfl
  refine ⟨d, hfirst, hsecond,
    comes_repeated_const_iff.mpr ⟨⟨as.take m, d, none⟩, ⟨hfirst, hfull⟩, ?_⟩⟩
  simp [Harvest.judge_eq, hlength]

theorem comes_upTo (he : Answers p rest (.error e)) (m : Nat) :
    ∃ d, Row (Answers p) c (as.take m) d ∧ Row (Answers p) d (as.drop m) rest ∧
      Comes (repeated (.upTo m) p) c (.ok (as.take m, d)) := by
  rcases Nat.lt_or_ge as.length m with hlt | hle
  · have hcomes := comes_capped_of_lt hrow he 0 hlt
    rw [if_neg (Nat.not_lt_zero _)] at hcomes
    rw [List.take_of_length_le (Nat.le_of_lt hlt), List.drop_of_length_le (Nat.le_of_lt hlt)]
    exact ⟨rest, hrow, .nil rest, hcomes⟩
  · obtain ⟨d, hfirst, hsecond, hcomes⟩ := comes_capped_of_le hrow 0 hle
    rw [if_neg (Nat.not_lt_zero _)] at hcomes
    exact ⟨d, hfirst, hsecond, hcomes⟩

theorem comes_atMost (he : Answers p rest (.error e)) (m : Nat) :
    Comes (repeated (.atMost m) p) c
      (if m < as.length then .error .rejected else .ok (as, rest)) := by
  have hcomes := comes_afterwards hrow he 0 m
  rw [if_neg (Nat.not_lt_zero _)] at hcomes
  exact hcomes

theorem comes_upTo_then_not (he : Answers p rest (.error e)) (m : Nat) :
    ∃ d : Cursor T, Comes (fun n => seq (repeated (.upTo m) p n) (notFollowedBy p)) c
      (if m < as.length then .error (.unexpectedMatch d.position)
        else .ok ((as, ()), rest)) := by
  obtain ⟨d, -, hsecond, hcomes⟩ := comes_upTo hrow he m
  have hnot (o : Outcome T (Unit × Cursor T)) : Comes (fun _ => notFollowedBy p) d o ↔
      (∃ r, Answers p d (.ok r) ∧ o = .error (.unexpectedMatch d.position)) ∨
        ∃ e, Answers p d (.error e) ∧ o = .ok ((), d) := by
    rw [comes_notFollowedBy_iff (.const p), comes_const]
  have hseq {o : Outcome T (Unit × Cursor T)} (ho : Comes (fun _ => notFollowedBy p) d o) :=
    (comes_seq_iff ((Steady.const p).repeated (.upTo m)) (.const (notFollowedBy p))).mpr
      (.inr ⟨_, hcomes, o, ho, rfl⟩)
  refine ⟨d, ?_⟩
  by_cases hlt : m < as.length
  · rw [if_pos hlt]
    rw [List.drop_eq_getElem_cons hlt] at hsecond
    cases hsecond with
    | cons ha later => exact hseq ((hnot _).mpr (.inl ⟨_, ha, rfl⟩))
  · rw [if_neg hlt]
    have hle : as.length ≤ m := Nat.le_of_not_lt hlt
    rw [List.drop_of_length_le hle] at hsecond
    have hd : rest = d := hsecond.eq_of_nil
    have hall := hseq ((hnot _).mpr (.inr ⟨e, hd ▸ he, rfl⟩))
    rw [List.take_of_length_le hle, ← hd] at hall
    exact hall

/-- What is accepted with the bound looked at afterwards is what the bound would have left. -/
theorem comes_capped_of_afterwards (he : Answers p rest (.error e)) {least m : Nat}
    {r : List α × Cursor T} (h : Comes (repeated ⟨least, some m, .afterwards⟩ p) c (.ok r)) :
    Comes (repeated ⟨least, some m, .capped⟩ p) c (.ok r) := by
  have hr := h.unique (comes_afterwards hrow he least m)
  by_cases hfew : as.length < least
  · rw [if_pos hfew] at hr
    cases hr
  · by_cases hmany : m < as.length
    · rw [if_neg hfew, if_pos hmany] at hr
      cases hr
    · rw [if_neg hfew, if_neg hmany] at hr
      cases hr
      rcases Nat.lt_or_ge as.length m with hlt | hle
      · simpa [hfew] using comes_capped_of_lt hrow he least hlt
      · obtain ⟨d, -, hsecond, hcomes⟩ := comes_capped_of_le hrow least hle
        have hm : m = as.length := by omega
        rw [hm, List.drop_length] at hsecond
        rw [if_neg (by omega), hm, List.take_length, ← hsecond.eq_of_nil, ← hm] at hcomes
        exact hcomes

theorem comes_error_of_few (he : Answers p rest (.error e)) {least m : Nat}
    (hfew : as.length < least) (hle : least ≤ m) :
    Comes (repeated ⟨least, some m, .afterwards⟩ p) c (.error e) ∧
      Comes (repeated ⟨least, some m, .capped⟩ p) c (.error e) := by
  have hpost := comes_afterwards hrow he least m
  have hcapped := comes_capped_of_lt hrow he least (Nat.lt_of_lt_of_le hfew hle)
  rw [if_pos hfew] at hpost hcapped
  exact ⟨hpost, hcapped⟩

/-- With bounds that no number satisfies, a repetition that is stopped has been stopped too early,
and one that is not has too few matches or too many. -/
theorem comes_error_of_conflict (he : Answers p rest (.error e)) {least m : Nat}
    (hlt : m < least) :
    Comes (repeated ⟨least, some m, .afterwards⟩ p) c
        (.error (if as.length < least then e else .rejected)) ∧
      Comes (repeated ⟨least, some m, .capped⟩ p) c
        (.error (if as.length < m then e else .rejected)) := by
  have hpost := comes_afterwards hrow he least m
  constructor
  · by_cases hfew : as.length < least
    · simpa [hfew] using hpost
    · have hmany : m < as.length := by omega
      simpa [hfew, hmany] using hpost
  · by_cases hroom : as.length < m
    · have hfew : as.length < least := by omega
      simpa [hroom, hfew] using comes_capped_of_lt hrow he least hroom
    · obtain ⟨d, -, -, hcomes⟩ := comes_capped_of_le hrow least (Nat.le_of_not_lt hroom)
      simpa [hroom, hlt] using hcomes

end Row

/-- Where the repetition without bounds comes to some items, an upper bound that stops the
repetition leaves a beginning of them, and one that is looked at afterwards leaves all of them or
rejects them: the latter accepts just what the former accepts with no match behind it. With a lower
bound as well, whatever the latter accepts is accepted by the former, and both fail alike, except
when the matches are too few for the lower bound and yet enough to be stopped. -/
theorem limits_agree (p : Parser T α) (c rest : Cursor T) (as : List α)
    (hany : Comes (repeated (.atLeast 0) p) c (.ok (as, rest))) :
    (∀ m, ∃ d, Row (Answers p) c (as.take m) d ∧ Row (Answers p) d (as.drop m) rest ∧
      Comes (repeated (.upTo m) p) c (.ok (as.take m, d))) ∧
    (∀ m, as.length ≤ m → Comes (repeated (.atMost m) p) c (.ok (as, rest))) ∧
    (∀ m, m < as.length → Comes (repeated (.atMost m) p) c (.error .rejected)) ∧
    (∀ m bs d, Comes (repeated (.atMost m) p) c (.ok (bs, d)) ↔
      Comes (fun n => seq (repeated (.upTo m) p n) (notFollowedBy p)) c (.ok ((bs, ()), d))) ∧
    ∃ e, Answers p rest (.error e) ∧ ∀ least m,
      let post := repeated ⟨least, some m, .afterwards⟩ p
      let capped := repeated ⟨least, some m, .capped⟩ p
      (∀ r, Comes post c (.ok r) → Comes capped c (.ok r)) ∧
      (as.length < least → least ≤ m → Comes post c (.error e) ∧ Comes capped c (.error e)) ∧
      (m < least →
        (m ≤ as.length ∧ as.length < least →
          Comes post c (.error e) ∧ Comes capped c (.error .rejected)) ∧
        (¬(m ≤ as.length ∧ as.length < least) →
          ∃ f, Comes post c (.error f) ∧ Comes capped c (.error f))) := by
  obtain ⟨_, _, e, hrow, he, heq⟩ := (comes_star_iff (.const p)).mp hany
  cases heq
  rw [comes_const] at hrow he
  have hmost := comes_atMost hrow he
  refine ⟨comes_upTo hrow he, fun m hm => ?_, fun m hm => ?_, fun m bs d => ?_, e, he,
    fun least m => ⟨fun r => comes_capped_of_afterwards hrow he,
      comes_error_of_few hrow he, fun hlt => ?_⟩⟩
  · simpa [Nat.not_lt.mpr hm] using hmost m
  · simpa [hm] using hmost m
  · obtain ⟨d', hthen⟩ := comes_upTo_then_not hrow he m
    have hleft := hmost m
    by_cases hm : m < as.length
    · rw [if_pos hm] at hleft hthen
      exact ⟨fun h => (by cases hleft.unique h), fun h => (by cases hthen.unique h)⟩
    · rw [if_neg hm] at hleft hthen
      constructor
      · intro h
        cases hleft.unique h
        exact hthen
      · intro h
        cases hthen.unique h
        exact hleft
  · obtain ⟨hpost, hcapped⟩ := comes_error_of_conflict hrow he hlt
    constructor
    · rintro ⟨hfull, hfew⟩
      rw [if_pos hfew] at hpost
      rw [if_neg (Nat.not_lt.mpr hfull)] at hcapped
      exact ⟨hpost, hcapped⟩
    · intro hnot
      have hsame : as.length < least ↔ as.length < m := by omega
      simp only [hsame] at hpost
      exact ⟨_, hpost, hcapped⟩

/-- Two matches, of which a bound of one leaves the first. Three are asked for in vain: looked at
afterwards, the bound leaves the blame to what stands behind the matches. -/
theorem limits_agree_on_letters :
    let p : Parser String String := token "a"
    let c : Cursor String := ⟨["a", "a", "b"], 0⟩
    Comes (repeated (.atLeast 0) p) c (.ok (["a", "a"], ⟨["a", "a", "b"], 2⟩)) ∧
      (∃ d, Row (Answers p) c ["a"] d ∧ Row (Answers p) d ["a"] ⟨["a", "a", "b"], 2⟩ ∧
        Comes (repeated (.upTo 1) p) c (.ok (["a"], d))) ∧
      1 < 2 ∧ Comes (repeated (.atMost 1) p) c (.error .rejected) ∧
      1 < 3 ∧ (1 ≤ 2 ∧ 2 < 3) ∧
      Comes (repeated ⟨3, some 1, .afterwards⟩ p) c (.error (.unexpectedToken "a" "b" 2)) ∧
      Comes (repeated ⟨3, some 1, .capped⟩ p) c (.error .rejected) := by
  intro p c
  have hany : Comes (repeated (.atLeast 0) p) c (.ok (["a", "a"], ⟨["a", "a", "b"], 2⟩)) :=
    ((Steady.const p).repeated (.atLeast 0)).comes 3 rfl
  obtain ⟨hupTo, -, hmany, -, e, he, hboth⟩ := limits_agree p c _ _ hany
  have hcause : e = .unexpectedToken "a" "b" 2 := by
    have hrun : Answers p ⟨["a", "a", "b"], 2⟩ (.error (.unexpectedToken "a" "b" 2)) := rfl
    cases he.unique hrun
    rfl
  obtain ⟨hpost, hcapped⟩ := ((hboth 3 1).2.2 (by decide)).1 ⟨by decide, by decide⟩
  exact ⟨hany, hupTo 1, by decide, hmany 1 (by decide), by decide, ⟨by decide, by decide⟩,
    hcause ▸ hpost, hcapped⟩

end Parser
end TokenGrammar
