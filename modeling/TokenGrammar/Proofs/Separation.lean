import TokenGrammar.Proofs.Rows

/-! Separated lists. A list is an item and then a row of pairs, each of them a separator with an item
right behind it. The row ends where no separator follows; behind a separator the item is owed, and
if it is missing the list fails as the item does. Told in other words the list is an item, any
number of pairs, and then no separator: that has the same successes, but blames the separator. -/
namespace TokenGrammar
namespace Parser
variable {T α β : Type} {A : Cursor T → Outcome T (α × Cursor T) → Prop}
  {S : Cursor T → Outcome T (β × Cursor T) → Prop} {c d : Cursor T}

def Behind (S : Cursor T → Outcome T (β × Cursor T) → Prop)
    (A : Cursor T → Outcome T (α × Cursor T) → Prop) (c : Cursor T)
    (o : Outcome T (α × Cursor T)) : Prop :=
  ∃ s, S c (.ok s) ∧ A s.2 o

/-- One or more items with separators between them, from a cursor on to behind the last item. -/
def Items (S : Cursor T → Outcome T (β × Cursor T) → Prop)
    (A : Cursor T → Outcome T (α × Cursor T) → Prop) (c : Cursor T) (vs : List α)
    (d : Cursor T) : Prop :=
  ∃ v c₁ as, vs = v :: as ∧ A c (.ok (v, c₁)) ∧ Row (Behind S A) c₁ as d

def SepStops (S : Cursor T → Outcome T (β × Cursor T) → Prop)
    (A : Cursor T → Outcome T (α × Cursor T) → Prop) (as : List α) (d : Cursor T)
    (o : Outcome T (List α × Cursor T)) : Prop :=
  (∃ e, S d (.error e) ∧ o = .ok (as, d)) ∨ ∃ e, Behind S A d (.error e) ∧ o = .error e

section Loop
variable {P : Nat → Parser T α} {Q : Nat → Parser T β} {item : Parser T α} {sep : Parser T β}
  {o : Outcome T (List α × Cursor T)}

theorem row_of_separated {n : Nat} (h : (separated item sep n c).outcome? = some o) :
    ∃ as d, Row (Behind (Answers sep) (Answers item)) c as d ∧
      SepStops (Answers sep) (Answers item) as d o := by
  induction n generalizing c o with
  | zero => cases h
  | succ n ih =>
    rw [separated, ← Run.settles_const_iff, Run.settles_attempt_bind_iff (.const _)] at h
    obtain ⟨e | s, hs, hlater⟩ := h
    · rw [Run.settles_const_iff] at hs hlater
      exact ⟨[], c, .nil c, .inl ⟨e, hs, (Option.some.inj hlater).symm⟩⟩
    · rw [Run.settles_const_iff] at hs
      rcases (Run.settles_bind_iff (.const _)).mp hlater with ⟨e, he, rfl⟩ | ⟨r, hr, hlater⟩
      · exact ⟨[], c, .nil c, .inr ⟨e, ⟨s, hs, Run.settles_const_iff.mp he⟩, rfl⟩⟩
      · rw [Run.settles_map_iff (.const _) fun _ => rfl] at hlater
        obtain ⟨o', ho', rfl⟩ := hlater
        rw [Run.settles_const_iff] at hr ho'
        obtain ⟨as, d, hrow, hstops⟩ := ih ho'
        refine ⟨r.1 :: as, d, .cons ⟨s, hs, hr⟩ hrow, ?_⟩
        rcases hstops with ⟨e, he, rfl⟩ | ⟨e, he, rfl⟩
        · exact .inl ⟨e, he, rfl⟩
        · exact .inr ⟨e, he, rfl⟩

theorem separated_settles_of_row {as : List α} (h : Row (Behind (Comes Q) (Comes P)) c as d)
    (hstops : SepStops (Comes Q) (Comes P) as d o) :
    ∃ j, Run.Settles (fun n => separated (P n) (Q n) j c) o := by
  induction h generalizing o with
  | nil c =>
    rcases hstops with ⟨e, he, rfl⟩ | ⟨e, ⟨s, hs, he⟩, rfl⟩
    · exact ⟨1, separated_settles_end he⟩
    · exact ⟨1, separated_settles_owed hs he⟩
  | @cons c c' d a as ha _ ih =>
    obtain ⟨s, hs, hr⟩ := ha
    rcases hstops with ⟨e, he, rfl⟩ | ⟨e, he, rfl⟩
    · obtain ⟨j, hj⟩ := ih (.inl ⟨e, he, rfl⟩)
      exact ⟨j + 1, separated_settles_more hs hr hj⟩
    · obtain ⟨j, hj⟩ := ih (.inr ⟨e, he, rfl⟩)
      exact ⟨j + 1, separated_settles_more hs hr hj⟩

/-- Behind the first item the loop goes along a row of pairs, and comes to what the end of the row
says. -/
theorem comes_separated_iff (hP : Steady P) (hQ : Steady Q) :
    Comes (fun n => separated (P n) (Q n) n) c o ↔
      ∃ as d, Row (Behind (Comes Q) (Comes P)) c as d ∧ SepStops (Comes Q) (Comes P) as d o := by
  constructor
  · rintro ⟨m, hm⟩
    have hbehind (d : Cursor T) (o : Outcome T (α × Cursor T))
        (h : Behind (Answers (Q m)) (Answers (P m)) d o) : Behind (Comes Q) (Comes P) d o := by
      obtain ⟨s, hs, ho⟩ := h
      exact ⟨s, hQ.comes m hs, hP.comes m ho⟩
    obtain ⟨as, d, hrow, hstops⟩ := row_of_separated (hm m (Nat.le_refl m))
    refine ⟨as, d, hrow.mono fun d r => hbehind d _, ?_⟩
    rcases hstops with ⟨e, he, rfl⟩ | ⟨e, he, rfl⟩
    · exact .inl ⟨e, hQ.comes m he, rfl⟩
    · exact .inr ⟨e, hbehind d _ he, rfl⟩
  · rintro ⟨as, d, hrow, hstops⟩
    obtain ⟨j, hj⟩ := separated_settles_of_row hrow hstops
    exact separated_settles_diagonal hj

theorem comes_sepBy1_iff (hP : Steady P) (hQ : Steady Q) :
    Comes (fun n => sepBy1 (P n) (Q n) n) c o ↔ (∃ e, Comes P c (.error e) ∧ o = .error e) ∨
      ∃ r as d, Comes P c (.ok r) ∧ Row (Behind (Comes Q) (Comes P)) r.2 as d ∧
        SepStops (Comes Q) (Comes P) (r.1 :: as) d o := by
  have hloop (r : α × Cursor T) (o' : Outcome T (List α × Cursor T)) :
      Run.Settles (fun n => separated (P n) (Q n) n r.2) o' ↔ _ :=
    comes_separated_iff (c := r.2) (o := o') hP hQ
  refine (Run.settles_bind_iff (hP.run c)).trans (or_congr_right (exists_congr fun r => ?_))
  rw [Run.settles_map_iff (hP.separated hQ) fun _ => rfl]
  simp only [hloop]
  constructor
  · rintro ⟨hr, o', ⟨as, d, hrow, hstops⟩, rfl⟩
    refine ⟨as, d, hr, hrow, ?_⟩
    rcases hstops with ⟨e, he, rfl⟩ | ⟨e, he, rfl⟩
    · exact .inl ⟨e, he, rfl⟩
    · exact .inr ⟨e, he, rfl⟩
  · rintro ⟨as, d, hr, hrow, ⟨e, he, rfl⟩ | ⟨e, he, rfl⟩⟩
    · exact ⟨hr, .ok (as, d), ⟨as, d, hrow, .inl ⟨e, he, rfl⟩⟩, rfl⟩
    · exact ⟨hr, .error e, ⟨as, d, hrow, .inr ⟨e, he, rfl⟩⟩, rfl⟩

theorem comes_sepBy1_ok_iff (hP : Steady P) (hQ : Steady Q) {vs : List α} :
    Comes (fun n => sepBy1 (P n) (Q n) n) c (.ok (vs, d)) ↔
      Items (Comes Q) (Comes P) c vs d ∧ ∃ e, Comes Q d (.error e) := by
  rw [comes_sepBy1_iff hP hQ]
  constructor
  · rintro (⟨e, -, heq⟩ | ⟨r, as, d', hr, hrow, ⟨e, he, heq⟩ | ⟨e, -, heq⟩⟩)
    · cases heq
    · cases heq
      exact ⟨⟨r.1, r.2, as, rfl, hr, hrow⟩, e, he⟩
    · cases heq
  · rintro ⟨⟨v, c₁, as, rfl, hv, hrow⟩, e, he⟩
    exact .inr ⟨(v, c₁), as, d, hv, hrow, .inl ⟨e, he, rfl⟩⟩

theorem comes_sepBy1_error_iff (hP : Steady P) (hQ : Steady Q) {e : Failure T} :
    Comes (fun n => sepBy1 (P n) (Q n) n) c (.error e) ↔ Comes P c (.error e) ∨
      ∃ vs d, Items (Comes Q) (Comes P) c vs d ∧ Behind (Comes Q) (Comes P) d (.error e) := by
  rw [comes_sepBy1_iff hP hQ]
  constructor
  · rintro (⟨e', he, heq⟩ | ⟨r, as, d, hr, hrow, ⟨e', he, heq⟩ | ⟨e', he, heq⟩⟩)
    · cases heq
      exact .inl he
    · cases heq
    · cases heq
      exact .inr ⟨r.1 :: as, d, ⟨r.1, r.2, as, rfl, hr, hrow⟩, he⟩
  · rintro (he | ⟨vs, d, ⟨v, c₁, as, rfl, hv, hrow⟩, he⟩)
    · exact .inl ⟨e, he, rfl⟩
    · exact .inr ⟨(v, c₁), as, d, hv, hrow, .inr ⟨e, he, rfl⟩⟩

end Loop

section Paraphrase
variable {item : Parser T α} {sep : Parser T β}

/-- An item, any number of pairs of a separator and an item, and then no separator. -/
def unseparated (item : Parser T α) (sep : Parser T β) (budget : Nat) : Parser T (List α × Unit) :=
  seq (chain item
      (fun _ => repeated (.atLeast 0) (map Prod.snd (seq sep item)) budget) List.cons)
    (notFollowedBy sep)

theorem answers_pair_iff {o : Outcome T (α × Cursor T)} :
    Answers (map Prod.snd (seq sep item)) c o ↔
      (∃ e, Answers sep c (.error e) ∧ o = .error e) ∨
        Behind (Answers sep) (Answers item) c o := by
  have hseq (o : Outcome T ((β × α) × Cursor T)) :
      Comes (fun _ => seq sep item) c o ↔ _ := comes_seq_iff (.const sep) (.const item)
  rw [← comes_const, comes_map_iff (.const (seq sep item))]
  simp only [hseq, comes_const]
  constructor
  · rintro ⟨o', ⟨e, he, rfl⟩ | ⟨s, hs, o'', ho'', rfl⟩, rfl⟩
    · exact .inl ⟨e, he, rfl⟩
    · exact .inr ⟨s, hs, by cases o'' <;> exact ho''⟩
  · rintro (⟨e, he, rfl⟩ | ⟨s, hs, ho⟩)
    · exact ⟨.error e, .inl ⟨e, he, rfl⟩, rfl⟩
    · exact ⟨_, .inr ⟨s, hs, o, ho, rfl⟩, by cases o <;> rfl⟩

theorem row_pairs_iff {as : List α} :
    Row (Answers (map Prod.snd (seq sep item))) c as d ↔
      Row (Behind (Answers sep) (Answers item)) c as d := by
  constructor
  · refine fun h => h.mono fun c r hr => ?_
    rcases answers_pair_iff.mp hr with ⟨e, -, heq⟩ | hbehind
    · cases heq
    · exact hbehind
  · exact fun h => h.mono fun c r hr => answers_pair_iff.mpr (.inr hr)

theorem comes_pairs_iff {o : Outcome T (List α × Cursor T)} :
    Comes (repeated (.atLeast 0) (map Prod.snd (seq sep item))) c o ↔
      ∃ as d e, Row (Behind (Answers sep) (Answers item)) c as d ∧
        Answers (map Prod.snd (seq sep item)) d (.error e) ∧ o = .ok (as, d) := by
  refine (comes_star_iff (.const (map Prod.snd (seq sep item)))).trans ?_
  simp only [comes_const, row_pairs_iff]

theorem comes_leading_iff {o : Outcome T (List α × Cursor T)} :
    Comes (fun n => chain item
        (fun _ => repeated (.atLeast 0) (map Prod.snd (seq sep item)) n) List.cons) c o ↔
      (∃ e, Answers item c (.error e) ∧ o = .error e) ∨
      ∃ vs d, Items (Answers sep) (Answers item) c vs d ∧
        (∃ e, Answers (map Prod.snd (seq sep item)) d (.error e)) ∧ o = .ok (vs, d) := by
  have hpairs (c : Cursor T) (o : Outcome T (List α × Cursor T)) :
      Comes (fun n => repeated (.atLeast 0) (map Prod.snd (seq sep item)) n) c o ↔ _ :=
    comes_pairs_iff
  rw [comes_chain_iff (.const item) fun _ => (Steady.const _).repeated _, comes_const]
  simp only [hpairs]
  refine or_congr_right ⟨?_, ?_⟩
  · rintro ⟨⟨v, c₁⟩, hv, _, ⟨as, d, e, hrow, he, rfl⟩, rfl⟩
    exact ⟨v :: as, d, ⟨v, c₁, as, rfl, hv, hrow⟩, ⟨e, he⟩, rfl⟩
  · rintro ⟨_, d, ⟨v, c₁, as, rfl, hv, hrow⟩, ⟨e, he⟩, rfl⟩
    exact ⟨(v, c₁), hv, .ok (as, d), ⟨as, d, e, hrow, he, rfl⟩, rfl⟩

theorem comes_unseparated_iff {o : Outcome T ((List α × Unit) × Cursor T)} :
    Comes (unseparated item sep) c o ↔
      (∃ e, Answers item c (.error e) ∧ o = .error e) ∨
      ∃ vs d, Items (Answers sep) (Answers item) c vs d ∧
        ((∃ e, Answers sep d (.error e) ∧ o = .ok ((vs, ()), d)) ∨
          ∃ e, Behind (Answers sep) (Answers item) d (.error e) ∧
            o = .error (.unexpectedMatch d.position)) := by
  have hleading (o : Outcome T (List α × Cursor T)) : Comes (fun n => chain item
      (fun _ => repeated (.atLeast 0) (map Prod.snd (seq sep item)) n) List.cons) c o ↔ _ :=
    comes_leading_iff
  have hnot (d : Cursor T) (o : Outcome T (Unit × Cursor T)) :
      Comes (fun _ => notFollowedBy sep) d o ↔
        (∃ s, Answers sep d (.ok s) ∧ o = .error (.unexpectedMatch d.position)) ∨
          ∃ e, Answers sep d (.error e) ∧ o = .ok ((), d) := by
    rw [comes_notFollowedBy_iff (.const sep), comes_const]
  refine (comes_seq_iff (Steady.chain (.const item) (fun _ => (Steady.const _).repeated _) _)
    (.const (notFollowedBy sep))).trans ?_
  simp only [hleading, hnot]
  constructor
  · rintro (⟨e, ⟨e', he, heq⟩ | ⟨_, _, _, _, heq⟩, rfl⟩ |
      ⟨r, ⟨_, _, heq⟩ | ⟨vs, d, hitems, ⟨e, he⟩, heq⟩, o', ho', rfl⟩)
    · cases heq
      exact .inl ⟨e, he, rfl⟩
    · cases heq
    · cases heq
    · cases heq
      refine .inr ⟨vs, d, hitems, ?_⟩
      rcases ho' with ⟨s, hs, rfl⟩ | ⟨e', he', rfl⟩
      · rcases answers_pair_iff.mp he with ⟨_, hfail, -⟩ | hbehind
        · cases hs.unique hfail
        · exact .inr ⟨e, hbehind, rfl⟩
      · exact .inl ⟨e', he', rfl⟩
  · rintro (⟨e, he, rfl⟩ | ⟨vs, d, hitems, ⟨e, he, rfl⟩ | ⟨e, hbehind, rfl⟩⟩)
    · exact .inl ⟨e, .inl ⟨e, he, rfl⟩, rfl⟩
    · have hpair : Answers (map Prod.snd (seq sep item)) d (.error e) :=
        answers_pair_iff.mpr (.inl ⟨e, he, rfl⟩)
      exact .inr ⟨(vs, d), .inr ⟨vs, d, hitems, ⟨e, hpair⟩, rfl⟩, _, .inr ⟨e, he, rfl⟩, rfl⟩
    · obtain ⟨s, hs, -⟩ := id hbehind
      have hpair := answers_pair_iff.mpr (.inr hbehind)
      exact .inr ⟨(vs, d), .inr ⟨vs, d, hitems, ⟨e, hpair⟩, rfl⟩, _, .inl ⟨s, hs, rfl⟩, rfl⟩

end Paraphrase

/-- A separated list succeeds with one or more items, each but the first right behind a separator,
and with the cursor behind the last of them, where no separator follows. It fails as its first item
does, or as an item does right behind a separator. As an item, any number of pairs and then no
separator it has the same successes; but where an item is missing behind a separator, that names
the place in front of the separator. -/
theorem sepBy1_follows_separators (item : Parser T α) (sep : Parser T β) (c : Cursor T) :
    (∀ vs d, Comes (sepBy1 item sep) c (.ok (vs, d)) ↔
      Items (Answers sep) (Answers item) c vs d ∧ ∃ e, Answers sep d (.error e)) ∧
    (∀ e, Comes (sepBy1 item sep) c (.error e) ↔ Answers item c (.error e) ∨
      ∃ vs d, Items (Answers sep) (Answers item) c vs d ∧
        Behind (Answers sep) (Answers item) d (.error e)) ∧
    (∀ vs d, Comes (sepBy1 item sep) c (.ok (vs, d)) ↔
      Comes (unseparated item sep) c (.ok ((vs, ()), d))) ∧
    (∀ e, Comes (unseparated item sep) c (.error e) ↔ Answers item c (.error e) ∨
      ∃ vs d, Items (Answers sep) (Answers item) c vs d ∧
        (∃ f, Behind (Answers sep) (Answers item) d (.error f)) ∧
        e = .unexpectedMatch d.position) := by
  have hok (vs : List α) (d : Cursor T) : Comes (sepBy1 item sep) c (.ok (vs, d)) ↔
      Items (Answers sep) (Answers item) c vs d ∧ ∃ e, Answers sep d (.error e) := by
    rw [← comes_const item, ← comes_const sep]
    exact comes_sepBy1_ok_iff (.const item) (.const sep)
  refine ⟨hok, fun e => ?_, fun vs d => ?_, fun e => ?_⟩
  · rw [← comes_const item, ← comes_const sep]
    exact comes_sepBy1_error_iff (.const item) (.const sep)
  · rw [hok, comes_unseparated_iff]
    constructor
    · rintro ⟨hitems, e, he⟩
      exact .inr ⟨vs, d, hitems, .inl ⟨e, he, rfl⟩⟩
    · rintro (⟨_, _, heq⟩ | ⟨vs', d', hitems, ⟨e, he, heq⟩ | ⟨_, _, heq⟩⟩)
      · cases heq
      · cases heq
        exact ⟨hitems, e, he⟩
      · cases heq
  · rw [comes_unseparated_iff]
    constructor
    · rintro (⟨e', he, heq⟩ | ⟨vs, d, hitems, ⟨_, _, heq⟩ | ⟨f, hf, heq⟩⟩)
      · cases heq
        exact .inl he
      · cases heq
      · cases heq
        exact .inr ⟨vs, d, hitems, ⟨f, hf⟩, rfl⟩
    · rintro (he | ⟨vs, d, hitems, ⟨f, hf⟩, rfl⟩)
      · exact .inl ⟨e, he, rfl⟩
      · exact .inr ⟨vs, d, hitems, .inr ⟨f, hf, rfl⟩⟩

/-- With nothing behind a separator, one misses the item and the other minds the separator. -/
example : (sepBy1 (token "a") (token ",") 2 ⟨["a", ","], 0⟩).outcome? =
      some (.error (.unexpectedEnd 2)) ∧
    (unseparated (token "a") (token ",") 2 ⟨["a", ","], 0⟩).outcome? =
      some (.error (.unexpectedMatch 1)) := ⟨rfl, rfl⟩

end Parser
end TokenGrammar
