import TokenGrammar.Proofs.Rows

/-! A repetition cut in two. What a repetition does behind its first matches is a repetition again,
with the bounds that are left over; so it comes to the same as two repetitions in a row. This holds
wherever the first of them stops: the second one then makes the same attempt again, and fails as the
whole does. -/
namespace TokenGrammar

/-- The bounds of a repetition that has so many more matches in front. -/
def Bounds.shift (n : Nat) (b : Bounds) : Bounds := ⟨n + b.least, b.most.map (n + ·), b.limit⟩

theorem Bounds.cap?_shift (n : Nat) (b : Bounds) : (b.shift n).cap? = b.cap?.map (n + ·) := by
  obtain ⟨least, most, limit⟩ := b
  cases limit <;> rfl

namespace Parser
variable {T α : Type} {A : Cursor T → Outcome T (α × Cursor T) → Prop} {p : Parser T α}
  {b : Bounds} {c d rest : Cursor T} {as bs : List α} {m n : Nat}

theorem Harvest.judge_prepend (b : Bounds) (as : List α) (h : Harvest T α) :
    (h.prepend as).judge (b.shift as.length) =
      (h.judge b).map fun r => (as ++ r.1, r.2) := by
  obtain ⟨items, rest, cause?⟩ := h
  have hmost : (b.shift as.length).most.any (· < as.length + items.length) =
      b.most.any (· < items.length) := by
    cases hb : b.most <;> simp [Bounds.shift, hb]
  have hfew : as.length + items.length < (b.shift as.length).least ↔ items.length < b.least := by
    simp [Bounds.shift]
  simp only [Harvest.prepend, Harvest.judge_eq, List.length_append, hmost, hfew]
  split
  · rfl
  · split <;> rfl

theorem stops_shift_iff {cause? : Option (Failure T)} :
    Stops (b.shift n) A (n + m) d cause? ↔ Stops b A m d cause? := by
  cases cause? with
  | none => simp [Stops, Bounds.cap?_shift]
  | some e => simp [Stops, Bounds.cap?_shift]

/-- What a repetition gathers is some matches in front and what it gathers behind them, unless it
stops before. -/
theorem gathers_shift_iff {h : Harvest T α} (hle : n ≤ h.items.length) :
    Gathers (b.shift n) A c h ↔ ∃ d later, Row A c (h.items.take n) d ∧ Gathers b A d later ∧
      h = later.prepend (h.items.take n) := by
  obtain ⟨items, rest, cause?⟩ := h
  have hlength : (items.take n).length = n := List.length_take_of_le hle
  constructor
  · rintro ⟨hrow, hstops⟩
    obtain ⟨d, hfirst, hsecond⟩ := hrow.cut n
    have hitems : items.take n ++ items.drop n = items := List.take_append_drop n items
    have hcount : items.length = n + (items.drop n).length := by
      rw [List.length_drop]
      exact (Nat.add_sub_of_le hle).symm
    refine ⟨d, ⟨items.drop n, rest, cause?⟩, hfirst, ⟨hsecond, ?_⟩, by simp [Harvest.prepend]⟩
    simp only [hcount] at hstops
    exact stops_shift_iff.mp hstops
  · rintro ⟨d, ⟨later, rest', cause'⟩, hrow, ⟨hlater, hstops⟩, heq⟩
    rw [heq]
    refine ⟨hrow.append hlater, ?_⟩
    have hcount : (items.take n ++ later).length = n + later.length := by
      rw [List.length_append, hlength]
    show Stops _ A (items.take n ++ later).length rest' cause'
    rw [hcount]
    exact stops_shift_iff.mpr hstops

theorem comes_shift_iff {o : Outcome T (List α × Cursor T)} :
    Comes (repeated (b.shift n) p) c o ↔
      (∃ as d e, Row (Answers p) c as d ∧ as.length < n ∧ Answers p d (.error e) ∧
        o = .error e) ∨
      ∃ as d, Row (Answers p) c as d ∧ as.length = n ∧ ∃ o', Comes (repeated b p) d o' ∧
        o = o'.map fun r => (as ++ r.1, r.2) := by
  rw [comes_repeated_const_iff]
  constructor
  · rintro ⟨h, hh, rfl⟩
    rcases Nat.lt_or_ge h.items.length n with hlt | hle
    · have hroom : ∀ m ∈ (b.shift n).cap?, h.items.length < m := by
        intro m hm
        rw [Bounds.cap?_shift] at hm
        obtain ⟨k, -, rfl⟩ := Option.map_eq_some_iff.mp hm
        omega
      obtain ⟨e, hcause, he⟩ := hh.exists_cause hroom
      refine .inl ⟨h.items, h.rest, e, hh.row, hlt, he, ?_⟩
      have hfew : h.items.length < (b.shift n).least := Nat.lt_add_right b.least hlt
      simp [Harvest.judge, hfew, hcause]
    · obtain ⟨d, later, hrow, hlater, heq⟩ := (gathers_shift_iff hle).mp hh
      have hlength : (h.items.take n).length = n := List.length_take_of_le hle
      refine .inr ⟨_, d, hrow, hlength, _, comes_repeated_const_iff.mpr ⟨later, hlater, rfl⟩, ?_⟩
      rw [← Harvest.judge_prepend, hlength, ← heq]
  · rintro (⟨as, d, e, hrow, hlt, he, rfl⟩ | ⟨as, d, hrow, rfl, o', ho', rfl⟩)
    · refine ⟨⟨as, d, some e⟩, ⟨hrow, fun m hm => ?_, he⟩, ?_⟩
      · rw [Bounds.cap?_shift] at hm
        obtain ⟨k, -, rfl⟩ := Option.map_eq_some_iff.mp hm
        exact Nat.lt_add_right k hlt
      · have hfew : as.length < (b.shift n).least := Nat.lt_add_right b.least hlt
        simp [Harvest.judge, hfew]
    · obtain ⟨later, hlater, rfl⟩ := comes_repeated_const_iff.mp ho'
      refine ⟨later.prepend as, ?_, (Harvest.judge_prepend b as later).symm⟩
      have hle : as.length ≤ (later.prepend as).items.length := by simp [Harvest.prepend]
      refine (gathers_shift_iff hle).mpr ⟨d, later, ?_, hlater, ?_⟩ <;>
        simp [Harvest.prepend, hrow]

theorem comes_exactly_iff {o : Outcome T (List α × Cursor T)} :
    Comes (repeated (.exactly n) p) c o ↔
      (∃ as d e, Row (Answers p) c as d ∧ as.length < n ∧ Answers p d (.error e) ∧
        o = .error e) ∨
      ∃ as d, Row (Answers p) c as d ∧ as.length = n ∧ o = .ok (as, d) := by
  have hnone (d : Cursor T) (o' : Outcome T (List α × Cursor T)) :
      Comes (repeated (.exactly 0) p) d o' ↔ o' = .ok ([], d) := by
    have hend : Comes (repeated (.exactly 0) p) d (.ok ([], d)) :=
      ((Steady.const p).repeated (.exactly 0)).comes 0 rfl
    constructor
    · intro h
      exact h.unique hend
    · rintro rfl
      exact hend
  have hshift : Bounds.exactly n = (Bounds.exactly 0).shift n := rfl
  rw [hshift, comes_shift_iff]
  simp [hnone, Except.map]

/-- A repetition is one of its first matches and one of what is left. -/
theorem agree_shift (b : Bounds) (p : Parser T α) (n : Nat) :
    Agree (repeated (b.shift n) p)
      (fun k => chain (repeated (.exactly n) p k) (fun _ => repeated b p k) (· ++ ·)) := by
  intro c o
  rw [comes_shift_iff, comes_chain_iff ((Steady.const p).repeated (.exactly n))
    fun _ => (Steady.const p).repeated b]
  have hexactly (o : Outcome T (List α × Cursor T)) :
      Comes (fun k => repeated (.exactly n) p k) c o ↔ _ := comes_exactly_iff
  constructor
  · rintro (⟨as, d, e, hrow, hlt, he, rfl⟩ | ⟨as, d, hrow, hlength, o', ho', rfl⟩)
    · exact .inl ⟨e, (hexactly _).mpr (.inl ⟨as, d, e, hrow, hlt, he, rfl⟩), rfl⟩
    · exact .inr ⟨(as, d), (hexactly _).mpr (.inr ⟨as, d, hrow, hlength, rfl⟩), o', ho', rfl⟩
  · rintro (⟨e, he, rfl⟩ | ⟨⟨as, d⟩, hfirst, o', ho', rfl⟩)
    · rcases (hexactly _).mp he with ⟨as, d, e', hrow, hlt, he', heq⟩ | ⟨_, _, _, _, heq⟩
      · cases heq
        exact .inl ⟨as, d, e, hrow, hlt, he', rfl⟩
      · cases heq
    · rcases (hexactly _).mp hfirst with ⟨_, _, _, _, _, _, heq⟩ | ⟨_, _, hrow, hlength, heq⟩
      · cases heq
      · cases heq
        exact .inr ⟨as, d, hrow, hlength, o', ho', rfl⟩

theorem agree_shift_one (b : Bounds) (p : Parser T α) :
    Agree (repeated (b.shift 1) p) (fun k => chain p (fun _ => repeated b p k) List.cons) := by
  intro c o
  rw [comes_shift_iff, comes_chain_iff (.const p) fun _ => (Steady.const p).repeated b, comes_const]
  constructor
  · rintro (⟨as, d, e, hrow, hlt, he, rfl⟩ | ⟨as, d, hrow, hlength, o', ho', rfl⟩)
    · obtain rfl := List.length_eq_zero_iff.mp (Nat.lt_one_iff.mp hlt)
      exact .inl ⟨e, hrow.eq_of_nil ▸ he, rfl⟩
    · obtain ⟨a, rfl⟩ := List.length_eq_one_iff.mp hlength
      exact .inr ⟨(a, d), row_singleton_iff.mp hrow, o', ho', rfl⟩
  · rintro (⟨e, he, rfl⟩ | ⟨⟨a, d⟩, ha, o', ho', rfl⟩)
    · exact .inl ⟨[], c, e, .nil c, Nat.one_pos, he, rfl⟩
    · exact .inr ⟨[a], d, row_singleton_iff.mpr ha, rfl, o', ho', rfl⟩

def RowUpTo (A : Cursor T → Outcome T (α × Cursor T) → Prop) (n : Nat) (c : Cursor T)
    (as : List α) (rest : Cursor T) : Prop :=
  Row A c as rest ∧ (as.length = n ∨ as.length < n ∧ ∃ e, A rest (.error e))

/-- Behind a row that was stopped by a failure the same attempt fails again. -/
theorem rowUpTo_add_iff : RowUpTo (Answers p) (m + n) c as rest ↔
    ∃ bs cs d, as = bs ++ cs ∧ RowUpTo (Answers p) m c bs d ∧ RowUpTo (Answers p) n d cs rest := by
  constructor
  · rintro ⟨hrow, hend⟩
    rcases Nat.lt_or_ge as.length m with hlt | hle
    · have hfailed : ∃ e, Answers p rest (.error e) := by
        rcases hend with hfull | ⟨-, he⟩
        · omega
        · exact he
      refine ⟨as, [], rest, (List.append_nil as).symm, ⟨hrow, .inr ⟨hlt, hfailed⟩⟩, .nil rest, ?_⟩
      rcases Nat.eq_zero_or_pos n with hn | hn
      · exact .inl hn.symm
      · exact .inr ⟨hn, hfailed⟩
    · obtain ⟨d, hfirst, hsecond⟩ := hrow.cut m
      refine ⟨as.take m, as.drop m, d, (List.take_append_drop m as).symm,
        ⟨hfirst, .inl (List.length_take_of_le hle)⟩, hsecond, ?_⟩
      rw [List.length_drop]
      rcases hend with hfull | ⟨hlt, he⟩
      · exact .inl (by omega)
      · exact .inr ⟨by omega, he⟩
  · rintro ⟨bs, cs, d, rfl, ⟨hfirst, hend⟩, hsecond, hend'⟩
    refine ⟨hfirst.append hsecond, ?_⟩
    rw [List.length_append]
    rcases hend with hfull | ⟨hlt, e, he⟩
    · rcases hend' with hfull' | ⟨hlt', he'⟩
      · exact .inl (by omega)
      · exact .inr ⟨by omega, he'⟩
    · obtain rfl := hsecond.eq_nil_of_error he
      rw [hsecond.eq_of_nil]
      exact .inr ⟨Nat.lt_add_right n hlt, e, he⟩

theorem comes_upTo_iff {o : Outcome T (List α × Cursor T)} :
    Comes (repeated (.upTo n) p) c o ↔
      ∃ as d, RowUpTo (Answers p) n c as d ∧ o = .ok (as, d) := by
  rw [comes_repeated_const_iff]
  constructor
  · rintro ⟨⟨as, d, cause?⟩, ⟨hrow, hstops⟩, rfl⟩
    cases cause? with
    | none =>
      have hfull : n = as.length := Option.some.inj hstops
      exact ⟨as, d, ⟨hrow, .inl hfull.symm⟩,
        by simp [Harvest.judge_eq, Bounds.upTo, Bounds.atMost, Bounds.withLimit, hfull]⟩
    | some e =>
      have hlt : as.length < n := hstops.1 n rfl
      have hallowed : ¬n < as.length := by omega
      exact ⟨as, d, ⟨hrow, .inr ⟨hlt, e, hstops.2⟩⟩,
        by simp [Harvest.judge_eq, Bounds.upTo, Bounds.atMost, Bounds.withLimit, hallowed]⟩
  · rintro ⟨as, d, ⟨hrow, rfl | ⟨hlt, e, he⟩⟩, rfl⟩
    · refine ⟨⟨as, d, none⟩, ⟨hrow, rfl⟩, ?_⟩
      simp [Harvest.judge_eq, Bounds.upTo, Bounds.atMost, Bounds.withLimit]
    · have hallowed : ¬n < as.length := by omega
      refine ⟨⟨as, d, some e⟩, ⟨hrow, ?_, he⟩, ?_⟩
      · rintro m ⟨⟩
        exact hlt
      · simp [Harvest.judge_eq, Bounds.upTo, Bounds.atMost, Bounds.withLimit, hallowed]

theorem agree_upTo_add (p : Parser T α) (m n : Nat) :
    Agree (repeated (.upTo (m + n)) p)
      (fun k => chain (repeated (.upTo m) p k) (fun _ => repeated (.upTo n) p k) (· ++ ·)) := by
  intro c o
  rw [comes_upTo_iff, comes_chain_iff ((Steady.const p).repeated (.upTo m))
    fun _ => (Steady.const p).repeated (.upTo n)]
  have hfirst (o : Outcome T (List α × Cursor T)) :
      Comes (fun k => repeated (.upTo m) p k) c o ↔ _ := comes_upTo_iff
  have hsecond (d : Cursor T) (o : Outcome T (List α × Cursor T)) :
      Comes (fun k => repeated (.upTo n) p k) d o ↔ _ := comes_upTo_iff
  constructor
  · rintro ⟨as, rest, has, rfl⟩
    obtain ⟨bs, cs, d, rfl, hbs, hcs⟩ := rowUpTo_add_iff.mp has
    exact .inr ⟨(bs, d), (hfirst _).mpr ⟨bs, d, hbs, rfl⟩, _,
      (hsecond d _).mpr ⟨cs, rest, hcs, rfl⟩, rfl⟩
  · rintro (⟨e, he, -⟩ | ⟨r, hr, o', ho', rfl⟩)
    · obtain ⟨_, _, _, heq⟩ := (hfirst _).mp he
      cases heq
    · obtain ⟨bs, d, hbs, heq⟩ := (hfirst _).mp hr
      cases heq
      obtain ⟨cs, rest, hcs, rfl⟩ := (hsecond d _).mp ho'
      exact ⟨bs ++ cs, rest, rowUpTo_add_iff.mpr ⟨bs, cs, d, rfl, hbs, hcs⟩, rfl⟩

/-- Repetitions can be cut in two: one of a sum of matches is one of each of them in a row; one with
a lower bound is that many matches and then any more; one with an upper bound stops as two in a row
do; and one that needs a match is a match and then any more. All of them come to the same values,
the same cursor and the same failure from every cursor, and one to its end if the other does. -/
theorem repetitions_split (p : Parser T α) (m n : Nat) :
    Agree (repeated (.exactly (m + n)) p)
      (fun k => chain (repeated (.exactly m) p k) (fun _ => repeated (.exactly n) p k) (· ++ ·)) ∧
    Agree (repeated (.atLeast m) p)
      (fun k => chain (repeated (.exactly m) p k) (fun _ => repeated (.atLeast 0) p k) (· ++ ·)) ∧
    Agree (repeated (.upTo (m + n)) p)
      (fun k => chain (repeated (.upTo m) p k) (fun _ => repeated (.upTo n) p k) (· ++ ·)) ∧
    Agree (repeated (.atLeast 1) p)
      (fun k => chain p (fun _ => repeated (.atLeast 0) p k) List.cons) :=
  ⟨agree_shift (.exactly n) p m, agree_shift (.atLeast 0) p m, agree_upTo_add p m n,
    agree_shift_one (.atLeast 0) p⟩

end Parser
end TokenGrammar
