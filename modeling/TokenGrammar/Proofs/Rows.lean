import TokenGrammar.Proofs.Answers
import TokenGrammar.Proofs.Streak

/-! Repetitions told by outcomes alone. Matches in a row lead from one cursor to another; a row can
be cut anywhere, and a row that begins where another ended can be put behind it. What a repetition
gathers is a row, and where it stops depends on the cursor and on the length of the row only. So a
repetition may be left in the middle and entered again. -/
namespace TokenGrammar
namespace Parser
variable {T α : Type} {A A' : Cursor T → Outcome T (α × Cursor T) → Prop} {c d rest : Cursor T}
  {as bs : List α}

/-- Matches in a row: the values from a cursor on, and where the last of the matches ended. -/
inductive Row (A : Cursor T → Outcome T (α × Cursor T) → Prop) :
    Cursor T → List α → Cursor T → Prop
  | nil (c : Cursor T) : Row A c [] c
  | cons {c d rest : Cursor T} {a : α} {as : List α} (ha : A c (.ok (a, d)))
      (later : Row A d as rest) : Row A c (a :: as) rest

theorem Row.append (h : Row A c as d) (h' : Row A d bs rest) : Row A c (as ++ bs) rest := by
  induction h with
  | nil c => exact h'
  | cons ha _ ih => exact .cons ha (ih h')

theorem Row.snoc {a : α} (h : Row A c as d) (ha : A d (.ok (a, rest))) :
    Row A c (as ++ [a]) rest := h.append (.cons ha (.nil rest))

theorem Row.cut (h : Row A c as rest) (n : Nat) :
    ∃ d, Row A c (as.take n) d ∧ Row A d (as.drop n) rest := by
  induction h generalizing n with
  | nil c => exact ⟨c, by simpa using .nil c, by simpa using .nil c⟩
  | @cons c d rest a as ha later ih =>
    cases n with
    | zero => exact ⟨c, .nil c, .cons ha later⟩
    | succ n =>
      obtain ⟨e, hfirst, hsecond⟩ := ih n
      exact ⟨e, .cons ha hfirst, hsecond⟩

theorem Row.mono (h : Row A c as rest) (hA : ∀ d r, A d (.ok r) → A' d (.ok r)) :
    Row A' c as rest := by
  induction h with
  | nil c => exact .nil c
  | cons ha _ ih => exact .cons (hA _ _ ha) ih

theorem Row.eq_of_nil (h : Row A c [] rest) : rest = c := by
  cases h
  rfl

theorem row_singleton_iff {a : α} : Row A c [a] rest ↔ A c (.ok (a, rest)) := by
  constructor
  · intro h
    cases h with
    | cons ha later => exact later.eq_of_nil ▸ ha
  · intro h
    exact .cons h (.nil rest)

theorem Row.eq_nil_of_error {p : Parser T α} {e : Failure T} (h : Row (Answers p) c as rest)
    (he : Answers p c (.error e)) : as = [] := by
  cases h with
  | nil c => rfl
  | cons ha later => cases ha.unique he

/-- Why a repetition asks for no further match behind so many of them: there is no room for it, or
the attempt failed. -/
def Stops (b : Bounds) (A : Cursor T → Outcome T (α × Cursor T) → Prop) (collected : Nat)
    (c : Cursor T) : Option (Failure T) → Prop
  | none => b.cap? = some collected
  | some e => (∀ m ∈ b.cap?, collected < m) ∧ A c (.error e)

structure Gathers (b : Bounds) (A : Cursor T → Outcome T (α × Cursor T) → Prop) (c : Cursor T)
    (h : Harvest T α) : Prop where
  row : Row A c h.items h.rest
  stops : Stops b A h.items.length h.rest h.cause?

theorem Gathers.exists_cause {b : Bounds} {h : Harvest T α} (hh : Gathers b A c h)
    (hroom : ∀ m ∈ b.cap?, h.items.length < m) :
    ∃ e, h.cause? = some e ∧ A h.rest (.error e) := by
  obtain ⟨items, rest, cause?⟩ := h
  have hstops := hh.stops
  cases cause? with
  | none => exact absurd (hroom _ hstops) (Nat.lt_irrefl _)
  | some e => exact ⟨e, rfl, hstops.2⟩

section Loops
variable {P : Nat → Parser T α} {p : Parser T α} {b : Bounds}

theorem comes_iff_yields (hP : Steady P) {o : Outcome T (α × Cursor T)} :
    Comes P c o ↔ ∃ x, Run.Yields (fun n => P n c) x ∧ x.outcome? = some o := by
  constructor
  · rintro ⟨m, hm⟩
    have ho : (P m c).outcome? = some o := hm m (Nat.le_refl m)
    exact ⟨P m c, ⟨by rw [ho]; rfl, m, rfl⟩, ho⟩
  · rintro ⟨_, ⟨-, m, rfl⟩, ho⟩
    exact hP.comes m ho

/-- The events forgotten, a streak is a row. -/
theorem Streak.row {xs : List (Run T (α × Cursor T))} (hP : Steady P)
    (hs : Streak (fun d y => Run.Yields (fun n => P n d) y) c xs as rest) :
    Row (Comes P) c as rest := by
  induction hs with
  | nil c => exact .nil c
  | cons hx ha _ ih => exact .cons ((comes_iff_yields hP).mpr ⟨_, hx, ha⟩) ih

theorem Row.streak (hP : Steady P) (h : Row (Comes P) c as rest) :
    ∃ xs, Streak (fun d y => Run.Yields (fun n => P n d) y) c xs as rest := by
  induction h with
  | nil c => exact ⟨[], .nil c⟩
  | cons ha _ ih =>
    obtain ⟨x, hx, hxa⟩ := (comes_iff_yields hP).mp ha
    obtain ⟨xs, hxs⟩ := ih
    exact ⟨x :: xs, .cons hx hxa hxs⟩

/-- A repetition comes to the judgement on what it gathers, and to nothing else. -/
theorem comes_repeated_iff (hP : Steady P) {o : Outcome T (List α × Cursor T)} :
    Comes (fun n => repeated b (P n) n) c o ↔
      ∃ h, Gathers b (Comes P) c h ∧ o = h.judge b := by
  rw [comes_iff_yields (hP.repeated b)]
  constructor
  · rintro ⟨x, hx, ho⟩
    cases (repeated_yields_iff hP).mp hx with
    | @full xs as rest hs hcap =>
      refine ⟨⟨as, rest, none⟩, ⟨hs.row hP, hcap⟩, ?_⟩
      have hmost : b.most = some as.length := Bounds.most_of_cap? hcap
      rw [Harvest.judge_eq, hmost]
      simpa [eq_comm] using ho
    | @failed xs as rest y e hs hroom hy he =>
      refine ⟨⟨as, rest, some e⟩, ⟨hs.row hP, hroom, (comes_iff_yields hP).mpr ⟨y, hy, he⟩⟩, ?_⟩
      rw [Harvest.judge_eq]
      exact (Option.some.inj ho).symm
  · rintro ⟨⟨as, rest, cause?⟩, ⟨hrow, hstops⟩, rfl⟩
    obtain ⟨xs, hs⟩ := hrow.streak hP
    cases cause? with
    | none =>
      refine ⟨_, (repeated_yields_iff hP).mpr (.full hs hstops), ?_⟩
      have hmost : b.most = some as.length := Bounds.most_of_cap? hstops
      rw [Harvest.judge_eq, hmost]
      simp
    | some e =>
      obtain ⟨hroom, he⟩ := hstops
      obtain ⟨y, hy, hye⟩ := (comes_iff_yields hP).mp he
      refine ⟨_, (repeated_yields_iff hP).mpr (.failed hs hroom hy hye), ?_⟩
      rw [Harvest.judge_eq]
      rfl

theorem comes_repeated_const_iff {o : Outcome T (List α × Cursor T)} :
    Comes (repeated b p) c o ↔ ∃ h, Gathers b (Answers p) c h ∧ o = h.judge b := by
  rw [← comes_const p]
  exact comes_repeated_iff (.const p)

theorem comes_star_iff (hP : Steady P) {o : Outcome T (List α × Cursor T)} :
    Comes (fun n => repeated (.atLeast 0) (P n) n) c o ↔
      ∃ as rest e, Row (Comes P) c as rest ∧ Comes P rest (.error e) ∧ o = .ok (as, rest) := by
  rw [comes_repeated_iff hP]
  constructor
  · rintro ⟨⟨as, rest, cause?⟩, ⟨hrow, hstops⟩, rfl⟩
    cases cause? with
    | none => cases hstops
    | some e => exact ⟨as, rest, e, hrow, hstops.2, by simp [Harvest.judge_eq, Bounds.atLeast]⟩
  · rintro ⟨as, rest, e, hrow, he, rfl⟩
    exact ⟨⟨as, rest, some e⟩, ⟨hrow, by simp [Bounds.cap?, Bounds.atLeast], he⟩,
      by simp [Harvest.judge_eq, Bounds.atLeast]⟩

end Loops

end Parser
end TokenGrammar
