import TokenGrammar.Grammar.Budget

/-! What a repetition does, said without the loop. The matches from a cursor on form a streak,
each of them beginning where the one before ended. A repetition goes along a streak until an
attempt fails or there is no room; how long the streak is and why it ended decide the answer. -/
namespace TokenGrammar

namespace Bounds
variable {b : Bounds} {k : Nat}

def cap? (b : Bounds) : Option Nat :=
  match b.limit with
  | .capped => b.most
  | .afterwards => none

theorem isFull_iff : b.isFull k = true ↔ ∃ m ∈ b.cap?, m ≤ k := by
  obtain ⟨least, most, limit⟩ := b
  cases limit <;> cases most <;> simp [isFull, cap?]

theorem isFull_eq_false_iff : b.isFull k = false ↔ ∀ m ∈ b.cap?, k < m := by
  rw [← Bool.not_eq_true, isFull_iff]
  simp

theorem cap?_of_isFull (hk : ∀ m ∈ b.cap?, k ≤ m) (h : b.isFull k = true) : b.cap? = some k := by
  obtain ⟨m, hm, hmk⟩ := isFull_iff.mp h
  exact Nat.le_antisymm hmk (hk m hm) ▸ hm

theorem allows_iff : b.allows k = true ↔ ¬b.most.any (· < k) = true := by
  obtain ⟨least, most, limit⟩ := b
  cases most <;> simp [allows]

theorem most_of_cap? {m : Nat} (h : b.cap? = some m) : b.most = some m := by
  obtain ⟨least, most, limit⟩ := b
  cases limit
  · cases h
  · exact h

end Bounds

namespace Parser
variable {T α : Type}

/-- One match after another: their runs, their values, and where the last of them ended. -/
inductive Streak (Does : Cursor T → Run T (α × Cursor T) → Prop) :
    Cursor T → List (Run T (α × Cursor T)) → List α → Cursor T → Prop
  | nil (c : Cursor T) : Streak Does c [] [] c
  | cons {c d rest : Cursor T} {x : Run T (α × Cursor T)} {a : α}
      {xs : List (Run T (α × Cursor T))} {as : List α} (hx : Does c x)
      (ha : x.outcome? = some (.ok (a, d))) (later : Streak Does d xs as rest) :
      Streak Does c (x :: xs) (a :: as) rest

/-- The runs of a repetition from a cursor. -/
inductive Repeats (b : Bounds) (Does : Cursor T → Run T (α × Cursor T) → Prop) (c : Cursor T) :
    Run T (List α × Cursor T) → Prop
  /-- There was no room behind the streak, and no attempt was made there. -/
  | full {xs : List (Run T (α × Cursor T))} {as : List α} {rest : Cursor T}
      (hs : Streak Does c xs as rest) (hcap : b.cap? = some as.length) :
      Repeats b Does c ⟨some (if as.length < b.least then .error .rejected else .ok (as, rest)),
        xs.flatMap Run.events, xs.flatMap Run.reads⟩
  /-- There was room behind the streak, and the attempt made there failed. -/
  | failed {xs : List (Run T (α × Cursor T))} {as : List α} {rest : Cursor T}
      {x : Run T (α × Cursor T)} {e : Failure T} (hs : Streak Does c xs as rest)
      (hroom : ∀ m ∈ b.cap?, as.length < m) (hx : Does rest x)
      (he : x.outcome? = some (.error e)) :
      Repeats b Does c ⟨some (if as.length < b.least then .error e
          else if b.most.any (· < as.length) then .error .rejected
          else .ok (as, rest)),
        xs.flatMap Run.events ++ x.events ++ [.stopped e rest.position as.length],
        xs.flatMap Run.reads ++ x.reads⟩

section Streaks
variable {Does Does' : Cursor T → Run T (α × Cursor T) → Prop} {b : Bounds} {c rest : Cursor T}
  {xs : List (Run T (α × Cursor T))} {as : List α}

theorem Streak.mono (h : ∀ d y, y.outcome?.isSome = true → Does d y → Does' d y)
    (hs : Streak Does c xs as rest) : Streak Does' c xs as rest := by
  induction hs with
  | nil c => exact .nil c
  | cons hx ha _ ih => exact .cons (h _ _ (by simp [ha]) hx) ha ih

theorem Repeats.mono (h : ∀ d y, y.outcome?.isSome = true → Does d y → Does' d y)
    {x : Run T (List α × Cursor T)} (hx : Repeats b Does c x) : Repeats b Does' c x := by
  cases hx with
  | full hs hcap => exact .full (hs.mono h) hcap
  | failed hs hroom hy he => exact .failed (hs.mono h) hroom (h _ _ (by simp [he]) hy) he

theorem Repeats.ne_error_of_unbounded {x : Run T (List α × Cursor T)}
    (hx : Repeats (.atLeast 0) Does c x) (e : Failure T) : x.outcome? ≠ some (.error e) := by
  cases hx with
  | full hs hcap => cases hcap
  | failed hs hroom hy he => simp [Bounds.atLeast]

theorem Repeats.ne_ok_of_most_lt_least {x : Run T (List α × Cursor T)} {m : Nat}
    (hm : b.most = some m) (hlt : m < b.least) (hx : Repeats b Does c x)
    (r : List α × Cursor T) : x.outcome? ≠ some (.ok r) := by
  cases hx with
  | @full xs as rest hs hcap =>
    have hlength : some as.length = some m := (Bounds.most_of_cap? hcap).symm.trans hm
    simp [Option.some.inj hlength, hlt]
  | @failed xs as rest y e hs hroom hy he =>
    by_cases hfew : as.length < b.least
    · simp [hfew]
    · have hmany : m < as.length := by omega
      simp [hfew, hm, hmany]

end Streaks

def Harvest.prepend (as : List α) (h : Harvest T α) : Harvest T α :=
  ⟨as ++ h.items, h.rest, h.cause?⟩

theorem Harvest.judge_eq (b : Bounds) (as : List α) (rest : Cursor T)
    (cause? : Option (Failure T)) :
    (⟨as, rest, cause?⟩ : Harvest T α).judge b =
      if as.length < b.least then .error (cause?.getD .rejected)
      else if b.most.any (· < as.length) then .error .rejected
      else .ok (as, rest) := by
  by_cases h : b.most.any (· < as.length) = true <;> simp [judge, Bounds.allows_iff, h]

section Loop
variable {b : Bounds} {p : Parser T α} {c rest : Cursor T} {xs : List (Run T (α × Cursor T))}
  {as : List α} {k n : Nat} {e : Failure T}

/-- Along a streak that there is room for the loop makes one attempt per match, and goes on
where the streak ended. -/
theorem Streak.attempts_eq (hs : Streak (fun d y => p d = y) c xs as rest)
    (hroom : ∀ m ∈ b.cap?, k + as.length ≤ m) :
    attempts b p (as.length + n) k c =
      let later := attempts b p n (k + as.length) rest
      ⟨later.outcome?.map (Except.map (Harvest.prepend as)),
        xs.flatMap Run.events ++ later.events, xs.flatMap Run.reads ++ later.reads⟩ := by
  induction hs generalizing k with
  | nil c =>
    have hid : Except.map (Harvest.prepend []) = (id : Outcome T (Harvest T α) → _) := by
      funext o
      cases o <;> rfl
    simp [hid]
  | @cons c d rest x a xs as hx ha later ih =>
    subst hx
    simp only [List.length_cons] at hroom
    have hk : b.isFull k = false := Bounds.isFull_eq_false_iff.mpr fun m hm => by
      have := hroom m hm
      omega
    have hlater := ih (k := k + 1) fun m hm => by
      have := hroom m hm
      omega
    have hcons (o : Outcome T (Harvest T α)) :
        (o.map (Harvest.prepend as)).map (Harvest.cons a) = o.map (Harvest.prepend (a :: as)) := by
      cases o <;> rfl
    rw [List.length_cons, Nat.succ_add, attempts_of_ok hk ha, hlater]
    simp [Nat.add_assoc, Nat.add_comm 1, Function.comp_def, hcons]

theorem repeated_of_attempts {h : Harvest T α} {es : List (Event T)} {places : List Nat}
    (hrun : attempts b p n 0 c = ⟨some (.ok h), es, places⟩) :
    repeated b p n c = ⟨some (h.judge b), es, places⟩ := by
  rw [repeated, hrun, Run.bind_of_ok rfl]
  simp [Run.ofOutcome]

theorem Streak.repeated_full (hs : Streak (fun d y => p d = y) c xs as rest)
    (hcap : b.cap? = some as.length) (hn : as.length ≤ n) :
    repeated b p n c = ⟨some (if as.length < b.least then .error .rejected else .ok (as, rest)),
      xs.flatMap Run.events, xs.flatMap Run.reads⟩ := by
  obtain ⟨n, rfl⟩ := Nat.exists_eq_add_of_le hn
  have hfull : b.isFull (0 + as.length) = true := Bounds.isFull_iff.mpr ⟨_, hcap, by omega⟩
  have hloop : attempts b p (as.length + n) 0 c = ⟨some (.ok ⟨as, rest, none⟩),
      xs.flatMap Run.events, xs.flatMap Run.reads⟩ := by
    rw [hs.attempts_eq (by simp [hcap]), attempts_of_full hfull]
    simp [Harvest.prepend, Except.map]
  rw [repeated_of_attempts hloop, Harvest.judge_eq, Bounds.most_of_cap? hcap]
  simp

theorem Streak.repeated_failed (hs : Streak (fun d y => p d = y) c xs as rest)
    (hroom : ∀ m ∈ b.cap?, as.length < m) {x : Run T (α × Cursor T)} (hx : p rest = x)
    (he : x.outcome? = some (.error e)) (hn : as.length < n) :
    repeated b p n c = ⟨some (if as.length < b.least then .error e
        else if b.most.any (· < as.length) then .error .rejected
        else .ok (as, rest)),
      xs.flatMap Run.events ++ x.events ++ [.stopped e rest.position as.length],
      xs.flatMap Run.reads ++ x.reads⟩ := by
  subst hx
  obtain ⟨n, rfl⟩ := Nat.exists_eq_add_of_lt hn
  have hk : b.isFull (0 + as.length) = false :=
    Bounds.isFull_eq_false_iff.mpr (by simpa using hroom)
  have hloop : attempts b p (as.length + (n + 1)) 0 c = ⟨some (.ok ⟨as, rest, some e⟩),
      xs.flatMap Run.events ++ (p rest).events ++ [.stopped e rest.position as.length],
      xs.flatMap Run.reads ++ (p rest).reads⟩ := by
    rw [hs.attempts_eq fun m hm => by simpa using Nat.le_of_lt (hroom m hm),
      attempts_of_error hk he]
    simp [Harvest.prepend, Except.map]
  rw [Nat.add_assoc, repeated_of_attempts hloop, Harvest.judge_eq]
  rfl

/-- A loop that came to its end went along a streak, and stopped there for want of room or at a
failure. -/
theorem streak_of_attempts (hk : ∀ m ∈ b.cap?, k ≤ m)
    (h : (attempts b p n k c).outcome?.isSome = true) :
    ∃ xs as rest, Streak (fun d y => p d = y) c xs as rest ∧
      (b.cap? = some (k + as.length) ∧ as.length ≤ n ∨
        (∀ m ∈ b.cap?, k + as.length < m) ∧ as.length < n ∧
          ∃ e, (p rest).outcome? = some (.error e)) := by
  -- The count never passes the cap: a loop that is full has only just become so.
  induction n generalizing k c with
  | zero =>
    by_cases hfull : b.isFull k = true
    · exact ⟨[], [], c, .nil c, .inl ⟨Bounds.cap?_of_isFull hk hfull, Nat.le_refl 0⟩⟩
    · simp [attempts, hfull, Run.exhausted] at h
  | succ n ih =>
    by_cases hfull : b.isFull k = true
    · exact ⟨[], [], c, .nil c, .inl ⟨Bounds.cap?_of_isFull hk hfull, Nat.zero_le _⟩⟩
    · rw [Bool.not_eq_true] at hfull
      have hroom := Bounds.isFull_eq_false_iff.mp hfull
      rcases ho : (p c).outcome? with _ | e | ⟨a, d⟩
      · rw [attempts_of_none hfull ho] at h
        simp at h
      · exact ⟨[], [], c, .nil c, .inr ⟨hroom, Nat.succ_pos n, e, ho⟩⟩
      · rw [attempts_of_ok hfull ho] at h
        obtain ⟨xs, as, rest, hs, hend⟩ := ih (c := d) hroom (by simpa using h)
        refine ⟨p c :: xs, a :: as, rest, .cons rfl ho hs, ?_⟩
        have hlength : k + (a :: as).length = k + 1 + as.length := by
          rw [List.length_cons]
          omega
        rw [hlength, List.length_cons]
        rcases hend with ⟨hcap, hn⟩ | ⟨hroom, hn, he⟩
        · exact .inl ⟨hcap, Nat.succ_le_succ hn⟩
        · exact .inr ⟨hroom, Nat.succ_lt_succ hn, he⟩

theorem repeats_of_repeated (h : (repeated b p n c).outcome?.isSome = true) :
    Repeats b (fun d y => p d = y) c (repeated b p n c) := by
  have hloop : (attempts b p n 0 c).outcome?.isSome = true := by
    rcases ho : (attempts b p n 0 c).outcome? with _ | o
    · simp [repeated, Run.bind_of_none ho] at h
    · rfl
  obtain ⟨xs, as, rest, hs, ⟨hcap, hn⟩ | ⟨hroom, hn, e, he⟩⟩ :=
    streak_of_attempts (fun m _ => Nat.zero_le m) hloop
  · rw [Nat.zero_add] at hcap
    rw [hs.repeated_full hcap hn]
    exact .full hs hcap
  · rw [Nat.zero_add] at hroom
    rw [hs.repeated_failed hroom rfl he hn]
    exact .failed hs hroom rfl he

end Loop

section Family
variable {P : Nat → Parser T α} {b : Bounds} {c rest : Cursor T}
  {xs : List (Run T (α × Cursor T))} {as : List α}

theorem Streak.within_budget (hP : ∀ m n, m ≤ n → KeptBy (P m) (P n))
    (hs : Streak (fun d y => Run.Yields (P · d) y) c xs as rest) :
    ∃ m, ∀ n, m ≤ n → Streak (fun d y => P n d = y) c xs as rest := by
  induction hs with
  | nil c => exact ⟨0, fun n _ => .nil c⟩
  | cons hx ha _ ih =>
    obtain ⟨hended, m, rfl⟩ := hx
    obtain ⟨m', hlater⟩ := ih
    refine ⟨max m m', fun n hn => .cons ?_ ha (hlater n (by omega))⟩
    exact hP m n (by omega) _ hended

/-- A repetition of a parser that may itself need some budget comes to its end in the run that
follows the streak of the parser's own runs, and in no other. -/
theorem repeated_yields_iff (hP : ∀ m n, m ≤ n → KeptBy (P m) (P n))
    {x : Run T (List α × Cursor T)} :
    Run.Yields (fun n => repeated b (P n) n c) x ↔
      Repeats b (fun d y => Run.Yields (P · d) y) c x := by
  constructor
  · rintro ⟨hended, n, rfl⟩
    exact (repeats_of_repeated hended).mono fun d y hy hd => ⟨hy, n, hd⟩
  · intro hx
    cases hx with
    | @full xs as rest hs hcap =>
      obtain ⟨m, hm⟩ := hs.within_budget hP
      exact ⟨rfl, max m as.length, (hm _ (by omega)).repeated_full hcap (by omega)⟩
    | @failed xs as rest y e hs hroom hy he =>
      obtain ⟨m, hm⟩ := hs.within_budget hP
      obtain ⟨hended, m', rfl⟩ := hy
      let n := max m (max m' (as.length + 1))
      have hy : P n rest = P m' rest := hP m' n (by omega) rest hended
      exact ⟨rfl, n, (hm n (by omega)).repeated_failed hroom hy he (by omega)⟩

end Family

/-- A repetition does what the streak of its parser asks for: it makes one attempt per match, goes
on for as long as the attempts succeed and there is room, and is judged by the number of matches.
Without bounds it never fails, and with bounds that no number satisfies it never succeeds. -/
theorem repeated_follows_streak (b : Bounds) (p : Parser T α) (c : Cursor T) :
    (∀ x, Run.Yields (fun n => repeated b p n c) x ↔ Repeats b (fun d y => p d = y) c x) ∧
    (∀ n e, (repeated (.atLeast 0) p n c).outcome? ≠ some (.error e)) ∧
    (∀ m ∈ b.most, m < b.least → ∀ n r, (repeated b p n c).outcome? ≠ some (.ok r)) := by
  have hfollows (x : Run T (List α × Cursor T)) :
      Run.Yields (fun n => repeated b p n c) x ↔ Repeats b (fun d y => p d = y) c x := by
    rw [repeated_yields_iff (P := fun _ => p) fun _ _ _ _ => Run.KeptBy.refl _]
    constructor
    · refine Repeats.mono fun d y _ hd => ?_
      obtain ⟨_, _, rfl⟩ := hd
      rfl
    · exact Repeats.mono fun d y hy hd => ⟨hy, 0, hd⟩
  refine ⟨hfollows, fun n e he => ?_, fun m hm hlt n r hr => ?_⟩
  · exact (repeats_of_repeated (by rw [he]; rfl)).ne_error_of_unbounded e he
  · exact (repeats_of_repeated (by rw [hr]; rfl)).ne_ok_of_most_lt_least hm hlt r hr

/-- Of two matches a limit that is judged afterwards allows one, and the run fails behind a third
attempt. A loop that is full behind one match never gets to the two that it needs. -/
theorem repeated_follows_streak_of_letters :
    Repeats (.atMost 1) (fun d y => token "a" d = y) ⟨["a", "a", "b"], 0⟩
      ⟨some (.error .rejected), [.stopped (.unexpectedToken "a" "b" 2) 2 2], [0, 1, 2]⟩ ∧
    1 ∈ (⟨2, some 1, .capped⟩ : Bounds).most ∧ 1 < 2 ∧
    ∀ n r, (repeated ⟨2, some 1, .capped⟩ (token "a") n ⟨["a", "a", "b"], 0⟩).outcome? ≠
      some (.ok r) :=
  ⟨((repeated_follows_streak _ _ _).1 _).mp ⟨rfl, 3, Run.ext rfl (by decide) (by decide)⟩,
    rfl, by decide,
    (repeated_follows_streak ⟨2, some 1, .capped⟩ (token "a") _).2.2 1 rfl (by decide)⟩

end Parser

theorem Rules.repeated_yields_iff {T N α : Type} {O : N → Type} [BEq T] {R : Rules T O} {b : Bounds}
    {g : Grammar T O α} {c : Cursor T} {x : Run T (List α × Cursor T)} :
    R.Yields (.repeated b g) c x ↔ Parser.Repeats b (R.Yields g) c x :=
  Parser.repeated_yields_iff fun _ _ hmn => R.parse_keptBy hmn g

end TokenGrammar
