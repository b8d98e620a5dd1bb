import TokenGrammar.Grammar

/-! A larger budget changes no answer. A run that came to its end is the same run under
every larger budget, its history included; so the end of a parse does not depend on how
much was allowed for it. -/
namespace TokenGrammar

/-- With enough budget this is the run, and it comes to its end. -/
def Run.Yields {T α : Type} (F : Nat → Run T α) (x : Run T α) : Prop :=
  x.outcome?.isSome = true ∧ ∃ budget, F budget = x

/-- If the first run came to its end, the second is the same run. -/
def Run.KeptBy {T α : Type} (x y : Run T α) : Prop := x.outcome?.isSome = true → y = x

namespace Run.KeptBy
variable {T α β : Type}

theorem refl (x : Run T α) : x.KeptBy x := fun _ => rfl

theorem exhausted (y : Run T α) : Run.exhausted.KeptBy y := fun h => by simp [Run.exhausted] at h

theorem attempt {x y : Run T α} (h : x.KeptBy y) : x.attempt.KeptBy y.attempt := fun hx => by
  rw [h (by simpa using hx)]

theorem bind {x y : Run T α} {f g : α → Run T β} (h : x.KeptBy y)
    (hf : ∀ a, (f a).KeptBy (g a)) : (x >>= f).KeptBy (y >>= g) := fun hx => by
  rcases hox : x.outcome? with _ | _ | a
  · rw [bind_of_none hox] at hx
    simp at hx
  · rw [h (by simp [hox]), bind_of_error hox, bind_of_error hox]
  · rw [bind_of_ok hox] at hx
    rw [h (by simp [hox]), bind_of_ok hox, bind_of_ok hox, hf a hx]

theorem mapped {x y : Run T α} (f : α → β) (h : x.KeptBy y) : (x.mapped f).KeptBy (y.mapped f) :=
  h.bind fun _ => refl _

theorem filtered {x y : Run T α} (accept : α → Bool) (h : x.KeptBy y) :
    (x.filtered accept).KeptBy (y.filtered accept) :=
  h.bind fun _ => refl _

theorem chained {γ : Type} {x y : Run T α} {f g : α → Run T β} (combine : α → β → γ)
    (h : x.KeptBy y) (hf : ∀ a, (f a).KeptBy (g a)) :
    (x.chained f combine).KeptBy (y.chained g combine) :=
  h.bind fun a => (refl _).bind fun _ => (hf a).bind fun _ => refl _

end Run.KeptBy

namespace Parser
variable {T α β γ : Type}

def KeptBy (p q : Parser T α) : Prop := ∀ c, (p c).KeptBy (q c)

theorem attempts_keptBy {p q : Parser T α} (h : KeptBy p q) (b : Bounds) {m n : Nat}
    (hmn : m ≤ n) (k : Nat) (c : Cursor T) : (attempts b p m k c).KeptBy (attempts b q n k c) := by
  induction m generalizing n k c with
  | zero =>
    unfold attempts
    split
    · cases n <;> simp_all [Run.KeptBy.refl]
    · exact Run.KeptBy.exhausted _
  | succ m ih =>
    obtain ⟨n, rfl⟩ := Nat.exists_eq_add_of_lt (Nat.lt_of_succ_le hmn)
    rw [attempts, attempts]
    split
    · exact Run.KeptBy.refl _
    · refine (h c).attempt.bind fun o => ?_
      cases o with
      | error e => exact Run.KeptBy.refl _
      | ok r => exact (ih (by omega) _ _).bind fun _ => Run.KeptBy.refl _

theorem separated_keptBy {p p' : Parser T α} {s s' : Parser T β} (hp : KeptBy p p')
    (hs : KeptBy s s') {m n : Nat} (hmn : m ≤ n) (c : Cursor T) :
    (separated p s m c).KeptBy (separated p' s' n c) := by
  induction m generalizing n c with
  | zero => exact Run.KeptBy.exhausted _
  | succ m ih =>
    obtain ⟨n, rfl⟩ := Nat.exists_eq_add_of_lt (Nat.lt_of_succ_le hmn)
    rw [separated, separated]
    refine (hs c).attempt.bind fun o => ?_
    cases o with
    | error e => exact Run.KeptBy.refl _
    | ok r => exact (hp _).bind fun _ => (ih (by omega) _).bind fun _ => Run.KeptBy.refl _

end Parser

namespace Grammar
variable {T N : Type} {O : N → Type} [BEq T]

theorem parser_keptBy {call call' : (n : N) → Parser T (O n)}
    (hcall : ∀ n, Parser.KeptBy (call n) (call' n)) {m n : Nat} (hmn : m ≤ n) {α : Type}
    (g : Grammar T O α) : Parser.KeptBy (g.parser call m) (g.parser call' n) := by
  induction g with
  | anyToken | token | succeed | custom => exact fun c => Run.KeptBy.refl _
  | map f g ih => exact fun c => (ih c).mapped _
  | reshape f g ih => exact fun c => (ih c).bind fun _ => Run.KeptBy.refl _
  | filter accept g ih => exact fun c => (ih c).filtered _
  | chain g next combine ih ihn => exact fun c => (ih c).chained _ fun r => ihn r.1 r.2
  | seq g h ihg ihh =>
    exact fun c => (ihg c).bind fun _ => (ihh _).bind fun _ => Run.KeptBy.refl _
  | orElse g h ihg ihh =>
    refine fun c => (ihg c).attempt.bind fun o => ?_
    cases o with
    | ok r => exact Run.KeptBy.refl _
    | error e => exact ihh c
  | optional g ih | notFollowedBy g ih =>
    exact fun c => (ih c).attempt.bind fun _ => Run.KeptBy.refl _
  | lookAhead g ih => exact fun c => (ih c).bind fun _ => Run.KeptBy.refl _
  | between g h k ihg ihh ihk =>
    exact fun c => (ihg c).bind fun _ => (ihh _).bind fun _ => (ihk _).bind fun _ =>
      Run.KeptBy.refl _
  | repeated b g ih =>
    exact fun c => (Parser.attempts_keptBy ih b hmn 0 c).bind fun _ => Run.KeptBy.refl _
  | sepBy1 item sep ihi ihs =>
    exact fun c => (ihi c).bind fun _ => (Parser.separated_keptBy ihi ihs hmn _).bind fun _ =>
      Run.KeptBy.refl _
  | log message g ih | tap label g ih =>
    exact fun c => (ih c).bind fun _ => Run.KeptBy.refl _
  | shared g ih => exact ih
  | rule n => exact hcall n

end Grammar

namespace Rules
variable {T N : Type} {O : N → Type} {α : Type} [BEq T]

theorem call_keptBy (R : Rules T O) {m n : Nat} (hmn : m ≤ n) (i : N) :
    Parser.KeptBy (R.call m i) (R.call n i) := by
  induction m generalizing n i with
  | zero => exact fun _ => Run.KeptBy.exhausted _
  | succ m ih =>
    obtain ⟨n, rfl⟩ := Nat.exists_eq_add_of_lt (Nat.lt_of_succ_le hmn)
    have hmn' : m ≤ m + n := by omega
    exact fun c => (Run.KeptBy.refl _).bind fun _ =>
      Grammar.parser_keptBy (fun j => ih hmn' j) hmn' (R.body i) c

/-- A parse that came to its end under some budget is the same under every larger one. -/
theorem parse_keptBy (R : Rules T O) {m n : Nat} (hmn : m ≤ n) (g : Grammar T O α) :
    Parser.KeptBy (R.parse m g) (R.parse n g) :=
  Grammar.parser_keptBy (R.call_keptBy hmn) hmn g

def Yields (R : Rules T O) (g : Grammar T O α) (c : Cursor T) : Run T (α × Cursor T) → Prop :=
  Run.Yields fun budget => R.parse budget g c

theorem Yields.unique {R : Rules T O} {g : Grammar T O α} {c : Cursor T}
    {x y : Run T (α × Cursor T)} (hx : R.Yields g c x) (hy : R.Yields g c y) : x = y := by
  obtain ⟨hxs, m, rfl⟩ := hx
  obtain ⟨hys, n, rfl⟩ := hy
  rcases Nat.le_total m n with h | h
  · exact (R.parse_keptBy h g c hxs).symm
  · exact R.parse_keptBy h g c hys

/-- What relates two parses under every budget, and lets neither end without the other, relates
them when no budget is spoken of. -/
theorem yields_related {U M β : Type} {P : M → Type} [BEq U] {R : Rules T O} {R' : Rules U P}
    {g : Grammar T O α} {g' : Grammar U P β} {c : Cursor T} {c' : Cursor U}
    (rel : Run T (α × Cursor T) → Run U (β × Cursor U) → Prop)
    (hended : ∀ x y, rel x y → (x.outcome?.isSome = true ↔ y.outcome?.isSome = true))
    (h : ∀ budget, rel (R.parse budget g c) (R'.parse budget g' c')) :
    ((∃ x, R.Yields g c x) ↔ ∃ y, R'.Yields g' c' y) ∧
      ∀ x y, R.Yields g c x → R'.Yields g' c' y → rel x y := by
  refine ⟨⟨?_, ?_⟩, ?_⟩
  · rintro ⟨_, hx, budget, rfl⟩
    exact ⟨_, (hended _ _ (h budget)).mp hx, budget, rfl⟩
  · rintro ⟨_, hy, budget, rfl⟩
    exact ⟨_, (hended _ _ (h budget)).mpr hy, budget, rfl⟩
  · rintro _ y ⟨hx, budget, rfl⟩ hy
    have hy' : R'.Yields g' c' (R'.parse budget g' c') :=
      ⟨(hended _ _ (h budget)).mp hx, budget, rfl⟩
    rw [hy.unique hy']
    exact h budget

end Rules
end TokenGrammar
