import TokenGrammar.Grammar.Budget

/-! What a parse comes to when the budget is no matter. Runs under all budgets settle on an
outcome if from some budget on they all end in it. Settling passes through each way of building
runs and through the attempts of a repetition, so the answers of a grammar can be put together
from the answers of its parts without a word about budgets. -/
namespace TokenGrammar
namespace Run
variable {T α β : Type}

/-- From some budget on all runs end in this outcome. -/
def Settles (F : Nat → Run T α) (o : Outcome T α) : Prop :=
  ∃ m, ∀ n, m ≤ n → (F n).outcome? = some o

namespace Settles
variable {F : Nat → Run T α}

theorem const {x : Run T α} {o : Outcome T α} (h : x.outcome? = some o) :
    Settles (fun _ => x) o := ⟨0, fun _ _ => h⟩

theorem of_eq {x : Run T α} {o : Outcome T α} {es : List (Event T)} {reads : List Nat}
    (h : x = ⟨some o, es, reads⟩) : Settles (fun _ => x) o := const (congrArg outcome? h)

theorem pure (a : α) : Settles (fun _ => (Pure.pure a : Run T α)) (.ok a) := const rfl

theorem unique {o o' : Outcome T α} (h : Settles F o) (h' : Settles F o') : o = o' := by
  obtain ⟨m, hm⟩ := h
  obtain ⟨m', hm'⟩ := h'
  have h₁ := hm (max m m') (Nat.le_max_left _ _)
  have h₂ := hm' (max m m') (Nat.le_max_right _ _)
  rw [h₁] at h₂
  exact Option.some.inj h₂

theorem of_succ {o : Outcome T α} (h : Settles (fun n => F (n + 1)) o) : Settles F o := by
  obtain ⟨m, hm⟩ := h
  refine ⟨m + 1, fun n hn => ?_⟩
  obtain ⟨n, rfl⟩ := Nat.exists_eq_add_of_lt (Nat.lt_of_succ_le hn)
  exact hm (m + n) (by omega)

theorem bind_ok {G : Nat → α → Run T β} {a : α} {o : Outcome T β} (hF : Settles F (.ok a))
    (hG : Settles (fun n => G n a) o) : Settles (fun n => F n >>= G n) o := by
  obtain ⟨m, hm⟩ := hF
  obtain ⟨m', hm'⟩ := hG
  refine ⟨max m m', fun n hn => ?_⟩
  have hFn := hm n (by omega)
  have hGn := hm' n (by omega)
  show (F n >>= G n).outcome? = some o
  rw [bind_of_ok hFn]
  exact hGn

theorem bind_error {G : Nat → α → Run T β} {e : Failure T} (hF : Settles F (.error e)) :
    Settles (fun n => F n >>= G n) (.error e) := by
  obtain ⟨m, hm⟩ := hF
  refine ⟨m, fun n hn => ?_⟩
  show (F n >>= G n).outcome? = some (.error e)
  rw [bind_of_error (hm n hn)]

theorem attempt_bind {G : Nat → Outcome T α → Run T β} {o : Outcome T α} {o' : Outcome T β}
    (hF : Settles F o) (hG : Settles (fun n => G n o) o') :
    Settles (fun n => (F n).attempt >>= G n) o' := by
  have ha : Settles (fun n => (F n).attempt) (.ok o) := by
    obtain ⟨m, hm⟩ := hF
    refine ⟨m, fun n hn => ?_⟩
    show (F n).attempt.outcome? = some (.ok o)
    rw [outcome?_attempt, hm n hn]
    rfl
  exact ha.bind_ok hG

theorem emit_bind {G : Nat → Unit → Run T β} {o : Outcome T β} (e : Event T)
    (hG : Settles (fun n => G n ()) o) : Settles (fun n => emit e >>= G n) o :=
  (const rfl : Settles (fun _ => emit e) (.ok ())).bind_ok hG

end Settles
end Run

namespace Parser
open Run
variable {T α β : Type} {b : Bounds} {F : Nat → Parser T α} {G : Nat → Parser T β}
  {j k : Nat} {c : Cursor T}

theorem attempts_settles_full (hfull : b.isFull k = true) :
    Settles (fun n => attempts b (F n) j k c) (.ok ⟨[], c, none⟩) := by
  refine ⟨0, fun n _ => ?_⟩
  show (attempts b (F n) j k c).outcome? = _
  rw [attempts_of_full hfull]
  rfl

theorem attempts_settles_error {e : Failure T} (hroom : b.isFull k = false)
    (h : Settles (fun n => F n c) (.error e)) :
    Settles (fun n => attempts b (F n) (j + 1) k c) (.ok ⟨[], c, some e⟩) := by
  obtain ⟨m, hm⟩ := h
  refine ⟨m, fun n hn => ?_⟩
  show (attempts b (F n) (j + 1) k c).outcome? = _
  rw [attempts_of_error hroom (hm n hn)]

theorem attempts_settles_ok {r : α × Cursor T} {h : Harvest T α} (hroom : b.isFull k = false)
    (hr : Settles (fun n => F n c) (.ok r))
    (hlater : Settles (fun n => attempts b (F n) j (k + 1) r.2) (.ok h)) :
    Settles (fun n => attempts b (F n) (j + 1) k c) (.ok (h.cons r.1)) := by
  obtain ⟨m, hm⟩ := hr
  obtain ⟨m', hm'⟩ := hlater
  refine ⟨max m m', fun n hn => ?_⟩
  have hrn := hm n (by omega)
  have hlatern : (attempts b (F n) j (k + 1) r.2).outcome? = some (.ok h) := hm' n (by omega)
  show (attempts b (F n) (j + 1) k c).outcome? = _
  rw [attempts_of_ok hroom hrn]
  show Option.map _ (attempts b (F n) j (k + 1) r.2).outcome? = _
  rw [hlatern]
  rfl

/-- A loop that settles with some number of attempts settles if that number grows, too. -/
theorem attempts_settles_diagonal {o : Outcome T (Harvest T α)}
    (h : Settles (fun n => attempts b (F n) j k c) o) :
    Settles (fun n => attempts b (F n) n k c) o := by
  obtain ⟨m, hm⟩ := h
  refine ⟨max m j, fun n hn => ?_⟩
  have ho : (attempts b (F n) j k c).outcome? = some o := hm n (by omega)
  have hkept : (attempts b (F n) j k c).KeptBy (attempts b (F n) n k c) :=
    attempts_keptBy (fun _ => .refl _) b (by omega) k c
  show (attempts b (F n) n k c).outcome? = some o
  rw [hkept (by rw [ho]; rfl)]
  exact ho

theorem repeated_settles {h : Harvest T α}
    (hh : Settles (fun n => attempts b (F n) j 0 c) (.ok h)) :
    Settles (fun n => repeated b (F n) n c) (h.judge b) :=
  (attempts_settles_diagonal hh).bind_ok (.const rfl)

theorem separated_settles_end {e : Failure T} (h : Settles (fun n => G n c) (.error e)) :
    Settles (fun n => separated (F n) (G n) (j + 1) c) (.ok ([], c)) :=
  h.attempt_bind (.pure _)

theorem separated_settles_owed {s : β × Cursor T} {e : Failure T}
    (hs : Settles (fun n => G n c) (.ok s)) (h : Settles (fun n => F n s.2) (.error e)) :
    Settles (fun n => separated (F n) (G n) (j + 1) c) (.error e) :=
  hs.attempt_bind h.bind_error

theorem separated_settles_more {s : β × Cursor T} {r : α × Cursor T}
    {o : Outcome T (List α × Cursor T)} (hs : Settles (fun n => G n c) (.ok s))
    (hr : Settles (fun n => F n s.2) (.ok r))
    (hlater : Settles (fun n => separated (F n) (G n) j r.2) o) :
    Settles (fun n => separated (F n) (G n) (j + 1) c)
      (o.map fun later => (r.1 :: later.1, later.2)) := by
  refine hs.attempt_bind (hr.bind_ok ?_)
  cases o with
  | ok later => exact hlater.bind_ok (.pure _)
  | error e => exact hlater.bind_error

theorem separated_settles_diagonal {o : Outcome T (List α × Cursor T)}
    (h : Settles (fun n => separated (F n) (G n) j c) o) :
    Settles (fun n => separated (F n) (G n) n c) o := by
  obtain ⟨m, hm⟩ := h
  refine ⟨max m j, fun n hn => ?_⟩
  have ho : (separated (F n) (G n) j c).outcome? = some o := hm n (by omega)
  have hkept : (separated (F n) (G n) j c).KeptBy (separated (F n) (G n) n c) :=
    separated_keptBy (fun _ => .refl _) (fun _ => .refl _) (by omega) c
  show (separated (F n) (G n) n c).outcome? = some o
  rw [hkept (by rw [ho]; rfl)]
  exact ho

end Parser

namespace Rules
open Run
variable {T N : Type} {O : N → Type} {α β γ : Type} [BEq T]

def Answers (R : Rules T O) (g : Grammar T O α) (c : Cursor T)
    (o : Outcome T (α × Cursor T)) : Prop :=
  ∃ x, R.Yields g c x ∧ x.outcome? = some o

variable {R : Rules T O} {g : Grammar T O α} {c : Cursor T}

theorem answers_of_parse {o : Outcome T (α × Cursor T)} {budget : Nat}
    (h : (R.parse budget g c).outcome? = some o) : R.Answers g c o :=
  ⟨R.parse budget g c, ⟨by rw [h]; rfl, budget, rfl⟩, h⟩

theorem answers_iff_settles {o : Outcome T (α × Cursor T)} :
    R.Answers g c o ↔ Settles (fun n => R.parse n g c) o := by
  constructor
  · rintro ⟨_, ⟨hended, m, rfl⟩, ho⟩
    refine ⟨m, fun n hn => ?_⟩
    show (R.parse n g c).outcome? = some o
    rw [R.parse_keptBy hn g c hended]
    exact ho
  · rintro ⟨m, hm⟩
    exact answers_of_parse (hm m (Nat.le_refl m))

theorem Answers.unique {o o' : Outcome T (α × Cursor T)} (h : R.Answers g c o)
    (h' : R.Answers g c o') : o = o' :=
  (answers_iff_settles.mp h).unique (answers_iff_settles.mp h')

theorem rule_settles {n : N} {o : Outcome T (O n × Cursor T)}
    (h : Settles (fun k => R.parse k (R.body n) c) o) :
    Settles (fun k => R.parse k (.rule n) c) o :=
  .of_succ (.emit_bind (.entered (R.label n)) h)

end Rules
end TokenGrammar
