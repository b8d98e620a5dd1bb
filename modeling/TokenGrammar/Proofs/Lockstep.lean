import TokenGrammar.Parser.Repetition
import Mathlib.Data.List.Forall2

/-! Two runs in step. A run over one kind of tokens matches a run over another kind if both come
to the same kind of answer through the same events, where corresponding tokens are related and
corresponding places differ by a fixed offset. Matching passes through each way of building runs
and through the loops of repetitions and separated lists, and what the second run never asked for
may be left out of account. -/
namespace TokenGrammar
variable {T U : Type}

/-- Failures with the same cause. Their tokens are related by `S`, and the first one's place lies
`n` further on. -/
inductive Failure.Matches (S : T → U → Prop) (n : Nat) : Failure T → Failure U → Prop where
  | unexpectedToken {expected actual : T} {expected' actual' : U} (place : Nat)
      (hexpected : S expected expected') (hactual : S actual actual') :
      Matches S n (.unexpectedToken expected actual (place + n))
        (.unexpectedToken expected' actual' place)
  | unexpectedEnd (place : Nat) : Matches S n (.unexpectedEnd (place + n)) (.unexpectedEnd place)
  | rejected : Matches S n .rejected .rejected
  | unexpectedMatch (place : Nat) :
      Matches S n (.unexpectedMatch (place + n)) (.unexpectedMatch place)
  | trailing {actual : T} {actual' : U} (place : Nat) (hactual : S actual actual') :
      Matches S n (.trailing actual (place + n)) (.trailing actual' place)

inductive Event.Matches (S : T → U → Prop) (n : Nat) : Event T → Event U → Prop where
  | called (callback : Callback) : Matches S n (.called callback) (.called callback)
  | tapped (label : String) : Matches S n (.tapped label) (.tapped label)
  | entered (rule : String) : Matches S n (.entered rule) (.entered rule)
  | logged (message : String) (start stop : Nat) :
      Matches S n (.logged message (start + n) (stop + n)) (.logged message start stop)
  | stopped {cause : Failure T} {cause' : Failure U} (place collected : Nat)
      (hcause : cause.Matches S n cause') :
      Matches S n (.stopped cause (place + n) collected) (.stopped cause' place collected)

namespace Run
variable {α β γ δ : Type}

inductive OutcomeMatches (S : T → U → Prop) (n : Nat) (V : α → β → Prop) :
    Outcome T α → Outcome U β → Prop where
  | ok {a : α} {b : β} (h : V a b) : OutcomeMatches S n V (.ok a) (.ok b)
  | error {e : Failure T} {e' : Failure U} (h : e.Matches S n e') :
      OutcomeMatches S n V (.error e) (.error e')

/-- Both runs come to their end or neither does. They have matching answers and events, and ask
for tokens at corresponding places. -/
structure Matches (S : T → U → Prop) (n : Nat) (V : α → β → Prop) (x : Run T α) (y : Run U β) :
    Prop where
  outcome : Option.Rel (OutcomeMatches S n V) x.outcome? y.outcome?
  events : List.Forall₂ (Event.Matches S n) x.events y.events
  reads : x.reads = y.reads.map (· + n)

/-- The runs match, provided that the second one asks for tokens at trusted places only. -/
def InStep (trusted : Nat → Prop) (S : T → U → Prop) (n : Nat) (V : α → β → Prop) (x : Run T α)
    (y : Run U β) : Prop :=
  (∀ q ∈ y.reads, trusted q) → x.Matches S n V y

namespace Matches
variable {S : T → U → Prop} {n : Nat} {V : α → β → Prop} {x : Run T α} {y : Run U β}

theorem outcome_of_none (h : x.Matches S n V y) (hy : y.outcome? = none) : x.outcome? = none := by
  have ho := h.outcome
  rw [hy] at ho
  generalize x.outcome? = o at ho ⊢
  cases ho
  rfl

theorem outcome_of_error (h : x.Matches S n V y) {e' : Failure U}
    (hy : y.outcome? = some (.error e')) :
    ∃ e, x.outcome? = some (.error e) ∧ e.Matches S n e' := by
  have ho := h.outcome
  rw [hy] at ho
  generalize x.outcome? = o at ho ⊢
  rcases ho with (_ | he) | _
  exact ⟨_, rfl, he⟩

theorem outcome_of_ok (h : x.Matches S n V y) {b : β} (hy : y.outcome? = some (.ok b)) :
    ∃ a, x.outcome? = some (.ok a) ∧ V a b := by
  have ho := h.outcome
  rw [hy] at ho
  generalize x.outcome? = o at ho ⊢
  rcases ho with (hab | _) | _
  exact ⟨_, rfl, hab⟩

theorem ended_iff (h : x.Matches S n V y) :
    x.outcome?.isSome = true ↔ y.outcome?.isSome = true := by
  have ho := h.outcome
  generalize x.outcome? = o, y.outcome? = o' at ho ⊢
  cases ho <;> rfl

theorem mono {W : α → β → Prop} (h : x.Matches S n V y) (hV : ∀ a b, V a b → W a b) :
    x.Matches S n W y := by
  obtain ⟨houtcome, hevents, hreads⟩ := h
  refine ⟨?_, hevents, hreads⟩
  generalize x.outcome? = o, y.outcome? = o' at houtcome ⊢
  rcases houtcome with (hab | he) | _
  · exact .some (.ok (hV _ _ hab))
  · exact .some (.error he)
  · exact .none

end Matches

namespace InStep
variable {trusted : Nat → Prop} {S : T → U → Prop} {n : Nat} {V : α → β → Prop}
  {W : γ → δ → Prop} {x : Run T α} {y : Run U β}

theorem ofOutcome {o : Outcome T α} {o' : Outcome U β} (h : OutcomeMatches S n V o o') :
    InStep trusted S n V (.ofOutcome o) (.ofOutcome o') := fun _ => ⟨.some h, .nil, rfl⟩

theorem pure {a : α} {b : β} (h : V a b) :
    InStep trusted S n V (Pure.pure a : Run T α) (Pure.pure b : Run U β) := ofOutcome (.ok h)

theorem fail {e : Failure T} {e' : Failure U} (h : e.Matches S n e') :
    InStep trusted S n V (.fail e) (.fail e') := ofOutcome (.error h)

theorem exhausted : InStep trusted S n V (Run.exhausted : Run T α) (Run.exhausted : Run U β) :=
  fun _ => ⟨.none, .nil, rfl⟩

theorem bind {f : α → Run T γ} {g : β → Run U δ} (h : InStep trusted S n V x y)
    (hf : ∀ a b, V a b → InStep trusted S n W (f a) (g b)) :
    InStep trusted S n W (x >>= f) (y >>= g) := by
  intro htrusted
  rcases hy : y.outcome? with _ | e' | b
  · rw [bind_of_none hy] at htrusted ⊢
    have hxy := h htrusted
    rw [bind_of_none (hxy.outcome_of_none hy)]
    exact ⟨.none, hxy.events, hxy.reads⟩
  · rw [bind_of_error hy] at htrusted ⊢
    have hxy := h htrusted
    obtain ⟨e, hx, he⟩ := hxy.outcome_of_error hy
    rw [bind_of_error hx]
    exact ⟨.some (.error he), hxy.events, hxy.reads⟩
  · rw [bind_of_ok hy] at htrusted ⊢
    have hxy := h fun q hq => htrusted q (List.mem_append_left _ hq)
    obtain ⟨a, hx, hab⟩ := hxy.outcome_of_ok hy
    have hlater := hf a b hab fun q hq => htrusted q (List.mem_append_right _ hq)
    rw [bind_of_ok hx]
    refine ⟨hlater.outcome, List.rel_append hxy.events hlater.events, ?_⟩
    rw [hxy.reads, hlater.reads, List.map_append]

theorem attempt (h : InStep trusted S n V x y) :
    InStep trusted S n (OutcomeMatches S n V) x.attempt y.attempt := by
  intro htrusted
  obtain ⟨houtcome, hevents, hreads⟩ := h htrusted
  refine ⟨?_, hevents, hreads⟩
  rw [outcome?_attempt, outcome?_attempt]
  generalize x.outcome? = o, y.outcome? = o' at houtcome ⊢
  cases houtcome with
  | none => exact .none
  | some ho => exact .some (.ok ho)

theorem ite {b b' : Bool} {x' : Run T α} {y' : Run U β} (hb : b = b')
    (h : InStep trusted S n V x y) (h' : InStep trusted S n V x' y') :
    InStep trusted S n V (if b then x else x') (if b' then y else y') := by
  subst hb
  cases b with
  | true => exact h
  | false => exact h'

theorem emit_bind {e : Event T} {e' : Event U} {f : Unit → Run T γ} {g : Unit → Run U δ}
    (h : e.Matches S n e') (hf : InStep trusted S n W (f ()) (g ())) :
    InStep trusted S n W (emit e >>= f) (emit e' >>= g) := by
  have hemit : InStep trusted S n (fun _ _ => True) (emit e) (emit e') := fun _ =>
    ⟨.some (.ok trivial), .cons h .nil, rfl⟩
  exact hemit.bind fun _ _ _ => hf

end InStep
end Run

/-- Two token sequences, of which the second one is laid against the first from an offset on. At
trusted places related tokens stand against each other, or both sequences are over there; and
related tokens are equal to each other in the same cases. -/
structure Alignment (T U : Type) [BEq T] [BEq U] where
  left : List T
  right : List U
  offset : Nat
  related : T → U → Prop
  trusted : Nat → Prop
  beq_eq : ∀ {t t' u u'}, related t u → related t' u' → (t == t') = (u == u')
  tokens : ∀ q, trusted q → Option.Rel related left[q + offset]? right[q]?

namespace Alignment
variable [BEq T] [BEq U] {α β : Type}

def leftAt (A : Alignment T U) (q : Nat) : Cursor T := ⟨A.left, q + A.offset⟩

def rightAt (A : Alignment T U) (q : Nat) : Cursor U := ⟨A.right, q⟩

inductive Answers (A : Alignment T U) (V : α → β → Prop) :
    α × Cursor T → β × Cursor U → Prop where
  | intro {a : α} {b : β} (h : V a b) (q : Nat) : Answers A V (a, A.leftAt q) (b, A.rightAt q)

inductive Gathers (A : Alignment T U) (V : α → β → Prop) :
    Parser.Harvest T α → Parser.Harvest U β → Prop where
  | intro {items : List α} {items' : List β} {cause? : Option (Failure T)}
      {cause?' : Option (Failure U)} (hitems : List.Forall₂ V items items') (q : Nat)
      (hcause : Option.Rel (Failure.Matches A.related A.offset) cause? cause?') :
      Gathers A V ⟨items, A.leftAt q, cause?⟩ ⟨items', A.rightAt q, cause?'⟩

def InStep (A : Alignment T U) (V : α → β → Prop) (p : Parser T α) (q : Parser U β) : Prop :=
  ∀ i, Run.InStep A.trusted A.related A.offset (A.Answers V) (p (A.leftAt i)) (q (A.rightAt i))

end Alignment

namespace Parser
open Run TokenGrammar.Alignment
variable [BEq T] [BEq U] {A : Alignment T U} {α β γ δ : Type} {V : α → β → Prop}
  {W : γ → δ → Prop}

theorem anyToken_inStep : A.InStep A.related (anyToken : Parser T T) (anyToken : Parser U U) := by
  intro i htrusted
  -- Whatever comes of it, a token is asked for right here, so the place is trusted.
  have hread : i ∈ (anyToken (A.rightAt i)).reads := by
    cases h : (A.rightAt i).peek? with
    | none =>
      rw [anyToken_of_end h]
      exact List.mem_singleton_self _
    | some u =>
      rw [anyToken_of_peek? h]
      exact List.mem_singleton_self _
  have hpeek : Option.Rel A.related (A.leftAt i).peek? (A.rightAt i).peek? :=
    A.tokens i (htrusted i hread)
  cases ht : (A.leftAt i).peek? <;> cases hu : (A.rightAt i).peek? <;>
    rw [ht, hu] at hpeek <;> rcases hpeek with hrelated | _
  · rw [anyToken_of_end ht, anyToken_of_end hu]
    exact ⟨.some (.error (.unexpectedEnd i)), .nil, rfl⟩
  · rw [anyToken_of_peek? ht, anyToken_of_peek? hu]
    have hplace : (A.leftAt i).advance = A.leftAt (i + 1) := by
      simp [leftAt, Cursor.advance]
      omega
    rw [hplace]
    exact ⟨.some (.ok (.intro hrelated (i + 1))), .nil, rfl⟩

theorem token_inStep {t : T} {u : U} (h : A.related t u) :
    A.InStep A.related (token t) (token u) := by
  intro i
  refine (anyToken_inStep i).bind ?_
  rintro _ _ ⟨hread, q⟩
  exact .ite (A.beq_eq hread h) (.pure (.intro hread q)) (.fail (.unexpectedToken i h hread))

section Loops
variable {p : Parser T α} {p' : Parser U β} {s : Parser T γ} {s' : Parser U δ}

theorem attempts_inStep (hp : A.InStep V p p') (b : Bounds) (budget k i : Nat) :
    Run.InStep A.trusted A.related A.offset (A.Gathers V)
      (attempts b p budget k (A.leftAt i)) (attempts b p' budget k (A.rightAt i)) := by
  induction budget generalizing k i with
  | zero =>
    unfold attempts
    split
    · exact .pure (.intro .nil i .none)
    · exact .exhausted
  | succ budget ih =>
    unfold attempts
    split
    · exact .pure (.intro .nil i .none)
    · refine (hp i).attempt.bind fun o o' ho => ?_
      cases ho with
      | ok hr =>
        obtain ⟨hitem, q⟩ := hr
        refine (ih (k + 1) q).bind ?_
        rintro _ _ ⟨hitems, q', hcause⟩
        exact .pure (.intro (.cons hitem hitems) q' hcause)
      | error he =>
        exact .emit_bind (.stopped i k he) (.pure (.intro .nil i (.some he)))

theorem judge_matches {h : Harvest T α} {h' : Harvest U β} (hh : A.Gathers V h h') (b : Bounds) :
    OutcomeMatches A.related A.offset (A.Answers (List.Forall₂ V)) (h.judge b) (h'.judge b) := by
  obtain ⟨hitems, q, hcause⟩ := hh
  unfold Harvest.judge
  dsimp only
  rw [hitems.length_eq]
  split
  · rcases hcause with he | _
    · exact .error he
    · exact .error .rejected
  · split
    · exact .ok (.intro hitems q)
    · exact .error .rejected

theorem repeated_inStep (hp : A.InStep V p p') (b : Bounds) (budget : Nat) :
    A.InStep (List.Forall₂ V) (repeated b p budget) (repeated b p' budget) := fun i =>
  (attempts_inStep hp b budget 0 i).bind fun _ _ hh => .ofOutcome (judge_matches hh b)

theorem separated_inStep (hp : A.InStep V p p') (hs : A.InStep W s s') (budget i : Nat) :
    Run.InStep A.trusted A.related A.offset (A.Answers (List.Forall₂ V))
      (separated p s budget (A.leftAt i)) (separated p' s' budget (A.rightAt i)) := by
  induction budget generalizing i with
  | zero => exact .exhausted
  | succ budget ih =>
    refine (hs i).attempt.bind fun o o' ho => ?_
    cases ho with
    | error he => exact .pure (.intro .nil i)
    | ok hr =>
      obtain ⟨-, q⟩ := hr
      refine (hp q).bind ?_
      rintro _ _ ⟨hitem, q'⟩
      refine (ih q').bind ?_
      rintro _ _ ⟨hitems, q''⟩
      exact .pure (.intro (.cons hitem hitems) q'')

theorem sepBy1_inStep (hp : A.InStep V p p') (hs : A.InStep W s s') (budget : Nat) :
    A.InStep (List.Forall₂ V) (sepBy1 p s budget) (sepBy1 p' s' budget) := by
  intro i
  refine (hp i).bind ?_
  rintro _ _ ⟨hitem, q⟩
  refine (separated_inStep hp hs budget q).bind ?_
  rintro _ _ ⟨hitems, q'⟩
  exact .pure (.intro (.cons hitem hitems) q')

end Loops

end Parser
end TokenGrammar
