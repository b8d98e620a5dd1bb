import TokenGrammar.Grammar.Nested
import TokenGrammar.Proofs.Ensures
import TokenGrammar.Proofs.Settling

/-! Grammars as parsing expressions. For the combinators that look at tokens alone there is a
relation that tells, without cursors, budgets or histories, what an expression comes to at a
position: a success at some later position, or a failure. A parse comes to the same, in both
directions. -/
namespace TokenGrammar

inductive Verdict where
  | success (stop : Nat)
  | failure
  deriving DecidableEq, Repr

namespace Grammar
variable {T N : Type} {O : N → Type}

end Grammar

namespace Rules
variable {T N : Type} {O : N → Type} [BEq T]
open Grammar Verdict

/-- What a parsing expression comes to at a position of a token sequence. Expressions in a row
fail where one of them fails. A choice tries its second part, from where the first one started,
only if that failed. A repetition goes on as long as its part succeeds and gives nothing back.
A negated expression reads nothing. A rule is as good as its body. -/
inductive Derives (R : Rules T O) (ts : List T) :
    {α : Type} → Grammar T O α → Nat → Verdict → Prop where
  | anyToken {p t} (h : ts[p]? = some t) : R.Derives ts .anyToken p (success (p + 1))
  | anyTokenEnd {p} (h : ts[p]? = none) : R.Derives ts .anyToken p failure
  | token {t p u} (h : ts[p]? = some u) (heq : (u == t) = true) :
      R.Derives ts (.token t) p (success (p + 1))
  | tokenOther {t p u} (h : ts[p]? = some u) (hne : (u == t) = false) :
      R.Derives ts (.token t) p failure
  | tokenEnd {t p} (h : ts[p]? = none) : R.Derives ts (.token t) p failure
  | satisfy {accept p u} (h : ts[p]? = some u) (haccept : accept u = true) :
      R.Derives ts (.satisfy accept) p (success (p + 1))
  | satisfyOther {accept p u} (h : ts[p]? = some u) (hreject : accept u = false) :
      R.Derives ts (.satisfy accept) p failure
  | satisfyEnd {accept p} (h : ts[p]? = none) : R.Derives ts (.satisfy accept) p failure
  | succeed {α} {a : α} {p} : R.Derives ts (.succeed a) p (success p)
  | map {α β} {f : α → β} {g : Grammar T O α} {p r} (hg : R.Derives ts g p r) :
      R.Derives ts (.map f g) p r
  | reshape {α β} {f : α → β} {g : Grammar T O α} {p r} (hg : R.Derives ts g p r) :
      R.Derives ts (.reshape f g) p r
  | seq {α β} {g : Grammar T O α} {h : Grammar T O β} {p i r}
      (hg : R.Derives ts g p (success i)) (hh : R.Derives ts h i r) :
      R.Derives ts (.seq g h) p r
  | seqFailure {α β} {g : Grammar T O α} {h : Grammar T O β} {p}
      (hg : R.Derives ts g p failure) : R.Derives ts (.seq g h) p failure
  | orElse {α} {g h : Grammar T O α} {p i} (hg : R.Derives ts g p (success i)) :
      R.Derives ts (.orElse g h) p (success i)
  | orElseOther {α} {g h : Grammar T O α} {p r} (hg : R.Derives ts g p failure)
      (hh : R.Derives ts h p r) : R.Derives ts (.orElse g h) p r
  | star {α} {g : Grammar T O α} {p i j} (hg : R.Derives ts g p (success i))
      (hlater : R.Derives ts (.star g) i (success j)) : R.Derives ts (.star g) p (success j)
  | starEnd {α} {g : Grammar T O α} {p} (hg : R.Derives ts g p failure) :
      R.Derives ts (.star g) p (success p)
  | plus {α} {g : Grammar T O α} {p i j} (hg : R.Derives ts g p (success i))
      (hlater : R.Derives ts (.star g) i (success j)) : R.Derives ts (.plus g) p (success j)
  | plusFailure {α} {g : Grammar T O α} {p} (hg : R.Derives ts g p failure) :
      R.Derives ts (.plus g) p failure
  | optional {α} {g : Grammar T O α} {p i} (hg : R.Derives ts g p (success i)) :
      R.Derives ts (.optional g) p (success i)
  | optionalEmpty {α} {g : Grammar T O α} {p} (hg : R.Derives ts g p failure) :
      R.Derives ts (.optional g) p (success p)
  | notFollowedBy {α} {g : Grammar T O α} {p} (hg : R.Derives ts g p failure) :
      R.Derives ts (.notFollowedBy g) p (success p)
  | notFollowedByFailure {α} {g : Grammar T O α} {p i} (hg : R.Derives ts g p (success i)) :
      R.Derives ts (.notFollowedBy g) p failure
  | between {α β γ} {g : Grammar T O α} {h : Grammar T O β} {k : Grammar T O γ} {p i j r}
      (hg : R.Derives ts g p (success i)) (hh : R.Derives ts h i (success j))
      (hk : R.Derives ts k j r) : R.Derives ts (.between g h k) p r
  | betweenOpening {α β γ} {g : Grammar T O α} {h : Grammar T O β} {k : Grammar T O γ} {p}
      (hg : R.Derives ts g p failure) : R.Derives ts (.between g h k) p failure
  | betweenContent {α β γ} {g : Grammar T O α} {h : Grammar T O β} {k : Grammar T O γ} {p i}
      (hg : R.Derives ts g p (success i)) (hh : R.Derives ts h i failure) :
      R.Derives ts (.between g h k) p failure
  | shared {α} {g : Grammar T O α} {p r} (hg : R.Derives ts g p r) : R.Derives ts (.shared g) p r
  | rule {n p r} (hbody : R.Derives ts (R.body n) p r) : R.Derives ts (.rule n) p r

section Soundness
variable {R : Rules T O} {α β : Type} {c : Cursor T}

structure Gathers (R : Rules T O) (g : Grammar T O α) (c : Cursor T)
    (h : Parser.Harvest T α) : Prop where
  source : h.rest.source = c.source
  star : R.Derives c.source (.star g) c.position (success h.rest.position)
  none : h.items = [] → R.Derives c.source g c.position failure
  some : h.items ≠ [] → R.Derives c.source (.plus g) c.position (success h.rest.position)

end Soundness

end Rules

namespace Run
variable {T α β : Type} {ts : List T} {r : Verdict}

/-- With enough budget the runs come to this verdict on the sequence. -/
def Lands (ts : List T) (F : Nat → Run T (α × Cursor T)) : Verdict → Prop
  | .success j => ∃ a, Settles F (.ok (a, ⟨ts, j⟩))
  | .failure => ∃ e, Settles F (.error e)

namespace Lands
variable {F : Nat → Run T (α × Cursor T)} {i : Nat}

theorem pure (a : α) (p : Nat) :
    Lands ts (fun _ => (Pure.pure (a, ⟨ts, p⟩) : Run T (α × Cursor T))) (.success p) :=
  ⟨a, .pure _⟩

theorem of_settles {F' : Nat → Run T (α × Cursor T)} (h : Lands ts F r)
    (hF' : ∀ o, Settles F o → Settles F' o) : Lands ts F' r := by
  cases r with
  | success j =>
    obtain ⟨a, ha⟩ := h
    exact ⟨a, hF' _ ha⟩
  | failure =>
    obtain ⟨e, he⟩ := h
    exact ⟨e, hF' _ he⟩

theorem emit_bind {G : Nat → Unit → Run T (α × Cursor T)} (e : Event T)
    (hG : Lands ts (fun n => G n ()) r) : Lands ts (fun n => emit e >>= G n) r :=
  hG.of_settles fun _ ho => ho.emit_bind e

section Bind
variable {G : Nat → α × Cursor T → Run T (β × Cursor T)}

theorem bind (hF : Lands ts F (.success i))
    (hG : ∀ a, Lands ts (fun n => G n (a, ⟨ts, i⟩)) r) : Lands ts (fun n => F n >>= G n) r := by
  obtain ⟨a, ha⟩ := hF
  have hnext := hG a
  exact hnext.of_settles fun o ho => ha.bind_ok ho

end Bind

section Attempt
variable {G : Nat → Outcome T (α × Cursor T) → Run T (β × Cursor T)}

theorem attempt_bind (hF : Lands ts F (.success i))
    (hG : ∀ a, Lands ts (fun n => G n (.ok (a, ⟨ts, i⟩))) r) :
    Lands ts (fun n => (F n).attempt >>= G n) r := by
  obtain ⟨a, ha⟩ := hF
  have hnext := hG a
  exact hnext.of_settles fun o ho => ha.attempt_bind ho

end Attempt

theorem ends (h : Lands ts F r) : ∃ budget, (F budget).outcome? ≠ none := by
  cases r with
  | success j =>
    obtain ⟨a, m, hm⟩ := h
    exact ⟨m, by simp [hm m (Nat.le_refl m)]⟩
  | failure =>
    obtain ⟨e, m, hm⟩ := h
    exact ⟨m, by simp [hm m (Nat.le_refl m)]⟩

theorem unique {r' : Verdict} (h : Lands ts F r) (h' : Lands ts F r') : r = r' := by
  cases r with
  | success j =>
    obtain ⟨a, ha⟩ := h
    cases r' with
    | success j' =>
      obtain ⟨a', ha'⟩ := h'
      cases ha.unique ha'
      rfl
    | failure =>
      obtain ⟨e, he⟩ := h'
      cases ha.unique he
  | failure =>
    obtain ⟨e, he⟩ := h
    cases r' with
    | success j' =>
      obtain ⟨a', ha'⟩ := h'
      cases he.unique ha'
    | failure => rfl

end Lands
end Run

namespace Rules
variable {T N : Type} {O : N → Type} [BEq T]
open Grammar Verdict

section Completeness
open Run
variable {R : Rules T O} {α β : Type} {g : Grammar T O α} {c : Cursor T}

end Completeness

end Rules
end TokenGrammar
