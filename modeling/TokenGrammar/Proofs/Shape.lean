import TokenGrammar.Grammar.Nested

/-! What can be read off a grammar without running it: whether it keeps to the combinators,
whether a parser of some kind occurs in it, and whether it may succeed without reading. -/
namespace TokenGrammar
namespace Grammar
variable {T N : Type} {O : N → Type}

/-- Built from combinators alone, without a custom step. Whatever a chain goes on with is built
so, too. -/
def IsStandard {α : Type} : Grammar T O α → Prop
  | anyToken | token _ | succeed _ | rule _ => True
  | custom _ => False
  | map _ g | reshape _ g | filter _ g | optional g | notFollowedBy g | lookAhead g |
    repeated _ g | log _ g | tap _ g | shared g => g.IsStandard
  | chain g next _ => g.IsStandard ∧ ∀ a, (next a).IsStandard
  | seq g h | orElse g h | sepBy1 g h => g.IsStandard ∧ h.IsStandard
  | between g h k => g.IsStandard ∧ h.IsStandard ∧ k.IsStandard

/-- Whether the grammar may succeed without reading a token, when the rules that may do so are
among `ν`. An estimate from the outside, which looks at no input. -/
def Nullable (ν : N → Prop) {α : Type} : Grammar T O α → Prop
  | anyToken | token _ => False
  | succeed _ | custom _ | optional _ | notFollowedBy _ | lookAhead _ => True
  | map _ g | reshape _ g | filter _ g | log _ g | tap _ g | shared g => g.Nullable ν
  | chain g next _ => g.Nullable ν ∧ ∃ a, (next a).Nullable ν
  | seq g h => g.Nullable ν ∧ h.Nullable ν
  | orElse g h => g.Nullable ν ∨ h.Nullable ν
  | between g h k => g.Nullable ν ∧ h.Nullable ν ∧ k.Nullable ν
  | repeated b g => b.least = 0 ∨ g.Nullable ν
  | sepBy1 item _ => item.Nullable ν
  | rule n => ν n

def isLookahead {α : Type} : Grammar T O α → Bool
  | notFollowedBy _ => true
  | _ => false

/-- A parser that may turn down what it has read: a filter, or a repetition with an upper
bound. -/
def isCheck {α : Type} : Grammar T O α → Bool
  | filter _ _ => true
  | repeated b _ => b.most.isSome
  | _ => false

end Grammar

namespace Rules
variable {T N : Type} {O : N → Type}
open Grammar

/-- The first grammar is an immediate part of the second. A rule has its body for a part, and a
chain every grammar that its continuation may return. -/
inductive Part (R : Rules T O) : {α β : Type} → Grammar T O α → Grammar T O β → Prop where
  | map {α β} (f : α → β) (g : Grammar T O α) : R.Part g (.map f g)
  | reshape {α β} (f : α → β) (g : Grammar T O α) : R.Part g (.reshape f g)
  | filter {α} (accept : α → Bool) (g : Grammar T O α) : R.Part g (.filter accept g)
  | chainFirst {α β γ} (g : Grammar T O α) (next : α → Grammar T O β) (combine : α → β → γ) :
      R.Part g (.chain g next combine)
  | chainNext {α β γ} (g : Grammar T O α) (next : α → Grammar T O β) (combine : α → β → γ)
      (a : α) : R.Part (next a) (.chain g next combine)
  | seqFirst {α β} (g : Grammar T O α) (h : Grammar T O β) : R.Part g (.seq g h)
  | seqSecond {α β} (g : Grammar T O α) (h : Grammar T O β) : R.Part h (.seq g h)
  | orElseFirst {α} (g h : Grammar T O α) : R.Part g (.orElse g h)
  | orElseSecond {α} (g h : Grammar T O α) : R.Part h (.orElse g h)
  | optional {α} (g : Grammar T O α) : R.Part g (.optional g)
  | notFollowedBy {α} (g : Grammar T O α) : R.Part g (.notFollowedBy g)
  | lookAhead {α} (g : Grammar T O α) : R.Part g (.lookAhead g)
  | betweenOpening {α β γ} (g : Grammar T O α) (h : Grammar T O β) (k : Grammar T O γ) :
      R.Part g (.between g h k)
  | betweenContent {α β γ} (g : Grammar T O α) (h : Grammar T O β) (k : Grammar T O γ) :
      R.Part h (.between g h k)
  | betweenClosing {α β γ} (g : Grammar T O α) (h : Grammar T O β) (k : Grammar T O γ) :
      R.Part k (.between g h k)
  | repeated {α} (b : Bounds) (g : Grammar T O α) : R.Part g (.repeated b g)
  | sepBy1Item {α β} (item : Grammar T O α) (sep : Grammar T O β) : R.Part item (.sepBy1 item sep)
  | sepBy1Separator {α β} (item : Grammar T O α) (sep : Grammar T O β) :
      R.Part sep (.sepBy1 item sep)
  | log {α} (message : String) (g : Grammar T O α) : R.Part g (.log message g)
  | tap {α} (label : String) (g : Grammar T O α) : R.Part g (.tap label g)
  | shared {α} (g : Grammar T O α) : R.Part g (.shared g)
  | rule (n : N) : R.Part (R.body n) (.rule n)

inductive Contains (R : Rules T O) (kind : {α : Type} → Grammar T O α → Bool) :
    {α : Type} → Grammar T O α → Prop where
  | here {α} {g : Grammar T O α} (h : kind g = true) : R.Contains @kind g
  | within {α β} {h : Grammar T O α} {g : Grammar T O β} (hp : R.Part h g)
      (hh : R.Contains @kind h) : R.Contains @kind g

theorem nested_isStandard (n : Unit) : (nested.body n).IsStandard := by
  simp [nested, bracketed, enclosed, IsStandard]

theorem nested_not_nullable (n : Unit) : ¬(nested.body n).Nullable (fun _ => False) := by
  simp [nested, bracketed, enclosed, Nullable]

end Rules
end TokenGrammar
