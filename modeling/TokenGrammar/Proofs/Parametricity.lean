import TokenGrammar.Grammar.Nested
import TokenGrammar.Grammar.Budget
import TokenGrammar.Proofs.Lockstep
import TokenGrammar.Token

/-! Tokens as a parameter. A standard grammar looks at tokens only through their equality and the
functions it is given. So if one grammar is made from another by putting related tokens, values and
functions in place of the first one's, parses of related sequences are in step. -/
namespace TokenGrammar
namespace Grammar
variable {T U N : Type} {O O' : N → Type}

/-- The grammars have the same shape. Their tokens are related by `S`, and their functions take
related arguments to related results; the values of rule `n` are related by `V n`, and those of the
grammars by the relation given last. -/
inductive Related (S : T → U → Prop) (V : (n : N) → O n → O' n → Prop) :
    {α β : Type} → (α → β → Prop) → Grammar T O α → Grammar U O' β → Prop where
  | anyToken : Related S V S .anyToken .anyToken
  | token {t : T} {u : U} (h : S t u) : Related S V S (.token t) (.token u)
  | succeed {α β} {A : α → β → Prop} {a : α} {b : β} (h : A a b) :
      Related S V A (.succeed a) (.succeed b)
  | map {α β α' β'} {A : α → β → Prop} {A' : α' → β' → Prop} {f : α → α'} {f' : β → β'}
      {g : Grammar T O α} {g' : Grammar U O' β} (hf : ∀ a b, A a b → A' (f a) (f' b))
      (hg : Related S V A g g') : Related S V A' (.map f g) (.map f' g')
  | reshape {α β α' β'} {A : α → β → Prop} {A' : α' → β' → Prop} {f : α → α'} {f' : β → β'}
      {g : Grammar T O α} {g' : Grammar U O' β} (hf : ∀ a b, A a b → A' (f a) (f' b))
      (hg : Related S V A g g') : Related S V A' (.reshape f g) (.reshape f' g')
  | filter {α β} {A : α → β → Prop} {accept : α → Bool} {accept' : β → Bool}
      {g : Grammar T O α} {g' : Grammar U O' β} (hf : ∀ a b, A a b → accept a = accept' b)
      (hg : Related S V A g g') : Related S V A (.filter accept g) (.filter accept' g')
  | chain {α β α' β' γ δ} {A : α → β → Prop} {A' : α' → β' → Prop} {B : γ → δ → Prop}
      {g : Grammar T O α} {g' : Grammar U O' β} {next : α → Grammar T O α'}
      {next' : β → Grammar U O' β'} {combine : α → α' → γ} {combine' : β → β' → δ}
      (hg : Related S V A g g') (hnext : ∀ a b, A a b → Related S V A' (next a) (next' b))
      (hcombine : ∀ a b a' b', A a b → A' a' b' → B (combine a a') (combine' b b')) :
      Related S V B (.chain g next combine) (.chain g' next' combine')
  | seq {α β α' β'} {A : α → β → Prop} {A' : α' → β' → Prop} {g : Grammar T O α}
      {g' : Grammar U O' β} {h : Grammar T O α'} {h' : Grammar U O' β'} (hg : Related S V A g g')
      (hh : Related S V A' h h') :
      Related S V (fun r s => A r.1 s.1 ∧ A' r.2 s.2) (.seq g h) (.seq g' h')
  | orElse {α β} {A : α → β → Prop} {g h : Grammar T O α} {g' h' : Grammar U O' β}
      (hg : Related S V A g g') (hh : Related S V A h h') :
      Related S V A (.orElse g h) (.orElse g' h')
  | optional {α β} {A : α → β → Prop} {g : Grammar T O α} {g' : Grammar U O' β}
      (hg : Related S V A g g') : Related S V (Option.Rel A) (.optional g) (.optional g')
  | notFollowedBy {α β} {A : α → β → Prop} {g : Grammar T O α} {g' : Grammar U O' β}
      (hg : Related S V A g g') : Related S V Eq (.notFollowedBy g) (.notFollowedBy g')
  | lookAhead {α β} {A : α → β → Prop} {g : Grammar T O α} {g' : Grammar U O' β}
      (hg : Related S V A g g') : Related S V A (.lookAhead g) (.lookAhead g')
  | between {α β α' β' γ δ} {A : α → β → Prop} {A' : α' → β' → Prop} {B : γ → δ → Prop}
      {g : Grammar T O α} {g' : Grammar U O' β} {h : Grammar T O α'} {h' : Grammar U O' β'}
      {k : Grammar T O γ} {k' : Grammar U O' δ} (hg : Related S V A g g')
      (hh : Related S V A' h h') (hk : Related S V B k k') :
      Related S V A' (.between g h k) (.between g' h' k')
  | repeated {α β} {A : α → β → Prop} {g : Grammar T O α} {g' : Grammar U O' β} (b : Bounds)
      (hg : Related S V A g g') : Related S V (List.Forall₂ A) (.repeated b g) (.repeated b g')
  | sepBy1 {α β α' β'} {A : α → β → Prop} {A' : α' → β' → Prop} {item : Grammar T O α}
      {item' : Grammar U O' β} {sep : Grammar T O α'} {sep' : Grammar U O' β'}
      (hitem : Related S V A item item') (hsep : Related S V A' sep sep') :
      Related S V (List.Forall₂ A) (.sepBy1 item sep) (.sepBy1 item' sep')
  | log {α β} {A : α → β → Prop} {g : Grammar T O α} {g' : Grammar U O' β} (message : String)
      (hg : Related S V A g g') : Related S V A (.log message g) (.log message g')
  | tap {α β} {A : α → β → Prop} {g : Grammar T O α} {g' : Grammar U O' β} (label : String)
      (hg : Related S V A g g') : Related S V A (.tap label g) (.tap label g')
  | shared {α β} {A : α → β → Prop} {g : Grammar T O α} {g' : Grammar U O' β}
      (hg : Related S V A g g') : Related S V A (.shared g) (.shared g')
  | rule (n : N) : Related S V (V n) (.rule n) (.rule n)

theorem Related.enclosed {S : T → U → Prop} {V : (n : N) → O n → O' n → Prop} {α β : Type}
    {A : α → β → Prop} {g : Grammar T O α} {g' : Grammar U O' β} {before after : T}
    {before' after' : U} (hbefore : S before before') (hg : Related S V A g g')
    (hafter : S after after') :
    Related S V A (.enclosed before g after) (.enclosed before' g' after') :=
  .between (.token hbefore) hg (.token hafter)

section InStep
variable [BEq T] [BEq U] {A : Alignment T U} {V : (n : N) → O n → O' n → Prop}

/-- If the parsers of the rules are in step, so are those of related grammars. -/
theorem parser_inStep {call : (n : N) → Parser T (O n)} {call' : (n : N) → Parser U (O' n)}
    (budget : Nat) (hcall : ∀ n, A.InStep (V n) (call n) (call' n)) {α β : Type}
    {B : α → β → Prop} {g : Grammar T O α} {g' : Grammar U O' β}
    (hg : Related A.related V B g g') :
    A.InStep B (g.parser call budget) (g'.parser call' budget) := by
  induction hg with
  | anyToken => exact Parser.anyToken_inStep
  | token h => exact Parser.token_inStep h
  | succeed h => exact fun i => .pure (.intro h i)
  | map hf hg ih =>
    intro i
    refine (ih i).bind ?_
    rintro _ _ ⟨hvalue, q⟩
    exact .emit_bind (.called .mapper) (.pure (.intro (hf _ _ hvalue) q))
  | reshape hf hg ih =>
    intro i
    refine (ih i).bind ?_
    rintro _ _ ⟨hvalue, q⟩
    exact .pure (.intro (hf _ _ hvalue) q)
  | filter hf hg ih =>
    intro i
    refine (ih i).bind ?_
    rintro _ _ ⟨hvalue, q⟩
    exact .emit_bind (.called .predicate)
      (.ite (hf _ _ hvalue) (.pure (.intro hvalue q)) (.fail .rejected))
  | chain hg hnext hcombine ih ihn =>
    intro i
    refine (ih i).bind ?_
    rintro _ _ ⟨hvalue, q⟩
    refine .emit_bind (.called .continuation) ((ihn _ _ hvalue q).bind ?_)
    rintro _ _ ⟨hvalue', q'⟩
    exact .emit_bind (.called .combiner) (.pure (.intro (hcombine _ _ _ _ hvalue hvalue') q'))
  | seq hg hh ihg ihh =>
    intro i
    refine (ihg i).bind ?_
    rintro _ _ ⟨hfirst, q⟩
    refine (ihh q).bind ?_
    rintro _ _ ⟨hsecond, q'⟩
    exact .pure (.intro ⟨hfirst, hsecond⟩ q')
  | orElse hg hh ihg ihh =>
    intro i
    refine (ihg i).attempt.bind fun o o' ho => ?_
    cases ho with
    | ok hr => exact .pure hr
    | error he => exact ihh i
  | optional hg ih =>
    intro i
    refine (ih i).attempt.bind fun o o' ho => ?_
    cases ho with
    | ok hr =>
      obtain ⟨hvalue, q⟩ := hr
      exact .pure (.intro (.some hvalue) q)
    | error he => exact .pure (.intro .none i)
  | notFollowedBy hg ih =>
    intro i
    refine (ih i).attempt.bind fun o o' ho => ?_
    cases ho with
    | ok hr => exact .fail (.unexpectedMatch i)
    | error he => exact .pure (.intro rfl i)
  | lookAhead hg ih =>
    intro i
    refine (ih i).bind ?_
    rintro _ _ ⟨hvalue, -⟩
    exact .pure (.intro hvalue i)
  | between hg hh hk ihg ihh ihk =>
    intro i
    refine (ihg i).bind ?_
    rintro _ _ ⟨-, q⟩
    refine (ihh q).bind ?_
    rintro _ _ ⟨hvalue, q'⟩
    refine (ihk q').bind ?_
    rintro _ _ ⟨-, q''⟩
    exact .pure (.intro hvalue q'')
  | repeated b hg ih => exact Parser.repeated_inStep ih b budget
  | sepBy1 hitem hsep ihi ihs => exact Parser.sepBy1_inStep ihi ihs budget
  | log message hg ih =>
    intro i
    refine (ih i).bind ?_
    rintro _ _ ⟨hvalue, q⟩
    exact .emit_bind (.logged message i q) (.pure (.intro hvalue q))
  | tap label hg ih =>
    intro i
    refine (ih i).bind fun _ _ hr => ?_
    exact .emit_bind (.tapped label) (.pure hr)
  | shared hg ih => exact ih
  | rule n => exact hcall n

end InStep
end Grammar

def Alignment.pointwise {T U : Type} [BEq T] [BEq U] (S : T → U → Prop)
    (hS : ∀ t t' u u', S t u → S t' u' → (t == t') = (u == u')) {ts : List T} {us : List U}
    (hts : List.Forall₂ S ts us) : Alignment T U where
  left := ts
  right := us
  offset := 0
  related := S
  trusted _ := True
  beq_eq := hS _ _ _ _
  tokens q _ := by
    induction hts generalizing q with
    | nil => exact .none
    | cons h hts ih =>
      cases q with
      | zero => exact .some h
      | succ q => simpa using ih q

namespace Rules
open Grammar
variable {T U N : Type} {O O' : N → Type} [BEq T] [BEq U] {V : (n : N) → O n → O' n → Prop}
  {R : Rules T O} {R' : Rules U O'} {α β : Type} {B : α → β → Prop}

section InStep
variable {A : Alignment T U} (hbody : ∀ n, Related A.related V (V n) (R.body n) (R'.body n))
  (hlabel : ∀ n, R.label n = R'.label n)
include hbody hlabel

theorem call_inStep (budget : Nat) (n : N) :
    A.InStep (V n) (R.call budget n) (R'.call budget n) := by
  induction budget generalizing n with
  | zero => exact fun _ => .exhausted
  | succ budget ih =>
    intro i
    have hparser := parser_inStep budget ih (hbody n) i
    unfold Rules.call
    rw [hlabel n]
    exact .emit_bind (.entered (R'.label n)) hparser

theorem parse_inStep (budget : Nat) {g : Grammar T O α} {g' : Grammar U O' β}
    (hg : Related A.related V B g g') : A.InStep B (R.parse budget g) (R'.parse budget g') :=
  parser_inStep budget (call_inStep hbody hlabel budget) hg

end InStep

/-- A grammar cannot tell related tokens apart. Let a grammar be made from another by putting
related tokens, values and functions in place of the first one's, where related tokens are equal
to each other in the same cases. On sequences whose tokens are related one by one, both parses come
to their end or neither does, and then they match: in their values and places or their failures,
and in their events. -/
theorem related_parses_agree (S : T → U → Prop)
    (hS : ∀ t t' u u', S t u → S t' u' → (t == t') = (u == u'))
    (V : (n : N) → O n → O' n → Prop) (R : Rules T O) (R' : Rules U O')
    (hbody : ∀ n, Related S V (V n) (R.body n) (R'.body n)) (hlabel : ∀ n, R.label n = R'.label n)
    (B : α → β → Prop) (g : Grammar T O α) (g' : Grammar U O' β) (hg : Related S V B g g')
    (ts : List T) (us : List U) (hts : List.Forall₂ S ts us) (p : Nat) :
    ((∃ x, R.Yields g ⟨ts, p⟩ x) ↔ ∃ y, R'.Yields g' ⟨us, p⟩ y) ∧
    ∀ x y, R.Yields g ⟨ts, p⟩ x → R'.Yields g' ⟨us, p⟩ y → x.Matches S 0 (fun r s =>
      B r.1 s.1 ∧ r.2.source = ts ∧ s.2.source = us ∧ r.2.position = s.2.position) y := by
  let A : Alignment T U := .pointwise S hS hts
  have hmatches : ∀ budget, (R.parse budget g ⟨ts, p⟩).Matches S 0 (A.Answers B)
      (R'.parse budget g' ⟨us, p⟩) := fun budget =>
    parse_inStep (A := A) hbody hlabel budget hg p fun _ _ => trivial
  obtain ⟨hends, hagree⟩ := yields_related (fun x y => x.Matches S 0 (A.Answers B) y)
    (fun _ _ h => h.ended_iff) hmatches
  refine ⟨hends, fun x y hx hy => (hagree x y hx hy).mono ?_⟩
  rintro _ _ ⟨hvalue, q⟩
  exact ⟨hvalue, rfl, rfl, rfl⟩

theorem bracketed_related {T U : Type} {S : T → U → Prop} {atom before after : T}
    {atom' before' after' : U} (hatom : S atom atom') (hbefore : S before before')
    (hafter : S after after') (n : Unit) :
    Related S (fun _ => Eq) Eq ((bracketed atom before after).body n)
      ((bracketed atom' before' after').body n) :=
  .shared (.orElse (.map (fun _ _ _ => rfl) (.token hatom))
    (.map (fun _ _ h => congrArg (· + 1) h) (.enclosed hbefore (.rule ()) hafter)))

/-- Lexemes are as good as their kinds, whatever texts they have: a row of nested brackets is read
alike from both, it is stopped by corresponding tokens, and the token behind it is the one that
stands there, with its own text. -/
theorem bracketed_lexemes_agree :
    let ts : List Lexeme := [⟨"(", "["⟩, ⟨"x", "y"⟩, ⟨")", "]"⟩, ⟨",", ";"⟩]
    let us := ["(", "x", ")", ","]
    let x := (bracketed (⟨"x", ""⟩ : Lexeme) ⟨"(", ""⟩ ⟨")", ""⟩).parse 9
      (.seq (.star (.rule ())) .anyToken) ⟨ts, 0⟩
    let y := (bracketed "x" "(" ")").parse 9 (.seq (.star (.rule ())) .anyToken) ⟨us, 0⟩
    x.outcome? = some (.ok (([1], ⟨",", ";"⟩), ⟨ts, 4⟩)) ∧
      x.Matches (fun t kind => t.kind = kind) 0 (fun r s =>
        (List.Forall₂ Eq r.1.1 s.1.1 ∧ r.1.2.kind = s.1.2) ∧
          r.2.source = ts ∧ s.2.source = us ∧ r.2.position = s.2.position) y := by
  intro ts us x y
  have hagree := related_parses_agree (fun (t : Lexeme) kind => t.kind = kind)
    (by rintro t t' _ _ rfl rfl; rfl) (fun _ => Eq)
    (bracketed ⟨"x", ""⟩ ⟨"(", ""⟩ ⟨")", ""⟩) (bracketed "x" "(" ")")
    (bracketed_related rfl rfl rfl) (fun _ => rfl) _ (.seq (.star (.rule ())) .anyToken)
    (.seq (.star (.rule ())) .anyToken) (.seq (.repeated _ (.rule ())) .anyToken) ts us
    (.cons rfl (.cons rfl (.cons rfl (.cons rfl .nil)))) 0
  exact ⟨rfl, hagree.2 x y ⟨rfl, 9, rfl⟩ ⟨rfl, 9, rfl⟩⟩

end Rules
end TokenGrammar
