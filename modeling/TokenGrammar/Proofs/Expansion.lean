import TokenGrammar.Grammar.Budget
import TokenGrammar.Grammar.Nested
import TokenGrammar.Proofs.Chains

/-! Derived combinators. Sequences, brackets and maps are chains, an optional part is a choice
between the part and nothing, a token that passes a test is any token behind a filter, and the end
of the input is the absence of a token. A grammar in which they are spelled out in this way comes
to the same end as before, and shows the same events but for calls of functions. -/
namespace TokenGrammar

namespace Parser
open Run
variable {T α β γ : Type}

theorem link_pair (p : Parser T α) (q : Parser T β) :
    link p (fun _ => q) Prod.mk = seq p q := rfl

theorem link_between (p : Parser T α) (q : Parser T β) (r : Parser T γ) :
    link (link p (fun _ => q) (fun _ b => b)) (fun _ => r) (fun b _ => b) = between p q r := by
  funext c
  simp only [link, between, bind_assoc, pure_bind]

theorem orElse_succeed_none (p : Parser T α) :
    orElse (reshape some p) (succeed none) = optional p := by
  funext c
  rcases h : (p c).outcome? with _ | e | r
  · have hpart : reshape some p c = ⟨none, (p c).events, (p c).reads⟩ := bind_of_none h _
    rw [orElse, hpart, optional, bind_of_none (attempt_of_none h), bind_of_none rfl]
    rfl
  · have hpart : reshape some p c = ⟨some (.error e), (p c).events, (p c).reads⟩ :=
      bind_of_error h _
    rw [orElse_of_error (congrArg outcome? hpart), optional_of_error h, hpart]
    simp [succeed]
  · have hpart : reshape some p c = ⟨some (.ok (some r.1, r.2)), (p c).events, (p c).reads⟩ := by
      rw [reshape, bind_of_ok h]
      simp
    rw [orElse_of_ok (congrArg outcome? hpart), optional_of_ok h, hpart]

theorem observed_after_congr {p q : Parser T α}
    (f : Cursor T → α × Cursor T → Run T (β × Cursor T))
    (h : observed Event.isNoCall p = observed Event.isNoCall q) :
    observed Event.isNoCall (fun c => p c >>= f c) =
      observed Event.isNoCall (fun c => q c >>= f c) :=
  funext fun c => observed_bind_congr (congrFun h c) fun _ => rfl

end Parser

namespace Grammar
variable {T N : Type} {O : N → Type} {α : Type}

/-- The grammar with its derived combinators spelled out, those in what a chain goes on with as
well. -/
def expand {α : Type} : Grammar T O α → Grammar T O α
  | anyToken => anyToken
  | token t => token t
  | succeed a => succeed a
  | custom step => custom step
  | map f g => chain g.expand (fun _ => succeed ()) (fun a _ => f a)
  | reshape f g => reshape f g.expand
  | filter accept g => filter accept g.expand
  | chain g next combine => chain g.expand (fun a => (next a).expand) combine
  | seq g h => chain g.expand (fun _ => h.expand) Prod.mk
  | orElse g h => orElse g.expand h.expand
  | optional g => orElse (map some g.expand) (succeed none)
  | notFollowedBy g => notFollowedBy g.expand
  | lookAhead g => lookAhead g.expand
  | between g h k =>
    chain (chain g.expand (fun _ => h.expand) (fun _ b => b)) (fun _ => k.expand) (fun b _ => b)
  | repeated b g => repeated b g.expand
  | sepBy1 item sep => sepBy1 item.expand sep.expand
  | log message g => log message g.expand
  | tap label g => tap label g.expand
  | shared g => shared g.expand
  | rule n => rule n

/-- No sequence, bracket or optional part is left. A map may be, as optional parts are spelled out
with it. -/
def IsSpelledOut {α : Type} : Grammar T O α → Prop
  | anyToken | token _ | succeed _ | custom _ | rule _ => True
  | seq _ _ | between _ _ _ | optional _ => False
  | map _ g | reshape _ g | filter _ g | notFollowedBy g | lookAhead g | repeated _ g | log _ g |
    tap _ g | shared g => g.IsSpelledOut
  | chain g next _ => g.IsSpelledOut ∧ ∀ a, (next a).IsSpelledOut
  | orElse g h | sepBy1 g h => g.IsSpelledOut ∧ h.IsSpelledOut

theorem isSpelledOut_expand {α : Type} (g : Grammar T O α) : g.expand.IsSpelledOut := by
  induction g <;> simp_all [expand, IsSpelledOut]

@[simp] theorem expand_satisfy (accept : T → Bool) :
    (satisfy accept : Grammar T O T).expand = filter accept anyToken := rfl

@[simp] theorem expand_endOfInput :
    (endOfInput : Grammar T O Unit).expand = notFollowedBy anyToken := rfl

@[simp] theorem expand_enclosed (before : T) (g : Grammar T O α) (after : T) :
    (enclosed before g after).expand = chain (chain (token before) (fun _ => g.expand)
      (fun _ b => b)) (fun _ => token after) (fun b _ => b) := rfl

section Parser
open TokenGrammar.Parser
variable [BEq T] {call call' : (n : N) → Parser T (O n)}

/-- If the parsers of the rules look alike but for calls, so do the parser of a grammar and that of
the grammar spelled out. -/
theorem observed_expand (budget : Nat)
    (hcall : ∀ n, observed Event.isNoCall (call' n) = observed Event.isNoCall (call n)) {α : Type}
    (g : Grammar T O α) : observed Event.isNoCall (g.expand.parser call' budget) =
      observed Event.isNoCall (g.parser call budget) := by
  induction g with
  | anyToken | token t | succeed a | custom step => rfl
  | map f g ih =>
    simp only [expand, parser, observed_chain_unseen, observed_map_unseen, observed_succeed, ih,
      link_succeed]
  | seq g h ihg ihh =>
    simp only [expand, parser, observed_chain_unseen, observed_seq, ihg, ihh, link_pair]
  | between g h k ihg ihh ihk =>
    simp only [expand, parser, observed_chain_unseen, observed_between, ihg, ihh, ihk,
      link_between]
  | optional g ih =>
    simp only [expand, parser, observed_orElse, observed_map_unseen, observed_succeed,
      observed_optional, ih, orElse_succeed_none]
  | reshape f g ih => simp only [expand, parser, observed_reshape, ih]
  | chain g next combine ih ihn => simp only [expand, parser, observed_chain_unseen, ih, ihn]
  | orElse g h ihg ihh => simp only [expand, parser, observed_orElse, ihg, ihh]
  | notFollowedBy g ih => simp only [expand, parser, observed_notFollowedBy, ih]
  | lookAhead g ih => simp only [expand, parser, observed_lookAhead, ih]
  | repeated b g ih =>
    simp only [expand, parser, observed_repeated Event.isNoCall_stopped, ih]
  | sepBy1 item sep ihi ihs => simp only [expand, parser, observed_sepBy1, ihi, ihs]
  | filter accept g ih | log message g ih | tap label g ih => exact observed_after_congr _ ih
  | shared g ih => exact ih
  | rule n => exact hcall n

end Parser
end Grammar

namespace Rules
variable {T N : Type} {O : N → Type} {α : Type}

def expand (R : Rules T O) : Rules T O where
  body n := (R.body n).expand
  label := R.label

variable [BEq T]

theorem observed_call_expand (R : Rules T O) (budget : Nat) (n : N) :
    Parser.observed Event.isNoCall (R.expand.call budget n) =
      Parser.observed Event.isNoCall (R.call budget n) := by
  induction budget generalizing n with
  | zero => rfl
  | succ budget ih =>
    funext c
    have hbody := congrFun (Grammar.observed_expand budget ih (R.body n)) c
    exact Run.observed_bind_congr rfl fun _ => hbody

/-- The derived combinators, each with what it is spelled out as, wherever it stands. Spelling them
out in a grammar and in its rules makes no difference to a parse: it comes to its end as before,
with the same value and cursor or the same failure, and with the same events but for calls of
functions. -/
theorem expansion_agrees (R : Rules T O) (g : Grammar T O α) (c : Cursor T) :
    (∀ accept, (Grammar.satisfy accept : Grammar T O T).expand = .filter accept .anyToken) ∧
    (Grammar.endOfInput : Grammar T O Unit).expand = .notFollowedBy .anyToken ∧
    (∀ {β : Type} (before : T) (h : Grammar T O β) (after : T),
      (Grammar.enclosed before h after).expand = .chain (.chain (.token before)
        (fun _ => h.expand) (fun _ b => b)) (fun _ => .token after) (fun b _ => b)) ∧
    (∀ {β γ : Type} (h : Grammar T O β) (k : Grammar T O γ),
      (Grammar.seq h k).expand = .chain h.expand (fun _ => k.expand) Prod.mk) ∧
    (∀ {β γ δ : Type} (h : Grammar T O β) (k : Grammar T O γ) (l : Grammar T O δ),
      (Grammar.between h k l).expand = .chain (.chain h.expand (fun _ => k.expand)
        (fun _ d => d)) (fun _ => l.expand) (fun d _ => d)) ∧
    (∀ {β : Type} (h : Grammar T O β),
      (Grammar.optional h).expand = .orElse (.map some h.expand) (.succeed none)) ∧
    (∀ {β γ : Type} (f : β → γ) (h : Grammar T O β),
      (Grammar.map f h).expand = .chain h.expand (fun _ => .succeed ()) (fun b _ => f b)) ∧
    (∀ {β : Type} (h : Grammar T O β), h.expand.IsSpelledOut) ∧
    (∀ n, R.expand.body n = (R.body n).expand) ∧
    ((∃ x, R.Yields g c x) ↔ ∃ y, R.expand.Yields g.expand c y) ∧
    ∀ x y, R.Yields g c x → R.expand.Yields g.expand c y → y.outcome? = x.outcome? ∧
      y.events.filter Event.isNoCall = x.events.filter Event.isNoCall := by
  have hparse : ∀ budget, (R.expand.parse budget g.expand c).observed Event.isNoCall =
      (R.parse budget g c).observed Event.isNoCall := fun budget =>
    congrFun (Grammar.observed_expand budget (R.observed_call_expand budget) g) c
  obtain ⟨hends, hagree⟩ := yields_related
    (fun x y => y.observed Event.isNoCall = x.observed Event.isNoCall)
    (fun x y h => by rw [Run.outcome?_eq_of_observed h]) hparse
  refine ⟨Grammar.expand_satisfy, Grammar.expand_endOfInput, Grammar.expand_enclosed,
    fun _ _ => rfl, fun _ _ _ => rfl, fun _ => rfl, fun _ _ => rfl, Grammar.isSpelledOut_expand,
    fun _ => rfl, hends, fun x y hx hy => ?_⟩
  have h := hagree x y hx hy
  exact ⟨Run.outcome?_eq_of_observed h, Run.filter_events_eq_of_observed h⟩

def signed : Grammar String (fun _ : Unit => Nat) ((Option String × List Nat) × Unit) :=
  .seq (.seq (.optional (.satisfy (· == "-"))) (.enclosed "|" groups "|")) .endOfInput

/-- There is no sign, and something stands behind the second bar. -/
theorem signed_expansion_agrees :
    let c : Cursor String := ⟨["|", "(", "x", ")", "|", "?"], 0⟩
    let spelled : Grammar String (fun _ : Unit => Nat) ((Option String × List Nat) × Unit) :=
      .chain (.chain (.orElse (.map some (.filter (· == "-") .anyToken)) (.succeed none))
        (fun _ => .chain (.chain (.token "|") (fun _ => groups) (fun _ b => b))
          (fun _ => .token "|") (fun b _ => b)) Prod.mk)
        (fun _ => .notFollowedBy .anyToken) Prod.mk
    let x := nested.parse 9 signed c
    let y := nested.expand.parse 9 spelled c
    signed.expand = spelled ∧ x.outcome? = some (.error (.unexpectedMatch 5)) ∧
      x.events.filter Event.isNoCall = [.entered "nested", .entered "nested",
        .logged "group" 1 4, .entered "nested", .stopped (.unexpectedToken "(" "|" 4) 4 1] ∧
      y.outcome? = x.outcome? ∧
      y.events.filter Event.isNoCall = x.events.filter Event.isNoCall := by
  intro c spelled x y
  obtain ⟨hsatisfy, hend, henclosed, hseq, -, hoptional, -, -, -, -, hsame⟩ :=
    expansion_agrees nested signed c
  have hspelled : signed.expand = spelled := by
    rw [signed, hseq, hseq, hoptional, hsatisfy, henclosed, hend]
    rfl
  have hy : nested.expand.Yields signed.expand c y := by
    rw [hspelled]
    exact ⟨rfl, 9, rfl⟩
  exact ⟨hspelled, rfl, by decide, hsame x y ⟨rfl, 9, rfl⟩ hy⟩

end Rules
end TokenGrammar
