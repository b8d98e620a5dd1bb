import TokenGrammar.Grammar
import TokenGrammar.Proofs.Ensures
import TokenGrammar.Token

/-! Where the tokens go. If a grammar only pairs, lists and chooses among what its parts read, the
tokens in its value, from left to right, are those between the cursor where the parse started and
the one that it answered with: none is lost, added or replaced by one that it equals. -/
namespace TokenGrammar

/-- Where tokens occur in the values of a type. -/
inductive Layout (T : Type) : Type → Type 1 where
  | token : Layout T T
  | plain {α : Type} : Layout T α
  | option {α : Type} (l : Layout T α) : Layout T (Option α)
  | pair {α β : Type} (l : Layout T α) (m : Layout T β) : Layout T (α × β)
  | list {α : Type} (l : Layout T α) : Layout T (List α)

def Layout.tokens {T α : Type} : Layout T α → α → List T
  | token, t => [t]
  | plain, _ => []
  | option l, o => o.elim [] l.tokens
  | pair l m, r => l.tokens r.1 ++ m.tokens r.2
  | list l, as => as.flatMap l.tokens

namespace Cursor
variable {T : Type}

/-- The second cursor stands behind the first one in the same sequence, with these tokens between
them. -/
structure Covers (c : Cursor T) (ts : List T) (c' : Cursor T) : Prop where
  source : c'.source = c.source
  position : c'.position = c.position + ts.length
  remaining : c.remaining = ts ++ c'.remaining

theorem Covers.refl (c : Cursor T) : c.Covers [] c := ⟨rfl, rfl, rfl⟩

theorem Covers.trans {c c' c'' : Cursor T} {ts us : List T} (h : c.Covers ts c')
    (h' : c'.Covers us c'') : c.Covers (ts ++ us) c'' where
  source := h'.source.trans h.source
  position := by rw [h'.position, h.position, List.length_append, Nat.add_assoc]
  remaining := by rw [h.remaining, h'.remaining, List.append_assoc]

theorem covers_advance {c : Cursor T} {t : T} (h : c.peek? = some t) :
    c.Covers [t] c.advance where
  source := rfl
  position := rfl
  remaining := by
    obtain ⟨hlt, rfl⟩ := List.getElem?_eq_some_iff.mp h
    exact List.drop_eq_getElem_cons hlt

theorem covers_nil_iff {c c' : Cursor T} : c.Covers [] c' ↔ c' = c := by
  constructor
  · obtain ⟨source, position⟩ := c
    obtain ⟨source', position'⟩ := c'
    rintro ⟨hsource, hposition, -⟩
    simp only at hsource hposition
    rw [hsource, hposition, List.length_nil, Nat.add_zero]
  · rintro rfl
    exact .refl c'

theorem covers_cons_iff {c c' : Cursor T} {t : T} {ts : List T} :
    c.Covers (t :: ts) c' ↔ c.peek? = some t ∧ c.advance.Covers ts c' := by
  constructor
  · rintro ⟨hsource, hposition, hremaining⟩
    refine ⟨?_, hsource, ?_, ?_⟩
    · rw [← head?_remaining, hremaining]
      rfl
    · rw [hposition, position_advance, List.length_cons]
      omega
    · rw [remaining_advance, hremaining]
      rfl
  · rintro ⟨hpeek, hlater⟩
    exact (covers_advance hpeek).trans hlater

theorem Covers.cut {c c' : Cursor T} {ts us : List T} (h : c.Covers (ts ++ us) c') :
    ∃ d, c.Covers ts d ∧ d.Covers us c' := by
  induction ts generalizing c with
  | nil => exact ⟨c, .refl c, h⟩
  | cons t ts ih =>
    obtain ⟨hpeek, hlater⟩ := covers_cons_iff.mp h
    obtain ⟨d, hfirst, hsecond⟩ := ih hlater
    exact ⟨d, covers_cons_iff.mpr ⟨hpeek, hfirst⟩, hsecond⟩

theorem Covers.cut_cons {c c' : Cursor T} {t : T} {ts us : List T}
    (h : c.Covers (ts ++ t :: us) c') :
    ∃ d, c.Covers ts d ∧ d.peek? = some t ∧ d.advance.Covers us c' := by
  obtain ⟨d, hfirst, hsecond⟩ := h.cut
  exact ⟨d, hfirst, covers_cons_iff.mp hsecond⟩

theorem Covers.length_remaining {c c' : Cursor T} {ts : List T} (h : c.Covers ts c') :
    c.remaining.length = ts.length + c'.remaining.length := by
  rw [h.remaining, List.length_append]

theorem covers_iff_prefix {c c' : Cursor T} {ts : List T} :
    c.Covers ts c' ↔ c' = ⟨c.source, c.position + ts.length⟩ ∧ ts <+: c.remaining := by
  constructor
  · obtain ⟨source', position'⟩ := c'
    rintro ⟨rfl, rfl, hremaining⟩
    exact ⟨rfl, _, hremaining.symm⟩
  · rintro ⟨rfl, us, hus⟩
    refine ⟨rfl, rfl, ?_⟩
    have hbehind : (c.remaining).drop ts.length = us := by rw [← hus, List.drop_left]
    rw [← hus, ← hbehind, remaining, remaining, List.drop_drop]

theorem Covers.eq_extract {c c' : Cursor T} {ts : List T} (h : c.Covers ts c') :
    ts = c.source.extract c.position c'.position := by
  have hremaining : c.source.drop c.position = ts ++ c'.remaining := h.remaining
  rw [List.extract_eq_take_drop, hremaining, h.position, Nat.add_sub_cancel_left,
    List.take_left]

end Cursor

namespace Grammar
variable {T N : Type} {O : N → Type}

/-- Grammars that hand on all tokens that they read, and in what places of their values, given those
for the values of the rules. -/
inductive Conserves (L : (n : N) → Layout T (O n)) :
    {α : Type} → Layout T α → Grammar T O α → Prop where
  | anyToken : Conserves L .token .anyToken
  | token (t : T) : Conserves L .token (.token t)
  | succeed {α} {l : Layout T α} {a : α} (ha : l.tokens a = []) : Conserves L l (.succeed a)
  | filter {α} {l : Layout T α} {g : Grammar T O α} (accept : α → Bool) (hg : Conserves L l g) :
      Conserves L l (.filter accept g)
  | chain {α β} {l : Layout T α} {m : Layout T β} {g : Grammar T O α} {next : α → Grammar T O β}
      (hg : Conserves L l g) (hnext : ∀ a, Conserves L m (next a)) :
      Conserves L (l.pair m) (.chain g next Prod.mk)
  | seq {α β} {l : Layout T α} {m : Layout T β} {g : Grammar T O α} {h : Grammar T O β}
      (hg : Conserves L l g) (hh : Conserves L m h) : Conserves L (l.pair m) (.seq g h)
  | orElse {α} {l : Layout T α} {g h : Grammar T O α} (hg : Conserves L l g)
      (hh : Conserves L l h) : Conserves L l (.orElse g h)
  | optional {α} {l : Layout T α} {g : Grammar T O α} (hg : Conserves L l g) :
      Conserves L l.option (.optional g)
  | notFollowedBy {α} (g : Grammar T O α) : Conserves L .plain (.notFollowedBy g)
  | repeated {α} {l : Layout T α} {g : Grammar T O α} (b : Bounds) (hg : Conserves L l g) :
      Conserves L l.list (.repeated b g)
  | log {α} {l : Layout T α} {g : Grammar T O α} (message : String) (hg : Conserves L l g) :
      Conserves L l (.log message g)
  | tap {α} {l : Layout T α} {g : Grammar T O α} (label : String) (hg : Conserves L l g) :
      Conserves L l (.tap label g)
  | shared {α} {l : Layout T α} {g : Grammar T O α} (hg : Conserves L l g) :
      Conserves L l (.shared g)
  | rule (n : N) : Conserves L (L n) (.rule n)

end Grammar

namespace Parser
open Run
variable {T α : Type} {l : Layout T α} {p : Parser T α}

/-- The tokens in the value of a success are those that were read for it. -/
def Conserved (l : Layout T α) (c : Cursor T) : Outcome T (α × Cursor T) → Prop
  | .ok r => c.Covers (l.tokens r.1) r.2
  | .error _ => True

def Conserving (l : Layout T α) (p : Parser T α) : Prop :=
  ∀ c, (p c).Ensures (fun _ => True) (Conserved l c)

theorem conserving_anyToken : Conserving .token (anyToken : Parser T T) := by
  intro c
  cases h : c.peek? with
  | none => exact .of_eq (anyToken_of_end h) (by simp) trivial
  | some t => exact .of_eq (anyToken_of_peek? h) (by simp) (Cursor.covers_advance h)

theorem conserving_token [BEq T] (expected : T) : Conserving .token (token expected) := by
  intro c
  refine (conserving_anyToken c).bind (fun r hr => ?_) (fun _ _ => trivial)
  split
  · exact .pure hr
  · exact .fail trivial

theorem conserving_repeated (hp : Conserving l p) (b : Bounds) (budget : Nat) :
    Conserving l.list (repeated b p budget) := by
  intro c
  -- The invariant is about what the loop gathers from each cursor on, not about what it has.
  have hgathered : (attempts b p budget 0 c).Ensures (fun _ => True)
      (fun o => ∃ h, o = .ok h ∧ c.Covers (l.list.tokens h.items) h.rest) := by
    refine attempts_ensures (I := fun _ => True) (P := Conserved l)
      (Q := fun _ c h => c.Covers (l.list.tokens h.items) h.rest) (fun c _ => hp c)
      (fun _ _ _ _ => trivial) (fun _ c _ _ => .refl c) (fun _ c _ _ _ => ⟨trivial, .refl c⟩)
      ?_ budget 0 c trivial
    intro k c r h _ hr hlater
    exact Cursor.Covers.trans hr hlater
  refine hgathered.bind_ok fun h hcovers => .ofOutcome ?_
  unfold Harvest.judge
  split
  · trivial
  · split
    · exact hcovers
    · trivial

end Parser

namespace Grammar
variable {T N : Type} {O : N → Type} {α : Type} [BEq T] {L : (n : N) → Layout T (O n)}
open TokenGrammar.Parser

/-- If the parsers of the rules hand on what they read, so do those of conserving grammars. -/
theorem parser_conserving {call : (n : N) → Parser T (O n)} (budget : Nat)
    (hcall : ∀ n, Conserving (L n) (call n)) {l : Layout T α} {g : Grammar T O α}
    (hg : Conserves L l g) : Conserving l (g.parser call budget) := by
  induction hg with
  | anyToken => exact conserving_anyToken
  | token t => exact conserving_token t
  | @succeed α l a ha =>
    intro c
    have hcovers : c.Covers (l.tokens a) c := by
      rw [ha]
      exact .refl c
    exact .pure hcovers
  | filter accept hg ih =>
    intro c
    refine (ih c).bind (fun r hr => .emit_bind trivial ?_) (fun _ _ => trivial)
    split
    · exact .pure hr
    · exact .fail trivial
  | chain hg hnext ih ihn =>
    intro c
    refine (ih c).bind (fun r hr => .emit_bind trivial ?_) (fun _ _ => trivial)
    refine (ihn r.1 r.2).bind (fun s hs => .emit_bind trivial (.pure ?_)) (fun _ _ => trivial)
    exact Cursor.Covers.trans hr hs
  | seq hg hh ihg ihh =>
    intro c
    refine (ihg c).bind (fun r hr => ?_) (fun _ _ => trivial)
    refine (ihh r.2).bind (fun s hs => .pure ?_) (fun _ _ => trivial)
    exact Cursor.Covers.trans hr hs
  | orElse hg hh ihg ihh =>
    intro c
    refine (ihg c).attempt_bind fun o ho => ?_
    cases o with
    | ok r => exact .pure ho
    | error e => exact ihh c
  | optional hg ih =>
    intro c
    refine (ih c).attempt_bind fun o ho => ?_
    cases o with
    | ok r => exact .pure ho
    | error e => exact .pure (.refl c)
  | notFollowedBy g =>
    intro c
    have hany : (g.parser call budget c).Ensures (fun _ => True) (fun _ => True) :=
      ⟨fun _ _ => trivial, fun _ _ => trivial⟩
    refine hany.attempt_bind fun o _ => ?_
    cases o with
    | ok r => exact .fail trivial
    | error e => exact .pure (.refl c)
  | repeated b hg ih => exact conserving_repeated ih b budget
  | log message hg ih | tap label hg ih =>
    intro c
    exact (ih c).bind (fun r hr => .emit_bind trivial (.pure hr)) (fun _ _ => trivial)
  | shared hg ih => exact ih
  | rule n => exact hcall n

end Grammar

namespace Rules
variable {T N : Type} {O : N → Type} {α : Type} [BEq T] {L : (n : N) → Layout T (O n)}
  {R : Rules T O}
open Grammar TokenGrammar.Parser

section Conserves
variable (hR : ∀ n, Conserves L (L n) (R.body n))
include hR

theorem call_conserving (budget : Nat) (n : N) : Conserving (L n) (R.call budget n) := by
  induction budget generalizing n with
  | zero => exact fun _ => .exhausted
  | succ budget ih =>
    have hbody : Conserving (L n) ((R.body n).parser (R.call budget) budget) :=
      parser_conserving budget ih (hR n)
    exact fun c => .emit_bind trivial (hbody c)

theorem parse_conserving (budget : Nat) {l : Layout T α} {g : Grammar T O α}
    (hg : Conserves L l g) : Conserving l (R.parse budget g) :=
  parser_conserving budget (call_conserving hR budget) hg

theorem tokens_of_runComplete (budget : Nat) {l : Layout T α} {g : Grammar T O α}
    (hg : Conserves L l g) {ts : List T} {a : α}
    (h : ((R.parse budget g).runComplete ts).outcome? = some (.ok a)) : l.tokens a = ts := by
  have hall : ((R.parse budget g).runComplete ts).Ensures (fun _ => True)
      (fun o => ∀ a, o = .ok a → l.tokens a = ts) := by
    refine (parse_conserving hR budget hg (.start ts)).bind (fun r hr => ?_) (by simp)
    have hcovers : (Cursor.start ts).Covers (l.tokens r.1) r.2 := hr
    cases hpeek : r.2.peek? with
    | some t => exact .fail (by simp)
    | none =>
      have hend : r.2.remaining = [] := by
        rw [← List.head?_eq_none_iff, Cursor.head?_remaining, hpeek]
      have htokens : ts = l.tokens r.1 := by
        simpa [hend] using hcovers.remaining
      refine .pure fun a ha => ?_
      cases ha
      exact htokens.symm
  exact hall.outcome _ h a rfl

end Conserves

/-- The tokens in the value of a parse are, from left to right, the very tokens of the sequence from
the start of the parse up to where it ended; after a complete parse they are all of them. -/
theorem tokens_conserved (R : Rules T O) (L : (n : N) → Layout T (O n))
    (hR : ∀ n, Conserves L (L n) (R.body n)) (l : Layout T α) (g : Grammar T O α)
    (hg : Conserves L l g) (budget : Nat) (ts : List T) :
    (∀ p ≤ ts.length, ∀ a c, (R.parse budget g ⟨ts, p⟩).outcome? = some (.ok (a, c)) →
      c.source = ts ∧ p ≤ c.position ∧ c.position ≤ ts.length ∧
        l.tokens a = ts.extract p c.position) ∧
    (∀ a, ((R.parse budget g).runComplete ts).outcome? = some (.ok a) → l.tokens a = ts) := by
  refine ⟨fun p hp a c ho => ?_, fun a ho => tokens_of_runComplete hR budget hg ho⟩
  have hcovers : Cursor.Covers ⟨ts, p⟩ (l.tokens a) c :=
    (parse_conserving hR budget hg ⟨ts, p⟩).outcome _ ho
  have hposition : c.position = p + (l.tokens a).length := hcovers.position
  have hlength := congrArg List.length hcovers.remaining
  simp only [Cursor.length_remaining, List.length_append] at hlength
  exact ⟨hcovers.source, by omega, by omega, hcovers.eq_extract⟩

def names : Rules Lexeme (fun _ : Unit => List Lexeme) where
  body _ := .plus (.token ⟨"name", "?"⟩)
  label _ := "names"

/-- Names are asked for by their kind alone, and still come with their own texts, as does the mark
that ends them. -/
theorem names_conserved :
    let ts : List Lexeme := [⟨"comma", ","⟩, ⟨"name", "a"⟩, ⟨"name", "b"⟩, ⟨"end", ";"⟩]
    let g : Grammar Lexeme (fun _ : Unit => List Lexeme) (List Lexeme × Option Lexeme × Unit) :=
      .seq (.rule ()) (.seq (.optional (.token ⟨"end", "?"⟩)) .endOfInput)
    let l : Layout Lexeme (List Lexeme × Option Lexeme × Unit) :=
      .pair (.list .token) (.pair (.option .token) .plain)
    let a := ([⟨"name", "a"⟩, ⟨"name", "b"⟩], some ⟨"end", ";"⟩, ())
    (names.parse 9 g ⟨ts, 1⟩).outcome? = some (.ok (a, ⟨ts, 4⟩)) ∧ l.tokens a = ts.extract 1 4 ∧
      ((names.parse 9 g).runComplete (ts.drop 1)).outcome? = some (.ok a) ∧
      l.tokens a = ts.drop 1 := by
  intro ts g l a
  have hbody : ∀ n, Conserves (fun _ => .list .token) (.list .token) (names.body n) :=
    fun _ => .repeated _ (.token _)
  have hg : Conserves (fun _ => .list .token) l g :=
    .seq (.rule ()) (.seq (.optional (.token _)) (.notFollowedBy _))
  have hconserved := tokens_conserved names _ hbody l g hg 9
  have hpart := (hconserved ts).1 1 (by decide) a ⟨ts, 4⟩ rfl
  exact ⟨rfl, hpart.2.2.2, rfl, (hconserved (ts.drop 1)).2 a rfl⟩

end Rules
end TokenGrammar
