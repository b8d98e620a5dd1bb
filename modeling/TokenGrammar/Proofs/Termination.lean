import Mathlib.Data.Fintype.Card
import Mathlib.Data.Fintype.EquivFin
import TokenGrammar.Proofs.Settling
import TokenGrammar.Proofs.Soundness

/-! Grammars whose every parse comes to its end. It is enough that no rule leads back to itself
before a token must have been read, that what is repeated without a bound reads something, and
that so does an item or a separator of each separated list. Between two tokens only finitely
many rules are then entered, and only finitely many tokens are left. -/
namespace TokenGrammar
namespace Run
variable {T α β : Type} {F : Nat → Run T α}

def Ends (F : Nat → Run T α) : Prop := ∃ o, Settles F o

theorem Ends.bind {G : Nat → α → Run T β} (hF : Ends F)
    (hG : ∀ a, Settles F (.ok a) → Ends (fun n => G n a)) : Ends (fun n => F n >>= G n) := by
  obtain ⟨o, ho⟩ := hF
  cases o with
  | error e => exact ⟨.error e, ho.bind_error⟩
  | ok a =>
    obtain ⟨o', ho'⟩ := hG a ho
    exact ⟨o', ho.bind_ok ho'⟩

theorem Ends.attempt_bind {G : Nat → Outcome T α → Run T β} (hF : Ends F)
    (hG : ∀ o, Settles F o → Ends (fun n => G n o)) :
    Ends (fun n => (F n).attempt >>= G n) := by
  obtain ⟨o, ho⟩ := hF
  obtain ⟨o', ho'⟩ := hG o ho
  exact ⟨o', ho.attempt_bind ho'⟩

theorem Ends.pure (a : α) : Ends (fun _ => (Pure.pure a : Run T α)) := ⟨.ok a, .pure a⟩

theorem Ends.fail (e : Failure T) : Ends (fun _ => (Run.fail e : Run T α)) :=
  ⟨.error e, .const rfl⟩

theorem Ends.emit_bind {G : Nat → Unit → Run T β} (e : Event T) (hG : Ends (fun n => G n ())) :
    Ends (fun n => emit e >>= G n) := by
  obtain ⟨o, ho⟩ := hG
  exact ⟨o, ho.emit_bind e⟩

theorem Ends.fails_iff (h : Ends F) :
    (∃ e, Settles F (.error e)) ↔ ∀ a, ¬Settles F (.ok a) := by
  constructor
  · rintro ⟨e, he⟩ a ha
    cases he.unique ha
  · intro hnone
    obtain ⟨e | a, ho⟩ := h
    · exact ⟨e, ho⟩
    · exact absurd ho (hnone a)

end Run

namespace Parser
open Run
variable {T α β : Type} {b : Bounds} {F : Nat → Parser T α} {G : Nat → Parser T β}
  {I : Cursor T → Prop}

theorem runComplete_ends {ts : List T} (h : Ends (fun n => F n (.start ts))) :
    Ends (fun n => runComplete (F n) ts) := by
  refine h.bind fun r _ => ?_
  cases r.2.peek? with
  | none => exact .pure _
  | some t => exact .fail _

/-- A repetition of a parser that reads something whenever it succeeds makes at most one attempt
for each token that is left, and one more. -/
theorem attempts_end_of_advancing (hends : ∀ c, I c → Ends (fun n => F n c))
    (hadvance : ∀ c r, I c → Settles (fun n => F n c) (.ok r) → I r.2 ∧ c.Moves True r.2)
    (budget k : Nat) (c : Cursor T) (hc : I c) (hbudget : c.remaining.length < budget) :
    ∃ h, Settles (fun n => attempts b (F n) budget k c) (.ok h) := by
  induction budget generalizing k c with
  | zero => omega
  | succ budget ih =>
    cases hfull : b.isFull k with
    | true => exact ⟨_, attempts_settles_full hfull⟩
    | false =>
      obtain ⟨o, ho⟩ := hends c hc
      cases o with
      | error e => exact ⟨_, attempts_settles_error hfull ho⟩
      | ok r =>
        obtain ⟨hr, hmove⟩ := hadvance c r hc ho
        have hless : r.2.remaining.length < c.remaining.length := Cursor.length_remaining_lt hmove
        obtain ⟨h, hh⟩ := ih (k + 1) r.2 hr (by omega)
        exact ⟨_, attempts_settles_ok hfull ho hh⟩

theorem attempts_end_of_capped {most : Nat} (hlimit : b.limit = .capped)
    (hmost : b.most = some most) (hends : ∀ c, I c → Ends (fun n => F n c))
    (hinv : ∀ c r, I c → Settles (fun n => F n c) (.ok r) → I r.2)
    (budget k : Nat) (c : Cursor T) (hc : I c) (hbudget : most ≤ k + budget) :
    ∃ h, Settles (fun n => attempts b (F n) budget k c) (.ok h) := by
  have hfull_iff : ∀ j, b.isFull j = decide (most ≤ j) := by
    intro j
    simp [Bounds.isFull, hlimit, hmost]
  induction budget generalizing k c with
  | zero =>
    have hfull : b.isFull k = true := by simpa [hfull_iff] using hbudget
    exact ⟨_, attempts_settles_full hfull⟩
  | succ budget ih =>
    cases hfull : b.isFull k with
    | true => exact ⟨_, attempts_settles_full hfull⟩
    | false =>
      obtain ⟨o, ho⟩ := hends c hc
      cases o with
      | error e => exact ⟨_, attempts_settles_error hfull ho⟩
      | ok r =>
        obtain ⟨h, hh⟩ := ih (k + 1) r.2 (hinv c r hc ho) (by omega)
        exact ⟨_, attempts_settles_ok hfull ho hh⟩

theorem separated_ends {s s' : Prop} (hsep : ∀ c, I c → Ends (fun n => G n c))
    (hitem : ∀ c, I c → Ends (fun n => F n c))
    (hsepMoves : ∀ c r, I c → Settles (fun n => G n c) (.ok r) → I r.2 ∧ c.Moves s r.2)
    (hitemMoves : ∀ c r, I c → Settles (fun n => F n c) (.ok r) → I r.2 ∧ c.Moves s' r.2)
    (hs : s ∨ s') (budget : Nat) (c : Cursor T) (hc : I c) (hbudget : c.remaining.length < budget) :
    Ends (fun n => separated (F n) (G n) budget c) := by
  induction budget generalizing c with
  | zero => omega
  | succ budget ih =>
    obtain ⟨o, ho⟩ := hsep c hc
    cases o with
    | error e => exact ⟨_, separated_settles_end ho⟩
    | ok t =>
      obtain ⟨ht, htMoves⟩ := hsepMoves c t hc ho
      obtain ⟨o', ho'⟩ := hitem t.2 ht
      cases o' with
      | error e => exact ⟨_, separated_settles_owed ho ho'⟩
      | ok r =>
        obtain ⟨hr, hrMoves⟩ := hitemMoves t.2 r ht ho'
        have hmove : c.Moves True r.2 := (htMoves.trans hrMoves).weaken fun _ => hs
        have hless : r.2.remaining.length < c.remaining.length := Cursor.length_remaining_lt hmove
        obtain ⟨o'', ho''⟩ := ih r.2 hr (by omega)
        exact ⟨_, separated_settles_more ho ho' ho''⟩

section Loops
variable {s s' : Prop} {c : Cursor T}

theorem repeated_ends (hc : c.InBounds) (hends : ∀ c', c.Reaches c' → Ends (fun n => F n c'))
    (hmoves : ∀ c' r, c.Reaches c' → Settles (fun n => F n c') (.ok r) → c'.Moves s r.2)
    (hloop : (b.limit = .capped ∧ b.most.isSome = true) ∨ s) :
    Ends (fun n => repeated b (F n) n c) := by
  have hreach : ∀ c' r, c.Reaches c' → Settles (fun n => F n c') (.ok r) → c.Reaches r.2 := by
    intro c' r hr hs
    exact hr.trans (hmoves c' r hr hs).reaches
  have hharvest : ∃ j h, Settles (fun n => attempts b (F n) j 0 c) (.ok h) := by
    rcases hloop with ⟨hlimit, hmost⟩ | hs
    · obtain ⟨most, hmost⟩ := Option.isSome_iff_exists.mp hmost
      have hbudget : most ≤ 0 + most := by omega
      exact ⟨most, attempts_end_of_capped hlimit hmost hends hreach most 0 c (.refl hc) hbudget⟩
    · have hadvance : ∀ c' r, c.Reaches c' → Settles (fun n => F n c') (.ok r) →
          c.Reaches r.2 ∧ c'.Moves True r.2 := by
        intro c' r hr hsettles
        have hmove : c'.Moves s r.2 := hmoves c' r hr hsettles
        exact ⟨hreach c' r hr hsettles, hmove.weaken fun _ => hs⟩
      have hbudget : c.remaining.length < c.remaining.length + 1 := by omega
      exact ⟨_, attempts_end_of_advancing hends hadvance _ 0 c (.refl hc) hbudget⟩
  obtain ⟨j, h, hh⟩ := hharvest
  exact ⟨_, repeated_settles hh⟩

theorem sepBy1_ends (hc : c.InBounds) (hitem : ∀ c', c.Reaches c' → Ends (fun n => F n c'))
    (hsep : ∀ c', c.Moves s c' → Ends (fun n => G n c'))
    (hitemMoves : ∀ c' r, c.Reaches c' → Settles (fun n => F n c') (.ok r) → c'.Moves s r.2)
    (hsepMoves : ∀ c' r, c.Reaches c' → Settles (fun n => G n c') (.ok r) → c'.Moves s' r.2)
    (hs : s ∨ s') : Ends (fun n => sepBy1 (F n) (G n) n c) := by
  refine (hitem c (.refl hc)).bind fun r hr => ?_
  have hfirst : c.Moves s r.2 := hitemMoves c r (.refl hc) hr
  have hsepStep : ∀ c' t, c.Moves s c' → Settles (fun n => G n c') (.ok t) →
      c.Moves s t.2 ∧ c'.Moves s' t.2 := by
    intro c' t hmove ht
    have hnext : c'.Moves s' t.2 := hsepMoves c' t hmove.reaches ht
    exact ⟨(hmove.trans hnext).weaken .inl, hnext⟩
  have hitemStep : ∀ c' t, c.Moves s c' → Settles (fun n => F n c') (.ok t) →
      c.Moves s t.2 ∧ c'.Moves s t.2 := by
    intro c' t hmove ht
    have hnext : c'.Moves s t.2 := hitemMoves c' t hmove.reaches ht
    exact ⟨(hmove.trans hnext).weaken .inl, hnext⟩
  have hbudget : r.2.remaining.length < r.2.remaining.length + 1 := by omega
  obtain ⟨o, ho⟩ := separated_ends hsep (fun c' hmove => hitem c' hmove.reaches) hsepStep
    hitemStep hs.symm _ r.2 hfirst hbudget
  exact Ends.bind ⟨o, separated_settles_diagonal ho⟩ fun later _ => .pure _

end Loops

end Parser

namespace Grammar
variable {T N : Type} {O : N → Type}

/-- Rule `m` may be entered from the start of the grammar before a token must have been read. -/
def Leads (ν : N → Prop) (m : N) {α : Type} : Grammar T O α → Prop
  | anyToken | token _ | succeed _ | custom _ => False
  | map _ g | reshape _ g | filter _ g | optional g | notFollowedBy g | lookAhead g |
    repeated _ g | log _ g | tap _ g | shared g => g.Leads ν m
  | chain g next _ => g.Leads ν m ∨ g.Nullable ν ∧ ∃ a, (next a).Leads ν m
  | seq g h | sepBy1 g h => g.Leads ν m ∨ g.Nullable ν ∧ h.Leads ν m
  | orElse g h => g.Leads ν m ∨ h.Leads ν m
  | between g h k =>
    g.Leads ν m ∨ g.Nullable ν ∧ (h.Leads ν m ∨ h.Nullable ν ∧ k.Leads ν m)
  | rule n => n = m

/-- Every loop in the grammar is sure to end: a repetition is kept from going on by its bound, or
what it repeats reads something; and so does the item or the separator of a separated list. -/
def IsGuarded (ν : N → Prop) {α : Type} : Grammar T O α → Prop
  | anyToken | token _ | succeed _ | rule _ => True
  | custom _ => False
  | map _ g | reshape _ g | filter _ g | optional g | notFollowedBy g | lookAhead g | log _ g |
    tap _ g | shared g => g.IsGuarded ν
  | chain g next _ => g.IsGuarded ν ∧ ∀ a, (next a).IsGuarded ν
  | seq g h | orElse g h => g.IsGuarded ν ∧ h.IsGuarded ν
  | between g h k => g.IsGuarded ν ∧ h.IsGuarded ν ∧ k.IsGuarded ν
  | repeated b g =>
    g.IsGuarded ν ∧ ((b.limit = .capped ∧ b.most.isSome = true) ∨ ¬g.Nullable ν)
  | sepBy1 item sep =>
    item.IsGuarded ν ∧ sep.IsGuarded ν ∧ ¬(item.Nullable ν ∧ sep.Nullable ν)

theorem IsGuarded.isStandard {ν : N → Prop} {α : Type} {g : Grammar T O α}
    (hg : g.IsGuarded ν) : g.IsStandard := by
  induction g with
  | anyToken | token | succeed | rule => trivial
  | custom => exact hg
  | map _ _ ih | reshape _ _ ih | filter _ _ ih | optional _ ih | notFollowedBy _ ih
  | lookAhead _ ih | log _ _ ih | tap _ _ ih | shared _ ih => exact ih hg
  | chain g next combine ih ihn => exact ⟨ih hg.1, fun a => ihn a (hg.2 a)⟩
  | seq g h ihg ihh | orElse g h ihg ihh => exact ⟨ihg hg.1, ihh hg.2⟩
  | between g h k ihg ihh ihk => exact ⟨ihg hg.1, ihh hg.2.1, ihk hg.2.2⟩
  | repeated b g ih => exact ih hg.1
  | sepBy1 item sep ihi ihs => exact ⟨ihi hg.1, ihs hg.2.1⟩

end Grammar

namespace Rules
open Run Grammar
variable {T N : Type} {O : N → Type} {α β : Type} [BEq T] {R : Rules T O} {ν : N → Prop}

def LeadsTo (R : Rules T O) (ν : N → Prop) (m n : N) : Prop := (R.body m).Leads ν n

/-- All rules come to their end that may be entered at the cursor, and further on all rules do. -/
structure Ready (R : Rules T O) (ν : N → Prop) (g : Grammar T O α) (c : Cursor T) : Prop where
  here : ∀ m, g.Leads ν m → Ends (fun n => R.parse n (.rule m) c)
  later : ∀ m c', c.Moves True c' → Ends (fun n => R.parse n (.rule m) c')

section Ready
variable {g : Grammar T O α} {h : Grammar T O β} {c c' : Cursor T}

theorem Ready.of_leads (hg : R.Ready ν g c) (hsub : ∀ m, h.Leads ν m → g.Leads ν m) :
    R.Ready ν h c :=
  ⟨fun m hm => hg.here m (hsub m hm), hg.later⟩

theorem Ready.of_moves (hg : R.Ready ν g c) (hmove : c.Moves True c') : R.Ready ν h c' := by
  refine ⟨fun m _ => hg.later m c' hmove, fun m c'' hmove' => hg.later m c'' ?_⟩
  exact (hmove.trans hmove').weaken fun _ => .inl trivial

/-- Behind a part of a grammar all is ready for what follows: either the part has read something,
or it may succeed without, and then what follows belongs to the start of the grammar. -/
theorem Ready.behind {s : Prop} (hg : R.Ready ν g c) (hmove : c.Moves s c')
    (hsub : ¬s → ∀ m, h.Leads ν m → g.Leads ν m) : R.Ready ν h c' := by
  rcases hmove.eq_or_lt with heq | hlt
  · subst heq
    have hs : ¬s := fun hs => Nat.lt_irrefl _ (hmove.lt hs)
    exact hg.of_leads (hsub hs)
  · exact hg.of_moves hlt

end Ready

theorem token_ends (R : Rules T O) (t : T) (c : Cursor T) :
    Ends (fun n => R.parse n (.token t) c) := by
  cases hpeek : c.peek? with
  | none => exact ⟨_, .of_eq (Parser.token_of_end hpeek)⟩
  | some u =>
    cases heq : u == t with
    | true => exact ⟨_, .of_eq (Parser.token_of_eq hpeek heq)⟩
    | false => exact ⟨_, .of_eq (Parser.token_of_ne hpeek heq)⟩

section Guarded
variable (hR : ∀ n, (R.body n).IsGuarded ν) (hν : ∀ n, (R.body n).Nullable ν → ν n)
include hR hν

theorem moves_of_settles {g : Grammar T O α} (hg : g.IsGuarded ν) {c : Cursor T} (hc : c.InBounds)
    {r : α × Cursor T} (hr : Settles (fun n => R.parse n g c) (.ok r)) :
    c.Moves (¬g.Nullable ν) r.2 := by
  obtain ⟨m, hm⟩ := hr
  have hstandard : ∀ n, (R.body n).IsStandard := fun n => (hR n).isStandard
  have hsound := parse_sound hstandard hν m g hg.isStandard (R.admits_any g) c hc
  exact hsound.outcome _ (hm m (Nat.le_refl m))

/-- Where all is ready for a guarded grammar, the grammar comes to its end. -/
theorem ends_of_ready {g : Grammar T O α} (hg : g.IsGuarded ν) {c : Cursor T} (hc : c.InBounds)
    (h : R.Ready ν g c) : Ends (fun n => R.parse n g c) := by
  induction g generalizing c with
  | anyToken =>
    cases hpeek : c.peek? with
    | none => exact ⟨_, .of_eq (Parser.anyToken_of_end hpeek)⟩
    | some t => exact ⟨_, .of_eq (Parser.anyToken_of_peek? hpeek)⟩
  | token t => exact R.token_ends t c
  | succeed a => exact .pure _
  | custom step => exact hg.elim
  | map _ g ih | log _ g ih | tap _ g ih =>
    have hbody := ih hg hc (h.of_leads fun m hm => hm)
    exact hbody.bind fun r _ => .emit_bind _ (.pure _)
  | reshape _ g ih | lookAhead g ih =>
    have hbody := ih hg hc (h.of_leads fun m hm => hm)
    exact hbody.bind fun r _ => .pure _
  | filter accept g ih =>
    have hbody := ih hg hc (h.of_leads fun m hm => hm)
    refine hbody.bind fun r _ => .emit_bind _ ?_
    by_cases haccept : accept r.1
    · simp only [if_pos haccept]
      exact .pure _
    · simp only [if_neg haccept]
      exact .fail _
  | chain g next combine ih ihn =>
    have hfirst := ih hg.1 hc (h.of_leads fun m hm => .inl hm)
    refine hfirst.bind fun r hr => .emit_bind _ ?_
    have hmove := moves_of_settles hR hν hg.1 hc hr
    have hready : R.Ready ν (next r.1) r.2 := by
      refine h.behind hmove fun hnull m hm => ?_
      exact .inr ⟨not_not.mp hnull, r.1, hm⟩
    have hsecond := ihn r.1 (hg.2 r.1) hmove.reaches.inBounds hready
    exact hsecond.bind fun s _ => .emit_bind _ (.pure _)
  | seq g h' ihg ihh =>
    have hfirst := ihg hg.1 hc (h.of_leads fun m hm => .inl hm)
    refine hfirst.bind fun r hr => ?_
    have hmove := moves_of_settles hR hν hg.1 hc hr
    have hready : R.Ready ν h' r.2 := by
      refine h.behind hmove fun hnull m hm => ?_
      exact .inr ⟨not_not.mp hnull, hm⟩
    have hsecond := ihh hg.2 hmove.reaches.inBounds hready
    exact hsecond.bind fun s _ => .pure _
  | orElse g h' ihg ihh =>
    have hfirst := ihg hg.1 hc (h.of_leads fun m hm => .inl hm)
    have hsecond := ihh hg.2 hc (h.of_leads fun m hm => .inr hm)
    refine hfirst.attempt_bind fun o _ => ?_
    cases o with
    | ok r => exact .pure _
    | error e => exact hsecond
  | optional g ih =>
    have hbody := ih hg hc (h.of_leads fun m hm => hm)
    refine hbody.attempt_bind fun o _ => ?_
    cases o with
    | ok | error => exact .pure _
  | notFollowedBy g ih =>
    have hbody := ih hg hc (h.of_leads fun m hm => hm)
    refine hbody.attempt_bind fun o _ => ?_
    cases o with
    | ok r => exact .fail _
    | error e => exact .pure _
  | between g h' k ihg ihh ihk =>
    have hopening := ihg hg.1 hc (h.of_leads fun m hm => .inl hm)
    refine hopening.bind fun o ho => ?_
    have hmoveOpening := moves_of_settles hR hν hg.1 hc ho
    have hreadyContent : R.Ready ν h' o.2 := by
      refine h.behind hmoveOpening fun hnull m hm => ?_
      exact .inr ⟨not_not.mp hnull, .inl hm⟩
    have hcontent := ihh hg.2.1 hmoveOpening.reaches.inBounds hreadyContent
    refine hcontent.bind fun i hi => ?_
    have hmoveContent := moves_of_settles hR hν hg.2.1 hmoveOpening.reaches.inBounds hi
    have hmove := hmoveOpening.trans hmoveContent
    have hreadyClosing : R.Ready ν k i.2 := by
      refine h.behind hmove fun hnull m hm => ?_
      rw [not_or, not_not, not_not] at hnull
      exact .inr ⟨hnull.1, .inr ⟨hnull.2, hm⟩⟩
    have hclosing := ihk hg.2.2 hmove.reaches.inBounds hreadyClosing
    exact hclosing.bind fun e _ => .pure _
  | repeated b g ih =>
    refine Parser.repeated_ends hc (fun c' hr => ?_) (fun c' r hr hs => ?_) hg.2
    · have hready : R.Ready ν g c' := h.behind hr.moves fun _ m hm => hm
      exact ih hg.1 hr.inBounds hready
    · exact moves_of_settles hR hν hg.1 hr.inBounds hs
  | sepBy1 item sep ihi ihs =>
    refine Parser.sepBy1_ends hc (fun c' hr => ?_) (fun c' hmove => ?_)
      (fun c' r hr hs => moves_of_settles hR hν hg.1 hr.inBounds hs)
      (fun c' r hr hs => moves_of_settles hR hν hg.2.1 hr.inBounds hs)
      (Classical.not_and_iff_not_or_not.mp hg.2.2)
    · have hready : R.Ready ν item c' := h.behind hr.moves fun _ m hm => .inl hm
      exact ihi hg.1 hr.inBounds hready
    · have hready : R.Ready ν sep c' := by
        refine h.behind hmove fun hnull m hm => ?_
        exact .inr ⟨not_not.mp hnull, hm⟩
      exact ihs hg.2.1 hmove.reaches.inBounds hready
  | shared g ih => exact ih hg hc (h.of_leads fun m hm => hm)
  | rule n => exact h.here n rfl

/-- Every rule comes to its end, wherever it is entered. The first induction is on the number of
tokens that are left; the second is on the rules, along the way that they lead to each other. -/
theorem rule_ends (hwf : WellFounded (fun m n => R.LeadsTo ν n m)) (n : N) (c : Cursor T)
    (hc : c.InBounds) : Ends (fun k => R.parse k (.rule n) c) := by
  induction hleft : c.remaining.length using Nat.strong_induction_on generalizing n c with
  | _ left ihleft =>
    induction n using hwf.induction with
    | _ n ihn =>
      have hlater : ∀ m c', c.Moves True c' → Ends (fun k => R.parse k (.rule m) c') := by
        intro m c' hmove
        have hless : c'.remaining.length < left := hleft ▸ Cursor.length_remaining_lt hmove
        exact ihleft _ hless m c' hmove.reaches.inBounds rfl
      have hready : R.Ready ν (R.body n) c := ⟨ihn, hlater⟩
      obtain ⟨o, ho⟩ := ends_of_ready hR hν (hR n) hc hready
      exact ⟨o, rule_settles ho⟩

end Guarded

omit [BEq T] in
/-- Among finitely many rules of which none leads back to itself, one can go through the rules
from those that lead to no other. -/
theorem wellFounded_of_acyclic [Finite N]
    (hacyclic : ∀ n, ¬Relation.TransGen (R.LeadsTo ν) n n) :
    WellFounded (fun m n => R.LeadsTo ν n m) := by
  have htrans : IsTrans N (fun m n => Relation.TransGen (R.LeadsTo ν) n m) :=
    ⟨fun _ _ _ h h' => h'.trans h⟩
  have hirrefl : Std.Irrefl (fun m n => Relation.TransGen (R.LeadsTo ν) n m) := ⟨hacyclic⟩
  have hwf : WellFounded (fun m n => Relation.TransGen (R.LeadsTo ν) n m) :=
    Finite.wellFounded_of_trans_of_irrefl _
  have hstep : Subrelation (fun m n => R.LeadsTo ν n m)
      (fun m n => Relation.TransGen (R.LeadsTo ν) n m) := by
    intro m n h
    exact .single h
  exact hstep.wf hwf

/-- With finitely many rules, none of which leads back to itself before a token must have been
read, and with loops that are sure to end, every parse comes to its end, from wherever it
starts; and where the grammar cannot do without reading, it has then read something. -/
theorem guarded_parse_ends [Finite N] (R : Rules T O) (ν : N → Prop)
    (hν : ∀ n, (R.body n).Nullable ν → ν n)
    (hacyclic : ∀ n, ¬Relation.TransGen (R.LeadsTo ν) n n) (hR : ∀ n, (R.body n).IsGuarded ν)
    (g : Grammar T O α) (hg : g.IsGuarded ν) (ts : List T) (p : Nat) (hp : p ≤ ts.length) :
    ∃ x, R.Yields g ⟨ts, p⟩ x ∧
      ∀ a c, x.outcome? = some (.ok (a, c)) → ¬g.Nullable ν → p < c.position := by
  have hc : Cursor.InBounds ⟨ts, p⟩ := hp
  have hwf := wellFounded_of_acyclic hacyclic
  have hrules : ∀ m c, c.InBounds → Ends (fun n => R.parse n (.rule m) c) :=
    fun m c hc => rule_ends hR hν hwf m c hc
  have hready : R.Ready ν g ⟨ts, p⟩ :=
    ⟨fun m _ => hrules m _ hc, fun m c hmove => hrules m c hmove.reaches.inBounds⟩
  obtain ⟨o, ho⟩ := ends_of_ready hR hν hg hc hready
  obtain ⟨x, hx, hxo⟩ := answers_iff_settles.mpr ho
  refine ⟨x, hx, fun a c hac hnull => ?_⟩
  have hsettles : Settles (fun n => R.parse n g ⟨ts, p⟩) (.ok (a, c)) := by
    rw [hxo] at hac
    exact Option.some.inj hac ▸ ho
  have hmove : Cursor.Moves _ ⟨ts, p⟩ c :=
    moves_of_settles hR hν hg hc hsettles
  exact hmove.lt hnull

/-- The rule of nested brackets is reached again only behind a bracket, so nothing that is
written with it runs forever. -/
theorem nested_groups_end :
    ∃ x, nested.Yields (.plus (.rule ())) ⟨["(", "x", ")", "("], 0⟩ x ∧
      ∀ a c, x.outcome? = some (.ok (a, c)) → 0 < c.position := by
  have hleads : ∀ m n, ¬nested.LeadsTo (fun _ => False) m n := by
    simp [nested, bracketed, enclosed, LeadsTo, Leads, Nullable]
  have hacyclic : ∀ n, ¬Relation.TransGen (nested.LeadsTo (fun _ => False)) n n := by
    intro n hcycle
    obtain ⟨m, hm, -⟩ := Relation.TransGen.head'_iff.mp hcycle
    exact hleads n m hm
  have hbody : ∀ n, (nested.body n).IsGuarded (fun _ => False) := by
    simp [nested, bracketed, enclosed, IsGuarded]
  have hnull : ¬(Grammar.plus (.rule ()) : Grammar String (fun _ : Unit => Nat) _).Nullable
      (fun _ => False) := by
    simp [plus, Bounds.atLeast, Nullable]
  obtain ⟨x, hx, hmoves⟩ := guarded_parse_ends nested (fun _ => False) nested_not_nullable hacyclic
    hbody (.plus (.rule ())) ⟨trivial, .inr id⟩ ["(", "x", ")", "("] 0 (Nat.zero_le _)
  exact ⟨x, hx, fun a c hac => hmoves a c hac hnull⟩

end Rules
end TokenGrammar
