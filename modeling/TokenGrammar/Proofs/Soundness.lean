import TokenGrammar.Proofs.Ensures
import TokenGrammar.Proofs.Shape

/-! Where a parse can get to. A parser that starts inside a token sequence stays in that sequence,
never moves back and never gets past the end; all places that its events name lie between its
start and the end. The statements carry along which failures may arise at a cursor, and whether a
success must have read something. -/
namespace TokenGrammar
namespace Cursor
variable {T : Type}

def InBounds (c : Cursor T) : Prop := c.position ≤ c.source.length

/-- The second cursor is in the same sequence as the first, at or behind its place, and in
bounds. -/
structure Reaches (c c' : Cursor T) : Prop where
  source : c'.source = c.source
  le : c.position ≤ c'.position
  inBounds : c'.InBounds

theorem Reaches.refl {c : Cursor T} (hc : c.InBounds) : c.Reaches c := ⟨rfl, Nat.le_refl _, hc⟩

theorem Reaches.trans {c c' c'' : Cursor T} (h : c.Reaches c') (h' : c'.Reaches c'') :
    c.Reaches c'' :=
  ⟨h'.source.trans h.source, Nat.le_trans h.le h'.le, h'.inBounds⟩

theorem Reaches.le_length {c c' : Cursor T} (h : c.Reaches c') :
    c'.position ≤ c.source.length := by
  rw [← h.source]
  exact h.inBounds

/-- The second cursor can be reached from the first, and lies further on if `s` holds. -/
structure Moves (s : Prop) (c c' : Cursor T) : Prop where
  reaches : c.Reaches c'
  lt : s → c.position < c'.position

section Moves
variable {s s' : Prop} {c c' c'' : Cursor T}

theorem Reaches.moves (h : c.Reaches c') : Moves False c c' := ⟨h, False.elim⟩

theorem Moves.weaken (h : Moves s c c') (hs : s' → s) : Moves s' c c' :=
  ⟨h.reaches, fun hs' => h.lt (hs hs')⟩

theorem Moves.trans (h : Moves s c c') (h' : Moves s' c' c'') : Moves (s ∨ s') c c'' := by
  refine ⟨h.reaches.trans h'.reaches, ?_⟩
  rintro (hs | hs)
  · exact Nat.lt_of_lt_of_le (h.lt hs) h'.reaches.le
  · exact Nat.lt_of_le_of_lt h.reaches.le (h'.lt hs)

theorem Moves.eq_or_lt (h : Moves s c c') : c' = c ∨ Moves True c c' := by
  by_cases hlt : c.position < c'.position
  · exact .inr ⟨h.reaches, fun _ => hlt⟩
  · have hposition : c'.position = c.position := Nat.le_antisymm (Nat.not_lt.mp hlt) h.reaches.le
    obtain ⟨ts, p⟩ := c
    obtain ⟨ts', p'⟩ := c'
    have hsource : ts' = ts := h.reaches.source
    have hplace : p' = p := hposition
    rw [hsource, hplace]
    exact .inl rfl

theorem length_remaining_lt (h : Moves True c c') :
    c'.remaining.length < c.remaining.length := by
  have hsource : c'.source = c.source := h.reaches.source
  have hlt : c.position < c'.position := h.lt trivial
  have hbound : c'.position ≤ c.source.length := h.reaches.le_length
  rw [length_remaining, length_remaining, hsource]
  omega

end Moves

theorem position_lt_of_peek? {c : Cursor T} {t : T} (h : c.peek? = some t) :
    c.position < c.source.length :=
  (List.getElem?_eq_some_iff.mp h).1

theorem moves_advance {c : Cursor T} {t : T} (h : c.peek? = some t) : Moves True c c.advance := by
  have hlt : c.position < c.source.length := position_lt_of_peek? h
  have hr : c.Reaches c.advance := ⟨rfl, Nat.le_succ _, hlt⟩
  exact ⟨hr, fun _ => Nat.lt_succ_self _⟩

end Cursor

/-- The places in an event lie between the cursor and the end of its sequence, and the failure
that stopped a repetition is one that `F` admits where the last attempt was made. -/
def Event.Within {T : Type} (F : Cursor T → Failure T → Prop) (c : Cursor T) : Event T → Prop
  | .logged _ start stop => c.position ≤ start ∧ start ≤ stop ∧ stop ≤ c.source.length
  | .stopped e place _ => ∃ c', c.Reaches c' ∧ c'.position = place ∧ F c' e
  | _ => True

namespace Event
variable {T : Type} {F : Cursor T → Failure T → Prop}

theorem Within.back {c c' : Cursor T} {e : Event T} (hr : c.Reaches c') (h : e.Within F c') :
    e.Within F c := by
  cases e with
  | called | tapped | entered => trivial
  | logged message start stop =>
    obtain ⟨h₁, h₂, h₃⟩ := h
    exact ⟨Nat.le_trans hr.le h₁, h₂, hr.source ▸ h₃⟩
  | stopped e place k =>
    obtain ⟨c'', hr', hplace, hF⟩ := h
    exact ⟨c'', hr.trans hr', hplace, hF⟩

end Event

namespace Parser
variable {T α β γ : Type} {F : Cursor T → Failure T → Prop} {s s' s'' : Prop}

def Proper (K : Failure T → Prop) (s : Prop) (c : Cursor T) : Outcome T (α × Cursor T) → Prop
  | .ok r => c.Moves s r.2
  | .error e => K e

def Sound (F : Cursor T → Failure T → Prop) (s : Prop) (p : Parser T α) : Prop :=
  ∀ c, c.InBounds → (p c).Ensures (Event.Within F c) (Proper (F c) s c)

structure Gathered (F : Cursor T → Failure T → Prop) (s : Prop) (b : Bounds) (c : Cursor T)
    (h : Harvest T α) : Prop where
  moves : c.Moves (s ∧ h.items ≠ []) h.rest
  cause : ∀ e, h.cause? = some e → F c e
  room : h.cause? = none → b.most.isSome = true

theorem Gathered.judge {b : Bounds} {c : Cursor T} {h : Harvest T α} (hh : Gathered F s b c h)
    (hrej : b.most.isSome = true → F c .rejected) :
    Proper (F c) (0 < b.least ∧ s) c (h.judge b) := by
  unfold Harvest.judge
  by_cases hfew : h.items.length < b.least
  · rw [if_pos hfew]
    cases hcause : h.cause? with
    | none => exact hrej (hh.room hcause)
    | some e => exact hh.cause e hcause
  · rw [if_neg hfew]
    by_cases hallowed : b.allows h.items.length = true
    · rw [if_pos hallowed]
      refine hh.moves.weaken fun hs => ⟨hs.2, fun hnil => ?_⟩
      rw [hnil] at hfew
      exact hfew hs.1
    · rw [if_neg hallowed]
      exact hrej (Bounds.isSome_most_of_not_allows hallowed)

namespace Sound
variable {p : Parser T α} {q : Parser T β} {k : Parser T γ}

theorem weaken (hp : Sound F s p) (h : s' → s) : Sound F s' p := by
  intro c hc
  refine (hp c hc).mono (fun _ he => he) ?_
  rintro (e | r) ho
  · exact ho
  · exact Cursor.Moves.weaken ho h

theorem seenFrom (hp : Sound F s p) {c c' : Cursor T} (hr : c.Reaches c') :
    (p c').Ensures (Event.Within F c) (Proper (F c') s c') :=
  (hp c' hr.inBounds).mono (fun _ he => he.back hr) (fun _ ho => ho)

theorem succeed (a : α) : Sound F False (Parser.succeed a) := fun _ hc =>
  .pure (Cursor.Reaches.refl hc).moves

theorem anyToken (hend : ∀ c, c.InBounds → c.peek? = none → F c (.unexpectedEnd c.position)) :
    Sound F True (Parser.anyToken : Parser T T) := by
  intro c hc
  cases h : c.peek? with
  | none => exact .of_eq (anyToken_of_end h) (by simp) (hend c hc h)
  | some t => exact .of_eq (anyToken_of_peek? h) (by simp) (Cursor.moves_advance h)

theorem token [BEq T] (expected : T)
    (hend : ∀ c, c.InBounds → c.peek? = none → F c (.unexpectedEnd c.position))
    (hother : ∀ c t, c.peek? = some t → (t == expected) = false →
      F c (.unexpectedToken expected t c.position)) :
    Sound F True (Parser.token expected) := by
  intro c hc
  cases h : c.peek? with
  | none => exact .of_eq (token_of_end h) (by simp) (hend c hc h)
  | some t =>
    cases heq : t == expected with
    | true => exact .of_eq (token_of_eq h heq) (by simp) (Cursor.moves_advance h)
    | false => exact .of_eq (token_of_ne h heq) (by simp) (hother c t h heq)

theorem map (f : α → β) (hp : Sound F s p) : Sound F s (Parser.map f p) := fun c hc =>
  (hp c hc).bind (fun _ hr => .emit_bind trivial (.pure hr)) (fun _ he => he)

theorem reshape (f : α → β) (hp : Sound F s p) : Sound F s (Parser.reshape f p) := fun c hc =>
  (hp c hc).bind (fun _ hr => .pure hr) (fun _ he => he)

theorem filter (accept : α → Bool) (hp : Sound F s p) (hrej : ∀ c, F c .rejected) :
    Sound F s (Parser.filter accept p) := by
  intro c hc
  refine (hp c hc).bind (fun r hr => .emit_bind trivial ?_) (fun _ he => he)
  by_cases h : accept r.1
  · rw [if_pos h]
    exact .pure hr
  · rw [if_neg h]
    exact .fail (hrej c)

theorem lookAhead (hp : Sound F s p) : Sound F False (Parser.lookAhead p) := fun c hc =>
  (hp c hc).bind (fun _ _ => .pure (Cursor.Reaches.refl hc).moves) (fun _ he => he)

theorem optional (hp : Sound F s p) : Sound F False (Parser.optional p) := by
  intro c hc
  refine (hp c hc).attempt_bind fun o ho => ?_
  cases o with
  | ok r => exact .pure (Cursor.Moves.weaken ho False.elim)
  | error e => exact .pure (Cursor.Reaches.refl hc).moves

theorem notFollowedBy (hp : Sound F s p)
    (hmatch : ∀ c, c.InBounds → F c (.unexpectedMatch c.position)) :
    Sound F False (Parser.notFollowedBy p) := by
  intro c hc
  refine (hp c hc).attempt_bind fun o ho => ?_
  cases o with
  | ok r => exact .fail (hmatch c hc)
  | error e => exact .pure (Cursor.Reaches.refl hc).moves

theorem orElse {q : Parser T α} (hp : Sound F s p) (hq : Sound F s' q) :
    Sound F (s ∧ s') (Parser.orElse p q) := by
  intro c hc
  refine (hp c hc).attempt_bind fun o ho => ?_
  cases o with
  | ok r => exact .pure (Cursor.Moves.weaken ho And.left)
  | error e => exact hq.weaken And.right c hc

theorem log (message : String) (hp : Sound F s p) : Sound F s (Parser.log message p) := by
  intro c hc
  refine (hp c hc).bind (fun r hr => ?_) (fun _ he => he)
  have hplaces : (Event.logged message c.position r.2.position).Within F c :=
    ⟨Nat.le_refl _, hr.reaches.le, hr.reaches.le_length⟩
  exact .emit_bind hplaces (.pure hr)

theorem tap (label : String) (hp : Sound F s p) : Sound F s (Parser.tap label p) := fun c hc =>
  (hp c hc).bind (fun _ hr => .emit_bind trivial (.pure hr)) (fun _ he => he)

section Later
variable (hback : ∀ ⦃c c' e⦄, c.Reaches c' → F c' e → F c e)
include hback

theorem seq (hp : Sound F s p) (hq : Sound F s' q) : Sound F (s ∨ s') (Parser.seq p q) := by
  intro c hc
  refine (hp c hc).bind (fun r hr => ?_) (fun _ he => he)
  have hmove : c.Moves s r.2 := hr
  refine (hq.seenFrom hmove.reaches).bind (fun t ht => ?_) (fun _ he => hback hmove.reaches he)
  exact .pure (hmove.trans ht)

theorem chain {next : α → Parser T β} (combine : α → β → γ) (hp : Sound F s p)
    (hnext : ∀ a, Sound F s' (next a)) : Sound F (s ∨ s') (Parser.chain p next combine) := by
  intro c hc
  refine (hp c hc).bind (fun r hr => .emit_bind trivial ?_) (fun _ he => he)
  have hmove : c.Moves s r.2 := hr
  refine ((hnext r.1).seenFrom hmove.reaches).bind (fun t ht => ?_)
    (fun _ he => hback hmove.reaches he)
  exact .emit_bind trivial (.pure (hmove.trans ht))

theorem between (hp : Sound F s p) (hq : Sound F s' q) (hk : Sound F s'' k) :
    Sound F (s ∨ s' ∨ s'') (Parser.between p q k) := by
  intro c hc
  refine (hp c hc).bind (fun o ho => ?_) (fun _ he => he)
  have hopen : c.Moves s o.2 := ho
  refine (hq.seenFrom hopen.reaches).bind (fun i hi => ?_) (fun _ he => hback hopen.reaches he)
  have hcontent : c.Moves (s ∨ s') i.2 := hopen.trans hi
  refine (hk.seenFrom hcontent.reaches).bind (fun e he => ?_)
    (fun _ he => hback hcontent.reaches he)
  exact .pure ((hcontent.trans he).weaken or_assoc.mpr)

theorem attempts {b : Bounds} (hp : Sound F s p) (budget k : Nat) {c : Cursor T}
    (hc : c.InBounds) : (Parser.attempts b p budget k c).Ensures (Event.Within F c)
      (fun o => ∃ h, o = .ok h ∧ Gathered F s b c h) := by
  refine attempts_ensures (I := c.Reaches) (P := fun c' => Proper (F c') s c')
    (Q := fun _ c' h => Gathered F s b c' h) (fun c' hc' => hp.seenFrom hc')
    (fun c' r hc' hr => hc'.trans hr.reaches) ?_ ?_ ?_ budget k c (.refl hc)
  · intro j c' hc' hfull
    exact ⟨⟨.refl hc'.inBounds, by simp⟩, by simp, fun _ => Bounds.isSome_most_of_isFull hfull⟩
  · intro j c' e hc' he
    have hstopped : (Event.stopped e c'.position j).Within F c := ⟨c', hc', rfl, he⟩
    exact ⟨hstopped, ⟨.refl hc'.inBounds, by simp⟩, fun _ h => Option.some.inj h ▸ he, by simp⟩
  · intro j c' r h hc' hr hlater
    have hmove : c'.Moves s r.2 := hr
    have hmoves : c'.Moves (s ∧ (h.cons r.1).items ≠ []) h.rest :=
      (hmove.trans hlater.moves).weaken fun hs => .inl hs.1
    exact ⟨hmoves, fun e he => hback hmove.reaches (hlater.cause e he), hlater.room⟩

theorem repeated (b : Bounds) (budget : Nat) (hp : Sound F s p)
    (hrej : b.most.isSome = true → ∀ c, F c .rejected) :
    Sound F (0 < b.least ∧ s) (Parser.repeated b p budget) := by
  intro c hc
  apply (hp.attempts hback budget 0 hc).bind_ok
  intro h hgathered
  exact .ofOutcome (hgathered.judge fun hmost => hrej hmost c)

theorem separated {item : Parser T α} {sep : Parser T β} (hi : Sound F s item)
    (hs : Sound F s' sep) (budget : Nat) {c : Cursor T} (hc : c.InBounds) :
    (Parser.separated item sep budget c).Ensures (Event.Within F c) (Proper (F c) False c) := by
  induction budget generalizing c with
  | zero => exact .exhausted
  | succ budget ih =>
    refine (hs c hc).attempt_bind fun o ho => ?_
    cases o with
    | error e => exact .pure (Cursor.Reaches.refl hc).moves
    | ok t =>
      have hsep : c.Reaches t.2 := ho.reaches
      refine (hi.seenFrom hsep).bind (fun r hr => ?_) (fun _ he => hback hsep he)
      have hitem : c.Reaches r.2 := hsep.trans hr.reaches
      have hlater := (ih hitem.inBounds).mono (fun _ he => he.back hitem) (fun _ ho => ho)
      refine hlater.bind (fun l hl => .pure ?_) (fun _ he => hback hitem he)
      exact (hitem.trans hl.reaches).moves

theorem sepBy1 {item : Parser T α} {sep : Parser T β} (budget : Nat) (hi : Sound F s item)
    (hs : Sound F s' sep) : Sound F s (Parser.sepBy1 item sep budget) := by
  intro c hc
  refine (hi c hc).bind (fun r hr => ?_) (fun _ he => he)
  have hitem : c.Moves s r.2 := hr
  have hlater := (separated hback hi hs budget hitem.reaches.inBounds).mono
    (fun _ he => he.back hitem.reaches) (fun _ ho => ho)
  refine hlater.bind (fun l hl => .pure ?_) (fun _ he => hback hitem.reaches he)
  exact (hitem.trans hl).weaken Or.inl

end Later

end Sound
end Parser

namespace Rules
variable {T N : Type} {O : N → Type} {α β : Type} [BEq T] {F : Cursor T → Failure T → Prop}
  {ν : N → Prop}
open Grammar TokenGrammar.Parser

/-- The failures in `F` are all that can arise in a run of the grammar: what may be wrong with a
token, and the verdicts of those lookaheads and checks that occur in it. Seen from an earlier
cursor they are failures still. -/
structure Admits (R : Rules T O) (F : Cursor T → Failure T → Prop) (g : Grammar T O α) :
    Prop where
  back : ∀ ⦃c c' e⦄, c.Reaches c' → F c' e → F c e
  ending : ∀ c, c.InBounds → c.peek? = none → F c (.unexpectedEnd c.position)
  other : ∀ expected c t, c.peek? = some t → (t == expected) = false →
    F c (.unexpectedToken expected t c.position)
  matched : R.Contains isLookahead g → ∀ c, c.InBounds → F c (.unexpectedMatch c.position)
  rejected : R.Contains isCheck g → ∀ c, F c .rejected

theorem Admits.part {R : Rules T O} {g : Grammar T O α} {h : Grammar T O β}
    (hg : R.Admits F g) (hp : R.Part h g) : R.Admits F h where
  back := hg.back
  ending := hg.ending
  other := hg.other
  matched hh := hg.matched (.within hp hh)
  rejected hh := hg.rejected (.within hp hh)

theorem admits_any (R : Rules T O) (g : Grammar T O α) : R.Admits (fun _ _ => True) g where
  back _ _ _ _ _ := trivial
  ending _ _ _ := trivial
  other _ _ _ _ _ := trivial
  matched _ _ _ := trivial
  rejected _ _ := trivial

variable {R : Rules T O}

/-- If the parsers of the rules are sound, so is the parser of every grammar over them. -/
theorem parser_sound {call : (n : N) → Parser T (O n)} (budget : Nat)
    (hcall : ∀ n, R.Admits F (.rule n) → Sound F (¬ν n) (call n)) (g : Grammar T O α)
    (hg : g.IsStandard) (hF : R.Admits F g) :
    Sound F (¬g.Nullable ν) (g.parser call budget) := by
  induction g with
  | anyToken => exact (Sound.anyToken hF.ending).weaken fun _ => trivial
  | token t => exact (Sound.token t hF.ending (hF.other t)).weaken fun _ => trivial
  | succeed a => exact (Sound.succeed a).weaken fun h => h trivial
  | custom step => exact hg.elim
  | map f g ih => exact (ih hg (hF.part (.map f g))).map f
  | reshape f g ih => exact (ih hg (hF.part (.reshape f g))).reshape f
  | filter accept g ih =>
    exact (ih hg (hF.part (.filter accept g))).filter accept (hF.rejected (.here rfl))
  | chain g next combine ih ihn =>
    have hfirst := ih hg.1 (hF.part (.chainFirst g next combine))
    have hnext : ∀ a, Sound F (¬∃ a, (next a).Nullable ν) ((next a).parser call budget) :=
      fun a => (ihn a (hg.2 a) (hF.part (.chainNext g next combine a))).weaken
        fun h hn => h ⟨a, hn⟩
    exact (Sound.chain hF.back combine hfirst hnext).weaken Classical.not_and_iff_not_or_not.mp
  | seq g h ihg ihh =>
    have hfirst := ihg hg.1 (hF.part (.seqFirst g h))
    have hsecond := ihh hg.2 (hF.part (.seqSecond g h))
    exact (Sound.seq hF.back hfirst hsecond).weaken Classical.not_and_iff_not_or_not.mp
  | orElse g h ihg ihh =>
    have hfirst := ihg hg.1 (hF.part (.orElseFirst g h))
    have hsecond := ihh hg.2 (hF.part (.orElseSecond g h))
    exact (hfirst.orElse hsecond).weaken not_or.mp
  | optional g ih =>
    exact (ih hg (hF.part (.optional g))).optional.weaken fun h => h trivial
  | notFollowedBy g ih =>
    have hbody := ih hg (hF.part (.notFollowedBy g))
    exact (hbody.notFollowedBy (hF.matched (.here rfl))).weaken fun h => h trivial
  | lookAhead g ih =>
    exact (ih hg (hF.part (.lookAhead g))).lookAhead.weaken fun h => h trivial
  | between g h k ihg ihh ihk =>
    have hopening := ihg hg.1 (hF.part (.betweenOpening g h k))
    have hcontent := ihh hg.2.1 (hF.part (.betweenContent g h k))
    have hclosing := ihk hg.2.2 (hF.part (.betweenClosing g h k))
    refine (Sound.between hF.back hopening hcontent hclosing).weaken fun h => ?_
    rcases Classical.not_and_iff_not_or_not.mp h with h | h
    · exact .inl h
    · exact .inr (Classical.not_and_iff_not_or_not.mp h)
  | repeated b g ih =>
    have hbody := ih hg (hF.part (.repeated b g))
    refine (Sound.repeated hF.back b budget hbody fun hmost => hF.rejected (.here hmost)).weaken ?_
    intro h
    rw [Nullable, not_or] at h
    exact ⟨Nat.pos_of_ne_zero h.1, h.2⟩
  | sepBy1 item sep ihi ihs =>
    have hitem := ihi hg.1 (hF.part (.sepBy1Item item sep))
    have hsep := ihs hg.2 (hF.part (.sepBy1Separator item sep))
    exact Sound.sepBy1 hF.back budget hitem hsep
  | log message g ih => exact (ih hg (hF.part (.log message g))).log message
  | tap label g ih => exact (ih hg (hF.part (.tap label g))).tap label
  | shared g ih => exact ih hg (hF.part (.shared g))
  | rule n => exact hcall n hF

theorem call_sound (hR : ∀ n, (R.body n).IsStandard) (hν : ∀ n, (R.body n).Nullable ν → ν n)
    (budget : Nat) (n : N) (hF : R.Admits F (.rule n)) : Sound F (¬ν n) (R.call budget n) := by
  induction budget generalizing n with
  | zero => exact fun _ _ => .exhausted
  | succ budget ih =>
    have hbody : Sound F (¬(R.body n).Nullable ν) ((R.body n).parser (R.call budget) budget) :=
      parser_sound budget ih (R.body n) (hR n) (hF.part (.rule n))
    exact fun c hc => .emit_bind trivial (hbody.weaken (mt (hν n)) c hc)

/-- Every parse with a standard grammar is sound, whether it comes to its end or not. -/
theorem parse_sound (hR : ∀ n, (R.body n).IsStandard) (hν : ∀ n, (R.body n).Nullable ν → ν n)
    (budget : Nat) (g : Grammar T O α) (hg : g.IsStandard) (hF : R.Admits F g) :
    Sound F (¬g.Nullable ν) (R.parse budget g) :=
  parser_sound budget (call_sound hR hν budget) g hg hF

/-- A parse stays in its sequence and in bounds and never moves back, and so does every part of
it that an event tells of, in branches that were given up as well. -/
theorem parse_within_bounds (R : Rules T O) (hR : ∀ n, (R.body n).IsStandard)
    (g : Grammar T O α) (hg : g.IsStandard) (budget : Nat) (ts : List T) (p : Nat)
    (hp : p ≤ ts.length) :
    (∀ a c, (R.parse budget g ⟨ts, p⟩).outcome? = some (.ok (a, c)) →
      c.source = ts ∧ p ≤ c.position ∧ c.position ≤ ts.length) ∧
    (∀ message start stop, .logged message start stop ∈ (R.parse budget g ⟨ts, p⟩).events →
      p ≤ start ∧ start ≤ stop ∧ stop ≤ ts.length) ∧
    (∀ e place collected, .stopped e place collected ∈ (R.parse budget g ⟨ts, p⟩).events →
      p ≤ place ∧ place ≤ ts.length) := by
  have hsound := parse_sound (ν := fun _ => True) hR (fun _ _ => trivial) budget g hg
    (R.admits_any g) ⟨ts, p⟩ hp
  refine ⟨fun a c ho => ?_, fun message start stop he => ?_, fun e place collected he => ?_⟩
  · have hmove : Cursor.Moves _ ⟨ts, p⟩ c := hsound.outcome _ ho
    exact ⟨hmove.reaches.source, hmove.reaches.le, hmove.reaches.le_length⟩
  · exact hsound.event _ he
  · obtain ⟨c', hr, rfl, -⟩ := hsound.event _ he
    exact ⟨hr.le, hr.le_length⟩

/-- A group of brackets is followed by one that is not closed. The repetition gives the second
up, and no place that it tells of is before its start or behind the end. -/
theorem groups_within_bounds :
    let ts := [",", "(", "x", ")", "(", "x"]
    let x := nested.parse 9 groups ⟨ts, 1⟩
    x.outcome? = some (.ok ([1], ⟨ts, 4⟩)) ∧
      (∀ message start stop, .logged message start stop ∈ x.events →
        1 ≤ start ∧ start ≤ stop ∧ stop ≤ 6) ∧
      (∀ e place collected, .stopped e place collected ∈ x.events → 1 ≤ place ∧ place ≤ 6) := by
  have hbounds := parse_within_bounds nested nested_isStandard groups trivial 9
    [",", "(", "x", ")", "(", "x"] 1 (by decide)
  exact ⟨rfl, hbounds.2⟩

end Rules
end TokenGrammar
