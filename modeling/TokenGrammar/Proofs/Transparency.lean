import TokenGrammar.Grammar.Budget
import TokenGrammar.Grammar.Nested
import TokenGrammar.Proofs.Observation

/-! Logs, taps and shared handles make no difference to a parse. A grammar without them comes to
the same end, and shows the same events but for the reports of logs and taps. -/
namespace TokenGrammar

namespace Event
variable {T : Type}

/-- Whether the event belongs to the parse itself. The report of a log or a tap does not. -/
def isProper : Event T → Bool
  | called _ | entered _ | stopped _ _ _ => true
  | logged _ _ _ | tapped _ => false

@[simp] theorem isProper_called (callback : Callback) :
    (called callback : Event T).isProper = true := rfl
@[simp] theorem isProper_entered (rule : String) : (entered rule : Event T).isProper = true := rfl
@[simp] theorem isProper_stopped (cause : Failure T) (place k : Nat) :
    (stopped cause place k).isProper = true := rfl
@[simp] theorem isProper_tapped (label : String) : (tapped label : Event T).isProper = false := rfl
@[simp] theorem isProper_logged (message : String) (start stop : Nat) :
    (logged message start stop : Event T).isProper = false := rfl

end Event

namespace Parser
open Run
variable {T α β γ : Type}

theorem observed_map (f : α → β) (p : Parser T α) :
    observed Event.isProper (map f p) = map f (observed Event.isProper p) := by
  funext c
  simp only [observed, map, mapped, observed_bind, observed_emit (Event.isProper_called _),
    observed_pure]

theorem observed_filter (accept : α → Bool) (p : Parser T α) :
    observed Event.isProper (filter accept p) = filter accept (observed Event.isProper p) := by
  funext c
  simp only [observed, filter, filtered, observed_bind, observed_emit (Event.isProper_called _)]
  refine congrArg (Bind.bind _) (funext fun r => congrArg (Bind.bind _) (funext fun _ => ?_))
  split <;> rfl

theorem observed_chain (p : Parser T α) (next : α → Parser T β) (combine : α → β → γ) :
    observed Event.isProper (chain p next combine) =
      chain (observed Event.isProper p) (fun a => observed Event.isProper (next a)) combine := by
  funext c
  simp only [observed, chain, chained, observed_bind, observed_emit (Event.isProper_called _),
    observed_pure]

theorem observed_log (message : String) (p : Parser T α) :
    observed Event.isProper (log message p) = observed Event.isProper p := by
  funext c
  simp only [observed, log, observed_bind, observed_emit_of_hidden (Event.isProper_logged _ _ _),
    observed_pure, pure_bind, bind_pure]

theorem observed_tap (label : String) (p : Parser T α) :
    observed Event.isProper (tap label p) = observed Event.isProper p := by
  funext c
  simp only [observed, tap, observed_bind, observed_emit_of_hidden (Event.isProper_tapped _),
    observed_pure, pure_bind, bind_pure]

end Parser

namespace Grammar
variable {T N : Type} {O : N → Type}

/-- The grammar without logs, taps and shared handles. They are left out everywhere, and so in
whatever a chain goes on with. -/
def bare {α : Type} : Grammar T O α → Grammar T O α
  | anyToken => anyToken
  | token t => token t
  | succeed a => succeed a
  | custom step => custom step
  | map f g => map f g.bare
  | reshape f g => reshape f g.bare
  | filter accept g => filter accept g.bare
  | chain g next combine => chain g.bare (fun a => (next a).bare) combine
  | seq g h => seq g.bare h.bare
  | orElse g h => orElse g.bare h.bare
  | optional g => optional g.bare
  | notFollowedBy g => notFollowedBy g.bare
  | lookAhead g => lookAhead g.bare
  | between g h k => between g.bare h.bare k.bare
  | repeated b g => repeated b g.bare
  | sepBy1 item sep => sepBy1 item.bare sep.bare
  | log _ g | tap _ g | shared g => g.bare
  | rule n => rule n

def IsBare {α : Type} : Grammar T O α → Prop
  | anyToken | token _ | succeed _ | custom _ | rule _ => True
  | log _ _ | tap _ _ | shared _ => False
  | map _ g | reshape _ g | filter _ g | optional g | notFollowedBy g | lookAhead g |
    repeated _ g => g.IsBare
  | chain g next _ => g.IsBare ∧ ∀ a, (next a).IsBare
  | seq g h | orElse g h | sepBy1 g h => g.IsBare ∧ h.IsBare
  | between g h k => g.IsBare ∧ h.IsBare ∧ k.IsBare

theorem isBare_bare {α : Type} (g : Grammar T O α) : g.bare.IsBare := by
  induction g <;> simp_all [bare, IsBare]

theorem IsBare.bare_eq {α : Type} {g : Grammar T O α} (h : g.IsBare) : g.bare = g := by
  induction g <;> simp_all [bare, IsBare]

section Parser
open TokenGrammar.Parser
variable [BEq T]

/-- Without its reports, the parser of a grammar is the parser of the bare grammar over the rules
without theirs. -/
theorem observed_parser_eq (call : (n : N) → Parser T (O n)) (budget : Nat) {α : Type}
    (g : Grammar T O α) : observed Event.isProper (g.parser call budget) =
      g.bare.parser (fun n => observed Event.isProper (call n)) budget := by
  induction g with
  | anyToken => exact observed_anyToken
  | token t => exact observed_token t
  | succeed a | custom step => rfl
  | map f g ih => simp only [parser, bare, observed_map, ih]
  | reshape f g ih => simp only [parser, bare, observed_reshape, ih]
  | filter accept g ih => simp only [parser, bare, observed_filter, ih]
  | chain g next combine ih ihn => simp only [parser, bare, observed_chain, ih, ihn]
  | seq g h ihg ihh => simp only [parser, bare, observed_seq, ihg, ihh]
  | orElse g h ihg ihh => simp only [parser, bare, observed_orElse, ihg, ihh]
  | optional g ih => simp only [parser, bare, observed_optional, ih]
  | notFollowedBy g ih => simp only [parser, bare, observed_notFollowedBy, ih]
  | lookAhead g ih => simp only [parser, bare, observed_lookAhead, ih]
  | between g h k ihg ihh ihk => simp only [parser, bare, observed_between, ihg, ihh, ihk]
  | repeated b g ih =>
    simp only [parser, bare, observed_repeated Event.isProper_stopped, ih]
  | sepBy1 item sep ihi ihs => simp only [parser, bare, observed_sepBy1, ihi, ihs]
  | log message g ih => rw [parser, observed_log, ih, bare]
  | tap label g ih => rw [parser, observed_tap, ih, bare]
  | shared g ih => exact ih
  | rule n => rfl

end Parser
end Grammar

namespace Rules
variable {T N : Type} {O : N → Type} {α : Type}
open Grammar

def bare (R : Rules T O) : Rules T O where
  body n := (R.body n).bare
  label := R.label

variable [BEq T]

theorem observed_call (R : Rules T O) (budget : Nat) (n : N) :
    Parser.observed Event.isProper (R.call budget n) = R.bare.call budget n := by
  induction budget generalizing n with
  | zero => rfl
  | succ budget ih =>
    funext c
    have hbody := congrFun (observed_parser_eq (R.call budget) budget (R.body n)) c
    rw [funext ih] at hbody
    exact (Run.observed_bind _ _).trans (congrArg (Bind.bind _) (funext fun _ => hbody))

theorem observed_parse (R : Rules T O) (budget : Nat) (g : Grammar T O α) :
    Parser.observed Event.isProper (R.parse budget g) = R.bare.parse budget g.bare := by
  rw [parse, observed_parser_eq, funext (R.observed_call budget)]
  rfl

/-- Leaving out all logs, taps and shared handles, those in the rules as well, makes no difference
to a parse: it comes to its end as before, with the same value and cursor or the same failure, and
of its events exactly the reports of logs and taps are gone. -/
theorem reports_transparent (R : Rules T O) (g : Grammar T O α) (c : Cursor T) :
    (g.bare.IsBare ∧ ∀ n, (R.bare.body n).IsBare) ∧
    ((∃ x, R.Yields g c x) ↔ ∃ y, R.bare.Yields g.bare c y) ∧
    ∀ x y, R.Yields g c x → R.bare.Yields g.bare c y →
      y.outcome? = x.outcome? ∧ y.events = x.events.filter Event.isProper := by
  have hparse : ∀ budget, R.bare.parse budget g.bare c =
      (R.parse budget g c).observed Event.isProper := fun budget =>
    (congrFun (R.observed_parse budget g) c).symm
  obtain ⟨hends, hagree⟩ := yields_related (fun x y => y = x.observed Event.isProper)
    (by rintro x _ rfl; rfl) hparse
  refine ⟨⟨isBare_bare g, fun n => isBare_bare (R.body n)⟩, hends, fun x y hx hy => ?_⟩
  rw [hagree x y hx hy]
  exact ⟨rfl, rfl⟩

def reportedGroups : Grammar String (fun _ : Unit => Nat) (List Nat) :=
  .log "groups" (.star (.shared (.log "group" (.tap "found" (.rule ())))))

/-- One group is reported. The next one fails at once, which ends the row and is no report. -/
theorem reportedGroups_transparent :
    let c : Cursor String := ⟨["(", "x", ")", ";"], 0⟩
    let x := nested.parse 9 reportedGroups c
    let y := nested.bare.parse 9 (.star (.rule ())) c
    x.events = [.entered "nested", .entered "nested", .called .mapper, .called .mapper,
        .tapped "found", .logged "group" 0 3, .entered "nested",
        .stopped (.unexpectedToken "(" ";" 3) 3 1, .logged "groups" 0 3] ∧
      y.outcome? = x.outcome? ∧ y.events = x.events.filter Event.isProper := by
  have htransparent := reports_transparent nested reportedGroups ⟨["(", "x", ")", ";"], 0⟩
  exact ⟨by decide, htransparent.2.2 _ _ ⟨rfl, 9, rfl⟩ ⟨rfl, 9, rfl⟩⟩

end Rules
end TokenGrammar
