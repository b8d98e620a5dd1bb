import TokenGrammar.Parser.Repetition

/-! What an observer sees who misses some kinds of events. Leaving events out commutes with each
way of building runs and with the parsers built from them, loops included. So two grammars can be
compared up to the events in which they may differ, one part at a time. -/
namespace TokenGrammar

namespace Run
variable {T α β : Type} {keep : Event T → Bool}

/-- The run without the events that are not to be kept. -/
def observed (keep : Event T → Bool) (x : Run T α) : Run T α :=
  ⟨x.outcome?, x.events.filter keep, x.reads⟩

@[simp] theorem outcome?_observed (x : Run T α) : (x.observed keep).outcome? = x.outcome? := rfl
@[simp] theorem events_observed (x : Run T α) :
    (x.observed keep).events = x.events.filter keep := rfl
@[simp] theorem reads_observed (x : Run T α) : (x.observed keep).reads = x.reads := rfl

theorem outcome?_eq_of_observed {x y : Run T α} (h : x.observed keep = y.observed keep) :
    x.outcome? = y.outcome? := by
  have ho : (x.observed keep).outcome? = (y.observed keep).outcome? := by rw [h]
  exact ho

theorem filter_events_eq_of_observed {x y : Run T α} (h : x.observed keep = y.observed keep) :
    x.events.filter keep = y.events.filter keep := by
  rw [← events_observed, h, events_observed]

@[simp] theorem observed_pure (a : α) : (pure a : Run T α).observed keep = pure a := rfl
@[simp] theorem observed_ofOutcome (o : Outcome T α) :
    (ofOutcome o).observed keep = ofOutcome o := rfl
@[simp] theorem observed_ask (p : Nat) : (ask p : Run T Unit).observed keep = ask p := rfl
@[simp] theorem observed_attempt (x : Run T α) :
    x.attempt.observed keep = (x.observed keep).attempt := rfl

theorem observed_emit {e : Event T} (h : keep e = true) : (emit e).observed keep = emit e := by
  simp [observed, emit, h]

theorem observed_emit_of_hidden {e : Event T} (h : keep e = false) :
    (emit e).observed keep = pure () := by
  simp [observed, emit, h, pure_def]

theorem observed_bind (x : Run T α) (f : α → Run T β) :
    (x >>= f).observed keep = x.observed keep >>= fun a => (f a).observed keep := by
  have ho : (x.observed keep).outcome? = x.outcome? := rfl
  rcases h : x.outcome? with _ | e | a
  · rw [bind_of_none h, bind_of_none (ho.trans h)]
    rfl
  · rw [bind_of_error h, bind_of_error (ho.trans h)]
    rfl
  · rw [bind_of_ok h, bind_of_ok (ho.trans h)]
    simp [observed]

theorem observed_bind_congr {x y : Run T α} {f g : α → Run T β}
    (h : x.observed keep = y.observed keep)
    (hf : ∀ a, (f a).observed keep = (g a).observed keep) :
    (x >>= f).observed keep = (y >>= g).observed keep := by
  rw [observed_bind, observed_bind, h, funext hf]

theorem observed_attempt_bind (x : Run T α) {f g : Outcome T α → Run T β}
    (hok : ∀ a, (f (.ok a)).observed keep = g (.ok a))
    (herror : ∀ e, (f (.error e)).observed keep = g (.error e)) :
    (x.attempt >>= f).observed keep = (x.observed keep).attempt >>= g := by
  rw [observed_bind, observed_attempt]
  refine congrArg (Bind.bind _) (funext fun o => ?_)
  cases o with
  | ok a => exact hok a
  | error e => exact herror e

end Run

namespace Parser
open Run
variable {T α β γ : Type} {keep : Event T → Bool}

def observed (keep : Event T → Bool) (p : Parser T α) : Parser T α :=
  fun c => (p c).observed keep

theorem observed_anyToken : observed keep (anyToken : Parser T T) = anyToken := by
  funext c
  simp only [observed, anyToken, observed_bind, observed_ask, observed_ofOutcome]

theorem observed_token [BEq T] (t : T) : observed keep (token t) = token t := by
  funext c
  have hany : (anyToken c).observed keep = anyToken c := congrFun observed_anyToken c
  simp only [observed, token, observed_bind, hany]
  refine congrArg (Bind.bind _) (funext fun r => ?_)
  split <;> rfl

theorem observed_succeed (a : α) : observed keep (succeed a : Parser T α) = succeed a := rfl

theorem observed_reshape (f : α → β) (p : Parser T α) :
    observed keep (reshape f p) = reshape f (observed keep p) := by
  funext c
  simp only [observed, reshape, observed_bind, observed_pure]

theorem observed_seq (p : Parser T α) (q : Parser T β) :
    observed keep (seq p q) = seq (observed keep p) (observed keep q) := by
  funext c
  simp only [observed, seq, observed_bind, observed_pure]

theorem observed_orElse (p q : Parser T α) :
    observed keep (orElse p q) = orElse (observed keep p) (observed keep q) :=
  funext fun c => observed_attempt_bind (p c) (fun _ => rfl) (fun _ => rfl)

theorem observed_optional (p : Parser T α) :
    observed keep (optional p) = optional (observed keep p) :=
  funext fun c => observed_attempt_bind (p c) (fun _ => rfl) (fun _ => rfl)

theorem observed_notFollowedBy (p : Parser T α) :
    observed keep (notFollowedBy p) = notFollowedBy (observed keep p) :=
  funext fun c => observed_attempt_bind (p c) (fun _ => rfl) (fun _ => rfl)

theorem observed_lookAhead (p : Parser T α) :
    observed keep (lookAhead p) = lookAhead (observed keep p) := by
  funext c
  simp only [observed, lookAhead, observed_bind, observed_pure]

theorem observed_between (p : Parser T α) (q : Parser T β) (r : Parser T γ) :
    observed keep (between p q r) =
      between (observed keep p) (observed keep q) (observed keep r) := by
  funext c
  simp only [observed, between, observed_bind, observed_pure]

section Repetition
variable (hstopped : ∀ e place k, keep (.stopped e place k) = true)
include hstopped

theorem observed_attempts (b : Bounds) (p : Parser T α) (budget k : Nat) (c : Cursor T) :
    (attempts b p budget k c).observed keep = attempts b (observed keep p) budget k c := by
  induction budget generalizing k c with
  | zero =>
    unfold attempts
    split <;> rfl
  | succ budget ih =>
    unfold attempts
    split
    · rfl
    · refine observed_attempt_bind (p c) (fun r => ?_) (fun e => ?_)
      · simp only [observed_bind, ih, observed_pure]
      · simp only [observed_bind, observed_emit (hstopped _ _ _), observed_pure]

theorem observed_repeated (b : Bounds) (p : Parser T α) (budget : Nat) :
    observed keep (repeated b p budget) = repeated b (observed keep p) budget := by
  funext c
  simp only [observed, repeated, observed_bind, observed_attempts hstopped, observed_ofOutcome]

end Repetition

theorem observed_separated (item : Parser T α) (sep : Parser T β) (budget : Nat) (c : Cursor T) :
    (separated item sep budget c).observed keep =
      separated (observed keep item) (observed keep sep) budget c := by
  induction budget generalizing c with
  | zero => rfl
  | succ budget ih =>
    refine observed_attempt_bind (sep c) (fun s => ?_) (fun e => rfl)
    simp only [observed_bind, ih, observed_pure]
    rfl

theorem observed_sepBy1 (item : Parser T α) (sep : Parser T β) (budget : Nat) :
    observed keep (sepBy1 item sep budget) =
      sepBy1 (observed keep item) (observed keep sep) budget := by
  funext c
  simp only [observed, sepBy1, observed_bind, observed_separated, observed_pure]

end Parser
end TokenGrammar
