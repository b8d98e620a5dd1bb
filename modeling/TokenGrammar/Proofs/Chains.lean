import TokenGrammar.Proofs.Observation

/-! The laws of chains. How three parsers in a row are bracketed makes no difference, save for when
their values are put together; a chain that begins or ends with a fixed value is a map. -/
namespace TokenGrammar

namespace Event
variable {T : Type}

/-- Whether the event is anything else than the call of a function of the user. -/
def isNoCall : Event T → Bool
  | called _ => false
  | logged _ _ _ | tapped _ | entered _ | stopped _ _ _ => true

def isNoCombination : Event T → Bool
  | called .combiner => false
  | _ => true

@[simp] theorem isNoCall_called (callback : Callback) :
    (called callback : Event T).isNoCall = false := rfl
@[simp] theorem isNoCall_stopped (cause : Failure T) (place k : Nat) :
    (stopped cause place k).isNoCall = true := rfl
@[simp] theorem isNoCombination_combiner :
    (called .combiner : Event T).isNoCombination = false := rfl

end Event

namespace Parser
open Run
variable {T α β γ δ : Type}

/-- A chain whose functions are called without anyone seeing it. -/
def link (p : Parser T α) (next : α → Parser T β) (combine : α → β → γ) : Parser T γ :=
  fun c => do
    let r ← p c
    let s ← next r.1 r.2
    pure (combine r.1 s.1, s.2)

theorem succeed_link (a : α) (next : α → Parser T β) (combine : α → β → γ) :
    link (succeed a) next combine = reshape (combine a) (next a) := by
  funext c
  simp only [link, succeed, reshape, pure_bind]

theorem link_succeed (p : Parser T α) (f : α → β) (combine : α → β → γ) :
    link p (fun a => succeed (f a)) combine = reshape (fun a => combine a (f a)) p := by
  funext c
  simp only [link, succeed, reshape, pure_bind]

theorem observed_map_unseen (f : α → β) (p : Parser T α) :
    observed Event.isNoCall (map f p) = reshape f (observed Event.isNoCall p) := by
  funext c
  simp only [observed, map, mapped, reshape, observed_bind,
    observed_emit_of_hidden (Event.isNoCall_called _), observed_pure, pure_bind]
  rfl

theorem observed_chain_unseen (p : Parser T α) (next : α → Parser T β)
    (combine : α → β → γ) : observed Event.isNoCall (chain p next combine) =
      link (observed Event.isNoCall p) (fun a => observed Event.isNoCall (next a)) combine := by
  funext c
  simp only [observed, chain, chained, link, observed_bind,
    observed_emit_of_hidden (Event.isNoCall_called _), observed_pure, pure_bind]

end Parser

namespace Run
variable {T α β : Type} {x : Run T α} {e : Failure T} {es : List (Event T)}

def FailsWith (x : Run T α) (e : Failure T) (es : List (Event T)) : Prop :=
  x.outcome? = some (.error e) ∧ x.events = es

theorem map_failsWith (f : α → β) : (f <$> x).FailsWith e es ↔ x.FailsWith e es := by
  rw [FailsWith, FailsWith, outcome?_map, events_map]
  rcases x.outcome? with _ | e' | a <;> simp [Except.map]

theorem emit_between_failsWith {f : α → Run T β} {event : Event T} :
    (x >>= fun a => emit event >>= fun _ => f a).FailsWith e es ↔ x.FailsWith e es ∨
      ∃ a later, x.outcome? = some (.ok a) ∧ (f a).FailsWith e later ∧
        es = x.events ++ event :: later := by
  rcases h : x.outcome? with _ | e' | a
  · simp [FailsWith, bind_of_none h, h]
  · simp [FailsWith, bind_of_error h, h]
  · simp only [FailsWith, bind_of_ok h, emit_bind, h]
    grind

end Run

namespace Parser
open Run
variable {T α β γ δ : Type}

/-- Three parsers in a row, the second and the third chosen from the values before them. It is seen
how they are chosen, and not how the values are put together. -/
def threefold (p : Parser T α) (q : α → Parser T β) (r : α → β → Parser T γ)
    (combine : α → β → γ → δ) : Parser T δ := fun c => do
  let x ← p c
  emit (.called .continuation)
  let y ← q x.1 x.2
  emit (.called .continuation)
  let z ← r x.1 y.1 y.2
  pure (combine x.1 y.1 z.1, z.2)

/-- One of three parsers in a row fails, and the ones before it succeed. The events are those of
all of these and of the calls that chose them, and there are none of what would have followed. -/
inductive FailsInRow (p : Parser T α) (q : α → Parser T β) (r : α → β → Parser T γ)
    (c : Cursor T) (e : Failure T) : List (Event T) → Prop where
  | first {es : List (Event T)} (h : (p c).FailsWith e es) : FailsInRow p q r c e es
  | second {x : α × Cursor T} {es : List (Event T)} (hp : (p c).outcome? = some (.ok x))
      (h : (q x.1 x.2).FailsWith e es) :
      FailsInRow p q r c e ((p c).events ++ .called .continuation :: es)
  | third {x : α × Cursor T} {y : β × Cursor T} {es : List (Event T)}
      (hp : (p c).outcome? = some (.ok x)) (hq : (q x.1 x.2).outcome? = some (.ok y))
      (h : (r x.1 y.1 y.2).FailsWith e es) :
      FailsInRow p q r c e ((p c).events ++ .called .continuation ::
        ((q x.1 x.2).events ++ .called .continuation :: es))

theorem threefold_failsWith {p : Parser T α} {q : α → Parser T β} {r : α → β → Parser T γ}
    {combine : α → β → γ → δ} {c : Cursor T} {e : Failure T} {es : List (Event T)} :
    (threefold p q r combine c).FailsWith e es ↔ FailsInRow p q r c e es := by
  have hlast : ∀ (x : α × Cursor T) (y : β × Cursor T) es,
      (r x.1 y.1 y.2 >>= fun z => pure (combine x.1 y.1 z.1, z.2)).FailsWith e es ↔
        (r x.1 y.1 y.2).FailsWith e es := fun x y es => by
    rw [bind_pure_comp, map_failsWith]
  simp only [threefold, emit_between_failsWith, hlast]
  constructor
  · rintro (h | ⟨x, _, hp, h | ⟨y, _, hq, h, rfl⟩, rfl⟩)
    · exact .first h
    · exact .second hp h
    · exact .third hp hq h
  · rintro (h | ⟨hp, h⟩ | ⟨hp, hq, h⟩)
    · exact .inl h
    · exact .inr ⟨_, _, hp, .inl h, rfl⟩
    · exact .inr ⟨_, _, hp, .inr ⟨_, _, hq, h, rfl⟩, rfl⟩

section Associativity
variable {ε ζ : Type}

theorem observed_chain_chain (p : Parser T α) (f : α → Parser T β) (c₁ : α → β → γ)
    (g : γ → Parser T δ) (c₂ : γ → δ → ε) :
    observed Event.isNoCombination (chain (chain p f c₁) g c₂) =
      observed Event.isNoCombination
        (threefold p f (fun a b => g (c₁ a b)) fun a b d => c₂ (c₁ a b) d) := by
  funext c
  simp only [observed, chain, chained, threefold, observed_bind, bind_assoc, pure_bind,
    observed_emit_of_hidden Event.isNoCombination_combiner, observed_pure]

theorem observed_chain_next (p : Parser T α) (f : α → Parser T β) (g : α → β → Parser T δ)
    (c₃ : β → δ → ζ) (c₄ : α → ζ → ε) :
    observed Event.isNoCombination (chain p (fun a => chain (f a) (g a) c₃) c₄) =
      observed Event.isNoCombination (threefold p f g fun a b d => c₄ a (c₃ b d)) := by
  funext c
  simp only [observed, chain, chained, threefold, observed_bind, bind_assoc, pure_bind,
    observed_emit_of_hidden Event.isNoCombination_combiner, observed_pure]

end Associativity

/-- Chains are associative: bracketed in either way, three parsers have the same outcome, and but
for when values are put together the same events in the same order. If they fail, then as the first
of them does that fails, and nothing is seen of the ones behind it. A chain that begins with a fixed
value, or always ends with one, is a map. -/
theorem chain_laws (p : Parser T α) (f : α → Parser T β) (c₁ : α → β → γ) (c : Cursor T) :
    (∀ {δ ε ζ : Type} (g : γ → Parser T δ) (c₂ : γ → δ → ε) (c₃ : β → δ → ζ) (c₄ : α → ζ → ε),
      (∀ a b d, c₂ (c₁ a b) d = c₄ a (c₃ b d)) →
      let x := chain (chain p f c₁) g c₂ c
      let y := chain p (fun a => chain (f a) (fun b => g (c₁ a b)) c₃) c₄ c
      x.outcome? = y.outcome? ∧
      x.events.filter Event.isNoCombination = y.events.filter Event.isNoCombination ∧
      ∀ e, x.outcome? = some (.error e) ↔ ∃ es, FailsInRow p f (fun a b => g (c₁ a b)) c e es ∧
        x.events.filter Event.isNoCombination = es.filter Event.isNoCombination) ∧
    (∀ a, (chain (succeed a) f c₁ c).outcome? = (map (c₁ a) (f a) c).outcome?) ∧
    (∀ h : α → β, (chain p (fun a => succeed (h a)) c₁ c).outcome? =
      (map (fun a => c₁ a (h a)) p c).outcome?) := by
  refine ⟨?_, fun a => ?_, fun h => ?_⟩
  · intro δ ε ζ g c₂ c₃ c₄ hcombine x y
    let z := threefold p f (fun a b => g (c₁ a b)) (fun a b d => c₂ (c₁ a b) d) c
    have hx : x.observed Event.isNoCombination = z.observed Event.isNoCombination :=
      congrFun (observed_chain_chain p f c₁ g c₂) c
    have hy : y.observed Event.isNoCombination = z.observed Event.isNoCombination := by
      have hnext := congrFun (observed_chain_next p f (fun a b => g (c₁ a b)) c₃ c₄) c
      simp only [← hcombine] at hnext
      exact hnext
    have houtcome : x.outcome? = z.outcome? := outcome?_eq_of_observed hx
    have hxy := hx.trans hy.symm
    refine ⟨outcome?_eq_of_observed hxy, filter_events_eq_of_observed hxy, fun e => ⟨?_, ?_⟩⟩
    · intro he
      have hz : z.FailsWith e z.events := ⟨houtcome ▸ he, rfl⟩
      exact ⟨z.events, threefold_failsWith.mp hz, filter_events_eq_of_observed hx⟩
    · rintro ⟨es, hes, -⟩
      have hz : z.FailsWith e es := threefold_failsWith.mpr hes
      exact houtcome.trans hz.1
  · have halike : observed Event.isNoCall (chain (succeed a) f c₁) =
        observed Event.isNoCall (map (c₁ a) (f a)) := by
      rw [observed_chain_unseen, observed_succeed, succeed_link, observed_map_unseen]
    exact outcome?_eq_of_observed (congrFun halike c)
  · have halike : observed Event.isNoCall (chain p (fun a => succeed (h a)) c₁) =
        observed Event.isNoCall (map (fun a => c₁ a (h a)) p) := by
      simp only [observed_chain_unseen, observed_succeed, link_succeed, observed_map_unseen]
    exact outcome?_eq_of_observed (congrFun halike c)

/-- The second parser goes on in another sequence, where the third one fails. Bracketed to the left,
two values have been put together by then. -/
theorem chain_laws_elsewhere :
    let p : Parser String String := log "first" (token "a")
    let f : String → Parser String Nat := fun _ => custom fun c => .ok (c.position, .start ["b"])
    let g : String × Nat → Parser String String := fun _ => token "c"
    let x := chain (chain p f Prod.mk) g (fun v d => (v.1, v.2, d)) ⟨["a"], 0⟩
    let y := chain p (fun a => chain (f a) (fun b => g (a, b)) Prod.mk) Prod.mk ⟨["a"], 0⟩
    x.events = [.logged "first" 0 1, .called .continuation, .called .combiner,
        .called .continuation] ∧
      y.events = [.logged "first" 0 1, .called .continuation, .called .continuation] ∧
      x.outcome? = some (.error (.unexpectedToken "c" "b" 0)) ∧ x.outcome? = y.outcome? ∧
      x.events.filter Event.isNoCombination = y.events.filter Event.isNoCombination := by
  intro p f g x y
  have hlaws := (chain_laws p f Prod.mk ⟨["a"], 0⟩).1 g (fun v d => (v.1, v.2, d)) Prod.mk Prod.mk
    (fun _ _ _ => rfl)
  exact ⟨rfl, rfl, rfl, hlaws.1, hlaws.2.1⟩

end Parser
end TokenGrammar
