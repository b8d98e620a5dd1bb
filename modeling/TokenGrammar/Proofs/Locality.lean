import TokenGrammar.Proofs.Parametricity
import TokenGrammar.Proofs.Shape

/-! What surrounds a parse. A run depends on nothing but the tokens that it asks for: tokens
elsewhere may be exchanged, and the tokens in front of its start may be left out, which moves all
its places by their number. -/
namespace TokenGrammar
variable {T : Type}

namespace Failure

def shift (n : Nat) : Failure T → Failure T
  | unexpectedToken expected actual place => unexpectedToken expected actual (place + n)
  | unexpectedEnd place => unexpectedEnd (place + n)
  | rejected => rejected
  | unexpectedMatch place => unexpectedMatch (place + n)
  | trailing actual place => trailing actual (place + n)

@[simp] theorem shift_zero (e : Failure T) : e.shift 0 = e := by
  cases e <;> rfl

theorem Matches.eq_shift {n : Nat} {e e' : Failure T} (h : e.Matches Eq n e') :
    e = e'.shift n := by
  cases h with
  | unexpectedToken place hexpected hactual =>
    subst hexpected hactual
    rfl
  | unexpectedEnd place | unexpectedMatch place => rfl
  | rejected => rfl
  | trailing place hactual =>
    subst hactual
    rfl

end Failure

namespace Event

def shift (n : Nat) : Event T → Event T
  | logged message start stop => logged message (start + n) (stop + n)
  | stopped cause place collected => stopped (cause.shift n) (place + n) collected
  | e => e

@[simp] theorem shift_zero (e : Event T) : e.shift 0 = e := by
  cases e <;> simp [shift]

theorem Matches.eq_shift {n : Nat} {e e' : Event T} (h : e.Matches Eq n e') : e = e'.shift n := by
  cases h with
  | stopped place collected hcause =>
    rw [hcause.eq_shift]
    rfl
  | called | tapped | entered | logged => rfl

end Event

namespace Run
variable {α : Type}

/-- The same run, the cursor behind it standing in another sequence. -/
def onto (ts : List T) (x : Run T (α × Cursor T)) : Run T (α × Cursor T) :=
  (fun r => (r.1, ⟨ts, r.2.position⟩)) <$> x

/-- The same run `n` tokens further on, in the given sequence. -/
def shift (n : Nat) (ts : List T) (x : Run T (α × Cursor T)) : Run T (α × Cursor T) where
  outcome? := x.outcome?.map fun
    | .ok r => .ok (r.1, ⟨ts, r.2.position + n⟩)
    | .error e => .error (e.shift n)
  events := x.events.map (Event.shift n)
  reads := x.reads.map (· + n)

theorem outcome?_onto (ts : List T) (x : Run T (α × Cursor T)) : (x.onto ts).outcome? =
    x.outcome?.map (Except.map fun r => (r.1, ⟨ts, r.2.position⟩)) := outcome?_map _ x

theorem shift_zero (ts : List T) (x : Run T (α × Cursor T)) : x.shift 0 ts = x.onto ts := by
  have hevents : x.events.map (Event.shift 0) = x.events := by
    rw [List.map_congr_left fun e _ => e.shift_zero, List.map_id']
  rcases h : x.outcome? with _ | _ | _ <;> ext1 <;> simp [shift, onto, h, Except.map, hevents]

theorem Matches.eq_shift [BEq T] {A : Alignment T T} {x y : Run T (α × Cursor T)}
    (h : x.Matches Eq A.offset (A.Answers Eq) y) : x = y.shift A.offset A.left := by
  have hevents : List.Forall₂ (fun e e' => e = e'.shift A.offset) x.events y.events :=
    h.events.imp fun _ _ he => he.eq_shift
  ext1
  · show x.outcome? = Option.map _ y.outcome?
    have ho := h.outcome
    generalize x.outcome? = o, y.outcome? = o' at ho ⊢
    rcases ho with (hr | he) | _
    · obtain ⟨rfl, q⟩ := hr
      rfl
    · rw [he.eq_shift]
      rfl
    · rfl
  · rwa [← List.forall₂_map_right_iff (R := Eq), List.forall₂_eq_eq_eq] at hevents
  · exact h.reads

end Run

theorem optionRel_eq_iff {α : Type} {o o' : Option α} : Option.Rel Eq o o' ↔ o = o' := by
  constructor
  · rintro (rfl | _) <;> rfl
  · rintro rfl
    cases o with
    | none => exact .none
    | some a => exact .some rfl

/-- Two sequences over one kind of tokens, of which those places are trusted that hold the same
token, or none, in both. -/
def Alignment.agreement [BEq T] (left right : List T) (offset : Nat) : Alignment T T where
  left := left
  right := right
  offset := offset
  related := Eq
  trusted q := left[q + offset]? = right[q]?
  beq_eq := by
    rintro t t' _ _ rfl rfl
    rfl
  tokens _ h := optionRel_eq_iff.mpr h

namespace Grammar
variable {N : Type} {O : N → Type}

theorem IsStandard.related_self {α : Type} {g : Grammar T O α} (hg : g.IsStandard) :
    Related Eq (fun _ => Eq) Eq g g := by
  induction g with
  | anyToken => exact .anyToken
  | token t => exact .token rfl
  | succeed a => exact .succeed rfl
  | custom step => exact hg.elim
  | map f g ih => exact .map (fun _ _ h => congrArg f h) (ih hg)
  | reshape f g ih => exact .reshape (fun _ _ h => congrArg f h) (ih hg)
  | filter accept g ih => exact .filter (fun _ _ h => congrArg accept h) (ih hg)
  | chain g next combine ih ihn =>
    have hnext : ∀ a b, a = b → Related Eq (fun _ => Eq) Eq (next a) (next b) := by
      rintro a _ rfl
      exact ihn a (hg.2 a)
    exact .chain (ih hg.1) hnext fun _ _ _ _ h h' => congrArg₂ combine h h'
  | @seq α β g h ihg ihh =>
    have hpair : (fun r s : α × β => r.1 = s.1 ∧ r.2 = s.2) = Eq := by
      funext r s
      exact propext Prod.ext_iff.symm
    rw [← hpair]
    exact .seq (ihg hg.1) (ihh hg.2)
  | orElse g h ihg ihh => exact .orElse (ihg hg.1) (ihh hg.2)
  | @optional α g ih =>
    have hoption : Option.Rel (Eq : α → α → Prop) = Eq := by
      funext o o'
      exact propext optionRel_eq_iff
    rw [← hoption]
    exact .optional (ih hg)
  | notFollowedBy g ih => exact .notFollowedBy (ih hg)
  | lookAhead g ih => exact .lookAhead (ih hg)
  | between g h k ihg ihh ihk => exact .between (ihg hg.1) (ihh hg.2.1) (ihk hg.2.2)
  | repeated b g ih =>
    rw [← List.forall₂_eq_eq_eq]
    exact .repeated b (ih hg)
  | sepBy1 item sep ihi ihs =>
    rw [← List.forall₂_eq_eq_eq]
    exact .sepBy1 (ihi hg.1) (ihs hg.2)
  | log message g ih => exact .log message (ih hg)
  | tap label g ih => exact .tap label (ih hg)
  | shared g ih => exact .shared (ih hg)
  | rule n => exact .rule n

end Grammar

namespace Rules
variable {N : Type} {O : N → Type} {α : Type} [BEq T] {R : Rules T O}
open TokenGrammar.Alignment

section Standard
variable (hR : ∀ n, (R.body n).IsStandard) {g : Grammar T O α} (hg : g.IsStandard)
include hR hg

/-- Under every budget a parse is what the parse of another sequence would be further on, if both
sequences agree wherever that one asks for a token. -/
theorem parse_eq_shift (budget n : Nat) {ts us : List T} {p : Nat}
    (hreads : ∀ q ∈ (R.parse budget g ⟨us, p⟩).reads, ts[q + n]? = us[q]?) :
    R.parse budget g ⟨ts, p + n⟩ = (R.parse budget g ⟨us, p⟩).shift n ts := by
  have hstep : (agreement ts us n).InStep Eq (R.parse budget g) (R.parse budget g) :=
    parse_inStep (fun n => (hR n).related_self) (fun _ => rfl) budget hg.related_self
  exact (hstep p hreads).eq_shift

theorem parse_onto (budget : Nat) {ts us : List T} {p : Nat}
    (hreads : ∀ q ∈ (R.parse budget g ⟨ts, p⟩).reads, ts[q]? = us[q]?) :
    R.parse budget g ⟨us, p⟩ = (R.parse budget g ⟨ts, p⟩).onto us := by
  rw [← Run.shift_zero]
  exact parse_eq_shift hR hg budget 0 fun q hq => (hreads q hq).symm

theorem parse_restart (budget : Nat) (ts : List T) (p : Nat) :
    R.parse budget g ⟨ts, p⟩ = (R.parse budget g (Cursor.restart ⟨ts, p⟩)).shift p ts := by
  have hreads : ∀ q ∈ (R.parse budget g ⟨ts.drop p, 0⟩).reads, ts[q + p]? = (ts.drop p)[q]? := by
    intro q _
    rw [List.getElem?_drop, Nat.add_comm]
  have hshift := parse_eq_shift hR hg budget p hreads
  rwa [Nat.zero_add] at hshift

end Standard

/-- A run that comes to its end asks for certain tokens and depends on no others. Over another
sequence that goes on alike at those places it is the same run, its trailing cursor apart; and if
it never asks for a token at the end, it is the same whatever is appended. -/
theorem parse_depends_on_reads (R : Rules T O) (hR : ∀ n, (R.body n).IsStandard)
    (g : Grammar T O α) (hg : g.IsStandard) (ts : List T) (p : Nat) (x : Run T (α × Cursor T))
    (hx : R.Yields g ⟨ts, p⟩ x) :
    (∀ us, (∀ q ∈ x.reads, ts[q]? = us[q]?) → R.Yields g ⟨us, p⟩ (x.onto us)) ∧
    ((∀ q ∈ x.reads, Cursor.isAtEnd ⟨ts, q⟩ = false) →
      ∀ vs, R.Yields g ⟨ts ++ vs, p⟩ (x.onto (ts ++ vs))) := by
  obtain ⟨hended, budget, rfl⟩ := hx
  have hexchange : ∀ us, (∀ q ∈ (R.parse budget g ⟨ts, p⟩).reads, ts[q]? = us[q]?) →
      R.Yields g ⟨us, p⟩ ((R.parse budget g ⟨ts, p⟩).onto us) := by
    intro us hreads
    refine ⟨?_, budget, parse_onto hR hg budget hreads⟩
    rw [Run.outcome?_onto]
    simpa using hended
  refine ⟨hexchange, fun hend vs => hexchange (ts ++ vs) fun q hq => ?_⟩
  have hlt : q < ts.length := by simpa [Cursor.isAtEnd] using hend q hq
  rw [List.getElem?_append_left hlt]

/-- Nested brackets in a row, behind something else and in front of something else, are read
without a look at either. -/
theorem groups_depend_on_reads :
    let ts := [",", "(", "x", ")", ";", "x"]
    let us := ["?", "(", "x", ")", ";"]
    let x := nested.parse 9 groups ⟨ts, 1⟩
    x.outcome? = some (.ok ([1], ⟨ts, 4⟩)) ∧ x.reads = [1, 1, 2, 3, 4, 4] ∧
      nested.Yields groups ⟨us, 1⟩ (x.onto us) ∧
      ∀ vs, nested.Yields groups ⟨ts ++ vs, 1⟩ (x.onto (ts ++ vs)) := by
  intro ts us x
  have hreads : x.reads = [1, 1, 2, 3, 4, 4] := rfl
  have hlocal := parse_depends_on_reads nested nested_isStandard groups trivial ts 1 x
    ⟨rfl, 9, rfl⟩
  rw [hreads] at hlocal
  exact ⟨rfl, hreads, hlocal.1 us (by decide), hlocal.2 (by decide)⟩

/-- A parse from a place and a parse of the tokens that remain there are one and the same: both
come to their end or neither does, and the first is the second with all places, those in events
and failures as well, moved to where it started. -/
theorem parse_translates (R : Rules T O) (hR : ∀ n, (R.body n).IsStandard) (g : Grammar T O α)
    (hg : g.IsStandard) (ts : List T) (p : Nat) (y : Run T (α × Cursor T)) :
    R.Yields g ⟨ts, p⟩ y ↔ ∃ x, R.Yields g (Cursor.restart ⟨ts, p⟩) x ∧ y = x.shift p ts := by
  constructor
  · rintro ⟨hended, budget, rfl⟩
    beta_reduce at hended ⊢
    rw [parse_restart hR hg] at hended ⊢
    refine ⟨R.parse budget g (Cursor.restart ⟨ts, p⟩), ⟨?_, budget, rfl⟩, rfl⟩
    simpa [Run.shift] using hended
  · rintro ⟨_, ⟨hended, budget, rfl⟩, rfl⟩
    refine ⟨?_, budget, parse_restart hR hg budget ts p⟩
    simpa [Run.shift] using hended

/-- Behind one token, nested brackets in a row are read as they are in front of it, one place
further on; and so far on stands what ended the row. -/
theorem groups_translate :
    let ts := [",", "(", "x", ")", ";", "x"]
    let y := nested.parse 9 groups ⟨ts, 1⟩
    y.outcome? = some (.ok ([1], ⟨ts, 4⟩)) ∧ y.events.getLast? =
        some (.stopped (.unexpectedToken "(" ";" 4) 4 1) ∧
      ∃ x, nested.Yields groups ⟨["(", "x", ")", ";", "x"], 0⟩ x ∧ y = x.shift 1 ts := by
  intro ts y
  have htranslate := parse_translates nested nested_isStandard groups trivial ts 1 y
  exact ⟨rfl, rfl, htranslate.mp ⟨rfl, 9, rfl⟩⟩

end Rules
end TokenGrammar
