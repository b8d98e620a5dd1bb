import TokenGrammar.Proofs.Separation
import TokenGrammar.Proofs.Termination

/-! How much work loops are. A repetition of a parser that reads something whenever it succeeds runs
it at most once for each token that is left, and once more; one that its bound keeps from going on
runs whatever it repeats at most as often as there is room. Of a separated list it is enough that
either part reads something. A run of a parser inside a loop is counted by an event that the parser
has in place of its own. -/
namespace TokenGrammar

namespace Run
variable {T α β : Type}

def entries (x : Run T α) : Nat :=
  x.events.countP fun
    | .entered _ => true
    | _ => false

@[simp] theorem entries_map (f : α → β) (x : Run T α) : (f <$> x).entries = x.entries := by
  simp [entries]

theorem entries_bind_of_ok {x : Run T α} {a : α} (h : x.outcome? = some (.ok a))
    (f : α → Run T β) : (x >>= f).entries = x.entries + (f a).entries := by
  rw [bind_of_ok h]
  simp [entries]

theorem entries_bind_of_error {x : Run T α} {e : Failure T} (h : x.outcome? = some (.error e))
    (f : α → Run T β) : (x >>= f).entries = x.entries := by
  rw [bind_of_error h]
  rfl

theorem entries_bind_of_none {x : Run T α} (h : x.outcome? = none) (f : α → Run T β) :
    (x >>= f).entries = x.entries := by
  rw [bind_of_none h]
  rfl

end Run

namespace Cursor
variable {T : Type} {c c' : Cursor T}

theorem Reaches.length_remaining_le (h : c.Reaches c') :
    c'.remaining.length ≤ c.remaining.length := by
  have hle : c.position ≤ c'.position := h.le
  rw [length_remaining, length_remaining, h.source]
  omega

theorem start_reaches {ts : List T} {s : Nat} (h : s ≤ ts.length) : (start ts).Reaches ⟨ts, s⟩ :=
  ⟨rfl, Nat.zero_le s, h⟩

end Cursor

namespace Parser
open Run
variable {T α β : Type} {c d : Cursor T}

/-- The parser with a single event, which tells that it is run. -/
def tallied (p : Parser T α) : Parser T α := fun c =>
  { p c with events := [.entered ""] }

def silenced (p : Parser T α) : Parser T α := fun c => { p c with events := [] }

/-- How often a loop runs a parser. -/
def runs (loop : Parser T α → Run T β) (p : Parser T α) : Nat := (loop (tallied p)).entries

section Repetition
variable {b : Bounds} {p : Parser T α} {budget k : Nat}

theorem runs_attempts_full (h : b.isFull k = true) :
    runs (fun q => attempts b q budget k c) p = 0 := by
  rw [runs, attempts_of_full h]
  rfl

theorem runs_attempts_zero : runs (fun q => attempts b q 0 k c) p = 0 := by
  unfold runs attempts
  split_ifs with h
  · rfl
  · rfl

theorem runs_attempts_ok {r : α × Cursor T} (hroom : b.isFull k = false)
    (h : (p c).outcome? = some (.ok r)) : runs (fun q => attempts b q (budget + 1) k c) p =
      runs (fun q => attempts b q budget (k + 1) r.2) p + 1 := by
  have htallied : (tallied p c).outcome? = some (.ok r) := h
  rw [runs, attempts_of_ok hroom htallied]
  simp [runs, entries, tallied]

theorem runs_attempts_not_ok (hroom : b.isFull k = false)
    (h : ∀ r, (p c).outcome? ≠ some (.ok r)) :
    runs (fun q => attempts b q (budget + 1) k c) p = 1 := by
  rcases ho : (p c).outcome? with _ | e | r
  · have htallied : (tallied p c).outcome? = none := ho
    rw [runs, attempts_of_none hroom htallied]
    rfl
  · have htallied : (tallied p c).outcome? = some (.error e) := ho
    rw [runs, attempts_of_error hroom htallied]
    rfl
  · exact absurd ho (h r)

/-- A measure that each success makes smaller, and that is positive as long as there is room, bounds
the number of attempts. -/
theorem runs_attempts_le {I : Cursor T → Prop} {μ : Nat → Cursor T → Nat}
    (hroom : ∀ k c, I c → b.isFull k = false → 0 < μ k c)
    (hstep : ∀ k c r, I c → b.isFull k = false → (p c).outcome? = some (.ok r) →
      I r.2 ∧ μ (k + 1) r.2 < μ k c) (budget k : Nat) (hc : I c) :
    runs (fun q => attempts b q budget k c) p ≤ μ k c := by
  induction budget generalizing k c with
  | zero =>
    rw [runs_attempts_zero]
    exact Nat.zero_le _
  | succ budget ih =>
    cases hfull : b.isFull k with
    | true =>
      rw [runs_attempts_full hfull]
      exact Nat.zero_le _
    | false =>
      by_cases hok : ∃ r, (p c).outcome? = some (.ok r)
      · obtain ⟨r, hr⟩ := hok
        obtain ⟨hI, hless⟩ := hstep k c r hc hfull hr
        have hlater := ih (k + 1) hI
        rw [runs_attempts_ok hfull hr]
        omega
      · rw [runs_attempts_not_ok hfull fun r hr => hok ⟨r, hr⟩]
        exact hroom k c hc hfull

theorem attempts_ended {y : Harvest T α}
    (h : (attempts b p budget k c).outcome? = some (.ok y)) :
    (b.isFull k = true ∧ y = ⟨[], c, none⟩) ∨ b.isFull k = false ∧ ∃ j, budget = j + 1 ∧
      ((∃ e, (p c).outcome? = some (.error e) ∧ y = ⟨[], c, some e⟩) ∨
        ∃ r later, (p c).outcome? = some (.ok r) ∧
          (attempts b p j (k + 1) r.2).outcome? = some (.ok later) ∧ y = later.cons r.1) := by
  cases hfull : b.isFull k with
  | true =>
    rw [attempts_of_full hfull] at h
    cases h
    exact .inl ⟨rfl, rfl⟩
  | false =>
    cases budget with
    | zero => simp [attempts, hfull, exhausted] at h
    | succ j =>
      refine .inr ⟨rfl, j, rfl, ?_⟩
      rcases ho : (p c).outcome? with _ | e | r
      · rw [attempts_of_none hfull ho] at h
        cases h
      · rw [attempts_of_error hfull ho] at h
        cases h
        exact .inl ⟨e, rfl, rfl⟩
      · rw [attempts_of_ok hfull ho] at h
        rcases hlater : (attempts b p j (k + 1) r.2).outcome? with _ | e | later
        · simp [hlater] at h
        · simp [hlater, Except.map] at h
        · simp only [hlater] at h
          cases h
          exact .inr ⟨r, later, rfl, hlater, rfl⟩

theorem row_of_attempts {y : Harvest T α}
    (h : (attempts b p budget k c).outcome? = some (.ok y)) :
    Row (Answers p) c y.items y.rest := by
  induction budget using Nat.strongRecOn generalizing k c y with
  | ind budget ih =>
    rcases attempts_ended h with
      ⟨-, rfl⟩ | ⟨-, j, rfl, ⟨e, -, rfl⟩ | ⟨r, later, hr, hlater, rfl⟩⟩
    · exact .nil c
    · exact .nil c
    · exact .cons hr (ih j (Nat.lt_succ_self j) hlater)

/-- A loop that came to its end has run its parser once for each item, and once more if it ended at
a failure. -/
theorem runs_attempts_eq {y : Harvest T α}
    (h : (attempts b p budget k c).outcome? = some (.ok y)) :
    runs (fun q => attempts b q budget k c) p = y.items.length + y.cause?.toList.length := by
  induction budget using Nat.strongRecOn generalizing k c y with
  | ind budget ih =>
    rcases attempts_ended h with
      ⟨hfull, rfl⟩ | ⟨hroom, j, rfl, ⟨e, he, rfl⟩ | ⟨r, later, hr, hlater, rfl⟩⟩
    · exact runs_attempts_full hfull
    · refine runs_attempts_not_ok hroom fun r hr => ?_
      simp [he] at hr
    · rw [runs_attempts_ok hroom hr, ih j (Nat.lt_succ_self j) hlater]
      exact Nat.add_right_comm _ _ _

end Repetition

section Lists
variable {I : Cursor T → Prop} {item : Parser T α} {sep : Parser T β} {budget : Nat}
  (hitem : ∀ c r, I c → (item c).outcome? = some (.ok r) → I r.2 ∧ c.Reaches r.2)
include hitem

theorem entries_sepBy1_le (hlater : ∀ d, I d →
      (separated (tallied item) (silenced sep) budget d).entries ≤ d.remaining.length)
    (hc : I c) :
    (sepBy1 (tallied item) (silenced sep) budget c).entries ≤ c.remaining.length + 1 := by
  have hsame : (tallied item c).outcome? = (item c).outcome? := rfl
  have hone : (tallied item c).entries = 1 := rfl
  unfold sepBy1
  rcases hr : (item c).outcome? with _ | e | r
  · rw [entries_bind_of_none (hsame.trans hr), hone]
    exact Nat.succ_le_succ (Nat.zero_le _)
  · rw [entries_bind_of_error (hsame.trans hr), hone]
    exact Nat.succ_le_succ (Nat.zero_le _)
  · obtain ⟨hrI, hreach⟩ := hitem c r hc hr
    have hkept : r.2.remaining.length ≤ c.remaining.length := hreach.length_remaining_le
    have hloop := hlater r.2 hrI
    rw [entries_bind_of_ok (hsame.trans hr), hone, bind_pure_comp, entries_map]
    omega

variable (hsep : ∀ c r, I c → (sep c).outcome? = some (.ok r) → I r.2 ∧ c.Moves True r.2)
include hsep

/-- Each further item is paid for by the token that its separator reads. -/
theorem entries_separated_le (budget : Nat) (hc : I c) :
    (separated (tallied item) (silenced sep) budget c).entries ≤ c.remaining.length := by
  induction budget generalizing c with
  | zero => exact Nat.zero_le _
  | succ budget ih =>
    have hsame : (silenced sep c).outcome? = (sep c).outcome? := rfl
    have hnone : (silenced sep c).attempt.entries = 0 := rfl
    unfold separated
    rcases hs : (sep c).outcome? with _ | e | s
    · rw [entries_bind_of_none (attempt_of_none (hsame.trans hs)), hnone]
      exact Nat.zero_le _
    · rw [entries_bind_of_ok (attempt_of_error (hsame.trans hs)), hnone]
      exact Nat.zero_le _
    · obtain ⟨hsI, hmove⟩ := hsep c s hc hs
      have hread : s.2.remaining.length < c.remaining.length := Cursor.length_remaining_lt hmove
      have hitems : (sepBy1 (tallied item) (silenced sep) budget s.2).entries ≤ _ :=
        entries_sepBy1_le hitem (fun d hd => ih hd) hsI
      rw [entries_bind_of_ok (attempt_of_ok (hsame.trans hs)), hnone, Nat.zero_add]
      exact hitems.trans hread

theorem runs_sepBy1_le (budget : Nat) (hc : I c) :
    runs (fun q => sepBy1 q (silenced sep) budget c) item ≤ c.remaining.length + 1 :=
  entries_sepBy1_le hitem (fun _ hd => entries_separated_le hitem hsep budget hd) hc

end Lists

theorem Row.length_le {I : Cursor T → Prop} {A : Cursor T → Outcome T (α × Cursor T) → Prop}
    {as : List α} (hA : ∀ c r, I c → A c (.ok r) → I r.2 ∧ c.Moves True r.2) (h : Row A c as d)
    (hc : I c) : I d ∧ c.position + as.length ≤ d.position := by
  induction h with
  | nil c => exact ⟨hc, Nat.le_refl _⟩
  | @cons c c' d a as ha _ ih =>
    obtain ⟨hc', hmove⟩ := hA c (a, c') hc ha
    obtain ⟨hd, hlater⟩ := ih hc'
    have hread : c.position < c'.position := hmove.lt trivial
    refine ⟨hd, ?_⟩
    rw [List.length_cons]
    omega

/-- Wherever they start in the tokens, the parsers come to an end; where they succeed, they stay in
the tokens and do not move back, and they read something if `s` holds. -/
structure Advances (s : Prop) (P : Nat → Parser T α) (ts : List T) : Prop where
  ends : ∀ c, (Cursor.start ts).Reaches c → Ends fun n => P n c
  moves : ∀ c r, (Cursor.start ts).Reaches c → Comes P c (.ok r) → c.Moves s r.2

section Families
variable {P : Nat → Parser T α} {Q : Nat → Parser T β} {ts : List T} {s u v : Prop} {b : Bounds}

theorem Advances.step (h : Advances s P ts) {r : α × Cursor T} (hc : (Cursor.start ts).Reaches c)
    (hr : Comes P c (.ok r)) : (Cursor.start ts).Reaches r.2 ∧ c.Moves s r.2 :=
  ⟨hc.trans (h.moves c r hc hr).reaches, h.moves c r hc hr⟩

theorem Advances.repeated_ends (hP : Steady P) (h : Advances True P ts) (b : Bounds)
    (hc : (Cursor.start ts).Reaches c) :
    ∃ y, Settles (fun n => attempts b (P n) n 0 c) (.ok y) ∧
      Comes (fun n => repeated b (P n) n) c (y.judge b) ∧
      c.position + y.items.length ≤ y.rest.position ∧ y.rest.position ≤ ts.length := by
  obtain ⟨y, hy⟩ := attempts_end_of_advancing (b := b) h.ends (fun c r hc hr => h.step hc hr)
    (c.remaining.length + 1) 0 c hc (Nat.lt_succ_self _)
  obtain ⟨n, hn⟩ := hy
  have hrow : Row (Comes P) c y.items y.rest :=
    (row_of_attempts (hn n (Nat.le_refl n))).mono fun d r hr => hP.comes n hr
  obtain ⟨hrest, hlength⟩ := hrow.length_le (fun c r hc hr => h.step hc hr) hc
  exact ⟨y, attempts_settles_diagonal ⟨n, hn⟩, repeated_settles ⟨n, hn⟩, hlength, hrest.le_length⟩

theorem Advances.runs_attempts_le (hP : Steady P) (h : Advances True P ts) (b : Bounds) (n : Nat)
    (hc : (Cursor.start ts).Reaches c) :
    runs (fun p => attempts b p n 0 c) (P n) ≤ c.remaining.length + 1 := by
  refine Parser.runs_attempts_le (I := (Cursor.start ts).Reaches)
    (μ := fun _ d => d.remaining.length + 1)
    (fun k d _ _ => Nat.succ_pos _) (fun k d r hd _ hr => ?_) n 0 hc
  obtain ⟨hreach, hmove⟩ := h.step hd (hP.comes n hr)
  have hless : r.2.remaining.length < d.remaining.length := Cursor.length_remaining_lt hmove
  exact ⟨hreach, Nat.succ_lt_succ hless⟩

theorem runs_attempts_le_most {p : Parser T α} {most : Nat} (hlimit : b.limit = .capped)
    (hmost : b.most = some most) (n : Nat) : runs (fun q => attempts b q n 0 c) p ≤ most := by
  have hroom (k : Nat) (hfull : b.isFull k = false) : k < most := by
    simpa [Bounds.isFull, hlimit, hmost] using hfull
  refine runs_attempts_le (I := fun _ => True) (μ := fun k _ => most - k)
    (fun k d _ hfull => ?_) (fun k d r _ hfull _ => ⟨trivial, ?_⟩) n 0 trivial
  · exact Nat.sub_pos_of_lt (hroom k hfull)
  · have hless : k < most := hroom k hfull
    omega

theorem Advances.sepBy1_ends (h : Advances u P ts) (hsep : Advances v Q ts) (hread : u ∨ v)
    (hc : (Cursor.start ts).Reaches c) : Ends fun n => sepBy1 (P n) (Q n) n c :=
  Parser.sepBy1_ends hc.inBounds (fun c' hc' => h.ends c' (hc.trans hc'))
    (fun c' hmove => hsep.ends c' (hc.trans hmove.reaches))
    (fun c' r hc' hr => h.moves c' r (hc.trans hc') hr)
    (fun c' r hc' hr => hsep.moves c' r (hc.trans hc') hr) hread

theorem Advances.length_items_le (h : Advances u P ts) (hsep : Advances True Q ts)
    {vs : List α} (hc : (Cursor.start ts).Reaches c) (hvs : Items (Comes Q) (Comes P) c vs d) :
    c.position + vs.length ≤ d.position + 1 ∧ d.position ≤ ts.length := by
  obtain ⟨a, c₁, as, rfl, ha, hrow⟩ := hvs
  obtain ⟨hc₁, hfirst⟩ := h.step hc ha
  have hpair (c : Cursor T) (r : α × Cursor T) (hc : (Cursor.start ts).Reaches c)
      (hr : Behind (Comes Q) (Comes P) c (.ok r)) :
      (Cursor.start ts).Reaches r.2 ∧ c.Moves True r.2 := by
    obtain ⟨t, ht, hr⟩ := hr
    obtain ⟨htI, htMoves⟩ := hsep.step hc ht
    obtain ⟨hrI, hrMoves⟩ := h.step htI hr
    exact ⟨hrI, (htMoves.trans hrMoves).weaken .inl⟩
  obtain ⟨hd, hlength⟩ := hrow.length_le hpair hc₁
  have hkept : c.position ≤ c₁.position := hfirst.reaches.le
  refine ⟨?_, hd.le_length⟩
  rw [List.length_cons]
  omega

theorem Advances.runs_sepBy1_le (hP : Steady P) (hQ : Steady Q) (h : Advances u P ts)
    (hsep : Advances True Q ts) (n : Nat) (hc : (Cursor.start ts).Reaches c) :
    runs (fun p => sepBy1 p (silenced (Q n)) n c) (P n) ≤ c.remaining.length + 1 := by
  refine Parser.runs_sepBy1_le (I := (Cursor.start ts).Reaches) (fun c r hc hr => ?_)
    (fun c r hc hr => hsep.step hc (hQ.comes n hr)) n hc
  obtain ⟨hreach, hmove⟩ := h.step hc (hP.comes n hr)
  exact ⟨hreach, hmove.reaches⟩

end Families

theorem advances_anyToken (ts : List T) : Advances True (fun _ => anyToken) ts where
  ends c _ := ⟨c.consume, .const rfl⟩
  moves c r _ hr := by
    have hconsume : c.consume = .ok r := Option.some.inj (settles_const_iff.mp hr)
    obtain ⟨hpeek, hbehind⟩ := Cursor.consume_eq_ok.mp hconsume
    rw [hbehind]
    exact Cursor.moves_advance hpeek

/-- A loop that has come to its end has run its parser once for each item and for the failure that
it ended at. Where the parser reads something with each success, every repetition comes to its end;
its items are no more than the tokens that it passes, and it never runs the parser more than once
for each token left and once more. A repetition that its bound keeps from going on runs any parser
at most so many times. A separated list comes to its end if its item or its separator reads
something with each success; if the separator does, it has at most one item more than tokens were
left, and its item is run no more often even if one that is owed fails in the end. -/
theorem loops_bounded {P : Nat → Parser T α} {Q : Nat → Parser T β} (hP : Steady P)
    (hQ : Steady Q) (ts : List T) :
    (∀ b c n y, (attempts b (P n) n 0 c).outcome? = some (.ok y) →
      runs (fun p => attempts b p n 0 c) (P n) = y.items.length + y.cause?.toList.length) ∧
    (Advances True P ts → ∀ b s, s ≤ ts.length →
      (∃ y, Settles (fun n => attempts b (P n) n 0 ⟨ts, s⟩) (.ok y) ∧
        Comes (fun n => repeated b (P n) n) ⟨ts, s⟩ (y.judge b) ∧
        s + y.items.length ≤ y.rest.position ∧ y.rest.position ≤ ts.length) ∧
      ∀ n, runs (fun p => attempts b p n 0 ⟨ts, s⟩) (P n) ≤ ts.length - s + 1) ∧
    (∀ b m, b.limit = .capped → b.most = some m → (∀ c, Ends fun n => P n c) → ∀ c,
      (∃ y, Settles (fun n => attempts b (P n) n 0 c) (.ok y) ∧
        Comes (fun n => repeated b (P n) n) c (y.judge b)) ∧
      ∀ n, runs (fun p => attempts b p n 0 c) (P n) ≤ m) ∧
    ∀ u v, u ∨ v → Advances u P ts → Advances v Q ts → ∀ s, s ≤ ts.length →
      Ends (fun n => sepBy1 (P n) (Q n) n ⟨ts, s⟩) ∧
      (v → (∀ vs d, Comes (fun n => sepBy1 (P n) (Q n) n) ⟨ts, s⟩ (.ok (vs, d)) →
          s + vs.length ≤ d.position + 1 ∧ d.position ≤ ts.length) ∧
        ∀ n, runs (fun p => sepBy1 p (silenced (Q n)) n ⟨ts, s⟩) (P n) ≤ ts.length - s + 1) := by
  have hleft (s : Nat) : (Cursor.mk ts s).remaining.length = ts.length - s :=
    Cursor.length_remaining _
  refine ⟨fun b c n y hy => runs_attempts_eq hy, ?_, ?_, ?_⟩
  · intro hadvances b s hs
    have hstart := Cursor.start_reaches hs
    refine ⟨hadvances.repeated_ends hP b hstart, fun n => ?_⟩
    rw [← hleft s]
    exact hadvances.runs_attempts_le hP b n hstart
  · intro b m hlimit hmost hends c
    obtain ⟨y, hy⟩ := attempts_end_of_capped (I := fun _ => True) hlimit hmost
      (fun c _ => hends c) (fun _ _ _ _ => trivial) m 0 c trivial (Nat.le_add_left m 0)
    refine ⟨⟨y, attempts_settles_diagonal hy, repeated_settles hy⟩, fun n => ?_⟩
    exact runs_attempts_le_most hlimit hmost n
  · intro u v hread hitem hsep s hs
    have hstart := Cursor.start_reaches hs
    refine ⟨hitem.sepBy1_ends hsep hread hstart, fun hv => ?_⟩
    have hreads : Advances True Q ts :=
      ⟨hsep.ends, fun c r hc hr => (hsep.moves c r hc hr).weaken fun _ => hv⟩
    refine ⟨fun vs d hvs => ?_, fun n => ?_⟩
    · exact hitem.length_items_le hreads hstart ((comes_sepBy1_ok_iff hP hQ).mp hvs).1
    · rw [← hleft s]
      exact hitem.runs_sepBy1_le hP hQ hreads n hstart

/-- Of two tokens the bounds are attained: the repetition is run a third time, at the end, and
between three items that read nothing there are two tokens that do. -/
theorem loops_bounded_on_two_tokens :
    let units : Parser String Unit := succeed ()
    let ts := ["a", "b"]
    Advances True (fun _ => (anyToken : Parser String String)) ts ∧
      (∀ b n, runs (fun p => attempts b p n 0 ⟨ts, 0⟩) (anyToken : Parser String String) ≤ 3) ∧
      runs (fun p => attempts (.atLeast 0) p 3 0 ⟨ts, 0⟩) (anyToken : Parser String String) = 3 ∧
      (∀ n, runs (fun p => attempts (.upTo 5) p n 0 ⟨ts, 9⟩) units ≤ 5) ∧
      Ends (fun n => sepBy1 units (anyToken : Parser String String) n ⟨ts, 0⟩) ∧
      (∀ n, runs (fun p => sepBy1 p (silenced (anyToken : Parser String String)) n ⟨ts, 0⟩) units
        ≤ 3) ∧
      (sepBy1 units (anyToken : Parser String String) 3 ⟨ts, 0⟩).outcome? =
        some (.ok ([(), (), ()], ⟨ts, 2⟩)) := by
  intro units ts
  have htokens : Advances True (fun _ => (anyToken : Parser String String)) ts :=
    advances_anyToken ts
  have hunits : Advances False (fun _ => units) ts := by
    refine ⟨fun c _ => .pure _, fun c r hc hr => ?_⟩
    have hsame : (units c).outcome? = some (.ok r) := settles_const_iff.mp hr
    cases hsame
    exact (Cursor.Reaches.refl hc.inBounds).moves
  obtain ⟨-, hrepeated, -, -⟩ := loops_bounded (.const (anyToken : Parser String String))
    (.const (anyToken : Parser String String)) ts
  obtain ⟨-, -, hcapped, hlist⟩ := loops_bounded (.const units)
    (.const (anyToken : Parser String String)) ts
  obtain ⟨hends, hitems⟩ := hlist False True (.inr trivial) hunits htokens 0 (Nat.zero_le _)
  exact ⟨htokens, fun b n => (hrepeated htokens b 0 (Nat.zero_le _)).2 n, rfl,
    fun n => (hcapped (.upTo 5) 5 rfl rfl (fun c => .pure _) ⟨ts, 9⟩).2 n, hends,
    (hitems trivial).2, rfl⟩

end Parser
end TokenGrammar
