import Mathlib.Tactic.TFAE
import TokenGrammar.Proofs.Conservation
import TokenGrammar.Proofs.Rows
import TokenGrammar.Proofs.Soundness
import TokenGrammar.Session

/-! Cursors that are moved about. However tokens are read one at a time, copies are taken and reading
starts over on what remains, no cursor gets behind the end of its sequence, and its sequence is the
end of the one that everything began with. For a cursor in bounds all ways of asking whether it is at
the end agree with each other and with what reading does there. -/
namespace TokenGrammar

namespace Cursor
variable {T : Type} {ts us : List T} {c d : Cursor T} {t : T}

/-- The cursors that come from the start of a sequence by reading tokens and by starting over on the
remaining ones, in any order. A copy is the same cursor once more. -/
inductive Reachable (ts : List T) : Cursor T → Prop
  | start : Reachable ts (start ts)
  | consume {c d : Cursor T} {t : T} (h : Reachable ts c) (hread : c.consume = .ok (t, d)) :
      Reachable ts d
  | restart {c : Cursor T} (h : Reachable ts c) : Reachable ts c.restart

theorem Reachable.inBounds (h : Reachable ts c) : c.InBounds := by
  induction h with
  | start => exact Nat.zero_le _
  | consume _ hread _ =>
    obtain ⟨hpeek, rfl⟩ := consume_eq_ok.mp hread
    exact (moves_advance hpeek).reaches.inBounds
  | restart _ _ => exact Nat.zero_le _

theorem Reachable.source_suffix (h : Reachable ts c) : c.source <:+ ts := by
  induction h with
  | start => exact List.suffix_rfl
  | consume _ hread ih =>
    obtain ⟨-, rfl⟩ := consume_eq_ok.mp hread
    exact ih
  | restart _ ih => exact (List.drop_suffix _ _).trans ih

theorem InBounds.position_of_end (hc : c.InBounds) (h : c.peek? = none) :
    c.position = c.source.length :=
  Nat.le_antisymm hc (List.getElem?_eq_none_iff.mp h)

theorem InBounds.position_add_length_remaining (hc : c.InBounds) :
    c.position + c.remaining.length = c.source.length := by
  rw [length_remaining]
  exact Nat.add_sub_of_le hc

theorem InBounds.tfae_end (hc : c.InBounds) :
    List.TFAE [c.isAtEnd = true, c.peek? = none, c.remaining = [], ∃ e, c.consume = .error e,
      c.consume = .error (.unexpectedEnd c.source.length)] := by
  tfae_have 1 ↔ 2 := isAtEnd_iff c
  tfae_have 3 ↔ 2 := remaining_eq_nil_iff
  tfae_have 2 → 5 := fun h => consume_eq_error.mpr ⟨h, by rw [hc.position_of_end h]⟩
  tfae_have 5 → 4 := fun h => ⟨_, h⟩
  tfae_have 4 → 2 := fun ⟨_, h⟩ => (consume_eq_error.mp h).1
  tfae_finish

theorem toNat_position_add_one {w : Nat} (h : c.peek? = some t)
    (hw : (BitVec.ofNat w c.source.length).toNat = c.source.length) :
    (BitVec.ofNat w c.position + 1#w).toNat = c.advance.position := by
  have hlength := (BitVec.ofNat w c.source.length).isLt
  rw [hw] at hlength
  have hlt := Nat.lt_of_le_of_lt (position_lt_of_peek? h) hlength
  rw [BitVec.ofNat_add_ofNat, BitVec.toNat_ofNat, Nat.mod_eq_of_lt hlt, position_advance]

theorem row_consume_iff_covers : Parser.Row (fun c o => c.consume = o) c us d ↔ c.Covers us d := by
  induction us generalizing c with
  | nil =>
    rw [covers_nil_iff]
    constructor
    · exact Parser.Row.eq_of_nil
    · rintro rfl
      exact .nil d
  | cons t us ih =>
    rw [covers_cons_iff, ← ih]
    constructor
    · intro h
      cases h with
      | cons ha later =>
        obtain ⟨hpeek, rfl⟩ := consume_eq_ok.mp ha
        exact ⟨hpeek, later⟩
    · rintro ⟨hpeek, hlater⟩
      exact .cons (consume_eq_ok.mpr ⟨hpeek, rfl⟩) hlater

/-- Whoever reads on until it fails has got the remaining tokens, and fails at the end. -/
theorem InBounds.drained_iff (hc : c.InBounds) {e : Failure T} :
    (∃ d, Parser.Row (fun c o => c.consume = o) c us d ∧ d.consume = .error e) ↔
      us = c.remaining ∧ e = .unexpectedEnd c.source.length := by
  have hlength := hc.position_add_length_remaining
  simp only [row_consume_iff_covers]
  constructor
  · rintro ⟨d, hcovers, hend⟩
    obtain ⟨hpeek, rfl⟩ := consume_eq_error.mp hend
    have hall : us = c.remaining := by
      rw [hcovers.remaining, remaining_eq_nil_iff.mpr hpeek, List.append_nil]
    exact ⟨hall, by rw [hcovers.position, hall, hlength]⟩
  · rintro ⟨rfl, rfl⟩
    have hpeek : peek? ⟨c.source, c.position + c.remaining.length⟩ = none := by
      rw [hlength]
      exact List.getElem?_eq_none_iff.mpr (Nat.le_refl _)
    refine ⟨_, covers_iff_prefix.mpr ⟨rfl, List.prefix_rfl⟩, consume_eq_error.mpr ⟨hpeek, ?_⟩⟩
    rw [hlength]

end Cursor

theorem Session.reachable_of_lookup {T : Type} {ts : List T} {s : Session T} {name : String}
    {c : Cursor T} (hs : ∀ p ∈ s, p.2.Reachable ts) (h : s.lookup name = some c) :
    c.Reachable ts := by
  obtain ⟨front, back, rfl, -⟩ := List.lookup_eq_some_iff.mp h
  exact hs (name, c) (by simp)

section Sessions
variable {T : Type} [BEq T] [Weighted T] [TokenText T]
  {R : Rules T (fun _ : String => Value T)} {budget : Nat}

/-- Whether an action runs no grammar. Such an action reads one token, copies a cursor, starts over
or only looks. -/
def Action.isSimple : Action T → Bool
  | parse _ => false
  | _ => true

theorem Action.perform_cases {a : Action T} {c d : Cursor T} {reply : Reply T}
    (ha : a.isSimple = true)
    (h : (a.perform R budget c).outcome? = some (.ok (reply, some d))) :
    d = c ∨ d = c.restart ∨ ∃ t, c.consume = .ok (t, d) := by
  cases a with
  | parse => cases ha
  | consume =>
    cases hpeek : c.peek? with
    | none =>
      rw [perform, Parser.reshape, Parser.anyToken_of_end hpeek] at h
      cases h
    | some t =>
      rw [perform, Parser.reshape, Parser.anyToken_of_peek? hpeek] at h
      cases h
      exact .inr (.inr ⟨t, Cursor.consume_eq_ok.mpr ⟨hpeek, rfl⟩⟩)
  | copy =>
    cases h
    exact .inl rfl
  | restart =>
    cases h
    exact .inr (.inl rfl)
  | peek | remaining | source | parts | record => cases h

inductive Report.Shows (r : Report T) : Cursor T → Prop
  | seen : r.Shows r.seen
  | kept {c : Cursor T} (h : r.kept? = some c) : r.Shows c

namespace Session
variable {s s' : Session T} {x : Step T} {xs : List (Step T)} {report : Report T} {ts : List T}

/-- A step looks at the cursor of its name, and puts at most one new cursor into the session. -/
theorem step_cases (h : step R budget s x = some (s', report)) :
    s.lookup x.name = some report.seen ∧ report.kept? = s'.lookup x.target ∧
      (s' = s ∨ ∃ reply d, s' = (x.target, d) :: s ∧
        (x.action.perform R budget report.seen).outcome? = some (.ok (reply, some d))) := by
  obtain ⟨c, hc, h⟩ := Option.bind_eq_some_iff.mp h
  cases h
  refine ⟨hc, rfl, ?_⟩
  dsimp only
  rcases (x.action.perform R budget c).outcome? with _ | e | ⟨reply, _ | d⟩
  · exact .inl rfl
  · exact .inl rfl
  · exact .inl rfl
  · exact .inr ⟨reply, d, rfl, rfl⟩

theorem step_reachable (hs : ∀ p ∈ s, p.2.Reachable ts) (hx : x.action.isSimple = true)
    (h : step R budget s x = some (s', report)) :
    (∀ p ∈ s', p.2.Reachable ts) ∧ ∀ c, report.Shows c → c.Reachable ts := by
  obtain ⟨hseen, hkept, hsession⟩ := step_cases h
  have hc : report.seen.Reachable ts := reachable_of_lookup hs hseen
  have hs' : ∀ p ∈ s', p.2.Reachable ts := by
    rcases hsession with rfl | ⟨reply, d, rfl, hdone⟩
    · exact hs
    · refine List.forall_mem_cons.mpr ⟨?_, hs⟩
      rcases Action.perform_cases hx hdone with hsame | hrestart | ⟨t, hread⟩
      · exact hsame ▸ hc
      · exact hrestart ▸ hc.restart
      · exact hc.consume hread
  refine ⟨hs', fun c hshows => ?_⟩
  cases hshows with
  | seen => exact hc
  | kept hlookup => exact reachable_of_lookup hs' (hkept.symm.trans hlookup)

/-- A session in which no grammar is run holds reachable cursors throughout. -/
theorem steps_reachable {reports : List (Report T)} (hs : ∀ p ∈ s, p.2.Reachable ts)
    (hxs : ∀ x ∈ xs, x.action.isSimple = true) (h : steps R budget s xs = some reports) :
    ∀ r ∈ reports, ∀ c, r.Shows c → c.Reachable ts := by
  induction xs generalizing s reports with
  | nil =>
    cases h
    exact List.forall_mem_nil _
  | cons x xs ih =>
    rw [List.forall_mem_cons] at hxs
    obtain ⟨⟨s', report⟩, hstep, h⟩ := Option.bind_eq_some_iff.mp h
    obtain ⟨later, hlater, h⟩ := Option.bind_eq_some_iff.mp h
    cases h
    obtain ⟨hs', hshown⟩ := step_reachable hs hxs.1 hstep
    exact List.forall_mem_cons.mpr ⟨hshown, ih hs' hxs.2 hlater⟩

end Session

namespace Cursor

/-- Sessions that read tokens, take copies and start over hold reachable cursors only. The position
of such a cursor divides its sequence into what was read and what remains, whose first token is the
one in front. Being at the end, seeing no token, having none left and failing to read one are the
same, and the failure is then at the length of the sequence. Otherwise reading gives the token in
front and a cursor behind it in the same sequence, whose position is no further than the length and
does not overflow a machine word that holds it. Reading until it fails gives the remaining tokens in
order, and the sequence is always the end of the first one. -/
theorem reachable_observers_agree (R : Rules T (fun _ : String => Value T)) (budget : Nat)
    (ts : List T) :
    (∀ (name : String) (xs : List (Step T)) (reports : List (Report T)),
      (∀ x ∈ xs, x.action.isSimple = true) →
      Session.steps R budget [(name, .start ts)] xs = some reports →
        ∀ r ∈ reports, ∀ c, r.Shows c → c.Reachable ts) ∧
    ∀ c : Cursor T, c.Reachable ts →
      c.position ≤ c.source.length ∧
      c.source = c.source.take c.position ++ c.remaining ∧
      c.peek? = c.remaining.head? ∧
      List.TFAE [c.isAtEnd = true, c.peek? = none, c.remaining = [], ∃ e, c.consume = .error e,
        c.consume = .error (.unexpectedEnd c.source.length)] ∧
      (∀ t, c.peek? = some t →
        (∃ d, c.consume = .ok (t, d) ∧ d.source = c.source ∧ d.position = c.position + 1 ∧
          d.remaining = c.remaining.tail) ∧
        c.position + 1 ≤ c.source.length ∧
        ∀ w, (BitVec.ofNat w c.source.length).toNat = c.source.length →
          (BitVec.ofNat w c.position + 1#w).toNat = c.position + 1) ∧
      (∀ us e, (∃ d, Parser.Row (fun c o => c.consume = o) c us d ∧ d.consume = .error e) ↔
        us = c.remaining ∧ e = .unexpectedEnd c.source.length) ∧
      c.source <:+ ts ∧ c.remaining <:+ ts := by
  refine ⟨fun name xs reports hxs h => Session.steps_reachable ?_ hxs h, fun c h => ?_⟩
  · exact List.forall_mem_singleton.mpr .start
  · have hc : c.InBounds := h.inBounds
    refine ⟨hc, (List.take_append_drop _ _).symm, (head?_remaining c).symm, hc.tfae_end,
      fun t hpeek => ?_, fun us e => hc.drained_iff, h.source_suffix,
      (List.drop_suffix _ _).trans h.source_suffix⟩
    refine ⟨⟨c.advance, consume_eq_ok.mpr ⟨hpeek, rfl⟩, rfl, rfl, remaining_advance c⟩,
      position_lt_of_peek? hpeek, fun w hw => toNat_position_add_one hpeek hw⟩

end Cursor
end Sessions

/-- One cursor reads on while a copy of it starts over. The copy then has a position of its own in a
sequence of its own, and what it says there about the last token and about the end is in order. -/
theorem Cursor.reachable_observers_agree_after_restart :
    let R : Rules String (fun _ : String => Value String) := Description.rules []
    let moves : List (Step String) := [⟨.consume, "c", "c"⟩, ⟨.copy, "c", "d"⟩,
      ⟨.consume, "c", "c"⟩, ⟨.restart, "d", "d"⟩, ⟨.consume, "d", "d"⟩]
    let d : Cursor String := ⟨["b", "c"], 1⟩
    (∀ x ∈ moves, x.action.isSimple = true) ∧
      (∃ reports, Session.steps R 0 [("c", .start ["a", "b", "c"])] moves = some reports ∧
        (reports.map Report.kept?).getLast? = some (some d)) ∧
      d.Reachable ["a", "b", "c"] ∧ d.peek? = some "c" ∧ d.remaining = ["c"] ∧
      (BitVec.ofNat 2 d.source.length).toNat = d.source.length ∧
      (BitVec.ofNat 2 d.position + 1#2).toNat = 2 ∧
      d.consume = .ok ("c", ⟨["b", "c"], 2⟩) ∧ (Cursor.mk ["b", "c"] 2).isAtEnd = true ∧
      (Cursor.mk ["b", "c"] 2).consume = .error (.unexpectedEnd 2) := by
  intro R moves d
  obtain ⟨hsessions, hagree⟩ := reachable_observers_agree R 0 ["a", "b", "c"]
  have hmoves : ∀ x ∈ moves, x.action.isSimple = true := by decide
  have hd : d.Reachable ["a", "b", "c"] :=
    hsessions "c" moves _ hmoves rfl _ (List.mem_of_getLast? rfl) d (.kept rfl)
  have hpeek : d.peek? = some "c" := rfl
  obtain ⟨-, -, -, -, hnext, -⟩ := hagree d hd
  obtain ⟨⟨d', hread, hsource, hposition, -⟩, -, hword⟩ := hnext "c" hpeek
  have hd' : d' = ⟨["b", "c"], 2⟩ := by
    cases d'
    cases hsource
    cases hposition
    rfl
  subst hd'
  obtain ⟨-, -, -, hend, -⟩ := hagree _ (hd.consume hread)
  exact ⟨hmoves, ⟨_, rfl, rfl⟩, hd, hpeek, rfl, rfl, hword 2 rfl, hread, rfl,
    (hend.out 0 4).mp rfl⟩

end TokenGrammar
