import TokenGrammar.Grammar.Nested
import TokenGrammar.Proofs.Completion
import TokenGrammar.Proofs.Conservation
import TokenGrammar.Proofs.Termination

/-! The language of nested brackets. A group of depth `n` is an atom with `n` brackets on either side
of it, and the rule reads such a group wherever one is in front of the cursor, and nothing else. The
depth is found by induction on itself, as each level takes one bracket from both ends; that reading
comes to an end is found by induction on the tokens that are left, as each level reads one of them
before it enters the rule again. -/
namespace TokenGrammar

namespace Rules
open Run TokenGrammar.Parser

/-- The tokens of a group of brackets of this depth. -/
def group (n : Nat) : List String := List.replicate n "(" ++ "x" :: List.replicate n ")"

section Groups
variable {c d : Cursor String} {n : Nat}

@[simp] theorem group_zero : group 0 = ["x"] := rfl

theorem group_succ (n : Nat) : group (n + 1) = "(" :: (group n ++ [")"]) := by
  rw [group, group, List.replicate_succ, List.replicate_succ' (a := ")")]
  simp

theorem length_group (n : Nat) : (group n).length = 2 * n + 1 := by
  simp [group]
  omega

theorem covers_group_zero_iff : c.Covers (group 0) d ↔ c.peek? = some "x" ∧ d = c.advance := by
  rw [group_zero, Cursor.covers_cons_iff, Cursor.covers_nil_iff]

theorem covers_group_succ_iff : c.Covers (group (n + 1)) d ↔
    ∃ d', c.peek? = some "(" ∧ c.advance.Covers (group n) d' ∧ d'.peek? = some ")" ∧
      d = d'.advance := by
  rw [group_succ, Cursor.covers_cons_iff]
  constructor
  · rintro ⟨hopen, hinner⟩
    obtain ⟨d', hgroup, hclose, hend⟩ := hinner.cut_cons
    exact ⟨d', hopen, hgroup, hclose, Cursor.covers_nil_iff.mp hend⟩
  · rintro ⟨d', hopen, hgroup, hclose, rfl⟩
    exact ⟨hopen, hgroup.trans (Cursor.covers_advance hclose)⟩

theorem takes_nested_iff : nested.Takes (nested.body ()) c n d ↔
    (c.peek? = some "x" ∧ n = 0 ∧ d = c.advance) ∨
    ∃ m d', c.peek? = some "(" ∧ nested.Takes (nested.body ()) c.advance m d' ∧
      d'.peek? = some ")" ∧ n = m + 1 ∧ d = d'.advance := by
  have hchoice : nested.Takes (nested.body ()) c n d ↔
      nested.Takes (.map (fun _ => 0) (.token "x")) c n d ∨
      nested.Refuses (.map (fun _ => 0) (.token "x")) c ∧
        nested.Takes (.map (· + 1) (.enclosed "(" (.rule ()) ")")) c n d := takes_orElse_iff
  have hrule (m : Nat) (d' : Cursor String) : nested.Takes (.rule ()) c.advance m d' ↔
      nested.Takes (nested.body ()) c.advance m d' := comes_rule_iff
  simp only [hchoice, takes_map_iff, takes_token_iff, takes_enclosed_iff, hrule]
  constructor
  · rintro (⟨_, ⟨hatom, rfl, rfl⟩, rfl⟩ | ⟨-, m, ⟨d', hopen, hm, hclose, rfl⟩, rfl⟩)
    · exact .inl ⟨hatom, rfl, rfl⟩
    · exact .inr ⟨m, d', hopen, hm, hclose, rfl, rfl⟩
  · rintro (⟨hatom, rfl, rfl⟩ | ⟨m, d', hopen, hm, hclose, rfl, rfl⟩)
    · exact .inl ⟨"x", ⟨hatom, rfl, rfl⟩, rfl⟩
    · have hrefuses : nested.Refuses (.token "x") c := refuses_token (by simp [hopen])
      exact .inr ⟨refuses_map hrefuses, m, ⟨d', hopen, hm, hclose, rfl⟩, rfl⟩

/-- What the rule reads is a group of the depth that it answers with. -/
theorem takes_nested_iff_covers :
    nested.Takes (nested.body ()) c n d ↔ c.Covers (group n) d := by
  induction n generalizing c d with
  | zero =>
    rw [takes_nested_iff, covers_group_zero_iff]
    constructor
    · rintro (⟨hatom, -, rfl⟩ | ⟨m, d', -, -, -, hdepth, -⟩)
      · exact ⟨hatom, rfl⟩
      · cases hdepth
    · rintro ⟨hatom, rfl⟩
      exact .inl ⟨hatom, rfl, rfl⟩
  | succ n ih =>
    rw [takes_nested_iff, covers_group_succ_iff]
    constructor
    · rintro (⟨-, hdepth, -⟩ | ⟨m, d', hopen, hm, hclose, hdepth, rfl⟩)
      · cases hdepth
      · cases hdepth
        exact ⟨d', hopen, ih.mp hm, hclose, rfl⟩
    · rintro ⟨d', hopen, hgroup, hclose, rfl⟩
      exact .inr ⟨n, d', hopen, ih.mpr hgroup, hclose, rfl, rfl⟩

/-- The rule is entered again only behind a bracket, with fewer tokens left. -/
theorem nested_ends (c : Cursor String) : Ends fun n => nested.parse n (nested.body ()) c := by
  induction hleft : c.remaining.length using Nat.strongRecOn generalizing c with
  | ind left ih =>
    have hatom : Ends fun n => nested.parse n (.map (fun _ => 0) (.token "x")) c :=
      (nested.token_ends "x" c).bind fun _ _ => .emit_bind _ (.pure _)
    refine hatom.attempt_bind fun o _ => ?_
    cases o with
    | ok r => exact .pure r
    | error e =>
      have hgroup : Ends fun n => nested.parse n (.enclosed "(" (.rule ()) ")") c := by
        refine (nested.token_ends "(" c).bind fun r hr => ?_
        obtain ⟨hopen, -, hbehind⟩ := takes_token_iff.mp hr
        have hless : c.advance.remaining.length < left :=
          hleft ▸ Cursor.length_remaining_lt (Cursor.moves_advance hopen)
        obtain ⟨o, ho⟩ := ih _ hless c.advance rfl
        rw [hbehind]
        refine Ends.bind ⟨o, comes_rule_iff.mpr ho⟩ fun i _ => ?_
        exact (nested.token_ends ")" i.2).bind fun _ _ => .pure _
      exact hgroup.bind fun _ _ => .emit_bind _ (.pure _)

theorem takes_nested_iff_prefix {ts : List String} {p : Nat} :
    nested.Takes (nested.body ()) ⟨ts, p⟩ n d ↔
      d = ⟨ts, p + (2 * n + 1)⟩ ∧ group n <+: ts.drop p := by
  rw [takes_nested_iff_covers, Cursor.covers_iff_prefix, length_group]
  rfl

end Groups

/-- A complete parse answers with a depth exactly if the tokens are a group of that depth. It always
comes to an end, and it fails on all other tokens. From any cursor, inside the tokens or not, the
parse comes to an end too, and it reads a group exactly if the tokens in front begin with one. -/
theorem nested_accepts_groups (ts : List String) :
    (∀ n, Settles (fun k => runComplete (nested.parse k (nested.body ())) ts) (.ok n) ↔
      ts = group n) ∧
    Ends (fun k => runComplete (nested.parse k (nested.body ())) ts) ∧
    ((∃ f, Settles (fun k => runComplete (nested.parse k (nested.body ())) ts) (.error f)) ↔
      ∀ n, ts ≠ group n) ∧
    ∀ p, Ends (fun k => nested.parse k (nested.body ()) ⟨ts, p⟩) ∧
      ∀ n d, nested.Takes (nested.body ()) ⟨ts, p⟩ n d ↔
        d = ⟨ts, p + (2 * n + 1)⟩ ∧ group n <+: ts.drop p := by
  have hok (n : Nat) :
      Settles (fun k => runComplete (nested.parse k (nested.body ())) ts) (.ok n) ↔
        ts = group n := by
    rw [settles_runComplete_ok_iff (nested.steady_parse (nested.body ()))]
    constructor
    · rintro ⟨d, hd, hend⟩
      obtain ⟨rfl, hbegins⟩ := takes_nested_iff_prefix.mp hd
      have hlength : ts.length ≤ (group n).length := by
        simpa [Cursor.peek?, length_group] using hend
      exact (hbegins.eq_of_length_le hlength).symm
    · rintro rfl
      have hpeek : Cursor.peek? ⟨group n, 0 + (2 * n + 1)⟩ = none := by
        simp [Cursor.peek?, length_group]
      exact ⟨_, takes_nested_iff_prefix.mpr ⟨rfl, List.prefix_rfl⟩, hpeek⟩
  have hends : Ends (fun k => runComplete (nested.parse k (nested.body ())) ts) :=
    runComplete_ends (nested_ends (.start ts))
  refine ⟨hok, hends, ?_, fun p => ⟨nested_ends ⟨ts, p⟩, fun n d => takes_nested_iff_prefix⟩⟩
  rw [hends.fails_iff]
  simp only [hok, ne_eq]

/-- A bracket too many is not forgiven at the end of the tokens. -/
example : (runComplete (nested.parse 3 (nested.body ())) ["(", "x", ")", ")"]).outcome? =
    some (.error (.trailing ")" 3)) := rfl

end Rules
end TokenGrammar
