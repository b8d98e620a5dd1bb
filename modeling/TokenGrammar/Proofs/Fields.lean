import TokenGrammar.Proofs.Conservation
import TokenGrammar.Proofs.Separation

/-! Fields between separators. A field is a longest run of tokens that do not equal the separator,
and a list has one separator between any two fields. Parsing such a list splits a sequence, and what
it is split into makes the sequence again. Nothing is asked of equality here: a token need not equal
itself, and tokens that are equal may differ. -/
namespace TokenGrammar

/-- Fields with a token between any two of them, and the sequence that this makes. -/
inductive Joined {T : Type} : List (List T) → List T → List T → Prop
  | last (f : List T) : Joined [f] [] f
  | next (f : List T) (x : T) {fs : List (List T)} {xs ts : List T} (later : Joined fs xs ts) :
      Joined (f :: fs) (x :: xs) (f ++ x :: ts)

def Grammar.fields {T N : Type} {O : N → Type} [BEq T] (s : T) : Grammar T O (List (List T)) :=
  .sepBy1 (.star (.satisfy fun t => !(t == s))) (.token s)

namespace Joined
variable {T : Type} {fs : List (List T)} {xs ts : List T}

theorem length_eq (h : Joined fs xs ts) : fs.length = xs.length + 1 := by
  induction h with
  | last f => rfl
  | next f x _ ih => simp [ih]

theorem cons_head {f : List T} (h : Joined (f :: fs) xs ts) (t : T) :
    Joined ((t :: f) :: fs) xs (t :: ts) := by
  cases h with
  | last => exact .last _
  | next _ x later => exact .next (t :: f) x later

variable [BEq T] {s : T}

theorem splitOn_eq (h : Joined fs xs ts) (hxs : ∀ x ∈ xs, (x == s) = true)
    (hfs : ∀ f ∈ fs, ∀ t ∈ f, (t == s) = false) : ts.splitOn s = fs := by
  induction h with
  | last f => exact List.splitOn_eq_singleton_of_beq_eq_false (hfs f (by simp))
  | next f x later ih =>
    rw [List.forall_mem_cons] at hxs hfs
    rw [List.splitOn_append_cons_of_forall_mem_beq_eq_false hfs.1 x hxs.1, ih hxs.2 hfs.2]

end Joined

section Split
variable {T : Type} [BEq T]

theorem joined_splitOn (s : T) (ts : List T) : Joined (ts.splitOn s) (ts.filter (· == s)) ts ∧
    ∀ f ∈ ts.splitOn s, ∀ t ∈ f, (t == s) = false := by
  induction ts with
  | nil => exact ⟨.last [], by simp⟩
  | cons t ts ih =>
    obtain ⟨hjoined, hfree⟩ := ih
    rw [List.splitOn_cons_eq_if_modifyHead]
    cases heq : t == s with
    | true =>
      rw [List.filter_cons_of_pos (p := (· == s)) heq]
      exact ⟨.next [] t hjoined, by simpa using hfree⟩
    | false =>
      obtain ⟨f, fs, hfs⟩ := List.exists_cons_of_ne_nil (List.splitOn_ne_nil s ts)
      rw [hfs] at hjoined hfree ⊢
      rw [List.forall_mem_cons] at hfree
      rw [List.filter_cons_of_neg (by simp [heq])]
      refine ⟨hjoined.cons_head t, List.forall_mem_cons.mpr ⟨?_, hfree.2⟩⟩
      exact List.forall_mem_cons.mpr ⟨heq, hfree.1⟩

/-- Splitting is the only way to write a sequence as fields without separators. -/
theorem splitOn_eq_iff {s : T} {ts : List T} {fs : List (List T)} : ts.splitOn s = fs ↔
    ∃ xs, Joined fs xs ts ∧ (∀ x ∈ xs, (x == s) = true) ∧
      ∀ f ∈ fs, ∀ t ∈ f, (t == s) = false := by
  constructor
  · rintro rfl
    obtain ⟨hjoined, hfree⟩ := joined_splitOn s ts
    exact ⟨_, hjoined, fun x hx => (List.mem_filter.mp hx).2, hfree⟩
  · rintro ⟨xs, hjoined, hxs, hfs⟩
    exact hjoined.splitOn_eq hxs hfs

end Split

namespace Parser
open Run
variable {T : Type} {c d : Cursor T}

theorem row_of_covers {accept : T → Bool} {f : List T} (hf : ∀ t ∈ f, accept t = true)
    (h : c.Covers f d) : Row (Answers (satisfy accept)) c f d := by
  induction f generalizing c with
  | nil =>
    obtain rfl := Cursor.covers_nil_iff.mp h
    exact .nil d
  | cons t f ih =>
    obtain ⟨hpeek, hlater⟩ := Cursor.covers_cons_iff.mp h
    rw [List.forall_mem_cons] at hf
    have hfirst : Answers (satisfy accept) c (.ok (t, c.advance)) := by
      rw [Answers, satisfy_of_accepts hpeek hf.1]
    exact .cons hfirst (ih hf.2 hlater)

theorem satisfy_fails {accept : T → Bool} (h : ∀ t, d.peek? = some t → accept t = false) :
    ∃ e, Answers (satisfy accept) d (.error e) := by
  cases hpeek : d.peek? with
  | none => exact ⟨_, by rw [Answers, satisfy_of_end hpeek]⟩
  | some t => exact ⟨_, by rw [Answers, satisfy_of_rejects hpeek (h t hpeek)]⟩

theorem comes_accepted (accept : T → Bool) {f : List T} (hf : ∀ t ∈ f, accept t = true)
    (h : c.Covers f d) (hend : ∀ t, d.peek? = some t → accept t = false) :
    Comes (repeated (.atLeast 0) (satisfy accept)) c (.ok (f, d)) := by
  obtain ⟨e, he⟩ := satisfy_fails hend
  refine (comes_star_iff (.const (satisfy accept))).mpr ?_
  rw [comes_const]
  exact ⟨f, d, e, row_of_covers hf h, he, rfl⟩

variable [BEq T] {s : T}

/-- The fields of what is left, with the separators between them, are items of a list. -/
theorem items_of_joined {fs : List (List T)} {xs ts : List T} (h : Joined fs xs ts)
    (hxs : ∀ x ∈ xs, (x == s) = true) (hfs : ∀ f ∈ fs, ∀ t ∈ f, (t == s) = false)
    (hcovers : c.Covers ts d) (hend : d.peek? = none) :
    Items (Answers (token s)) (Comes (repeated (.atLeast 0) (satisfy fun t => !(t == s))))
      c fs d := by
  induction h generalizing c with
  | last f =>
    have hfield := comes_accepted (fun t => !(t == s)) (by simpa using hfs) hcovers
      (by simp [hend])
    exact ⟨f, d, [], rfl, hfield, .nil d⟩
  | next f x later ih =>
    rw [List.forall_mem_cons] at hxs hfs
    obtain ⟨c', hfirst, hpeek, hrest⟩ := hcovers.cut_cons
    have hfield := comes_accepted (fun t => !(t == s)) (by simpa using hfs.1) hfirst
      (by simp [hpeek, hxs.1])
    have hsep : Answers (token s) c' (.ok (x, c'.advance)) :=
      answers_token_iff.mpr ⟨hpeek, hxs.1, rfl⟩
    obtain ⟨g, c₁, gs, rfl, hg, hrow⟩ := ih hxs.2 hfs.2 hrest
    exact ⟨f, c', g :: gs, rfl, hfield, .cons ⟨(x, c'.advance), hsep, hg⟩ hrow⟩

end Parser

namespace Rules
open TokenGrammar.Parser
variable {T N : Type} {O : N → Type} [BEq T]

theorem comes_fields (R : Rules T O) (s : T) (ts : List T) :
    Comes (fun n => R.parse n (.fields s)) (.start ts) (.ok (ts.splitOn s, ⟨ts, ts.length⟩)) := by
  have hcovers : (Cursor.start ts).Covers ts ⟨ts, ts.length⟩ :=
    ⟨rfl, by simp, by simp [Cursor.remaining]⟩
  have hend : (⟨ts, ts.length⟩ : Cursor T).peek? = none := by simp [Cursor.peek?]
  obtain ⟨hjoined, hfree⟩ := joined_splitOn s ts
  have hitems := items_of_joined hjoined (fun x hx => (List.mem_filter.mp hx).2) hfree hcovers hend
  show Comes (fun n => sepBy1 (repeated (.atLeast 0) (satisfy fun t => !(t == s)) n)
    (token s) n) _ _
  rw [comes_sepBy1_ok_iff ((Steady.const _).repeated _) (.const (token s)), comes_const]
  exact ⟨hitems, token_fails (by simp [hend])⟩

/-- A complete parse splits every sequence at the tokens that equal the separator. The fields are
the only ones without such a token from which the sequence is got back by putting them together with
such tokens in between. These are then all of them in the sequence, in order, and there is one more
field than that. -/
theorem fields_split_and_join (R : Rules T O) (s : T) (ts : List T) :
    Run.Settles (fun n => (R.parse n (.fields s)).runComplete ts) (.ok (ts.splitOn s)) ∧
    (∀ fs, Run.Settles (fun n => (R.parse n (.fields s)).runComplete ts) (.ok fs) ↔
      ∃ xs, Joined fs xs ts ∧ (∀ x ∈ xs, (x == s) = true) ∧
        ∀ f ∈ fs, ∀ t ∈ f, (t == s) = false) ∧
    Joined (ts.splitOn s) (ts.filter (· == s)) ts ∧
    (ts.splitOn s).length = ts.countP (· == s) + 1 := by
  have hsplit : Run.Settles (fun n => (R.parse n (.fields s)).runComplete ts)
      (.ok (ts.splitOn s)) := by
    rw [settles_runComplete_iff (R.steady_parse (.fields s))]
    exact .inr ⟨_, R.comes_fields s ts, by simp [Cursor.peek?]⟩
  obtain ⟨hjoined, -⟩ := joined_splitOn s ts
  refine ⟨hsplit, fun fs => ?_, hjoined, ?_⟩
  · rw [← splitOn_eq_iff]
    constructor
    · intro h
      cases Run.Settles.unique hsplit h
      rfl
    · rintro rfl
      exact hsplit
  · rw [hjoined.length_eq, List.countP_eq_length_filter]

/-- A separator in front, one behind and two next to each other leave empty fields. -/
example (R : Rules String O) :
    ((R.parse 7 (.fields ",")).runComplete [",", "a", "b", ",", ",", "c", ","]).outcome? =
      some (.ok [[], ["a", "b"], [], ["c"], []]) := rfl

end Rules
end TokenGrammar
