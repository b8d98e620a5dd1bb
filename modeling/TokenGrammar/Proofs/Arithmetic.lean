import TokenGrammar.Grammar.Arithmetic
import TokenGrammar.Proofs.Conservation
import TokenGrammar.Proofs.Rows
import TokenGrammar.Proofs.Termination

/-! Arithmetic expressions are read as they are written. A repetition takes all operators of its
rank, and the fold behind it nests them to the left; so an expression comes out of each of its
renderings, with redundant brackets or without. Conversely whatever is read was rendered there, and
as every operator and every bracket reads a token, reading comes to an end. -/
namespace TokenGrammar

namespace Cursor
variable {T : Type} {c d : Cursor T} {t : T} {ts : List T}

theorem Covers.moves (h : c.Covers (t :: ts) d) : c.Moves True d := by
  have hsource : d.source = c.source := h.source
  have hposition : d.position = c.position + (ts.length + 1) := h.position
  have hlength : c.remaining.length = ts.length + 1 + d.remaining.length := h.length_remaining
  rw [Cursor.length_remaining, Cursor.length_remaining, hsource] at hlength
  have hbound : d.position ≤ d.source.length := by
    rw [hsource]
    omega
  exact ⟨⟨hsource, by omega, hbound⟩, fun _ => by omega⟩

end Cursor

namespace Arithmetic
open Run TokenGrammar.Parser
variable {c d : Cursor Token}

inductive Rank where
  | expr
  | term
  | factor

/-- The ways to write an expression, with as many brackets as one likes. -/
inductive Renders : Rank → Expr → List Token → Prop where
  | add {a b us vs} (ha : Renders .expr a us) (hb : Renders .term b vs) :
      Renders .expr (.add a b) (us ++ .add :: vs)
  | sub {a b us vs} (ha : Renders .expr a us) (hb : Renders .term b vs) :
      Renders .expr (.sub a b) (us ++ .sub :: vs)
  | ofTerm {e us} (h : Renders .term e us) : Renders .expr e us
  | mul {a b us vs} (ha : Renders .term a us) (hb : Renders .factor b vs) :
      Renders .term (.mul a b) (us ++ .mul :: vs)
  | ofFactor {e us} (h : Renders .factor e us) : Renders .term e us
  | constant (n : Int64) : Renders .factor (.constant n) [.num n]
  | var (name : String) : Renders .factor (.var name) [.ident name]
  | parens {e us} (h : Renders .expr e us) : Renders .factor e (.lparen :: (us ++ [.rparen]))

section Factors
variable {e : Expr}

theorem comes_atom_iff {o : Outcome Token (Expr × Cursor Token)} :
    Comes (fun n => rules.parse n atom) c o ↔ o = match c.peek? with
      | some (.num n) => .ok (.constant n, c.advance)
      | some (.ident name) => .ok (.var name, c.advance)
      | some _ => .error .rejected
      | none => .error (.unexpectedEnd c.position) := by
  refine (settles_const_iff.trans Option.some_inj).trans ?_
  rw [eq_comm]
  dsimp only [Cursor.consume]
  cases c.peek? with
  | none => rfl
  | some t => cases t <;> rfl

theorem takes_factor_iff : rules.Takes factor c e d ↔
    (∃ n, c.peek? = some (.num n) ∧ e = .constant n ∧ d = c.advance) ∨
    (∃ name, c.peek? = some (.ident name) ∧ e = .var name ∧ d = c.advance) ∨
    ∃ d', c.peek? = some .lparen ∧ rules.Takes expr c.advance e d' ∧ d'.peek? = some .rparen ∧
      d = d'.advance := by
  have hchoice : rules.Takes factor c e d ↔ rules.Takes atom c e d ∨
      rules.Refuses atom c ∧ rules.Takes (.enclosed .lparen (.rule ()) .rparen) c e d :=
    Rules.takes_orElse_iff
  have hrule (d' : Cursor Token) :
      rules.Takes (.rule ()) c.advance e d' ↔ rules.Takes expr c.advance e d' :=
    Rules.comes_rule_iff
  rw [hchoice, Rules.takes_enclosed_iff, Rules.Takes, Rules.Refuses]
  simp only [comes_atom_iff, hrule]
  cases hpeek : c.peek? with
  | none => simp
  | some t => cases t <;> simp

theorem factor_ends (h : c.peek? = some .lparen → Ends fun n => rules.parse n expr c.advance) :
    Ends fun n => rules.parse n factor c := by
  refine Ends.attempt_bind ⟨_, comes_atom_iff.mpr rfl⟩ fun o _ => ?_
  cases o with
  | ok r => exact .pure r
  | error f =>
    refine Ends.bind (rules.token_ends .lparen c) fun r hr => ?_
    obtain ⟨hopen, hlparen, hbehind⟩ := Rules.takes_token_iff.mp hr
    rw [hlparen] at hopen
    obtain ⟨o, ho⟩ := h hopen
    rw [hbehind]
    exact Ends.bind ⟨o, Rules.comes_rule_iff.mpr ho⟩ fun i _ =>
      (rules.token_ends .rparen i.2).bind fun _ _ => .pure _

end Factors

/-- Rank `r` consists of operands of rank `s` with operators between them: the tokens that `J` holds
of, and these are what the grammar `operator` reads. -/
structure Level (operator : ExprGrammar Token) (J : Token → Prop) (s r : Rank) : Prop where
  takes : ∀ {c t d}, rules.Takes operator c t d ↔ c.peek? = some t ∧ J t ∧ d = c.advance
  refuses : ∀ {c}, (∀ t, c.peek? = some t → ¬J t) → rules.Refuses operator c
  operand : ∀ {e us}, Renders s e us → Renders r e us
  joined : ∀ {t a b us vs}, J t → Renders r a us → Renders s b vs →
    Renders r (t.join a b) (us ++ t :: vs)

theorem term_level : Level (.token .mul) (fun t => t = .mul) .factor .term where
  takes := Rules.takes_token_iff
  refuses h := Rules.refuses_token fun hmul => h .mul hmul rfl
  operand := .ofFactor
  joined ht ha hb := by
    rw [ht]
    exact .mul ha hb

theorem expr_level : Level (.orElse (.token .add) (.token .sub)) (fun t => t = .add ∨ t = .sub)
    .term .expr where
  takes := by
    intro c t d
    rw [Rules.takes_orElse_iff, Rules.takes_token_iff, Rules.takes_token_iff]
    constructor
    · rintro (⟨hpeek, rfl, rfl⟩ | ⟨-, hpeek, rfl, rfl⟩)
      · exact ⟨hpeek, .inl rfl, rfl⟩
      · exact ⟨hpeek, .inr rfl, rfl⟩
    · rintro ⟨hpeek, rfl | rfl, rfl⟩
      · exact .inl ⟨hpeek, rfl, rfl⟩
      · exact .inr ⟨Rules.refuses_token (by simp [hpeek]), hpeek, rfl, rfl⟩
  refuses h := Rules.refuses_orElse (Rules.refuses_token fun hadd => h .add hadd (.inl rfl))
    (Rules.refuses_token fun hsub => h .sub hsub (.inr rfl))
  operand := .ofTerm
  joined ht ha hb := by
    rcases ht with rfl | rfl
    · exact .add ha hb
    · exact .sub ha hb

section Levels
variable {operator : ExprGrammar Token} {operand : ExprGrammar Expr} {J : Token → Prop}
  {s r : Rank} {e a b : Expr} {t : Token} {d' d'' : Cursor Token}

/-- From the one cursor to the other there are an operand and then pairs of an operator and an
operand, and they are nested to this expression. -/
def Nests (operator : ExprGrammar Token) (operand : ExprGrammar Expr) (e : Expr)
    (c d : Cursor Token) : Prop :=
  ∃ first c₁ items, rules.Takes operand c first c₁ ∧
    Row (Comes fun n => rules.parse n (.seq operator operand)) c₁ items d ∧ e = fold first items

theorem takes_leftNested_iff : rules.Takes (leftNested operator operand) c e d ↔
    Nests operator operand e c d ∧ rules.Refuses (.seq operator operand) d := by
  have hstar (c : Cursor Token) (o : Outcome Token (List (Token × Expr) × Cursor Token)) :
      Comes (fun n => rules.parse n (.star (.seq operator operand))) c o ↔ _ :=
    comes_star_iff (rules.steady_parse (.seq operator operand))
  have hseq (o : Outcome Token ((Expr × List (Token × Expr)) × Cursor Token)) :
      Comes (fun n => rules.parse n (.seq operand (.star (.seq operator operand)))) c o ↔ _ :=
    comes_seq_iff (rules.steady_parse operand)
      (rules.steady_parse (.star (.seq operator operand)))
  refine (comes_map_iff
    (rules.steady_parse (.seq operand (.star (.seq operator operand))))).trans ?_
  simp only [hseq, hstar]
  constructor
  · rintro ⟨_, ⟨f, -, rfl⟩ | ⟨⟨first, c₁⟩, hfirst, _, ⟨items, d', f, hitems, hf, rfl⟩, rfl⟩, heq⟩
    · cases heq
    · cases heq
      exact ⟨⟨first, c₁, items, hfirst, hitems, rfl⟩, f, hf⟩
  · rintro ⟨⟨first, c₁, items, hfirst, hitems, rfl⟩, f, hf⟩
    exact ⟨_, .inr ⟨(first, c₁), hfirst, _, ⟨items, d, f, hitems, hf, rfl⟩, rfl⟩, rfl⟩

theorem Nests.of_takes (h : rules.Takes operand c e d) : Nests operator operand e c d :=
  ⟨e, d, [], h, .nil d, rfl⟩

theorem Nests.snoc (ha : Nests operator operand a c d) (ht : rules.Takes operator d t d')
    (hb : rules.Takes operand d' b d'') : Nests operator operand (t.join a b) c d'' := by
  obtain ⟨first, c₁, items, hfirst, hitems, rfl⟩ := ha
  refine ⟨first, c₁, items ++ [(t, b)], hfirst, hitems.snoc (Rules.takes_seq_iff.mpr ⟨d', ht, hb⟩), ?_⟩
  simp [fold]

/-- Nothing is left to a level at a token that is none of its operators. -/
theorem Level.takes_of_nests (h : Level operator J s r) (he : Nests operator operand e c d)
    (hd : ∀ t, d.peek? = some t → ¬J t) : rules.Takes (leftNested operator operand) c e d :=
  takes_leftNested_iff.mpr ⟨he, Rules.refuses_seq (h.refuses hd)⟩

end Levels

/-- What there is to be read from the one cursor to the other where an expression of the rank is
written. In front of a multiplication sign the last product of a sum would go on, so nothing is said
of sums there. -/
def Spans : Rank → Expr → Cursor Token → Cursor Token → Prop
  | .expr, e, c, d =>
    d.peek? ≠ some .mul → Nests (.orElse (.token .add) (.token .sub)) term e c d
  | .term, e, c, d => Nests (.token .mul) factor e c d
  | .factor, e, c, d => rules.Takes factor c e d

theorem takes_term {e : Expr} (h : Spans .term e c d) (hd : d.peek? ≠ some .mul) :
    rules.Takes term c e d := by
  refine term_level.takes_of_nests h ?_
  rintro _ hmul rfl
  exact hd hmul

theorem takes_expr {e : Expr} (h : Spans .expr e c d)
    (hd : ∀ t, d.peek? = some t → t ≠ .add ∧ t ≠ .sub ∧ t ≠ .mul) : rules.Takes expr c e d := by
  refine expr_level.takes_of_nests (h fun hmul => (hd _ hmul).2.2 rfl) ?_
  rintro t ht (rfl | rfl)
  · exact (hd _ ht).1 rfl
  · exact (hd _ ht).2.1 rfl

theorem Spans.sum {t : Token} {a b : Expr} {d' : Cursor Token} (ht : t = .add ∨ t = .sub)
    (hpeek : d'.peek? = some t) (ha : Spans .expr a c d') (hb : Spans .term b d'.advance d) :
    Spans .expr (t.join a b) c d := by
  intro hd
  refine (ha ?_).snoc (expr_level.takes.mpr ⟨hpeek, ht, rfl⟩) (takes_term hb hd)
  rcases ht with rfl | rfl <;> simp [hpeek]

theorem spans_of_renders {r : Rank} {e : Expr} {us : List Token} (h : Renders r e us)
    (hc : c.Covers us d) : Spans r e c d := by
  induction h generalizing c d with
  | add _ _ iha ihb =>
    obtain ⟨d', hfirst, hpeek, hlater⟩ := hc.cut_cons
    exact .sum (.inl rfl) hpeek (iha hfirst) (ihb hlater)
  | sub _ _ iha ihb =>
    obtain ⟨d', hfirst, hpeek, hlater⟩ := hc.cut_cons
    exact .sum (.inr rfl) hpeek (iha hfirst) (ihb hlater)
  | ofTerm _ ih => exact fun hd => .of_takes (takes_term (ih hc) hd)
  | mul _ _ iha ihb =>
    obtain ⟨d', hfirst, hpeek, hlater⟩ := hc.cut_cons
    exact (iha hfirst).snoc (Rules.takes_token_iff.mpr ⟨hpeek, rfl, rfl⟩) (ihb hlater)
  | ofFactor _ ih => exact .of_takes (ih hc)
  | constant n =>
    obtain ⟨hpeek, hend⟩ := Cursor.covers_cons_iff.mp hc
    exact takes_factor_iff.mpr (.inl ⟨n, hpeek, rfl, Cursor.covers_nil_iff.mp hend⟩)
  | var name =>
    obtain ⟨hpeek, hend⟩ := Cursor.covers_cons_iff.mp hc
    exact takes_factor_iff.mpr (.inr (.inl ⟨name, hpeek, rfl, Cursor.covers_nil_iff.mp hend⟩))
  | parens _ ih =>
    obtain ⟨hopen, hinner⟩ := Cursor.covers_cons_iff.mp hc
    obtain ⟨d', hwithin, hclose, hend⟩ := hinner.cut_cons
    have hexpr : rules.Takes expr c.advance _ d' := takes_expr (ih hwithin) (by simp [hclose])
    exact takes_factor_iff.mpr
      (.inr (.inr ⟨d', hopen, hexpr, hclose, Cursor.covers_nil_iff.mp hend⟩))

structure Reads (r : Rank) (g : ExprGrammar Expr) (c : Cursor Token) : Prop where
  ends : Ends fun n => rules.parse n g c
  renders : ∀ {e d}, rules.Takes g c e d → ∃ us, Renders r e us ∧ c.Covers us d

theorem factor_reads (h : c.peek? = some .lparen → Reads .expr expr c.advance) :
    Reads .factor factor c where
  ends := factor_ends fun hopen => (h hopen).ends
  renders ht := by
    rcases takes_factor_iff.mp ht with ⟨n, hpeek, rfl, rfl⟩ | ⟨name, hpeek, rfl, rfl⟩ |
      ⟨d', hopen, he, hclose, rfl⟩
    · exact ⟨_, .constant n, Cursor.covers_advance hpeek⟩
    · exact ⟨_, .var name, Cursor.covers_advance hpeek⟩
    · obtain ⟨us, hus, hwithin⟩ := (h hopen).renders he
      have hbrackets := hwithin.trans (Cursor.covers_advance hclose)
      exact ⟨_, .parens hus, Cursor.covers_cons_iff.mpr ⟨hopen, hbrackets⟩⟩

section Reading
variable {operator : ExprGrammar Token} {operand : ExprGrammar Expr} {J : Token → Prop}
  {s r : Rank} {m : Nat} (h : Level operator J s r)
  (hoperand : ∀ c, c.remaining.length ≤ m → Reads s operand c)
include h

theorem Level.operator_ends : Ends fun n => rules.parse n operator c := by
  by_cases hpeek : ∃ t, c.peek? = some t ∧ J t
  · obtain ⟨t, hpeek, ht⟩ := hpeek
    exact ⟨.ok (t, c.advance), h.takes.mpr ⟨hpeek, ht, rfl⟩⟩
  · obtain ⟨f, hf⟩ := h.refuses fun t ht hJ => hpeek ⟨t, ht, hJ⟩
    exact ⟨.error f, hf⟩

include hoperand

theorem Level.pair_ends (hc : c.remaining.length ≤ m) :
    Ends fun n => rules.parse n (.seq operator operand) c := by
  refine h.operator_ends.bind fun t ht => ?_
  obtain ⟨hpeek, -, hbehind⟩ := h.takes.mp ht
  have hless : c.advance.remaining.length < c.remaining.length :=
    Cursor.length_remaining_lt (Cursor.moves_advance hpeek)
  rw [hbehind]
  exact (hoperand c.advance (by omega)).ends.bind fun _ _ => .pure _

theorem Level.pair_renders {q : Token × Expr} (hc : c.remaining.length ≤ m)
    (hq : rules.Takes (.seq operator operand) c q d) :
    J q.1 ∧ ∃ us, Renders s q.2 us ∧ c.Covers (q.1 :: us) d := by
  obtain ⟨c', ht, he⟩ := Rules.takes_seq_iff.mp hq
  obtain ⟨hpeek, hJ, rfl⟩ := h.takes.mp ht
  have hless : c.advance.remaining.length < c.remaining.length :=
    Cursor.length_remaining_lt (Cursor.moves_advance hpeek)
  obtain ⟨us, hus, hcovers⟩ := (hoperand c.advance (by omega)).renders he
  exact ⟨hJ, us, hus, Cursor.covers_cons_iff.mpr ⟨hpeek, hcovers⟩⟩

/-- There are no more pairs than tokens are left, as each of them reads its operator. -/
theorem Level.pairs_end (hc : c.remaining.length ≤ m) :
    Ends fun n => rules.parse n (.star (.seq operator operand)) c := by
  have hadvance (c : Cursor Token) (q : (Token × Expr) × Cursor Token)
      (hc : c.remaining.length ≤ m)
      (hq : Settles (fun n => rules.parse n (.seq operator operand) c) (.ok q)) :
      q.2.remaining.length ≤ m ∧ c.Moves True q.2 := by
    obtain ⟨-, us, -, hcovers⟩ := h.pair_renders hoperand hc hq
    have hless : q.2.remaining.length < c.remaining.length :=
      Cursor.length_remaining_lt hcovers.moves
    exact ⟨by omega, hcovers.moves⟩
  obtain ⟨harvest, hharvest⟩ := attempts_end_of_advancing (b := .atLeast 0)
    (fun c hc => h.pair_ends hoperand hc) hadvance (c.remaining.length + 1) 0 c hc (by omega)
  exact ⟨_, repeated_settles hharvest⟩

theorem Level.renders_of_row {c₁ : Cursor Token} {items : List (Token × Expr)} {first : Expr}
    {us : List Token} (hc : c.remaining.length ≤ m)
    (hitems : Row (Comes fun n => rules.parse n (.seq operator operand)) c₁ items d)
    (hfirst : Renders r first us) (hcovers : c.Covers us c₁) :
    ∃ vs, Renders r (fold first items) vs ∧ c.Covers vs d := by
  -- What has been nested so far is written in front of the cursor that the row goes on from.
  induction hitems generalizing first us with
  | nil d => exact ⟨us, hfirst, hcovers⟩
  | cons hitem _ ih =>
    have hlength := hcovers.length_remaining
    obtain ⟨hJ, vs, hvs, hbehind⟩ := h.pair_renders hoperand (by omega) hitem
    exact ih (h.joined hJ hfirst hvs) (hcovers.trans hbehind)

/-- A level reads what is written if its operands do, as far as there are as many tokens left. -/
theorem Level.reads (hc : c.remaining.length ≤ m) : Reads r (leftNested operator operand) c where
  ends := by
    have hseq : Ends fun n =>
        rules.parse n (.seq operand (.star (.seq operator operand))) c := by
      refine (hoperand c hc).ends.bind fun q hq => ?_
      obtain ⟨us, -, hcovers⟩ := (hoperand c hc).renders hq
      have hlength := hcovers.length_remaining
      exact (h.pairs_end hoperand (by omega)).bind fun _ _ => .pure _
    exact hseq.bind fun _ _ => .emit_bind _ (.pure _)
  renders ht := by
    obtain ⟨⟨first, c₁, items, hfirst, hitems, rfl⟩, -⟩ := takes_leftNested_iff.mp ht
    obtain ⟨us, hus, hcovers⟩ := (hoperand c hc).renders hfirst
    exact h.renders_of_row hoperand hc hitems (h.operand hus) hcovers

end Reading

theorem expr_reads (c : Cursor Token) : Reads .expr expr c := by
  induction hm : c.remaining.length using Nat.strongRecOn generalizing c with
  | ind m ih =>
    have hfactor (c' : Cursor Token) (hc' : c'.remaining.length ≤ m) :
        Reads .factor factor c' := by
      refine factor_reads fun hopen => ih c'.advance.remaining.length ?_ c'.advance rfl
      have hless : c'.advance.remaining.length < c'.remaining.length :=
        Cursor.length_remaining_lt (Cursor.moves_advance hopen)
      omega
    have hterm (c' : Cursor Token) (hc' : c'.remaining.length ≤ m) : Reads .term term c' :=
      term_level.reads hfactor hc'
    exact expr_level.reads hterm (Nat.le_of_eq hm)

theorem takes_expr_iff {ts : List Token} {e : Expr} :
    (∃ d, rules.Takes expr (.start ts) e d ∧ d.peek? = none) ↔ Renders .expr e ts := by
  constructor
  · rintro ⟨d, he, hpeek⟩
    obtain ⟨us, hus, hcovers⟩ := (expr_reads (.start ts)).renders he
    have hend : d.remaining = [] := Cursor.remaining_eq_nil_iff.mpr hpeek
    have htokens : ts = us := by simpa [hend] using hcovers.remaining
    exact htokens ▸ hus
  · intro h
    have hcovers : (Cursor.start ts).Covers ts ⟨ts, ts.length⟩ :=
      ⟨rfl, (Nat.zero_add _).symm, by simp [Cursor.remaining, Cursor.start]⟩
    have hpeek : Cursor.peek? ⟨ts, ts.length⟩ = none := by simp [Cursor.peek?]
    exact ⟨_, takes_expr (spans_of_renders h hcovers) (by simp [hpeek]), hpeek⟩

/-- A complete parse answers with an expression exactly if all the tokens are a rendering of it. It
always comes to an end, and it fails exactly if the tokens render no expression. -/
theorem parses_renderings (ts : List Token) :
    (∀ e, Settles (fun n => runComplete (rules.parse n expr) ts) (.ok e) ↔ Renders .expr e ts) ∧
    Ends (fun n => runComplete (rules.parse n expr) ts) ∧
    ((∃ f, Settles (fun n => runComplete (rules.parse n expr) ts) (.error f)) ↔
      ∀ e, ¬Renders .expr e ts) := by
  have hok (e : Expr) :
      Settles (fun n => runComplete (rules.parse n expr) ts) (.ok e) ↔ Renders .expr e ts := by
    rw [settles_runComplete_ok_iff (rules.steady_parse expr), ← takes_expr_iff]
    rfl
  have hends : Ends (fun n => runComplete (rules.parse n expr) ts) :=
    runComplete_ends (expr_reads (.start ts)).ends
  refine ⟨hok, hends, ?_⟩
  rw [hends.fails_iff]
  simp only [hok]

/-- Operators of one rank are nested to the left. -/
example : (runComplete (rules.parse 4 expr)
      [.num 1, .sub, .num 2, .sub, .num 3, .mul, .ident "x"]).outcome? =
    some (.ok (.sub (.sub (.constant 1) (.constant 2)) (.mul (.constant 3) (.var "x")))) := rfl

end Arithmetic
end TokenGrammar
