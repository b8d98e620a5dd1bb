import TokenGrammar.Parser.Repetition

/-! Grammars as data. A grammar is a term of combinators whose rules refer to each other by
name; running it with a budget makes it a parser, and the budget bounds both the depth of
rules and the length of loops. -/
namespace TokenGrammar

/-- Grammars over tokens `T` for values of a type. The rules are named by `N`, and rule `n`
yields values of type `O n`. -/
inductive Grammar (T : Type) {N : Type} (O : N → Type) : Type → Type 1 where
  | anyToken : Grammar T O T
  | token (expected : T) : Grammar T O T
  | succeed {α : Type} (a : α) : Grammar T O α
  | custom {α : Type} (step : Cursor T → Outcome T (α × Cursor T)) : Grammar T O α
  | map {α β : Type} (f : α → β) (g : Grammar T O α) : Grammar T O β
  | reshape {α β : Type} (f : α → β) (g : Grammar T O α) : Grammar T O β
  | filter {α : Type} (accept : α → Bool) (g : Grammar T O α) : Grammar T O α
  | chain {α β γ : Type} (g : Grammar T O α) (next : α → Grammar T O β)
      (combine : α → β → γ) : Grammar T O γ
  | seq {α β : Type} (g : Grammar T O α) (h : Grammar T O β) : Grammar T O (α × β)
  | orElse {α : Type} (g h : Grammar T O α) : Grammar T O α
  | optional {α : Type} (g : Grammar T O α) : Grammar T O (Option α)
  | notFollowedBy {α : Type} (g : Grammar T O α) : Grammar T O Unit
  | lookAhead {α : Type} (g : Grammar T O α) : Grammar T O α
  | between {α β γ : Type} (g : Grammar T O α) (h : Grammar T O β) (k : Grammar T O γ) :
      Grammar T O β
  | repeated {α : Type} (b : Bounds) (g : Grammar T O α) : Grammar T O (List α)
  | sepBy1 {α β : Type} (item : Grammar T O α) (sep : Grammar T O β) : Grammar T O (List α)
  | log {α : Type} (message : String) (g : Grammar T O α) : Grammar T O α
  | tap {α : Type} (label : String) (g : Grammar T O α) : Grammar T O α
  /-- A grammar that is reached through a shared handle. -/
  | shared {α : Type} (g : Grammar T O α) : Grammar T O α
  | rule (n : N) : Grammar T O (O n)

/-- The bodies of the rules, and the labels under which observers see them. -/
structure Rules (T : Type) {N : Type} (O : N → Type) where
  body : (n : N) → Grammar T O (O n)
  label : N → String

namespace Grammar
variable {T N : Type} {O : N → Type} {α β γ : Type}

def satisfy (accept : T → Bool) : Grammar T O T := filter accept anyToken

def endOfInput : Grammar T O Unit := notFollowedBy anyToken

def enclosed (before : T) (g : Grammar T O α) (after : T) : Grammar T O α :=
  between (token before) g (token after)

/-- Ordered choice of shared grammars, which makes a shared one again. -/
def choice (g : Grammar T O α) (others : List (Grammar T O α)) : Grammar T O α :=
  others.foldl (fun a b => shared (orElse a (shared b))) (shared g)

def star (g : Grammar T O α) : Grammar T O (List α) := repeated (.atLeast 0) g

def plus (g : Grammar T O α) : Grammar T O (List α) := repeated (.atLeast 1) g

/-- The parser that a grammar denotes, given one for each rule and the number of attempts
that a loop may make. -/
def parser [BEq T] (call : (n : N) → Parser T (O n)) (budget : Nat) {α : Type} :
    Grammar T O α → Parser T α
  | anyToken => Parser.anyToken
  | token t => Parser.token t
  | succeed a => Parser.succeed a
  | custom step => Parser.custom step
  | map f g => Parser.map f (g.parser call budget)
  | reshape f g => Parser.reshape f (g.parser call budget)
  | filter accept g => Parser.filter accept (g.parser call budget)
  | chain g next combine =>
    Parser.chain (g.parser call budget) (fun a => (next a).parser call budget) combine
  | seq g h => Parser.seq (g.parser call budget) (h.parser call budget)
  | orElse g h => Parser.orElse (g.parser call budget) (h.parser call budget)
  | optional g => Parser.optional (g.parser call budget)
  | notFollowedBy g => Parser.notFollowedBy (g.parser call budget)
  | lookAhead g => Parser.lookAhead (g.parser call budget)
  | between g h k =>
    Parser.between (g.parser call budget) (h.parser call budget) (k.parser call budget)
  | repeated b g => Parser.repeated b (g.parser call budget) budget
  | sepBy1 item sep => Parser.sepBy1 (item.parser call budget) (sep.parser call budget) budget
  | log message g => Parser.log message (g.parser call budget)
  | tap label g => Parser.tap label (g.parser call budget)
  | shared g => g.parser call budget
  | rule n => call n

end Grammar

namespace Rules
variable {T N : Type} {O : N → Type} {α : Type} [BEq T]

/-- The parser of a rule. Entering a rule is reported and spends one unit of the budget. -/
def call (R : Rules T O) : Nat → (n : N) → Parser T (O n)
  | 0, _ => fun _ => Run.exhausted
  | budget + 1, n => fun c => do
    Run.emit (.entered (R.label n))
    (R.body n).parser (R.call budget) budget c

def parse (R : Rules T O) (budget : Nat) (g : Grammar T O α) : Parser T α :=
  g.parser (R.call budget) budget

end Rules
end TokenGrammar
