import TokenGrammar.Grammar

/-! Arithmetic expressions: sums and differences of products, and products of numbers, names and
expressions in brackets. Operators of one rank are nested to the left. -/
namespace TokenGrammar
namespace Arithmetic

inductive Token where
  | num (n : Int64)
  | ident (name : String)
  | add
  | sub
  | mul
  | lparen
  | rparen
  deriving DecidableEq, Repr

inductive Expr where
  | constant (n : Int64)
  | var (name : String)
  | add (a b : Expr)
  | sub (a b : Expr)
  | mul (a b : Expr)
  deriving DecidableEq, Repr

def Token.join : Token → Expr → Expr → Expr
  | add, a, b => .add a b
  | sub, a, b => .sub a b
  | _, a, b => .mul a b

/-- Nest the operands with the operators in front of them behind the first operand. -/
def fold (first : Expr) (rest : List (Token × Expr)) : Expr :=
  rest.foldl (fun acc r => r.1.join acc r.2) first

abbrev ExprGrammar (α : Type) := Grammar Token (fun _ : Unit => Expr) α

def atom : ExprGrammar Expr := .custom fun c => do
  match ← c.consume with
  | (.num n, rest) => pure (.constant n, rest)
  | (.ident name, rest) => pure (.var name, rest)
  | _ => throw .rejected

def factor : ExprGrammar Expr := .choice atom [.enclosed .lparen (.rule ()) .rparen]

/-- One or more operands with operators between them. -/
def leftNested (operator : ExprGrammar Token) (operand : ExprGrammar Expr) : ExprGrammar Expr :=
  .shared (.map (fun r => fold r.1 r.2) (.seq operand (.star (.seq operator operand))))

def term : ExprGrammar Expr := leftNested (.token .mul) factor

def expr : ExprGrammar Expr := leftNested (.orElse (.token .add) (.token .sub)) term

def rules : Rules Token (fun _ : Unit => Expr) where
  body _ := expr
  label _ := "expr"

end Arithmetic
end TokenGrammar
