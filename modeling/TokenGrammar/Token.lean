import TokenGrammar.Text.Quoted
import TokenGrammar.Text.Record

/-! Kinds of tokens. Grammars ask of a token type no more than an equality, which may be
coarser than identity and need not be reflexive; messages also need a written form. -/
namespace TokenGrammar

class TokenText (T : Type) where
  text : T → String

class Weighted (T : Type) where
  weight : T → Int64

instance : TokenText String := ⟨fun s => Text.quoted '"' s.toList⟩
instance : TokenText Char := ⟨fun c => Text.quoted '\'' [c]⟩
instance : TokenText Int64 := ⟨fun n => Text.signed n.toInt⟩

instance : Weighted String := ⟨fun s => Int64.ofNat s.length⟩
instance : Weighted Char := ⟨fun _ => 1⟩
instance : Weighted Int64 := ⟨id⟩

/-- A token of a lexer. Two lexemes are equal if they are of one kind. -/
structure Lexeme where
  kind : String
  text : String
  deriving DecidableEq, Repr

namespace Lexeme

instance : BEq Lexeme := ⟨fun a b => a.kind == b.kind⟩

instance : TokenText Lexeme where
  text t := Text.record "Lex" [
    ("kind", Text.quoted '"' t.kind.toList),
    ("text", Text.quoted '"' t.text.toList)]

instance : Weighted Lexeme := ⟨fun t => Int64.ofNat t.text.length⟩

theorem beq_def (a b : Lexeme) : (a == b) = (a.kind == b.kind) := rfl

end Lexeme

/-- A floating-point number, given by its shortest written form. -/
structure Numeral where
  text : String
  deriving DecidableEq, Repr

namespace Numeral

def isNaN (x : Numeral) : Bool := x.text == "NaN"

def isZero (x : Numeral) : Bool := x.text == "0.0" || x.text == "-0.0"

/-- Both zeros are equal, and what is not a number equals nothing. -/
instance : BEq Numeral :=
  ⟨fun a b => !a.isNaN && (a.text == b.text || a.isZero && b.isZero)⟩

instance : TokenText Numeral := ⟨Numeral.text⟩
instance : Weighted Numeral := ⟨fun _ => 0⟩

theorem beq_def (a b : Numeral) :
    (a == b) = (!a.isNaN && (a.text == b.text || a.isZero && b.isZero)) := rfl

theorem beq_of_isNaN {a b : Numeral} (h : a.isNaN = true) : (a == b) = false := by
  simp [beq_def, h]

end Numeral
end TokenGrammar
