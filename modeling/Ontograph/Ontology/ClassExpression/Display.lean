import Ontograph.Ontology.ClassExpression

/-!
# Expressions in logic notation

The notation of description logic with local names, such as `(A ⊓ ∃p.B)`.
-/

namespace Ontograph

/-- The sign of a restriction. -/
def Restriction.sign : Restriction → String
  | min => "≥"
  | max => "≤"
  | exact => "="

namespace ClassExpression

/-- A text between braces. -/
def braced (s : String) : String :=
  "\x7b" ++ s ++ "\x7d"

mutual

/-- An expression in logic notation. -/
def display : ClassExpression → String
  | thing => "⊤"
  | nothing => "⊥"
  | named uri => uri.localName
  | intersection operands => "(" ++ displayList " ⊓ " operands ++ ")"
  | union operands => "(" ++ displayList " ⊔ " operands ++ ")"
  | complement operand => "¬" ++ operand.display
  | objectSome property filler => "∃" ++ property.localName ++ "." ++ filler.display
  | objectAll property filler => "∀" ++ property.localName ++ "." ++ filler.display
  | objectHas property individual =>
      "∃" ++ property.localName ++ "." ++ braced individual.localName
  | objectCardinality restriction count property filler =>
      restriction.sign ++ " " ++ toString count.toNat ++ " " ++ property.localName ++ "."
        ++ filler.display
  | dataSome property => "∃" ++ property.localName ++ ".⊤ᴰ"
  | dataHas property value => "∃" ++ property.localName ++ "." ++ braced value.display
  | dataAll property range => "∀" ++ property.localName ++ "." ++ range.localName

/-- Operands with a sign between them. -/
def displayList (sign : String) : List ClassExpression → String
  | [] => ""
  | [operand] => operand.display
  | operand :: rest => operand.display ++ sign ++ displayList sign rest

end

end ClassExpression

end Ontograph
