/- Readers take characters off the front of a text. One that stops says why, and what was left. -/
import CivilTime.Error

namespace CivilTime.Text

/-- The reason why reading stopped, and the part of the text that was not taken. -/
structure Stop where
  problem : Problem
  rest : List Char

abbrev Reader := StateT (List Char) (Except Stop)

namespace Reader

def stop {α : Type} (problem : Problem) : Reader α := fun rest => .error ⟨problem, rest⟩

/-- Takes a literal if it comes next. -/
def accept (literal : List Char) : Reader Bool := fun rest =>
  if literal.isPrefixOf rest then .ok (true, rest.drop literal.length) else .ok (false, rest)

def expect (literal : List Char) : Reader Unit := fun rest =>
  if literal.isPrefixOf rest then .ok ((), rest.drop literal.length)
  else .error ⟨.expectedLiteral (String.ofList literal), rest⟩

/-- Takes exactly `count` digits. -/
def digits (count : Nat) (field : String) : Reader Nat := fun rest =>
  let chunk := rest.take count
  if chunk.length = count ∧ chunk.all Char.isDigit then
    .ok (Nat.ofDigitChars 10 chunk 0, rest.drop count)
  else .error ⟨.expectedDigits count field, rest⟩

/-- Takes characters as long as they are of the class. -/
def takeWhile (p : Char → Bool) : Reader (List Char) := fun rest =>
  .ok (rest.takeWhile p, rest.dropWhile p)

def atDigit : Reader Bool := fun rest => .ok ((rest.head?.map Char.isDigit).getD false, rest)

/-- Takes a number of one to eighteen digits. A longer one is refused behind its end. -/
def number : Reader Nat := do
  let run ← takeWhile Char.isDigit
  if run = [] then stop .expectedNumber
  else if 18 < run.length then stop .numberTooLong
  else return Nat.ofDigitChars 10 run 0

/-- Takes one to nine digits after a point and scales them to nanoseconds. -/
def fraction : Reader Nat := do
  let run ← takeWhile Char.isDigit
  if run = [] then stop .expectedFraction
  else if 9 < run.length then stop .fractionTooLong
  else return fractionNanos run

/-- A fraction if a point comes next. -/
def fraction? : Reader (Option Nat) := do
  if ← accept ['.'] then some <$> fraction else return none

/-- Nothing may be left. -/
def finish : Reader Unit := fun rest =>
  match rest with
  | [] => .ok ((), [])
  | _ => .error ⟨.trailing, rest⟩

/-- A value made from what was read, or its refusal at this place. -/
def build {α : Type} (made : Except Fault α) : Reader α := fun rest =>
  match made with
  | .ok a => .ok (a, rest)
  | .error f => .error ⟨.refused f, rest⟩

/-- Reads a text from its start. The position in a complaint counts the characters taken. -/
def read {α : Type} (form : Form) (reader : Reader α) (text : String) : Except Error α :=
  match reader text.toList with
  | .ok (a, _) => .ok a
  | .error s => .error (.unreadable form text s.problem (text.toList.length - s.rest.length))

end Reader

end CivilTime.Text
