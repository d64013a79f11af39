import RecordSchema.Text.LetterCase

/-!
# English plurals

Only the last word of an identifier is inflected. A few nouns have a plural of their own; the others
follow their last letters, in either case.
-/

namespace RecordSchema.Naming

open Text

/-- Nouns with an irregular plural, in lower case. -/
def irregulars : List (Text × Text) :=
  [("person", "people"), ("man", "men"), ("woman", "women"), ("child", "children"),
    ("mouse", "mice"), ("index", "indices"), ("matrix", "matrices"), ("vertex", "vertices"),
    ("datum", "data"), ("medium", "media"), ("schema", "schemas"), ("status", "statuses")]

/-- The text with its first byte in upper case. A byte that is no character by itself is
replaced. -/
def capitalized (t : Text) : Text := toUpper (t.take 1) ++ t.drop 1

def isVowel (b : UInt8) : Bool := b == 97 || b == 101 || b == 105 || b == 111 || b == 117

/-- Whether a lower-case word ends in a `y` that is not preceded by a vowel. -/
def endsInConsonantY (lower : Text) : Bool :=
  match lower.reverse with
  | 121 :: before :: _ => !isVowel before
  | _ => false

/-- The plural of a word by its last letters. -/
def regular (word lower : Text) : Text :=
  if hasSuffix "s" lower || hasSuffix "x" lower || hasSuffix "z" lower || hasSuffix "ch" lower ||
      hasSuffix "sh" lower then
    word ++ "es"
  else if endsInConsonantY lower then word.dropLast ++ "ies"
  else if hasSuffix "fe" lower then word.dropLast.dropLast ++ "ves"
  else if hasSuffix "f" lower then word.dropLast ++ "ves"
  else word ++ "s"

/-- The plural of a single word. -/
def pluralOfWord (word : Text) : Text :=
  let lower := toLower word
  match irregulars.lookup lower with
  | some plural =>
    match word with
    | b :: _ => if 65 ≤ b ∧ b ≤ 90 then capitalized plural else plural
    | [] => plural
  | none => regular word lower

/-- The plural of an identifier: what follows the last underscore is inflected, unless nothing
does. -/
def pluralize (t : Text) : Text :=
  if t.isEmpty then []
  else
    match cutLast? 95 t with
    | some (before, word) =>
      if word.isEmpty then pluralOfWord t else before ++ [95] ++ pluralOfWord word
    | none => pluralOfWord t

/-- The plural that only adds an `s`, unless there is one. -/
def simplePlural (t : Text) : Text := if hasSuffix "s" t then t else t ++ "s"

end RecordSchema.Naming
