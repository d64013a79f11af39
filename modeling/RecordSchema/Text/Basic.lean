/-!
# Texts

A text is a finite list of bytes. Documents, names, messages and written files are all texts: most
of them are valid UTF-8, but a binary scalar of a document may put any bytes in a description, and a
name may be cut in the middle of a character, so nothing here assumes validity.
-/

namespace RecordSchema

/-- A finite list of bytes. -/
abbrev Text := List UInt8

namespace Text

/-- The UTF-8 bytes of a string. -/
def ofString (s : String) : Text := s.toByteArray.data.toList

instance : Coe String Text := ⟨ofString⟩

/-- The parts of `parts` with `sep` between neighbours. -/
def join (sep : Text) (parts : List Text) : Text :=
  List.flatten (parts.intersperse sep)

/-- The maximal parts of `t` between the bytes equal to `sep`; there is always at least one. -/
def splitOn (sep : UInt8) : Text → List Text
  | [] => [[]]
  | b :: rest =>
    if b = sep then [] :: splitOn sep rest
    else
      match splitOn sep rest with
      | [] => [[b]]
      | part :: parts => (b :: part) :: parts

/-- What stands before and after the first byte equal to `sep`, if there is one. -/
def cut? (sep : UInt8) : Text → Option (Text × Text)
  | [] => none
  | b :: rest =>
    if b = sep then some ([], rest) else (cut? sep rest).map fun p => (b :: p.1, p.2)

/-- What stands before and after the last byte equal to `sep`, if there is one. -/
def cutLast? (sep : UInt8) (t : Text) : Option (Text × Text) :=
  (cut? sep t.reverse).map fun p => (p.2.reverse, p.1.reverse)

def hasPrefix (start t : Text) : Bool := start.isPrefixOf t

def hasSuffix (tail t : Text) : Bool := tail.isSuffixOf t

/-- `t` without `start` in front, if it begins so. -/
def dropPrefix? : Text → Text → Option Text
  | [], t => some t
  | _ :: _, [] => none
  | a :: start, b :: t => if a = b then dropPrefix? start t else none

/-- Whether `part` occurs in `t`. -/
def hasInfix (part : Text) : Text → Bool
  | [] => part.isEmpty
  | b :: t => part.isPrefixOf (b :: t) || hasInfix part t

/-- The bytewise lexicographic order, the one in which names are listed. -/
def le (a b : Text) : Bool := decide (a ≤ b)

/-- The texts of `ts` in ascending order. -/
def sort (ts : List Text) : List Text := ts.mergeSort le

/-- The lower-case hexadecimal digit of a number below sixteen. -/
def hexDigit (n : Nat) : UInt8 :=
  if n < 10 then (48 + n).toUInt8 else (87 + n).toUInt8

/-- Two lower-case hexadecimal digits for each byte. -/
def toHex (t : Text) : Text :=
  t.flatMap fun b => [hexDigit (b.toNat / 16), hexDigit (b.toNat % 16)]

/-- `n` copies of the byte `b`. -/
def replicate (n : Nat) (b : UInt8) : Text := List.replicate n b

theorem splitOn_ne_nil (sep : UInt8) (t : Text) : splitOn sep t ≠ [] := by
  cases t with
  | nil => simp [splitOn]
  | cons b rest =>
    rw [splitOn]
    split
    · simp
    · split <;> simp

end Text

end RecordSchema
