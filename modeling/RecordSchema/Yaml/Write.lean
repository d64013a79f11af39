import RecordSchema.Number.Notation
import RecordSchema.Text.Letter
import RecordSchema.Value.Basic
import RecordSchema.Yaml.Presentation

/-!
# Values as YAML

Collections are written as blocks with two blanks for each level, also sequences inside mappings;
empty ones are written in brackets. The keys of a map are in natural order: numbers by value, and
texts with runs of digits compared as numbers. Some keys are not told apart by that, and some are
ordered in a circle; their order is left open.
-/

namespace RecordSchema.Yaml

open Text

namespace KeyOrder

/-- A number for the keys that are compared by number. -/
def number? : Value → Option Double
  | .int n => some (.ofInt n)
  | .float d => some d
  | .bool b => some (.ofInt (if b then 1 else 0))
  | _ => none

/-- The rank of the kinds of keys among each other. -/
def kindRank : Value → Nat
  | .bool _ => 1
  | .int n => if Number.fitsInt64 n then 2 else 11
  | .float _ => 14
  | .null => 20
  | .map _ _ => 21
  | .list _ => 23
  | .text _ => 24
  | _ => 25

/-- The value of a run of digits at the front, with its length. -/
def digitRun : Nat → List Char → Nat × Nat
  | value, c :: rest =>
    if isDigit c then
      let (v, n) := digitRun (value * 10 + (c.toNat - 48)) rest
      (v, n + 1)
    else (value, 0)
  | value, [] => (value, 0)

/-- A number as a word of 64 bits with a sign. -/
def word (n : Nat) : Int := Int.bmod n (Nat.pow 2 64)

/-- Whether the digits before a place, the last one first, hold one that is not zero. -/
def significantBefore (before : List Char) : Bool :=
  (before.takeWhile isDigit).any (· != '0')

/-- Compares two texts from the place where they differ; `before` is what they share, the last
character first. -/
def differAt (before as bs : List Char) (a b : Char) : Bool :=
  let digits := match before with
    | c :: _ => isDigit c
    | [] => false
  match isLetter a, isLetter b with
  | true, true => a < b
  | true, false => digits
  | false, true => !digits
  | false, false =>
    let start := if (a == '0' || b == '0') && significantBefore before then 1 else 0
    let (an, ai) := digitRun start as
    let (bn, bi) := digitRun start bs
    if word an ≠ word bn then word an < word bn else if ai ≠ bi then ai < bi else a < b

/-- Natural order of texts. -/
def textLess : (before as bs : List Char) → Bool
  | _, [], bs => !bs.isEmpty
  | _, _ :: _, [] => false
  | before, a :: as, b :: bs =>
    if a = b then textLess (a :: before) as bs else differAt before (a :: as) (b :: bs) a b

/-- Whether a key comes before another. What is no number comes before nothing and after nothing
that is compared by number. -/
def less (a b : Value) : Bool :=
  match number? a, number? b with
  | some x, some y =>
    if x.lt y then true
    else if y.lt x || x.isNaN || y.isNaN then false
    else if kindRank a ≠ kindRank b then kindRank a < kindRank b
    else
      match a, b with
      | .int m, .int n => m < n
      | _, _ => false
  | _, _ =>
    match a, b with
    | .text s, .text t => textLess [] s.shownChars t.shownChars
    | _, _ => kindRank a < kindRank b

end KeyOrder

/-- A scalar as its characters, with the style that is wanted for it and its tag. -/
structure PlainForm where
  chars : List Char
  style : ScalarStyle := .plain
  tag : Text := []

namespace PlainForm

def ofPlain (t : Text) : PlainForm := ⟨t.shownChars, .plain, []⟩

def ofText (t : Text) : PlainForm :=
  if isUtf8 t then ⟨t.shownChars, Scalar.wantedStyle (Scalar.readsAsText t) t, []⟩
  else
    let encoded := Scalar.binary t
    ⟨encoded.shownChars, Scalar.wantedStyle true encoded, Tag.binary⟩

def ofFloat (d : Double) : PlainForm :=
  ofPlain (if d.isNaN then ".nan"
    else if d.isInfinite then if d.isNegative then "-.inf" else ".inf"
    else d.render Double.general)

/-- The form of a value that is no collection. -/
def ofValue? : Value → Option PlainForm
  | .null => some (ofPlain "null")
  | .bool b => some (ofPlain (if b then "true" else "false"))
  | .int n => some (ofPlain (ofInt n))
  | .float d => some (ofFloat d)
  | .time t => some (ofPlain t.render)
  | .text t => some (ofText t)
  | .list items => if items.isEmpty then some (ofPlain "[]") else none
  | .map _ entries => if entries.isEmpty then some (ofPlain "\x7b\x7d") else none
  | .record fields => if fields.isEmpty then some (ofPlain "\x7b\x7d") else none

/-- The scalar with its tag in front. -/
def write (f : PlainForm) (indent : Nat) (simpleKey : Bool) : Written :=
  let style := (Presentation.ofChars f.chars).select f.chars.isEmpty simpleKey f.style
  let w := Written.scalar style indent f.chars
  if f.tag.isEmpty then w else { w with text := f.tag ++ " " ++ w.text }

/-- Whether a key can stand on one line with its value: it has no line break and at most 128
bytes. -/
def isSimpleKey (f : PlainForm) : Bool :=
  !(Presentation.ofChars f.chars).multiline &&
    decide ((Text.ofChars f.chars).length + f.tag.length ≤ 128)

end PlainForm

namespace Write

def pad (indent : Nat) : Text := replicate indent 32

/-- The key of a pair at an indentation, up to the colon. -/
def key (indent : Nat) (f : PlainForm) : Text :=
  if f.isSimpleKey then pad indent ++ (f.write (indent + 2) true).text ++ ":"
  else
    let w := f.write (indent + 2) false
    let stop : Text := if w.closed then [] else "\n"
    pad indent ++ "? " ++ w.text ++ stop ++ pad indent ++ ":"

/-- The form of a key. -/
def keyForm (v : Value) : PlainForm := (PlainForm.ofValue? v).getD (PlainForm.ofPlain [])

/-- Whether a key is different from itself, so that its value cannot be looked up. -/
def isLost : Value → Bool
  | .float d => d.isNaN
  | _ => false

/-- An inline value after a colon or a hyphen; the brackets of an empty collection are no scalar. -/
def inline (lead : Text) (v : Value) (f : PlainForm) (indent : Nat) : Written :=
  if v.isCollection then ⟨lead ++ " " ++ Text.ofChars f.chars, false⟩
  else
    let w := f.write (indent + 2) false
    { w with text := lead ++ " " ++ w.text }

/-- A value after its key; `below` is its block on the lines below. After a key that does not stand
on one line the first line of the block goes on after the colon. -/
def afterKey (indent : Nat) (k : PlainForm) (v : Value) (below : Written) : Written :=
  let lead := key indent k
  match PlainForm.ofValue? v with
  | some f => inline lead v f indent
  | none =>
    if k.isSimpleKey then { below with text := lead ++ "\n" ++ below.text }
    else { below with text := lead ++ " " ++ below.text.drop (indent + 2) }

/-- An item after its hyphen; `below` is its block, whose first line goes on after the hyphen. -/
def item (indent : Nat) (v : Value) (below : Written) : Written :=
  match PlainForm.ofValue? v with
  | some f => inline (pad indent ++ "-") v f indent
  | none => { below with text := pad indent ++ "- " ++ below.text.drop (indent + 2) }

/-- An entry of a map; a value that cannot be looked up is left out. -/
def entry (indent : Nat) (e : Value × Value) (below : Written) : Written :=
  afterKey indent (keyForm e.1) (if isLost e.1 then .null else e.2) below

/-- A field of a record. -/
def field (indent : Nat) (f : Text × Value) (below : Written) : Written :=
  afterKey indent (PlainForm.ofText f.1) f.2 below

/-- The lines of several parts. -/
def lines : List Written → Written
  | [] => ⟨[], false⟩
  | [w] => w
  | w :: rest =>
    let more := lines rest
    { more with text := w.text ++ (if w.closed then [] else [10]) ++ more.text }

mutual

/-- A collection as a block, every line of it indented. -/
def block (indent : Nat) : Value → Written
  | .list items => lines (blockItems indent items)
  | .map _ entries =>
    lines (((blockEntries indent entries).mergeSort fun a b => !KeyOrder.less b.1 a.1).map Prod.snd)
  | .record fields => lines (blockFields indent fields)
  | _ => ⟨[], false⟩

def blockItems (indent : Nat) : List Value → List Written
  | [] => []
  | v :: rest => item indent v (block (indent + 2) v) :: blockItems indent rest

def blockEntries (indent : Nat) : List (Value × Value) → List (Value × Written)
  | [] => []
  | (k, v) :: rest =>
    (k, entry indent (k, v) (block (indent + 2) v)) :: blockEntries indent rest

def blockFields (indent : Nat) : List (Text × Value) → List Written
  | [] => []
  | (k, v) :: rest => field indent (k, v) (block (indent + 2) v) :: blockFields indent rest

end

/-- A value as a document. -/
def document (v : Value) : Text :=
  let w : Written := match PlainForm.ofValue? v with
    | some f => if v.isCollection then ⟨Text.ofChars f.chars, false⟩ else f.write 2 false
    | none => block 0 v
  w.ended

end Write

end RecordSchema.Yaml
